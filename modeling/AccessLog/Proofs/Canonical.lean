import AccessLog.Proofs.Compile.Acceptance
import AccessLog.Proofs.Normal

/-!
# The canonical text

Every instruction can be written back as format text, and the texts of the instructions of a
program, one after the other, are its canonical text. For a normal program this text is a format
again and means the very same instructions (`Normal.format_canonical`). The work is done for one
instruction, `piece_text`: **what is written for a normal instruction is a piece that means it**.
It is there that the escape, the parentheses, the names, the question mark and the digits have to
agree with the grammar. Nothing has to be said about how the pieces lie together, since normal
neighbours are apart and the grammar asks for no more.

Two facts about all formats come out of it. The normal lists are exactly those that some format
compiles to (`exists_compile_iff_normal`), so whoever builds a program by hand knows what to keep
to. And the canonical text of a compiled format compiles to the same instructions
(`canonical_recompiles`), so it stands for them.
-/

set_option autoImplicit false

namespace AccessLog

/-! ## The canonical text of a normal instruction is a piece -/

namespace FieldRef

variable {F : Type} [Namespace F] {ref : FieldRef F}

/-- Written by its name, a normal reference is what the name refers to. -/
theorem Normal.refers (h : ref.Normal) : Refers ref.name ref := by
  cases ref with
  | wellKnown f => exact refers_name f
  | custom name => exact .other h.2

variable [Namespace.Lawful F]

theorem Normal.plain (h : ref.Normal) : Namespace.Plain ref.name.toList := by
  cases ref with
  | wellKnown f => exact Namespace.Lawful.plain_name f
  | custom name => exact h.1

end FieldRef

namespace Selector

variable {F : Type} [Namespace F] [Namespace.Lawful F] {s : Selector F}

theorem Normal.names (h : s.Normal) : Grammar.Names s.text.toList s := by
  obtain ⟨primary, fallback⟩ := s
  have hprimary : primary.Normal := h primary List.mem_cons_self
  have hrefers : FieldRef.Refers (String.ofList primary.name.toList) primary := by
    rw [String.ofList_toList]
    exact hprimary.refers
  cases fallback with
  | none => exact .one hprimary.plain.ne_nil hprimary.plain.no_mark hrefers
  | some other =>
    have hother : other.Normal := h other (by simp [refs])
    have hrefers' : FieldRef.Refers (String.ofList other.name.toList) other := by
      rw [String.ofList_toList]
      exact hother.refers
    have htext : (primary.name ++ "?" ++ other.name).toList
        = primary.name.toList ++ '?' :: other.name.toList := by
      simp [String.toList_append]
    rw [text, htext]
    exact .two hprimary.plain.ne_nil hprimary.plain.no_mark hrefers hother.plain.ne_nil
      hother.plain.no_mark hrefers'

theorem Normal.plain (h : s.Normal) : '%' ∉ s.text.toList ∧ ')' ∉ s.text.toList := by
  obtain ⟨primary, fallback⟩ := s
  have hprimary : Namespace.Plain primary.name.toList := (h primary List.mem_cons_self).plain
  cases fallback with
  | none => exact ⟨hprimary.no_percent, hprimary.no_paren⟩
  | some other =>
    have hother : Namespace.Plain other.name.toList := (h other (by simp [refs])).plain
    simp [text, String.toList_append, hprimary.no_percent, hprimary.no_paren, hother.no_percent,
      hother.no_paren]

end Selector

theorem Grammar.Names.ne_nil {F : Type} [Namespace F] {parameter : List Char}
    {selector : Selector F} (h : Grammar.Names parameter selector) : parameter ≠ [] := by
  cases h with
  | one hne _ _ => exact hne
  | two hne _ _ _ _ _ => exact fun hnil => hne (List.append_eq_nil_iff.mp hnil).1

namespace Query

/-- The parameter of a query as text; a query that is written without one has the empty one. -/
def written (query : Query) : List Char := (query.parameter.getD "").toList

/-- The parameter of a query in parentheses, when it has one. -/
def brackets (query : Query) : List Char :=
  match query.parameter with
  | some p => '(' :: (p.toList ++ [')'])
  | none => []

/-- Leaving an empty pattern out loses nothing. -/
theorem written_startTime (pattern : String) : (startTime pattern).written = pattern.toList := by
  by_cases hempty : pattern = ""
  · subst hempty
    rfl
  · have hfalse : pattern.isEmpty = false := by simpa using hempty
    simp only [written, parameter, hfalse]
    rfl

theorem Normal.asks {query : Query} (h : query.Normal) :
    Grammar.Asks query.command query.written query := by
  cases query with
  | startTime pattern =>
    have hasks := Grammar.Asks.startTime pattern.toList
    rw [String.ofList_toList] at hasks
    rw [written_startTime]
    exact hasks
  | int metric => exact .int metric _
  | str metric => exact .str metric _
  | flag f => exact .flag f _
  | header side selector => exact .header side (Selector.Normal.names h)
  | trailer selector => exact .trailer (Selector.Normal.names h)
  | body side selector => exact .body side (Selector.Normal.names h)
  | uri selector => exact .uri (Selector.Normal.names h)
  | routerInfo selector => exact .routerInfo (Selector.Normal.names h)
  | middleware stage selector => exact .middleware stage (Selector.Normal.names h)

theorem Normal.admits {query : Query} (h : query.Normal) :
    query.command.arity.Admits query.written := by
  cases query with
  | startTime _ => exact trivial
  | int _ | str _ | flag _ => rfl
  | header _ _ | trailer _ | body _ _ | uri _ | routerInfo _ | middleware _ _ =>
    exact (Selector.Normal.names h).ne_nil

theorem Normal.plain {query : Query} (h : query.Normal) :
    '%' ∉ query.written ∧ ')' ∉ query.written := by
  cases query with
  | startTime pattern =>
    rw [written_startTime]
    exact h
  | int _ | str _ | flag _ => exact ⟨List.not_mem_nil, List.not_mem_nil⟩
  | header _ _ | trailer _ | body _ _ | uri _ | routerInfo _ | middleware _ _ =>
    exact Selector.Normal.plain h

theorem Normal.brackets {query : Query} (h : query.Normal) :
    Grammar.Brackets query.brackets query.written := by
  have hplain := h.plain
  unfold Query.brackets written at *
  cases hparameter : query.parameter with
  | none => exact .absent
  | some p =>
    rw [hparameter] at hplain
    exact .around hplain.1 hplain.2

end Query

namespace Instruction

/-- A limit as it stands behind a field. -/
def lengthText : Option Nat → List Char
  | some n => ':' :: Nat.toDigits 10 n
  | none => []

/-- A decimal numeral is a length of that many characters. -/
theorem length_lengthText {limit : Option Nat} (h : ∀ n ∈ limit, n < 2 ^ 64) :
    Grammar.Length (lengthText limit) limit := by
  cases limit with
  | none => exact .absent
  | some n =>
    have hvalue : Nat.ofDigitChars 10 (Nat.toDigits 10 n) 0 = n :=
      Nat.ofDigitChars_toDigits (by decide) (by decide)
    have hbound : Nat.ofDigitChars 10 (Nat.toDigits 10 n) 0 < 2 ^ 64 := by
      rw [hvalue]
      exact h n rfl
    have hdigits : ∀ c ∈ Nat.toDigits 10 n, c.isDigit = true := fun c hc =>
      Nat.isDigit_of_mem_toDigits (by decide) (by decide) hc
    have hlength := Grammar.Length.digits Nat.toDigits_ne_nil hdigits hbound
    rw [hvalue] at hlength
    exact hlength

theorem toList_fieldText (query : Query) (limit : Option Nat) :
    (fieldText query limit).toList
      = '%' :: ((query.command.name.toList ++ (query.brackets ++ lengthText limit)) ++ ['%']) := by
  unfold fieldText Query.brackets lengthText
  cases query.parameter <;> cases limit <;> simp [Text.decimal, String.toList_append]

/-- Only percent signs are touched by the escape. -/
theorem escape_of_no_percent {s : String} (h : '%' ∉ s.toList) : escape s = s := by
  have hid : ∀ c ∈ s.toList, (if c = '%' then ['%', '%'] else [c]) = [c] := by
    intro c hc
    have hne : c ≠ '%' := fun heq => h (heq ▸ hc)
    exact if_neg hne
  unfold escape
  rw [List.flatMap_congr hid, List.flatMap_singleton', String.ofList_toList]

/-- **A normal instruction is what its own text means.** -/
theorem Normal.piece_text {i : Instruction} (h : i.Normal) : Grammar.Piece i.text.toList i := by
  obtain ⟨op, limit⟩ := i
  cases op with
  | text s =>
    obtain ⟨hlimit, hs⟩ := h
    cases hlimit
    rcases hs with rfl | ⟨hne, hpercent⟩
    · exact .percent
    · have hrun : Grammar.IsRun s.toList :=
        ⟨fun hnil => hne (String.toList_eq_nil_iff.mp hnil), hpercent⟩
      have hpiece := Grammar.Piece.run hrun
      rw [String.ofList_toList] at hpiece
      have htext : text ⟨.text s, none⟩ = s := escape_of_no_percent hpercent
      rw [htext]
      exact hpiece
  | field query =>
    obtain ⟨hquery, hlimit⟩ := h
    rw [text, toList_fieldText]
    exact .field (.mk query.command hquery.brackets (length_lengthText hlimit) hquery.admits
      hquery.asks)

end Instruction

/-! ## The normal lists are those that compile -/

/-- The canonical text of a program with normal instructions means just these. -/
theorem Normal.format_canonical {p : Program} (h : Normal p.instructions) :
    Grammar.Format p.canonical.toList p.instructions := by
  refine ⟨p.instructions.map (·.text.toList), ?_, ?_, ?_⟩
  · rw [Program.canonical, String.toList_join, List.flatMap_map]
    rfl
  · rw [List.forall₂_map_left_iff, List.forall₂_same]
    exact fun i hi => (h.each i hi).piece_text
  · rw [List.isChain_map]
    refine h.apart.imp_of_mem_imp ?_
    intro i j hi hj hij hboth
    have hrun := (h.each i hi).piece_text.isRun_iff.mp hboth.1
    have hrun' := (h.each j hj).piece_text.isRun_iff.mp hboth.2
    exact hij ⟨hrun, hrun'⟩

namespace Compile

theorem normal_of_compile {t : String} {p : Program} (h : compile t = .ok p) :
    Normal p.instructions :=
  (compile_eq_ok_iff_format.mp h).2.normal

/-- A program with normal instructions can be written down, and compiles from what is written. -/
theorem compile_canonical {p : Program} (h : Normal p.instructions) :
    compile p.canonical = .ok ⟨p.canonical, p.instructions⟩ :=
  compile_eq_ok_iff_format.mpr ⟨rfl, h.format_canonical⟩

end Compile

/-- **The lists of instructions that some format compiles to are the normal ones.** -/
theorem exists_compile_iff_normal (instructions : List Instruction) :
    (∃ t p, compile t = .ok p ∧ p.instructions = instructions) ↔ Normal instructions := by
  constructor
  · rintro ⟨t, p, hp, rfl⟩
    exact Compile.normal_of_compile hp
  · intro h
    let p : Program := ⟨"", instructions⟩
    exact ⟨p.canonical, _, Compile.compile_canonical (p := p) h, rfl⟩

/-- **The canonical text of a compiled format compiles to the same instructions**, and is its own
canonical text; so formats with the same canonical text are those with the same instructions. -/
theorem canonical_recompiles :
    (∀ t p, compile t = .ok p → ∃ p', compile p.canonical = .ok p' ∧
      p'.instructions = p.instructions ∧ p'.canonical = p.canonical) ∧
    (∀ t t' p p', compile t = .ok p → compile t' = .ok p' →
      (p.instructions = p'.instructions ↔ p.canonical = p'.canonical)) := by
  constructor
  · intro t p hp
    have hcanonical := Compile.compile_canonical (Compile.normal_of_compile hp)
    exact ⟨_, hcanonical, rfl, rfl⟩
  · intro t t' p p' hp hp'
    constructor
    · intro heq
      rw [Program.canonical, heq, ← Program.canonical]
    · intro heq
      have hcanonical := Compile.compile_canonical (Compile.normal_of_compile hp)
      have hcanonical' := Compile.compile_canonical (Compile.normal_of_compile hp')
      rw [heq, hcanonical'] at hcanonical
      exact (congrArg Program.instructions (Except.ok.inj hcanonical)).symm

/-- Empty parentheses, a percent sign between fields, a member in capitals, a custom name with a
parenthesis and a colon in it, leading zeros: another spelling of the same program. -/
theorem canonical_recompiles_respelled : ∃ p p' q,
    compile "%START_TIME()%%%%REQ(HOST?x(y:z):007%" = .ok p ∧
    compile "%START_TIME%%%%REQ(host?x(y:z):7%" = .ok p' ∧
    compile p.canonical = .ok q ∧ q.instructions = p.instructions ∧ q.canonical = p.canonical ∧
    p.instructions = p'.instructions := by
  let instructions : List Instruction :=
    [⟨.field (.startTime ""), none⟩, .literal "%",
      ⟨.field (.header .request ⟨.wellKnown .host, some (.custom "x(y:z")⟩), some 7⟩]
  have hp : compile "%START_TIME()%%%%REQ(HOST?x(y:z):007%" = .ok ⟨_, instructions⟩ := rfl
  have hp' : compile "%START_TIME%%%%REQ(host?x(y:z):7%" = .ok ⟨_, instructions⟩ := rfl
  obtain ⟨q, hq, hinstructions, hcanonical⟩ := canonical_recompiles.1 _ _ hp
  have hsame := (canonical_recompiles.2 _ _ _ _ hp hp').mpr rfl
  exact ⟨_, _, q, hp, hp', hq, hinstructions, hcanonical, hsame⟩

end AccessLog
