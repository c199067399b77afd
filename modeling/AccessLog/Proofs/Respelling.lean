import AccessLog.Proofs.Canonical
import AccessLog.Proofs.Compile.Fault
import AccessLog.Proofs.Numeral
import Mathlib.Logic.Relation

/-!
# Different spellings of one program

Many formats compile to the same instructions. This file says which: **formats that compile have
the same instructions exactly when one becomes the other by rewriting fields, one at a time, in
three ways** (`instructions_eq_iff_respelled`). The letters of a name that is a member of its
namespace may change their case, a length may have zeros in front, and empty parentheses may stand
behind a command that needs no parameter (`FieldRespelled`). Everything else is kept by compiling,
be it the case of another name, a blank in a pattern or where a text is divided.

That a rewrite is not noticed holds of the compiler as it stands, step by step: the readers that
see the rewritten part give the same result, so the field does (`FieldRespelled.fieldOf_eq`). That
no other rewrites are needed is shown by way of the canonical text, which a format can be rewritten
to and which the instructions alone determine.
-/

set_option autoImplicit false

namespace AccessLog

open Relation Compile

namespace Grammar

/-! ## The three rewrites -/

/-- A name of a member, and the same name with its letters in another case. -/
structure Recased (F : Type) [Namespace F] (a a' : List Char) : Prop where
  member : Namespace.HasMember F (String.ofList a)
  same : Text.sameUpToCase (String.ofList a) (String.ofList a') = true

/-- A parameter with one of its names in another case, where the name is that of a member. -/
inductive SelectorRecased (F : Type) [Namespace F] : List Char → List Char → Prop where
  | only {a a' : List Char} (h : Recased F a a') : SelectorRecased F a a'
  | first {a a' b : List Char} (h : Recased F a a') (hne : b ≠ []) (hplain : '?' ∉ b) :
    SelectorRecased F (a ++ '?' :: b) (a' ++ '?' :: b)
  | second {a b b' : List Char} (hne : a ≠ []) (hplain : '?' ∉ a) (h : Recased F b b') :
    SelectorRecased F (a ++ '?' :: b) (a ++ '?' :: b')

end Grammar

open Grammar in
/-- The same for the parameter of a command, whose names belong to its own namespace. -/
def Command.Recases : Command → List Char → List Char → Prop
  | .startTime | .int _ | .str _ | .flag _ => fun _ _ => False
  | .header _ => SelectorRecased HttpField
  | .trailer | .body _ | .routerInfo => SelectorRecased Verbatim
  | .uri => SelectorRecased UriField
  | .middleware _ => SelectorRecased MiddlewareField

namespace Grammar

/-- The body of a field and another spelling of it. -/
inductive FieldRespelled : List Char → List Char → Prop where
  | recase (command : Command) {brackets brackets' parameter parameter' length : List Char}
    {limit : Option Nat} (h : command.Recases parameter parameter')
    (hbrackets : Brackets brackets parameter) (hbrackets' : Brackets brackets' parameter')
    (hlength : Length length limit) :
    FieldRespelled (command.name.toList ++ (brackets ++ length))
      (command.name.toList ++ (brackets' ++ length))
  | pad (command : Command) {brackets parameter digits zeros : List Char} {limit : Option Nat}
    (hbrackets : Brackets brackets parameter) (hlength : Length (':' :: digits) limit)
    (hzeros : ∀ c ∈ zeros, c = '0') :
    FieldRespelled (command.name.toList ++ (brackets ++ ':' :: digits))
      (command.name.toList ++ (brackets ++ ':' :: (zeros ++ digits)))
  | empty (command : Command) {length : List Char} {limit : Option Nat}
    (harity : command.arity ≠ .required) (hlength : Length length limit) :
    FieldRespelled (command.name.toList ++ ([] ++ length))
      (command.name.toList ++ (['(', ')'] ++ length))

/-- A format and the same one with one field spelled differently. A percent sign opens a field if
an even number of others stand before it. -/
inductive Respelled : List Char → List Char → Prop where
  | field {front body body' rest : List Char} (hfront : Even (front.count '%'))
    (h : FieldRespelled body body') :
    Respelled (front ++ '%' :: (body ++ '%' :: rest)) (front ++ '%' :: (body' ++ '%' :: rest))

/-! ## A rewrite is not noticed -/

section

variable {F : Type} [Namespace F] {a a' : List Char}

theorem Recased.lower_eq (h : Recased F a a') :
    Text.lower (String.ofList a) = Text.lower (String.ofList a') := eq_of_beq h.same

theorem Recased.symm (h : Recased F a a') : Recased F a' a := by
  obtain ⟨f, hf, hname⟩ := h.member
  have hlower := h.lower_eq
  simp only [Text.sameUpToCase, beq_iff_eq] at hname
  refine ⟨⟨f, hf, ?_⟩, ?_⟩
  · simp [Text.sameUpToCase, ← hlower, hname]
  · simp [Text.sameUpToCase, hlower]

variable [Namespace.Lawful F]

/-- The name of a member can stand in a parameter in whatever case, since none of the characters
that end something there is a letter. -/
theorem Recased.plain (h : Recased F a a') : Namespace.Plain a := by
  obtain ⟨f, -, hname⟩ := h.member
  have hplain := Namespace.Lawful.plain_name f
  have hchars : a.map Char.toLower = (Table.name f).toList := by
    simp only [Text.sameUpToCase, beq_iff_eq, Namespace.Lawful.lower_name] at hname
    rw [← hname, Text.lower, String.toList_ofList, String.toList_ofList]
  rw [← hchars] at hplain
  refine ⟨fun hnil => hplain.ne_nil (by rw [hnil]; rfl), ?_, ?_, ?_⟩
  · intro hmem
    exact hplain.no_percent (List.mem_map_of_mem hmem)
  · intro hmem
    exact hplain.no_paren (List.mem_map_of_mem hmem)
  · intro hmem
    exact hplain.no_mark (List.mem_map_of_mem hmem)

/-- A name is looked up without regard to case. -/
theorem Recased.resolve_eq (h : Recased F a a') :
    FieldRef.resolve (F := F) (String.ofList a) = .resolve (String.ofList a') := by
  obtain ⟨f, -, hname⟩ := h.member
  have hf : Namespace.lookup? (F := F) (String.ofList a) = some f :=
    Namespace.lookup?_eq_some_iff.mpr hname
  have hf' : Namespace.lookup? (F := F) (String.ofList a') = some f := by
    rw [Namespace.lookup?_eq_ofName?_lower, ← h.lower_eq, ← Namespace.lookup?_eq_ofName?_lower]
    exact hf
  simp only [FieldRef.resolve, hf, hf']

theorem SelectorRecased.selectorOf_eq {parameter parameter' : List Char}
    (h : SelectorRecased F parameter parameter') (field : String) :
    selectorOf (F := F) field parameter = selectorOf field parameter' := by
  cases h with
  | only h =>
    rw [selectorOf_one field h.plain.ne_nil h.plain.no_mark,
      selectorOf_one field h.symm.plain.ne_nil h.symm.plain.no_mark, Selector.resolve,
      Selector.resolve, h.resolve_eq]
  | first h hne hplain =>
    rw [selectorOf_two field h.plain.ne_nil h.plain.no_mark hne hplain,
      selectorOf_two field h.symm.plain.ne_nil h.symm.plain.no_mark hne hplain,
      Selector.resolve, Selector.resolve, h.resolve_eq]
  | second hne hplain h =>
    rw [selectorOf_two field hne hplain h.plain.ne_nil h.plain.no_mark,
      selectorOf_two field hne hplain h.symm.plain.ne_nil h.symm.plain.no_mark,
      Selector.resolve, Selector.resolve, Option.map_some, Option.map_some, h.resolve_eq]

theorem SelectorRecased.ne_nil {parameter parameter' : List Char}
    (h : SelectorRecased F parameter parameter') : parameter ≠ [] ∧ parameter' ≠ [] := by
  cases h with
  | only h => exact ⟨h.plain.ne_nil, h.symm.plain.ne_nil⟩
  | first _ _ _ => simp
  | second _ _ _ => simp

theorem SelectorRecased.plain {parameter parameter' : List Char}
    (h : SelectorRecased F parameter parameter') (hpercent : '%' ∉ parameter)
    (hend : ')' ∉ parameter) : '%' ∉ parameter' ∧ ')' ∉ parameter' := by
  cases h with
  | only h => exact ⟨h.symm.plain.no_percent, h.symm.plain.no_paren⟩
  | first h _ _ =>
    have hplain := h.symm.plain
    simp_all [hplain.no_percent, hplain.no_paren]
  | second _ _ h =>
    have hplain := h.symm.plain
    simp_all [hplain.no_percent, hplain.no_paren]

end

end Grammar

namespace Command

variable {command : Command} {parameter parameter' : List Char}

theorem Recases.queryOf_eq (h : command.Recases parameter parameter') (field : String) :
    queryOf field parameter command = queryOf field parameter' command := by
  cases command with
  | startTime | int _ | str _ | flag _ => exact h.elim
  | header _ | trailer | body _ | uri | routerInfo | middleware _ =>
    exact congrArg (_ <$> ·) (Grammar.SelectorRecased.selectorOf_eq h field)

theorem Recases.plain (h : command.Recases parameter parameter') (hpercent : '%' ∉ parameter)
    (hend : ')' ∉ parameter) : '%' ∉ parameter' ∧ ')' ∉ parameter' := by
  cases command with
  | startTime | int _ | str _ | flag _ => exact h.elim
  | header _ | trailer | body _ | uri | routerInfo | middleware _ =>
    exact Grammar.SelectorRecased.plain h hpercent hend

theorem Recases.checkArity_eq (h : command.Recases parameter parameter') (field : String) :
    checkArity field command.arity parameter = .ok () ∧
      checkArity field command.arity parameter' = .ok () := by
  rw [checkArity_eq_ok_iff, checkArity_eq_ok_iff]
  cases command with
  | startTime | int _ | str _ | flag _ => exact h.elim
  | header _ | trailer | body _ | uri | routerInfo | middleware _ =>
    exact Grammar.SelectorRecased.ne_nil h

end Command

namespace Grammar

theorem Brackets.divided {brackets parameter length : List Char} {limit : Option Nat}
    (hbrackets : Brackets brackets parameter) (hlength : Length length limit) :
    Divided (brackets ++ length) parameter length := by
  cases hbrackets with
  | absent => exact .bare hlength.ne_paren
  | around _ hend =>
    rw [List.cons_append, List.append_assoc]
    exact .around hend

/-- What compiling a body comes to once its parts are known. How they are spelled has no share in
it. -/
theorem fieldOf_parts (command : Command) {brackets parameter length : List Char}
    {limit : Option Nat} (hbrackets : Brackets brackets parameter)
    (hlength : Length length limit) :
    fieldOf (command.name.toList ++ (brackets ++ length)) = (do
      checkArity command.name command.arity parameter
      let query ← queryOf command.name parameter command
      return ⟨.field query, limit⟩) := by
  have hends := endsField_append hbrackets hlength
  have hname : ∀ c ∈ command.name.toList, endsName c = false := fun c => endsName_of_mem_name
  have hafter : Divided (afterName (command.name.toList ++ (brackets ++ length))) parameter
      length := by
    rw [afterName_append hname hends]
    exact hbrackets.divided hlength
  rw [fieldOf_eq (nameOf_append hname hends) hafter, limitOf_eq_ok_iff.mpr hlength]
  rfl

theorem no_percent_parts (command : Command) {brackets parameter length : List Char}
    {limit : Option Nat} (hbrackets : Brackets brackets parameter)
    (hlength : Length length limit) : '%' ∉ command.name.toList ++ (brackets ++ length) := by
  rw [List.mem_append, List.mem_append, not_or, not_or]
  exact ⟨command.plain_name.2.2.2, hbrackets.no_percent, hlength.no_percent⟩

/-- Zeros in front of a length do not change it. -/
theorem Length.pad {digits zeros : List Char} {limit : Option Nat}
    (h : Length (':' :: digits) limit) (hzeros : ∀ c ∈ zeros, c = '0') :
    Length (':' :: (zeros ++ digits)) limit := by
  have hvalue : Nat.ofDigitChars 10 (zeros ++ digits) 0 = Nat.ofDigitChars 10 digits 0 := by
    rw [List.eq_replicate_of_mem hzeros, Nat.ofDigitChars_append,
      Nat.ofDigitChars_replicate_zero, Nat.mul_zero]
  cases h with
  | digits hne hdigits hbound =>
    rw [← hvalue] at hbound ⊢
    refine .digits (by simp [hne]) ?_ hbound
    intro c hc
    rcases List.mem_append.mp hc with hc | hc
    · rw [hzeros c hc]
      rfl
    · exact hdigits c hc

theorem Brackets.empty : Brackets ['(', ')'] [] :=
  .around List.not_mem_nil List.not_mem_nil

theorem FieldRespelled.no_percent {body body' : List Char} (h : FieldRespelled body body') :
    '%' ∉ body ∧ '%' ∉ body' := by
  cases h with
  | recase command _ hbrackets hbrackets' hlength =>
    exact ⟨no_percent_parts command hbrackets hlength,
      no_percent_parts command hbrackets' hlength⟩
  | pad command hbrackets hlength hzeros =>
    exact ⟨no_percent_parts command hbrackets hlength,
      no_percent_parts command hbrackets (hlength.pad hzeros)⟩
  | empty command _ hlength =>
    exact ⟨no_percent_parts command .absent hlength, no_percent_parts command .empty hlength⟩

/-- **A field spelled differently compiles to the same instruction**, or fails alike. -/
theorem FieldRespelled.fieldOf_eq {body body' : List Char} (h : FieldRespelled body body') :
    fieldOf body = fieldOf body' := by
  cases h with
  | recase command h hbrackets hbrackets' hlength =>
    obtain ⟨harity, harity'⟩ := h.checkArity_eq command.name
    rw [fieldOf_parts command hbrackets hlength, fieldOf_parts command hbrackets' hlength,
      harity, harity', h.queryOf_eq]
  | pad command hbrackets hlength hzeros =>
    rw [fieldOf_parts command hbrackets hlength,
      fieldOf_parts command hbrackets (hlength.pad hzeros)]
  | empty command _ hlength =>
    rw [fieldOf_parts command .absent hlength, fieldOf_parts command .empty hlength]

theorem FieldRespelled.ne_nil {body body' : List Char} (h : FieldRespelled body body') :
    body ≠ [] ∧ body' ≠ [] := by
  cases h with
  | recase command _ _ _ _ | pad command _ _ _ | empty command _ _ =>
    have hname := command.plain_name.1
    exact ⟨List.append_ne_nil_of_left_ne_nil hname _, List.append_ne_nil_of_left_ne_nil hname _⟩

/-- A format spelled differently means the same. -/
theorem Respelled.format_iff {t u : List Char} (h : Respelled t u)
    (instructions : List Instruction) : Format t instructions ↔ Format u instructions := by
  cases h with
  | field hfront h =>
    obtain ⟨hpercent, hpercent'⟩ := h.no_percent
    obtain ⟨hne, hne'⟩ := h.ne_nil
    rw [← @scan_eq_ok_iff 0, ← @scan_eq_ok_iff 0, scan_field_of_even hfront hpercent,
      scan_field_of_even hfront hpercent', bodyOf_of_ne_nil hne, bodyOf_of_ne_nil hne',
      h.fieldOf_eq]

/-- However often it is. -/
theorem format_iff_of_eqvGen {t u : List Char} (h : EqvGen Respelled t u)
    (instructions : List Instruction) : Format t instructions ↔ Format u instructions := by
  induction h with
  | rel t u h => exact h.format_iff instructions
  | refl t => rfl
  | symm t u _ ih => exact ih.symm
  | trans t u v _ _ ih ih' => exact ih.trans ih'

/-! ## Every format can be rewritten to its canonical text

One part of a field after the other: the digits, the names and the brackets. -/

theorem eqvGen_length (command : Command) {brackets parameter length : List Char}
    {limit : Option Nat} (hbrackets : Brackets brackets parameter)
    (hlength : Length length limit) :
    EqvGen FieldRespelled (command.name.toList ++ (brackets ++ length))
      (command.name.toList ++ (brackets ++ Instruction.lengthText limit)) := by
  cases hlength with
  | absent => exact .refl _
  | @digits digits hne hdigits hbound =>
    have htext : Length (Instruction.lengthText (some (Nat.ofDigitChars 10 digits 0))) _ :=
      Instruction.length_lengthText (by simpa using hbound)
    obtain ⟨zeros, hzeros, heq⟩ := Text.exists_zeros_append_toDigits hdigits hne
    have hpad := FieldRespelled.pad command hbrackets htext hzeros
    rw [← heq] at hpad
    exact .symm _ _ (.rel _ _ hpad)

theorem eqvGen_brackets (command : Command) {brackets brackets' parameter length : List Char}
    {limit : Option Nat} (hadmits : command.arity.Admits parameter)
    (hbrackets : Brackets brackets parameter) (hbrackets' : Brackets brackets' parameter)
    (hlength : Length length limit) :
    EqvGen FieldRespelled (command.name.toList ++ (brackets ++ length))
      (command.name.toList ++ (brackets' ++ length)) := by
  have harity : parameter = [] → command.arity ≠ .required := by
    rintro rfl heq
    rw [heq] at hadmits
    exact hadmits rfl
  cases hbrackets with
  | absent =>
    cases hbrackets' with
    | absent => exact .refl _
    | around _ _ => exact .rel _ _ (.empty command (harity rfl) hlength)
  | around _ _ =>
    cases hbrackets' with
    | absent => exact .symm _ _ (.rel _ _ (.empty command (harity rfl) hlength))
    | around _ _ => exact .refl _

section

variable {F : Type} [Namespace F] [Namespace.Lawful F]

/-- A name is written as it is unless it is that of a member. -/
theorem eq_or_recased {a : List Char} {ref : FieldRef F}
    (h : FieldRef.Refers (String.ofList a) ref) :
    a = ref.name.toList ∨ Recased F a ref.name.toList := by
  cases h with
  | @member f hname =>
    refine .inr ⟨⟨f, Table.mem_all f, hname⟩, ?_⟩
    rw [String.ofList_toList]
    exact hname
  | other _ => exact .inl String.toList_ofList.symm

theorem Names.recases {parameter : List Char} {selector : Selector F}
    (h : Names parameter selector) :
    ReflTransGen (SelectorRecased F) parameter selector.text.toList := by
  cases h with
  | one _ _ href =>
    rcases eq_or_recased href with heq | hrecased
    · rw [heq]
      exact .refl
    · exact .single (.only hrecased)
  | @two a b ref other hne hplain href hne' hplain' href' =>
    have htext : (Selector.text ⟨ref, some other⟩).toList
        = ref.name.toList ++ '?' :: other.name.toList := by
      simp [Selector.text, String.toList_append]
    rw [htext]
    -- the first name, and what the step for the second one has to know of it
    have hfirst : ReflTransGen (SelectorRecased F) (a ++ '?' :: b)
        (ref.name.toList ++ '?' :: b) ∧ ref.name.toList ≠ [] ∧ '?' ∉ ref.name.toList := by
      rcases eq_or_recased href with heq | hrecased
      · rw [← heq]
        exact ⟨.refl, hne, hplain⟩
      · have hname := hrecased.symm.plain
        exact ⟨.single (.first hrecased hne' hplain'), hname.ne_nil, hname.no_mark⟩
    obtain ⟨hfirst, hname, hmark⟩ := hfirst
    refine hfirst.trans ?_
    rcases eq_or_recased href' with heq | hrecased
    · rw [← heq]
    · exact .single (.second hname hmark hrecased)

end

theorem Asks.command_eq {command : Command} {parameter : List Char} {query : Query}
    (h : Asks command parameter query) : query.command = command := by
  cases h <;> rfl

/-- A parameter can be rewritten to the one that its query is written with. -/
theorem Asks.recases {command : Command} {parameter : List Char} {query : Query}
    (h : Asks command parameter query) (hadmits : command.arity.Admits parameter) :
    ReflTransGen command.Recases parameter query.written := by
  cases h with
  | startTime _ =>
    rw [Query.written_startTime, String.toList_ofList]
  | int _ _ | str _ _ | flag _ _ =>
    cases hadmits
    exact .refl
  | header _ hnames | trailer hnames | body _ hnames | uri hnames | routerInfo hnames
  | middleware _ hnames => exact hnames.recases

theorem eqvGen_recases (command : Command) {parameter parameter' length : List Char}
    {limit : Option Nat} (h : ReflTransGen command.Recases parameter parameter')
    (hlength : Length length limit) {brackets : List Char}
    (hbrackets : Brackets brackets parameter) :
    ∃ brackets', Brackets brackets' parameter' ∧
      EqvGen FieldRespelled (command.name.toList ++ (brackets ++ length))
        (command.name.toList ++ (brackets' ++ length)) := by
  induction h with
  | refl => exact ⟨brackets, hbrackets, .refl _⟩
  | @tail middle last _ hstep ih =>
    obtain ⟨brackets', hbrackets', hmiddle⟩ := ih
    obtain ⟨hpercent, hend⟩ := hbrackets'.parameter_plain
    obtain ⟨hpercent', hend'⟩ := hstep.plain hpercent hend
    have haround := Brackets.around hpercent' hend'
    exact ⟨_, haround, hmiddle.trans _ _ _
      (.rel _ _ (.recase command hstep hbrackets' haround hlength))⟩

/-- **A field can be rewritten to the text of its instruction.** -/
theorem Field.eqvGen_text {body : List Char} {i : Instruction} (h : Field body i) :
    ∃ body', i.text.toList = '%' :: (body' ++ ['%']) ∧ EqvGen FieldRespelled body body' := by
  have hnormal : i.Normal := (Piece.field h).normal
  cases h with
  | @mk command brackets parameter length limit query hbrackets hlength hadmits hasks =>
    obtain ⟨hquery, -⟩ := hnormal
    refine ⟨_, Instruction.toList_fieldText query limit, ?_⟩
    have hadmits' := hquery.admits
    rw [hasks.command_eq] at hadmits' ⊢
    obtain ⟨brackets', hbrackets', hnames⟩ :=
      eqvGen_recases command (hasks.recases hadmits) hlength hbrackets
    exact hnames.trans _ _ _ <|
      (eqvGen_brackets command hadmits' hbrackets' hquery.brackets hlength).trans _ _ _ <|
      eqvGen_length command hquery.brackets hlength

/-- What can be done to the body of a field can be done where it stands. -/
theorem eqvGen_field {front body body' : List Char} (rest : List Char)
    (hfront : Even (front.count '%')) (h : EqvGen FieldRespelled body body') :
    EqvGen Respelled (front ++ '%' :: (body ++ '%' :: rest))
      (front ++ '%' :: (body' ++ '%' :: rest)) := by
  induction h with
  | rel body body' h => exact .rel _ _ (.field hfront h)
  | refl body => exact .refl _
  | symm body body' _ ih => exact .symm _ _ ih
  | trans body middle body' _ _ ih ih' => exact .trans _ _ _ ih ih'

theorem Piece.eqvGen_text {front piece : List Char} {i : Instruction} (rest : List Char)
    (hfront : Even (front.count '%')) (h : Piece piece i) :
    EqvGen Respelled (front ++ (piece ++ rest)) (front ++ (i.text.toList ++ rest)) := by
  cases h with
  | run hrun =>
    have hpercent : '%' ∉ (String.ofList piece).toList := by
      rw [String.toList_ofList]
      exact hrun.2
    have htext : (Instruction.literal (String.ofList piece)).text.toList = piece := by
      show (Instruction.escape (String.ofList piece)).toList = piece
      rw [Instruction.escape_of_no_percent hpercent, String.toList_ofList]
    rw [htext]
    exact .refl _
  | percent => exact .refl _
  | field hfield =>
    obtain ⟨body', htext, hbody⟩ := hfield.eqvGen_text
    rw [htext, List.cons_append, List.cons_append, List.append_assoc, List.append_assoc]
    exact eqvGen_field rest hfront hbody

/-- **A format can be rewritten to its canonical text**, from the front to the back. What is
already written has an even number of percent signs, so the next piece is where it was. -/
theorem eqvGen_pieces {pieces : List (List Char)} {instructions : List Instruction}
    (h : List.Forall₂ Piece pieces instructions) {front : List Char}
    (hfront : Even (front.count '%')) :
    EqvGen Respelled (front ++ pieces.flatten)
      (front ++ instructions.flatMap (·.text.toList)) := by
  induction h generalizing front with
  | nil => exact .refl _
  | @cons piece i pieces instructions hpiece _ ih =>
    rw [List.flatten_cons, List.flatMap_cons]
    refine (hpiece.eqvGen_text pieces.flatten hfront).trans _ _ _ ?_
    have heven : Even ((front ++ i.text.toList).count '%') := by
      rw [List.count_append]
      exact hfront.add hpiece.normal.piece_text.even_count
    have hrest := ih heven
    rw [List.append_assoc, List.append_assoc] at hrest
    exact hrest

theorem Format.eqvGen_canonical {cs : List Char} {instructions : List Instruction}
    (h : Format cs instructions) :
    EqvGen Respelled cs (instructions.flatMap (·.text.toList)) := by
  obtain ⟨pieces, rfl, hpieces, -⟩ := h
  have hrewritten := @eqvGen_pieces _ _ hpieces [] .zero
  exact hrewritten

end Grammar

/-! ## The same program -/

/-- A rewritten format compiles too, and to the same instructions. -/
theorem exists_compile_of_eqvGen {t u : String} {p : Program} (hp : compile t = .ok p)
    (h : EqvGen Grammar.Respelled t.toList u.toList) :
    ∃ q, compile u = .ok q ∧ q.instructions = p.instructions := by
  obtain ⟨-, hformat⟩ := compile_eq_ok_iff_format.mp hp
  have hrewritten := (Grammar.format_iff_of_eqvGen h p.instructions).mp hformat
  exact ⟨⟨u, p.instructions⟩, compile_eq_ok_iff_format.mpr ⟨rfl, hrewritten⟩, rfl⟩

/-- **Formats have the same instructions exactly when one can be rewritten to the other.** -/
theorem instructions_eq_iff_respelled {t u : String} {p q : Program} (hp : compile t = .ok p)
    (hq : compile u = .ok q) :
    p.instructions = q.instructions ↔ EqvGen Grammar.Respelled t.toList u.toList := by
  constructor
  · intro heq
    have ht := (compile_eq_ok_iff_format.mp hp).2.eqvGen_canonical
    have hu := (compile_eq_ok_iff_format.mp hq).2.eqvGen_canonical
    rw [← heq] at hu
    exact ht.trans _ _ _ (hu.symm _ _)
  · intro h
    obtain ⟨q', hq', heq⟩ := exists_compile_of_eqvGen hp h
    rw [hq] at hq'
    cases hq'
    exact heq.symm

/-- All three rewrites take one format to another. The case of a name that is no member is kept,
so two formats that differ in nothing else are out of each other's reach. -/
theorem instructions_eq_iff_respelled_host :
    EqvGen Grammar.Respelled "%REQ(HOST?x):007%%START_TIME()%".toList
      "%REQ(host?x):7%%START_TIME%".toList ∧
    ¬ EqvGen Grammar.Respelled "%REQ(X-Id)%".toList "%REQ(x-id)%".toList := by
  constructor
  · exact (instructions_eq_iff_respelled (t := "%REQ(HOST?x):007%%START_TIME()%")
      (u := "%REQ(host?x):7%%START_TIME%") rfl rfl).mp rfl
  · intro h
    have heq := (instructions_eq_iff_respelled (t := "%REQ(X-Id)%") (u := "%REQ(x-id)%")
      rfl rfl).mpr h
    revert heq
    decide

end AccessLog
