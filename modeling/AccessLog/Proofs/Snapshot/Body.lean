import AccessLog.Proofs.Binary64.Notation
import AccessLog.Proofs.Json.Compact
import AccessLog.Proofs.Json.Double
import AccessLog.Proofs.Snapshot.Readers
import AccessLog.Proofs.Text.Parts
import AccessLog.Snapshot.Answer

/-!
# The places in a body

A field of a body is named by a dotted path. The path is cut at its dots, and each part leads one
step further down, as the name of a member or as the index of an element, whichever the value at
that point has use for. The theory is about the places instead: a place is reached by a row of
steps, each spelled in some way (`Json.Value.Step`), and **a path finds what is reached by steps
whose spellings it joins** (`atPath?_eq_some_iff`).

So a member whose name holds a dot is out of reach, and the body itself is too, since a path has
one step at least. A member with the empty name is not, nor is one whose name is a number.

What is found is shown bare if it is a string, not at all if it is null, and else as its compact
text, by the rules of the notation (`Json.Value.Compact`). A double in it is shown by the shortest
decimal that rounds to it (`Binary64.ShownAs`). That is said of doubles of the right form, and the
doubles of a snapshot that was read have it (`Snapshot.normal_of_reaches`).
-/

set_option autoImplicit false

namespace AccessLog

namespace Json.Value

/-! ## Steps -/

/-- What spells an index of an array: its digits, with zeros in front or not, and with a plus sign
or not. -/
inductive SpellsIndex (i : Nat) : List Char → Prop where
  | plain {digits : List Char} (hne : digits ≠ []) (hdigits : ∀ c ∈ digits, c.isDigit = true)
    (hvalue : Nat.ofDigitChars 10 digits 0 = i) : SpellsIndex i digits
  | plus {digits : List Char} (hne : digits ≠ []) (hdigits : ∀ c ∈ digits, c.isDigit = true)
    (hvalue : Nat.ofDigitChars 10 digits 0 = i) : SpellsIndex i ('+' :: digits)

/-- A step from a value to a part of it, and its spelling. Of two members with one name the first
counts, but in the value of a document there are no two. -/
inductive Step : Value → String → Value → Prop where
  | member {front back : List (String × Value)} {name : String} {v : Value}
    (hfirst : ∀ m ∈ front, m.1 ≠ name) (hdot : '.' ∉ name.toList) :
    Step (.object (front ++ (name, v) :: back)) name v
  | element {items : List Value} {i : Nat} {v : Value} {spelling : String}
    (hitem : items[i]? = some v) (hindex : SpellsIndex i spelling.toList) (hbound : i < 2 ^ 64) :
    Step (.array items) spelling v

/-- One step or more, one after the other. -/
inductive Leads : Value → List String → Value → Prop where
  | last {v w : Value} {part : String} (hstep : Step v part w) : Leads v [part] w
  | next {v u w : Value} {part : String} {parts : List String} (hstep : Step v part u)
    (hmore : Leads u parts w) : Leads v (part :: parts) w

/-- The places that a path names. -/
def Reaches (v : Value) (path : String) (w : Value) : Prop :=
  ∃ parts : List String, Leads v parts w ∧ path = ".".intercalate parts

theorem SpellsIndex.no_dot {i : Nat} {part : List Char} (h : SpellsIndex i part) : '.' ∉ part := by
  intro hmem
  cases h with
  | plain _ hdigits _ => exact absurd (hdigits _ hmem) (by decide)
  | plus _ hdigits _ =>
    rcases List.mem_cons.mp hmem with hplus | hmem
    · exact absurd hplus (by decide)
    · exact absurd (hdigits _ hmem) (by decide)

/-- A plus sign is no digit, so at most one is taken off before the digits are read. -/
theorem index?_eq_some_iff {part : List Char} {i : Nat} :
    index? part = some i ↔ SpellsIndex i part ∧ i < 2 ^ 64 := by
  have hread : ∀ digits : List Char, (Text.natural? digits).filter (· < indexBound) = some i ↔
      (digits ≠ [] ∧ (∀ c ∈ digits, c.isDigit = true) ∧ Nat.ofDigitChars 10 digits 0 = i) ∧
        i < 2 ^ 64 := by
    intro digits
    rw [Text.natural?_filter_eq_some_iff]
    simp only [and_assoc]
    rfl
  constructor
  · intro h
    unfold index? at h
    split at h
    · rename_i digits
      obtain ⟨⟨hne, hdigits, hvalue⟩, hbound⟩ := (hread digits).mp h
      exact ⟨.plus hne hdigits hvalue, hbound⟩
    · obtain ⟨⟨hne, hdigits, hvalue⟩, hbound⟩ := (hread part).mp h
      exact ⟨.plain hne hdigits hvalue, hbound⟩
  · rintro ⟨hindex, hbound⟩
    cases hindex with
    | plus hne hdigits hvalue => exact (hread _).mpr ⟨⟨hne, hdigits, hvalue⟩, hbound⟩
    | plain hne hdigits hvalue =>
      unfold index?
      split
      · exact absurd (hdigits '+' List.mem_cons_self) (by decide)
      · exact (hread part).mpr ⟨⟨hne, hdigits, hvalue⟩, hbound⟩

theorem Step.no_dot {v w : Value} {part : String} (h : Step v part w) : '.' ∉ part.toList := by
  cases h with
  | member _ hdot => exact hdot
  | element _ hindex _ => exact hindex.no_dot

/-- A part of a path leads where a step with this spelling does. -/
theorem step?_eq_some_iff {v w : Value} {part : List Char} (hdot : '.' ∉ part) :
    step? v part = some w ↔ Step v (String.ofList part) w := by
  constructor
  · intro h
    cases v with
    | object members =>
      obtain ⟨front, back, rfl, hfirst⟩ := List.lookup_eq_some_iff.mp h
      refine .member ?_ (by rwa [String.toList_ofList])
      intro m hm heq
      have hother := hfirst m hm
      simp [heq] at hother
    | array items =>
      obtain ⟨i, hi, hitem⟩ := Option.bind_eq_some_iff.mp h
      obtain ⟨hindex, hbound⟩ := index?_eq_some_iff.mp hi
      exact .element hitem (by rwa [String.toList_ofList]) hbound
    | null | bool _ | number _ | string _ => cases h
  · intro h
    -- a step is taken apart by its spelling, which is that of this part
    generalize hspelling : String.ofList part = spelling at h
    cases h with
    | @member front back name v hfirst _ =>
      show List.lookup (String.ofList part) _ = some w
      rw [hspelling, List.lookup_eq_some_iff]
      refine ⟨front, back, rfl, fun m hm => ?_⟩
      simpa using fun heq : spelling = m.1 => hfirst m hm heq.symm
    | @element items i v _ hitem hindex hbound =>
      rw [← hspelling, String.toList_ofList] at hindex
      exact Option.bind_eq_some_iff.mpr ⟨i, index?_eq_some_iff.mpr ⟨hindex, hbound⟩, hitem⟩

/-! ## Paths -/

theorem Leads.ne_nil {v w : Value} {parts : List String} (h : Leads v parts w) : parts ≠ [] := by
  cases h <;> simp

theorem Leads.no_dot {v w : Value} {parts : List String} (h : Leads v parts w) :
    ∀ part ∈ parts, '.' ∉ part.toList := by
  induction h with
  | last hstep => simpa using hstep.no_dot
  | next hstep _ ih => simpa using ⟨hstep.no_dot, ih⟩

/-- A row of parts leads where a row of steps does. -/
theorem foldlM_step?_eq_some_iff {parts : List (List Char)} (hne : parts ≠ [])
    (hdot : ∀ part ∈ parts, '.' ∉ part) {v w : Value} :
    parts.foldlM step? v = some w ↔ Leads v (parts.map String.ofList) w := by
  induction parts generalizing v with
  | nil => exact absurd rfl hne
  | cons part parts ih =>
    obtain ⟨hpart, hparts⟩ := List.forall_mem_cons.mp hdot
    rw [List.foldlM_cons, List.map_cons, Option.bind_eq_bind, Option.bind_eq_some_iff]
    simp only [step?_eq_some_iff hpart]
    -- the last part is a step that nothing follows, each other one a step that the rest follows
    cases parts with
    | nil =>
      constructor
      · rintro ⟨u, hstep, hu⟩
        cases hu
        exact .last hstep
      · intro h
        cases h with
        | last hstep => exact ⟨w, hstep, rfl⟩
        | next _ hmore => exact absurd rfl hmore.ne_nil
    | cons next parts =>
      constructor
      · rintro ⟨u, hstep, hu⟩
        exact .next hstep ((ih (by simp) hparts).mp hu)
      · intro h
        cases h with
        | next hstep hmore => exact ⟨_, hstep, (ih (by simp) hparts).mpr hmore⟩

/-- **A path finds what is reached by steps whose spellings it joins.** -/
theorem atPath?_eq_some_iff {v w : Value} {path : String} :
    v.atPath? path = some w ↔ Reaches v path w := by
  constructor
  · intro h
    refine ⟨(path.toList.splitOn '.').map String.ofList, ?_, ?_⟩
    · exact (foldlM_step?_eq_some_iff (List.splitOn_ne_nil '.' _)
        fun _ => Text.not_mem_of_mem_splitOn).mp h
    · exact (Text.intercalate_splitOn rfl path).symm
  · rintro ⟨parts, hleads, rfl⟩
    have hsplit := @Text.splitOn_intercalate '.' "." rfl parts hleads.ne_nil hleads.no_dot
    have hne : parts.map String.toList ≠ [] := by simpa using hleads.ne_nil
    have hdot : ∀ part ∈ parts.map String.toList, '.' ∉ part := by simpa using hleads.no_dot
    have hparts : String.ofList ∘ String.toList = id := funext fun s => String.ofList_toList
    show List.foldlM step? v _ = some w
    rw [hsplit, foldlM_step?_eq_some_iff hne hdot, List.map_map, hparts, List.map_id]
    exact hleads

/-- A dot between two paths leaves the one and enters the other. -/
theorem atPath?_append (v : Value) (p q : String) :
    v.atPath? (p ++ "." ++ q) = (v.atPath? p).bind (·.atPath? q) := by
  have hsplit : (p ++ "." ++ q).toList.splitOn '.'
      = p.toList.splitOn '.' ++ q.toList.splitOn '.' := by
    have hchars : (p ++ "." ++ q).toList = p.toList ++ '.' :: q.toList := by simp
    rw [hchars, List.splitOn_append_cons_self]
  show List.foldlM step? v _ = _
  rw [hsplit, List.foldlM_append]
  rfl

/-! ## What is reached is smaller -/

theorem Step.sizeOf_lt {v w : Value} {part : String} (h : Step v part w) :
    sizeOf w < sizeOf v := by
  cases h with
  | @member front back _ _ _ _ =>
    have hmem : (part, w) ∈ front ++ (part, w) :: back := by simp
    have hlt := List.sizeOf_lt_of_mem hmem
    simp only [Prod.mk.sizeOf_spec, object.sizeOf_spec] at hlt ⊢
    omega
  | element hitem _ _ =>
    have hlt := List.sizeOf_lt_of_mem (List.mem_of_getElem? hitem)
    simp only [array.sizeOf_spec]
    omega

theorem Leads.sizeOf_lt {v w : Value} {parts : List String} (h : Leads v parts w) :
    sizeOf w < sizeOf v := by
  induction h with
  | last hstep => exact hstep.sizeOf_lt
  | next hstep _ ih => exact ih.trans hstep.sizeOf_lt

/-- No path leads back to where it starts. -/
theorem atPath?_ne_self (v : Value) (path : String) : v.atPath? path ≠ some v := by
  intro h
  obtain ⟨parts, hleads, -⟩ := atPath?_eq_some_iff.mp h
  exact absurd hleads.sizeOf_lt (Nat.lt_irrefl _)

/-! ## What is reached holds no other numbers -/

section

variable {q : Number → Bool} {v w : Value}

theorem Step.every_number {part : String} (h : Step v part w)
    (hv : v.every (ifNumber q) = true) : w.every (ifNumber q) = true := by
  cases h with
  | member => exact (every_object.mp hv).2 (part, w) (by simp)
  | element hitem => exact (every_array.mp hv).2 w (List.mem_of_getElem? hitem)

theorem Leads.every_number {parts : List String} (h : Leads v parts w)
    (hv : v.every (ifNumber q) = true) : w.every (ifNumber q) = true := by
  induction h with
  | last hstep => exact hstep.every_number hv
  | next hstep _ ih => exact ih (hstep.every_number hv)

end

/-! ## Fields of a body -/

/-- How a part of a body is shown. Null is not shown at all. -/
inductive Shown : Value → String → Prop where
  | bare (s : String) : Shown (.string s) s
  | compact {v : Value} {text : String} (hnull : v ≠ .null) (hstring : ∀ s, v ≠ .string s)
    (h : Compact v text.toList) : Shown v text

theorem exists_shown_iff {v : Value} : (∃ text, v.Shown text) ↔ v ≠ .null := by
  constructor
  · rintro ⟨text, h⟩ rfl
    cases h with
    | compact hnull _ _ => exact hnull rfl
  · intro hnull
    by_cases hstring : ∃ s, v = .string s
    · obtain ⟨s, rfl⟩ := hstring
      exact ⟨s, .bare s⟩
    · exact ⟨_, .compact hnull (not_exists.mp hstring) (compact_iff.mpr rfl)⟩

end Json.Value

open Json (Value)

theorem Message.bodyText?_eq_some_iff {v : Value} {text : String} :
    bodyText? v = some text ↔ v.Shown text := by
  constructor
  · intro h
    cases v with
    | null => cases h
    | string s =>
      cases h
      exact .bare _
    | bool _ | number _ | array _ | object _ =>
      exact .compact nofun nofun (Value.compact_iff.mpr (Option.some.inj h))
  · intro h
    cases h with
    | bare => rfl
    | compact hnull hstring h =>
      have htext := Value.compact_iff.mp h
      cases v with
      | null => exact absurd rfl hnull
      | string s => exact absurd rfl (hstring s)
      | bool _ | number _ | array _ | object _ => exact congrArg some htext

theorem Message.bodyField?_eq_some_iff {m : Message} {path text : String} :
    m.bodyField? path = some text ↔
      ∃ body w, m.body = some body ∧ body.Reaches path w ∧ w.Shown text := by
  simp only [bodyField?, Option.bind_eq_bind, Option.bind_eq_some_iff, bodyText?_eq_some_iff,
    Value.atPath?_eq_some_iff]
  constructor
  · rintro ⟨body, hbody, w, hreach, hshown⟩
    exact ⟨body, w, hbody, hreach, hshown⟩
  · rintro ⟨body, w, hbody, hreach, hshown⟩
    exact ⟨body, hbody, w, hreach, hshown⟩

/-- **Dotted paths name the places that are reached without crossing a dot**, and they compose: to
go on from where a path leads is to write on behind a dot. No path names the whole body. The field
of a body at a path is the text of what is found there, if that is not null: a string bare, and
anything else as compact JSON, with the shortest decimal for a double. -/
theorem body_paths :
    (∀ (v w : Value) (path : String), v.atPath? path = some w ↔ v.Reaches path w) ∧
      (∀ (v : Value) (p q : String),
        v.atPath? (p ++ "." ++ q) = (v.atPath? p).bind (·.atPath? q)) ∧
      (∀ (v : Value) (path : String), v.atPath? path ≠ some v) ∧
      (∀ (m : Message) (path text : String), m.bodyField? path = some text ↔
        ∃ body w, m.body = some body ∧ body.Reaches path w ∧ w.Shown text) ∧
      ∀ x : Binary64, x.Normal → x.ShownAs x.text :=
  ⟨fun _ _ _ => Value.atPath?_eq_some_iff, Value.atPath?_append, Value.atPath?_ne_self,
    fun _ _ _ => Message.bodyField?_eq_some_iff, fun _ => Binary64.Normal.shownAs_text⟩

/-- A member with an empty name, an array with a double in it and a string that needs escapes. -/
theorem body_paths_compact :
    (⟨true, 3 * 2 ^ 51, -52⟩ : Binary64).Normal ∧
      (⟨true, 3 * 2 ^ 51, -52⟩ : Binary64).ShownAs "-1.5" ∧
      Message.bodyField? { body := some (.object [("", .array
          [.number (.float ⟨true, 3 * 2 ^ 51, -52⟩), .string "\x1f\"", .null])]) } ""
        = some "[-1.5,\"\\u001f\\\"\",null]" := by
  have hnormal : (⟨true, 3 * 2 ^ 51, -52⟩ : Binary64).Normal := by decide
  have htext : Binary64.text ⟨true, 3 * 2 ^ 51, -52⟩ = "-1.5" := by decide +kernel
  have hreaches : ∀ item, Value.Reaches (.object [("", item)]) "" item := fun item =>
    ⟨[""], .last (@Value.Step.member [] [] "" item (by simp) (by decide)), rfl⟩
  refine ⟨hnormal, htext ▸ body_paths.2.2.2.2 _ hnormal, ?_⟩
  refine (body_paths.2.2.2.1 _ _ _).mpr ⟨_, _, rfl, hreaches _, .compact nofun nofun ?_⟩
  exact Value.compact_iff.mpr (by decide +kernel)

/-- A member with an empty name, and the last of two elements, counted with a plus sign and a zero
in front. -/
example :
    (Value.object [("", .array [.null, .bool true])]).atPath? ".+01" = some (.bool true) := by
  decide

/-! ## The doubles of a snapshot -/

section

variable {q : Json.Number → Bool} {v : Value}

theorem Message.every_body {m : Message} (h : spelling.Means v m)
    (hv : v.every (Value.ifNumber q) = true) :
    ∀ body ∈ m.body, body.every (Value.ifNumber q) = true := by
  intro body hbody
  have hpart : (⟨"body", .optional .any, (·.body)⟩ : Json.Part Message) ∈ parts := by simp [parts]
  rcases Json.Spelling.exists_part_of_means hpart h hv with hdefault | ⟨w, hw, hmeans⟩
  · cases hdefault.symm.trans hbody
  · rcases hmeans with ⟨-, hnone⟩ | ⟨-, other, hother, heq⟩
    · cases hnone.symm.trans hbody
    · cases hother.symm.trans hbody
      exact heq ▸ hw

theorem Snapshot.every_body {s : Snapshot} (h : spelling.Means v s)
    (hv : v.every (Value.ifNumber q) = true) (side : Side) :
    ∀ body ∈ (s.message side).body, body.every (Value.ifNumber q) = true := by
  have hmessage : ∀ m : Message, (m = {} ∨ ∃ w : Value, w.every (Value.ifNumber q) = true ∧
      Message.spelling.Means w m) → ∀ body ∈ m.body, body.every (Value.ifNumber q) = true := by
    rintro m (rfl | ⟨w, hw, hmeans⟩)
    · exact fun body hbody => nomatch hbody
    · exact Message.every_body hmeans hw
  cases side with
  | request =>
    have hpart : (⟨"request", Message.spelling, (·.request)⟩ : Json.Part Snapshot) ∈ parts := by
      simp [parts]
    exact hmessage _ (Json.Spelling.exists_part_of_means hpart h hv)
  | response =>
    have hpart : (⟨"response", Message.spelling, (·.response)⟩ : Json.Part Snapshot) ∈ parts := by
      simp [parts]
    exact hmessage _ (Json.Spelling.exists_part_of_means hpart h hv)

end

/-- A snapshot that was read is meant by a value without other doubles than those of that form. -/
theorem Snapshot.exists_normal_of_read {source : String} {s : Snapshot}
    (h : read source = .ok s ∨ ∃ ss, readAll source = .ok ss ∧ s ∈ ss) :
    ∃ v : Value, v.every (Value.ifNumber Json.Number.normal) = true ∧ spelling.Means v s := by
  rcases h with h | ⟨ss, h, hs⟩
  · obtain ⟨v, hread, hmeans⟩ := exists_means_of_read h
    exact ⟨v, Value.normal_of_read? hread, hmeans⟩
  · obtain ⟨v, hread, hall⟩ := exists_means_of_readAll h
    obtain ⟨item, hitem, hmeans⟩ := exists_mem_of_forall₂ hall hs
    refine ⟨item, ?_, hmeans⟩
    have hnormal := Value.normal_of_read? hread
    cases v with
    | array items => exact (Value.every_array.mp hnormal).2 item hitem
    | null | bool _ | number _ | string _ | object _ =>
      exact List.mem_singleton.mp hitem ▸ hnormal

/-- **A double that a path leads to has the form of a double**, in a snapshot that was read. -/
theorem Snapshot.normal_of_reaches {source : String} {s : Snapshot}
    (h : read source = .ok s ∨ ∃ ss, readAll source = .ok ss ∧ s ∈ ss) {side : Side} {body : Value}
    (hbody : (s.message side).body = some body) {path : String} {x : Binary64}
    (hx : body.Reaches path (.number (.float x))) : x.Normal := by
  obtain ⟨v, hv, hmeans⟩ := exists_normal_of_read h
  obtain ⟨parts, hleads, -⟩ := hx
  exact of_decide_eq_true (hleads.every_number (every_body hmeans hv side body hbody))

end AccessLog
