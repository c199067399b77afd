import AccessLog.Command
import AccessLog.Proofs.LetterCase
import AccessLog.Selector

/-!
# Tables are found by their spellings

A table is a list of members and a spelling for each, and every search in one is a search
through that list. What the rest of the theory wants is something else: **a name is found exactly
when it is the spelling of a member, and then it is that member**. The two agree only because
no member is left out of the list and no two members share a spelling, which one law says at
once: looking up the spelling of a member finds the member (`Table.Lawful`).

A namespace lowers a name that has a capital letter before it looks, and takes any other name as it
is, so it needs one law more: its spellings are lower case already. With it both ways are the same
as a comparison up to ASCII case, whatever else the name holds. The last law of `Namespace.Lawful` is about the characters of a spelling, and is
what lets a resolved name be written back into a parameter without ending it.
-/

set_option autoImplicit false

namespace AccessLog

/-! ## Exact names -/

/-- Looking up the spelling of a member finds the member. -/
class Table.Lawful (F : Type) [Table F] : Prop where
  ofName?_name : ∀ f : F, Table.ofName? (Table.name f) = some f

namespace Table

variable {F : Type} [Table F] [Table.Lawful F]

/-- **A table is searched by spelling**: what is found is the one member so spelled. -/
theorem ofName?_eq_some_iff {s : String} {f : F} : ofName? s = some f ↔ name f = s := by
  constructor
  · intro h
    have hname := List.find?_some h
    exact eq_of_beq hname
  · rintro rfl
    exact Lawful.ofName?_name f

/-- No member is left out of the list of a table. -/
theorem mem_all (f : F) : f ∈ (all : List F) :=
  List.mem_of_find?_eq_some (Lawful.ofName?_name f)

end Table

instance : Table.Lawful IntMetric where
  ofName?_name f := by cases f <;> decide

instance : Table.Lawful StrMetric where
  ofName?_name f := by cases f <;> decide

instance : Table.Lawful Flag where
  ofName?_name f := by cases f <;> decide

instance : Table.Lawful Command where
  ofName?_name c := by
    cases c with
    | int m => cases m <;> decide
    | str m => cases m <;> decide
    | flag m => cases m <;> decide
    | header side | body side => cases side <;> decide
    | middleware stage => cases stage <;> decide
    | _ => decide

namespace Command

/-- The command table answers to the spellings of its commands. -/
theorem lookup?_eq_some_iff {s : String} {c : Command} : lookup? s = some c ↔ c.name = s :=
  Table.ofName?_eq_some_iff

/-- The spelling of a command is not empty and ends before a parenthesis, a colon or a percent
sign. -/
theorem plain_name (c : Command) :
    c.name.toList ≠ [] ∧ '(' ∉ c.name.toList ∧ ':' ∉ c.name.toList ∧ '%' ∉ c.name.toList := by
  have hall : ∀ c ∈ (Table.all : List Command), c.name.toList ≠ [] ∧ '(' ∉ c.name.toList ∧
      ':' ∉ c.name.toList ∧ '%' ∉ c.name.toList := by decide
  exact hall c (Table.mem_all c)

end Command

/-! ## Names up to case -/

/-- A name that may stand in a parameter: it is not empty, and no character of it ends the field,
the parameter or the name. -/
structure Namespace.Plain (name : List Char) : Prop where
  ne_nil : name ≠ []
  no_percent : '%' ∉ name
  no_paren : ')' ∉ name
  no_mark : '?' ∉ name

instance (name : List Char) : Decidable (Namespace.Plain name) :=
  decidable_of_iff (name ≠ [] ∧ '%' ∉ name ∧ ')' ∉ name ∧ '?' ∉ name)
    ⟨fun h => ⟨h.1, h.2.1, h.2.2.1, h.2.2.2⟩,
      fun h => ⟨h.ne_nil, h.no_percent, h.no_paren, h.no_mark⟩⟩

/-- The spellings of a namespace are lower case and can stand in a parameter. -/
class Namespace.Lawful (F : Type) [Namespace F] : Prop extends Table.Lawful F where
  lower_name : ∀ f : F, Text.lower (Table.name f) = Table.name f
  plain_name : ∀ f : F, Namespace.Plain (Table.name f).toList

instance : Namespace.Lawful HttpField where
  ofName?_name f := by cases f <;> decide
  lower_name f := by cases f <;> decide
  plain_name f := by cases f <;> decide

instance : Namespace.Lawful UriField where
  ofName?_name f := by cases f <;> decide
  lower_name f := by cases f <;> decide
  plain_name f := by cases f <;> decide

instance : Namespace.Lawful MiddlewareField where
  ofName?_name f := by cases f <;> decide
  lower_name f := by cases f <;> decide
  plain_name f := by cases f <;> decide

instance : Namespace.Lawful Verbatim where
  ofName?_name := nofun
  lower_name := nofun
  plain_name := nofun

namespace Namespace

variable {F : Type} [Namespace F]

/-- Some member of the namespace has this name, up to ASCII case. -/
def HasMember (F : Type) [Namespace F] (name : String) : Prop :=
  ∃ f ∈ (Table.all : List F), Text.sameUpToCase name (Table.name f) = true

instance (name : String) : Decidable (HasMember F name) :=
  inferInstanceAs (Decidable (∃ f ∈ (Table.all : List F), _))

/-- A name without a capital letter is lower case, so looking for it as it is makes no
difference. -/
theorem lookup?_eq_ofName?_lower (name : String) :
    lookup? (F := F) name = Table.ofName? (Text.lower name) := by
  unfold lookup?
  split
  · rfl
  · rename_i hsmall
    rw [Text.lower_eq_self (eq_false_of_ne_true hsmall)]

variable [Namespace.Lawful F]

/-- **A namespace is searched up to case.** The search itself looks for an exact spelling; that
this is a comparison up to case is the lower-case law. -/
theorem lookup?_eq_some_iff {name : String} {f : F} :
    lookup? name = some f ↔ Text.sameUpToCase name (Table.name f) = true := by
  rw [lookup?_eq_ofName?_lower, Table.ofName?_eq_some_iff, Text.sameUpToCase,
    Lawful.lower_name, beq_iff_eq]
  exact eq_comm

theorem lookup?_eq_none_iff {name : String} :
    lookup? (F := F) name = none ↔ ¬ HasMember F name := by
  rw [Option.eq_none_iff_forall_ne_some]
  constructor
  · rintro h ⟨f, -, hf⟩
    exact h f (lookup?_eq_some_iff.mpr hf)
  · intro h f hf
    exact h ⟨f, Table.mem_all f, lookup?_eq_some_iff.mp hf⟩

end Namespace

/-! ## What a name refers to -/

namespace FieldRef

variable {F : Type} [Namespace F]

/-- What a name inside a parameter refers to: the member that it spells up to ASCII case, or
itself when it spells none. -/
inductive Refers (name : String) : FieldRef F → Prop where
  | member {f : F} (h : Text.sameUpToCase name (Table.name f) = true) :
    Refers name (.wellKnown f)
  | other (h : ¬ Namespace.HasMember F name) : Refers name (.custom name)

/-- A member answers to its own spelling. -/
theorem refers_name (f : F) : Refers (Table.name f) (.wellKnown f : FieldRef F) :=
  .member (by simp [Text.sameUpToCase])

variable [Namespace.Lawful F]

/-- Resolving a name gives the one thing that it refers to. -/
theorem resolve_eq_iff {name : String} {ref : FieldRef F} :
    resolve name = ref ↔ Refers name ref := by
  unfold resolve
  cases hfound : Namespace.lookup? (F := F) name with
  | some f =>
    have hf := Namespace.lookup?_eq_some_iff.mp hfound
    constructor
    · rintro rfl
      exact .member hf
    · intro h
      cases h with
      | member hg =>
        have := Namespace.lookup?_eq_some_iff.mpr hg
        rw [hfound] at this
        cases this
        rfl
      | other hnone => exact absurd ⟨f, Table.mem_all f, hf⟩ hnone
  | none =>
    have hnone := Namespace.lookup?_eq_none_iff.mp hfound
    constructor
    · rintro rfl
      exact .other hnone
    · intro h
      cases h with
      | @member g hg => exact absurd ⟨g, Table.mem_all g, hg⟩ hnone
      | other _ => rfl

end FieldRef

end AccessLog
