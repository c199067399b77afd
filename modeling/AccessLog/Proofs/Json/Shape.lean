import AccessLog.Json.Value
import AccessLog.Proofs.Json.Tree
import Mathlib.Data.Option.Defs

/-!
# Shapes and spellings

What a document may look like, and what it then says, without a decoder.

A `Shape` is a schema: which values are admitted in a place (`Shape.Admits`). It knows nothing of
what is made of them. A `Spelling` is a shape together with what the admitted values mean, as a
relation between values and what they are read as. Both are put together from the same few pieces,
and the piece that matters is the record: a row of named parts (`Part`), each with a spelling of
its own and the place in the record where it is kept.

A record may be given as an object or as an array, and `Value.given?` says which members it has
then: an array gives the first fields in their own order. From there on the two are the same, and a
part that is not given has what the default record has (`Part.Holds`).
-/

set_option autoImplicit false

namespace AccessLog.Json

/-! ## Records -/

/-- The members that a value gives to a record with these fields: those of an object, or the elements
of an array under the names of the fields in order. -/
def Value.given? (fields : List String) : Value → Option (List (String × Value))
  | .object members => some members
  | .array items => if items.length ≤ fields.length then some (fields.zip items) else none
  | _ => none

/-! ## Shapes -/

/-- What values are admitted in a place. -/
inductive Shape where
  | any
  | text
  /-- A text that a reader of its own accepts. -/
  | readable (accepts : String → Bool)
  | flag
  /-- An integer between two bounds; a double is none, whatever its size. -/
  | integer (low high : Int)
  /-- A value or null. -/
  | optional (shape : Shape)
  | list (shape : Shape)
  /-- An object with values of one shape, under any names or only under some. -/
  | dict (names : Option (List String)) (shape : Shape)
  /-- A record with these fields, any of which may be left out. -/
  | record (fields : List (String × Shape))

namespace Shape

mutual

/-- Whether a value is admitted. -/
def Admits : Shape → Value → Prop
  | .any, _ => True
  | .text, v => ∃ s, v = .string s
  | .readable accepts, v => ∃ s, v = .string s ∧ accepts s = true
  | .flag, v => ∃ b, v = .bool b
  | .integer low high, v => ∃ n, v = .number (.int n) ∧ low ≤ n ∧ n ≤ high
  | .optional shape, v => v = .null ∨ Admits shape v
  | .list shape, v => ∃ items, v = .array items ∧ ∀ item ∈ items, Admits shape item
  | .dict names shape, v => ∃ members, v = .object members ∧
      ∀ m ∈ members, (∀ allowed ∈ names, m.1 ∈ allowed) ∧ Admits shape m.2
  | .record fields, v => ∃ members, v.given? (fields.map Prod.fst) = some members ∧
      ∀ m ∈ members, AdmitsMember fields m.1 m.2

/-- Whether a value is admitted as a member with a name: the record has such a field, and the value
is admitted there. -/
def AdmitsMember : List (String × Shape) → String → Value → Prop
  | [], _, _ => False
  | (field, shape) :: fields, name, v =>
    if name = field then Admits shape v else AdmitsMember fields name v

end

/-- Whether null is expected in a place. -/
def isOptional : Shape → Bool
  | .any | .optional _ => true
  | _ => false

/-- **Null stands only where a value is optional.** -/
theorem admits_null_iff (shape : Shape) : shape.Admits .null ↔ shape.isOptional = true := by
  cases shape <;> simp [Admits, isOptional, Value.given?]

theorem admitsMember_iff {fields : List (String × Shape)} (h : (fields.map Prod.fst).Nodup)
    {name : String} {v : Value} :
    AdmitsMember fields name v ↔ ∃ shape, (name, shape) ∈ fields ∧ shape.Admits v := by
  induction fields with
  | nil => simp [AdmitsMember]
  | cons f fields ih =>
    obtain ⟨field, shape⟩ := f
    obtain ⟨hfresh, hrest⟩ := List.nodup_cons.mp h
    rw [AdmitsMember]
    split
    · rename_i heq
      subst heq
      constructor
      · intro hadmits
        exact ⟨shape, List.mem_cons_self, hadmits⟩
      · rintro ⟨other, hmem, hadmits⟩
        rcases List.mem_cons.mp hmem with heq | hmem
        · cases heq
          exact hadmits
        · exact absurd (List.mem_map.mpr ⟨_, hmem, rfl⟩) hfresh
    · rename_i hne
      rw [ih hrest]
      simp [hne]

end Shape

/-! ## Spellings -/

/-- Which values spell something, and what each of them means. -/
structure Spelling (α : Type) where
  shape : Shape
  Means : Value → α → Prop

/-- A part of a record: its name, how it is spelled and where it is kept. -/
structure Part (α : Type) where
  {β : Type}
  name : String
  spelling : Spelling β
  get : α → β

/-- A record has in a part what is given for it, and what the default record has if nothing is. -/
def Part.Holds {α : Type} (part : Part α) (default : α) (members : List (String × Value)) (a : α) :
    Prop :=
  match members.lookup part.name with
  | some v => part.spelling.Means v (part.get a)
  | none => part.get a = part.get default

namespace Part

variable {α : Type} {part : Part α} {default a : α} {members : List (String × Value)} {v : Value}

theorem holds_iff_of_lookup (h : members.lookup part.name = some v) :
    part.Holds default members a ↔ part.spelling.Means v (part.get a) := by
  rw [Holds, h]

theorem holds_iff_of_missing (h : members.lookup part.name = none) :
    part.Holds default members a ↔ part.get a = part.get default := by
  rw [Holds, h]

/-- What else is given does not matter. -/
theorem holds_congr {others : List (String × Value)}
    (h : members.lookup part.name = others.lookup part.name) :
    part.Holds default members a ↔ part.Holds default others a := by
  rw [Holds, Holds, h]

end Part

namespace Spelling

variable {α : Type}

/-- A value stands for itself. -/
def any : Spelling Value := ⟨.any, fun v a => v = a⟩

def text : Spelling String := ⟨.text, fun v s => v = .string s⟩

/-- A text means what a reader makes of it. -/
def readable {ε : Type} (read : String → Except ε α) : Spelling α :=
  ⟨.readable fun s => (read s).isOk, fun v a => ∃ s, v = .string s ∧ read s = .ok a⟩

def flag : Spelling Bool := ⟨.flag, fun v b => v = .bool b⟩

def integer (low high : Int) : Spelling Int :=
  ⟨.integer low high, fun v n => v = .number (.int n) ∧ low ≤ n ∧ n ≤ high⟩

def natural (high : Nat) : Spelling Nat :=
  ⟨.integer 0 high, fun v (n : Nat) => v = .number (.int n) ∧ n ≤ high⟩

def optional (s : Spelling α) : Spelling (Option α) :=
  ⟨.optional s.shape, fun v a =>
    (v = .null ∧ a = none) ∨ (v ≠ .null ∧ ∃ b, a = some b ∧ s.Means v b)⟩

def list (s : Spelling α) : Spelling (List α) :=
  ⟨.list s.shape, fun v as => ∃ items, v = .array items ∧ List.Forall₂ s.Means items as⟩

/-- A dictionary holds for each key what the member with its name means. -/
def dict {κ : Type} [Ord κ] (names : Option (List String)) (spell : κ → String) (s : Spelling α) :
    Spelling (Dict κ α) :=
  ⟨.dict names s.shape, fun v d => ∃ members, v = .object members ∧
    (∀ m ∈ members, ∃ key, spell key = m.1) ∧
    ∀ key, Option.Rel s.Means (members.lookup (spell key)) (d.get? key)⟩

/-- A record has in each of its parts what is given for it, and nothing else may be given. -/
def record (parts : List (Part α)) (default : α) : Spelling α :=
  ⟨.record (parts.map fun part => (part.name, part.spelling.shape)), fun v a =>
    ∃ members, v.given? (parts.map Part.name) = some members ∧
      (∀ m ∈ members, m.1 ∈ parts.map Part.name) ∧
      ∀ part ∈ parts, part.Holds default members a⟩

end Spelling

end AccessLog.Json
