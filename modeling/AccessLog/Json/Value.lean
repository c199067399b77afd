import AccessLog.Binary64.Shortest
import AccessLog.Dict

/-!
# JSON values

What a JSON document means once its spelling is forgotten: the members of an object are listed
by increasing name, and each name occurs once.

A number is an integer if it is written as one and fits 64 bits, signed or unsigned; every other
number is a double.
-/

set_option autoImplicit false

namespace AccessLog.Json

/-- A number of a document. -/
inductive Number where
  | int (n : Int)
  | float (x : Binary64)
  deriving DecidableEq, Repr

def Number.text : Number → String
  | .int n => Text.signedDecimal n
  | .float x => x.text

/-- The value of a document or of a part of one. -/
inductive Value where
  | null
  | bool (b : Bool)
  | number (n : Number)
  | string (s : String)
  | array (items : List Value)
  | object (members : List (String × Value))
  deriving Repr

instance : Inhabited Value := ⟨.null⟩

namespace Value

/-! ## Equality -/

mutual

def same : Value → Value → Bool
  | .null, .null => true
  | .bool a, .bool b => a == b
  | .number a, .number b => a == b
  | .string a, .string b => a == b
  | .array as, .array bs => sameItems as bs
  | .object as, .object bs => sameMembers as bs
  | _, _ => false

def sameItems : List Value → List Value → Bool
  | [], [] => true
  | a :: as, b :: bs => same a b && sameItems as bs
  | _, _ => false

def sameMembers : List (String × Value) → List (String × Value) → Bool
  | [], [] => true
  | (k, a) :: as, (l, b) :: bs => k == l && same a b && sameMembers as bs
  | _, _ => false

end

mutual

theorem eq_of_same : ∀ {a b : Value}, same a b = true → a = b
  | .null, b, h => by cases b <;> simp_all [same]
  | .bool _, b, h => by cases b <;> simp_all [same]
  | .number _, b, h => by cases b <;> simp_all [same]
  | .string _, b, h => by cases b <;> simp_all [same]
  | .array as, b, h => by
    cases b with
    | array bs =>
      have hitems : sameItems as bs = true := by simpa [same] using h
      rw [eq_of_sameItems hitems]
    | _ => simp [same] at h
  | .object as, b, h => by
    cases b with
    | object bs =>
      have hmembers : sameMembers as bs = true := by simpa [same] using h
      rw [eq_of_sameMembers hmembers]
    | _ => simp [same] at h

theorem eq_of_sameItems : ∀ {as bs : List Value}, sameItems as bs = true → as = bs
  | [], bs, h => by cases bs <;> simp_all [sameItems]
  | a :: as, bs, h => by
    cases bs with
    | nil => simp [sameItems] at h
    | cons b bs =>
      simp only [sameItems, Bool.and_eq_true] at h
      rw [eq_of_same h.1, eq_of_sameItems h.2]

theorem eq_of_sameMembers : ∀ {as bs : List (String × Value)}, sameMembers as bs = true → as = bs
  | [], bs, h => by cases bs <;> simp_all [sameMembers]
  | (k, a) :: as, bs, h => by
    cases bs with
    | nil => simp [sameMembers] at h
    | cons b bs =>
      simp only [sameMembers, Bool.and_eq_true, beq_iff_eq] at h
      rw [h.1.1, eq_of_same h.1.2, eq_of_sameMembers h.2]

end

mutual

theorem same_self : ∀ a : Value, same a a = true
  | .null => rfl
  | .bool _ => by simp [same]
  | .number _ => by simp [same]
  | .string _ => by simp [same]
  | .array as => by simp [same, sameItems_self as]
  | .object as => by simp [same, sameMembers_self as]

theorem sameItems_self : ∀ as : List Value, sameItems as as = true
  | [] => rfl
  | a :: as => by simp [sameItems, same_self a, sameItems_self as]

theorem sameMembers_self : ∀ as : List (String × Value), sameMembers as as = true
  | [] => rfl
  | (k, a) :: as => by simp [sameMembers, same_self a, sameMembers_self as]

end

instance : DecidableEq Value := fun a b =>
  if h : same a b = true then isTrue (eq_of_same h)
  else isFalse fun heq => h (heq ▸ same_self a)

/-! ## Members and dotted paths -/

/-- The value of a member, by its exact name. -/
def member? (name : String) (members : List (String × Value)) : Option Value := members.lookup name

/-- Every array index is below this bound. -/
def indexBound : Nat := UInt64.size

/-- The array index a part of a path spells: digits, with an optional plus sign in front. -/
def index? (part : List Char) : Option Nat :=
  let digits := match part with
    | '+' :: rest => rest
    | digits => digits
  (Text.natural? digits).filter (· < indexBound)

/-- One step into a value: a member of an object or an element of an array. -/
def step? (v : Value) (part : List Char) : Option Value :=
  match v with
  | .object members => member? (String.ofList part) members
  | .array items => do items[← index? part]?
  | _ => none

/-- The value at a dotted path, such as `user.id` or `items.0`. Every part of the path, the
empty one included, is a step. -/
def atPath? (v : Value) (path : String) : Option Value :=
  (path.toList.splitOn '.').foldlM step? v

end Value

end AccessLog.Json
