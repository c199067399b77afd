import AccessLog.Json.Value

/-!
# JSON as it is read

A `Tree` is the text of a JSON document as far as it can be read: members in the order in which
they stand, a name as often as it stands, and a mark at the place where the text stops being
JSON. A reader that knows what it looks for goes through the tree in reading order; so whether
it first meets a value of the wrong kind or the end of what is readable is decided by the tree
alone.

`Tree.value?` forgets the spelling: what is left is a `Value`, if all of the text could be read.
-/

set_option autoImplicit false

namespace AccessLog.Json

/-- A JSON text as far as it can be read. -/
inductive Tree where
  | null
  | bool (b : Bool)
  | number (n : Number)
  | string (s : String)
  /-- The elements of an array; `closed` says whether the bracket that ends it was reached. -/
  | array (items : List Tree) (closed : Bool)
  /-- The members of an object; `closed` says whether the brace that ends it was reached. -/
  | object (members : List (String × Tree)) (closed : Bool)
  /-- No value can be read here. -/
  | broken
  deriving Repr

instance : Inhabited Tree := ⟨.broken⟩

/-- A JSON text as a whole. -/
structure Document where
  root : Tree
  /-- Whether nothing but blanks follows the root. -/
  ended : Bool

namespace Tree

/-- An array that is read to its end. -/
abbrev list (items : List Tree) : Tree := .array items true

/-- An object that is read to its end. -/
abbrev record (members : List (String × Tree)) : Tree := .object members true

/-- A value or, for want of one, null. -/
def orNull {α : Type} (f : α → Tree) : Option α → Tree
  | some a => f a
  | none => .null

mutual

/-- The value of a tree that is read to its end. The last of several members with one name
counts. -/
def value? : Tree → Option Value
  | .null => some .null
  | .bool b => some (.bool b)
  | .number n => some (.number n)
  | .string s => some (.string s)
  | .array items closed => do
    let values ← valueItems? items
    if closed then some (.array values) else none
  | .object members closed => do
    let values ← valueMembers? [] members
    if closed then some (.object values) else none
  | .broken => none

/-- The values of the elements of an array. -/
def valueItems? : List Tree → Option (List Value)
  | [] => some []
  | item :: items => do
    let value ← value? item
    let values ← valueItems? items
    return value :: values

/-- Adds the values of members to those found before them. -/
def valueMembers? (found : List (String × Value)) :
    List (String × Tree) → Option (List (String × Value))
  | [] => some found
  | (name, member) :: members => do
    let value ← value? member
    valueMembers? (Dict.insertEntry name value found) members

end

mutual

/-- The tree that spells a value out. -/
def ofValue : Value → Tree
  | .null => .null
  | .bool b => .bool b
  | .number n => .number n
  | .string s => .string s
  | .array items => .array (ofItems items) true
  | .object members => .object (ofMembers members) true

/-- The trees of the elements of an array. -/
def ofItems : List Value → List Tree
  | [] => []
  | item :: items => ofValue item :: ofItems items

def ofMembers : List (String × Value) → List (String × Tree)
  | [] => []
  | (name, member) :: members => (name, ofValue member) :: ofMembers members

end

end Tree

/-- The value of a document that is read to its end. -/
def Document.value? (d : Document) : Option Value :=
  if d.ended then d.root.value? else none

end AccessLog.Json
