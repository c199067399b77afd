import AccessLog.Field
import AccessLog.Json.Tree
import AccessLog.Text.Quoted

/-!
# Decoding

How values of a program's own types are read from a document. A decoder goes through a tree in
reading order and stops at the first fault: a value that does not fit, or the place where the
text is no longer JSON.

A record may be written as an object with its fields as members, in any order, or as an array
that gives its fields in their own order; fields that are left out keep their defaults. An
object may not name a field twice, nor one that the record does not have.
-/

set_option autoImplicit false

namespace AccessLog.Json

/-! ## What can be wrong -/

/-- A value that does not fit what is expected in its place. -/
inductive Mismatch where
  /-- A value of the wrong kind. -/
  | kind (found expected : String)
  /-- An integer outside the expected range. -/
  | range (n : Int) (expected : String)
  /-- A member that the record does not have. -/
  | unknownField (name : String) (fields : List String)
  /-- A key that is no member of its table. -/
  | unknownVariant (name : String) (members : List String)
  /-- A member that is named twice. -/
  | duplicateField (name : String)
  /-- An array with more elements than the record has fields. -/
  | surplus (count : Nat)
  /-- A text that a reader of its own refused. -/
  | text (message : String)
  deriving DecidableEq, Repr

/-- The alternatives to a name that was not found. -/
def alternatives (names : List String) : String :=
  match names with
  | [a] => s!"`{a}`"
  | [a, b] => s!"`{a}` or `{b}`"
  | names => "one of " ++ ", ".intercalate (names.map fun a => s!"`{a}`")

def Mismatch.message : Mismatch → String
  | .kind found expected => s!"invalid type: {found}, expected {expected}"
  | .range n expected =>
    "invalid value: integer `" ++ Text.signedDecimal n ++ "`, expected " ++ expected
  | .unknownField name fields => s!"unknown field `{name}`, expected " ++ alternatives fields
  | .unknownVariant name members =>
    s!"unknown variant `{name}`, expected " ++ alternatives members
  | .duplicateField name => s!"duplicate field `{name}`"
  | .surplus count =>
    "invalid length " ++ Text.decimal count ++ ", expected fewer elements in array"
  | .text message => message

/-- Why a document was not decoded. -/
inductive Fault where
  /-- The text is no JSON. -/
  | malformed
  /-- The text is JSON up to a value that does not fit. -/
  | mismatch (m : Mismatch)
  deriving DecidableEq, Repr

/-- A reader of a part of a document. -/
abbrev Decoder (α : Type) := Tree → Except Fault α

/-- How the decoders treat an array that is longer than a record: as a mismatch when the whole
document is known to be JSON, and otherwise as text that should have ended. -/
inductive Strictness where
  | known
  | streaming
  deriving DecidableEq, Repr

/-- The fault of an array with `count` elements that is longer than its record. -/
def Strictness.surplus (count : Nat) : Strictness → Fault
  | .known => .mismatch (.surplus count)
  | .streaming => .malformed

namespace Decode

/-- What a value is called in a mismatch. -/
def describe : Tree → String
  | .null => "null"
  | .bool b => s!"boolean `{b}`"
  | .number (.int n) => "integer `" ++ Text.signedDecimal n ++ "`"
  | .number (.float x) => "floating point `" ++ x.text ++ "`"
  | .string s => "string " ++ Text.quoted s
  | .array .. => "sequence"
  | .object .. => "map"
  | .broken => ""

/-- The fault of a value where something else is expected. -/
def unexpected {α : Type} (expected : String) : Decoder α
  | .broken => .error .malformed
  | t => .error (.mismatch (.kind (describe t) expected))

/-- The fault of a container that is not read to its end, if it is not. -/
def ended (closed : Bool) : Except Fault Unit := if closed then .ok () else .error .malformed

/-! ## Scalars -/

def string : Decoder String
  | .string s => .ok s
  | t => unexpected "a string" t

def bool : Decoder Bool
  | .bool b => .ok b
  | t => unexpected "a boolean" t

def integer (expected : String) (low high : Int) : Decoder Int
  | .number (.int n) =>
    if low ≤ n ∧ n ≤ high then .ok n else .error (.mismatch (.range n expected))
  | t => unexpected expected t

def int64 : Decoder Int := integer "i64" Int64.minValue.toInt Int64.maxValue.toInt

/-- Reads a natural number of 16 bits. -/
def nat16 : Decoder Nat := fun t => Int.toNat <$> integer "u16" 0 65535 t

def optional {α : Type} (decoder : Decoder α) : Decoder (Option α)
  | .null => .ok none
  | t => some <$> decoder t

def value : Decoder Value := fun t =>
  match t.value? with
  | some v => .ok v
  | none => .error .malformed

/-! ## Containers -/

def list {α : Type} (decoder : Decoder α) : Decoder (List α)
  | .array items closed => do
    let values ← items.mapM decoder
    ended closed
    return values
  | t => unexpected "a sequence" t

/-- Reads a dictionary. The last of several values for one key counts. -/
def dict {κ α : Type} [Ord κ] [Std.TransOrd κ] [Std.LawfulEqOrd κ]
    (key : String → Except Fault κ) (decoder : Decoder α) : Decoder (Dict κ α)
  | .object members closed => do
    let add (found : Dict κ α) (member : String × Tree) : Except Fault (Dict κ α) := do
      let k ← key member.1
      let v ← decoder member.2
      return found.insert k v
    let found ← members.foldlM add {}
    ended closed
    return found
  | t => unexpected "a map" t

def anyKey (name : String) : Except Fault String := .ok name

/-- Takes the spelling of a member of a table as a key. -/
def tableKey {F : Type} [Table F] (name : String) : Except Fault F :=
  match Table.ofName? name with
  | some f => .ok f
  | none => .error (.mismatch (.unknownVariant name (Table.names F)))

/-! ## Records -/

/-- A field of a record: its name and how its value is put into the record. -/
structure Field (α : Type) where
  name : String
  set : α → Decoder α

/-- How a record is read. -/
structure Schema (α : Type) where
  /-- What the record is called in a mismatch. -/
  name : String
  /-- The fields in their own order. -/
  fields : List (Field α)

/-- The field of type `β` with a name; `put` stores its value. -/
def field {α β : Type} (name : String) (decoder : Decoder β) (put : α → β → α) : Field α :=
  ⟨name, fun record t => put record <$> decoder t⟩

def Schema.names {α : Type} (schema : Schema α) : List String := schema.fields.map (·.name)

/-- Reads one member into a record; `seen` lists the fields that were read before it. -/
def Schema.member {α : Type} (schema : Schema α) :
    α × List String → String × Tree → Except Fault (α × List String)
  | (record, seen), (name, t) =>
    match schema.fields.find? (·.name == name) with
    | none => .error (.mismatch (.unknownField name schema.names))
    | some f =>
      if seen.contains name then .error (.mismatch (.duplicateField name))
      else do
        let record ← f.set record t
        return (record, name :: seen)

/-- Reads elements into the fields of a record, as far as both go. -/
def readInOrder {α : Type} : α → List (Field α) → List Tree → Except Fault α
  | record, f :: fields, item :: items => do
    let record ← f.set record item
    readInOrder record fields items
  | record, _, _ => .ok record

/-- Reads a record, starting from its defaults. -/
def Schema.read {α : Type} (strictness : Strictness) (schema : Schema α) (default : α) :
    Decoder α
  | .object members closed => do
    let (record, _) ← members.foldlM schema.member (default, [])
    ended closed
    return record
  | .array items closed => do
    let record ← readInOrder default schema.fields items
    if schema.fields.length < items.length then .error (strictness.surplus items.length)
    else do
      ended closed
      return record
  | t => unexpected ("struct " ++ schema.name) t

end Decode

/-- Decodes a document that is read as it goes. -/
def Document.decode {α : Type} (d : Document) (decoder : Decoder α) : Except Fault α := do
  let a ← decoder d.root
  Decode.ended d.ended
  return a

end AccessLog.Json
