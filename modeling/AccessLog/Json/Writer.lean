import AccessLog.Json.Tree

/-!
# Writing JSON

Two layouts of the same text: the compact one, without a blank, and the indented one, with every
element and member on a line of its own.

In a string only the quote, the backslash and the characters below the blank are escaped.
-/

set_option autoImplicit false

namespace AccessLog.Json

/-- The text of a character inside a string. -/
def escapeChar (c : Char) : List Char :=
  if c = '"' then ['\\', '"']
  else if c = '\\' then ['\\', '\\']
  else if c = '\x08' then ['\\', 'b']
  else if c = '\x0c' then ['\\', 'f']
  else if c = '\n' then ['\\', 'n']
  else if c = '\r' then ['\\', 'r']
  else if c = '\t' then ['\\', 't']
  else if c.toNat < 0x20 then
    ['\\', 'u', '0', '0', Nat.digitChar (c.toNat / 16), Nat.digitChar (c.toNat % 16)]
  else [c]

def quote (s : String) : List Char := '"' :: s.toList.flatMap escapeChar ++ ['"']

namespace Tree

def boolText (b : Bool) : List Char := if b then "true".toList else "false".toList

/-! ## Compact -/

mutual

/-- The compact text of a tree. A container that was not read to its end is left open. -/
def compactChars : Tree → List Char
  | .null => "null".toList
  | .bool b => boolText b
  | .number n => n.text.toList
  | .string s => quote s
  | .array items closed => '[' :: compactItems items ++ if closed then [']'] else []
  | .object members closed => '{' :: compactMembers members ++ if closed then ['}'] else []
  | .broken => []

/-- Elements with commas between them. -/
def compactItems : List Tree → List Char
  | [] => []
  | [item] => compactChars item
  | item :: items => compactChars item ++ ',' :: compactItems items

/-- Members with commas between them. -/
def compactMembers : List (String × Tree) → List Char
  | [] => []
  | [(name, member)] => quote name ++ ':' :: compactChars member
  | (name, member) :: members =>
    quote name ++ ':' :: compactChars member ++ ',' :: compactMembers members

end

def compact (t : Tree) : String := String.ofList t.compactChars

/-! ## Indented -/

/-- The start of a line, two blanks for every container around it. -/
def newLine (depth : Nat) : List Char := '\n' :: List.replicate (2 * depth) ' '

mutual

/-- The indented text of a tree inside `depth` containers. -/
def indentedChars (depth : Nat) : Tree → List Char
  | .array (item :: items) closed =>
    '[' :: indentedItems (depth + 1) (item :: items)
      ++ if closed then newLine depth ++ [']'] else []
  | .object (member :: members) closed =>
    '{' :: indentedMembers (depth + 1) (member :: members)
      ++ if closed then newLine depth ++ ['}'] else []
  | t => compactChars t

/-- Elements, each on a line of its own. -/
def indentedItems (depth : Nat) : List Tree → List Char
  | [] => []
  | [item] => newLine depth ++ indentedChars depth item
  | item :: items =>
    newLine depth ++ indentedChars depth item ++ ',' :: indentedItems depth items

/-- Members, each on a line of its own. -/
def indentedMembers (depth : Nat) : List (String × Tree) → List Char
  | [] => []
  | [(name, member)] => newLine depth ++ quote name ++ ": ".toList ++ indentedChars depth member
  | (name, member) :: members =>
    newLine depth ++ quote name ++ ": ".toList ++ indentedChars depth member
      ++ ',' :: indentedMembers depth members

end

def indented (t : Tree) : String := String.ofList (t.indentedChars 0)

end Tree

def Value.compact (v : Value) : String := (Tree.ofValue v).compact

end AccessLog.Json
