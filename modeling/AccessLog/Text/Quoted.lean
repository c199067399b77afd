import AccessLog.Text.Hidden

/-!
# Quoted text

Text between quotes for a reader who has to see every character: a quote or a backslash has a
backslash before it, the usual controls have their letter, and a character that would not show
is given by its number. A single quote needs no backslash between double ones.
-/

set_option autoImplicit false

namespace AccessLog.Text

def quoteChar (c : Char) : List Char :=
  if c = '\x00' then ['\\', '0']
  else if c = '\t' then ['\\', 't']
  else if c = '\n' then ['\\', 'n']
  else if c = '\r' then ['\\', 'r']
  else if c = '"' then ['\\', '"']
  else if c = '\\' then ['\\', '\\']
  else if c.toNat < 0x20 || isHidden c then
    ['\\', 'u', '{'] ++ Nat.toDigits 16 c.toNat ++ ['}']
  else [c]

/-- The quoted form of a text. -/
def quoted (s : String) : String :=
  String.ofList ('"' :: s.toList.flatMap quoteChar ++ ['"'])

end AccessLog.Text
