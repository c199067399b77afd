import AccessLog.Text.Basic

/-!
# Places in a text

A place is given the way an editor shows it, by its line and its column, so that a reader who is
told of a fault can go there. Columns count bytes: a place is as far into its line as the text
before it is long.
-/

set_option autoImplicit false

namespace AccessLog.Text

/-- A place between two characters of a text. -/
structure Place where
  /-- The number of the line, from one. -/
  line : Nat
  /-- The number of bytes before the place in its line. -/
  column : Nat
  deriving DecidableEq, Repr

namespace Place

/-- The place behind a front part of a text. -/
def after (front : List Char) : Place :=
  ⟨front.count '\n' + 1, byteSize (front.reverse.takeWhile (· != '\n'))⟩

/-- The place in a text that has `rest` behind it. -/
def before (text rest : List Char) : Place := after (text.take (text.length - rest.length))

def words (p : Place) : String := "line " ++ decimal p.line ++ " column " ++ decimal p.column

end Place

end AccessLog.Text
