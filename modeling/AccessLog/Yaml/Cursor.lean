/-!
# Reading YAML text

The characters of a document, the place reached in it, and how a reader goes on from there.

A line ends in one of several ways, which all mean the same; `normalize` writes each of them as
a line feed, apart from the two separators that are kept as they are. All that follows is about
normalized text.

`Cursor.repeatStep` is the only loop: a step is repeated for as long as it takes up some of the
text.
-/

set_option autoImplicit false

namespace AccessLog.Yaml

/-! ## Characters -/

/-- Whether a character may stand in a document. -/
def isAllowed (c : Char) : Bool :=
  let n := c.toNat
  n == 0x9 || n == 0xA || n == 0xD || (0x20 ≤ n && n ≤ 0x7E) || n == 0x85
    || (0xA0 ≤ n && n ≤ 0xD7FF) || (0xE000 ≤ n && n ≤ 0xFFFD) || 0x10000 ≤ n

/-- Writes every end of a line as a line feed, apart from line and paragraph separators. -/
def normalize : List Char → List Char
  | '\r' :: '\n' :: cs => '\n' :: normalize cs
  | '\r' :: cs => '\n' :: normalize cs
  | '\u0085' :: cs => '\n' :: normalize cs
  | c :: cs => c :: normalize cs
  | [] => []

/-- The mark of an encoding. At the start of a line it counts as a blank, at other places as a
character like others. -/
def byteOrderMark : Char := '\uFEFF'

/-- Ends of lines. -/
def isBreak (c : Char) : Bool := c == '\n' || c == '\u2028' || c == '\u2029'

/-- Blanks within a line. -/
def isBlank (c : Char) : Bool := c == ' ' || c == '\t'

/-- Blanks and ends of lines. -/
def isWhite (c : Char) : Bool := isBlank c || isBreak c

/-- Characters of the names of anchors, tag handles and directives. -/
def isNameChar (c : Char) : Bool := c.isAlphanum || c == '_' || c == '-'

/-- Whether text is over or goes on with a blank or a new line. -/
def endsWord : List Char → Bool
  | [] => true
  | c :: _ => isWhite c

/-! ## Cursors -/

/-- A place in a text: what follows it, and where it is. -/
structure Cursor where
  rest : List Char
  /-- The number of characters before it. -/
  index : Nat := 0
  line : Nat := 0
  column : Nat := 0

namespace Cursor

/-- The place after the next character. -/
def next (c : Cursor) : Cursor :=
  match c.rest with
  | [] => c
  | x :: rest =>
    if isBreak x then ⟨rest, c.index + 1, c.line + 1, 0⟩
    else ⟨rest, c.index + 1, c.line, c.column + 1⟩

/-- The place a number of characters further on. -/
def skip (c : Cursor) : Nat → Cursor
  | 0 => c
  | n + 1 => c.next.skip n

@[simp] theorem rest_next (c : Cursor) : c.next.rest = c.rest.drop 1 := by
  unfold next
  split
  · simp_all
  · split <;> simp_all

@[simp] theorem rest_skip (c : Cursor) (n : Nat) : (c.skip n).rest = c.rest.drop n := by
  induction n generalizing c with
  | zero => simp [skip]
  | succ n ih => simp [skip, ih]

/-- The characters from here on that have a property, and the place after them. -/
def run (c : Cursor) (p : Char → Bool) : List Char × Cursor :=
  let taken := c.rest.takeWhile p
  (taken, c.skip taken.length)

/-- The place after the characters that have a property. -/
def skipWhile (c : Cursor) (p : Char → Bool) : Cursor := (c.run p).2

/-- Whether a line starts here with three times the same character and nothing directly after
them. -/
def atMark (c : Cursor) (x : Char) : Bool :=
  c.column == 0 && c.rest.take 3 == [x, x, x] && endsWord (c.rest.drop 3)

/-- Whether a document starts or ends here. -/
def atDocumentMark (c : Cursor) : Bool := c.atMark '-' || c.atMark '.'

/-- Skips the rest of a line that may hold nothing but a comment, with the end of the line. -/
def endLine? (c : Cursor) : Option Cursor :=
  let c := c.skipWhile isBlank
  let c := if c.rest.head? == some '#' then c.skipWhile (!isBreak ·) else c
  match c.rest with
  | [] => some c
  | x :: _ => if isBreak x then some c.next else none

/-- What a step leads to: another step, or a result. -/
inductive Progress (σ α : Type) where
  | more (state : σ) (c : Cursor)
  | done (result : α) (c : Cursor)

/-- Repeats a step until it has a result, but no more than `bound` times. -/
def repeatFor {σ α : Type} (step : σ → Cursor → Option (Progress σ α)) :
    (bound : Nat) → σ → Cursor → Option (α × Cursor)
  | 0, _, _ => none
  | bound + 1, state, c =>
    match step state c with
    | none => none
    | some (.done result c) => some (result, c)
    | some (.more state c) => repeatFor step bound state c

/-- Repeats a step until it has a result. The step has to take up some of the text whenever it
asks for another one, so it is enough to repeat it once for every character that is left. -/
def repeatStep {σ α : Type} (step : σ → Cursor → Option (Progress σ α)) (state : σ)
    (c : Cursor) : Option (α × Cursor) :=
  repeatFor step (c.rest.length + 1) state c

end Cursor

end AccessLog.Yaml
