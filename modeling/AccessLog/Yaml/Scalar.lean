import AccessLog.Text.Basic
import AccessLog.Yaml.Cursor

/-!
# YAML scalars

The texts of a document, in their five styles: plain, between single or double quotes, and as a
block whose ends of lines are kept or folded.

Where a scalar goes on over several lines, the blanks around an end of line are left out, one end
of line becomes a blank, and of several the first is left out (`fold`).
-/

set_option autoImplicit false

namespace AccessLog.Yaml

open Cursor (Progress)

/-- The text that white space within a scalar stands for. -/
def fold (gap : List Char) : List Char :=
  match gap.filter isBreak with
  | [] => gap
  | ['\n'] => [' ']
  | '\n' :: breaks => breaks
  | breaks => breaks

/-! ## Plain scalars -/

namespace Plain

/-- Characters that end a plain scalar inside braces. -/
def isFlowIndicator (c : Char) : Bool := c ∈ [',', '[', ']', '{', '}']

/-- The characters of a plain scalar up to the next white space. A colon belongs to it unless
white space follows; inside braces, it may not stand before one of the characters that have a
meaning there. -/
def word? (flow : Bool) : List Char → Option (List Char)
  | [] => some []
  | c :: rest =>
    if isWhite c || flow && isFlowIndicator c then some []
    else if c == ':' then
      if flow && rest.head?.any (fun d => isFlowIndicator d || d == '?') then none
      else if endsWord rest then some []
      else (word? flow rest).map (c :: ·)
    else (word? flow rest).map (c :: ·)

/-- Whether a tab stands among the first columns of a line that starts within white space. -/
def tabBefore (indent : Nat) : Option Nat → List Char → Bool
  | _, [] => false
  | column, c :: rest =>
    if isBreak c then tabBefore indent (some 0) rest
    else if c == '\t' && column.any (· < indent) then true
    else tabBefore indent (column.map (· + 1)) rest

/-- What has been read of a plain scalar: the pieces of its text, the last one first, and the white
space after them. -/
structure State where
  pieces : List (List Char) := []
  gap : List Char := []

/-- A plain scalar, and whether a new line was begun after it. -/
structure Result where
  text : List Char
  newLine : Bool

/-- What a plain scalar amounts to. -/
def State.result (s : State) : Result := ⟨s.pieces.reverse.flatten, s.gap.any isBreak⟩

/-- Reads on up to the next white space and over it. -/
def step (flow : Bool) (indent : Nat) (s : State) (c : Cursor) :
    Option (Progress State Result) := do
  if c.atDocumentMark || c.rest.head? == some '#' then return .done s.result c
  let word ← word? flow c.rest
  if word.isEmpty then return .done s.result c
  let (gap, after) := (c.skip word.length).run isWhite
  let s : State := ⟨word :: fold s.gap :: s.pieces, gap⟩
  if tabBefore indent none gap then none
  else if gap.isEmpty || !flow && after.column < indent then return .done s.result after
  else return .more s after

/-- Reads a plain scalar whose lines have to begin at a column or beyond it. -/
def read? (flow : Bool) (indent : Nat) (c : Cursor) : Option (Result × Cursor) :=
  c.repeatStep (step flow indent) {}

end Plain

/-! ## Quoted scalars -/

namespace Quoted

/-- The two kinds of quotes. -/
inductive Mark where
  | single
  | double
  deriving DecidableEq

def Mark.char : Mark → Char
  | .single => '\x27'
  | .double => '"'

/-- The character that a letter after a backslash stands for. -/
def named? (c : Char) : Option Char :=
  match c with
  | '0' => some '\x00'
  | 'a' => some '\x07'
  | 'b' => some '\x08'
  | 't' | '\t' => some '\t'
  | 'n' => some '\n'
  | 'v' => some '\x0b'
  | 'f' => some '\x0c'
  | 'r' => some '\r'
  | 'e' => some '\x1b'
  | ' ' | '"' | '/' | '\\' => some c
  | 'N' => some '\u0085'
  | '_' => some '\u00a0'
  | 'L' => some '\u2028'
  | 'P' => some '\u2029'
  | _ => none

/-- The number of hexadecimal digits that follow a letter after a backslash. -/
def digits? (c : Char) : Option Nat :=
  match c with
  | 'x' => some 2
  | 'u' => some 4
  | 'U' => some 8
  | _ => none

/-- The character with a number; surrogates are no characters. -/
def numbered? (n : Nat) : Option Char := if n.isValidChar then some (Char.ofNat n) else none

/-- The character that is written as a backslash and `c`, and how many of the characters that
follow are part of it. -/
def escaped? (c : Char) (rest : List Char) : Option (Char × Nat) :=
  match named? c, digits? c with
  | some x, _ => some (x, 0)
  | none, some count =>
    if rest.length < count then none
    else ((Text.hexNumber? (rest.take count)).bind numbered?).map (·, count)
  | none, none => none

structure Piece where
  text : List Char := []
  /-- The number of characters it is written with. -/
  size : Nat := 0
  /-- Whether it ends with a line whose end is escaped. -/
  joined : Bool := false

/-- Puts a character, which is written with `size` ones, in front of a piece. -/
def Piece.add (p : Piece) (c : Char) (size : Nat) : Piece :=
  { p with text := c :: p.text, size := p.size + size }

/-- Reads up to white space or the closing quote. -/
def piece? (mark : Mark) : List Char → Option Piece
  | [] => some {}
  | c :: rest =>
    if isWhite c then some {}
    else match mark with
      | .single =>
        if c == '\x27' then match rest with
          | '\x27' :: rest => (piece? mark rest).map (·.add c 2)
          | _ => some {}
        else (piece? mark rest).map (·.add c 1)
      | .double =>
        if c == '"' then some {}
        else if c == '\\' then match rest with
          | [] => none
          | d :: rest =>
            if isBreak d then some { size := 2, joined := true }
            else match escaped? d rest with
              | none => none
              | some (x, count) => (piece? mark (rest.drop count)).map (·.add x (2 + count))
        else (piece? mark rest).map (·.add c 1)
termination_by cs => cs.length

/-- Reads on up to the closing quote or over the next white space. The state is the pieces of the
text, the last one first. -/
def step (mark : Mark) (pieces : List (List Char)) (c : Cursor) :
    Option (Progress (List (List Char)) (List Char)) := do
  if c.atDocumentMark || c.rest.isEmpty then none
  let p ← piece? mark c.rest
  let pieces := p.text :: pieces
  let c := c.skip p.size
  if c.rest.head? == some mark.char then return .done pieces.reverse.flatten c.next
  let (gap, after) := c.run isWhite
  return .more ((if p.joined then gap.filter isBreak else fold gap) :: pieces) after

/-- Reads a quoted scalar, its opening quote being next. -/
def read? (mark : Mark) (c : Cursor) : Option (List Char × Cursor) :=
  c.next.repeatStep (step mark) []

end Quoted

/-! ## Block scalars -/

namespace Block

/-- What becomes of the ends of lines at the end of a block. -/
inductive Chomping where
  /-- None is kept. -/
  | strip
  /-- One is kept. -/
  | clip
  /-- All are kept. -/
  | keep
  deriving DecidableEq

/-- The indicators after the sign that opens a block. -/
structure Header where
  chomping : Chomping := .clip
  /-- By how much the block is indented; zero if its first line is to tell. -/
  indent : Nat := 0
  /-- The number of indicators. -/
  size : Nat := 0

/-- What a chomping indicator says. -/
def chomping? : Char → Option Chomping
  | '+' => some .keep
  | '-' => some .strip
  | _ => none

/-- What an indentation indicator says. Zero is none. -/
def indent? (c : Char) : Option Nat :=
  if c.isDigit && c != '0' then some (c.toNat - '0'.toNat) else none

/-- Reads the indicators, in either order. -/
def header (cs : List Char) : Header :=
  let first := cs.head?
  let second := cs.tail.head?
  match first.bind chomping?, first.bind indent? with
  | some chomping, _ =>
    match second.bind indent? with
    | some indent => ⟨chomping, indent, 2⟩
    | none => ⟨chomping, 0, 1⟩
  | none, some indent =>
    match second.bind chomping? with
    | some chomping => ⟨chomping, indent, 2⟩
    | none => ⟨.clip, indent, 1⟩
  | none, none => {}

/-- Empty lines: the ends of lines so far, and the largest column that was reached. -/
structure Margin where
  breaks : List Char := []
  column : Nat := 0

/-- Skips the indentation of a line and, if nothing else is on it, the line. -/
def marginStep (indent : Nat) (m : Margin) (c : Cursor) : Option (Progress Margin Margin) :=
  let spaces := (c.rest.takeWhile (· == ' ')).length
  let c := c.skip (if indent == 0 then spaces else min spaces (indent - c.column))
  let m := { m with column := max m.column c.column }
  match c.rest with
  | [] => some (.done m c)
  | x :: _ =>
    if x == '\t' && (indent == 0 || c.column < indent) then none
    else if isBreak x then some (.more { m with breaks := m.breaks ++ [x] } c.next)
    else some (.done m c)

/-- Skips empty lines and the indentation of the line after them. -/
def margin? (indent : Nat) (c : Cursor) : Option (Margin × Cursor) :=
  c.repeatStep (marginStep indent) {}

/-- What has been read of a block. -/
structure State where
  /-- The pieces of the text, the last one first. -/
  pieces : List (List Char) := []
  /-- The end of the last line. -/
  lineEnd : List Char := []
  /-- The ends of the empty lines after it. -/
  empty : List Char := []
  /-- Whether the last line starts with a blank. -/
  indented : Bool := false

/-- The text between the last line of a block and the next one. Folding joins lines that do not
start with a blank. -/
def State.between (s : State) (folded indented : Bool) : List Char :=
  if folded && s.lineEnd == ['\n'] && !s.indented && !indented then
    if s.empty.isEmpty then [' '] else s.empty
  else s.lineEnd ++ s.empty

/-- The text of a block that is read to its end. -/
def State.finish (s : State) : Chomping → List Char
  | .strip => s.pieces.reverse.flatten
  | .clip => s.pieces.reverse.flatten ++ s.lineEnd
  | .keep => s.pieces.reverse.flatten ++ s.lineEnd ++ s.empty

/-- Reads a line of a block and the margin after it. -/
def step (folded : Bool) (indent : Nat) (s : State) (c : Cursor) :
    Option (Progress State State) := do
  if c.column != indent || c.rest.isEmpty then return .done s c
  let (line, c) := c.run (!isBreak ·)
  let indented := line.head?.any isBlank
  let (m, after) ← margin? indent c.next
  let pieces := line :: s.between folded indented :: s.pieces
  return .more ⟨pieces, c.rest.take 1, m.breaks, indented⟩ after

/-- Reads a block whose opening sign is next, inside a collection with an indentation. -/
def read? (folded : Bool) (outer : Option Nat) (c : Cursor) : Option (List Char × Cursor) := do
  let c := c.next
  let h := header c.rest
  let c ← (c.skip h.size).endLine?
  let given := if h.indent == 0 then 0 else outer.getD 0 + h.indent
  let (m, c) ← margin? given c
  let least := max 1 (outer.elim 0 (· + 1))
  let indent := if given == 0 then max m.column least else given
  let (s, c) ← c.repeatStep (step folded indent) { empty := m.breaks }
  return (s.finish h.chomping, c)

end Block

end AccessLog.Yaml
