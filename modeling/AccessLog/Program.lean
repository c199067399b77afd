import AccessLog.Query

/-!
# Programs

A compiled format: a list of instructions, each either literal text or a query whose answer is
written in its place, possibly cut to a number of characters.

Every instruction can be written back as format text (`Instruction.text`), and a program as the
format that joins them (`Program.canonical`).
-/

set_option autoImplicit false

namespace AccessLog

/-- What an instruction writes. -/
inductive Op where
  /-- Literal text. -/
  | text (literal : String)
  /-- The answer to a query. -/
  | field (query : Query)
  deriving DecidableEq, Repr

/-- One step of a program. -/
structure Instruction where
  op : Op
  /-- The most characters of the answer that are written. Literal text is never cut. -/
  limit : Option Nat := none
  deriving DecidableEq, Repr

namespace Instruction

def literal (s : String) : Instruction := ⟨.text s, none⟩

/-- The command an instruction is written with; literal text has none. -/
def command (i : Instruction) : Option Command :=
  match i.op with
  | .text _ => none
  | .field query => some query.command

def parameter (i : Instruction) : Option String :=
  match i.op with
  | .text _ => none
  | .field query => query.parameter

/-- Literal text with every percent sign doubled, so that none of them opens a field. -/
def escape (s : String) : String :=
  String.ofList (s.toList.flatMap fun c => if c = '%' then ['%', '%'] else [c])

/-- The text of a field: its command between percent signs, with its parameter and limit. -/
def fieldText (query : Query) (limit : Option Nat) : String :=
  let parameter := match query.parameter with
    | some p => "(" ++ p ++ ")"
    | none => ""
  let suffix := match limit with
    | some n => ":" ++ Text.decimal n
    | none => ""
  "%" ++ query.command.name ++ parameter ++ suffix ++ "%"

/-- The instruction written back as format text. -/
def text (i : Instruction) : String :=
  match i.op with
  | .text s => escape s
  | .field query => fieldText query i.limit

end Instruction

/-- A compiled format, together with the text it was compiled from. -/
structure Program where
  template : String
  instructions : List Instruction
  deriving DecidableEq, Repr

namespace Program

def size (p : Program) : Nat := p.instructions.length

def isEmpty (p : Program) : Bool := p.instructions.isEmpty

/-- The format text that lists the instructions one after the other. -/
def canonical (p : Program) : String := String.join (p.instructions.map Instruction.text)

end Program

end AccessLog
