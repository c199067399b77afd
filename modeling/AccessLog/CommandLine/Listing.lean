import AccessLog.Program
import AccessLog.Text.Quoted

/-!
# Listings

A program for a reader: a line for each instruction with its number, its command, its text and
its limit, and a last line with the number of instructions. Texts are quoted, so an instruction
never takes more than one line.
-/

set_option autoImplicit false

namespace AccessLog

/-- The line of an instruction, without its end. -/
def Instruction.listing (i : Instruction) (index : Nat) : String :=
  let kind := match i.command with
    | some command => command.name
    | none => "text"
  let limit := match i.limit with
    | some n => "  max " ++ Text.decimal n
    | none => ""
  Text.padLeft 3 ' ' (Text.decimal index) ++ "  " ++ Text.padRight 22 kind ++ " "
    ++ Text.quoted i.text ++ limit

/-- The listing of a program, without the end of its last line. -/
def Program.listing (p : Program) : String :=
  String.join (p.instructions.mapIdx fun index i => i.listing index ++ "\n")
    ++ Text.decimal p.size ++ " instructions"

end AccessLog
