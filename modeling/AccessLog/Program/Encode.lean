import AccessLog.Json.Writer
import AccessLog.Program

/-!
# Programs as JSON

The written form of a program names every choice: the sort of an instruction, the side or stage,
and for each half of a selector whether it is a well-known member or a name of its own. So
programs that differ anywhere are written differently.
-/

set_option autoImplicit false

namespace AccessLog

open Json

namespace Side

def text : Side → String
  | .request => "request"
  | .response => "response"

end Side

namespace Stage

def text : Stage → String
  | .request => "request"
  | .response => "response"
  | .app => "app"

end Stage

/-- The tree of a choice with its value. -/
def tagged (tag : String) (t : Tree) : Tree := .record [(tag, t)]

/-- The tree of a name inside a parameter. -/
def FieldRef.encode {F : Type} [Namespace F] : FieldRef F → Tree
  | .wellKnown f => tagged "well_known" (.string (Table.name f))
  | .custom name => tagged "custom" (.string name)

def Selector.encode {F : Type} [Namespace F] (s : Selector F) : Tree :=
  .record [("primary", s.primary.encode), ("fallback", Tree.orNull FieldRef.encode s.fallback)]

def Query.encode : Query → Tree
  | .startTime pattern => tagged "start_time" (.string pattern)
  | .int metric => tagged "int" (.string metric.name)
  | .str metric => tagged "str" (.string metric.name)
  | .flag f => tagged "flag" (.string f.name)
  | .header side selector => tagged "header" (.list [.string side.text, selector.encode])
  | .trailer selector => tagged "trailer" selector.encode
  | .body side selector => tagged "body" (.list [.string side.text, selector.encode])
  | .uri selector => tagged "uri" selector.encode
  | .routerInfo selector => tagged "router_info" selector.encode
  | .middleware stage selector =>
    tagged "middleware" (.list [.string stage.text, selector.encode])

def Op.encode : Op → Tree
  | .text literal => tagged "text" (.string literal)
  | .field query => query.encode

def Instruction.encode (i : Instruction) : Tree :=
  .record [
    ("op", i.op.encode),
    ("truncate", Tree.orNull (fun n => .number (.int (n : Nat))) i.limit)]

def Program.encode (p : Program) : Tree :=
  .record [("raw", .string p.template), ("instructions", .list (p.instructions.map (·.encode)))]

end AccessLog
