import AccessLog.Render

/-!
# Records

A record is a program with lines to be added behind what it writes. The lines are text as it
is: percent signs in them mean nothing.
-/

set_option autoImplicit false

namespace AccessLog

/-- A program and the lines that follow it. -/
structure Record where
  program : Program
  lines : List String := []
  deriving DecidableEq, Repr

namespace Record

/-- Adds a line behind the others. -/
def push (r : Record) (line : String) : Record := { r with lines := r.lines ++ [line] }

/-- Adds lines behind the others, in order. -/
def pushAll (r : Record) (lines : List String) : Record := lines.foldl push r

/-- Carries out the program at the end of a line, then adds each of the lines and the delimiter
after it. -/
def renderInto {m : Type → Type} [Monad m] (r : Record) (line : String) (provider : Provider m)
    (style : Style) : m String := do
  let line ← r.program.renderInto line provider style
  return r.lines.foldl (fun line extra => line ++ extra ++ style.delimiter) line

def render {m : Type → Type} [Monad m] (r : Record) (provider : Provider m) (style : Style) :
    m String :=
  r.renderInto "" provider style

end Record

end AccessLog
