import AccessLog.Program
import AccessLog.Provider

/-!
# Rendering

A program is carried out against a provider and writes one line of a log. Every instruction
adds its text to the end of the line, and the delimiter after it.

A value that the provider does not have is replaced by the placeholder. A limit applies to
values only, never to literal text or to the placeholder, and counts characters.
-/

set_option autoImplicit false

namespace AccessLog

/-- How a line is laid out around the values. -/
structure Style where
  /-- Written in place of a value that is not available. -/
  placeholder : String := "-"
  /-- Written after every instruction and every appended line. -/
  delimiter : String := ""
  deriving DecidableEq, Repr

namespace Render

/-- The first characters of a value, as many as the limit allows. -/
def clip (limit : Option Nat) (value : String) : String :=
  match limit with
  | none => value
  | some n => String.ofList (value.toList.take n)

/-- Applies a limit to what was written after the first `start` bytes of a line. -/
def clipFrom (start : Nat) (limit : Option Nat) (line : String) : String :=
  match Text.splitAtByte start line.toList with
  | some (before, written) => String.ofList before ++ clip limit (String.ofList written)
  | none => line

def flagText (on : Bool) : String := if on then "true" else "false"

/-- Writes a value, cut to its limit, or else the placeholder. -/
def put (line placeholder : String) (limit : Option Nat) : Option String → String
  | some value => line ++ clip limit value
  | none => line ++ placeholder

/-- Writes the text of one instruction. A number is written whole and then cut where it stands,
everything else is cut before it is written. -/
def execute {m : Type → Type} [Monad m] (provider : Provider m) (placeholder line : String)
    (i : Instruction) : m String := do
  let put := put line placeholder i.limit
  match i.op with
  | .text literal => return line ++ literal
  | .field (.startTime pattern) => return put (some (← provider (.startTime pattern)))
  | .field (.int metric) =>
    match ← provider (.int metric) with
    | some n => return clipFrom line.utf8ByteSize i.limit (line ++ Text.signedDecimal n)
    | none => return line ++ placeholder
  | .field (.str metric) => return put (← provider (.str metric))
  | .field (.flag f) => return put ((← provider (.flag f)).map flagText)
  | .field (.header side selector) => return put (← provider (.header side selector))
  | .field (.trailer selector) => return put (← provider (.trailer selector))
  | .field (.body side selector) => return put (← provider (.body side selector))
  | .field (.uri selector) => return put (← provider (.uri selector))
  | .field (.routerInfo selector) => return put (← provider (.routerInfo selector))
  | .field (.middleware stage selector) => return put (← provider (.middleware stage selector))

end Render

namespace Program

/-- Carries out a program at the end of a line. -/
def renderInto {m : Type → Type} [Monad m] (p : Program) (line : String) (provider : Provider m)
    (style : Style) : m String :=
  let step (line : String) (i : Instruction) : m String := do
    return (← Render.execute provider style.placeholder line i) ++ style.delimiter
  p.instructions.foldlM step line

/-- The line a program writes. -/
def render {m : Type → Type} [Monad m] (p : Program) (provider : Provider m) (style : Style) :
    m String :=
  p.renderInto "" provider style

end Program

end AccessLog
