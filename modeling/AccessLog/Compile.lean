import AccessLog.Compile.Error
import AccessLog.Program

/-!
# Compiling a format

A format is cut at its percent signs. The parts then alternate: text, the body of a field,
text, the body of a field, and so on. A format is complete when the last part is text, that is
when it holds an even number of percent signs.

- Text stands for itself.
- An empty body is a percent sign that was written twice, and stands for one.
- Any other body is `NAME`, `NAME(PARAMETER)`, `NAME:LENGTH` or `NAME(PARAMETER):LENGTH`.

The first field that is wrong ends the compilation, so a program is never partial.
-/

set_option autoImplicit false

namespace AccessLog

namespace Compile

/-! ## The parts of a field body -/

/-- Whether a character ends the name of a field. -/
def endsName (c : Char) : Bool := c == '(' || c == ':'

/-- The name of a field: everything before the first parenthesis or colon. -/
def nameOf (body : List Char) : List Char := body.takeWhile (!endsName ·)

/-- What follows the name of a field. -/
def afterName (body : List Char) : List Char := body.dropWhile (!endsName ·)

/-- A field body taken apart. -/
structure Parts where
  /-- The text in parentheses; empty when there is none. -/
  parameter : List Char
  limit : Option Nat
  deriving DecidableEq, Repr

/-- Every length is below this bound. -/
def lengthBound : Nat := UInt64.size

/-- The value of a length: one or more ASCII digits below the bound. -/
def length? (digits : List Char) : Option Nat :=
  (Text.natural? digits).filter (· < lengthBound)

/-- Reads the end of a field body, which is empty or a colon and a length. -/
def limitOf (field : String) : List Char → Except Cause (Option Nat)
  | [] => .ok none
  | ':' :: digits =>
    match length? digits with
    | some n => .ok (some n)
    | none => .error (.invalidLength field (String.ofList digits))
  | tail => .error (.trailingCharacters field (String.ofList tail))

/-- Takes what follows a name apart. A parameter runs from an opening parenthesis to the first
closing one, whatever stands between them. -/
def partsOf (field : String) : List Char → Except Cause Parts
  | '(' :: inside =>
    match inside.dropWhile (· != ')') with
    | [] => .error (.unterminatedParameter field)
    | _ :: tail => do
      let limit ← limitOf field tail
      return ⟨inside.takeWhile (· != ')'), limit⟩
  | tail => do
    let limit ← limitOf field tail
    return ⟨[], limit⟩

/-- Checks a parameter against the arity of its command; an empty one counts as none. -/
def checkArity (field : String) : Arity → List Char → Except Cause Unit
  | .none, _ :: _ => .error (.unexpectedParameter field)
  | .required, [] => .error (.missingParameter field)
  | _, _ => .ok ()

/-- Reads `NAME` or `NAME?NAME` and resolves each name in the namespace of the command. -/
def selectorOf {F : Type} [Namespace F] (field : String) (parameter : List Char) :
    Except Cause (Selector F) :=
  match parameter.splitOn '?' with
  | [a@(_ :: _)] => .ok (.resolve (String.ofList a) none)
  | [a@(_ :: _), b@(_ :: _)] => .ok (.resolve (String.ofList a) (some (String.ofList b)))
  | _ => .error (.invalidSelector field (String.ofList parameter) (Namespace.kind F))

def queryOf (field : String) (parameter : List Char) : Command → Except Cause Query
  | .startTime => .ok (.startTime (String.ofList parameter))
  | .int metric => .ok (.int metric)
  | .str metric => .ok (.str metric)
  | .flag f => .ok (.flag f)
  | .header side => .header side <$> selectorOf field parameter
  | .trailer => .trailer <$> selectorOf field parameter
  | .body side => .body side <$> selectorOf field parameter
  | .uri => .uri <$> selectorOf field parameter
  | .routerInfo => .routerInfo <$> selectorOf field parameter
  | .middleware stage => .middleware stage <$> selectorOf field parameter

/-- Compiles the body of a field. The name is judged first, then the shape of what follows it,
then the parameter: so an unknown name is reported whatever comes after it. -/
def fieldOf (body : List Char) : Except Cause Instruction := do
  let field := String.ofList (nameOf body)
  match Command.lookup? field with
  | none => .error (.unknownField field)
  | some command =>
    let parts ← partsOf field (afterName body)
    checkArity field command.arity parts.parameter
    let query ← queryOf field parts.parameter command
    return ⟨.field query, parts.limit⟩

/-! ## The whole format -/

/-- The instructions for a run of text between fields; an empty run needs none. -/
def textOf (run : List Char) : List Instruction :=
  if run.isEmpty then [] else [.literal (String.ofList run)]

/-- The instruction for what stands between two percent signs. -/
def bodyOf (body : List Char) : Except Cause Instruction :=
  if body.isEmpty then .ok (.literal "%") else fieldOf body

/-- Compiles the parts of a format, the first of which starts at a byte offset. -/
def assemble (start : Nat) : List (List Char) → Except CompileError (List Instruction)
  | [] => .ok []
  | [run] => .ok (textOf run)
  | [run, _] => .error ⟨.unterminated, start + Text.byteSize run⟩
  | run :: body :: rest => do
    let opening := start + Text.byteSize run
    let field ← (bodyOf body).mapError (⟨·, opening⟩)
    -- the body and the two percent signs around it, one byte each
    let more ← assemble (opening + Text.byteSize body + 2) rest
    return textOf run ++ field :: more

end Compile

def compile (template : String) : Except CompileError Program := do
  let instructions ← Compile.assemble 0 (template.toList.splitOn '%')
  return ⟨template, instructions⟩

end AccessLog
