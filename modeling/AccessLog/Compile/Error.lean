import AccessLog.Text.Basic

/-!
# Why a format does not compile

A compile error is a cause and the place of the field that it concerns: the byte offset of the
percent sign that opens the field. The cause itself says nothing about places, so that the same
field is wrong for the same reason wherever it stands.
-/

set_option autoImplicit false

namespace AccessLog

/-- What is wrong with a field. -/
inductive Cause where
  /-- The percent sign that opens the field has no partner. -/
  | unterminated
  /-- The name is no command. -/
  | unknownField (name : String)
  /-- A parameter is given to a command that takes none. -/
  | unexpectedParameter (field : String)
  /-- A command that takes a parameter has none. -/
  | missingParameter (field : String)
  /-- The text after the colon is no length. -/
  | invalidLength (field value : String)
  /-- The parameter has no closing parenthesis. -/
  | unterminatedParameter (field : String)
  /-- The parameter is followed by something other than a length. -/
  | trailingCharacters (field rest : String)
  /-- The parameter is not one name or two names with a question mark between them. -/
  | invalidSelector (field selector expected : String)
  deriving DecidableEq, Repr

/-- A cause and where it was found. -/
structure CompileError where
  cause : Cause
  /-- The byte offset of the percent sign that opens the field. -/
  position : Nat
  deriving DecidableEq, Repr

def CompileError.message (e : CompileError) : String :=
  let place := Text.decimal e.position
  match e.cause with
  | .unterminated => s!"unterminated field starting at offset {place}"
  | .unknownField name => s!"unknown field `{name}` at offset {place}"
  | .unexpectedParameter field => s!"field `{field}` does not take a parameter (offset {place})"
  | .missingParameter field => s!"field `{field}` requires a parameter (offset {place})"
  | .invalidLength field value =>
    s!"invalid length `{value}` for field `{field}` (offset {place})"
  | .unterminatedParameter field =>
    s!"unterminated parameter for field `{field}` (offset {place})"
  | .trailingCharacters field rest =>
    s!"unexpected `{rest}` after parameter of field `{field}` (offset {place})"
  | .invalidSelector field selector expected =>
    s!"invalid selector `{selector}` for field `{field}`: expected `{expected}` or "
      ++ s!"`{expected}?{expected}` (offset {place})"

end AccessLog
