import AccessLog.Files
import AccessLog.Settings.Place

/-!
# Settings in files

The extension of a file says what is in it. The file is read before its extension is looked at,
so one that cannot be read is reported as such whatever it is called.
-/

set_option autoImplicit false

namespace AccessLog

/-- Why there are no settings. -/
inductive SettingsError where
  | unreadable (path : String) (reason : ReadFailure)
  /-- The text is no YAML that settings are written in. -/
  | yaml
  /-- The text is no JSON. -/
  | malformed
  /-- The text is JSON up to a value that does not fit, and the place where it was found. -/
  | mismatch (m : Json.Mismatch) (place : Text.Place)
  /-- The extension is neither that of YAML nor that of JSON. -/
  | unsupported (path : String)
  | compile (error : CompileError)
  deriving DecidableEq, Repr

namespace SettingsError

/-- The error of a JSON document that has a fault. -/
def ofFault (source : String) : Json.Fault → SettingsError
  | .malformed => .malformed
  | .mismatch m => .mismatch m (Settings.placeOfMismatch source)

/-- The causes of an error in a JSON document. -/
def jsonCauses (cause : String) : List String :=
  ["invalid JSON access log config: " ++ cause, cause]

/-- The causes shown for an error, each one explaining the one before it. -/
def causes : SettingsError → List String
  | .unreadable path reason =>
    [s!"could not read access log config {path}: " ++ reason.message, reason.message]
  | .yaml => ["invalid YAML access log config: malformed document", "malformed document"]
  | .malformed => jsonCauses "malformed document"
  | .mismatch m place => jsonCauses (m.message ++ " at " ++ place.words)
  | .unsupported path => [s!"unsupported access log config format: {path}"]
  | .compile error => ["invalid access log format: " ++ error.message, error.message]

def message (e : SettingsError) : String := e.causes.headD ""

end SettingsError

namespace Settings

/-- The two kinds of documents that hold settings. -/
inductive Kind where
  | yaml
  | json
  deriving DecidableEq, Repr

/-- What kind of document an extension stands for. -/
def Kind.ofExtension? : String → Option Kind
  | "yaml" | "yml" => some .yaml
  | "json" => some .json
  | _ => none

def read (kind : Kind) (source : String) : Except SettingsError Settings :=
  match kind with
  | .yaml => (readYaml? source).elim (.error .yaml) .ok
  | .json => (readJson source).mapError (.ofFault source)

def load {m : Type → Type} [Monad m] (readFile : FileReader m) (path : String) :
    m (Except SettingsError Settings) := do
  match ← readFile path with
  | .error reason => return .error (.unreadable path reason)
  | .ok source =>
    match (Path.extension? path).bind Kind.ofExtension? with
    | some kind => return read kind source
    | none => return .error (.unsupported path)

/-- Compiles the format of settings that were read. -/
def buildOrExplain (s : Settings) : Except SettingsError Log := s.build.mapError .compile

end Settings

end AccessLog
