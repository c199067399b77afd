import AccessLog.Compile
import AccessLog.Record

/-!
# Settings

The settings of an access log are a format and a style, with a default for each. They are plain
data and may hold a format that does not compile: `Settings.build` is where that is found out.

A log is what settings are built into. It keeps the compiled format together with the style, so
that only a provider is needed to write a line.
-/

set_option autoImplicit false

namespace AccessLog

/-- The settings of an access log. -/
structure Settings where
  format : String := "[%START_TIME%] \"%REQ(:method)% %REQ(X-Original-Path?:path)% "
    ++ "%PROTOCOL%\" %RESPONSE_CODE% %RESPONSE_FLAGS% %BYTES_RECEIVED% %BYTES_SENT% %DURATION% "
    ++ "\"%REQ(X-Forwarded-For)%\" \"%REQ(user-agent)%\" \"%REQ(X-Request-Id)%\" "
    ++ "\"%REQ(:authority)%\" \"%UPSTREAM_HOST%\""
  style : Style := {}
  deriving DecidableEq, Repr

instance : Inhabited Settings := ⟨{}⟩

/-- A compiled format with the style it is rendered in. -/
structure Log where
  program : Program
  style : Style
  deriving DecidableEq, Repr

def Settings.build (s : Settings) : Except CompileError Log := do
  return ⟨← compile s.format, s.style⟩

namespace Log

def render {m : Type → Type} [Monad m] (log : Log) (provider : Provider m) : m String :=
  log.program.render provider log.style

/-- Starts a record of the log's program. -/
def record (log : Log) : Record := { program := log.program }

/-- Writes a record in the style of the log. The program is the record's own. -/
def renderRecord {m : Type → Type} [Monad m] (log : Log) (r : Record) (provider : Provider m) :
    m String :=
  r.render provider log.style

end Log

end AccessLog
