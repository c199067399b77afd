import AccessLog.Command
import AccessLog.Json.Value
import AccessLog.Time.Instant

/-!
# Snapshots

A snapshot is all that can be asked about one exchange, as plain data. It serves to preview a
format and to replay traffic that was captured.

Metrics are stored under the members of their tables, everything named by others under the name
it was given.
-/

set_option autoImplicit false

namespace AccessLog

/-- One side of an HTTP exchange. -/
structure Message where
  method : Option String := none
  status : Option Nat := none
  protocol : Option String := none
  tlsCipher : Option String := none
  tlsVersion : Option String := none
  path : Option String := none
  authority : Option String := none
  headers : Dict String String := {}
  trailers : Dict String String := {}
  /-- The decoded body; its fields are named by dotted paths. -/
  body : Option Json.Value := none
  deriving DecidableEq, Repr

/-- The components of the request URI. -/
structure UriParts where
  scheme : Option String := none
  user : Option String := none
  password : Option String := none
  host : Option String := none
  path : Option String := none
  rawPath : Option String := none
  rawQuery : Option String := none
  fragment : Option String := none
  query : Dict String String := {}
  deriving DecidableEq, Repr

/-- One middleware chain: its names in the order in which they ran, and free attributes. -/
structure Chain where
  names : List String := []
  attributes : Dict String String := {}
  deriving DecidableEq, Repr

/-- The middleware chains of an exchange. -/
structure Chains where
  request : Chain := {}
  response : Chain := {}
  app : Chain := {}
  requestName : Option String := none
  responseName : Option String := none
  appName : Option String := none
  deriving DecidableEq, Repr

/-- Everything known about one exchange. -/
structure Snapshot where
  startTime : Option Time.Instant := none
  ints : Dict IntMetric Int := {}
  strings : Dict StrMetric String := {}
  flags : Dict Flag Bool := {}
  request : Message := {}
  response : Message := {}
  uri : UriParts := {}
  routerInfo : Dict String String := {}
  middleware : Chains := {}
  deriving DecidableEq, Repr

instance : Inhabited Snapshot := ⟨{}⟩

/-- The value of the identical key, or else of the first key equal up to ASCII case. -/
def Dict.getUpToCase? {α : Type} (d : Dict String α) (name : String) : Option α :=
  match d.get? name with
  | some value => some value
  | none => d.findValue? (Text.sameUpToCase · name)

namespace Message

/-- A header, by its name up to ASCII case. -/
def header? (m : Message) (name : String) : Option String := m.headers.getUpToCase? name

/-- A trailer, by its name up to ASCII case. -/
def trailer? (m : Message) (name : String) : Option String := m.trailers.getUpToCase? name

end Message

namespace Chains

def chain (c : Chains) : Stage → Chain
  | .request => c.request
  | .response => c.response
  | .app => c.app

end Chains

namespace Snapshot

def message (s : Snapshot) : Side → Message
  | .request => s.request
  | .response => s.response

end Snapshot

end AccessLog
