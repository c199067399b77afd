import AccessLog.Json.Writer
import AccessLog.Provider
import AccessLog.Snapshot.Basic
import AccessLog.Time.Pattern

/-!
# Answers from a snapshot

A snapshot answers every query, with the first of a selector's names for which it has a value.

The answers are pure but for the start time, which may be impossible to write in the layout that
is asked for (`Time.Instant.inPattern?`). The provider therefore lives in `Option`: no answer at
all means that the line cannot be written, which is not the same as a value that is missing.
-/

set_option autoImplicit false

namespace AccessLog

namespace Message

/-- A field of a message. Host and authority stand in for each other, each preferring its own
place. -/
def field? (m : Message) : FieldRef HttpField → Option String
  | .wellKnown .method => m.method
  | .wellKnown .status => m.status.map Text.decimal
  | .wellKnown .protocol => m.protocol
  | .wellKnown .tlsCipher => m.tlsCipher
  | .wellKnown .tlsVersion => m.tlsVersion
  | .wellKnown .path => m.path
  | .wellKnown .authority => m.authority <|> m.header? "host"
  | .wellKnown .host => m.header? "host" <|> m.authority
  | .wellKnown .userAgent => m.header? "user-agent"
  | .wellKnown .cookie => m.header? "cookie"
  | .custom name => m.header? name

/-- The text of a part of a body: strings bare, null not at all, all else as JSON. -/
def bodyText? : Json.Value → Option String
  | .null => none
  | .string s => some s
  | v => some v.compact

/-- A field of the body, by its dotted path. -/
def bodyField? (m : Message) (path : String) : Option String := do
  bodyText? (← (← m.body).atPath? path)

end Message

namespace UriParts

/-- A component of a URI; other names are those of query parameters. -/
def field? (u : UriParts) : FieldRef UriField → Option String
  | .wellKnown .scheme => u.scheme
  | .wellKnown .user => u.user
  | .wellKnown .password => u.password
  | .wellKnown .host => u.host
  | .wellKnown .path => u.path
  | .wellKnown .rawPath => u.rawPath
  | .wellKnown .rawQuery => u.rawQuery
  | .wellKnown .fragment => u.fragment
  | .custom name => u.query.get? name

end UriParts

namespace Chains

/-- A property of the chains, seen from a stage. Only the number of names and the attributes
depend on the stage. -/
def field? (c : Chains) (stage : Stage) : FieldRef MiddlewareField → Option String
  | .wellKnown .firstRequest => c.request.names.head?
  | .wellKnown .lastRequest => c.request.names.getLast?
  | .wellKnown .firstResponse => c.response.names.head?
  | .wellKnown .lastResponse => c.response.names.getLast?
  | .wellKnown .count => some (Text.decimal (c.chain stage).names.length)
  | .wellKnown .requestName => c.requestName
  | .wellKnown .responseName => c.responseName
  | .wellKnown .appName => c.appName
  | .custom name => (c.chain stage).attributes.get? name

end Chains

namespace Snapshot

/-- The start time as a pattern shows it; empty when it is not known. -/
def startTimeText? (s : Snapshot) (pattern : String) : Option String :=
  match s.startTime with
  | none => some ""
  | some t => t.inPattern? pattern

/-- An integer metric. The status of the response serves as its code. -/
def int? (s : Snapshot) (metric : IntMetric) : Option Int :=
  match s.ints.get? metric, metric with
  | some n, _ => some n
  | none, .responseCode => s.response.status.map fun (n : Nat) => (n : Int)
  | none, _ => none

/-- The answer to a query about anything but the start time. -/
def text? (s : Snapshot) : Query → Option String
  | .header side selector => selector.firstMatch (s.message side).field?
  | .trailer selector => selector.firstMatch fun ref => s.response.trailer? ref.name
  | .body side selector => selector.firstMatch fun ref => (s.message side).bodyField? ref.name
  | .uri selector => selector.firstMatch s.uri.field?
  | .routerInfo selector => selector.firstMatch fun ref => s.routerInfo.get? ref.name
  | .middleware stage selector => selector.firstMatch (s.middleware.field? stage)
  | .str metric => s.strings.get? metric
  | .startTime _ | .int _ | .flag _ => none

/-- Answers queries from a snapshot. -/
def provider (s : Snapshot) : Provider Option
  | .startTime pattern => s.startTimeText? pattern
  | .int metric => some (s.int? metric)
  | .str metric => some (s.text? (.str metric))
  | .flag f => some (s.flags.get? f)
  | .header side selector => some (s.text? (.header side selector))
  | .trailer selector => some (s.text? (.trailer selector))
  | .body side selector => some (s.text? (.body side selector))
  | .uri selector => some (s.text? (.uri selector))
  | .routerInfo selector => some (s.text? (.routerInfo selector))
  | .middleware stage selector => some (s.text? (.middleware stage selector))

end Snapshot

end AccessLog
