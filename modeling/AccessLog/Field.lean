import AccessLog.Text.Basic

/-!
# Field tables

The names a format may refer to. There are two sorts of tables:

- **metrics** (`IntMetric`, `StrMetric`, `Flag`) are commands of their own. Their names are
  upper-case and matched exactly.
- **namespaces** (`HttpField`, `UriField`, `MiddlewareField`, `Verbatim`) are consulted inside
  the parameter of a command, as `:method` in `%REQ(:method)%`. Their names are lower-case and
  matched up to ASCII case; a name that is no member is not an error, it stands for itself.

Every table lists its members in the order in which they are shown and stored.
-/

set_option autoImplicit false

namespace AccessLog

/-! ## Closed tables -/

/-- A closed table of named members. -/
class Table (F : Type) where
  /-- Every member, in the order of the table. -/
  all : List F
  /-- The spelling of a member. -/
  name : F → String

namespace Table

variable {F : Type} [Table F]

/-- The spellings of all members, in the order of the table. -/
def names (F : Type) [Table F] : List String := (all : List F).map name

/-- Finds the member with exactly this spelling. -/
def ofName? (s : String) : Option F := (all : List F).find? (name · == s)

/-- The place of a member in the table. -/
def index [BEq F] (f : F) : Nat := (all : List F).idxOf f

end Table

/-- A table whose members may be named inside a command's parameter. -/
class Namespace (F : Type) extends Table F where
  /-- What a member names, as shown when a parameter is malformed. -/
  kind : String

/-- Finds the member with this name, up to ASCII case. Every spelling in a namespace is
lower-case, so a name is looked for as it is, unless it has a capital letter. -/
def Namespace.lookup? {F : Type} [Namespace F] (name : String) : Option F :=
  if name.toList.any Char.isUpper then Table.ofName? (Text.lower name) else Table.ofName? name

/-! ## Metrics -/

/-- Integer-valued metrics; durations are in milliseconds. -/
inductive IntMetric where
  | requestDuration
  | requestTxDuration
  | responseDuration
  | responseTxDuration
  | duration
  | bytesReceived
  | bytesSent
  | requestHeadersBytes
  | responseHeadersBytes
  | responseCode
  | requestAttemptCount
  deriving DecidableEq, Repr

namespace IntMetric

/-- The spelling of an integer metric. -/
def name : IntMetric → String
  | requestDuration => "REQUEST_DURATION"
  | requestTxDuration => "REQUEST_TX_DURATION"
  | responseDuration => "RESPONSE_DURATION"
  | responseTxDuration => "RESPONSE_TX_DURATION"
  | duration => "DURATION"
  | bytesReceived => "BYTES_RECEIVED"
  | bytesSent => "BYTES_SENT"
  | requestHeadersBytes => "REQUEST_HEADERS_BYTES"
  | responseHeadersBytes => "RESPONSE_HEADERS_BYTES"
  | responseCode => "RESPONSE_CODE"
  | requestAttemptCount => "REQUEST_ATTEMPT_COUNT"

instance : Table IntMetric where
  all := [requestDuration, requestTxDuration, responseDuration, responseTxDuration, duration,
    bytesReceived, bytesSent, requestHeadersBytes, responseHeadersBytes, responseCode,
    requestAttemptCount]
  name := name

end IntMetric

/-- String-valued metrics. -/
inductive StrMetric where
  | connectionId
  | virtualHost
  | host
  | scheme
  | protocol
  | clientRemoteAddress
  | clientLocalAddress
  | backendHost
  | backendCluster
  | routeName
  | responseFlags
  deriving DecidableEq, Repr

namespace StrMetric

def name : StrMetric → String
  | connectionId => "CONNECTION_ID"
  | virtualHost => "VIRTUAL_HOST"
  | host => "HOST"
  | scheme => "SCHEME"
  | protocol => "PROTOCOL"
  | clientRemoteAddress => "DOWNSTREAM_REMOTE_ADDRESS"
  | clientLocalAddress => "DOWNSTREAM_LOCAL_ADDRESS"
  | backendHost => "UPSTREAM_HOST"
  | backendCluster => "UPSTREAM_CLUSTER"
  | routeName => "ROUTE_NAME"
  | responseFlags => "RESPONSE_FLAGS"

instance : Table StrMetric where
  all := [connectionId, virtualHost, host, scheme, protocol, clientRemoteAddress,
    clientLocalAddress, backendHost, backendCluster, routeName, responseFlags]
  name := name

end StrMetric

/-- Boolean metrics. -/
inductive Flag where
  | backendConnectionReused
  | clientTls
  | requestAborted
  deriving DecidableEq, Repr

namespace Flag

def name : Flag → String
  | backendConnectionReused => "UPSTREAM_CONNECTION_REUSED"
  | clientTls => "DOWNSTREAM_TLS"
  | requestAborted => "REQUEST_ABORTED"

instance : Table Flag where
  all := [backendConnectionReused, clientTls, requestAborted]
  name := name

end Flag

/-! ## The order of metrics

Stored metrics are kept in the order of their table. -/

instance : Ord IntMetric := ⟨compareOn Table.index⟩
instance : Ord StrMetric := ⟨compareOn Table.index⟩
instance : Ord Flag := ⟨compareOn Table.index⟩

instance : Std.TransOrd IntMetric :=
  inferInstanceAs (Std.TransCmp (compareOn (Table.index : IntMetric → Nat)))
instance : Std.TransOrd StrMetric :=
  inferInstanceAs (Std.TransCmp (compareOn (Table.index : StrMetric → Nat)))
instance : Std.TransOrd Flag :=
  inferInstanceAs (Std.TransCmp (compareOn (Table.index : Flag → Nat)))

instance : Std.LawfulEqOrd IntMetric where
  eq_of_compare {a b} h := by revert h; cases a <;> cases b <;> decide
instance : Std.LawfulEqOrd StrMetric where
  eq_of_compare {a b} h := by revert h; cases a <;> cases b <;> decide
instance : Std.LawfulEqOrd Flag where
  eq_of_compare {a b} h := by revert h; cases a <;> cases b <;> decide

/-! ## Namespaces -/

/-- Well-known parts of an HTTP message. -/
inductive HttpField where
  | method
  | status
  | protocol
  | tlsCipher
  | tlsVersion
  | path
  | authority
  | host
  | userAgent
  | cookie
  deriving DecidableEq, Repr

namespace HttpField

def name : HttpField → String
  | method => ":method"
  | status => ":status"
  | protocol => ":protocol"
  | tlsCipher => ":tls-cipher"
  | tlsVersion => ":tls-version"
  | path => ":path"
  | authority => ":authority"
  | host => "host"
  | userAgent => "user-agent"
  | cookie => "cookie"

instance : Namespace HttpField where
  all := [method, status, protocol, tlsCipher, tlsVersion, path, authority, host, userAgent,
    cookie]
  name := name
  kind := "HTTP field"

end HttpField

/-- Well-known components of the request URI. -/
inductive UriField where
  | scheme
  | user
  | password
  | host
  | path
  | rawPath
  | rawQuery
  | fragment
  deriving DecidableEq, Repr

namespace UriField

/-- The spelling of a URI component. -/
def name : UriField → String
  | scheme => "scheme"
  | user => "user"
  | password => "password"
  | host => "host"
  | path => "path"
  | rawPath => "raw_path"
  | rawQuery => "raw_query"
  | fragment => "fragment"

instance : Namespace UriField where
  all := [scheme, user, password, host, path, rawPath, rawQuery, fragment]
  name := name
  kind := "URI component"

end UriField

/-- Well-known properties of the middleware chains. -/
inductive MiddlewareField where
  | firstRequest
  | lastRequest
  | firstResponse
  | lastResponse
  | count
  | requestName
  | responseName
  | appName
  deriving DecidableEq, Repr

namespace MiddlewareField

/-- The spelling of a middleware property. -/
def name : MiddlewareField → String
  | firstRequest => "first_request"
  | lastRequest => "last_request"
  | firstResponse => "first_response"
  | lastResponse => "last_response"
  | count => "count"
  | requestName => "request_name"
  | responseName => "response_name"
  | appName => "app_name"

instance : Namespace MiddlewareField where
  all := [firstRequest, lastRequest, firstResponse, lastResponse, count, requestName,
    responseName, appName]
  name := name
  kind := "middleware field"

end MiddlewareField

/-- The namespace without members: trailers, body fields and router metadata are named by
whoever produces them. -/
inductive Verbatim where
  deriving DecidableEq, Repr

instance : Namespace Verbatim where
  all := []
  name := nofun
  kind := "name"

end AccessLog
