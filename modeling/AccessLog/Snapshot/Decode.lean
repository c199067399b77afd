import AccessLog.Json.Decode
import AccessLog.Json.Reader
import AccessLog.Snapshot.Basic
import AccessLog.Time.Reader

/-!
# Reading snapshots

A snapshot is a record of records. It may be read as it goes (`Snapshot.read`), or from a value
that has been read whole (`Snapshot.ofValue`); documents that hold one snapshot or an array of
them are read the second way (`Snapshot.readAll`). The two ways differ where a document names a
member twice: as it goes, a record refuses the second one, while in a value only the last one is
left.
-/

set_option autoImplicit false

namespace AccessLog

open Json Json.Decode

namespace Time

/-- Reads a point in time from a text. -/
def decodeInstant : Decoder Instant
  | .string s =>
    match Instant.read s with
    | .ok t => .ok t
    | .error e => .error (.mismatch (.text e.message))
  | t => unexpected "an RFC 3339 formatted date and time string" t

end Time

def decodeTexts : Decoder (Dict String String) := dict anyKey string

/-- The record of one side of an exchange. -/
def Message.schema : Schema Message where
  name := "HttpSnapshot"
  fields := [
    field "method" (optional string) fun m a => { m with method := a },
    field "status" (optional nat16) fun m a => { m with status := a },
    field "protocol" (optional string) fun m a => { m with protocol := a },
    field "tls_cipher" (optional string) fun m a => { m with tlsCipher := a },
    field "tls_version" (optional string) fun m a => { m with tlsVersion := a },
    field "path" (optional string) fun m a => { m with path := a },
    field "authority" (optional string) fun m a => { m with authority := a },
    field "headers" decodeTexts fun m a => { m with headers := a },
    field "trailers" decodeTexts fun m a => { m with trailers := a },
    field "body" (optional value) fun m a => { m with body := a }]

/-- The record of the components of a URI. -/
def UriParts.schema : Schema UriParts where
  name := "UriSnapshot"
  fields := [
    field "scheme" (optional string) fun u a => { u with scheme := a },
    field "user" (optional string) fun u a => { u with user := a },
    field "password" (optional string) fun u a => { u with password := a },
    field "host" (optional string) fun u a => { u with host := a },
    field "path" (optional string) fun u a => { u with path := a },
    field "raw_path" (optional string) fun u a => { u with rawPath := a },
    field "raw_query" (optional string) fun u a => { u with rawQuery := a },
    field "fragment" (optional string) fun u a => { u with fragment := a },
    field "query" decodeTexts fun u a => { u with query := a }]

/-- The record of one middleware chain. -/
def Chain.schema : Schema Chain where
  name := "MiddlewareChain"
  fields := [
    field "names" (list string) fun c a => { c with names := a },
    field "attributes" decodeTexts fun c a => { c with attributes := a }]

/-- The record of the middleware chains. -/
def Chains.schema (strictness : Strictness) : Schema Chains where
  name := "MiddlewareSnapshot"
  fields :=
    let chain := Chain.schema.read strictness {}
    [field "request" chain fun c a => { c with request := a },
     field "response" chain fun c a => { c with response := a },
     field "app" chain fun c a => { c with app := a },
     field "request_name" (optional string) fun c a => { c with requestName := a },
     field "response_name" (optional string) fun c a => { c with responseName := a },
     field "app_name" (optional string) fun c a => { c with appName := a }]

namespace Snapshot

def schema (strictness : Strictness) : Schema Snapshot where
  name := "Snapshot"
  fields :=
    let message := Message.schema.read strictness {}
    [field "start_time" (optional Time.decodeInstant) fun s a => { s with startTime := a },
     field "ints" (dict tableKey int64) fun s a => { s with ints := a },
     field "strings" (dict tableKey string) fun s a => { s with strings := a },
     field "flags" (dict tableKey bool) fun s a => { s with flags := a },
     field "request" message fun s a => { s with request := a },
     field "response" message fun s a => { s with response := a },
     field "uri" (UriParts.schema.read strictness {}) fun s a => { s with uri := a },
     field "router_info" decodeTexts fun s a => { s with routerInfo := a },
     field "middleware" ((Chains.schema strictness).read strictness {})
       fun s a => { s with middleware := a }]

def decode (strictness : Strictness) : Decoder Snapshot := (schema strictness).read strictness {}

/-- Decodes a snapshot from a value that has been read whole. -/
def ofValue (v : Value) : Except Fault Snapshot := decode .known (Tree.ofValue v)

/-- Reads a document that is one snapshot, as it goes. -/
def read (source : String) : Except Fault Snapshot :=
  (Document.read source).decode (decode .streaming)

/-- Reads a document that is one snapshot or an array of them. -/
def readAll (source : String) : Except Fault (List Snapshot) :=
  match Value.read? source with
  | none => .error .malformed
  | some (.array items) => items.mapM ofValue
  | some v => return [← ofValue v]

end Snapshot

end AccessLog
