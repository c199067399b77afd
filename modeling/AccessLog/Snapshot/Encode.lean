import AccessLog.Json.Writer
import AccessLog.Snapshot.Basic

/-!
# Writing snapshots

A snapshot is written with all its fields in their own order, those that hold nothing included.
-/

set_option autoImplicit false

namespace AccessLog

open Json

def encodeText? : Option String → Tree := Tree.orNull Tree.string

def Dict.encode {κ α : Type} [Ord κ] (d : Dict κ α) (key : κ → String) (value : α → Tree) : Tree :=
  .record (d.entries.map fun (k, v) => (key k, value v))

def encodeTexts (d : Dict String String) : Tree := d.encode id Tree.string

/-- The tree of one side of an exchange. -/
def Message.encode (m : Message) : Tree :=
  .record [
    ("method", encodeText? m.method),
    ("status", Tree.orNull (fun n => .number (.int (n : Nat))) m.status),
    ("protocol", encodeText? m.protocol),
    ("tls_cipher", encodeText? m.tlsCipher),
    ("tls_version", encodeText? m.tlsVersion),
    ("path", encodeText? m.path),
    ("authority", encodeText? m.authority),
    ("headers", encodeTexts m.headers),
    ("trailers", encodeTexts m.trailers),
    ("body", Tree.orNull Tree.ofValue m.body)]

def UriParts.encode (u : UriParts) : Tree :=
  .record [
    ("scheme", encodeText? u.scheme),
    ("user", encodeText? u.user),
    ("password", encodeText? u.password),
    ("host", encodeText? u.host),
    ("path", encodeText? u.path),
    ("raw_path", encodeText? u.rawPath),
    ("raw_query", encodeText? u.rawQuery),
    ("fragment", encodeText? u.fragment),
    ("query", encodeTexts u.query)]

def Chain.encode (c : Chain) : Tree :=
  .record [("names", .list (c.names.map .string)), ("attributes", encodeTexts c.attributes)]

def Chains.encode (c : Chains) : Tree :=
  .record [
    ("request", c.request.encode),
    ("response", c.response.encode),
    ("app", c.app.encode),
    ("request_name", encodeText? c.requestName),
    ("response_name", encodeText? c.responseName),
    ("app_name", encodeText? c.appName)]

namespace Snapshot

def encode (s : Snapshot) : Tree :=
  .record [
    ("start_time", Tree.orNull (fun (t : Time.Instant) => .string t.rfc3339) s.startTime),
    ("ints", s.ints.encode Table.name fun n => .number (.int n)),
    ("strings", s.strings.encode Table.name .string),
    ("flags", s.flags.encode Table.name .bool),
    ("request", s.request.encode),
    ("response", s.response.encode),
    ("uri", s.uri.encode),
    ("router_info", encodeTexts s.routerInfo),
    ("middleware", s.middleware.encode)]

def text (s : Snapshot) : String := s.encode.compact

end Snapshot

end AccessLog
