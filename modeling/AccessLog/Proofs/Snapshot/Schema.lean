import AccessLog.Proofs.Json.Number
import AccessLog.Proofs.Json.Record
import AccessLog.Snapshot.Decode

/-!
# The schema of a snapshot

A snapshot is described by five rows of parts, one for each record: a name, how it is spelled, and
where it is kept. From them come both the schema (`Snapshot.spelling.shape`) and what a value that
follows it says (`Snapshot.spelling.Means`). Neither knows of decoders.

**Decoding a value accepts exactly what follows the schema**, and then every part has what is given
for it or its default (`ofValue_iff_schema`). What is asked of the fields is no more than that each
reads its own part (`Describes`); that records nest, may be given as arrays, refuse unknown names
at every level and keep their defaults was settled once for all records.

Under both strictnesses the decoder reads the same spelling, which is what the agreement of the two
readers rests on.
-/

set_option autoImplicit false

namespace AccessLog

open Json Json.Decode

/-! ## Spellings of their own -/

namespace Time

theorem decodeInstant_eq_ok_iff {t : Tree} {i : Instant} :
    decodeInstant t = .ok i ↔ ∃ s, t = .string s ∧ Instant.read s = .ok i := by
  cases t with
  | string s =>
    simp only [decodeInstant]
    cases hread : Instant.read s <;> simp [hread]
  | _ => simp [decodeInstant, unexpected]

theorem reads_instant : Decoder.Reads decodeInstant (.readable Instant.read) where
  sound h := by
    obtain ⟨s, rfl, hread⟩ := decodeInstant_eq_ok_iff.mp h
    exact ⟨_, rfl, s, rfl, hread⟩
  accepts _ hv := by
    rintro ⟨s, rfl, haccepts⟩
    simp only at haccepts
    cases hread : Instant.read s with
    | error e =>
      rw [hread] at haccepts
      cases haccepts
    | ok i =>
      exact ⟨i, decodeInstant_eq_ok_iff.mpr ⟨s, (Tree.value?_eq_scalar_iff rfl).mp hv, hread⟩⟩
  admits _ h := by
    obtain ⟨s, rfl, hread⟩ := h
    exact ⟨s, rfl, by simp only [hread]; rfl⟩
  unique _ _ _ h h' := by
    obtain ⟨s, rfl, hread⟩ := h
    obtain ⟨_, heq, hread'⟩ := h'
    cases heq
    cases hread.symm.trans hread'
    rfl

end Time

namespace Json.Spelling

/-- Texts under any names. -/
def texts : Spelling (Dict String String) := dict none id text

/-- Values under the spellings of the members of a table. -/
def metrics {F α : Type} [Table F] [Ord F] (s : Spelling α) : Spelling (Dict F α) :=
  dict (some (Table.names F)) Table.name s

end Json.Spelling

theorem reads_texts : Decoder.Reads decodeTexts .texts := reads_dict reads_string readsKey_any

/-! ## The records -/

/-- One side of an exchange. -/
def Message.parts : List (Json.Part Message) := [
  ⟨"method", .optional .text, (·.method)⟩,
  ⟨"status", .optional (.natural 65535), (·.status)⟩,
  ⟨"protocol", .optional .text, (·.protocol)⟩,
  ⟨"tls_cipher", .optional .text, (·.tlsCipher)⟩,
  ⟨"tls_version", .optional .text, (·.tlsVersion)⟩,
  ⟨"path", .optional .text, (·.path)⟩,
  ⟨"authority", .optional .text, (·.authority)⟩,
  ⟨"headers", .texts, (·.headers)⟩,
  ⟨"trailers", .texts, (·.trailers)⟩,
  ⟨"body", .optional .any, (·.body)⟩]

def Message.spelling : Spelling Message := .record Message.parts {}

theorem Message.describes : Describes Message.parts Message.schema where
  fields := by
    refine .cons ⟨_, _, rfl, reads_optional reads_string, fun _ _ => rfl, ?_⟩ <|
      .cons ⟨_, _, rfl, reads_optional reads_nat16, fun _ _ => rfl, ?_⟩ <|
      .cons ⟨_, _, rfl, reads_optional reads_string, fun _ _ => rfl, ?_⟩ <|
      .cons ⟨_, _, rfl, reads_optional reads_string, fun _ _ => rfl, ?_⟩ <|
      .cons ⟨_, _, rfl, reads_optional reads_string, fun _ _ => rfl, ?_⟩ <|
      .cons ⟨_, _, rfl, reads_optional reads_string, fun _ _ => rfl, ?_⟩ <|
      .cons ⟨_, _, rfl, reads_optional reads_string, fun _ _ => rfl, ?_⟩ <|
      .cons ⟨_, _, rfl, reads_texts, fun _ _ => rfl, ?_⟩ <|
      .cons ⟨_, _, rfl, reads_texts, fun _ _ => rfl, ?_⟩ <|
      .cons ⟨_, _, rfl, reads_optional reads_value, fun _ _ => rfl, ?_⟩ .nil
    all_goals simp [Message.parts]
  nodup := by decide
  ext {a b} h := by
    cases a
    cases b
    simpa [Message.parts] using h

/-- The components of a URI. -/
def UriParts.parts : List (Json.Part UriParts) := [
  ⟨"scheme", .optional .text, (·.scheme)⟩,
  ⟨"user", .optional .text, (·.user)⟩,
  ⟨"password", .optional .text, (·.password)⟩,
  ⟨"host", .optional .text, (·.host)⟩,
  ⟨"path", .optional .text, (·.path)⟩,
  ⟨"raw_path", .optional .text, (·.rawPath)⟩,
  ⟨"raw_query", .optional .text, (·.rawQuery)⟩,
  ⟨"fragment", .optional .text, (·.fragment)⟩,
  ⟨"query", .texts, (·.query)⟩]

def UriParts.spelling : Spelling UriParts := .record UriParts.parts {}

theorem UriParts.describes : Describes UriParts.parts UriParts.schema where
  fields := by
    refine .cons ⟨_, _, rfl, reads_optional reads_string, fun _ _ => rfl, ?_⟩ <|
      .cons ⟨_, _, rfl, reads_optional reads_string, fun _ _ => rfl, ?_⟩ <|
      .cons ⟨_, _, rfl, reads_optional reads_string, fun _ _ => rfl, ?_⟩ <|
      .cons ⟨_, _, rfl, reads_optional reads_string, fun _ _ => rfl, ?_⟩ <|
      .cons ⟨_, _, rfl, reads_optional reads_string, fun _ _ => rfl, ?_⟩ <|
      .cons ⟨_, _, rfl, reads_optional reads_string, fun _ _ => rfl, ?_⟩ <|
      .cons ⟨_, _, rfl, reads_optional reads_string, fun _ _ => rfl, ?_⟩ <|
      .cons ⟨_, _, rfl, reads_optional reads_string, fun _ _ => rfl, ?_⟩ <|
      .cons ⟨_, _, rfl, reads_texts, fun _ _ => rfl, ?_⟩ .nil
    all_goals simp [UriParts.parts]
  nodup := by decide
  ext {a b} h := by
    cases a
    cases b
    simpa [UriParts.parts] using h

/-- One middleware chain. -/
def Chain.parts : List (Json.Part Chain) := [
  ⟨"names", .list .text, (·.names)⟩,
  ⟨"attributes", .texts, (·.attributes)⟩]

def Chain.spelling : Spelling Chain := .record Chain.parts {}

theorem Chain.describes : Describes Chain.parts Chain.schema where
  fields := by
    refine .cons ⟨_, _, rfl, reads_list reads_string, fun _ _ => rfl, ?_⟩ <|
      .cons ⟨_, _, rfl, reads_texts, fun _ _ => rfl, ?_⟩ .nil
    all_goals simp [Chain.parts]
  nodup := by decide
  ext {a b} h := by
    cases a
    cases b
    simpa [Chain.parts] using h

/-- The middleware chains. -/
def Chains.parts : List (Json.Part Chains) := [
  ⟨"request", Chain.spelling, (·.request)⟩,
  ⟨"response", Chain.spelling, (·.response)⟩,
  ⟨"app", Chain.spelling, (·.app)⟩,
  ⟨"request_name", .optional .text, (·.requestName)⟩,
  ⟨"response_name", .optional .text, (·.responseName)⟩,
  ⟨"app_name", .optional .text, (·.appName)⟩]

def Chains.spelling : Spelling Chains := .record Chains.parts {}

theorem Chains.describes (strictness : Strictness) :
    Describes Chains.parts (Chains.schema strictness) where
  fields := by
    refine .cons ⟨_, _, rfl, Chain.describes.reads strictness {}, fun _ _ => rfl, ?_⟩ <|
      .cons ⟨_, _, rfl, Chain.describes.reads strictness {}, fun _ _ => rfl, ?_⟩ <|
      .cons ⟨_, _, rfl, Chain.describes.reads strictness {}, fun _ _ => rfl, ?_⟩ <|
      .cons ⟨_, _, rfl, reads_optional reads_string, fun _ _ => rfl, ?_⟩ <|
      .cons ⟨_, _, rfl, reads_optional reads_string, fun _ _ => rfl, ?_⟩ <|
      .cons ⟨_, _, rfl, reads_optional reads_string, fun _ _ => rfl, ?_⟩ .nil
    all_goals simp [Chains.parts]
  nodup := by decide
  ext {a b} h := by
    cases a
    cases b
    simpa [Chains.parts] using h

/-- All of an exchange. -/
def Snapshot.parts : List (Json.Part Snapshot) := [
  ⟨"start_time", .optional (.readable Time.Instant.read), (·.startTime)⟩,
  ⟨"ints", .metrics (.integer Int64.minValue.toInt Int64.maxValue.toInt), (·.ints)⟩,
  ⟨"strings", .metrics .text, (·.strings)⟩,
  ⟨"flags", .metrics .flag, (·.flags)⟩,
  ⟨"request", Message.spelling, (·.request)⟩,
  ⟨"response", Message.spelling, (·.response)⟩,
  ⟨"uri", UriParts.spelling, (·.uri)⟩,
  ⟨"router_info", .texts, (·.routerInfo)⟩,
  ⟨"middleware", Chains.spelling, (·.middleware)⟩]

def Snapshot.spelling : Spelling Snapshot := .record Snapshot.parts {}

theorem Snapshot.describes (strictness : Strictness) :
    Describes Snapshot.parts (Snapshot.schema strictness) where
  fields := by
    refine .cons ⟨_, _, rfl, reads_optional Time.reads_instant, fun _ _ => rfl, ?_⟩ <|
      .cons ⟨_, _, rfl, reads_dict reads_integer readsKey_table, fun _ _ => rfl, ?_⟩ <|
      .cons ⟨_, _, rfl, reads_dict reads_string readsKey_table, fun _ _ => rfl, ?_⟩ <|
      .cons ⟨_, _, rfl, reads_dict reads_bool readsKey_table, fun _ _ => rfl, ?_⟩ <|
      .cons ⟨_, _, rfl, Message.describes.reads strictness {}, fun _ _ => rfl, ?_⟩ <|
      .cons ⟨_, _, rfl, Message.describes.reads strictness {}, fun _ _ => rfl, ?_⟩ <|
      .cons ⟨_, _, rfl, UriParts.describes.reads strictness {}, fun _ _ => rfl, ?_⟩ <|
      .cons ⟨_, _, rfl, reads_texts, fun _ _ => rfl, ?_⟩ <|
      .cons ⟨_, _, rfl, (Chains.describes strictness).reads strictness {}, fun _ _ => rfl, ?_⟩ .nil
    all_goals simp [Snapshot.parts]
  nodup := by decide
  ext {a b} h := by
    cases a
    cases b
    simpa [Snapshot.parts] using h

/-! ## Decoding -/

namespace Snapshot

/-- **A snapshot is read from what its schema admits**, whether as it goes or from a whole value. -/
theorem reads_decode (strictness : Strictness) : Decoder.Reads (decode strictness) spelling :=
  (describes strictness).reads strictness {}

/-- **A value is decoded as a snapshot exactly if it follows the schema**, and then to what it says
there: each member that is given has the value that is read from it, and each that is missing its
default. The members of the value are in order, as they are in every value that is read. Null is
admitted only where a value is optional. An integer of a document is a numeral of 64 bits; a number
with a fraction or an exponent is none, nor is `-0`. -/
theorem ofValue_iff_schema (v : Value) (hv : v.Ordered) :
    ((∃ s, ofValue v = .ok s) ↔ spelling.shape.Admits v) ∧
      (∀ s, ofValue v = .ok s ↔ spelling.Means v s) ∧
      (∀ shape : Shape, shape.Admits .null ↔ shape.isOptional = true) ∧
      ∀ {cs rest : List Char} {n : Int}, Reader.number? cs = some (.int n, rest) ↔
        cs = (Text.signedDecimal n).toList ++ rest ∧ Reader.EndsNumeral rest ∧
          Reader.InRange n := by
  have hdistinct := Tree.distinct_ofValue hv
  have hvalue := Tree.value?_ofValue hv
  refine ⟨?_, ?_, Shape.admits_null_iff, Reader.number?_eq_int_iff⟩
  · exact (reads_decode .known).exists_ok_iff hdistinct hvalue
  · intro s
    exact (reads_decode .known).eq_ok_iff hdistinct hvalue

/-- A request may be given by its first fields. -/
theorem ofValue_iff_schema_positional :
    (Value.object [("request", .array [.string "GET", .number (.int 201)])]).Ordered ∧
      spelling.Means (.object [("request", .array [.string "GET", .number (.int 201)])])
        { request := { method := some "GET", status := some 201 } } := by
  have hordered : (Value.object [("request",
      .array [.string "GET", .number (.int 201)])]).Ordered := by decide
  exact ⟨hordered, ((ofValue_iff_schema _ hordered).2.1 _).mp rfl⟩

end Snapshot

end AccessLog
