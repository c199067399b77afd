import AccessLog.Proofs.Dictionary
import AccessLog.Proofs.Resolution
import AccessLog.Snapshot.Answer

/-!
# Headers in another case

Headers and trailers are found without regard to the case of letters. A name is looked for as it is
first, and only then among all its spellings, where the first key of the dictionary wins
(`Dict.Finds`). Which of them that is depends on how keys are ordered: by their bytes.

A selector does not hand on every name as it is. The members of its table that are headers are
looked for in lower case, host and authority stand in for each other, and the remaining members are
no headers at all; trailers have no such table. `Snapshot.FindsHeaders` says what a selector gives
in terms of what is found, so that the search is the one that answers.

The order of the keys is a matter of their case as well, so changing the case of keys moves them to
other places and changing that of a name may lead it from the one search to the other. None of this
shows where no two keys are spellings of each other, because then **a name finds the one entry whose
key has its letters** (`Dict.getUpToCase?_eq_some_iff`). What the keys and the name of a selector
look like is of no account there (`headers_ignore_case`), although a selector puts the spelling of a
table in place of a name before it is looked up.
-/

set_option autoImplicit false

namespace AccessLog

open Text (SameLetters)

/-! ## The order of bytes -/

namespace Text

/-- The bytes of a text. -/
def bytes (s : String) : List UInt8 := s.toUTF8.data.toList

theorem bytes_eq_flatMap (s : String) : bytes s = s.toList.flatMap String.utf8EncodeChar := by
  rw [bytes, String.toUTF8, ← String.utf8Encode_toList, List.utf8Encode, List.data_toByteArray]

theorem bytes_inj {a b : String} (h : bytes a = bytes b) : a = b :=
  String.toByteArray_inj.mp (ByteArray.ext (Array.toList_inj.mp h))

theorem utf8EncodeChar_of_ascii {c : Char} (h : c.toNat < 128) :
    String.utf8EncodeChar c = [c.val.toUInt8] := by
  apply String.utf8EncodeChar_eq_singleton
  rw [Char.utf8Size_eq_one_iff, UInt32.le_iff_toNat_le]
  exact Nat.le_of_lt_succ h

/-- The two forms of a letter are single bytes. -/
theorem SameLetter.ascii {c d : Char} (h : SameLetter c d) (hne : c ≠ d) :
    c.toNat < 128 ∧ d.toNat < 128 := by
  simp only [SameLetter, hne, isUpper_iff, false_or] at h
  omega

theorem flatMap_utf8EncodeChar_lt {cs ds : List Char} (h : List.Forall₂ SameLetter cs ds)
    (hlt : cs < ds) : cs.flatMap String.utf8EncodeChar < ds.flatMap String.utf8EncodeChar := by
  induction h with
  | nil => exact absurd hlt (List.lt_irrefl _)
  | @cons c d cs ds hsame hrest ih =>
    rw [List.flatMap_cons, List.flatMap_cons]
    rcases List.cons_lt_cons_iff.mp hlt with hhead | ⟨rfl, htail⟩
    · -- where they part, the characters are two forms of a letter, so one byte decides
      have hcode : c.toNat < d.toNat := hhead
      obtain ⟨hc, hd⟩ := hsame.ascii fun heq => absurd hcode (heq ▸ Nat.lt_irrefl _)
      rw [utf8EncodeChar_of_ascii hc, utf8EncodeChar_of_ascii hd]
      refine List.cons_lt_cons_iff.mpr (.inl ?_)
      rw [UInt8.lt_iff_toNat_lt, UInt32.toNat_toUInt8, UInt32.toNat_toUInt8]
      show c.toNat % _ < d.toNat % _
      omega
    · exact List.append_left_lt (ih htail)

/-- Among the spellings of a name, the order of characters is the order of bytes. -/
theorem SameLetters.bytes_lt {a b : String} (h : SameLetters a b) (hlt : a < b) :
    bytes a < bytes b := by
  rw [bytes_eq_flatMap, bytes_eq_flatMap]
  exact flatMap_utf8EncodeChar_lt h hlt

end Text

/-! ## What a name finds -/

namespace Dict

section

variable {α : Type} {d : Dict String α} {name : String}

/-- The answer to a name: the value of the identical key, or else that of the spelling whose bytes
come first. -/
inductive Finds (d : Dict String α) (name : String) : Option α → Prop where
  | identical {value : α} (hmem : (name, value) ∈ d.entries) : Finds d name (some value)
  | spelling {key : String} {value : α} (hother : ∀ entry ∈ d.entries, entry.1 ≠ name)
    (hmem : (key, value) ∈ d.entries) (hsame : SameLetters key name)
    (hleast : ∀ entry ∈ d.entries, SameLetters entry.1 name →
      Text.bytes key ≤ Text.bytes entry.1) : Finds d name (some value)
  | nothing (hnone : ∀ entry ∈ d.entries, ¬ SameLetters entry.1 name) : Finds d name none

theorem get?_eq_none_iff : d.get? name = none ↔ ∀ entry ∈ d.entries, entry.1 ≠ name := by
  rw [get?_eq_lookup, lookup_eq_none_iff]
  simp only [List.mem_map, not_exists, not_and]

/-- The first of the spellings in the order of the dictionary is first by its bytes too. -/
theorem bytes_le_of_find? {entry : String × α}
    (h : d.entries.find? (fun entry => Text.sameUpToCase entry.1 name) = some entry) :
    ∀ other ∈ d.entries, SameLetters other.1 name →
      Text.bytes entry.1 ≤ Text.bytes other.1 := by
  intro other hother hsame
  obtain ⟨hentry, front, back, hsplit, hfront⟩ := List.find?_eq_some_iff_append.mp h
  have hincreasing := d.increasing
  rw [hsplit] at hother hincreasing
  rcases List.mem_append.mp hother with hmem | hmem
  · -- the search has passed this key by, so it is no spelling
    have hnot := hfront other hmem
    simp [Text.sameUpToCase_iff.mpr hsame] at hnot
  rcases List.mem_cons.mp hmem with rfl | hmem
  · exact List.le_refl _
  · have hlt : compare entry.1 other.1 = .lt :=
      (List.pairwise_cons.mp (List.pairwise_append.mp hincreasing).2.1).1 other hmem
    have hspelling : SameLetters entry.1 other.1 :=
      (Text.sameUpToCase_iff.mp hentry).trans hsame.symm
    exact List.le_of_lt (hspelling.bytes_lt (compareOfLessAndEq_eq_lt.mp hlt))

theorem finds_getUpToCase? : d.Finds name (d.getUpToCase? name) := by
  unfold getUpToCase?
  cases hexact : d.get? name with
  | some value => exact .identical (mem_entries_iff.mpr hexact)
  | none =>
    have hother := get?_eq_none_iff.mp hexact
    show d.Finds name (d.findValue? _)
    unfold findValue?
    cases hfind : d.entries.find? (fun entry => Text.sameUpToCase entry.1 name) with
    | some entry =>
      have hsame : SameLetters entry.1 name :=
        Text.sameUpToCase_iff.mp (List.find?_some hfind :)
      exact .spelling hother (List.mem_of_find?_eq_some hfind) hsame (bytes_le_of_find? hfind)
    | none =>
      refine .nothing fun entry hentry hsame => ?_
      exact List.find?_eq_none.mp hfind entry hentry (Text.sameUpToCase_iff.mpr hsame)

/-- There is one answer to a name. -/
theorem Finds.unique {answer other : Option α} (h : d.Finds name answer)
    (h' : d.Finds name other) : answer = other := by
  have hvalue : ∀ {key : String} {v w : α}, (key, v) ∈ d.entries → (key, w) ∈ d.entries →
      some v = some w := by
    intro key v w hv hw
    rw [← mem_entries_iff.mp hv, mem_entries_iff.mp hw]
  cases h with
  | identical hmem =>
    cases h' with
    | identical hmem' => exact hvalue hmem hmem'
    | spelling hother => exact absurd rfl (hother _ hmem)
    | nothing hnone => exact absurd (SameLetters.refl name) (hnone _ hmem)
  | spelling hother hmem hsame hleast =>
    cases h' with
    | identical hmem' => exact absurd rfl (hother _ hmem')
    | spelling hother' hmem' hsame' hleast' =>
      -- each is least among the spellings, and the other is one
      have hkey := Text.bytes_inj (List.le_antisymm (hleast _ hmem' hsame') (hleast' _ hmem hsame))
      subst hkey
      exact hvalue hmem hmem'
    | nothing hnone => exact absurd hsame (hnone _ hmem)
  | nothing hnone =>
    cases h' with
    | identical hmem' => exact absurd (SameLetters.refl name) (hnone _ hmem')
    | spelling _ hmem' hsame' => exact absurd hsame' (hnone _ hmem')
    | nothing => rfl

/-- **A name finds what is said here and nothing else.** -/
theorem getUpToCase?_eq_iff {answer : Option α} :
    d.getUpToCase? name = answer ↔ d.Finds name answer := by
  constructor
  · rintro rfl
    exact finds_getUpToCase?
  · intro h
    exact finds_getUpToCase?.unique h

/-- Something is found under a name exactly if one of its spellings is a key. -/
theorem getUpToCase?_isSome_iff :
    (d.getUpToCase? name).isSome = true ↔ ∃ entry ∈ d.entries, SameLetters entry.1 name := by
  cases hfound : d.getUpToCase? name with
  | none =>
    cases getUpToCase?_eq_iff.mp hfound with
    | nothing hnone => simpa using hnone
  | some value =>
    refine iff_of_true rfl ?_
    cases getUpToCase?_eq_iff.mp hfound with
    | identical hmem => exact ⟨_, hmem, .refl name⟩
    | spelling _ hmem hsame _ => exact ⟨_, hmem, hsame⟩

/-! ## Dictionaries without two spellings of a name -/

/-- No two keys are spellings of each other. -/
def Distinct (d : Dict String α) : Prop :=
  ∀ a ∈ d.entries, ∀ b ∈ d.entries, SameLetters a.1 b.1 → a = b

instance [DecidableEq α] (d : Dict String α) : Decidable d.Distinct :=
  inferInstanceAs
    (Decidable (∀ a ∈ d.entries, ∀ b ∈ d.entries, SameLetters a.1 b.1 → a = b))

/-- **A name finds the entry whose key has its letters.** -/
theorem getUpToCase?_eq_some_iff (h : d.Distinct) {value : α} :
    d.getUpToCase? name = some value ↔ ∃ key, (key, value) ∈ d.entries ∧ SameLetters key name := by
  rw [getUpToCase?_eq_iff]
  constructor
  · intro hfinds
    cases hfinds with
    | identical hmem => exact ⟨name, hmem, .refl name⟩
    | spelling _ hmem hsame _ => exact ⟨_, hmem, hsame⟩
  · rintro ⟨key, hmem, hsame⟩
    have honly : ∀ entry ∈ d.entries, SameLetters entry.1 name → entry = (key, value) :=
      fun entry hentry hentrySame => h _ hentry _ hmem (hentrySame.trans hsame.symm)
    -- which of the two searches finds it depends on how the key is spelled
    by_cases hkey : key = name
    · subst hkey
      exact .identical hmem
    · refine .spelling (fun entry hentry heq => hkey ?_) hmem hsame ?_
      · have hentryName : SameLetters entry.1 name := heq ▸ .refl _
        rw [← heq, honly entry hentry hentryName]
      · intro entry hentry hentrySame
        rw [honly entry hentry hentrySame]
        exact List.le_refl _

end

end Dict

/-! ## What a selector finds -/

/-- Under two names, an answer is that to the first, or else that to the second. -/
def Selector.InTurn {F : Type} [Namespace F] (ask : Selector F → Option (Option String)) : Prop :=
  ∀ {a b : String} {first second : Option String}, ask (.resolve a none) = some first →
    ask (.resolve b none) = some second → ask (.resolve a (some b)) = some (first.or second)

/-- The answer to one name is what there is under it. -/
theorem Selector.firstMatch_resolve_one {F α : Type} [Namespace F] (look : FieldRef F → Option α)
    (name : String) : (resolve name none).firstMatch look = look (.resolve name) := by
  rw [firstMatch_eq_or]
  exact Option.or_none

theorem Selector.inTurn_firstMatch {F : Type} [Namespace F] (look : FieldRef F → Option String) :
    InTurn fun selector => some (selector.firstMatch look) := by
  intro a b first second hfirst hsecond
  obtain rfl : look (.resolve a) = first :=
    (firstMatch_resolve_one look a).symm.trans (Option.some.inj hfirst)
  obtain rfl : look (.resolve b) = second :=
    (firstMatch_resolve_one look b).symm.trans (Option.some.inj hsecond)
  exact congrArg some (firstMatch_eq_or _ _)

/-- The key that a name in a selector stands for. A name in the table of fields is looked for in
lower case if it is a header, and any other name as it is. -/
inductive HttpField.Key (name : String) : String → Prop where
  | userAgent (hname : SameLetters name "user-agent") : Key name "user-agent"
  | cookie (hname : SameLetters name "cookie") : Key name "cookie"
  | other (hnone : ∀ f : HttpField, ¬ SameLetters name (Table.name f)) : Key name name

/-- Selectors are answered from the headers of a message. -/
structure Message.FindsHeaders (m : Message)
    (ask : Selector HttpField → Option (Option String)) : Prop where
  /-- The answer to a header is what the headers have under its key. -/
  header {name key : String} {answer : Option String} (hkey : HttpField.Key name key) :
    ask (.resolve name none) = some answer ↔ m.headers.Finds key answer
  host {name : String} {found : Option String} (hname : SameLetters name "host")
    (hfound : m.headers.Finds "host" found) :
    ask (.resolve name none) = some (found.or m.authority)
  authority {name : String} {found : Option String} (hname : SameLetters name ":authority")
    (hfound : m.headers.Finds "host" found) :
    ask (.resolve name none) = some (m.authority.or found)
  inTurn : Selector.InTurn ask

/-- Selectors of headers and trailers are answered from those of a snapshot. -/
structure Snapshot.FindsHeaders (s : Snapshot) : Prop where
  request : s.request.FindsHeaders fun selector => s.provider (.header .request selector)
  response : s.response.FindsHeaders fun selector => s.provider (.header .response selector)
  /-- The answer to a trailer is what the trailers of the response have under its name. -/
  trailer {name : String} {answer : Option String} :
    s.provider (.trailer (.resolve name none)) = some answer ↔ s.response.trailers.Finds name answer
  trailers : Selector.InTurn fun selector => s.provider (.trailer selector)

namespace Message

variable {m : Message} {name : String} {answer : Option String}

theorem header?_eq_iff : m.header? name = answer ↔ m.headers.Finds name answer :=
  Dict.getUpToCase?_eq_iff

theorem trailer?_eq_iff : m.trailer? name = answer ↔ m.trailers.Finds name answer :=
  Dict.getUpToCase?_eq_iff

/-- In any case of its letters, the name of a member gives what there is for the member. -/
theorem field?_member {f : HttpField} (h : SameLetters name (Table.name f)) :
    m.field? (.resolve name) = m.field? (.wellKnown f) :=
  congrArg m.field? (FieldRef.resolve_of_sameLetters h)

/-- What a message has under a name that stands for a key is its header. -/
theorem field?_of_key {key : String} (h : HttpField.Key name key) :
    m.field? (.resolve name) = m.header? key := by
  cases h with
  | userAgent hname => exact field?_member (f := .userAgent) hname
  | cookie hname => exact field?_member (f := .cookie) hname
  | other hnone =>
    rw [FieldRef.resolve_of_not_sameLetters hnone]
    rfl

theorem field?_host (h : SameLetters name "host") :
    m.field? (.resolve name) = (m.header? "host").or m.authority :=
  (field?_member (f := .host) h).trans Option.orElse_eq_or

theorem field?_authority (h : SameLetters name ":authority") :
    m.field? (.resolve name) = m.authority.or (m.header? "host") :=
  (field?_member (f := .authority) h).trans Option.orElse_eq_or

theorem findsHeaders (m : Message) :
    m.FindsHeaders fun selector => some (selector.firstMatch m.field?) where
  header hkey := by
    rw [Option.some_inj, Selector.firstMatch_resolve_one, field?_of_key hkey]
    exact header?_eq_iff
  host hname hfound := by
    rw [Selector.firstMatch_resolve_one, field?_host hname, header?_eq_iff.mpr hfound]
  authority hname hfound := by
    rw [Selector.firstMatch_resolve_one, field?_authority hname, header?_eq_iff.mpr hfound]
  inTurn := Selector.inTurn_firstMatch m.field?

end Message

theorem Snapshot.findsHeaders (s : Snapshot) : s.FindsHeaders where
  request := s.request.findsHeaders
  response := s.response.findsHeaders
  trailer {name answer} := by
    show some ((Selector.resolve name none).firstMatch _) = some answer ↔ _
    rw [Option.some_inj, Selector.firstMatch_resolve_one, FieldRef.resolve_verbatim]
    exact Message.trailer?_eq_iff
  trailers := Selector.inTurn_firstMatch fun ref => s.response.trailer? ref.name

/-! ## Other spellings of the keys -/

/-- A way to write names in another case. -/
structure Text.Recasing where
  spell : String → String
  same (name : String) : SameLetters name (spell name)

namespace Dict

variable {α : Type} {d : Dict String α} {name other : String}

/-- The same entries under keys in another case, put in order again. -/
def recase (d : Dict String α) (r : Text.Recasing) : Dict String α :=
  ⟨insertAll (d.entries.map fun entry => (r.spell entry.1, entry.2)) [],
    increasing_insertAll increasing_nil⟩

theorem Distinct.perm_recase (h : d.Distinct) (r : Text.Recasing) :
    (d.recase r).entries.Perm (d.entries.map fun entry => (r.spell entry.1, entry.2)) := by
  apply perm_insertAll
  rw [List.map_map]
  refine List.Nodup.map_on ?_ (List.Nodup.of_map Prod.fst d.increasing.nodup)
  intro a ha b hb heq
  have hspell : r.spell a.1 = r.spell b.1 := heq
  exact h a ha b hb ((r.same a.1).trans (hspell ▸ (r.same b.1).symm))

theorem Distinct.mem_recase_iff (h : d.Distinct) (r : Text.Recasing) {key : String} {value : α} :
    (key, value) ∈ (d.recase r).entries ↔ ∃ old, (old, value) ∈ d.entries ∧ r.spell old = key := by
  rw [(h.perm_recase r).mem_iff, List.mem_map]
  constructor
  · rintro ⟨⟨old, v⟩, hmem, heq⟩
    cases heq
    exact ⟨old, hmem, rfl⟩
  · rintro ⟨old, hmem, rfl⟩
    exact ⟨(old, value), hmem, rfl⟩

theorem Distinct.recase (h : d.Distinct) (r : Text.Recasing) : (d.recase r).Distinct := by
  intro a ha b hb hsame
  obtain ⟨k, hk, hak⟩ := (h.mem_recase_iff r).mp ha
  obtain ⟨l, hl, hbl⟩ := (h.mem_recase_iff r).mp hb
  have hold : SameLetters k l := by
    rw [← hak, ← hbl] at hsame
    exact (r.same k).trans (hsame.trans (r.same l).symm)
  have heq := h _ hk _ hl hold
  rw [Prod.mk.injEq] at heq
  exact Prod.ext (by rw [← hak, ← hbl, heq.1]) heq.2

/-- **Neither the case of the keys nor that of the name has a say in what is found.** -/
theorem Distinct.getUpToCase?_recase (h : d.Distinct) (r : Text.Recasing)
    (hsame : SameLetters name other) :
    (d.recase r).getUpToCase? other = d.getUpToCase? name := by
  refine Option.ext fun value => ?_
  rw [getUpToCase?_eq_some_iff h, getUpToCase?_eq_some_iff (h.recase r)]
  constructor
  · rintro ⟨key, hmem, hkey⟩
    obtain ⟨old, hold, rfl⟩ := (h.mem_recase_iff r).mp hmem
    exact ⟨old, hold, (r.same old).trans (hkey.trans hsame.symm)⟩
  · rintro ⟨old, hold, hkey⟩
    exact ⟨r.spell old, (h.mem_recase_iff r).mpr ⟨old, hold, rfl⟩,
      (r.same old).symm.trans (hkey.trans hsame)⟩

end Dict

/-! ## Selectors -/

/-- A field of a message is the same under another spelling, if the headers are. -/
theorem Message.field?_recased {m : Message} {headers trailers : Dict String String}
    (h : ∀ {name other : String}, SameLetters name other →
      headers.getUpToCase? other = m.header? name) {name other : String}
    (hsame : SameLetters name other) :
    Message.field? { m with headers, trailers } (.resolve other) = m.field? (.resolve name) := by
  have hheader : ∀ {name other : String}, SameLetters name other →
      Message.header? { m with headers, trailers } other = m.header? name := h
  rcases FieldRef.resolve_recased (F := HttpField) hsame with ⟨f, hname, hother⟩ | ⟨hname, hother⟩
  · rw [hname, hother]
    cases f with
    | method | status | protocol | tlsCipher | tlsVersion | path => rfl
    | authority | host | userAgent | cookie => simp only [field?, hheader (.refl _)]
  · rw [hname, hother]
    exact hheader hsame

/-- So is the first field of two, whatever the case of the headers and of both names. -/
theorem Message.firstMatch_recased {m : Message} (h : m.headers.Distinct) (r : Text.Recasing)
    (trailers : Dict String String) {a a' : String} {b b' : Option String} (ha : SameLetters a a')
    (hb : Option.Rel SameLetters b b') :
    (Selector.resolve a' b').firstMatch
        (Message.field? { m with headers := m.headers.recase r, trailers })
      = (Selector.resolve a b).firstMatch m.field? := by
  apply Selector.firstMatch_recased _ ha hb
  exact Message.field?_recased (h.getUpToCase?_recase r)

namespace Snapshot

/-- A snapshot with headers, and trailers of the response, in another case. -/
def recase (s : Snapshot) (requestHeaders responseHeaders responseTrailers : Text.Recasing) :
    Snapshot :=
  { s with
    request := { s.request with headers := s.request.headers.recase requestHeaders }
    response := { s.response with
      headers := s.response.headers.recase responseHeaders
      trailers := s.response.trailers.recase responseTrailers } }

/-- **Headers and trailers are found without regard to case, on both sides.** A name finds the value
of the identical key, or else that of its first spelling; so it is among the headers and among the
trailers of any message, and what is found there is what a snapshot answers. Where no two keys are
spellings of each other, the answer to a selector is the same for all spellings of the keys and of
both its names. -/
theorem headers_ignore_case :
    (∀ (d : Dict String String) (name : String) (answer : Option String),
        d.getUpToCase? name = answer ↔ d.Finds name answer) ∧
      (∀ (m : Message) (name : String) (answer : Option String),
        (m.header? name = answer ↔ m.headers.Finds name answer) ∧
        (m.trailer? name = answer ↔ m.trailers.Finds name answer)) ∧
      (∀ s : Snapshot, s.FindsHeaders) ∧
      ∀ s : Snapshot, s.request.headers.Distinct → s.response.headers.Distinct →
        s.response.trailers.Distinct → ∀ (f g h : Text.Recasing) (a a' : String)
        (b b' : Option String), SameLetters a a' → Option.Rel SameLetters b b' →
          (∀ side, (s.recase f g h).provider (.header side (.resolve a' b'))
            = s.provider (.header side (.resolve a b))) ∧
          (s.recase f g h).provider (.trailer (.resolve a' b'))
            = s.provider (.trailer (.resolve a b)) := by
  refine ⟨fun _ _ _ => Dict.getUpToCase?_eq_iff,
    fun _ _ _ => ⟨Message.header?_eq_iff, Message.trailer?_eq_iff⟩,
    Snapshot.findsHeaders, ?_⟩
  intro s hrequest hresponse htrailers f g h a a' b b' ha hb
  refine ⟨fun side => ?_, ?_⟩
  · cases side with
    | request => exact congrArg some (Message.firstMatch_recased hrequest f _ ha hb)
    | response => exact congrArg some (Message.firstMatch_recased hresponse g _ ha hb)
  · refine congrArg some (Selector.firstMatch_recased (fun {name other} hsame => ?_) ha hb)
    rw [FieldRef.resolve_verbatim, FieldRef.resolve_verbatim]
    exact htrailers.getUpToCase?_recase h hsame

/-- Two headers change places when they are written in lower case, and one of them is still found
in capital letters. So is a trailer, before and after. -/
theorem headers_ignore_case_lower :
    ∃ (s : Snapshot) (lower : Text.Recasing),
      s.request.headers.entries = [("X-Id", "7"), ("host", "a")] ∧
      s.response.trailers.entries = [("Grpc-Status", "0")] ∧
      (s.recase lower lower lower).request.headers.entries = [("host", "a"), ("x-id", "7")] ∧
      (s.recase lower lower lower).response.trailers.entries = [("grpc-status", "0")] ∧
      s.provider (.header .request (.resolve "X-Id" (some "Host"))) = some (some "7") ∧
      (s.recase lower lower lower).provider (.header .request (.resolve "X-ID" (some "HOST")))
        = some (some "7") ∧
      s.provider (.trailer (.resolve "GRPC-STATUS" none)) = some (some "0") ∧
      (s.recase lower lower lower).provider (.trailer (.resolve "GRPC-STATUS" none))
        = some (some "0") := by
  let s : Snapshot :=
    { request := { headers := Dict.insert (Dict.insert {} "X-Id" "7") "host" "a" }
      response := { trailers := Dict.insert {} "Grpc-Status" "0" } }
  let lower : Text.Recasing := ⟨Text.lower, Text.sameLetters_lower⟩
  have hrequest : s.request.headers.Distinct := by decide
  have hresponse : s.response.headers.Distinct := by decide
  have htrailers : s.response.trailers.Distinct := by decide
  have hname : SameLetters "X-Id" "X-ID" := by decide
  have hfallback : Option.Rel SameLetters (some "Host") (some "HOST") := .some (by decide)
  have hheader : s.provider (.header .request (.resolve "X-Id" (some "Host")))
      = some (some "7") := by
    have hfirst : s.request.headers.Finds "X-Id" (some "7") := .identical (by decide)
    have hsecond : s.request.headers.Finds "host" (some "a") := .identical (by decide)
    have hnone : ∀ f : HttpField, ¬ SameLetters "X-Id" (Table.name f) := by
      intro f
      cases f <;> decide
    have hrequests := (headers_ignore_case.2.2.1 s).request
    exact hrequests.inTurn ((hrequests.header (.other hnone)).mpr hfirst)
      (hrequests.host (by decide) hsecond)
  have htrailer : s.provider (.trailer (.resolve "GRPC-STATUS" none)) = some (some "0") := by
    have hmem : ("Grpc-Status", "0") ∈ s.response.trailers.entries := by decide
    have hfound : s.response.trailers.Finds "GRPC-STATUS" (some "0") :=
      .spelling (by decide) hmem (by decide) (by decide)
    exact (headers_ignore_case.2.2.1 s).trailer.mpr hfound
  have hspelled := headers_ignore_case.2.2.2 s hrequest hresponse htrailers lower lower lower
  refine ⟨s, lower, by decide, by decide, by decide, by decide, hheader, ?_, htrailer, ?_⟩
  · exact ((hspelled _ _ _ _ hname hfallback).1 .request).trans hheader
  · exact ((hspelled _ _ _ _ (.refl _) .none).2).trans htrailer

end Snapshot

end AccessLog
