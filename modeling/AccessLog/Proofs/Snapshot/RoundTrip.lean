import AccessLog.Proofs.Json.Encode
import AccessLog.Proofs.Snapshot.Readers
import AccessLog.Proofs.Time.Reading
import AccessLog.Snapshot.Encode

/-!
# Snapshots are read as they were written

**A snapshot that was read from some document is read again from its own text**, by either reader,
if its bodies hold no doubles (`text_reads_back`). What was read is not the text that is written:
members may have been missing, repeated, out of order or given as an array. All that is used of it
is that some value of a document means the snapshot (`exists_within_of_read`,
`exists_within_of_readAll`), and that this value is not too deep.

Whether the text that is written may be read is then a matter of each record showing its parts, and
of the depth at which they stand: a body of the deepest kind that can be read is written just as
deep.
-/

set_option autoImplicit false

namespace AccessLog

open Json

/-! ## What records write -/

section

variable {n : Nat}

variable {α β : Type} {default a : α} {name : String}

theorem shows_texts {get : α → Dict String String} (hdefault : get default = {}) :
    Shows (n + 1) default a ⟨name, .texts, get⟩ (name, encodeTexts (get a)) :=
  shows_dict Function.injective_id hdefault fun _ _ => writes_text _

theorem shows_metrics {F : Type} [Table F] [Table.Lawful F] [DecidableEq F] [Ord F]
    [Std.TransOrd F] [Std.LawfulEqOrd F] {s : Spelling β} {get : α → Dict F β} {encode : β → Tree}
    (hdefault : get default = {}) (h : ∀ e ∈ (get a).entries, Writes s n (encode e.2) e.2) :
    Shows (n + 1) default a ⟨name, .metrics s, get⟩ (name, (get a).encode Table.name encode) :=
  shows_dict (fun _ _ => Decode.readsKey_table.inj) hdefault h

theorem Time.writes_rfc3339 (t : Time.Instant) :
    Writes (.readable Time.Instant.read) n (.string t.rfc3339) t :=
  writes_readable fun _ hread => Time.Instant.read_rfc3339 (Time.Instant.sound_of_read hread)

/-- There is no double in the body. -/
def Message.IntegersOnly (m : Message) : Prop :=
  ∀ body ∈ m.body, body.every (Value.ifNumber Number.isInteger) = true

instance (m : Message) : Decidable m.IntegersOnly :=
  inferInstanceAs (Decidable (∀ body ∈ m.body, _))

theorem Message.writes_encode {m : Message} (h : m.IntegersOnly) :
    Writes spelling (n + 2) m.encode m := by
  refine writes_record describes.nodup ?_
  refine .cons (shows_optional rfl fun _ _ => writes_text _) <|
    .cons (shows_optional rfl fun _ _ => writes_natural (by decide) _) <|
    .cons (shows_optional rfl fun _ _ => writes_text _) <|
    .cons (shows_optional rfl fun _ _ => writes_text _) <|
    .cons (shows_optional rfl fun _ _ => writes_text _) <|
    .cons (shows_optional rfl fun _ _ => writes_text _) <|
    .cons (shows_optional rfl fun _ _ => writes_text _) <|
    .cons (shows_texts rfl) <|
    .cons (shows_texts rfl) <|
    .cons (shows_optional rfl fun body hbody => writes_ofValue (h body hbody)) .nil

theorem UriParts.writes_encode (u : UriParts) : Writes spelling (n + 2) u.encode u := by
  refine writes_record describes.nodup ?_
  refine .cons (shows_optional rfl fun _ _ => writes_text _) <|
    .cons (shows_optional rfl fun _ _ => writes_text _) <|
    .cons (shows_optional rfl fun _ _ => writes_text _) <|
    .cons (shows_optional rfl fun _ _ => writes_text _) <|
    .cons (shows_optional rfl fun _ _ => writes_text _) <|
    .cons (shows_optional rfl fun _ _ => writes_text _) <|
    .cons (shows_optional rfl fun _ _ => writes_text _) <|
    .cons (shows_optional rfl fun _ _ => writes_text _) <|
    .cons (shows_texts rfl) .nil

theorem Chain.writes_encode (c : Chain) : Writes spelling (n + 2) c.encode c := by
  refine writes_record describes.nodup ?_
  refine .cons (shows_list rfl fun _ _ => writes_text _) <|
    .cons (shows_texts rfl) .nil

theorem Chains.writes_encode (c : Chains) : Writes spelling (n + 3) c.encode c := by
  refine writes_record (describes .known).nodup ?_
  refine .cons (shows_record rfl (Chain.writes_encode _)) <|
    .cons (shows_record rfl (Chain.writes_encode _)) <|
    .cons (shows_record rfl (Chain.writes_encode _)) <|
    .cons (shows_optional rfl fun _ _ => writes_text _) <|
    .cons (shows_optional rfl fun _ _ => writes_text _) <|
    .cons (shows_optional rfl fun _ _ => writes_text _) .nil

namespace Snapshot

/-- There is no double in the bodies. -/
def IntegersOnly (s : Snapshot) : Prop := s.request.IntegersOnly ∧ s.response.IntegersOnly

instance (s : Snapshot) : Decidable s.IntegersOnly := inferInstanceAs (Decidable (_ ∧ _))

/-- **The tree of a snapshot means the snapshot**, and is no deeper than what it was read from. -/
theorem writes_encode {s : Snapshot} (h : s.IntegersOnly) : Writes spelling (n + 4) s.encode s := by
  have hlow : -2 ^ 63 ≤ Int64.minValue.toInt := by decide
  have hhigh : Int64.maxValue.toInt < 2 ^ 64 := by decide
  refine writes_record (describes .known).nodup ?_
  refine .cons (shows_optional rfl fun _ _ => Time.writes_rfc3339 _) <|
    .cons (shows_metrics rfl fun _ _ => writes_integer hlow hhigh _) <|
    .cons (shows_metrics rfl fun _ _ => writes_text _) <|
    .cons (shows_metrics rfl fun _ _ => writes_flag _) <|
    .cons (shows_record rfl (Message.writes_encode h.1)) <|
    .cons (shows_record rfl (Message.writes_encode h.2)) <|
    .cons (shows_record rfl (UriParts.writes_encode _)) <|
    .cons (shows_texts rfl) <|
    .cons (shows_record rfl (Chains.writes_encode _)) .nil

/-! ## Where snapshots come from -/

theorem within_of_read? {source : String} {v : Value} (h : Value.read? source = some v) :
    v.Within Reader.maxDepth := by
  obtain ⟨t, ht, hv⟩ := Value.read?_eq_some_iff.mp h
  exact .of_document ht hv

theorem within_elements {v : Value} (h : v.Within Reader.maxDepth) :
    ∀ item ∈ elements v, item.Within Reader.maxDepth := by
  cases v with
  -- inside of an array there is room for one container less
  | array items => exact fun item hitem => (h.items item hitem).mono (Nat.le_succ _)
  | null | bool _ | number _ | string _ | object _ => exact List.forall_mem_singleton.mpr h

/-- What is read as it goes is what some value of a document means. -/
theorem exists_within_of_read {source : String} {s : Snapshot} (h : read source = .ok s) :
    ∃ v : Value, v.Within Reader.maxDepth ∧ spelling.Means v s := by
  obtain ⟨v, hread, hmeans⟩ := exists_means_of_read h
  exact ⟨v, within_of_read? hread, hmeans⟩

/-- So is each of the snapshots of a document that is read whole. -/
theorem exists_within_of_readAll {source : String} {ss : List Snapshot}
    (h : readAll source = .ok ss) {s : Snapshot} (hs : s ∈ ss) :
    ∃ v : Value, v.Within Reader.maxDepth ∧ spelling.Means v s := by
  obtain ⟨v, hread, hall⟩ := exists_means_of_readAll h
  obtain ⟨item, hitem, hmeans⟩ := exists_mem_of_forall₂ hall hs
  exact ⟨item, within_elements (within_of_read? hread) item hitem, hmeans⟩

/-! ## The round trip -/

/-- **A snapshot that was read from a document is read from its own text**, as the same one, by both
readers. Only doubles in a body are excepted. -/
theorem text_reads_back {source : String} {s : Snapshot}
    (h : read source = .ok s ∨ ∃ ss, readAll source = .ok ss ∧ s ∈ ss) (hbodies : s.IntegersOnly) :
    read s.text = .ok s ∧ readAll s.text = .ok [s] := by
  -- all that is used of the document is a value that means the snapshot
  obtain ⟨v, hv, hmeans⟩ : ∃ v : Value, v.Within Reader.maxDepth ∧ spelling.Means v s := by
    rcases h with h | ⟨ss, h, hs⟩
    · exact exists_within_of_read h
    · exact exists_within_of_readAll h hs
  obtain ⟨hwithin, w, hw, hwmeans, -⟩ := writes_encode hbodies v hv hmeans
  have hdocument : Document.read s.text = ⟨s.encode, true⟩ :=
    Tree.read_compact hwithin.writable hwithin.depth
  have hdistinct : (Document.read s.text).root.Distinct := by
    rw [hdocument]
    exact hwithin.distinct
  have hobject : (Document.read s.text).root.IsObject := by
    rw [hdocument]
    exact ⟨_, _, rfl⟩
  have hread : read s.text = .ok s := by
    rw [read_eq_ok_iff, hdocument]
    exact ⟨rfl, ((reads_decode .streaming).eq_ok_iff hwithin.distinct hw).mpr hwmeans⟩
  refine ⟨hread, ?_⟩
  rw [readAll_of_root hobject, singleton_eq_ok_iff]
  exact (readWhole_eq_ok_iff hdistinct).mpr hread

/-- An exchange in a leap second, with a metric and a body. -/
theorem text_reads_back_leap_second : ∃ s,
    read ("\x7b\"start_time\":\"2016-12-31T23:59:60.5Z\",\"ints\":\x7b\"DURATION\":7\x7d,"
      ++ "\"response\":\x7b\"body\":[-1,null]\x7d\x7d") = .ok s ∧ s.IntegersOnly ∧
      read s.text = .ok s ∧ readAll s.text = .ok [s] := by
  obtain ⟨s, hread, hbodies⟩ : ∃ s,
      read ("\x7b\"start_time\":\"2016-12-31T23:59:60.5Z\",\"ints\":\x7b\"DURATION\":7\x7d,"
        ++ "\"response\":\x7b\"body\":[-1,null]\x7d\x7d") = .ok s ∧ s.IntegersOnly := by
    refine ⟨{
      startTime := some ⟨17166, 86399, 1500000000⟩
      ints := ({} : Dict IntMetric Int).insert .duration 7
      response := { body := some (.array [.number (.int (-1)), .null]) } }, ?_, ?_⟩
    · decide +kernel
    · decide
  exact ⟨s, hread, hbodies, text_reads_back (.inl hread) hbodies⟩

end Snapshot

end

end AccessLog
