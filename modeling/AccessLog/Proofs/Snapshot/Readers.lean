import AccessLog.Proofs.Json.Parse
import AccessLog.Proofs.Snapshot.Schema

/-!
# The two readers agree

One reader of snapshots decodes a document as it goes; the other reads it whole, as a value, and
decodes that. Both decoders read the same spelling, and what a spelling means is a matter of the
value. So on a document whose root is an object, and in which no object repeats a name, **they
accept the same with the same result**, although they meet the members in different orders and stop
at different faults. Under a repeated name they do differ: the value keeps the last member, while a
record refuses the second.

An array is read by the second reader only, and **element by element**: the texts of its elements
may be any that the reader accepts alone and that are not too deep inside of one more pair of
brackets. The first that fails decides with what error.
-/

set_option autoImplicit false

namespace AccessLog

open Json

namespace Snapshot

theorem read_eq_ok_iff {source : String} {s : Snapshot} :
    read source = .ok s ↔
      (Document.read source).ended = true ∧
        decode .streaming (Document.read source).root = .ok s := by
  unfold read Document.decode
  simp only [bind_eq_ok_iff, Decode.ended_eq_ok_iff, pure_eq_ok_iff]
  constructor
  · rintro ⟨s, hs, -, hended, rfl⟩
    exact ⟨hended, hs⟩
  · rintro ⟨hended, hs⟩
    exact ⟨s, hs, (), hended, rfl⟩

theorem ordered_of_read? {source : String} {v : Value} (h : Value.read? source = some v) :
    v.Ordered := by
  obtain ⟨t, -, hv⟩ := Value.read?_eq_some_iff.mp h
  exact Tree.ordered_of_value? hv

/-- What is read as it goes is what the value of the document means. -/
theorem exists_means_of_read {source : String} {s : Snapshot} (h : read source = .ok s) :
    ∃ v, Value.read? source = some v ∧ spelling.Means v s := by
  obtain ⟨hended, hdecode⟩ := read_eq_ok_iff.mp h
  obtain ⟨v, hv, hmeans⟩ := (reads_decode .streaming).sound hdecode
  exact ⟨v, Value.read?_eq_some_iff.mpr ⟨_, by rw [← hended], hv⟩, hmeans⟩

/-- What a document means is read as it goes, if no name is repeated. -/
theorem read_of_means {source : String} {v : Value} (hread : Value.read? source = some v)
    (hdistinct : (Document.read source).root.Distinct) {s : Snapshot} (h : spelling.Means v s) :
    read source = .ok s := by
  obtain ⟨t, ht, hv⟩ := Value.read?_eq_some_iff.mp hread
  rw [ht] at hdistinct
  rw [read_eq_ok_iff, ht]
  exact ⟨rfl, ((reads_decode .streaming).eq_ok_iff hdistinct hv).mpr h⟩

theorem ofValue_eq_ok_iff_means {v : Value} (hv : v.Ordered) {s : Snapshot} :
    ofValue v = .ok s ↔ spelling.Means v s :=
  (reads_decode .known).eq_ok_iff (Tree.distinct_ofValue hv) (Tree.value?_ofValue hv)

/-- The values of the snapshots of a document: the elements of an array, or what it is itself. -/
def elements : Value → List Value
  | .array items => items
  | v => [v]

theorem readAll_eq_ok_iff {source : String} {ss : List Snapshot} :
    readAll source = .ok ss ↔
      ∃ v, Value.read? source = some v ∧
        List.Forall₂ (fun item s => ofValue item = .ok s) (elements v) ss := by
  cases hread : Value.read? source with
  | none => simp [readAll, hread]
  | some v =>
    have hall : readAll source = (elements v).mapM ofValue := by
      simp only [readAll, hread]
      cases v with
      | array items => rfl
      | null | bool _ | number _ | string _ | object _ => simp [elements]
    simp [hall, mapM_eq_ok_iff]

theorem ordered_elements {v : Value} (hv : v.Ordered) : ∀ item ∈ elements v, item.Ordered := by
  cases v with
  | array items => exact (Value.every_array.mp hv).2
  | null | bool _ | number _ | string _ | object _ => exact List.forall_mem_singleton.mpr hv

/-- What a document is read to whole is what its values mean, one by one. -/
theorem exists_means_of_readAll {source : String} {ss : List Snapshot}
    (h : readAll source = .ok ss) :
    ∃ v, Value.read? source = some v ∧ List.Forall₂ spelling.Means (elements v) ss := by
  obtain ⟨v, hread, hall⟩ := readAll_eq_ok_iff.mp h
  have hordered := ordered_elements (ordered_of_read? hread)
  refine ⟨v, hread, ((List.forall₂_and_left _ _).mpr ⟨hordered, hall⟩).imp ?_⟩
  exact fun item s hitem => (ofValue_eq_ok_iff_means hitem.1).mp hitem.2

/-- Decodes a document as one snapshot, after it has been read whole. -/
def readWhole (source : String) : Except Fault Snapshot :=
  match Value.read? source with
  | some v => ofValue v
  | none => .error .malformed

theorem readWhole_of_read? {source : String} {v : Value} (h : Value.read? source = some v) :
    readWhole source = ofValue v := by
  simp only [readWhole, h]

theorem readAll_of_read? {source : String} {members : List (String × Value)}
    (h : Value.read? source = some (.object members)) :
    readAll source = (fun s => [s]) <$> readWhole source := by
  simp only [readAll, readWhole, h]
  rfl

/-- A document whose root is an object holds one snapshot. -/
theorem readAll_of_root {source : String} (h : (Document.read source).root.IsObject) :
    readAll source = (fun s => [s]) <$> readWhole source := by
  cases hread : Value.read? source with
  | none =>
    simp only [readAll, readWhole, hread]
    rfl
  | some v =>
    obtain ⟨t, ht, hv⟩ := Value.read?_eq_some_iff.mp hread
    rw [ht] at h
    obtain ⟨members, closed, rfl⟩ := h
    obtain ⟨-, _, -, rfl⟩ := Tree.value?_object_eq_some_iff.mp hv
    exact readAll_of_read? hread

/-- **What is decoded from the whole document is decoded as it goes**, if no name is repeated. -/
theorem readWhole_eq_ok_iff {source : String} (hdistinct : (Document.read source).root.Distinct)
    {s : Snapshot} : readWhole source = .ok s ↔ read source = .ok s := by
  constructor
  · intro h
    cases hread : Value.read? source with
    | none =>
      simp only [readWhole, hread] at h
      cases h
    | some v =>
      rw [readWhole_of_read? hread, ofValue_eq_ok_iff_means (ordered_of_read? hread)] at h
      exact read_of_means hread hdistinct h
  · intro h
    obtain ⟨v, hread, hmeans⟩ := exists_means_of_read h
    rw [readWhole_of_read? hread]
    exact (ofValue_eq_ok_iff_means (ordered_of_read? hread)).mpr hmeans

/-! ## Arrays -/

/-- **The elements of an array are read like documents of their own**, one after the other. -/
theorem readAll_array {ds : List String}
    (h : ∀ d ∈ ds, (∃ v, Value.read? d = some v) ∧ (Document.read d).root.depth < Reader.maxDepth) :
    readAll ("[" ++ ",".intercalate ds ++ "]") = ds.mapM readWhole := by
  have htrees : ∃ ts vs, List.Forall₂ (fun d t => Document.read d = ⟨t, true⟩) ds ts ∧
      (∀ t ∈ ts, t.depth < Reader.maxDepth) ∧
      List.Forall₂ (fun (t : Tree) v => t.value? = some v) ts vs ∧
      vs.mapM ofValue = ds.mapM readWhole := by
    induction ds with
    | nil => exact ⟨[], [], .nil, by simp, .nil, rfl⟩
    | cons d ds ih =>
      obtain ⟨⟨⟨v, hread⟩, hdepth⟩, hrest⟩ := List.forall_mem_cons.mp h
      obtain ⟨ts, vs, hts, hdepths, hvs, hrun⟩ := ih hrest
      obtain ⟨t, ht, hv⟩ := Value.read?_eq_some_iff.mp hread
      rw [ht] at hdepth
      refine ⟨t :: ts, v :: vs, .cons ht hts, List.forall_mem_cons.mpr ⟨hdepth, hdepths⟩,
        .cons hv hvs, ?_⟩
      rw [List.mapM_cons, List.mapM_cons, hrun, readWhole_of_read? hread]
  obtain ⟨ts, vs, hts, hdepths, hvs, hrun⟩ := htrees
  have hread : Value.read? ("[" ++ ",".intercalate ds ++ "]") = some (.array vs) :=
    Value.read?_eq_some_iff.mpr ⟨_, Document.read_array hts hdepths,
      Tree.value?_array_eq_some_iff.mpr ⟨rfl, vs, rfl, hvs⟩⟩
  simp only [readAll, hread, hrun]

theorem singleton_eq_ok_iff {x : Except Fault Snapshot} {s : Snapshot} :
    (fun s => [s]) <$> x = .ok [s] ↔ x = .ok s := by
  simp [map_eq_ok_iff]

theorem exists_singleton_eq_ok_iff {x : Except Fault Snapshot} :
    (∃ ss, (fun s => [s]) <$> x = .ok ss) ↔ ∃ s, x = .ok s := by
  simp [map_eq_ok_iff]

/-- **The two readers of snapshots agree.** On a document that is an object without repeated names
they give the same snapshot or both give none. An array of objects is read exactly if each of them is, to
what they are read as, in order; otherwise it fails with the error of the first that fails. -/
theorem readers_agree :
    (∀ source, (Document.read source).root.IsObject → (Document.read source).root.Distinct →
        (∀ s, readAll source = .ok [s] ↔ read source = .ok s) ∧
          ((∃ ss, readAll source = .ok ss) ↔ ∃ s, read source = .ok s)) ∧
      ∀ ds : List String, (∀ d ∈ ds, (∃ members, Value.read? d = some (.object members)) ∧
        (Document.read d).root.depth < Reader.maxDepth) →
          (∀ ss, readAll ("[" ++ ",".intercalate ds ++ "]") = .ok ss ↔
            List.Forall₂ (fun d s => readAll d = .ok [s]) ds ss) ∧
          ((∃ ss, readAll ("[" ++ ",".intercalate ds ++ "]") = .ok ss) ↔
            ∀ d ∈ ds, ∃ ss, readAll d = .ok ss) ∧
          ∀ e, readAll ("[" ++ ",".intercalate ds ++ "]") = .error e ↔
            ∃ front d back, ds = front ++ d :: back ∧ (∀ d' ∈ front, ∃ ss, readAll d' = .ok ss) ∧
              readAll d = .error e := by
  constructor
  · intro source hroot hdistinct
    rw [readAll_of_root hroot]
    simp only [singleton_eq_ok_iff, exists_singleton_eq_ok_iff, readWhole_eq_ok_iff hdistinct,
      implies_true, true_and]
  · intro ds hds
    -- an element is an object, so alone it is read as one snapshot
    have hone : ∀ d ∈ ds, readAll d = (fun s => [s]) <$> readWhole d := by
      intro d hd
      obtain ⟨⟨members, hread⟩, -⟩ := hds d hd
      exact readAll_of_read? hread
    have hrun := readAll_array fun d hd =>
      have ⟨⟨members, hread⟩, hdepth⟩ := hds d hd
      ⟨⟨_, hread⟩, hdepth⟩
    rw [hrun]
    refine ⟨fun ss => ?_, ?_, fun e => ?_⟩
    · rw [mapM_eq_ok_iff]
      constructor
      · intro h
        refine ((List.forall₂_and_left ds ss).mpr ⟨hone, h⟩).imp fun d s hd => ?_
        rw [hd.1]
        exact singleton_eq_ok_iff.mpr hd.2
      · intro h
        refine ((List.forall₂_and_left ds ss).mpr ⟨hone, h⟩).imp fun d s hd => ?_
        rw [hd.1] at hd
        exact singleton_eq_ok_iff.mp hd.2
    · rw [exists_mapM_eq_ok_iff]
      refine forall₂_congr fun d hd => ?_
      rw [hone d hd, exists_singleton_eq_ok_iff]
    · rw [mapM_eq_error_iff]
      constructor
      · rintro ⟨front, d, back, rfl, hfront, hd⟩
        refine ⟨front, d, back, rfl, fun d' hd' => ?_, ?_⟩
        · rw [hone d' (List.mem_append_left _ hd'), exists_singleton_eq_ok_iff]
          exact hfront d' hd'
        · rw [hone d (by simp), map_eq_error_iff]
          exact hd
      · rintro ⟨front, d, back, rfl, hfront, hd⟩
        refine ⟨front, d, back, rfl, fun d' hd' => ?_, ?_⟩
        · rw [← exists_singleton_eq_ok_iff, ← hone d' (List.mem_append_left _ hd')]
          exact hfront d' hd'
        · rw [hone d (by simp), map_eq_error_iff] at hd
          exact hd

/-- A document with its fields in an order of its own is read by both readers or by none, and so are
elements of different kinds one by one. -/
theorem readers_agree_unordered :
    (Document.read "\x7b\"uri\":[\"https\"],\"request\":[\"GET\"]\x7d").root.IsObject ∧
      (Document.read "\x7b\"uri\":[\"https\"],\"request\":[\"GET\"]\x7d").root.Distinct ∧
      ((∃ ss, readAll "\x7b\"uri\":[\"https\"],\"request\":[\"GET\"]\x7d" = .ok ss) ↔
        ∃ s, read "\x7b\"uri\":[\"https\"],\"request\":[\"GET\"]\x7d" = .ok s) ∧
      ((∃ ss, readAll ("[" ++ ",".intercalate ["\x7b\x7d", "\x7b\"uri\":null\x7d"] ++ "]")
          = .ok ss) ↔
        ∀ d ∈ ["\x7b\x7d", "\x7b\"uri\":null\x7d"], ∃ ss, readAll d = .ok ss) := by
  have hobject :
      (Document.read "\x7b\"uri\":[\"https\"],\"request\":[\"GET\"]\x7d").root.IsObject := by
    decide +kernel
  have hdistinct :
      (Document.read "\x7b\"uri\":[\"https\"],\"request\":[\"GET\"]\x7d").root.Distinct := by
    decide +kernel
  have helements : ∀ d ∈ ["\x7b\x7d", "\x7b\"uri\":null\x7d"],
      (∃ members, Value.read? d = some (.object members)) ∧
        (Document.read d).root.depth < Reader.maxDepth := by
    refine List.forall_mem_cons.mpr ⟨⟨⟨[], ?_⟩, ?_⟩, List.forall_mem_singleton.mpr
      ⟨⟨[("uri", .null)], ?_⟩, ?_⟩⟩
    all_goals decide +kernel
  exact ⟨hobject, hdistinct, (readers_agree.1 _ hobject hdistinct).2,
    (readers_agree.2 _ helements).2.1⟩

end Snapshot

end AccessLog
