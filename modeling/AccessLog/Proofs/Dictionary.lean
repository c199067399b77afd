import AccessLog.Dict
import Mathlib.Data.List.Basic
import Mathlib.Data.List.Nodup

/-!
# Dictionaries are functions

A dictionary is a list of entries, but what is said about it elsewhere is what it holds for each
key. `get?_insert` says how that changes when an entry is put in, and `ext` that nothing else is in
a dictionary: **two dictionaries that hold the same for every key are the same**, because their
keys are in order. The order in which entries were put in is therefore forgotten.

The members of an object are such a list as well, without being wrapped in a `Dict`, so the facts
are about increasing lists first.
-/

set_option autoImplicit false

namespace AccessLog.Dict

open Std

variable {κ α : Type}

/-! ## Entries -/

section

variable [DecidableEq κ] {key : κ} {value : α} {entries : List (κ × α)}

theorem lookup_cons_eq_ite (k : κ) (entry : κ × α) (entries : List (κ × α)) :
    (entry :: entries).lookup k = if k = entry.1 then some entry.2 else entries.lookup k := by
  rw [List.lookup_cons]
  by_cases h : k = entry.1
  · simp [h]
  · rw [if_neg h, beq_false_of_ne h]

/-- What is found is there, and what is there is found if no key occurs twice. -/
theorem lookup_eq_some_iff (h : (entries.map Prod.fst).Nodup) :
    entries.lookup key = some value ↔ (key, value) ∈ entries := by
  induction entries with
  | nil => simp
  | cons head rest ih =>
    obtain ⟨other, old⟩ := head
    obtain ⟨hfresh, hrest⟩ := List.nodup_cons.mp h
    rw [lookup_cons_eq_ite, List.mem_cons, Prod.mk.injEq]
    by_cases heq : key = other
    · subst heq
      have hnot : (key, value) ∉ rest := fun hmem => hfresh (List.mem_map.mpr ⟨_, hmem, rfl⟩)
      simp [hnot, eq_comm]
    · simp [heq, ih hrest]

/-- Where no key occurs twice, the order does not matter. -/
theorem lookup_of_perm {others : List (κ × α)} (h : (entries.map Prod.fst).Nodup)
    (hperm : entries.Perm others) : entries.lookup key = others.lookup key := by
  have h' : (others.map Prod.fst).Nodup := (hperm.map Prod.fst).nodup_iff.mp h
  refine Option.ext fun value => ?_
  rw [lookup_eq_some_iff h, lookup_eq_some_iff h', hperm.mem_iff]

theorem lookup_eq_none_iff : entries.lookup key = none ↔ key ∉ entries.map Prod.fst := by
  induction entries with
  | nil => simp
  | cons head rest ih =>
    rw [lookup_cons_eq_ite, List.map_cons, List.mem_cons, not_or, ← ih]
    by_cases h : key = head.1 <;> simp [h]

/-- Changing the values of entries changes what is found in the same way. -/
theorem lookup_map {β : Type} (f : α → β) (entries : List (κ × α)) (k : κ) :
    (entries.map fun (key, value) => (key, f value)).lookup k = (entries.lookup k).map f := by
  induction entries with
  | nil => rfl
  | cons entry entries ih =>
    simp only [List.map_cons, lookup_cons_eq_ite, ih]
    split <;> rfl

end

variable [Ord κ] [TransOrd κ] {key : κ} {value : α} {entries others : List (κ × α)}

theorem ne_of_lt {a b : κ} (h : compare a b = .lt) : a ≠ b := by
  rintro rfl
  have hself : compare a a = .eq := ReflCmp.compare_self
  rw [hself] at h
  cases h

theorem Increasing.nodup (h : Increasing entries) : (entries.map Prod.fst).Nodup :=
  List.pairwise_map.mpr (h.imp ne_of_lt)

/-- An entry with a greater key than all others is put at the end. -/
theorem insertEntry_of_lt (h : ∀ entry ∈ entries, compare entry.1 key = .lt) :
    insertEntry key value entries = entries ++ [(key, value)] := by
  induction entries with
  | nil => rfl
  | cons head rest ih =>
    obtain ⟨hhead, hrest⟩ := List.forall_mem_cons.mp h
    have hgt : compare key head.1 = .gt := OrientedCmp.gt_of_lt hhead
    simp only [insertEntry, hgt, ih hrest, List.cons_append]

/-- Puts in entries, one after the other. -/
def insertAll (news : List (κ × α)) (entries : List (κ × α)) : List (κ × α) :=
  news.foldl (fun entries new => insertEntry new.1 new.2 entries) entries

omit [TransOrd κ] in
theorem insertAll_cons (new : κ × α) (news entries : List (κ × α)) :
    insertAll (new :: news) entries = insertAll news (insertEntry new.1 new.2 entries) := rfl

omit [TransOrd κ] in
theorem mem_insertAll {news : List (κ × α)} {entry : κ × α}
    (h : entry ∈ insertAll news entries) : entry ∈ news ∨ entry ∈ entries := by
  induction news generalizing entries with
  | nil => exact .inr h
  | cons new news ih =>
    rcases ih h with hnew | hold
    · exact .inl (List.mem_cons_of_mem new hnew)
    · rcases mem_insertEntry hold with rfl | hold
      · exact .inl List.mem_cons_self
      · exact .inr hold

/-- Entries that are in order already stay as they are. -/
theorem insertAll_of_increasing {news : List (κ × α)} (h : Increasing (entries ++ news)) :
    insertAll news entries = entries ++ news := by
  induction news generalizing entries with
  | nil => simp [insertAll]
  | cons new news ih =>
    have hlast : ∀ entry ∈ entries, compare entry.1 new.1 = .lt := fun entry hentry =>
      (List.pairwise_append.mp h).2.2 entry hentry new List.mem_cons_self
    rw [insertAll_cons, insertEntry_of_lt hlast, ih]
    · simp
    · simpa using h

variable [LawfulEqOrd κ]

theorem increasing_insertAll {news : List (κ × α)} (h : Increasing entries) :
    Increasing (insertAll news entries) := by
  induction news generalizing entries with
  | nil => exact h
  | cons new news ih => exact ih (increasing_insertEntry h)

variable [DecidableEq κ]

/-- An entry that is put in is found, and hides nothing but the one it takes the place of. -/
theorem lookup_insertEntry (key : κ) (value : α) (entries : List (κ × α)) (k : κ) :
    (insertEntry key value entries).lookup k
      = if k = key then some value else entries.lookup k := by
  induction entries with
  | nil => rw [insertEntry, lookup_cons_eq_ite]
  | cons head rest ih =>
    unfold insertEntry
    split
    · rw [lookup_cons_eq_ite]
    · rename_i heq
      have hkey : key = head.1 := LawfulEqCmp.eq_of_compare heq
      rw [lookup_cons_eq_ite, lookup_cons_eq_ite, ← hkey]
      by_cases h : k = key <;> simp [h]
    · rename_i hgt
      have hne : head.1 ≠ key := ne_of_lt (OrientedCmp.lt_of_gt hgt)
      rw [lookup_cons_eq_ite, lookup_cons_eq_ite, ih]
      by_cases h : k = head.1
      · simp [h, hne]
      · simp [h]

/-- If no key is put in twice, what is found is what was put in, and else what was there. -/
theorem lookup_insertAll {news : List (κ × α)} (h : (news.map Prod.fst).Nodup) (k : κ) :
    (insertAll news entries).lookup k = (news.lookup k).or (entries.lookup k) := by
  induction news generalizing entries with
  | nil => rfl
  | cons new news ih =>
    obtain ⟨hfresh, hrest⟩ := List.nodup_cons.mp h
    rw [insertAll_cons, ih hrest, lookup_insertEntry, lookup_cons_eq_ite]
    by_cases hk : k = new.1
    · have hnone : news.lookup k = none := lookup_eq_none_iff.mpr (hk ▸ hfresh)
      rw [hnone, if_pos hk, if_pos hk]
      rfl
    · rw [if_neg hk, if_neg hk]

/-- Putting in entries whose keys differ only sorts them. -/
theorem perm_insertAll {news : List (κ × α)} (h : (news.map Prod.fst).Nodup) :
    (insertAll news []).Perm news := by
  have hincreasing : Increasing (insertAll news []) := increasing_insertAll increasing_nil
  refine (List.perm_ext_iff_of_nodup ?_ ?_).mpr fun entry => ?_
  · exact List.Nodup.of_map Prod.fst hincreasing.nodup
  · exact List.Nodup.of_map Prod.fst h
  · rw [← lookup_eq_some_iff hincreasing.nodup, ← lookup_eq_some_iff h, lookup_insertAll h]
    simp

omit [LawfulEqOrd κ] in
/-- **Increasing lists that hold the same for every key are the same.** -/
theorem Increasing.ext (h : Increasing entries) (h' : Increasing others)
    (hsame : ∀ key, entries.lookup key = others.lookup key) : entries = others := by
  have hperm : entries.Perm others := by
    refine (List.perm_ext_iff_of_nodup ?_ ?_).mpr fun entry => ?_
    · exact List.Nodup.of_map Prod.fst h.nodup
    · exact List.Nodup.of_map Prod.fst h'.nodup
    · rw [← lookup_eq_some_iff h.nodup, ← lookup_eq_some_iff h'.nodup, hsame]
  refine hperm.eq_of_pairwise (fun a b _ _ hab hba => ?_) h h'
  -- no key is both before and behind another one
  have hself : compare a.1 a.1 = .lt := TransCmp.lt_trans hab hba
  exact absurd rfl (ne_of_lt hself)

/-! ## Dictionaries -/

omit [TransOrd κ] in
theorem get?_eq_lookup (d : Dict κ α) (key : κ) : d.get? key = d.entries.lookup key := by
  unfold get?
  induction d.entries with
  | nil => rfl
  | cons head rest ih =>
    have hsame : (compare key head.1 == .eq) = decide (key = head.1) := by
      by_cases h : key = head.1
      · simp [h]
      · have hne : compare key head.1 ≠ .eq := fun heq => h (LawfulEqCmp.eq_of_compare heq)
        simp [h, hne]
    rw [List.find?_cons, lookup_cons_eq_ite, hsame, ← ih]
    by_cases h : key = head.1 <;> simp [h]

theorem get?_insert (d : Dict κ α) (key : κ) (value : α) (k : κ) :
    (d.insert key value).get? k = if k = key then some value else d.get? k := by
  rw [get?_eq_lookup, get?_eq_lookup]
  exact lookup_insertEntry key value d.entries k

/-- **A dictionary is what it holds for each key.** -/
theorem ext {d e : Dict κ α} (h : ∀ key, d.get? key = e.get? key) : d = e := by
  obtain ⟨entries, hentries⟩ := d
  obtain ⟨others, hothers⟩ := e
  have hsame : entries = others := hentries.ext hothers fun key => by
    simpa only [get?_eq_lookup] using h key
  subst hsame
  rfl

theorem mem_entries_iff {d : Dict κ α} : (key, value) ∈ d.entries ↔ d.get? key = some value := by
  rw [get?_eq_lookup, lookup_eq_some_iff d.increasing.nodup]

end AccessLog.Dict
