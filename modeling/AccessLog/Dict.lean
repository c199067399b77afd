/-!
# Dictionaries

A dictionary holds one value for each of its keys and lists them in increasing order of the
keys. The order is part of what a dictionary is: it is the order in which entries are written
and in which a search up to letter case goes through them.

`Dict.insertEntry` is the operation on plain lists, also used for the members of a document;
`Dict` carries the proof that it keeps the order.
-/

set_option autoImplicit false

namespace AccessLog

open Std

namespace Dict

variable {κ α : Type} [Ord κ]

/-- The keys of a list of entries increase. -/
abbrev Increasing (entries : List (κ × α)) : Prop :=
  entries.Pairwise fun a b => compare a.1 b.1 = .lt

theorem increasing_nil : Increasing ([] : List (κ × α)) := .nil

/-- Puts an entry at its place in an increasing list; an entry with the same key gives way. -/
def insertEntry (key : κ) (value : α) : List (κ × α) → List (κ × α)
  | [] => [(key, value)]
  | entry :: rest =>
    match compare key entry.1 with
    | .lt => (key, value) :: entry :: rest
    | .eq => (key, value) :: rest
    | .gt => entry :: insertEntry key value rest

theorem mem_insertEntry {key : κ} {value : α} {entry : κ × α} {entries : List (κ × α)}
    (h : entry ∈ insertEntry key value entries) : entry = (key, value) ∨ entry ∈ entries := by
  induction entries with
  | nil => simpa [insertEntry] using h
  | cons head rest ih =>
    unfold insertEntry at h
    split at h <;> grind

/-- Insertion keeps the order of the keys. -/
theorem increasing_insertEntry [TransOrd κ] [LawfulEqOrd κ] {key : κ} {value : α}
    {entries : List (κ × α)} (h : Increasing entries) :
    Increasing (insertEntry key value entries) := by
  induction entries with
  | nil => simp [insertEntry]
  | cons head rest ih =>
    have hrest := List.pairwise_cons.1 h
    unfold insertEntry
    split
    · rename_i hlt
      refine List.pairwise_cons.2 ⟨fun entry hentry => ?_, h⟩
      rcases List.mem_cons.1 hentry with rfl | hentry
      · exact hlt
      · exact TransCmp.lt_trans hlt (hrest.1 entry hentry)
    · rename_i heq
      have hkey : key = head.1 := LawfulEqCmp.eq_of_compare heq
      subst hkey
      exact List.pairwise_cons.2 ⟨hrest.1, hrest.2⟩
    · rename_i hgt
      refine List.pairwise_cons.2 ⟨fun entry hentry => ?_, ih hrest.2⟩
      rcases mem_insertEntry hentry with rfl | hentry
      · exact OrientedCmp.lt_of_gt hgt
      · exact hrest.1 entry hentry

end Dict

/-- A finite map whose entries are kept in increasing order of their keys. -/
structure Dict (κ α : Type) [Ord κ] where
  entries : List (κ × α) := []
  increasing : Dict.Increasing entries := by exact Dict.increasing_nil
  deriving DecidableEq

namespace Dict

variable {κ α : Type} [Ord κ]

instance : Inhabited (Dict κ α) := ⟨{}⟩

instance [Repr κ] [Repr α] : Repr (Dict κ α) := ⟨fun d n => reprPrec d.entries n⟩

def insert [TransOrd κ] [LawfulEqOrd κ] (d : Dict κ α) (key : κ) (value : α) : Dict κ α :=
  ⟨insertEntry key value d.entries, increasing_insertEntry d.increasing⟩

def get? (d : Dict κ α) (key : κ) : Option α :=
  (d.entries.find? (compare key ·.1 == .eq)).map (·.2)

/-- The value of the first key with a property. -/
def findValue? (d : Dict κ α) (p : κ → Bool) : Option α :=
  (d.entries.find? (p ·.1)).map (·.2)

end Dict

end AccessLog
