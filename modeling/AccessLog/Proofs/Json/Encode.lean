import AccessLog.Proofs.Json.Record
import AccessLog.Proofs.Json.Written

/-!
# What encoders write

That a tree `Writes` something says that it can be given back for whatever it was read from: **if a
value means it, then so does the value of the tree**, and the tree can be written and read again
with no more room than that value needs. As with decoders there is one lemma for each way of
putting spellings together.

A value in a document has an order of members, numbers that fit and a depth (`Value.Within`); a
tree that is to be written has to be whole, name no member twice and keep to the same depth
(`Tree.Within`). The depth is why the value that was read has a part in the statement: what is
written nests as deeply as what was read and no deeper, level by level. A part of a record that was
not given is written as well, so its default has to be something that a value of the same depth can
mean (`Shows`).

Null deserves a word. An optional part is null exactly if it is absent, so what stands for
something must not be null unless that was what was read; this is the last clause of `Writes`.
-/

set_option autoImplicit false

namespace AccessLog.Json

open Decode Reader

universe u

/-! ## What fits into a document -/

/-- Whether a number is an integer. -/
def Number.isInteger : Number → Bool
  | .int _ => true
  | .float _ => false

/-- What a value of a document is like, with room for so many containers inside of one another. -/
structure Value.Within (n : Nat) (v : Value) : Prop where
  ordered : v.Ordered
  numbers : v.every (ifNumber inRange) = true
  depth : v.depth ≤ n

namespace Value.Within

variable {n : Nat} {v : Value} {values : List Value} {given : List (String × Value)}

theorem of_document {source : String} {t : Tree} (h : Document.read source = ⟨t, true⟩)
    (hv : t.value? = some v) : v.Within maxDepth := by
  obtain ⟨rest, hparses, -⟩ := Document.read_eq_iff.mp h
  exact ⟨Tree.ordered_of_value? hv, Tree.numbers_of_value? hv hparses.inRange,
    (Tree.depth_le_of_value? hv).trans hparses.depth_le⟩

theorem mono (h : v.Within n) {m : Nat} (hm : n ≤ m) : v.Within m :=
  ⟨h.ordered, h.numbers, h.depth.trans hm⟩

protected theorem null : Value.null.Within n := ⟨rfl, rfl, Nat.zero_le n⟩

theorem emptyArray : (array []).Within (n + 1) := ⟨rfl, rfl, depth_array_le.mpr (by simp)⟩

theorem emptyObject : (object []).Within (n + 1) := ⟨rfl, rfl, depth_object_le.mpr (by simp)⟩

theorem items (h : (array values).Within (n + 1)) : ∀ item ∈ values, item.Within n :=
  fun item hitem => ⟨(every_array.mp h.ordered).2 item hitem,
    (every_array.mp h.numbers).2 item hitem, depth_array_le.mp h.depth item hitem⟩

theorem members (h : (object given).Within (n + 1)) : ∀ m ∈ given, m.2.Within n :=
  fun m hm => ⟨(every_object.mp h.ordered).2 m hm, (every_object.mp h.numbers).2 m hm,
    depth_object_le.mp h.depth m hm⟩

theorem of_given? (h : v.Within (n + 1)) {names : List String}
    (hgiven : v.given? names = some given) : ∀ m ∈ given, m.2.Within n := by
  cases v with
  | object values =>
    cases hgiven
    exact h.members
  | array values =>
    simp only [given?, Option.ite_none_right_eq_some, Option.some.injEq] at hgiven
    obtain ⟨-, rfl⟩ := hgiven
    intro m hm
    exact h.items m.2 (List.of_mem_zip hm).2
  | null | bool _ | number _ | string _ => cases hgiven

end Value.Within

/-- What can be written and read again, with room for so many containers inside of one another. -/
structure Tree.Within (n : Nat) (t : Tree) : Prop where
  writable : t.every Tree.writable = true
  distinct : t.Distinct
  depth : t.depth ≤ n

namespace Tree.Within

variable {n : Nat}

theorem int {m : Int} (h : InRange m) : (Tree.number (.int m)).Within n :=
  ⟨decide_eq_true h, rfl, Nat.zero_le n⟩

theorem list {items : List Tree} (h : ∀ item ∈ items, item.Within n) :
    (Tree.list items).Within (n + 1) :=
  ⟨every_array.mpr ⟨rfl, fun item hitem => (h item hitem).writable⟩,
    every_array.mpr ⟨rfl, fun item hitem => (h item hitem).distinct⟩,
    depth_array_le.mpr fun item hitem => (h item hitem).depth⟩

theorem record {members : List (String × Tree)} (hnames : (members.map Prod.fst).Nodup)
    (h : ∀ m ∈ members, m.2.Within n) : (Tree.record members).Within (n + 1) :=
  ⟨every_object.mpr ⟨rfl, fun m hm => (h m hm).writable⟩,
    every_object.mpr ⟨decide_eq_true hnames, fun m hm => (h m hm).distinct⟩,
    depth_object_le.mpr fun m hm => (h m hm).depth⟩

/-- **A value without doubles can be written.** -/
theorem ofValue {v : Value} (h : v.Within n)
    (hint : v.every (Value.ifNumber Number.isInteger) = true) : (Tree.ofValue v).Within n := by
  induction v generalizing n with
  | null | bool _ | string _ => exact ⟨rfl, rfl, Nat.zero_le n⟩
  | number x =>
    cases x with
    | int m => exact int (of_decide_eq_true h.numbers)
    | float x => cases hint
  | array items ih =>
    cases n with
    | zero => exact absurd h.depth (Nat.not_succ_le_zero _)
    | succ n =>
      rw [Tree.ofValue, ofItems_eq_map]
      refine list (List.forall_mem_map.mpr fun item hitem => ?_)
      exact ih item hitem (h.items item hitem) ((Value.every_array.mp hint).2 item hitem)
  | object members ih =>
    cases n with
    | zero => exact absurd h.depth (Nat.not_succ_le_zero _)
    | succ n =>
      have hnames := (distinct_ofValue h.ordered).names
      rw [ofMembers_eq_map] at hnames
      rw [Tree.ofValue, ofMembers_eq_map]
      refine record hnames (List.forall_mem_map.mpr fun m hm => ?_)
      exact ih m hm (h.members m hm) ((Value.every_object.mp hint).2 m hm)

end Tree.Within

/-! ## Writing a spelling -/

variable {α : Type} {n : Nat}

/-- A tree writes something: whatever value it was read from, the tree means it too and needs no more
room. -/
def Writes (s : Spelling α) (n : Nat) (t : Tree) (a : α) : Prop :=
  ∀ v : Value, v.Within n → s.Means v a →
    t.Within n ∧ ∃ w, t.value? = some w ∧ s.Means w a ∧ (w = .null → v = .null)

theorem writes_text (a : String) : Writes .text n (.string a) a :=
  fun _ _ _ => ⟨⟨rfl, rfl, Nat.zero_le n⟩, .string a, rfl, rfl, nofun⟩

theorem writes_flag (b : Bool) : Writes .flag n (.bool b) b :=
  fun _ _ _ => ⟨⟨rfl, rfl, Nat.zero_le n⟩, .bool b, rfl, rfl, nofun⟩

/-- Integers between bounds that themselves fit 64 bits. -/
theorem writes_integer {low high : Int} (hlow : -2 ^ 63 ≤ low) (hhigh : high < 2 ^ 64) (m : Int) :
    Writes (.integer low high) n (.number (.int m)) m := by
  rintro _ - ⟨rfl, hm⟩
  have hrange : InRange m := ⟨hlow.trans hm.1, hm.2.trans_lt hhigh⟩
  exact ⟨.int hrange, _, rfl, ⟨rfl, hm⟩, nofun⟩

theorem writes_natural {high : Nat} (hhigh : (high : Int) < 2 ^ 64) (m : Nat) :
    Writes (.natural high) n (.number (.int m)) m := by
  rintro _ - ⟨rfl, hm⟩
  have hrange : InRange m := by
    unfold InRange
    omega
  exact ⟨.int hrange, _, rfl, ⟨rfl, hm⟩, nofun⟩

theorem writes_readable {ε : Type} {read : String → Except ε α} {text : String} {a : α}
    (h : ∀ source, read source = .ok a → read text = .ok a) :
    Writes (.readable read) n (.string text) a := by
  rintro _ - ⟨source, rfl, hread⟩
  exact ⟨⟨rfl, rfl, Nat.zero_le n⟩, .string text, rfl, ⟨text, rfl, h source hread⟩, nofun⟩

theorem writes_ofValue {a : Value} (hint : a.every (Value.ifNumber Number.isInteger) = true) :
    Writes .any n (Tree.ofValue a) a := by
  rintro v h rfl
  exact ⟨.ofValue h hint, v, Tree.value?_ofValue h.ordered, rfl, id⟩

theorem writes_optional {s : Spelling α} {encode : α → Tree} {a : Option α}
    (h : ∀ b ∈ a, Writes s n (encode b) b) : Writes s.optional n (Tree.orNull encode a) a := by
  rintro v hv (⟨rfl, rfl⟩ | ⟨hne, b, rfl, hmeans⟩)
  · exact ⟨⟨rfl, rfl, Nat.zero_le n⟩, .null, rfl, .inl ⟨rfl, rfl⟩, id⟩
  · obtain ⟨hwithin, w, hw, hwmeans, hnull⟩ := h b rfl v hv hmeans
    have hwne : w ≠ .null := fun heq => hne (hnull heq)
    exact ⟨hwithin, w, hw, .inr ⟨hwne, b, rfl, hwmeans⟩, hnull⟩

theorem writes_list {s : Spelling α} {encode : α → Tree} {as : List α}
    (h : ∀ a ∈ as, Writes s n (encode a) a) : Writes s.list (n + 1) (.list (as.map encode)) as := by
  rintro _ hv ⟨values, rfl, hvalues⟩
  have hall : (∀ a ∈ as, (encode a).Within n) ∧ ∃ ws,
      List.Forall₂ (fun (t : Tree) w => t.value? = some w) (as.map encode) ws ∧
        List.Forall₂ s.Means ws as := by
    have hvalues' := hv.items
    clear hv
    induction hvalues with
    | nil => exact ⟨by simp, [], .nil, .nil⟩
    | @cons v a values as hmeans _ ih =>
      obtain ⟨hhead, htail⟩ := List.forall_mem_cons.mp h
      obtain ⟨hv, hvs⟩ := List.forall_mem_cons.mp hvalues'
      obtain ⟨hwithin, w, hw, hwmeans, -⟩ := hhead v hv hmeans
      obtain ⟨hwithins, ws, hws, hwsmeans⟩ := ih htail hvs
      exact ⟨List.forall_mem_cons.mpr ⟨hwithin, hwithins⟩, w :: ws, .cons hw hws,
        .cons hwmeans hwsmeans⟩
  obtain ⟨hwithin, ws, hws, hmeans⟩ := hall
  refine ⟨.list (List.forall_mem_map.mpr hwithin), .array ws, ?_, ⟨ws, rfl, hmeans⟩, nofun⟩
  exact Tree.value?_array_eq_some_iff.mpr ⟨rfl, ws, rfl, hws⟩

/-! ## Members -/

section

variable {κ : Type u} {name : κ → String} {Holds : κ → Value → Prop} {rows : List κ}
  {members : List (String × Tree)} {entries : List (String × Value)}

/-- If each of the members means something that holds of its row, then so do all of them together. -/
theorem exists_entries (h : List.Forall₂ (fun k (m : String × Tree) => m.1 = name k ∧ m.2.Within n ∧
    ∃ w, m.2.value? = some w ∧ Holds k w) rows members) :
    (∀ m ∈ members, m.2.Within n) ∧ ∃ entries, List.Forall₂ Tree.Means members entries ∧
      List.Forall₂ (fun k (e : String × Value) => e.1 = name k ∧ Holds k e.2) rows entries := by
  induction h with
  | nil => exact ⟨by simp, [], .nil, .nil⟩
  | @cons k m _ _ hhead _ ih =>
    obtain ⟨hname, hwithin, w, hw, hholds⟩ := hhead
    obtain ⟨hwithins, entries, hentries, hrows⟩ := ih
    exact ⟨List.forall_mem_cons.mpr ⟨hwithin, hwithins⟩, (m.1, w) :: entries,
      .cons ⟨rfl, hw⟩ hentries, .cons ⟨hname, hholds⟩ hrows⟩

theorem map_fst_of_rows
    (h : List.Forall₂ (fun k (e : String × Value) => e.1 = name k ∧ Holds k e.2) rows entries) :
    entries.map Prod.fst = rows.map name := by
  induction h with
  | nil => rfl
  | cons hhead _ ih => rw [List.map_cons, List.map_cons, hhead.1, ih]

/-- **An object that is written means an object with an entry for each row**, if the names of the
rows differ. -/
theorem exists_object (hnames : (rows.map name).Nodup)
    (h : List.Forall₂ (fun k (m : String × Tree) => m.1 = name k ∧ m.2.Within n ∧
      ∃ w, m.2.value? = some w ∧ Holds k w) rows members) :
    (Tree.record members).Within (n + 1) ∧
      ∃ values, (Tree.record members).value? = some (.object values) ∧
        (values.map Prod.fst).Nodup ∧ (∀ e ∈ values, ∃ k ∈ rows, e.1 = name k ∧ Holds k e.2) ∧
        ∀ k ∈ rows, ∃ w, values.lookup (name k) = some w ∧ Holds k w := by
  obtain ⟨hwithin, entries, hentries, hrows⟩ := exists_entries h
  have hfirsts : (entries.map Prod.fst).Nodup := map_fst_of_rows hrows ▸ hnames
  have hperm := Dict.perm_insertAll hfirsts
  have hnodup : ((Dict.insertAll entries []).map Prod.fst).Nodup :=
    (hperm.map Prod.fst).nodup_iff.mpr hfirsts
  refine ⟨.record (Tree.map_fst_of_means hentries ▸ hfirsts) hwithin, Dict.insertAll entries [],
    Tree.value?_object_eq_some_iff.mpr ⟨rfl, entries, hentries, rfl⟩, hnodup, fun e he => ?_,
    fun k hk => ?_⟩
  · exact exists_mem_of_forall₂ hrows (hperm.mem_iff.mp he)
  · obtain ⟨e, he, hname, hholds⟩ := exists_mem_of_forall₂ hrows.flip hk
    exact ⟨e.2, (Dict.lookup_eq_some_iff hnodup).mpr (hname ▸ hperm.mem_iff.mpr he), hholds⟩

end

/-- **A dictionary is written with a member for each of its entries.** -/
theorem writes_dict {κ : Type} [DecidableEq κ] [Ord κ] [Std.TransOrd κ] [Std.LawfulEqOrd κ]
    {spell : κ → String} (hspell : Function.Injective spell) {names : Option (List String)}
    {s : Spelling α} {encode : α → Tree} {d : Dict κ α}
    (h : ∀ e ∈ d.entries, Writes s n (encode e.2) e.2) :
    Writes (s.dict names spell) (n + 1)
      (.record (d.entries.map fun (k, a) => (spell k, encode a))) d := by
  rintro _ hv ⟨values, rfl, -, hall⟩
  have hvalues : Dict.Increasing values := of_decide_eq_true (Value.every_object.mp hv.ordered).1
  have hrows : List.Forall₂ (fun e (m : String × Tree) => m.1 = spell e.1 ∧ m.2.Within n ∧
      ∃ w, m.2.value? = some w ∧ s.Means w e.2) d.entries
        (d.entries.map fun (k, a) => (spell k, encode a)) := by
    refine List.forall₂_map_right_iff.mpr (List.forall₂_same.mpr fun e he => ?_)
    have hrel := hall e.1
    rw [Dict.mem_entries_iff.mp he] at hrel
    obtain ⟨v, hfound, hmeans⟩ : ∃ v, values.lookup (spell e.1) = some v ∧ s.Means v e.2 := by
      generalize values.lookup (spell e.1) = v? at hrel
      cases hrel with
      | some hmeans => exact ⟨_, rfl, hmeans⟩
    have hwithin := hv.members _ ((Dict.lookup_eq_some_iff hvalues.nodup).mp hfound)
    obtain ⟨hencoded, w, hw, hwmeans, -⟩ := h e he v hwithin hmeans
    exact ⟨rfl, hencoded, w, hw, hwmeans⟩
  have hnames : (d.entries.map fun e => spell e.1).Nodup := by
    have hkeys := d.increasing.nodup.map hspell
    rwa [List.map_map] at hkeys
  obtain ⟨hwithin, ws, hws, hnodup, hkeys, hholds⟩ := exists_object hnames hrows
  refine ⟨hwithin, _, hws, ⟨ws, rfl, fun m hm => ?_, fun k => ?_⟩, nofun⟩
  · obtain ⟨e, -, hname, -⟩ := hkeys m hm
    exact ⟨e.1, hname.symm⟩
  · cases hfound : d.get? k with
    | some a =>
      obtain ⟨w, hw, hmeans⟩ := hholds (k, a) (Dict.mem_entries_iff.mpr hfound)
      rw [hw]
      exact .some hmeans
    | none =>
      cases hlookup : ws.lookup (spell k) with
      | none => exact .none
      | some w =>
        obtain ⟨e, he, hname, -⟩ := hkeys _ ((Dict.lookup_eq_some_iff hnodup).mp hlookup)
        rw [hspell hname, Dict.mem_entries_iff.mp he] at hfound
        cases hfound

/-! ## Records -/

/-- A member shows a part of a record, whose default is something that a document can give. -/
def Shows (n : Nat) (default a : α) (part : Part α) (m : String × Tree) : Prop :=
  m.1 = part.name ∧ Writes part.spelling n m.2 (part.get a) ∧
    ∃ v : Value, v.Within n ∧ part.spelling.Means v (part.get default)

/-- **A record is written with a member for each of its parts**, those included that were not
given. -/
theorem writes_record {parts : List (Part α)} {default a : α} {members : List (String × Tree)}
    (hnames : (parts.map Part.name).Nodup) (h : List.Forall₂ (Shows n default a) parts members) :
    Writes (.record parts default) (n + 1) (.record members) a := by
  rintro v hv ⟨values, hgiven, -, hholds⟩
  obtain ⟨hnodup, -⟩ := Value.nodup_of_given? hnames hv.ordered hgiven
  have hrows : List.Forall₂ (fun part (m : String × Tree) => m.1 = part.name ∧ m.2.Within n ∧
      ∃ w, m.2.value? = some w ∧ part.spelling.Means w (part.get a)) parts members := by
    refine ((List.forall₂_and_left parts members).mpr ⟨hholds, h⟩).imp fun part m hpart => ?_
    obtain ⟨hpartHolds, hname, hwrites, v, hwithin, hmeans⟩ := hpart
    -- the part was given, or its default might have been
    obtain ⟨v, hwithin, hmeans⟩ : ∃ v : Value, v.Within n ∧
        part.spelling.Means v (part.get a) := by
      cases hlookup : values.lookup part.name with
      | some given =>
        have hmem := (Dict.lookup_eq_some_iff hnodup).mp hlookup
        exact ⟨given, hv.of_given? hgiven _ hmem, (Part.holds_iff_of_lookup hlookup).mp hpartHolds⟩
      | none =>
        rw [Part.holds_iff_of_missing hlookup] at hpartHolds
        exact ⟨v, hwithin, hpartHolds ▸ hmeans⟩
    obtain ⟨hencoded, w, hw, hwmeans, -⟩ := hwrites v hwithin hmeans
    exact ⟨hname, hencoded, w, hw, hwmeans⟩
  obtain ⟨hwithin, ws, hws, -, hknown, hmeans⟩ := exists_object hnames hrows
  refine ⟨hwithin, _, hws, ⟨ws, rfl, fun e he => ?_, fun part hpart => ?_⟩, nofun⟩
  · obtain ⟨part, hpart, hname, -⟩ := hknown e he
    exact hname ▸ List.mem_map_of_mem hpart
  · obtain ⟨w, hw, hwmeans⟩ := hmeans part hpart
    exact (Part.holds_iff_of_lookup hw).mpr hwmeans

/-! ## Parts

What a part is by default is what null, an empty array or an empty object means in its place. -/

section

variable {β : Type} {default a : α} {name : String}

theorem shows_optional {s : Spelling β} {get : α → Option β} {encode : β → Tree}
    (hdefault : get default = none) (h : ∀ b ∈ get a, Writes s n (encode b) b) :
    Shows n default a ⟨name, s.optional, get⟩ (name, Tree.orNull encode (get a)) :=
  ⟨rfl, writes_optional h, .null, .null, .inl ⟨rfl, hdefault⟩⟩

theorem shows_list {s : Spelling β} {get : α → List β} {encode : β → Tree}
    (hdefault : get default = []) (h : ∀ b ∈ get a, Writes s n (encode b) b) :
    Shows (n + 1) default a ⟨name, s.list, get⟩ (name, .list ((get a).map encode)) := by
  refine ⟨rfl, writes_list h, .array [], .emptyArray, [], rfl, ?_⟩
  simp only [hdefault]
  exact .nil

theorem shows_dict {κ : Type} [DecidableEq κ] [Ord κ] [Std.TransOrd κ] [Std.LawfulEqOrd κ]
    {spell : κ → String} (hspell : Function.Injective spell) {names : Option (List String)}
    {s : Spelling β} {get : α → Dict κ β} {encode : β → Tree} (hdefault : get default = {})
    (h : ∀ e ∈ (get a).entries, Writes s n (encode e.2) e.2) :
    Shows (n + 1) default a ⟨name, s.dict names spell, get⟩
      (name, .record ((get a).entries.map fun (k, b) => (spell k, encode b))) := by
  refine ⟨rfl, writes_dict hspell h, .object [], .emptyObject, [], rfl, by simp, fun k => ?_⟩
  simp only [hdefault]
  exact .none

theorem shows_record {parts : List (Part β)} {get : α → β} {inner : β} {t : Tree}
    (hdefault : get default = inner) (h : Writes (.record parts inner) (n + 1) t (get a)) :
    Shows (n + 1) default a ⟨name, .record parts inner, get⟩ (name, t) :=
  ⟨rfl, h, .object [], .emptyObject, [], rfl, by simp, fun part _ => congrArg part.get hdefault⟩

end

end AccessLog.Json
