import AccessLog.Json.Decode
import AccessLog.Proofs.Dictionary
import AccessLog.Proofs.Json.Shape
import AccessLog.Proofs.Outcome
import AccessLog.Proofs.Tables

/-!
# What decoders read

A decoder goes through a tree and stops at the first fault. That it `Reads` a spelling says what
comes of it without a word about the order in which it goes: **what it gives is what the value of
the tree means** (`sound`), **and it gives something for every value of the right shape**
(`accepts`), if no name is repeated in the tree. Since a value means one thing at most, the two
together leave nothing open (`Reads.eq_ok_iff`, `Reads.exists_ok_iff`). In particular two decoders
that read the same spelling accept the same trees with the same results, however they treat the
ones that they refuse.

There is one lemma for each way of putting decoders together, that of records in a module of its
own. `sound` needs no condition on names: a dictionary takes the last of several values for a key,
and so does the value of a tree, so the two are followed side by side (`foldlM_addMember_sound`).
-/

set_option autoImplicit false

namespace AccessLog.Json

open Decode

namespace Tree

/-- A value that is no container is spelled in one way. -/
theorem value?_eq_scalar_iff {t : Tree} {v : Value} (h : v.depth = 0) :
    t.value? = some v ↔ t = ofValue v := by
  constructor
  · intro hv
    cases t with
    | array items closed =>
      obtain ⟨-, _, rfl, -⟩ := value?_array_eq_some_iff.mp hv
      cases h
    | object members closed =>
      obtain ⟨-, _, -, rfl⟩ := value?_object_eq_some_iff.mp hv
      cases h
    | broken => cases hv
    | null | bool _ | number _ | string _ =>
      cases hv
      rfl
  · rintro rfl
    cases v with
    | array items | object members => cases h
    | null | bool _ | number _ | string _ => rfl

theorem Distinct.items {items : List Tree} {closed : Bool} (h : (array items closed).Distinct) :
    ∀ item ∈ items, item.Distinct :=
  (every_array.mp h).2

theorem Distinct.members {members : List (String × Tree)} {closed : Bool}
    (h : (object members closed).Distinct) : ∀ m ∈ members, m.2.Distinct :=
  (every_object.mp h).2

theorem Distinct.names {members : List (String × Tree)} {closed : Bool}
    (h : (object members closed).Distinct) : (members.map Prod.fst).Nodup :=
  of_decide_eq_true (every_object.mp h).1

end Tree

/-! ## Reading a spelling -/

variable {α : Type}

/-- What a decoder reads. -/
structure Decoder.Reads (decoder : Decoder α) (s : Spelling α) : Prop where
  /-- What it gives is what the value of the tree means. -/
  sound : ∀ {t a}, decoder t = .ok a → ∃ v, t.value? = some v ∧ s.Means v a
  /-- It accepts every value of the right shape. -/
  accepts : ∀ {t v}, t.Distinct → t.value? = some v → s.shape.Admits v → ∃ a, decoder t = .ok a
  /-- What means something has the right shape. -/
  admits : ∀ {v a}, v.Ordered → s.Means v a → s.shape.Admits v
  /-- A value means one thing at most. -/
  unique : Relator.RightUnique s.Means

namespace Decoder.Reads

variable {decoder : Decoder α} {s : Spelling α} {t : Tree} {v : Value}

/-- **A decoder gives what the value means and nothing else.** -/
theorem eq_ok_iff (h : decoder.Reads s) (ht : t.Distinct) (hv : t.value? = some v) {a : α} :
    decoder t = .ok a ↔ s.Means v a := by
  constructor
  · intro hok
    obtain ⟨v', hv', hmeans⟩ := h.sound hok
    cases hv.symm.trans hv'
    exact hmeans
  · intro hmeans
    obtain ⟨b, hb⟩ := h.accepts ht hv (h.admits (Tree.ordered_of_value? hv) hmeans)
    obtain ⟨v', hv', hmeans'⟩ := h.sound hb
    cases hv.symm.trans hv'
    rw [hb, h.unique hmeans' hmeans]

/-- **A decoder accepts the values of its shape and no others.** -/
theorem exists_ok_iff (h : decoder.Reads s) (ht : t.Distinct) (hv : t.value? = some v) :
    (∃ a, decoder t = .ok a) ↔ s.shape.Admits v := by
  constructor
  · rintro ⟨a, hok⟩
    obtain ⟨v', hv', hmeans⟩ := h.sound hok
    cases hv.symm.trans hv'
    exact h.admits (Tree.ordered_of_value? hv) hmeans
  · intro hadmits
    exact h.accepts ht hv hadmits

end Decoder.Reads

namespace Decode

theorem ended_eq_ok_iff {closed : Bool} {u : Unit} : ended closed = .ok u ↔ closed = true := by
  cases closed <;> simp [ended]

/-! ## Scalars -/

theorem string_eq_ok_iff {t : Tree} {s : String} : string t = .ok s ↔ t = .string s := by
  cases t <;> simp [string, unexpected]

theorem bool_eq_ok_iff {t : Tree} {b : Bool} : bool t = .ok b ↔ t = .bool b := by
  cases t <;> simp [bool, unexpected]

theorem integer_eq_ok_iff {expected : String} {low high n : Int} {t : Tree} :
    integer expected low high t = .ok n ↔ t = .number (.int n) ∧ low ≤ n ∧ n ≤ high := by
  cases t with
  | number x =>
    cases x with
    | int m =>
      simp only [integer, Tree.number.injEq, Number.int.injEq]
      split <;> grind
    | float x => simp [integer, unexpected]
  | _ => simp [integer, unexpected]

theorem reads_string : Decoder.Reads string .text where
  sound h := ⟨_, by rw [string_eq_ok_iff.mp h]; rfl, rfl⟩
  accepts _ hv := by
    rintro ⟨s, rfl⟩
    exact ⟨s, string_eq_ok_iff.mpr ((Tree.value?_eq_scalar_iff rfl).mp hv)⟩
  admits _ h := ⟨_, h⟩
  unique _ _ _ h h' := by cases h.symm.trans h'; rfl

theorem reads_bool : Decoder.Reads bool .flag where
  sound h := ⟨_, by rw [bool_eq_ok_iff.mp h]; rfl, rfl⟩
  accepts _ hv := by
    rintro ⟨b, rfl⟩
    exact ⟨b, bool_eq_ok_iff.mpr ((Tree.value?_eq_scalar_iff rfl).mp hv)⟩
  admits _ h := ⟨_, h⟩
  unique _ _ _ h h' := by cases h.symm.trans h'; rfl

theorem reads_integer {expected : String} {low high : Int} :
    Decoder.Reads (integer expected low high) (.integer low high) where
  sound h := by
    obtain ⟨rfl, hn⟩ := integer_eq_ok_iff.mp h
    exact ⟨_, rfl, rfl, hn⟩
  accepts _ hv := by
    rintro ⟨n, rfl, hn⟩
    exact ⟨n, integer_eq_ok_iff.mpr ⟨(Tree.value?_eq_scalar_iff rfl).mp hv, hn⟩⟩
  admits _ h := ⟨_, h⟩
  unique _ _ _ h h' := by cases h.1.symm.trans h'.1; rfl

theorem reads_nat16 : Decoder.Reads nat16 (.natural 65535) where
  sound {t a} h := by
    obtain ⟨n, hn, rfl⟩ := map_eq_ok_iff.mp h
    obtain ⟨rfl, hlow, hhigh⟩ := integer_eq_ok_iff.mp hn
    refine ⟨_, rfl, ?_, by omega⟩
    rw [Int.toNat_of_nonneg hlow]
  accepts {t v} ht hv hadmits := by
    have hreads : Decoder.Reads (integer "u16" 0 65535) (.integer 0 65535) := reads_integer
    obtain ⟨n, hn⟩ := hreads.accepts ht hv hadmits
    exact ⟨n.toNat, map_eq_ok_iff.mpr ⟨n, hn, rfl⟩⟩
  admits {v n} _ h := ⟨n, h.1, Int.natCast_nonneg n, by exact_mod_cast h.2⟩
  unique _ _ _ h h' := by
    have hsame := h.1.symm.trans h'.1
    simp only [Value.number.injEq, Number.int.injEq] at hsame
    exact Int.ofNat.inj hsame

theorem reads_value : Decoder.Reads value .any where
  sound {t a} h := by
    unfold value at h
    cases hv : t.value? with
    | none => simp [hv] at h
    | some v =>
      simp only [hv, Except.ok.injEq] at h
      exact ⟨v, rfl, h⟩
  accepts {t v} _ hv _ := ⟨v, by simp [value, hv]⟩
  admits _ _ := trivial
  unique _ _ _ h h' := h.symm.trans h'

theorem optional_eq_ok_iff {decoder : Decoder α} {t : Tree} {a : Option α} :
    optional decoder t = .ok a ↔
      (t = .null ∧ a = none) ∨ (t ≠ .null ∧ ∃ b, decoder t = .ok b ∧ a = some b) := by
  have hsome : (some <$> decoder t) = .ok a ↔ ∃ b, decoder t = .ok b ∧ a = some b := by
    rw [map_eq_ok_iff]
    exact exists_congr fun b => and_congr_right fun _ => eq_comm
  cases t with
  | null => simp [optional, eq_comm]
  | _ => simpa [optional] using hsome

theorem reads_optional {decoder : Decoder α} {s : Spelling α} (h : decoder.Reads s) :
    Decoder.Reads (Decode.optional decoder) s.optional where
  sound {t a} hok := by
    rcases optional_eq_ok_iff.mp hok with ⟨rfl, rfl⟩ | ⟨hne, b, hb, rfl⟩
    · exact ⟨.null, rfl, .inl ⟨rfl, rfl⟩⟩
    · obtain ⟨v, hv, hmeans⟩ := h.sound hb
      have hnull : v ≠ .null := fun heq => hne ((Tree.value?_eq_scalar_iff rfl).mp (heq ▸ hv))
      exact ⟨v, hv, .inr ⟨hnull, b, rfl, hmeans⟩⟩
  accepts {t v} ht hv hadmits := by
    by_cases hnull : t = .null
    · exact ⟨none, optional_eq_ok_iff.mpr (.inl ⟨hnull, rfl⟩)⟩
    · rcases hadmits with rfl | hadmits
      · exact absurd ((Tree.value?_eq_scalar_iff rfl).mp hv) hnull
      · obtain ⟨b, hb⟩ := h.accepts ht hv hadmits
        exact ⟨some b, optional_eq_ok_iff.mpr (.inr ⟨hnull, b, hb, rfl⟩)⟩
  admits {v a} hv hmeans := by
    rcases hmeans with ⟨rfl, -⟩ | ⟨-, b, -, hmeans⟩
    · exact .inl rfl
    · exact .inr (h.admits hv hmeans)
  unique v a b ha hb := by
    rcases ha with ⟨rfl, rfl⟩ | ⟨hne, x, rfl, hx⟩
    · rcases hb with ⟨-, rfl⟩ | ⟨hne, -⟩
      · rfl
      · exact absurd rfl hne
    · rcases hb with ⟨hnull, -⟩ | ⟨-, y, rfl, hy⟩
      · exact absurd hnull hne
      · rw [h.unique hx hy]

/-! ## Lists -/

theorem list_eq_ok_iff {decoder : Decoder α} {t : Tree} {as : List α} :
    list decoder t = .ok as ↔
      ∃ items, t = .array items true ∧ List.Forall₂ (fun t a => decoder t = .ok a) items as := by
  cases t with
  | array items closed =>
    simp only [list, bind_eq_ok_iff, mapM_eq_ok_iff, ended_eq_ok_iff, pure_eq_ok_iff]
    constructor
    · rintro ⟨bs, hbs, -, rfl, rfl⟩
      exact ⟨items, rfl, hbs⟩
    · rintro ⟨items', heq, has⟩
      cases heq
      exact ⟨as, has, (), rfl, rfl⟩
  | _ => simp [list, unexpected]

theorem reads_list {decoder : Decoder α} {s : Spelling α} (h : decoder.Reads s) :
    Decoder.Reads (Decode.list decoder) s.list where
  sound {t as} hok := by
    obtain ⟨items, rfl, has⟩ := list_eq_ok_iff.mp hok
    have hvalues : ∃ vs, List.Forall₂ (fun (t : Tree) v => t.value? = some v) items vs ∧
        List.Forall₂ s.Means vs as := by
      clear hok
      induction has with
      | nil => exact ⟨[], .nil, .nil⟩
      | cons ha _ ih =>
        obtain ⟨v, hv, hmeans⟩ := h.sound ha
        obtain ⟨vs, hvs, hmeanss⟩ := ih
        exact ⟨v :: vs, .cons hv hvs, .cons hmeans hmeanss⟩
    obtain ⟨vs, hvs, hmeans⟩ := hvalues
    exact ⟨.array vs, Tree.value?_array_eq_some_iff.mpr ⟨rfl, vs, rfl, hvs⟩, vs, rfl, hmeans⟩
  accepts {t v} ht hv hadmits := by
    obtain ⟨vs, rfl, hshape⟩ := hadmits
    cases t with
    | array items closed =>
      obtain ⟨rfl, vs', heq, hvs⟩ := Tree.value?_array_eq_some_iff.mp hv
      cases heq
      have hitems := ht.items
      have hall : ∃ as, List.Forall₂ (fun t a => decoder t = .ok a) items as := by
        clear hv ht
        induction hvs with
        | nil => exact ⟨[], .nil⟩
        | cons hvalue _ ih =>
          obtain ⟨hhead, htail⟩ := List.forall_mem_cons.mp hitems
          obtain ⟨hshead, hstail⟩ := List.forall_mem_cons.mp hshape
          obtain ⟨a, ha⟩ := h.accepts hhead hvalue hshead
          obtain ⟨as, has⟩ := ih hstail htail
          exact ⟨a :: as, .cons ha has⟩
      obtain ⟨as, has⟩ := hall
      exact ⟨as, list_eq_ok_iff.mpr ⟨items, rfl, has⟩⟩
    | object members closed =>
      obtain ⟨-, _, -, heq⟩ := Tree.value?_object_eq_some_iff.mp hv
      cases heq
    | null | bool _ | number _ | string _ | broken => cases hv
  admits {v as} hv hmeans := by
    obtain ⟨vs, rfl, has⟩ := hmeans
    refine ⟨vs, rfl, fun item hitem => ?_⟩
    obtain ⟨a, -, ha⟩ := exists_mem_of_forall₂ has.flip hitem
    exact h.admits ((Value.every_array.mp hv).2 item hitem) ha
  unique v as bs has hbs := by
    obtain ⟨vs, rfl, has⟩ := has
    obtain ⟨vs', heq, hbs⟩ := hbs
    cases heq
    exact List.right_unique_forall₂' h.unique has hbs

/-! ## Dictionaries -/

section

variable {κ : Type} {spell : κ → String} {key : String → Except Fault κ}
  {names : Option (List String)}

/-- What a reader of keys reads: the spellings of keys, and these are the names that are allowed. -/
structure ReadsKey (key : String → Except Fault κ) (spell : κ → String)
    (names : Option (List String)) : Prop where
  eq_ok_iff : ∀ {name k}, key name = .ok k ↔ spell k = name
  allowed_iff : ∀ {name}, (∀ allowed ∈ names, name ∈ allowed) ↔ ∃ k, spell k = name

theorem readsKey_any : ReadsKey anyKey id none where
  eq_ok_iff := by simp [anyKey, eq_comm]
  allowed_iff := by simp

theorem readsKey_table {F : Type} [Table F] [Table.Lawful F] :
    ReadsKey (tableKey (F := F)) Table.name (some (Table.names F)) where
  eq_ok_iff {name f} := by
    rw [← Table.ofName?_eq_some_iff, tableKey]
    cases Table.ofName? (F := F) name <;> simp
  allowed_iff {name} := by
    simp only [Option.mem_def, Option.some.injEq, forall_eq', Table.names, List.mem_map]
    exact exists_congr fun f => and_iff_right (Table.mem_all f)

theorem ReadsKey.inj (h : ReadsKey key spell names) {k l : κ} (heq : spell k = spell l) : k = l := by
  have hk : key (spell l) = .ok k := h.eq_ok_iff.mpr heq
  have hl : key (spell l) = .ok l := h.eq_ok_iff.mpr rfl
  cases hk.symm.trans hl
  rfl

variable [Ord κ] [Std.TransOrd κ] [Std.LawfulEqOrd κ]

/-- Reads one member into a dictionary. -/
def addMember (key : String → Except Fault κ) (decoder : Decoder α) (found : Dict κ α)
    (member : String × Tree) : Except Fault (Dict κ α) := do
  let k ← key member.1
  let a ← decoder member.2
  return found.insert k a

variable {decoder : Decoder α} {s : Spelling α} {found d : Dict κ α}

theorem addMember_eq_ok_iff {member : String × Tree} :
    addMember key decoder found member = .ok d ↔
      ∃ k a, key member.1 = .ok k ∧ decoder member.2 = .ok a ∧ d = found.insert k a := by
  simp only [addMember, bind_eq_ok_iff, pure_eq_ok_iff]
  constructor
  · rintro ⟨k, hk, a, ha, rfl⟩
    exact ⟨k, a, hk, ha, rfl⟩
  · rintro ⟨k, a, hk, ha, rfl⟩
    exact ⟨k, hk, a, ha, rfl⟩

theorem dict_eq_ok_iff {t : Tree} :
    dict key decoder t = .ok d ↔
      ∃ members, t = .object members true ∧ members.foldlM (addMember key decoder) {} = .ok d := by
  cases t with
  | object members closed =>
    have hrun : dict key decoder (.object members closed)
        = members.foldlM (addMember key decoder) {} >>= fun found =>
            ended closed >>= fun _ => pure found := rfl
    rw [hrun]
    simp only [bind_eq_ok_iff, ended_eq_ok_iff, pure_eq_ok_iff]
    constructor
    · rintro ⟨d', hd, -, rfl, rfl⟩
      exact ⟨members, rfl, hd⟩
    · rintro ⟨members', heq, hd⟩
      cases heq
      exact ⟨d, hd, (), rfl, rfl⟩
  | _ => simp [dict, unexpected]

/-- The dictionary and the object that the members make go along with each other. -/
theorem foldlM_addMember_sound [DecidableEq κ] (h : decoder.Reads s)
    (hkey : ReadsKey key spell names) {members : List (String × Tree)} {values : List (String × Value)}
    (hfound : ∀ k, Option.Rel s.Means (values.lookup (spell k)) (found.get? k))
    (hrun : members.foldlM (addMember key decoder) found = .ok d) :
    ∃ entries, List.Forall₂ Tree.Means members entries ∧ (∀ e ∈ entries, ∃ k, spell k = e.1) ∧
      ∀ k, Option.Rel s.Means ((Dict.insertAll entries values).lookup (spell k)) (d.get? k) := by
  induction members generalizing found values with
  | nil =>
    cases pure_eq_ok_iff.mp hrun
    exact ⟨[], .nil, by simp, hfound⟩
  | cons m members ih =>
    rw [List.foldlM_cons, bind_eq_ok_iff] at hrun
    obtain ⟨found', hstep, hrun⟩ := hrun
    obtain ⟨k, a, hk, ha, rfl⟩ := addMember_eq_ok_iff.mp hstep
    have hname := hkey.eq_ok_iff.mp hk
    obtain ⟨v, hv, hmeans⟩ := h.sound ha
    have hnext : ∀ l, Option.Rel s.Means ((Dict.insertEntry m.1 v values).lookup (spell l))
        ((found.insert k a).get? l) := by
      intro l
      rw [Dict.lookup_insertEntry, Dict.get?_insert]
      by_cases hl : l = k
      · rw [if_pos (hl ▸ hname), if_pos hl]
        exact .some hmeans
      · rw [if_neg fun heq => hl (hkey.inj (heq.trans hname.symm)), if_neg hl]
        exact hfound l
    obtain ⟨entries, hentries, hkeys, hall⟩ := ih hnext hrun
    refine ⟨(m.1, v) :: entries, .cons ⟨rfl, hv⟩ hentries, ?_, hall⟩
    exact List.forall_mem_cons.mpr ⟨⟨k, hname⟩, hkeys⟩

theorem foldlM_addMember_accepts (h : decoder.Reads s) (hkey : ReadsKey key spell names)
    {members : List (String × Tree)} (hdistinct : ∀ m ∈ members, m.2.Distinct)
    (hmembers : ∀ m ∈ members, (∃ k, spell k = m.1) ∧
      ∃ v, m.2.value? = some v ∧ s.shape.Admits v) (found : Dict κ α) :
    ∃ d, members.foldlM (addMember key decoder) found = .ok d := by
  induction members generalizing found with
  | nil => exact ⟨found, rfl⟩
  | cons m members ih =>
    obtain ⟨hd, hdistinct⟩ := List.forall_mem_cons.mp hdistinct
    obtain ⟨⟨⟨k, hk⟩, v, hv, hadmits⟩, hmembers⟩ := List.forall_mem_cons.mp hmembers
    obtain ⟨a, ha⟩ := h.accepts hd hv hadmits
    obtain ⟨d, hrun⟩ := ih hdistinct hmembers (found.insert k a)
    refine ⟨d, ?_⟩
    rw [List.foldlM_cons, bind_eq_ok_iff]
    exact ⟨_, addMember_eq_ok_iff.mpr ⟨k, a, hkey.eq_ok_iff.mpr hk, ha, rfl⟩, hrun⟩

theorem rel_unique {β : Type} {R : β → α → Prop} (h : Relator.RightUnique R) {v : Option β}
    {a b : Option α} (ha : Option.Rel R v a) (hb : Option.Rel R v b) : a = b := by
  cases ha with
  | none =>
    cases hb
    rfl
  | some ha =>
    cases hb with
    | some hb => rw [h ha hb]

theorem reads_dict [DecidableEq κ] (h : decoder.Reads s) (hkey : ReadsKey key spell names) :
    Decoder.Reads (Decode.dict key decoder) (s.dict names spell) where
  sound {t d} hok := by
    obtain ⟨members, rfl, hrun⟩ := dict_eq_ok_iff.mp hok
    have hempty : ∀ k, Option.Rel s.Means (([] : List (String × Value)).lookup (spell k))
        (({} : Dict κ α).get? k) := fun _ => .none
    obtain ⟨entries, hentries, hkeys, hall⟩ := foldlM_addMember_sound h hkey hempty hrun
    refine ⟨.object (Dict.insertAll entries []),
      Tree.value?_object_eq_some_iff.mpr ⟨rfl, entries, hentries, rfl⟩, _, rfl, ?_, hall⟩
    intro e he
    rcases Dict.mem_insertAll he with he | he
    · exact hkeys e he
    · cases he
  accepts {t v} ht hv hadmits := by
    obtain ⟨values, rfl, hvalues⟩ := hadmits
    cases t with
    | object members closed =>
      obtain ⟨rfl, entries, hentries, heq⟩ := Tree.value?_object_eq_some_iff.mp hv
      cases heq
      have hnames : (entries.map Prod.fst).Nodup := Tree.map_fst_of_means hentries ▸ ht.names
      -- no name is repeated, so every member of the tree is still there in the value
      obtain ⟨d, hrun⟩ := foldlM_addMember_accepts h hkey ht.members (fun m hm => by
        obtain ⟨e, he, hname, hvalue⟩ := exists_mem_of_forall₂ hentries.flip hm
        obtain ⟨hallowed, hshape⟩ := hvalues e ((Dict.perm_insertAll hnames).mem_iff.mpr he)
        rw [hname]
        exact ⟨hkey.allowed_iff.mp hallowed, _, hvalue, hshape⟩) {}
      exact ⟨d, dict_eq_ok_iff.mpr ⟨members, rfl, hrun⟩⟩
    | array items closed =>
      obtain ⟨-, _, heq, -⟩ := Tree.value?_array_eq_some_iff.mp hv
      cases heq
    | null | bool _ | number _ | string _ | broken => cases hv
  admits {v d} hv hmeans := by
    obtain ⟨values, rfl, hkeys, hall⟩ := hmeans
    obtain ⟨hnames, hvalues⟩ := Value.every_object.mp hv
    have hincreasing : Dict.Increasing values := of_decide_eq_true hnames
    refine ⟨values, rfl, fun e he => ?_⟩
    obtain ⟨k, hk⟩ := hkeys e he
    have hfound : values.lookup (spell k) = some e.2 :=
      (Dict.lookup_eq_some_iff hincreasing.nodup).mpr (hk ▸ he)
    have hrel := hall k
    rw [hfound] at hrel
    obtain ⟨a, hmeans⟩ : ∃ a, s.Means e.2 a := by
      generalize d.get? k = a? at hrel
      cases hrel with
      | some hmeans => exact ⟨_, hmeans⟩
    exact ⟨hkey.allowed_iff.mpr ⟨k, hk⟩, h.admits (hvalues e he) hmeans⟩
  unique v d d' hd hd' := by
    obtain ⟨values, rfl, -, hall⟩ := hd
    obtain ⟨_, heq, -, hall'⟩ := hd'
    cases heq
    exact Dict.ext fun k => rel_unique h.unique (hall k) (hall' k)

end

end Decode

end AccessLog.Json
