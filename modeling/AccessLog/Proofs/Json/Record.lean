import AccessLog.Proofs.Json.Decode

/-!
# What a record reads

Reading a member changes one part of a record and leaves the others alone (`Stores`): that is a
step. A run over members leaves in each part what the member with its name means
(`foldlM_member_sound`), since no name is read twice, and it gets to its end if every member is
admitted (`foldlM_member_accepts`). Both are about members in any order, starting from any record.

An array is read like an object that has the names of the fields in order
(`fst_foldlM_member_zip`), so for what follows there is one way of giving a record (`Tree.given?`),
as there is for values (`Value.given?`). With that **a record reads its parts**, under both
strictnesses alike (`Describes.reads`).
-/

set_option autoImplicit false

namespace AccessLog.Json

/-! ## The members that are given -/

/-- Elements under names have no other names. -/
theorem map_fst_zip_sublist {α β : Type} (names : List α) (items : List β) :
    ((names.zip items).map Prod.fst).Sublist names := by
  induction names generalizing items with
  | nil => simp
  | cons name names ih =>
    cases items with
    | nil => simp
    | cons item items => exact (ih items).cons_cons name

namespace Value

variable {names : List String} {members : List (String × Value)}

theorem nodup_of_given? (hnames : names.Nodup) {v : Value} (hv : v.Ordered)
    (h : v.given? names = some members) :
    (members.map Prod.fst).Nodup ∧ ∀ m ∈ members, m.2.Ordered := by
  cases v with
  | object values =>
    cases h
    obtain ⟨hincreasing, hvalues⟩ := every_object.mp hv
    exact ⟨Dict.Increasing.nodup (of_decide_eq_true hincreasing), hvalues⟩
  | array items =>
    simp only [given?, Option.ite_none_right_eq_some, Option.some.injEq] at h
    obtain ⟨-, rfl⟩ := h
    constructor
    · exact (map_fst_zip_sublist names _).nodup hnames
    · intro m hm
      exact (every_array.mp hv).2 m.2 (List.of_mem_zip hm).2
  | null | bool _ | number _ | string _ => cases h

end Value

namespace Tree

/-- The members that a tree gives to a record with these fields, as `Value.given?` has it for
values. -/
def given? (fields : List String) : Tree → Option (List (String × Tree))
  | .object members true => some members
  | .array items true => if items.length ≤ fields.length then some (fields.zip items) else none
  | _ => none

variable {names : List String} {members : List (String × Tree)} {t : Tree}

theorem forall₂_zip_iff {items : List Tree} {entries : List (String × Value)}
    (h : items.length ≤ names.length) :
    List.Forall₂ Means (names.zip items) entries ↔
      ∃ values, List.Forall₂ (fun item v => item.value? = some v) items values ∧
        entries = names.zip values := by
  induction names generalizing items entries with
  | nil =>
    rw [List.length_eq_zero_iff.mp (Nat.le_zero.mp h)]
    simp
  | cons name names ih =>
    cases items with
    | nil => simp
    | cons item items =>
      rw [List.zip_cons_cons, List.forall₂_cons_left_iff]
      constructor
      · rintro ⟨e, entries, ⟨hname, hvalue⟩, hrest, rfl⟩
        obtain ⟨values, hvalues, rfl⟩ := (ih (Nat.le_of_succ_le_succ h)).mp hrest
        exact ⟨e.2 :: values, .cons hvalue hvalues, congrArg (fun n => (n, e.2) :: _) hname.symm⟩
      · rintro ⟨values, hvalues, rfl⟩
        cases hvalues with
        | cons hvalue hvalues =>
          exact ⟨(name, _), _, ⟨rfl, hvalue⟩,
            (ih (Nat.le_of_succ_le_succ h)).mpr ⟨_, hvalues, rfl⟩, rfl⟩

/-- What a tree gives, its value gives as well, if no name is given twice. -/
theorem value?_of_given? {entries : List (String × Value)} (hgiven : t.given? names = some members)
    (hmembers : (members.map Prod.fst).Nodup) (hentries : List.Forall₂ Means members entries) :
    ∃ v values, t.value? = some v ∧ v.given? names = some values ∧ values.Perm entries := by
  cases t with
  | object given closed =>
    cases closed with
    | false => cases hgiven
    | true =>
      cases hgiven
      refine ⟨_, _, value?_object_eq_some_iff.mpr ⟨rfl, entries, hentries, rfl⟩, rfl, ?_⟩
      exact Dict.perm_insertAll (map_fst_of_means hentries ▸ hmembers)
  | array items closed =>
    cases closed with
    | false => cases hgiven
    | true =>
      simp only [given?, Option.ite_none_right_eq_some, Option.some.injEq] at hgiven
      obtain ⟨hlength, rfl⟩ := hgiven
      obtain ⟨values, hvalues, rfl⟩ := (forall₂_zip_iff hlength).mp hentries
      refine ⟨_, _, value?_array_eq_some_iff.mpr ⟨rfl, values, rfl, hvalues⟩, ?_, .refl _⟩
      rw [Value.given?, if_pos (hvalues.length_eq ▸ hlength)]
  | null | bool _ | number _ | string _ | broken => cases hgiven

/-- What a value gives, its tree gives as well. -/
theorem given?_of_value? {v : Value} {values : List (String × Value)} (hnames : names.Nodup)
    (ht : t.Distinct) (hv : t.value? = some v) (hgiven : v.given? names = some values) :
    ∃ members entries, t.given? names = some members ∧ (members.map Prod.fst).Nodup ∧
      (∀ m ∈ members, m.2.Distinct) ∧ List.Forall₂ Means members entries ∧
      values.Perm entries := by
  cases t with
  | object members closed =>
    obtain ⟨rfl, entries, hentries, rfl⟩ := value?_object_eq_some_iff.mp hv
    cases hgiven
    refine ⟨members, entries, rfl, ht.names, ht.members, hentries, ?_⟩
    exact Dict.perm_insertAll (map_fst_of_means hentries ▸ ht.names)
  | array items closed =>
    obtain ⟨rfl, found, rfl, hfound⟩ := value?_array_eq_some_iff.mp hv
    simp only [Value.given?, Option.ite_none_right_eq_some, Option.some.injEq] at hgiven
    obtain ⟨hlength, rfl⟩ := hgiven
    rw [← hfound.length_eq] at hlength
    refine ⟨names.zip items, names.zip found, if_pos hlength, ?_, ?_, ?_, .refl _⟩
    · exact (map_fst_zip_sublist names _).nodup hnames
    · intro m hm
      exact ht.items m.2 (List.of_mem_zip hm).2
    · exact (forall₂_zip_iff hlength).mpr ⟨found, hfound, rfl⟩
  | null | bool _ | number _ | string _ =>
    cases hv
    cases hgiven
  | broken => cases hv

end Tree

namespace Decode

variable {α : Type}

/-! ## Reading one member -/

/-- A field of a record reads one part and stores it without touching the others. -/
def Stores (parts : List (Part α)) (part : Part α) (f : Decode.Field α) : Prop :=
  ∃ (decoder : Decoder part.β) (put : α → part.β → α), f = field part.name decoder put ∧
    decoder.Reads part.spelling ∧ (∀ a b, part.get (put a b) = b) ∧
    ∀ other ∈ parts, other.name ≠ part.name → ∀ a b, other.get (put a b) = other.get a

/-- The parts of a record, each with the field that reads it. -/
structure Describes (parts : List (Part α)) (schema : Schema α) : Prop where
  fields : List.Forall₂ (Stores parts) parts schema.fields
  nodup : (parts.map Part.name).Nodup
  /-- There is nothing else in the record. -/
  ext : ∀ {a b}, (∀ part ∈ parts, part.get a = part.get b) → a = b

variable {schema : Schema α}

/-- A field is found by its name. -/
theorem find?_name_eq_some_iff (h : schema.names.Nodup) {name : String} {f : Decode.Field α} :
    schema.fields.find? (·.name == name) = some f ↔ f ∈ schema.fields ∧ f.name = name := by
  constructor
  · intro hf
    exact ⟨List.mem_of_find?_eq_some hf, by simpa using List.find?_some hf⟩
  · rintro ⟨hmem, rfl⟩
    cases hfound : schema.fields.find? (·.name == f.name) with
    | none => simpa using List.find?_eq_none.mp hfound f hmem
    | some g =>
      have hname : g.name = f.name := by simpa using List.find?_some hfound
      rw [List.inj_on_of_nodup_map h (List.mem_of_find?_eq_some hfound) hmem hname]

/-- What reading one member does: there is a field with its name, which was not read before. -/
theorem member_eq_ok_iff (h : schema.names.Nodup) {m : String × Tree} {a a' : α}
    {seen seen' : List String} :
    schema.member (a, seen) m = .ok (a', seen') ↔
      ∃ f ∈ schema.fields, f.name = m.1 ∧ m.1 ∉ seen ∧ f.set a m.2 = .ok a' ∧
        seen' = m.1 :: seen := by
  obtain ⟨name, t⟩ := m
  simp only [Schema.member]
  cases hfound : schema.fields.find? (·.name == name) with
  | none =>
    constructor
    · intro hok
      cases hok
    · rintro ⟨f, hmem, hname, -⟩
      rw [(find?_name_eq_some_iff h).mpr ⟨hmem, hname⟩] at hfound
      cases hfound
  | some f =>
    obtain ⟨hmem, hname⟩ := (find?_name_eq_some_iff h).mp hfound
    by_cases hseen : name ∈ seen
    · simp [hseen]
    · simp only [List.contains_eq_mem, decide_eq_false hseen, Bool.false_eq_true, if_false,
        bind_eq_ok_iff, pure_eq_ok_iff, Prod.mk.injEq]
      constructor
      · rintro ⟨a', ha, rfl, rfl⟩
        exact ⟨f, hmem, hname, hseen, ha, rfl⟩
      · rintro ⟨g, hg, hgname, -, ha, rfl⟩
        rw [(find?_name_eq_some_iff h).mpr ⟨hg, hgname⟩] at hfound
        cases hfound
        exact ⟨a', ha, rfl, rfl⟩

variable {parts : List (Part α)}

theorem map_name_of_stores {ps : List (Part α)} {fs : List (Decode.Field α)}
    (h : List.Forall₂ (Stores parts) ps fs) : fs.map (·.name) = ps.map Part.name := by
  induction h with
  | nil => rfl
  | cons hstore _ ih =>
    obtain ⟨_, _, rfl, -⟩ := hstore
    rw [List.map_cons, List.map_cons, ih]
    rfl

namespace Describes

variable (h : Describes parts schema)

include h

theorem names_eq : schema.names = parts.map Part.name := map_name_of_stores h.fields

theorem names_nodup : schema.names.Nodup := h.names_eq ▸ h.nodup

/-- A name belongs to one part at most. -/
theorem eq_of_name {part other : Part α} (hpart : part ∈ parts) (hother : other ∈ parts)
    (hname : other.name = part.name) : other = part :=
  List.inj_on_of_nodup_map h.nodup hother hpart hname

/-- Reading a member with the name of a part gives that part what the value of the member means, and
leaves the others as they are. -/
theorem member_sound {m : String × Tree} {a a' : α} {seen seen' : List String}
    (hstep : schema.member (a, seen) m = .ok (a', seen')) :
    ∃ part ∈ parts, part.name = m.1 ∧ m.1 ∉ seen ∧ seen' = m.1 :: seen ∧
      (∃ v, m.2.value? = some v ∧ part.spelling.Means v (part.get a')) ∧
      ∀ other ∈ parts, other.name ≠ m.1 → other.get a' = other.get a := by
  obtain ⟨f, hf, hname, hfresh, hset, hseen⟩ := (member_eq_ok_iff h.names_nodup).mp hstep
  obtain ⟨part, hpart, decoder, put, rfl, hreads, hget, hothers⟩ :=
    exists_mem_of_forall₂ h.fields hf
  obtain ⟨b, hb, rfl⟩ := map_eq_ok_iff.mp hset
  obtain ⟨v, hv, hmeans⟩ := hreads.sound hb
  refine ⟨part, hpart, hname, hfresh, hseen, ⟨v, hv, ?_⟩, fun other hother hne => ?_⟩
  · rw [hget]
    exact hmeans
  · exact hothers other hother (fun heq => hne (heq.trans hname)) a b

theorem member_accepts {m : String × Tree} {v : Value} {seen : List String} {part : Part α}
    (hpart : part ∈ parts) (hname : part.name = m.1) (hfresh : m.1 ∉ seen) (hm : m.2.Distinct)
    (hv : m.2.value? = some v) (hadmits : part.spelling.shape.Admits v) (a : α) :
    ∃ a', schema.member (a, seen) m = .ok (a', m.1 :: seen) := by
  obtain ⟨f, hf, decoder, put, rfl, hreads, -⟩ := exists_mem_of_forall₂ h.fields.flip hpart
  obtain ⟨b, hb⟩ := hreads.accepts hm hv hadmits
  refine ⟨put a b, (member_eq_ok_iff h.names_nodup).mpr ⟨_, hf, hname, hfresh, ?_, rfl⟩⟩
  exact map_eq_ok_iff.mpr ⟨b, hb, rfl⟩

/-! ## Reading all of them -/

/-- **A run over members leaves in each part what is given for it**, and what was there before if
nothing is. -/
theorem foldlM_member_sound {members : List (String × Tree)} {a a' : α} {seen seen' : List String}
    (hrun : members.foldlM schema.member (a, seen) = .ok (a', seen')) :
    (members.map Prod.fst).Nodup ∧ (∀ m ∈ members, m.1 ∉ seen ∧ m.1 ∈ parts.map Part.name) ∧
      ∃ entries, List.Forall₂ Tree.Means members entries ∧
        ∀ part ∈ parts, part.Holds a entries a' := by
  induction members generalizing a seen with
  | nil =>
    cases pure_eq_ok_iff.mp hrun
    exact ⟨.nil, by simp, [], .nil, fun _ _ => rfl⟩
  | cons m members ih =>
    rw [List.foldlM_cons, bind_eq_ok_iff] at hrun
    obtain ⟨⟨a₁, seen₁⟩, hstep, hrun⟩ := hrun
    obtain ⟨part, hpart, hname, hfresh, rfl, ⟨v, hv, hmeans⟩, hkeep⟩ := h.member_sound hstep
    obtain ⟨hnodup, hnames, entries, hentries, hholds⟩ := ih hrun
    have hnot : m.1 ∉ members.map Prod.fst := by
      intro hmem
      obtain ⟨later, hlater, heq⟩ := List.mem_map.mp hmem
      exact (hnames later hlater).1 (heq ▸ List.mem_cons_self)
    refine ⟨List.nodup_cons.mpr ⟨hnot, hnodup⟩, ?_, (m.1, v) :: entries,
      .cons ⟨rfl, hv⟩ hentries, fun other hother => ?_⟩
    · refine List.forall_mem_cons.mpr ⟨⟨hfresh, List.mem_map.mpr ⟨part, hpart, hname⟩⟩, ?_⟩
      intro later hlater
      exact ⟨fun hmem => (hnames later hlater).1 (List.mem_cons_of_mem _ hmem),
        (hnames later hlater).2⟩
    · have hrest := hholds other hother
      have hlookup := Dict.lookup_cons_eq_ite other.name (m.1, v) entries
      by_cases heq : other.name = m.1
      · -- the part of this member is not given again
        obtain rfl := h.eq_of_name hpart hother (heq.trans hname.symm)
        have hnone : entries.lookup other.name = none :=
          Dict.lookup_eq_none_iff.mpr (Tree.map_fst_of_means hentries ▸ heq ▸ hnot)
        rw [if_pos heq] at hlookup
        rw [Part.holds_iff_of_lookup hlookup, (Part.holds_iff_of_missing hnone).mp hrest]
        exact hmeans
      · rw [if_neg heq] at hlookup
        unfold Part.Holds at hrest ⊢
        rw [hlookup, ← hkeep other hother heq]
        exact hrest

/-- **A run over members gets to its end if every member is admitted.** -/
theorem foldlM_member_accepts {members : List (String × Tree)} {a : α} {seen : List String}
    (hnodup : (members.map Prod.fst).Nodup) (hfresh : ∀ m ∈ members, m.1 ∉ seen)
    (hdistinct : ∀ m ∈ members, m.2.Distinct)
    (hadmits : ∀ m ∈ members, ∃ part ∈ parts, part.name = m.1 ∧
      ∃ v, m.2.value? = some v ∧ part.spelling.shape.Admits v) :
    ∃ r, members.foldlM schema.member (a, seen) = .ok r := by
  induction members generalizing a seen with
  | nil => exact ⟨_, rfl⟩
  | cons m members ih =>
    obtain ⟨hnot, hnodup⟩ := List.nodup_cons.mp hnodup
    obtain ⟨hfresh, hfreshs⟩ := List.forall_mem_cons.mp hfresh
    obtain ⟨hd, hdistinct⟩ := List.forall_mem_cons.mp hdistinct
    obtain ⟨⟨part, hpart, hname, v, hv, hshape⟩, hadmits⟩ := List.forall_mem_cons.mp hadmits
    obtain ⟨a₁, hstep⟩ := h.member_accepts hpart hname hfresh hd hv hshape a
    have hnext : ∀ later ∈ members, later.1 ∉ m.1 :: seen := by
      intro later hlater hmem
      rcases List.mem_cons.mp hmem with heq | hmem
      · exact hnot (List.mem_map.mpr ⟨later, hlater, heq⟩)
      · exact hfreshs later hlater hmem
    obtain ⟨r, hrun⟩ := ih (a := a₁) hnodup hnext hdistinct hadmits
    refine ⟨r, ?_⟩
    rw [List.foldlM_cons, bind_eq_ok_iff]
    exact ⟨_, hstep, hrun⟩

end Describes

/-- Reading elements in order is reading them as members under the names of the fields. -/
theorem fst_foldlM_member_zip (h : schema.names.Nodup) {fields : List (Decode.Field α)}
    (hfields : fields.Sublist schema.fields) {a : α} {seen : List String}
    (hfresh : ∀ f ∈ fields, f.name ∉ seen) (items : List Tree) :
    Prod.fst <$> ((fields.map (·.name)).zip items).foldlM schema.member (a, seen)
      = readInOrder a fields items := by
  induction fields generalizing a seen items with
  | nil => cases items <;> rfl
  | cons f fields ih =>
    cases items with
    | nil => rfl
    | cons item items =>
      have hnames : ((f :: fields).map (·.name)).Nodup := (hfields.map _).nodup h
      obtain ⟨hnot, -⟩ := List.nodup_cons.mp hnames
      have hmem : f ∈ schema.fields := hfields.subset List.mem_cons_self
      have hstep : schema.member (a, seen) (f.name, item)
          = (fun a' => (a', f.name :: seen)) <$> f.set a item := by
        have hfound := (find?_name_eq_some_iff h).mpr ⟨hmem, rfl⟩
        simp only [Schema.member, hfound, List.contains_eq_mem,
          decide_eq_false (hfresh f List.mem_cons_self), Bool.false_eq_true, if_false]
        rfl
      have hnext : ∀ g ∈ fields, g.name ∉ f.name :: seen := by
        intro g hg hmem
        rcases List.mem_cons.mp hmem with heq | hmem
        · exact hnot (List.mem_map.mpr ⟨g, hg, heq⟩)
        · exact hfresh g (List.mem_cons_of_mem f hg) hmem
      rw [List.map_cons, List.zip_cons_cons, List.foldlM_cons, hstep, readInOrder]
      cases f.set a item with
      | error e => rfl
      | ok a' => exact ih ((List.sublist_cons_self f fields).trans hfields) hnext items

/-! ## Reading a record -/

/-- **A record is read from the members that are given**, one after the other. -/
theorem read_eq_ok_iff (h : schema.names.Nodup) {strictness : Strictness} {default a : α} {t : Tree} :
    schema.read strictness default t = .ok a ↔
      ∃ members seen, t.given? schema.names = some members ∧
        members.foldlM schema.member (default, []) = .ok (a, seen) := by
  cases t with
  | object members closed =>
    simp only [Schema.read, bind_eq_ok_iff, ended_eq_ok_iff, pure_eq_ok_iff]
    constructor
    · rintro ⟨⟨a, seen⟩, hrun, -, rfl, rfl⟩
      exact ⟨members, seen, rfl, hrun⟩
    · rintro ⟨members', seen, hgiven, hrun⟩
      cases closed with
      | false => cases hgiven
      | true =>
        cases hgiven
        exact ⟨(a, seen), hrun, (), rfl, rfl⟩
  | array items closed =>
    have hfresh : ∀ f ∈ schema.fields, f.name ∉ ([] : List String) := by simp
    have horder := fst_foldlM_member_zip h (.refl schema.fields) (a := default) hfresh items
    have hlength : schema.names.length = schema.fields.length := List.length_map _
    simp only [Schema.read, bind_eq_ok_iff, ← horder, map_eq_ok_iff]
    constructor
    · rintro ⟨a, ⟨⟨a, seen⟩, hrun, rfl⟩, hend⟩
      split at hend
      · cases hend
      · rename_i hle
        simp only [bind_eq_ok_iff, ended_eq_ok_iff, pure_eq_ok_iff] at hend
        obtain ⟨-, rfl, rfl⟩ := hend
        refine ⟨_, seen, if_pos ?_, hrun⟩
        omega
    · rintro ⟨members, seen, hgiven, hrun⟩
      cases closed with
      | false => cases hgiven
      | true =>
        simp only [Tree.given?, Option.ite_none_right_eq_some, Option.some.injEq] at hgiven
        obtain ⟨hle, rfl⟩ := hgiven
        refine ⟨a, ⟨(a, seen), hrun, rfl⟩, ?_⟩
        rw [if_neg (by omega)]
        rfl
  | _ => simp [Schema.read, Tree.given?, unexpected]

theorem map_fst_shapes (parts : List (Part α)) :
    (parts.map fun part => (part.name, part.spelling.shape)).map Prod.fst = parts.map Part.name := by
  simp [Function.comp_def]

/-- **A record reads its parts.** -/
theorem Describes.reads (h : Describes parts schema) (strictness : Strictness) (default : α) :
    Decoder.Reads (schema.read strictness default) (.record parts default) where
  sound {t a} hok := by
    obtain ⟨members, seen, hgiven, hrun⟩ := (read_eq_ok_iff h.names_nodup).mp hok
    obtain ⟨hnodup, hnames, entries, hentries, hholds⟩ := h.foldlM_member_sound hrun
    rw [h.names_eq] at hgiven
    obtain ⟨v, values, hv, hvalues, hperm⟩ := Tree.value?_of_given? hgiven hnodup hentries
    refine ⟨v, hv, values, hvalues, fun e he => ?_, fun part hpart => ?_⟩
    · obtain ⟨m, hm, hname, -⟩ := exists_mem_of_forall₂ hentries (hperm.mem_iff.mp he)
      exact hname ▸ (hnames m hm).2
    · have hkeys : (values.map Prod.fst).Nodup :=
        (hperm.map Prod.fst).nodup_iff.mpr (Tree.map_fst_of_means hentries ▸ hnodup)
      exact (Part.holds_congr (Dict.lookup_of_perm hkeys hperm)).mpr (hholds part hpart)
  accepts {t v} ht hv hadmits := by
    have hfields := map_fst_shapes parts
    obtain ⟨values, hgiven, hmembers⟩ := hadmits
    rw [hfields] at hgiven
    -- the members of the tree are those of the value, in an order of their own
    obtain ⟨members, entries, hgivenTree, hnodup, hdistinct, hentries, hperm⟩ :=
      Tree.given?_of_value? h.nodup ht hv hgiven
    have hparts : ∀ m ∈ members, ∃ part ∈ parts, part.name = m.1 ∧
        ∃ v, m.2.value? = some v ∧ part.spelling.shape.Admits v := by
      intro m hm
      obtain ⟨e, he, hname, hvalue⟩ := exists_mem_of_forall₂ hentries.flip hm
      have hadmitted := hmembers e (hperm.mem_iff.mpr he)
      rw [Shape.admitsMember_iff (hfields ▸ h.nodup)] at hadmitted
      obtain ⟨shape, hmem, hshape⟩ := hadmitted
      obtain ⟨part, hpart, heq⟩ := List.mem_map.mp hmem
      obtain ⟨hpartName, rfl⟩ := Prod.mk.inj heq
      exact ⟨part, hpart, hpartName.trans hname.symm, e.2, hvalue, hshape⟩
    have hfresh : ∀ m ∈ members, m.1 ∉ ([] : List String) := by simp
    obtain ⟨⟨a, seen⟩, hrun⟩ :=
      h.foldlM_member_accepts (a := default) hnodup hfresh hdistinct hparts
    exact ⟨a, (read_eq_ok_iff h.names_nodup).mpr
      ⟨members, seen, h.names_eq ▸ hgivenTree, hrun⟩⟩
  admits {v a} hv hmeans := by
    have hfields := map_fst_shapes parts
    obtain ⟨values, hgiven, hnames, hholds⟩ := hmeans
    obtain ⟨hnodup, hordered⟩ := Value.nodup_of_given? h.nodup hv hgiven
    refine ⟨values, hfields ▸ hgiven, fun e he => ?_⟩
    obtain ⟨part, hpart, hname⟩ := List.mem_map.mp (hnames e he)
    have hlookup : values.lookup part.name = some e.2 :=
      (Dict.lookup_eq_some_iff hnodup).mpr (hname ▸ he)
    have hpartHolds := (Part.holds_iff_of_lookup hlookup).mp (hholds part hpart)
    obtain ⟨_, -, decoder, _, -, hreads, -⟩ := exists_mem_of_forall₂ h.fields.flip hpart
    rw [Shape.admitsMember_iff (hfields ▸ h.nodup)]
    exact ⟨_, List.mem_map.mpr ⟨part, hpart, Prod.ext hname rfl⟩,
      hreads.admits (hordered e he) hpartHolds⟩
  unique v a b ha hb := by
    obtain ⟨values, hgiven, -, ha⟩ := ha
    obtain ⟨values', hgiven', -, hb⟩ := hb
    cases hgiven.symm.trans hgiven'
    refine h.ext fun part hpart => ?_
    obtain ⟨_, -, decoder, _, -, hreads, -⟩ := exists_mem_of_forall₂ h.fields.flip hpart
    have hpartA := ha part hpart
    have hpartB := hb part hpart
    cases hlookup : values.lookup part.name with
    | some given =>
      rw [Part.holds_iff_of_lookup hlookup] at hpartA hpartB
      exact hreads.unique hpartA hpartB
    | none =>
      rw [Part.holds_iff_of_missing hlookup] at hpartA hpartB
      exact hpartA.trans hpartB.symm

end Decode

end AccessLog.Json
