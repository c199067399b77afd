import AccessLog.Json.Tree
import AccessLog.Proofs.Dictionary

/-!
# The value of a tree

A tree is a document as it is spelled and a value is what it means. What a value forgets are the
order in which members stand and all but the last of several members with one name. **A value is
spelled by a tree again, and that tree means the value** (`value?_ofValue`), as long as its members
are in order; and the members of what a tree means always are (`ordered_of_value?`).

What else is known of a value goes back to its tree by induction over both (`value?_induct`): it is
no deeper, and its numbers are numbers of the tree.

Conditions on all parts of a document are `every` with a condition on one part. `depth` counts the
containers around the innermost part.
-/

set_option autoImplicit false

namespace AccessLog

universe u v

/-- Lists that are related member by member: each on the right has one on the left. -/
theorem exists_mem_of_forall₂ {α : Type u} {β : Type v} {R : α → β → Prop} {xs : List α}
    {ys : List β} (h : List.Forall₂ R xs ys) {y : β} (hy : y ∈ ys) : ∃ x ∈ xs, R x y := by
  induction h with
  | nil => cases hy
  | cons hxy _ ih =>
    rcases List.mem_cons.mp hy with rfl | hy
    · exact ⟨_, List.mem_cons_self, hxy⟩
    · obtain ⟨x, hx, hR⟩ := ih hy
      exact ⟨x, List.mem_cons_of_mem _ hx, hR⟩

namespace Json

/-! ## Parts of a value -/

namespace Value

/-- Induction over the elements and members of a value. -/
@[elab_as_elim, induction_eliminator]
theorem induct {motive : Value → Prop} (null : motive .null) (bool : ∀ b, motive (.bool b))
    (number : ∀ n, motive (.number n)) (string : ∀ s, motive (.string s))
    (array : ∀ items, (∀ item ∈ items, motive item) → motive (.array items))
    (object : ∀ members : List (String × Value), (∀ m ∈ members, motive m.2) →
      motive (.object members)) (v : Value) : motive v :=
  @Value.rec motive (fun items => ∀ item ∈ items, motive item)
    (fun members => ∀ m ∈ members, motive m.2) (fun m => motive m.2)
    null bool number string array object
    (List.forall_mem_nil _) (fun _ _ hhead htail => List.forall_mem_cons.mpr ⟨hhead, htail⟩)
    (List.forall_mem_nil _) (fun _ _ hhead htail => List.forall_mem_cons.mpr ⟨hhead, htail⟩)
    (fun _ _ h => h) v

mutual

/-- Whether a condition holds for a value and everything in it. -/
def every (p : Value → Bool) : Value → Bool
  | .array items => p (.array items) && everyItem p items
  | .object members => p (.object members) && everyMember p members
  | v => p v

def everyItem (p : Value → Bool) : List Value → Bool
  | [] => true
  | item :: items => every p item && everyItem p items

def everyMember (p : Value → Bool) : List (String × Value) → Bool
  | [] => true
  | (_, member) :: members => every p member && everyMember p members

end

mutual

/-- How many containers are around the innermost part of a value. -/
def depth : Value → Nat
  | .array items => depthItems items + 1
  | .object members => depthMembers members + 1
  | _ => 0

def depthItems : List Value → Nat
  | [] => 0
  | item :: items => max (depth item) (depthItems items)

def depthMembers : List (String × Value) → Nat
  | [] => 0
  | (_, member) :: members => max (depth member) (depthMembers members)

end

variable {p : Value → Bool} {items : List Value} {members : List (String × Value)} {n : Nat}

@[simp] theorem every_array :
    (array items).every p = true ↔
      p (.array items) = true ∧ ∀ item ∈ items, item.every p = true := by
  have hitems : everyItem p items = true ↔ ∀ item ∈ items, item.every p = true := by
    induction items with
    | nil => simp [everyItem]
    | cons item items ih => simp [everyItem, ih]
  rw [every, Bool.and_eq_true, hitems]

@[simp] theorem every_object :
    (object members).every p = true ↔
      p (.object members) = true ∧ ∀ m ∈ members, m.2.every p = true := by
  have hmembers : everyMember p members = true ↔ ∀ m ∈ members, m.2.every p = true := by
    induction members with
    | nil => simp [everyMember]
    | cons m members ih => simp [everyMember, ih]
  rw [every, Bool.and_eq_true, hmembers]

@[simp] theorem depth_array_le :
    (array items).depth ≤ n + 1 ↔ ∀ item ∈ items, item.depth ≤ n := by
  have hitems : depthItems items ≤ n ↔ ∀ item ∈ items, item.depth ≤ n := by
    induction items with
    | nil => simp [depthItems]
    | cons item items ih => rw [depthItems, Nat.max_le, ih, List.forall_mem_cons]
  rw [depth, Nat.add_le_add_iff_right, hitems]

@[simp] theorem depth_object_le :
    (object members).depth ≤ n + 1 ↔ ∀ m ∈ members, m.2.depth ≤ n := by
  have hmembers : depthMembers members ≤ n ↔ ∀ m ∈ members, m.2.depth ≤ n := by
    induction members with
    | nil => simp [depthMembers]
    | cons m members ih => rw [depthMembers, Nat.max_le, ih, List.forall_mem_cons]
  rw [depth, Nat.add_le_add_iff_right, hmembers]

/-- Whether the names of an object are in increasing order. -/
def namesIncrease : Value → Bool
  | .object members => decide (Dict.Increasing members)
  | _ => true

/-- In every object the names are in increasing order, so none is repeated. -/
def Ordered (v : Value) : Prop := v.every namesIncrease = true

instance (v : Value) : Decidable v.Ordered := inferInstanceAs (Decidable (_ = true))

/-- Whether a condition holds for a number; what is no number is no exception. -/
def ifNumber (p : Number → Bool) : Value → Bool
  | .number n => p n
  | _ => true

end Value

/-! ## Parts of a tree -/

namespace Tree

/-- Induction over the elements and members of a tree. -/
@[elab_as_elim, induction_eliminator]
theorem induct {motive : Tree → Prop} (null : motive .null) (bool : ∀ b, motive (.bool b))
    (number : ∀ n, motive (.number n)) (string : ∀ s, motive (.string s))
    (array : ∀ items closed, (∀ item ∈ items, motive item) → motive (.array items closed))
    (object : ∀ (members : List (String × Tree)) closed, (∀ m ∈ members, motive m.2) →
      motive (.object members closed)) (broken : motive .broken) (t : Tree) : motive t :=
  @Tree.rec motive (fun items => ∀ item ∈ items, motive item)
    (fun members => ∀ m ∈ members, motive m.2) (fun m => motive m.2)
    null bool number string array object broken
    (List.forall_mem_nil _) (fun _ _ hhead htail => List.forall_mem_cons.mpr ⟨hhead, htail⟩)
    (List.forall_mem_nil _) (fun _ _ hhead htail => List.forall_mem_cons.mpr ⟨hhead, htail⟩)
    (fun _ _ h => h) t

mutual

/-- Whether a condition holds for a tree and everything in it. -/
def every (p : Tree → Bool) : Tree → Bool
  | .array items closed => p (.array items closed) && everyItem p items
  | .object members closed => p (.object members closed) && everyMember p members
  | t => p t

def everyItem (p : Tree → Bool) : List Tree → Bool
  | [] => true
  | item :: items => every p item && everyItem p items

def everyMember (p : Tree → Bool) : List (String × Tree) → Bool
  | [] => true
  | (_, member) :: members => every p member && everyMember p members

end

mutual

/-- How many containers are around the innermost part of a tree. -/
def depth : Tree → Nat
  | .array items _ => depthItems items + 1
  | .object members _ => depthMembers members + 1
  | _ => 0

def depthItems : List Tree → Nat
  | [] => 0
  | item :: items => max (depth item) (depthItems items)

def depthMembers : List (String × Tree) → Nat
  | [] => 0
  | (_, member) :: members => max (depth member) (depthMembers members)

end

variable {p : Tree → Bool} {items : List Tree} {members : List (String × Tree)} {closed : Bool}
  {n : Nat}

@[simp] theorem every_array :
    (array items closed).every p = true ↔
      p (.array items closed) = true ∧ ∀ item ∈ items, item.every p = true := by
  have hitems : everyItem p items = true ↔ ∀ item ∈ items, item.every p = true := by
    induction items with
    | nil => simp [everyItem]
    | cons item items ih => simp [everyItem, ih]
  rw [every, Bool.and_eq_true, hitems]

@[simp] theorem every_object :
    (object members closed).every p = true ↔
      p (.object members closed) = true ∧ ∀ m ∈ members, m.2.every p = true := by
  have hmembers : everyMember p members = true ↔ ∀ m ∈ members, m.2.every p = true := by
    induction members with
    | nil => simp [everyMember]
    | cons m members ih => simp [everyMember, ih]
  rw [every, Bool.and_eq_true, hmembers]

@[simp] theorem depth_array_le :
    (array items closed).depth ≤ n + 1 ↔ ∀ item ∈ items, item.depth ≤ n := by
  have hitems : depthItems items ≤ n ↔ ∀ item ∈ items, item.depth ≤ n := by
    induction items with
    | nil => simp [depthItems]
    | cons item items ih => rw [depthItems, Nat.max_le, ih, List.forall_mem_cons]
  rw [depth, Nat.add_le_add_iff_right, hitems]

@[simp] theorem depth_object_le :
    (object members closed).depth ≤ n + 1 ↔ ∀ m ∈ members, m.2.depth ≤ n := by
  have hmembers : depthMembers members ≤ n ↔ ∀ m ∈ members, m.2.depth ≤ n := by
    induction members with
    | nil => simp [depthMembers]
    | cons m members ih => rw [depthMembers, Nat.max_le, ih, List.forall_mem_cons]
  rw [depth, Nat.add_le_add_iff_right, hmembers]

def IsObject (t : Tree) : Prop := ∃ members closed, t = .object members closed

instance (t : Tree) : Decidable t.IsObject :=
  match t with
  | .object members closed => isTrue ⟨members, closed, rfl⟩
  | .null | .bool _ | .number _ | .string _ | .array .. | .broken =>
    isFalse fun ⟨_, _, h⟩ => nomatch h

/-- Whether an object names each of its members differently. -/
def namesDiffer : Tree → Bool
  | .object members _ => decide (members.map Prod.fst).Nodup
  | _ => true

/-- No object repeats a name. -/
def Distinct (t : Tree) : Prop := t.every namesDiffer = true

instance (t : Tree) : Decidable t.Distinct := inferInstanceAs (Decidable (_ = true))

/-- Whether a condition holds for a number; what is no number is no exception. -/
def ifNumber (p : Number → Bool) : Tree → Bool
  | .number n => p n
  | _ => true

/-! ## What trees mean -/

/-- A member that is spelled means a member with the same name. -/
def Means (m : String × Tree) (e : String × Value) : Prop := m.1 = e.1 ∧ m.2.value? = some e.2

theorem valueItems?_eq_some_iff {values : List Value} :
    valueItems? items = some values ↔
      List.Forall₂ (fun (t : Tree) v => t.value? = some v) items values := by
  induction items generalizing values with
  | nil => simp [valueItems?, eq_comm]
  | cons item items ih =>
    simp only [valueItems?, Option.bind_eq_bind, Option.bind_eq_some_iff, Option.pure_def,
      Option.some.injEq, List.forall₂_cons_left_iff, ih]
    constructor
    · rintro ⟨v, hv, vs, hvs, rfl⟩
      exact ⟨v, vs, hv, hvs, rfl⟩
    · rintro ⟨v, vs, hv, hvs, rfl⟩
      exact ⟨v, hv, vs, hvs, rfl⟩

/-- The members of a value are put in one after the other. -/
theorem valueMembers?_eq_some_iff {found values : List (String × Value)} :
    valueMembers? found members = some values ↔
      ∃ entries, List.Forall₂ Means members entries ∧ values = Dict.insertAll entries found := by
  induction members generalizing found with
  | nil => simp [valueMembers?, Dict.insertAll, eq_comm]
  | cons m members ih =>
    obtain ⟨name, member⟩ := m
    simp only [valueMembers?, Option.bind_eq_bind, Option.bind_eq_some_iff, ih,
      List.forall₂_cons_left_iff]
    constructor
    · rintro ⟨v, hv, entries, hentries, rfl⟩
      exact ⟨(name, v) :: entries, ⟨_, _, ⟨rfl, hv⟩, hentries, rfl⟩, rfl⟩
    · rintro ⟨_, ⟨⟨_, v⟩, entries, ⟨rfl, hv⟩, hentries, rfl⟩, rfl⟩
      exact ⟨v, hv, entries, hentries, rfl⟩

theorem value?_array_eq_some_iff {v : Value} :
    (array items closed).value? = some v ↔ closed = true ∧ ∃ values, v = .array values ∧
      List.Forall₂ (fun (t : Tree) v => t.value? = some v) items values := by
  rw [value?]
  cases closed with
  | false => cases valueItems? items <;> simp
  | true =>
    simp only [Option.bind_eq_bind, Option.bind_eq_some_iff, valueItems?_eq_some_iff, if_true,
      Option.some.injEq, true_and]
    exact exists_congr fun values => ⟨fun h => ⟨h.2.symm, h.1⟩, fun h => ⟨h.2, h.1.symm⟩⟩

theorem value?_object_eq_some_iff {v : Value} :
    (object members closed).value? = some v ↔ closed = true ∧ ∃ entries,
      List.Forall₂ Means members entries ∧ v = .object (Dict.insertAll entries []) := by
  rw [value?]
  cases closed with
  | false => cases valueMembers? [] members <;> simp
  | true =>
    simp only [Option.bind_eq_bind, Option.bind_eq_some_iff, valueMembers?_eq_some_iff, if_true,
      Option.some.injEq, true_and]
    constructor
    · rintro ⟨_, ⟨entries, hentries, rfl⟩, rfl⟩
      exact ⟨entries, hentries, rfl⟩
    · rintro ⟨entries, hentries, rfl⟩
      exact ⟨_, ⟨entries, hentries, rfl⟩, rfl⟩

theorem map_fst_of_means {entries : List (String × Value)}
    (h : List.Forall₂ Means members entries) : members.map Prod.fst = entries.map Prod.fst := by
  induction h with
  | nil => rfl
  | cons hm _ ih => rw [List.map_cons, List.map_cons, hm.1, ih]

/-- Every member of a value is spelled by a member of the tree. -/
theorem exists_mem_of_value? {values : List (String × Value)}
    (h : (object members closed).value? = some (.object values)) {e : String × Value}
    (he : e ∈ values) : ∃ m ∈ members, Means m e := by
  obtain ⟨-, entries, hentries, hvalues⟩ := value?_object_eq_some_iff.mp h
  rw [Value.object.inj hvalues] at he
  rcases Dict.mem_insertAll he with he | he
  · exact exists_mem_of_forall₂ hentries he
  · cases he

/-! ## What a value keeps of its tree -/

variable {t : Tree} {v : Value}

/-- Induction over a tree and what it means. -/
theorem value?_induct {motive : Tree → Value → Prop} (null : motive .null .null)
    (bool : ∀ b, motive (.bool b) (.bool b)) (number : ∀ n, motive (.number n) (.number n))
    (string : ∀ s, motive (.string s) (.string s))
    (array : ∀ items values, (∀ v ∈ values, ∃ item ∈ items, item.value? = some v ∧ motive item v) →
      motive (.array items true) (.array values))
    (object : ∀ members values, Dict.Increasing values →
      (∀ e ∈ values, ∃ m ∈ members, Means m e ∧ motive m.2 e.2) →
      motive (.object members true) (.object values))
    (h : t.value? = some v) : motive t v := by
  induction t generalizing v with
  | null | bool _ | number _ | string _ =>
    cases h
    first | exact null | exact bool _ | exact number _ | exact string _
  | broken => cases h
  | array items closed ih =>
    obtain ⟨rfl, values, rfl, hvalues⟩ := value?_array_eq_some_iff.mp h
    refine array items values fun v hv => ?_
    obtain ⟨item, hitem, hvalue⟩ := exists_mem_of_forall₂ hvalues hv
    exact ⟨item, hitem, hvalue, ih item hitem hvalue⟩
  | object members closed ih =>
    have hclosed := (value?_object_eq_some_iff.mp h).1
    obtain ⟨entries, -, rfl⟩ := (value?_object_eq_some_iff.mp h).2
    subst hclosed
    refine object members _ (Dict.increasing_insertAll .nil) fun e he => ?_
    obtain ⟨m, hm, hmeans⟩ := exists_mem_of_value? h he
    exact ⟨m, hm, hmeans, ih m hm hmeans.2⟩

/-- The members of what a tree means are in order. -/
theorem ordered_of_value? (h : t.value? = some v) : v.Ordered := by
  refine value?_induct (motive := fun _ v => v.Ordered) rfl (fun _ => rfl) (fun _ => rfl)
    (fun _ => rfl) (fun items values ih => ?_) (fun members values hvalues ih => ?_) h
  · refine Value.every_array.mpr ⟨rfl, fun v hv => ?_⟩
    obtain ⟨-, -, -, hordered⟩ := ih v hv
    exact hordered
  · refine Value.every_object.mpr ⟨decide_eq_true hvalues, fun e he => ?_⟩
    obtain ⟨-, -, -, hordered⟩ := ih e he
    exact hordered

theorem depth_le_of_value? (h : t.value? = some v) : v.depth ≤ t.depth := by
  refine value?_induct (motive := fun t v => v.depth ≤ t.depth) (Nat.le_refl _)
    (fun _ => Nat.le_refl _) (fun _ => Nat.le_refl _) (fun _ => Nat.le_refl _)
    (fun items values ih => ?_) (fun members values _ ih => ?_) h
  · refine Value.depth_array_le.mpr fun v hv => ?_
    obtain ⟨item, hitem, -, hdepth⟩ := ih v hv
    exact Nat.le_trans hdepth (depth_array_le.mp (Nat.le_refl (array items true).depth) item hitem)
  · refine Value.depth_object_le.mpr fun e he => ?_
    obtain ⟨m, hm, -, hdepth⟩ := ih e he
    exact Nat.le_trans hdepth (depth_object_le.mp (Nat.le_refl (object members true).depth) m hm)

/-- The numbers of a value are numbers of its tree. -/
theorem numbers_of_value? {p : Number → Bool} (h : t.value? = some v)
    (ht : t.every (ifNumber p) = true) : v.every (Value.ifNumber p) = true := by
  revert ht
  refine value?_induct
    (motive := fun t v => t.every (ifNumber p) = true → v.every (Value.ifNumber p) = true)
    (fun _ => rfl) (fun _ _ => rfl) (fun _ ht => ht) (fun _ _ => rfl)
    (fun items values ih ht => ?_) (fun members values _ ih ht => ?_) h
  · refine Value.every_array.mpr ⟨rfl, fun v hv => ?_⟩
    obtain ⟨item, hitem, -, hnumbers⟩ := ih v hv
    exact hnumbers ((every_array.mp ht).2 item hitem)
  · refine Value.every_object.mpr ⟨rfl, fun e he => ?_⟩
    obtain ⟨m, hm, -, hnumbers⟩ := ih e he
    exact hnumbers ((every_object.mp ht).2 m hm)

/-! ## The tree that spells a value out -/

theorem ofItems_eq_map (items : List Value) : ofItems items = items.map ofValue := by
  induction items with
  | nil => rfl
  | cons item items ih => rw [ofItems, ih, List.map_cons]

theorem ofMembers_eq_map (members : List (String × Value)) :
    ofMembers members = members.map fun m => (m.1, ofValue m.2) := by
  induction members with
  | nil => rfl
  | cons m members ih => rw [ofMembers, ih, List.map_cons]

/-- **A value that is spelled out is the value of the tree that spells it.** -/
theorem value?_ofValue (h : v.Ordered) : (ofValue v).value? = some v := by
  unfold Value.Ordered at h
  induction v with
  | null | bool _ | number _ | string _ => rfl
  | array items ih =>
    have hitems := (Value.every_array.mp h).2
    refine value?_array_eq_some_iff.mpr ⟨rfl, items, rfl, ?_⟩
    rw [ofItems_eq_map, List.forall₂_map_left_iff]
    exact List.forall₂_same.mpr fun item hitem => ih item hitem (hitems item hitem)
  | object members ih =>
    obtain ⟨hnames, hmembers⟩ := Value.every_object.mp h
    refine value?_object_eq_some_iff.mpr ⟨rfl, members, ?_, ?_⟩
    · rw [ofMembers_eq_map, List.forall₂_map_left_iff]
      exact List.forall₂_same.mpr fun m hm => ⟨rfl, ih m hm (hmembers m hm)⟩
    · have hsorted : Dict.Increasing members := of_decide_eq_true hnames
      rw [Dict.insertAll_of_increasing (by simpa using hsorted), List.nil_append]

theorem distinct_ofValue (h : v.Ordered) : (ofValue v).Distinct := by
  unfold Value.Ordered at h
  unfold Distinct
  induction v with
  | null | bool _ | number _ | string _ => rfl
  | array items ih =>
    have hitems := (Value.every_array.mp h).2
    rw [ofValue, ofItems_eq_map]
    refine every_array.mpr ⟨rfl, List.forall_mem_map.mpr fun item hitem => ?_⟩
    exact ih item hitem (hitems item hitem)
  | object members ih =>
    obtain ⟨hnames, hmembers⟩ := Value.every_object.mp h
    have hsorted : Dict.Increasing members := of_decide_eq_true hnames
    rw [ofValue, ofMembers_eq_map]
    refine every_object.mpr ⟨decide_eq_true ?_, List.forall_mem_map.mpr fun m hm => ?_⟩
    · simpa [List.map_map, Function.comp_def] using hsorted.nodup
    · exact ih m hm (hmembers m hm)

end Tree

end Json

end AccessLog
