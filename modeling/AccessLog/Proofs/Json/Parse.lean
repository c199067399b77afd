import AccessLog.Proofs.Json.Scalar
import AccessLog.Proofs.Json.Tree
import Mathlib.Data.List.DropRight

/-!
# What a text begins with

`Parses` says what piece of a document a text begins with and what follows it, with `room` for so
many containers inside of one another. It has no bound on steps: **the reader gives a tree and what
follows it exactly if the text begins with that tree** (`tree_eq_some_iff`), as long as its own
bound is large enough for the text.

What is wanted of the reader is then said by induction on derivations: what stands behind a piece
does not change how it is read (`Parses.append`), the room that is needed is the depth of what is
read (`Parses.depth_le`, `Parses.of_depth_le`), and the integers that are read fit 64 bits
(`Parses.inRange`).
-/

set_option autoImplicit false

namespace AccessLog.Json

namespace Reader

/-- A piece of a document: a value, or what stands between the brackets of an array or the braces of
an object, with the closing one. -/
inductive Piece where
  | value (t : Tree)
  | items (items : List Tree)
  | members (members : List (String × Tree))

/-- A text begins with a piece and goes on with the rest. -/
inductive Parses : Nat → List Char → Piece → List Char → Prop where
  | scalar {room cs t rest} (h : scalar? (skip cs) = some (t, rest)) : Parses room cs (.value t) rest
  | emptyArray {room cs inside rest} (hopen : skip cs = '[' :: inside)
    (hclose : skip inside = ']' :: rest) : Parses (room + 1) cs (.value (.list [])) rest
  | array {room cs inside items rest} (hopen : skip cs = '[' :: inside)
    (hitems : Parses room (skip inside) (.items items) rest) :
    Parses (room + 1) cs (.value (.list items)) rest
  | emptyObject {room cs inside rest} (hopen : skip cs = '{' :: inside)
    (hclose : skip inside = '}' :: rest) : Parses (room + 1) cs (.value (.record [])) rest
  | object {room cs inside members rest} (hopen : skip cs = '{' :: inside)
    (hmembers : Parses room (skip inside) (.members members) rest) :
    Parses (room + 1) cs (.value (.record members)) rest
  | lastItem {room cs item behind rest} (hitem : Parses room cs (.value item) behind)
    (hclose : skip behind = ']' :: rest) : Parses room cs (.items [item]) rest
  | nextItem {room cs item behind more items rest} (hitem : Parses room cs (.value item) behind)
    (hcomma : skip behind = ',' :: more) (hitems : Parses room more (.items items) rest) :
    Parses room cs (.items (item :: items)) rest
  | lastMember {room cs text bound name colon value t behind rest} (hopen : skip cs = '"' :: text)
    (hname : string? bound text = some (name, colon)) (hcolon : skip colon = ':' :: value)
    (hvalue : Parses room value (.value t) behind) (hclose : skip behind = '}' :: rest) :
    Parses room cs (.members [(String.ofList name, t)]) rest
  | nextMember {room cs text bound name colon value t behind more members rest}
    (hopen : skip cs = '"' :: text) (hname : string? bound text = some (name, colon))
    (hcolon : skip colon = ':' :: value) (hvalue : Parses room value (.value t) behind)
    (hcomma : skip behind = ',' :: more) (hmembers : Parses room more (.members members) rest) :
    Parses room cs (.members ((String.ofList name, t) :: members)) rest

variable {room : Nat} {cs rest : List Char} {p : Piece}

/-! ## Blanks -/

theorem skip_append {c : Char} {tail : List Char} (h : skip cs = c :: tail) (more : List Char) :
    skip (cs ++ more) = c :: (tail ++ more) := by
  unfold skip at h ⊢
  rw [List.dropWhile_append, h]
  rfl

theorem skip_append_of_blank (h : skip cs = []) (more : List Char) :
    skip (cs ++ more) = skip more := by
  unfold skip at h ⊢
  rw [List.dropWhile_append, h]
  rfl

theorem length_skip (cs : List Char) : (skip cs).length ≤ cs.length :=
  (List.dropWhile_sublist _).length_le

theorem length_of_skip {c : Char} {tail : List Char} (h : skip cs = c :: tail) :
    tail.length < cs.length := by
  have hlength := length_skip cs
  rw [h] at hlength
  exact hlength

/-! ## What the reader gives -/

/-- What it means that the reader reads a piece. -/
def Piece.IsRead (bound room : Nat) (cs rest : List Char) : Piece → Prop
  | .value t => tree bound room cs = (t, some rest)
  | .items ts => Reader.items bound room cs = (ts, some rest)
  | .members ms => Reader.members bound room cs = (ms, some rest)

section

variable {bound : Nat}

theorem parses_of_tree {t : Tree} (h : tree (bound + 1) room cs = (t, some rest))
    (ih : ∀ {p room cs rest}, p.IsRead bound room cs rest → Parses room cs p rest) :
    Parses room cs (.value t) rest := by
  unfold tree at h
  split at h
  · rename_i inside hopen
    cases room with
    | zero => simp at h
    | succ room =>
      simp only at h
      split at h
      · rename_i hclose
        cases h
        exact .emptyArray hopen hclose
      · obtain ⟨rfl, hrest⟩ := Prod.mk.inj h
        rw [hrest]
        exact .array hopen (ih (p := .items _) (Prod.ext rfl hrest))
  · rename_i inside hopen
    cases room with
    | zero => simp at h
    | succ room =>
      simp only at h
      split at h
      · rename_i hclose
        cases h
        exact .emptyObject hopen hclose
      · obtain ⟨rfl, hrest⟩ := Prod.mk.inj h
        rw [hrest]
        exact .object hopen (ih (p := .members _) (Prod.ext rfl hrest))
  · split at h
    · rename_i hscalar
      cases h
      exact .scalar hscalar
    · cases h

theorem parses_of_items {ts : List Tree} (h : items (bound + 1) room cs = (ts, some rest))
    (ih : ∀ {p room cs rest}, p.IsRead bound room cs rest → Parses room cs p rest) :
    Parses room cs (.items ts) rest := by
  unfold items at h
  split at h
  · cases h
  · rename_i item behind hitem
    have hitem := ih (p := .value item) hitem
    split at h
    · rename_i hclose
      cases h
      exact .lastItem hitem hclose
    · rename_i more hcomma
      obtain ⟨rfl, hrest⟩ := Prod.mk.inj h
      exact .nextItem hitem hcomma (ih (p := .items _) (Prod.ext rfl hrest))
    · cases h

theorem parses_of_members {ms : List (String × Tree)}
    (h : members (bound + 1) room cs = (ms, some rest))
    (ih : ∀ {p room cs rest}, p.IsRead bound room cs rest → Parses room cs p rest) :
    Parses room cs (.members ms) rest := by
  unfold members at h
  split at h
  · rename_i text hopen
    split at h
    · cases h
    · rename_i name colon hname
      simp only at h
      split at h
      · rename_i value hcolon
        split at h
        · cases h
        · rename_i t behind hvalue
          have hvalue := ih (p := .value t) hvalue
          split at h
          · rename_i hclose
            cases h
            exact .lastMember hopen hname hcolon hvalue hclose
          · rename_i more hcomma
            obtain ⟨rfl, hrest⟩ := Prod.mk.inj h
            exact .nextMember hopen hname hcolon hvalue hcomma
              (ih (p := .members _) (Prod.ext rfl hrest))
          · cases h
      · cases h
  · cases h

/-- Whatever the reader reads to its end is what the text begins with. -/
theorem Piece.IsRead.parses (h : p.IsRead bound room cs rest) : Parses room cs p rest := by
  induction bound generalizing p room cs rest with
  | zero => cases p <;> simp [IsRead, tree, Reader.items, Reader.members] at h
  | succ bound ih =>
    cases p with
    | value t => exact parses_of_tree h ih
    | items ts => exact parses_of_items h ih
    | members ms => exact parses_of_members h ih

end

theorem Parses.length_le (h : Parses room cs p rest) : rest.length ≤ cs.length := by
  induction h with
  | scalar hscalar => exact Nat.le_trans (length_of_scalar? hscalar) (length_skip _)
  | emptyArray hopen hclose | emptyObject hopen hclose =>
    exact (Nat.lt_trans (length_of_skip hclose) (length_of_skip hopen)).le
  | array hopen _ ih | object hopen _ ih =>
    exact Nat.le_trans ih (Nat.le_trans (length_skip _) (length_of_skip hopen).le)
  | lastItem _ hclose ih => exact Nat.le_trans (length_of_skip hclose).le ih
  | nextItem _ hcomma _ ih ihItems =>
    exact Nat.le_trans ihItems (Nat.le_trans (length_of_skip hcomma).le ih)
  | lastMember hopen hname hcolon _ hclose ih =>
    have hopen := length_of_skip hopen
    have hname := length_of_string? hname
    have hcolon := length_of_skip hcolon
    have hclose := length_of_skip hclose
    omega
  | nextMember hopen hname hcolon _ hcomma _ ih ihMembers =>
    have hopen := length_of_skip hopen
    have hname := length_of_string? hname
    have hcolon := length_of_skip hcolon
    have hcomma := length_of_skip hcomma
    omega

/-- A bound on the steps in which a piece is read from a text. -/
def Piece.steps (cs : List Char) : Piece → Nat
  | .value _ => 2 * cs.length + 1
  | .items _ | .members _ => 2 * cs.length + 2

theorem skip_skip (cs : List Char) : skip (skip cs) = skip cs := List.dropWhile_idempotent _ _

/-- No piece begins with what closes a container. -/
theorem Parses.head_ne (h : Parses room cs p rest) :
    ∀ {tail}, skip cs ≠ ']' :: tail ∧ skip cs ≠ '}' :: tail := by
  induction h with
  | scalar hscalar =>
    intro tail
    constructor
    · intro heq
      rw [heq] at hscalar
      cases hscalar
    · intro heq
      rw [heq] at hscalar
      cases hscalar
  | emptyArray hopen _ | array hopen _ _ | emptyObject hopen _ | object hopen _ _
  | lastMember hopen _ _ _ _ _ | nextMember hopen _ _ _ _ _ _ _ => simp [hopen]
  | lastItem _ _ ih | nextItem _ _ _ ih _ => exact ih

section

variable {bound : Nat} {inside : List Char}

theorem tree_of_scalar? {t : Tree} (h : scalar? (skip cs) = some (t, rest)) :
    tree (bound + 1) room cs = (t, some rest) := by
  unfold tree
  split
  · rename_i hopen
    rw [hopen] at h
    cases h
  · rename_i hopen
    rw [hopen] at h
    cases h
  · rw [h]

theorem tree_of_items {ts : List Tree} (hopen : skip cs = '[' :: inside)
    (hne : ∀ {tail}, skip inside ≠ ']' :: tail)
    (hitems : items bound room (skip inside) = (ts, some rest)) :
    tree (bound + 1) (room + 1) cs = (.list ts, some rest) := by
  unfold tree
  simp only [hopen, hitems]
  rfl

theorem tree_of_members {ms : List (String × Tree)} (hopen : skip cs = '{' :: inside)
    (hne : ∀ {tail}, skip inside ≠ '}' :: tail)
    (hmembers : members bound room (skip inside) = (ms, some rest)) :
    tree (bound + 1) (room + 1) cs = (.record ms, some rest) := by
  unfold tree
  simp only [hopen, hmembers]
  rfl

end

/-- What a text begins with is read, if there are enough steps. -/
theorem Parses.isRead (h : Parses room cs p rest) {bound : Nat} (hbound : p.steps cs ≤ bound) :
    p.IsRead bound room cs rest := by
  obtain ⟨bound, rfl⟩ : ∃ b, bound = b + 1 := by
    refine ⟨bound - 1, ?_⟩
    cases p <;> simp only [Piece.steps] at hbound <;> omega
  -- a step is spent on a container and one on what is inside of it, and each takes a character
  induction h generalizing bound with
  | scalar hscalar => exact tree_of_scalar? hscalar
  | emptyArray hopen hclose | emptyObject hopen hclose =>
    simp [Piece.IsRead, tree, hopen, hclose]
  | @array _ cs inside _ _ hopen hitems ih =>
    have hlength := length_of_skip hopen
    have hskip := length_skip inside
    simp only [Piece.steps] at hbound ih
    obtain ⟨bound, rfl⟩ : ∃ b, bound = b + 1 := ⟨bound - 1, by omega⟩
    exact tree_of_items hopen (skip_skip inside ▸ hitems.head_ne.1) (ih bound (by omega))
  | @object _ cs inside _ _ hopen hmembers ih =>
    have hlength := length_of_skip hopen
    have hskip := length_skip inside
    simp only [Piece.steps] at hbound ih
    obtain ⟨bound, rfl⟩ : ∃ b, bound = b + 1 := ⟨bound - 1, by omega⟩
    exact tree_of_members hopen (skip_skip inside ▸ hmembers.head_ne.2) (ih bound (by omega))
  | lastItem hitem hclose ih =>
    simp only [Piece.steps] at hbound ih
    obtain ⟨bound, rfl⟩ : ∃ b, bound = b + 1 := ⟨bound - 1, by omega⟩
    have hread := ih bound (by omega)
    simp only [Piece.IsRead] at hread
    simp only [Piece.IsRead, items, hread, hclose]
  | nextItem hitem hcomma hitems ih ihItems =>
    have hlength := length_of_skip hcomma
    have hbehind := hitem.length_le
    simp only [Piece.steps] at hbound ih ihItems
    obtain ⟨bound, rfl⟩ : ∃ b, bound = b + 1 := ⟨bound - 1, by omega⟩
    have hread := ih bound (by omega)
    have hreadItems := ihItems bound (by omega)
    simp only [Piece.IsRead] at hread hreadItems
    rw [Piece.IsRead, items]
    simp only [hread, hcomma, hreadItems]
  | @lastMember _ cs text _ name colon _ _ _ _ hopen hname hcolon hvalue hclose ih =>
    have hopenLength := length_of_skip hopen
    have hnameLength := length_of_string? hname
    have hcolonLength := length_of_skip hcolon
    simp only [Piece.steps] at hbound ih
    obtain ⟨bound, rfl⟩ : ∃ b, bound = b + 1 := ⟨bound - 1, by omega⟩
    have hread := ih bound (by omega)
    simp only [Piece.IsRead] at hread
    rw [Piece.IsRead, members]
    simp only [hopen, string?_of_length_lt hname hopenLength, hcolon, hread, hclose]
  | @nextMember _ cs text _ name colon _ _ _ _ _ _ hopen hname hcolon hvalue hcomma hmembers ih
      ihMembers =>
    have hopenLength := length_of_skip hopen
    have hnameLength := length_of_string? hname
    have hcolonLength := length_of_skip hcolon
    have hcommaLength := length_of_skip hcomma
    have hbehind := hvalue.length_le
    simp only [Piece.steps] at hbound ih ihMembers
    obtain ⟨bound, rfl⟩ : ∃ b, bound = b + 1 := ⟨bound - 1, by omega⟩
    have hread := ih bound (by omega)
    have hreadMembers := ihMembers bound (by omega)
    simp only [Piece.IsRead] at hread hreadMembers
    rw [Piece.IsRead, members]
    simp only [hopen, string?_of_length_lt hname hopenLength, hcolon, hread, hcomma, hreadMembers]

/-- **The reader reads what the text begins with.** -/
theorem tree_eq_some_iff {bound : Nat} {t : Tree} (hbound : 2 * cs.length < bound) :
    tree bound room cs = (t, some rest) ↔ Parses room cs (.value t) rest :=
  ⟨Piece.IsRead.parses (p := .value t), fun h => h.isRead hbound⟩

/-! ## What stands behind -/

/-- There is something in front. -/
theorem Parses.exists_cons (h : Parses room cs p rest) : ∃ c tail, skip cs = c :: tail := by
  induction h with
  | scalar hscalar =>
    rename_i cs _ _
    cases hcs : skip cs with
    | nil =>
      rw [hcs] at hscalar
      cases hscalar
    | cons c tail => exact ⟨c, tail, rfl⟩
  | emptyArray hopen _ | array hopen _ _ | emptyObject hopen _ | object hopen _ _
  | lastMember hopen _ _ _ _ _ | nextMember hopen _ _ _ _ _ _ _ => exact ⟨_, _, hopen⟩
  | lastItem _ _ ih | nextItem _ _ _ ih _ => exact ih

theorem Parses.skip_append (h : Parses room (skip cs) p rest) (more : List Char) :
    skip (cs ++ more) = skip cs ++ more := by
  obtain ⟨c, tail, hskip⟩ := h.exists_cons
  rw [skip_skip] at hskip
  rw [Reader.skip_append hskip, hskip, List.cons_append]

/-- Blanks in front may be left out. -/
theorem Parses.trimmed (h : Parses room cs p rest) : Parses room (skip cs) p rest := by
  induction h with
  | scalar hscalar => exact .scalar (by rwa [skip_skip])
  | emptyArray hopen hclose => exact .emptyArray (by rwa [skip_skip]) hclose
  | emptyObject hopen hclose => exact .emptyObject (by rwa [skip_skip]) hclose
  | array hopen hitems _ => exact .array (by rwa [skip_skip]) hitems
  | object hopen hmembers _ => exact .object (by rwa [skip_skip]) hmembers
  | lastItem _ hclose ih => exact .lastItem ih hclose
  | nextItem _ hcomma hitems ih _ => exact .nextItem ih hcomma hitems
  | lastMember hopen hname hcolon hvalue hclose _ =>
    exact .lastMember (by rwa [skip_skip]) hname hcolon hvalue hclose
  | nextMember hopen hname hcolon hvalue hcomma hmembers _ _ =>
    exact .nextMember (by rwa [skip_skip]) hname hcolon hvalue hcomma hmembers

/-- **What stands behind a piece does not change how it is read**, unless it goes on with a number. -/
theorem Parses.append (h : Parses room cs p rest) {more : List Char} (hmore : EndsNumeral more) :
    Parses room (cs ++ more) p (rest ++ more) := by
  induction h with
  | scalar hscalar =>
    rename_i cs t rest
    have hself : Parses room (skip cs) (.value t) rest := .scalar ((skip_skip cs).symm ▸ hscalar)
    refine .scalar ?_
    rw [hself.skip_append]
    exact scalar?_append hmore hscalar
  | emptyArray hopen hclose =>
    exact .emptyArray (Reader.skip_append hopen more) (Reader.skip_append hclose more)
  | emptyObject hopen hclose =>
    exact .emptyObject (Reader.skip_append hopen more) (Reader.skip_append hclose more)
  | array hopen hitems ih =>
    exact .array (Reader.skip_append hopen more) (hitems.skip_append more ▸ ih)
  | object hopen hmembers ih =>
    exact .object (Reader.skip_append hopen more) (hmembers.skip_append more ▸ ih)
  | lastItem _ hclose ih => exact .lastItem ih (Reader.skip_append hclose more)
  | nextItem _ hcomma _ ih ihItems => exact .nextItem ih (Reader.skip_append hcomma more) ihItems
  | lastMember hopen hname hcolon _ hclose ih =>
    exact .lastMember (Reader.skip_append hopen more) (string?_append hname more)
      (Reader.skip_append hcolon more) ih (Reader.skip_append hclose more)
  | nextMember hopen hname hcolon _ hcomma _ ih ihMembers =>
    exact .nextMember (Reader.skip_append hopen more) (string?_append hname more)
      (Reader.skip_append hcolon more) ih (Reader.skip_append hcomma more) ihMembers

/-! ## What is read -/

/-- A property of the values of a piece. -/
def Piece.All (P : Tree → Prop) : Piece → Prop
  | .value t => P t
  | .items ts => ∀ t ∈ ts, P t
  | .members ms => ∀ m ∈ ms, P m.2

theorem depth_of_scalar? {t : Tree} (h : scalar? cs = some (t, rest)) : t.depth = 0 := by
  rw [scalar?_eq_some_iff] at h
  rcases h with ⟨_, _, _, -, -, rfl⟩ | ⟨word, hmem, -⟩ | ⟨x, -, rfl⟩
  · rfl
  · simp only [words, List.mem_cons, List.not_mem_nil, or_false, Prod.mk.injEq] at hmem
    rcases hmem with ⟨-, rfl⟩ | ⟨-, rfl⟩ | ⟨-, rfl⟩ <;> rfl
  · rfl

/-- **What is read is no deeper than there is room.** -/
theorem Parses.depth_le (h : Parses room cs p rest) : p.All (·.depth ≤ room) := by
  induction h with
  | scalar hscalar => exact (depth_of_scalar? hscalar).le.trans (Nat.zero_le _)
  | emptyArray _ _ => exact Tree.depth_array_le.mpr (by simp)
  | emptyObject _ _ => exact Tree.depth_object_le.mpr (by simp)
  | array _ _ ih => exact Tree.depth_array_le.mpr ih
  | object _ _ ih => exact Tree.depth_object_le.mpr ih
  | lastItem _ _ ih => exact List.forall_mem_singleton.mpr ih
  | nextItem _ _ _ ih ihItems => exact List.forall_mem_cons.mpr ⟨ih, ihItems⟩
  | lastMember _ _ _ _ _ ih => exact List.forall_mem_singleton.mpr ih
  | nextMember _ _ _ _ _ _ ih ihMembers => exact List.forall_mem_cons.mpr ⟨ih, ihMembers⟩

/-- **The room that is needed is the depth of what is read.** -/
theorem Parses.of_depth_le (h : Parses room cs p rest) {room' : Nat}
    (hdepth : p.All (·.depth ≤ room')) : Parses room' cs p rest := by
  induction h generalizing room' with
  | scalar hscalar => exact .scalar hscalar
  | emptyArray hopen hclose =>
    cases room' with
    | zero => cases hdepth
    | succ room' => exact .emptyArray hopen hclose
  | emptyObject hopen hclose =>
    cases room' with
    | zero => cases hdepth
    | succ room' => exact .emptyObject hopen hclose
  | array hopen _ ih =>
    cases room' with
    | zero => cases hdepth
    | succ room' => exact .array hopen (ih (Tree.depth_array_le.mp hdepth))
  | object hopen _ ih =>
    cases room' with
    | zero => cases hdepth
    | succ room' => exact .object hopen (ih (Tree.depth_object_le.mp hdepth))
  | lastItem _ hclose ih => exact .lastItem (ih (hdepth _ List.mem_cons_self)) hclose
  | nextItem _ hcomma _ ih ihItems =>
    obtain ⟨hitem, hitems⟩ := List.forall_mem_cons.mp hdepth
    exact .nextItem (ih hitem) hcomma (ihItems hitems)
  | lastMember hopen hname hcolon _ hclose ih =>
    exact .lastMember hopen hname hcolon (ih (hdepth _ List.mem_cons_self)) hclose
  | nextMember hopen hname hcolon _ hcomma _ ih ihMembers =>
    obtain ⟨hmember, hmembers⟩ := List.forall_mem_cons.mp hdepth
    exact .nextMember hopen hname hcolon (ih hmember) hcomma (ihMembers hmembers)

/-- Whether a number is a double or an integer of 64 bits. -/
def inRange : Number → Bool
  | .int n => decide (InRange n)
  | .float _ => true

/-- What holds of every number that is read holds of the numbers in a tree. -/
theorem Parses.numbers {q : Number → Bool}
    (hq : ∀ {cs rest : List Char} {x : Number}, number? cs = some (x, rest) → q x = true)
    (h : Parses room cs p rest) : p.All fun t => t.every (Tree.ifNumber q) = true := by
  induction h with
  | scalar hscalar =>
    rw [scalar?_eq_some_iff] at hscalar
    rcases hscalar with ⟨_, _, _, -, -, rfl⟩ | ⟨word, hmem, -⟩ | ⟨x, hx, rfl⟩
    · rfl
    · simp only [words, List.mem_cons, List.not_mem_nil, or_false, Prod.mk.injEq] at hmem
      rcases hmem with ⟨-, rfl⟩ | ⟨-, rfl⟩ | ⟨-, rfl⟩ <;> rfl
    · exact hq hx
  | emptyArray _ _ | emptyObject _ _ => rfl
  | array _ _ ih => exact Tree.every_array.mpr ⟨rfl, ih⟩
  | object _ _ ih => exact Tree.every_object.mpr ⟨rfl, ih⟩
  | lastItem _ _ ih => exact List.forall_mem_singleton.mpr ih
  | nextItem _ _ _ ih ihItems => exact List.forall_mem_cons.mpr ⟨ih, ihItems⟩
  | lastMember _ _ _ _ _ ih => exact List.forall_mem_singleton.mpr ih
  | nextMember _ _ _ _ _ _ ih ihMembers => exact List.forall_mem_cons.mpr ⟨ih, ihMembers⟩

/-- **The integers that are read fit 64 bits.** -/
theorem Parses.inRange (h : Parses room cs p rest) :
    p.All fun t => t.every (Tree.ifNumber inRange) = true := by
  refine h.numbers fun {cs rest x} hx => ?_
  cases x with
  | int n => exact decide_eq_true (number?_eq_int_iff.mp hx).2.2
  | float x => rfl

end Reader

/-! ## Documents -/

open Reader

/-- **A document is read to its end exactly if its text is a value and nothing else.** -/
theorem Document.read_eq_iff {source : String} {t : Tree} :
    Document.read source = ⟨t, true⟩ ↔
      ∃ rest, Parses maxDepth source.toList (.value t) rest ∧ skip rest = [] := by
  have hbound : 2 * source.toList.length < 2 * source.toList.length + 2 := by omega
  simp only [← tree_eq_some_iff hbound, Document.read]
  generalize tree (2 * source.toList.length + 2) maxDepth source.toList = found
  obtain ⟨root, rest?⟩ := found
  cases rest? with
  | none => simp
  | some rest => simp [and_comm]

theorem endsNumeral_of_not_digit {c : Char} (h : c = ',' ∨ c = ']' ∨ c = '}') (rest : List Char) :
    EndsNumeral (c :: rest) := by
  rcases h with rfl | rfl | rfl <;> simp [EndsNumeral]

/-- Documents with commas between them are the elements of an array. -/
theorem parses_items {ds : List String} {ts : List Tree} (hne : ds ≠ []) {room : Nat}
    {rest : List Char} (h : List.Forall₂ (fun d t => Document.read d = ⟨t, true⟩) ds ts)
    (hdepth : ∀ t ∈ ts, t.depth ≤ room) :
    Parses room ((",".intercalate ds).toList ++ ']' :: rest) (.items ts) rest := by
  induction h with
  | nil => exact absurd rfl hne
  | @cons d t ds ts hread hreads ih =>
    obtain ⟨behind, hparses, hblank⟩ := Document.read_eq_iff.mp hread
    obtain ⟨ht, hts⟩ := List.forall_mem_cons.mp hdepth
    have hparses : Parses room d.toList (.value t) behind := hparses.of_depth_le ht
    cases hreads with
    | nil =>
      rw [String.intercalate_singleton]
      refine .lastItem (hparses.append (endsNumeral_of_not_digit (.inr (.inl rfl)) _)) ?_
      rw [skip_append_of_blank hblank]
      rfl
    | cons hnext hrest =>
      rw [String.intercalate_cons_cons, String.toList_append, String.toList_append, List.append_assoc,
        List.append_assoc]
      refine .nextItem (hparses.append (endsNumeral_of_not_digit (.inl rfl) _)) ?_
        (ih (List.cons_ne_nil _ _) hts)
      rw [skip_append_of_blank hblank]
      rfl

/-- **An array of documents is read as the documents are**, if it is not too deep. -/
theorem Document.read_array {ds : List String} {ts : List Tree}
    (h : List.Forall₂ (fun d t => Document.read d = ⟨t, true⟩) ds ts)
    (hdepth : ∀ t ∈ ts, t.depth < maxDepth) :
    Document.read ("[" ++ ",".intercalate ds ++ "]") = ⟨.list ts, true⟩ := by
  have htext : ("[" ++ ",".intercalate ds ++ "]").toList
      = '[' :: ((",".intercalate ds).toList ++ [']']) := by
    simp [String.toList_append]
  refine Document.read_eq_iff.mpr ⟨[], ?_, rfl⟩
  rw [htext]
  cases h with
  | nil => exact .emptyArray rfl rfl
  | cons hread hreads =>
    have hitems : Parses 126 ((",".intercalate _).toList ++ [']']) (.items _) [] :=
      parses_items (List.cons_ne_nil _ _) (.cons hread hreads) fun t ht =>
        Nat.le_of_lt_succ (hdepth t ht)
    exact .array rfl hitems.trimmed

/-- What a document means is what its text means. -/
theorem Value.read?_eq_some_iff {source : String} {v : Value} :
    Value.read? source = some v ↔
      ∃ t, Document.read source = ⟨t, true⟩ ∧ t.value? = some v := by
  unfold Value.read? Document.value?
  constructor
  · intro h
    split at h
    · rename_i hended
      refine ⟨(Document.read source).root, ?_, h⟩
      rw [← hended]
    · cases h
  · rintro ⟨t, hread, hv⟩
    rw [hread]
    exact hv

end AccessLog.Json
