import AccessLog.Text.Basic

/-!
# Slices

The rules of this library take a text apart as a list of characters. A reader of its UTF-8 form
works with byte offsets instead: it looks for the offset of a character, adds offsets up, and takes
the slice between two of them. That may go wrong in ways that a list does not know of, since an
offset may lie behind the end or inside of a character, and two may be in the wrong order.

`slice?` gives nothing then, and **it gives nothing only then** (`exists_slice?_iff`). Offsets come
from two searches, for the first character of a kind and for the character with a number. What they
give is the size of what stands before the character, and so a slice up to there or from there on is
known to be taken once the text is written as a front, a slice and a back (`slice?_append`).
-/

set_option autoImplicit false

namespace AccessLog.Text

variable {cs front part back : List Char} {start stop : Nat}

theorem byteSize_eq_zero_iff : byteSize cs = 0 ↔ cs = [] := by
  cases cs with
  | nil => simp
  | cons c cs =>
    have hc := c.utf8Size_pos
    simp
    omega

/-! ## Boundaries -/

/-- Whether a text may be cut at a byte offset: the bytes before it are a text of their own. -/
def IsBoundary (cs : List Char) (n : Nat) : Prop :=
  (⟨n⟩ : String.Pos.Raw).IsValid (String.ofList cs)

theorem isBoundary_iff {n : Nat} :
    IsBoundary cs n ↔ ∃ front back, cs = front ++ back ∧ byteSize front = n := by
  unfold IsBoundary
  rw [String.Pos.Raw.isValid_iff_exists_append]
  constructor
  · rintro ⟨front, back, htext, hplace⟩
    refine ⟨front.toList, back.toList, ?_, ?_⟩
    · rw [← String.toList_append, ← htext, String.toList_ofList]
    · rw [byteSize_toList]
      exact (congrArg String.Pos.Raw.byteIdx hplace).symm
  · rintro ⟨front, back, rfl, rfl⟩
    refine ⟨String.ofList front, String.ofList back, String.ofList_append, ?_⟩
    rw [← String.toList_ofList (l := front), byteSize_toList, String.ofList_toList]
    rfl

theorem isBoundary_append (front back : List Char) : IsBoundary (front ++ back) (byteSize front) :=
  isBoundary_iff.mpr ⟨front, back, rfl, rfl⟩

theorem IsBoundary.le_byteSize {n : Nat} (h : IsBoundary cs n) : n ≤ byteSize cs := by
  obtain ⟨front, back, rfl, rfl⟩ := isBoundary_iff.mp h
  simp

theorem isBoundary_toList {s : String} {n : Nat} :
    IsBoundary s.toList n ↔ (⟨n⟩ : String.Pos.Raw).IsValid s := by
  rw [IsBoundary, String.ofList_toList]

theorem IsBoundary.le_utf8ByteSize {s : String} {n : Nat} (h : IsBoundary s.toList n) :
    n ≤ s.utf8ByteSize := by
  rw [← byteSize_toList]
  exact h.le_byteSize

/-- A text is cut at its boundaries and nowhere else. -/
theorem splitAtByte_eq_some_iff {n : Nat} :
    splitAtByte n cs = some (front, back) ↔ cs = front ++ back ∧ byteSize front = n := by
  constructor
  · intro h
    fun_induction splitAtByte n cs generalizing front back with
    | case1 cs =>
      cases h
      exact ⟨rfl, rfl⟩
    | case2 n => cases h
    | case3 n c cs hfits ih =>
      obtain ⟨⟨front, back⟩, hcut, heq⟩ := Option.map_eq_some_iff.mp h
      cases heq
      obtain ⟨rfl, hsize⟩ := ih hcut
      exact ⟨rfl, by rw [byteSize_cons, hsize]; omega⟩
    | case4 n c cs hwide => cases h
  · rintro ⟨rfl, rfl⟩
    exact splitAtByte_append front back

/-! ## Slices -/

/-- The part of a text between two byte offsets, if they are boundaries in this order. -/
def slice? (cs : List Char) (start stop : Nat) : Option (List Char) := do
  let (front, _) ← splitAtByte stop cs
  let (_, part) ← splitAtByte start front
  return part

theorem slice?_eq_some_iff :
    slice? cs start stop = some part ↔ ∃ front back, cs = front ++ part ++ back ∧
      byteSize front = start ∧ start + byteSize part = stop := by
  simp only [slice?, Option.bind_eq_bind, Option.bind_eq_some_iff, Option.pure_def,
    Option.some.injEq, Prod.exists, splitAtByte_eq_some_iff]
  constructor
  · rintro ⟨_, back, ⟨rfl, rfl⟩, front, _, ⟨rfl, rfl⟩, rfl⟩
    exact ⟨front, back, rfl, rfl, by rw [byteSize_append]⟩
  · rintro ⟨front, back, rfl, rfl, rfl⟩
    exact ⟨front ++ part, back, ⟨rfl, byteSize_append _ _⟩, front, part, ⟨rfl, rfl⟩, rfl⟩

/-- **A slice is taken exactly between boundaries in the right order.** -/
theorem exists_slice?_iff :
    (∃ part, slice? cs start stop = some part) ↔
      start ≤ stop ∧ IsBoundary cs start ∧ IsBoundary cs stop := by
  constructor
  · rintro ⟨part, h⟩
    obtain ⟨front, back, rfl, rfl, rfl⟩ := slice?_eq_some_iff.mp h
    refine ⟨Nat.le_add_right _ _, ?_, ?_⟩
    · rw [List.append_assoc]
      exact isBoundary_append front (part ++ back)
    · rw [← byteSize_append]
      exact isBoundary_append (front ++ part) back
  · rintro ⟨hle, hstart, hstop⟩
    obtain ⟨front, back, hfront, rfl⟩ := isBoundary_iff.mp hstart
    obtain ⟨front', back', hfront', rfl⟩ := isBoundary_iff.mp hstop
    rw [hfront, List.append_eq_append_iff] at hfront'
    rcases hfront' with ⟨part, rfl, rfl⟩ | ⟨more, rfl, rfl⟩
    · refine ⟨part, slice?_eq_some_iff.mpr ⟨front, back', ?_, rfl, (byteSize_append ..).symm⟩⟩
      rw [hfront, List.append_assoc]
    · -- there is nothing between two boundaries at one offset
      have hmore : byteSize more = 0 := by
        rw [byteSize_append] at hle
        omega
      obtain rfl := byteSize_eq_zero_iff.mp hmore
      rw [List.append_nil] at hfront ⊢
      exact ⟨[], slice?_eq_some_iff.mpr ⟨front', back, by simpa using hfront, rfl, rfl⟩⟩

/-- The part between a front and a back. -/
theorem slice?_append (front part back : List Char) :
    slice? (front ++ (part ++ back)) (byteSize front) (byteSize front + byteSize part)
      = some part :=
  slice?_eq_some_iff.mpr ⟨front, back, (List.append_assoc ..).symm, rfl, rfl⟩

theorem slice?_front (front back : List Char) :
    slice? (front ++ back) 0 (byteSize front) = some front :=
  slice?_eq_some_iff.mpr ⟨[], back, rfl, rfl, Nat.zero_add _⟩

theorem slice?_back (front back : List Char) :
    slice? (front ++ back) (byteSize front) (byteSize (front ++ back)) = some back :=
  slice?_eq_some_iff.mpr ⟨front, [], (List.append_nil _).symm, rfl, (byteSize_append ..).symm⟩

/-- The part behind a character of one byte. -/
theorem slice?_between {c : Char} (hc : c.utf8Size = 1) (front part back : List Char) :
    slice? (front ++ c :: (part ++ back)) (byteSize front + 1) (byteSize front + 1 + byteSize part)
      = some part := by
  have hpart := slice?_append (front ++ [c]) part back
  rwa [List.append_assoc, byteSize_append, byteSize_cons, hc] at hpart

theorem slice?_behind {c : Char} (hc : c.utf8Size = 1) (front rest : List Char) :
    slice? (front ++ c :: rest) (byteSize front + 1) (byteSize (front ++ c :: rest))
      = some rest := by
  have hback := slice?_back (front ++ [c]) rest
  rwa [byteSize_append front, List.append_assoc, byteSize_cons, hc] at hback

/-- What follows a character, if the text begins with it. -/
def strip? (c : Char) (cs : List Char) : Option (Option (List Char)) :=
  if cs.head? = some c then some <$> slice? cs c.utf8Size (byteSize cs) else some none

theorem strip?_cons (c : Char) (cs : List Char) : strip? c (c :: cs) = some (some cs) := by
  have hback : slice? (c :: cs) c.utf8Size (byteSize (c :: cs)) = some cs := slice?_back [c] cs
  rw [strip?, List.head?_cons, if_pos rfl, hback]
  rfl

theorem strip?_eq_none {c : Char} (h : ∀ rest, cs ≠ c :: rest) : strip? c cs = some none := by
  refine if_neg fun hhead => ?_
  obtain ⟨rest, heq⟩ := List.head?_eq_some_iff.mp hhead
  exact h rest heq

/-! ## Searches -/

/-- The byte offset of the first character of a kind. -/
def offsetOf? (p : Char → Bool) : List Char → Option Nat
  | [] => none
  | c :: cs => if p c then some 0 else (offsetOf? p cs).map (c.utf8Size + ·)

/-- The byte offset of the character with a number, counted from zero. -/
def offsetAt? : Nat → List Char → Option Nat
  | _, [] => none
  | 0, _ :: _ => some 0
  | n + 1, c :: cs => (offsetAt? n cs).map (c.utf8Size + ·)

section

variable {p : Char → Bool} {c : Char}

theorem offsetOf?_append (hfront : ∀ c ∈ front, p c = false) (hc : p c = true)
    (rest : List Char) : offsetOf? p (front ++ c :: rest) = some (byteSize front) := by
  induction front with
  | nil => simp [offsetOf?, hc]
  | cons d front ih =>
    obtain ⟨hd, hfront⟩ := List.forall_mem_cons.mp hfront
    simp [offsetOf?, hd, ih hfront]

theorem offsetOf?_eq_none (h : ∀ c ∈ cs, p c = false) : offsetOf? p cs = none := by
  induction cs with
  | nil => rfl
  | cons c cs ih =>
    obtain ⟨hc, hcs⟩ := List.forall_mem_cons.mp h
    simp [offsetOf?, hc, ih hcs]

/-- A character is found behind all that stands before the first one. -/
theorem offsetOf?_char (hfront : c ∉ front) (rest : List Char) :
    offsetOf? (· == c) (front ++ c :: rest) = some (byteSize front) :=
  offsetOf?_append (fun _ hd => beq_false_of_ne (ne_of_mem_of_not_mem hd hfront))
    (beq_self_eq_true c) rest

theorem offsetOf?_char_none (h : c ∉ cs) : offsetOf? (· == c) cs = none :=
  offsetOf?_eq_none fun _ hd => beq_false_of_ne (ne_of_mem_of_not_mem hd h)

/-- A character is found behind as many as its number says. -/
theorem offsetAt?_eq (n : Nat) (cs : List Char) :
    offsetAt? n cs = if n < cs.length then some (byteSize (cs.take n)) else none := by
  induction n generalizing cs with
  | zero => cases cs <;> simp [offsetAt?]
  | succ n ih =>
    cases cs with
    | nil => simp [offsetAt?]
    | cons c cs =>
      simp only [offsetAt?, ih, List.length_cons, Nat.add_lt_add_iff_right, List.take_succ_cons,
        byteSize_cons]
      split <;> rfl

end

end AccessLog.Text
