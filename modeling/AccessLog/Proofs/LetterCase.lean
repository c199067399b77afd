import AccessLog.Text.Basic
import Mathlib.Data.List.Forall2

/-!
# Names in another case

Names are compared by writing both in lower case first (`Text.sameUpToCase`). What the comparison
is meant to say does not speak of lower case at all: **the names have the same characters, except
that a capital letter of one may be the small letter of the other** (`Text.SameLetters`). The two
agree (`sameUpToCase_iff`), so the rest of the theory can take names apart letter by letter.

Only the letters of ASCII have two forms here. A character that some other rule writes as an ASCII
letter, such as the Kelvin sign, is the same letter as nothing but itself.
-/

set_option autoImplicit false

namespace AccessLog.Text

/-! ## Letters -/

/-- The same character, or the capital and the small form of one ASCII letter. -/
def SameLetter (c d : Char) : Prop :=
  c = d ∨ (c.isUpper = true ∧ d.toNat = c.toNat + 32)
    ∨ (d.isUpper = true ∧ c.toNat = d.toNat + 32)

instance (c d : Char) : Decidable (SameLetter c d) :=
  inferInstanceAs (Decidable (_ ∨ _ ∨ _))

theorem isUpper_iff {c : Char} : c.isUpper = true ↔ 65 ≤ c.toNat ∧ c.toNat ≤ 90 := by
  show decide (65 ≤ c.val ∧ c.val ≤ 90) = true ↔ _
  simp [UInt32.le_iff_toNat_le, ← Char.toNat_val]

/-- The capital letters lie 32 in front of the small ones. -/
theorem toNat_toLower (c : Char) :
    c.toLower.toNat = if c.isUpper = true then c.toNat + 32 else c.toNat := by
  unfold Char.toLower
  split <;> rename_i hrange
  · have hupper : c.isUpper = true := decide_eq_true hrange
    have hbound := isUpper_iff.mp hupper
    rw [if_pos hupper, ← Char.toNat_val, UInt32.toNat_add, Char.toNat_val]
    change (c.toNat + 32) % 2 ^ 32 = c.toNat + 32
    omega
  · have hnot : ¬ c.isUpper = true := fun h => hrange (of_decide_eq_true h)
    rw [if_neg hnot]

/-- Characters are the same letter exactly when they are the same in lower case. -/
theorem toLower_eq_toLower_iff {c d : Char} : c.toLower = d.toLower ↔ SameLetter c d := by
  rw [← Char.toNat_inj, SameLetter, ← Char.toNat_inj, toNat_toLower, toNat_toLower]
  simp only [isUpper_iff]
  split <;> split <;> omega

/-! ## Names -/

/-- Names that differ in the case of letters at most. -/
def SameLetters (a b : String) : Prop := List.Forall₂ SameLetter a.toList b.toList

/-- **Comparing in lower case is comparing letters.** -/
theorem sameUpToCase_iff {a b : String} : sameUpToCase a b = true ↔ SameLetters a b := by
  unfold sameUpToCase lower SameLetters
  rw [beq_iff_eq, String.ofList_inj, ← List.forall₂_eq_eq_eq, List.forall₂_map_left_iff,
    List.forall₂_map_right_iff]
  simp only [toLower_eq_toLower_iff]

instance (a b : String) : Decidable (SameLetters a b) := decidable_of_iff _ sameUpToCase_iff

theorem lower_eq_lower_iff {a b : String} : lower a = lower b ↔ SameLetters a b := by
  rw [← sameUpToCase_iff, sameUpToCase, beq_iff_eq]

theorem SameLetters.refl (a : String) : SameLetters a a := lower_eq_lower_iff.mp rfl

theorem SameLetters.symm {a b : String} (h : SameLetters a b) : SameLetters b a :=
  lower_eq_lower_iff.mp (lower_eq_lower_iff.mpr h).symm

theorem SameLetters.trans {a b c : String} (h : SameLetters a b) (h' : SameLetters b c) :
    SameLetters a c :=
  lower_eq_lower_iff.mp ((lower_eq_lower_iff.mpr h).trans (lower_eq_lower_iff.mpr h'))

/-- Every character of a name is a letter of each other spelling of it. -/
theorem SameLetters.exists_sameLetter {a b : String} (h : SameLetters a b) {c : Char}
    (hc : c ∈ a.toList) : ∃ d ∈ b.toList, SameLetter d c := by
  have hchars : a.toList.map Char.toLower = b.toList.map Char.toLower :=
    String.ofList_inj.mp (lower_eq_lower_iff.mpr h)
  have hmem : c.toLower ∈ b.toList.map Char.toLower := hchars ▸ List.mem_map_of_mem hc
  obtain ⟨d, hd, heq⟩ := List.mem_map.mp hmem
  exact ⟨d, hd, toLower_eq_toLower_iff.mp heq⟩

/-- No spelling of a name in ASCII has a character outside it. -/
theorem SameLetters.ascii {a b : String} (h : SameLetters a b)
    (hb : ∀ c ∈ b.toList, c.toNat < 128) : ∀ c ∈ a.toList, c.toNat < 128 := by
  intro c hc
  obtain ⟨d, hd, hsame⟩ := h.exists_sameLetter hc
  have hbound := hb d hd
  simp only [SameLetter, isUpper_iff, ← Char.toNat_inj] at hsame
  omega

theorem sameLetters_lower (a : String) : SameLetters a (lower a) := by
  unfold SameLetters lower
  rw [String.toList_ofList, List.forall₂_map_right_iff, List.forall₂_same]
  intro c _
  by_cases hupper : c.isUpper = true
  · exact .inr (.inl ⟨hupper, by rw [toNat_toLower, if_pos hupper]⟩)
  · exact .inl (by rw [← Char.toNat_inj, toNat_toLower, if_neg hupper])

/-- A name without capital letters is lower case already. -/
theorem lower_eq_self {a : String} (h : a.toList.any Char.isUpper = false) : lower a = a := by
  have hsmall : ∀ c ∈ a.toList, c.toLower = c := by
    intro c hc
    have hnot : ¬ c.isUpper = true := List.any_eq_false.mp h c hc
    rw [← Char.toNat_inj, toNat_toLower, if_neg hnot]
  rw [lower, List.map_congr_left hsmall, List.map_id', String.ofList_toList]

end AccessLog.Text
