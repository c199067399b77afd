import AccessLog.Text.Basic
import Mathlib.Data.List.TakeWhile
import Mathlib.Tactic.IntervalCases

/-!
# Decimal numerals

The numeral of a number and the number of a numeral. Every number has one numeral, and reading it
gives the number back; the other way round a row of digits is the numeral of its value only if it
does not begin with a zero, or is nothing else (`toDigits_ofDigitChars`).

A numeral in front of other text is found by taking digits as long as there are any, and is found
whole if the text behind it does not go on with one (`takeWhile_append`, `dropWhile_append`).
-/

set_option autoImplicit false

namespace AccessLog

/-! ## The longest front part -/

section

variable {α : Type} {p : α → Bool} {front rest : List α}

/-- What is behind a front part does not belong to it. -/
theorem takeWhile_append (h : ∀ c ∈ front, p c = true) (hrest : ∀ c ∈ rest.head?, p c = false) :
    (front ++ rest).takeWhile p = front := by
  rw [List.takeWhile_append_of_pos h]
  cases rest with
  | nil => simp
  | cons c rest => simp [hrest c rfl]

theorem dropWhile_append (h : ∀ c ∈ front, p c = true) (hrest : ∀ c ∈ rest.head?, p c = false) :
    (front ++ rest).dropWhile p = rest := by
  rw [List.dropWhile_append_of_pos h]
  cases rest with
  | nil => rfl
  | cons c rest => simp [hrest c rfl]

theorem head?_dropWhile (p : α → Bool) (l : List α) : ∀ c ∈ (l.dropWhile p).head?, p c = false := by
  induction l with
  | nil => simp
  | cons a l ih =>
    rw [List.dropWhile_cons]
    split
    · exact ih
    · simp_all

/-- What is put behind a list changes nothing of its front part unless it goes on with it. -/
theorem takeWhile_append_stop {more : List α} (h : ∀ c ∈ more.head?, p c = false) (l : List α) :
    (l ++ more).takeWhile p = l.takeWhile p ∧ (l ++ more).dropWhile p = l.dropWhile p ++ more := by
  have hfront : ∀ c ∈ l.takeWhile p, p c = true := fun c hc => List.mem_takeWhile_imp hc
  have hrest : ∀ c ∈ (l.dropWhile p ++ more).head?, p c = false := by
    intro c hc
    rw [List.head?_append, Option.mem_def, Option.or_eq_some_iff] at hc
    rcases hc with hc | ⟨-, hc⟩
    · exact head?_dropWhile p l c hc
    · exact h c hc
  have hsplit : l ++ more = l.takeWhile p ++ (l.dropWhile p ++ more) := by
    rw [← List.append_assoc, List.takeWhile_append_dropWhile]
  rw [hsplit]
  exact ⟨takeWhile_append hfront hrest, dropWhile_append hfront hrest⟩

end

namespace Text

/-! ## Digits -/

theorem isDigit_toDigits (n : Nat) : ∀ c ∈ Nat.toDigits 10 n, c.isDigit = true := fun _ hc =>
  Nat.isDigit_of_mem_toDigits (by decide) (by decide) hc

theorem digitChar_of_isDigit {c : Char} (h : c.isDigit = true) :
    Nat.digitChar (c.toNat - '0'.toNat) = c := by
  obtain ⟨hlow, hhigh⟩ := Char.isDigit_iff_toNat.mp h
  change 48 ≤ c.toNat at hlow
  change c.toNat ≤ 57 at hhigh
  have hchar : Char.ofNat c.toNat = c := Char.ofNat_toNat c
  revert hchar
  generalize c.toNat = n at hlow hhigh
  rintro rfl
  interval_cases n <;> rfl

theorem digit_lt_ten {c : Char} (h : c.isDigit = true) : c.toNat - '0'.toNat < 10 := by
  have hhigh : c.toNat ≤ 57 := (Char.isDigit_iff_toNat.mp h).2
  change c.toNat - 48 < 10
  omega

/-- Digits behind the numeral of a positive number make the numeral of another one. -/
theorem toDigits_ofDigitChars_of_pos {n : Nat} (hn : 0 < n) {ds : List Char}
    (h : ∀ c ∈ ds, c.isDigit = true) :
    Nat.toDigits 10 (Nat.ofDigitChars 10 ds n) = Nat.toDigits 10 n ++ ds := by
  induction ds generalizing n with
  | nil => simp
  | cons d ds ih =>
    obtain ⟨hd, hds⟩ := List.forall_mem_cons.mp h
    have hlt := digit_lt_ten hd
    rw [Nat.ofDigitChars_cons, ih (by omega) hds,
      ← Nat.toDigits_append_toDigits (by decide) hn hlt, Nat.toDigits_of_lt_base hlt,
      digitChar_of_isDigit hd]
    simp

/-- **A row of digits is the numeral of its value if it has no zero in front.** -/
theorem toDigits_ofDigitChars {ds : List Char} (h : ∀ c ∈ ds, c.isDigit = true) (hne : ds ≠ [])
    (hzero : ds.head? = some '0' → ds.length = 1) :
    Nat.toDigits 10 (Nat.ofDigitChars 10 ds 0) = ds := by
  cases ds with
  | nil => exact absurd rfl hne
  | cons d ds =>
    obtain ⟨hd, hds⟩ := List.forall_mem_cons.mp h
    have hlt := digit_lt_ten hd
    rw [Nat.ofDigitChars_cons]
    by_cases hcase : d = '0'
    · have hnil : ds = [] := by simpa using hzero (congrArg some hcase)
      subst hnil hcase
      rfl
    · have hpos : 0 < d.toNat - '0'.toNat := by
        refine Nat.pos_of_ne_zero fun heq => hcase ?_
        rw [← digitChar_of_isDigit hd, heq]
        rfl
      rw [toDigits_ofDigitChars_of_pos (by omega) hds, Nat.mul_zero, Nat.zero_add,
        Nat.toDigits_of_lt_base hlt, digitChar_of_isDigit hd]
      simp

/-- Any other row of digits is that numeral with zeros in front. -/
theorem exists_zeros_append_toDigits {ds : List Char} (h : ∀ c ∈ ds, c.isDigit = true)
    (hne : ds ≠ []) : ∃ zeros : List Char, (∀ c ∈ zeros, c = '0') ∧
      ds = zeros ++ Nat.toDigits 10 (Nat.ofDigitChars 10 ds 0) := by
  induction ds with
  | nil => exact absurd rfl hne
  | cons d ds ih =>
    by_cases hzero : d = '0' ∧ ds ≠ []
    · obtain ⟨rfl, hds⟩ := hzero
      obtain ⟨zeros, hzeros, heq⟩ := ih (List.forall_mem_cons.mp h).2 hds
      refine ⟨'0' :: zeros, List.forall_mem_cons.mpr ⟨rfl, hzeros⟩, ?_⟩
      rw [List.cons_append]
      exact congrArg _ heq
    · refine ⟨[], nofun, (toDigits_ofDigitChars h hne ?_).symm⟩
      intro hhead
      by_contra hlength
      exact hzero ⟨Option.some.inj hhead, by rintro rfl; exact hlength rfl⟩

theorem ofDigitChars_lt {ds : List Char} (h : ∀ c ∈ ds, c.isDigit = true) :
    Nat.ofDigitChars 10 ds 0 < 10 ^ ds.length := by
  induction ds with
  | nil => simp
  | cons d ds ih =>
    obtain ⟨hd, hds⟩ := List.forall_mem_cons.mp h
    have hlt := digit_lt_ten hd
    have hrest := ih hds
    rw [Nat.ofDigitChars_cons, Nat.ofDigitChars_eq_ofDigitChars_zero, List.length_cons, Nat.pow_succ]
    calc 10 ^ ds.length * (10 * 0 + (d.toNat - '0'.toNat)) + Nat.ofDigitChars 10 ds 0
        ≤ 10 ^ ds.length * 9 + Nat.ofDigitChars 10 ds 0 :=
          Nat.add_le_add_right (Nat.mul_le_mul_left _ (by omega)) _
      _ < 10 ^ ds.length * 10 := by omega

/-- A bounded number is read from digits and nothing else, whatever zeros are in front. -/
theorem natural?_filter_eq_some_iff {digits : List Char} {bound n : Nat} :
    (natural? digits).filter (· < bound) = some n ↔
      digits ≠ [] ∧ (∀ c ∈ digits, c.isDigit = true) ∧ Nat.ofDigitChars 10 digits 0 = n ∧
        n < bound := by
  have hdigits : (!digits.isEmpty && digits.all Char.isDigit) = true ↔
      digits ≠ [] ∧ ∀ c ∈ digits, c.isDigit = true := by
    rw [Bool.and_eq_true, Bool.not_eq_true', List.isEmpty_eq_false_iff, List.all_eq_true]
  rw [Option.filter_eq_some_iff, decide_eq_true_iff, natural?, Option.ite_none_right_eq_some,
    hdigits, Option.some.injEq]
  simp only [and_assoc]

/-- A numeral begins with a zero only if it is the numeral of zero. -/
theorem eq_zero_of_head?_toDigits {n : Nat} (h : (Nat.toDigits 10 n).head? = some '0') : n = 0 := by
  induction n using Nat.strongRecOn with
  | _ n ih =>
    by_cases hlt : n < 10
    · rw [Nat.toDigits_of_lt_base hlt] at h
      simpa using h
    · rw [Nat.toDigits_of_base_le (by decide) (Nat.not_lt.mp hlt),
        List.head?_append, Option.or_of_isSome (by simp [Nat.toDigits_ne_nil])] at h
      have hfront : n / 10 = 0 := ih (n / 10) (by omega) h
      omega

end Text

end AccessLog
