import AccessLog.Proofs.Binary64.Shortest
import AccessLog.Proofs.Numeral
import Mathlib.Data.List.DropRight

/-!
# The text of a double

A double is written as a numeral with a decimal point or an exponent. What such a numeral stands for
is said by its parts alone (`Numeral`), and **the numeral that is written stands for the shortest
decimal** of the double (`Normal.shownAs_text`), in each of the notations: with an exponent, with
zeros in front of the digits, with zeros behind them, or with the point among them.
-/

set_option autoImplicit false

namespace AccessLog.Binary64

open Text (isDigit_toDigits eq_zero_of_head?_toDigits)

variable {x : Binary64}

/-! ## Numerals -/

/-- A row of digits. -/
structure Digits (cs : List Char) : Prop where
  ne_nil : cs ≠ []
  all : ∀ c ∈ cs, c.isDigit = true

/-- The digits in front of a point: no zero in front of others. -/
structure Whole (cs : List Char) : Prop extends Digits cs where
  first : cs.head? = some '0' → cs.length = 1

/-- Digits, with a point or without one, and the number they stand for. -/
inductive Fixed : List Char → ℚ → Prop where
  | whole {cs : List Char} (h : Whole cs) : Fixed cs (Nat.ofDigitChars 10 cs 0)
  | point {whole fraction : List Char} (hwhole : Whole whole) (hfraction : Digits fraction) :
    Fixed (whole ++ '.' :: fraction)
      (Nat.ofDigitChars 10 (whole ++ fraction) 0 / 10 ^ fraction.length)

/-- A numeral with a point or an exponent, and the number it stands for. -/
inductive Numeral : List Char → ℚ → Prop where
  | point {whole fraction : List Char} (hwhole : Whole whole) (hfraction : Digits fraction) :
    Numeral (whole ++ '.' :: fraction)
      (Nat.ofDigitChars 10 (whole ++ fraction) 0 / 10 ^ fraction.length)
  | raised {front power : List Char} {q : ℚ} (h : Fixed front q) (hpower : Whole power) :
    Numeral (front ++ 'e' :: '+' :: power) (q * 10 ^ Nat.ofDigitChars 10 power 0)
  | lowered {front power : List Char} {q : ℚ} (h : Fixed front q) (hpower : Whole power) :
    Numeral (front ++ 'e' :: '-' :: power) (q / 10 ^ Nat.ofDigitChars 10 power 0)

/-- How a double is shown: the shortest decimal as a numeral, behind a sign if it is negative. -/
inductive ShownAs (x : Binary64) : String → Prop where
  | plain {digits : ℕ} {place : ℤ} {cs : List Char} (hsign : x.negative = false)
    (h : x.Shortest digits place) (hcs : Numeral cs (digits * 10 ^ place)) :
    ShownAs x (String.ofList cs)
  | signed {digits : ℕ} {place : ℤ} {cs : List Char} (hsign : x.negative = true)
    (h : x.Shortest digits place) (hcs : Numeral cs (digits * 10 ^ place)) :
    ShownAs x (String.ofList ('-' :: cs))

theorem ofDigitChars_zero (n : ℕ) : Nat.ofDigitChars 10 ['0'] n = n * 10 := by
  simp [Nat.ofDigitChars_cons, Nat.mul_comm]

theorem whole_toDigits (n : ℕ) : Whole (Nat.toDigits 10 n) where
  ne_nil := Nat.toDigits_ne_nil
  all := isDigit_toDigits n
  first h := by
    rw [eq_zero_of_head?_toDigits h]
    rfl

/-! ## The digits without the zeros at their end -/

theorem significantDigits_eq (n : ℕ) :
    significantDigits n = (Nat.toDigits 10 n).rdropWhile (· == '0') := rfl

theorem digitChar_eq_zero_iff {d : ℕ} (h : d < 10) : d.digitChar = '0' ↔ d = 0 := by
  interval_cases d <;> decide

/-- A number is what is kept of its digits with the zeros put back. -/
theorem significantDigits_spec {n : ℕ} (h : 0 < n) : ∃ kept zeros, n = kept * 10 ^ zeros ∧
    kept % 10 ≠ 0 ∧ significantDigits n = Nat.toDigits 10 kept ∧
    (Nat.toDigits 10 n).length = (Nat.toDigits 10 kept).length + zeros := by
  induction n using Nat.strongRecOn with
  | _ n ih =>
    have hmod : n % 10 < 10 := Nat.mod_lt _ (by norm_num)
    by_cases hlast : n % 10 = 0
    · -- the last digit is a zero, and the number without it is smaller
      have hge : 10 ≤ n := by omega
      obtain ⟨kept, zeros, hdigits, hkept, htext, hlength⟩ := ih (n / 10) (by omega) (by omega)
      have hsplit := Nat.toDigits_of_base_le (b := 10) (by norm_num) hge
      refine ⟨kept, zeros + 1, ?_, hkept, ?_, ?_⟩
      · rw [Nat.pow_succ, ← Nat.mul_assoc, ← hdigits]
        omega
      · rw [significantDigits_eq, hsplit, hlast, List.rdropWhile_concat_pos _ _ _ (by rfl),
          ← significantDigits_eq, htext]
      · rw [hsplit, List.length_append, hlength]
        rfl
    · refine ⟨n, 0, by simp, hlast, ?_, by simp⟩
      rw [significantDigits_eq, List.rdropWhile_eq_self_iff]
      intro hne
      have hconcat : (Nat.toDigits 10 n).getLast hne = (n % 10).digitChar := by
        rcases Nat.lt_or_ge n 10 with hlt | hge
        · simp only [Nat.toDigits_of_lt_base hlt, List.getLast_singleton, Nat.mod_eq_of_lt hlt]
        · simp only [Nat.toDigits_of_base_le (b := 10) (by norm_num) hge,
            List.getLast_append_singleton]
      rw [hconcat, beq_iff_eq, digitChar_eq_zero_iff hmod]
      exact hlast

/-! ## The notations -/

section

variable {n : ℕ}

theorem head?_toDigits_ne (h : 0 < n) : (Nat.toDigits 10 n).head? ≠ some '0' := fun hzero =>
  h.ne' (eq_zero_of_head?_toDigits hzero)

/-- Digits in front of a point, of which the first ones are those of a positive number. -/
theorem whole_of_head? {cs : List Char} (hne : cs ≠ []) (hall : ∀ c ∈ cs, c.isDigit = true)
    (hhead : cs.head? ≠ some '0') : Whole cs := ⟨⟨hne, hall⟩, fun h => absurd h hhead⟩

/-- Digits with a point in front of them, if there are any. -/
def pointed : List Char → List Char
  | [] => []
  | more => '.' :: more

/-- The first digit, and a point with the others behind it if there are any. -/
theorem fixed_pointed (h : 0 < n) :
    Fixed ((Nat.toDigits 10 n).take 1 ++ pointed ((Nat.toDigits 10 n).drop 1))
      (n / 10 ^ ((Nat.toDigits 10 n).length - 1)) := by
  have hall := isDigit_toDigits n
  have hhead := head?_toDigits_ne h
  have hvalue : Nat.ofDigitChars 10 (Nat.toDigits 10 n) 0 = n := Nat.ofDigitChars_ten_toDigits
  cases hdigits : Nat.toDigits 10 n with
  | nil => exact absurd hdigits Nat.toDigits_ne_nil
  | cons d more =>
    rw [hdigits] at hall hhead hvalue
    obtain ⟨hd, hmore⟩ := List.forall_mem_cons.mp hall
    have hwhole : Whole [d] := whole_of_head? (by simp) (by simpa using hd) (by simpa using hhead)
    cases more with
    | nil =>
      have hfixed := Fixed.whole hwhole
      rw [hvalue] at hfixed
      simpa [pointed] using hfixed
    | cons e more =>
      have hfixed := Fixed.point hwhole ⟨List.cons_ne_nil e more, hmore⟩
      rwa [show [d] ++ e :: more = d :: e :: more from rfl, hvalue] at hfixed

theorem numeral_scientific (h : 0 < n) (exponent : ℤ) :
    Numeral ((Nat.toDigits 10 n).take 1 ++ pointed ((Nat.toDigits 10 n).drop 1)
        ++ 'e' :: (if exponent < 0 then '-' else '+') :: Nat.toDigits 10 exponent.natAbs)
      (n * 10 ^ (exponent - (Nat.toDigits 10 n).length + 1)) := by
  have hfixed := fixed_pointed h
  have hpower := whole_toDigits exponent.natAbs
  have hvalue : Nat.ofDigitChars 10 (Nat.toDigits 10 exponent.natAbs) 0 = exponent.natAbs :=
    Nat.ofDigitChars_ten_toDigits
  have hlength : 0 < (Nat.toDigits 10 n).length := Nat.length_toDigits_pos
  have hplace : exponent - (Nat.toDigits 10 n).length + 1
      = exponent - ((Nat.toDigits 10 n).length - 1 : ℕ) := by omega
  have hsplit : (n : ℚ) * 10 ^ (exponent - (Nat.toDigits 10 n).length + 1)
      = n / 10 ^ ((Nat.toDigits 10 n).length - 1) * 10 ^ exponent := by
    rw [hplace, zpow_sub₀ (by norm_num), zpow_natCast]
    ring
  rw [hsplit]
  by_cases hneg : exponent < 0
  · have hnumeral := Numeral.lowered hfixed hpower
    have hpow : (10 : ℚ) ^ exponent = (10 ^ exponent.natAbs)⁻¹ := by
      rw [← zpow_natCast, ← zpow_neg, Int.ofNat_natAbs_of_nonpos hneg.le, neg_neg]
    rw [if_pos hneg, hpow, ← div_eq_mul_inv]
    rwa [hvalue] at hnumeral
  · have hnumeral := Numeral.raised hfixed hpower
    have hpow : (10 : ℚ) ^ exponent = 10 ^ exponent.natAbs := by
      rw [← zpow_natCast, Int.natAbs_of_nonneg (not_lt.mp hneg)]
    rw [if_neg hneg, hpow]
    rwa [hvalue] at hnumeral

theorem isDigit_of_mem_replicate {c : Char} {count : ℕ} (h : c ∈ List.replicate count '0') :
    c.isDigit = true := by
  rw [List.eq_of_mem_replicate h]
  rfl

theorem numeral_zero : Numeral ['0', '.', '0'] 0 := by
  have hwhole : Whole ['0'] := whole_toDigits 0
  have hnumeral := Numeral.point hwhole hwhole.toDigits
  rw [Nat.ofDigitChars_append, ofDigitChars_zero, ofDigitChars_zero] at hnumeral
  simpa using hnumeral

/-- Zeros behind the point in front of the digits. -/
theorem numeral_small (n count : ℕ) :
    Numeral ('0' :: '.' :: (List.replicate count '0' ++ Nat.toDigits 10 n))
      (n / 10 ^ (count + (Nat.toDigits 10 n).length)) := by
  have hwhole : Whole ['0'] := whole_toDigits 0
  have hfraction : Digits (List.replicate count '0' ++ Nat.toDigits 10 n) := by
    refine ⟨by simp [Nat.toDigits_ne_nil], fun c hc => ?_⟩
    exact (List.mem_append.mp hc).elim isDigit_of_mem_replicate (isDigit_toDigits n c)
  have hnumeral := Numeral.point hwhole hfraction
  rwa [Nat.ofDigitChars_append, Nat.ofDigitChars_append, ofDigitChars_zero, Nat.zero_mul,
    Nat.ofDigitChars_replicate_zero, Nat.mul_zero, Nat.ofDigitChars_ten_toDigits,
    List.length_append, List.length_replicate] at hnumeral

/-- Zeros behind the digits in front of the point. -/
theorem numeral_large (h : 0 < n) (count : ℕ) :
    Numeral (Nat.toDigits 10 n ++ List.replicate count '0' ++ ['.', '0']) (n * 10 ^ count) := by
  have hwhole : Whole (Nat.toDigits 10 n ++ List.replicate count '0') := by
    refine whole_of_head? (by simp [Nat.toDigits_ne_nil]) (fun c hc => ?_) ?_
    · exact (List.mem_append.mp hc).elim (isDigit_toDigits n c) isDigit_of_mem_replicate
    · rw [List.head?_append, Option.or_of_isSome (by simp [Nat.toDigits_ne_nil])]
      exact head?_toDigits_ne h
  have hfraction : Digits ['0'] := (whole_toDigits 0).toDigits
  have hnumeral := Numeral.point hwhole hfraction
  rw [Nat.ofDigitChars_append, Nat.ofDigitChars_append, Nat.ofDigitChars_ten_toDigits,
    Nat.ofDigitChars_replicate_zero, ofDigitChars_zero] at hnumeral
  convert hnumeral using 1
  push_cast
  simp [mul_comm]

/-- The point among the digits. -/
theorem numeral_between (h : 0 < n) {count : ℕ} (hpos : 0 < count)
    (hlt : count < (Nat.toDigits 10 n).length) :
    Numeral ((Nat.toDigits 10 n).take count ++ '.' :: (Nat.toDigits 10 n).drop count)
      (n / 10 ^ ((Nat.toDigits 10 n).length - count)) := by
  have hall := isDigit_toDigits n
  have hwhole : Whole ((Nat.toDigits 10 n).take count) := by
    refine whole_of_head? ?_ (fun c hc => hall c (List.mem_of_mem_take hc)) ?_
    · simp [List.take_eq_nil_iff, hpos.ne', Nat.toDigits_ne_nil]
    · rw [List.head?_take, if_neg hpos.ne']
      exact head?_toDigits_ne h
  have hfraction : Digits ((Nat.toDigits 10 n).drop count) :=
    ⟨by simpa using hlt, fun c hc => hall c (List.mem_of_mem_drop hc)⟩
  have hnumeral := Numeral.point hwhole hfraction
  rwa [List.take_append_drop, Nat.ofDigitChars_ten_toDigits, List.length_drop] at hnumeral

/-- **In every notation the text of a decimal stands for it.** -/
theorem numeral_decimalNotation (h : 0 < n) (exponent : ℤ) :
    Numeral (decimalNotation (Nat.toDigits 10 n) exponent)
      (n * 10 ^ (exponent - (Nat.toDigits 10 n).length + 1)) := by
  have hlength : 0 < (Nat.toDigits 10 n).length := Nat.length_toDigits_pos
  have hplaces : ∀ places : ℕ, exponent - (Nat.toDigits 10 n).length + 1 = -(places : ℤ) →
      (n : ℚ) * 10 ^ (exponent - (Nat.toDigits 10 n).length + 1) = n / 10 ^ places := by
    intro places heq
    rw [heq, zpow_neg, zpow_natCast, div_eq_mul_inv]
  unfold decimalNotation
  split
  · exact numeral_scientific h exponent
  · split
    · rw [hplaces ((-exponent - 1).toNat + (Nat.toDigits 10 n).length) (by push_cast; omega)]
      exact numeral_small n _
    · show Numeral (if _ then _ else _) _
      split
      · have hzeros : exponent - (Nat.toDigits 10 n).length + 1
            = ((exponent + 1 - (Nat.toDigits 10 n).length).toNat : ℤ) := by omega
        rw [hzeros, zpow_natCast]
        exact numeral_large h _
      · rw [hplaces ((Nat.toDigits 10 n).length - (exponent + 1).toNat) (by omega)]
        exact numeral_between h (by omega) (by omega)

end

/-! ## The text -/

/-- The text of a magnitude. -/
def magnitudeText (x : Binary64) : List Char :=
  if x.isZero then ['0', '.', '0']
  else decimalNotation (significantDigits x.shortest.1)
    (x.shortest.2 + (Nat.toDigits 10 x.shortest.1).length - 1)

theorem text_eq (x : Binary64) : x.text
    = String.ofList (if x.negative then '-' :: x.magnitudeText else x.magnitudeText) := rfl

theorem Normal.exists_numeral (h : x.Normal) : ∃ (digits : ℕ) (place : ℤ),
    x.Shortest digits place ∧ Numeral x.magnitudeText (digits * 10 ^ place) := by
  unfold magnitudeText
  rcases Nat.eq_zero_or_pos x.mantissa with hzero | hpos
  · refine ⟨0, 0, shortest_zero hzero, ?_⟩
    rw [if_pos (by simp [isZero, hzero])]
    simpa using numeral_zero
  · have hhit := h.firstHit_shortest hpos
    obtain ⟨kept, zeros, hvalue, hlast, htext, hlength⟩ :=
      significantDigits_spec (hhit.digits_pos hpos)
    refine ⟨kept, x.shortest.2 + zeros, hhit.shortest h.toFormed hpos hvalue hlast, ?_⟩
    have hplace : x.shortest.2 + zeros = x.shortest.2 + (Nat.toDigits 10 x.shortest.1).length - 1
        - (Nat.toDigits 10 kept).length + 1 := by omega
    rw [if_neg (by simp [isZero, hpos.ne']), htext, hplace]
    exact numeral_decimalNotation (Nat.pos_of_ne_zero fun hkept => hlast (by rw [hkept])) _

/-- **The text of a double shows the shortest decimal that rounds to it.** -/
theorem Normal.shownAs_text (h : x.Normal) : x.ShownAs x.text := by
  obtain ⟨digits, place, hshortest, hnumeral⟩ := h.exists_numeral
  rw [text_eq]
  cases hsign : x.negative with
  | false => exact .plain hsign hshortest hnumeral
  | true => exact .signed hsign hshortest hnumeral

end AccessLog.Binary64
