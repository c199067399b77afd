import AccessLog.Binary64.Basic
import Mathlib.Algebra.Order.Field.Basic
import Mathlib.Algebra.Order.Field.Power
import Mathlib.Algebra.Order.Field.Rat
import Mathlib.Tactic.FieldSimp
import Mathlib.Tactic.Linarith
import Mathlib.Tactic.Ring

/-!
# What rounds to a double

A number rounds to the double that is nearest to it, and from the middle between two of them to the
one with the even mantissa (`Binary64.Nearest`). That is said of all doubles at once. The numbers
that round to one double are an interval around it, whose ends lie in the middle between the double
and its two neighbours (`nearest_iff_within`): below a power of two the doubles are twice as dense,
so that there the interval is shorter on its lower side.

Rounding takes no notice of the largest exponent. What is nearer to the double that would follow the
largest one is too large for any.

The form of a double is not part of the type, so it is shown that the doubles which are made from
numerals have it (`normal_of_ofDecimal?`).
-/

set_option autoImplicit false

namespace AccessLog.Binary64

variable {x y : Binary64} {q : ℚ}

/-! ## Doubles as numbers -/

/-- The distance of a double from zero. -/
def magnitude (x : Binary64) : ℚ := x.mantissa * 2 ^ x.exponent

/-- The form of a double, were there no largest one: as many bits as there is room for, or fewer at
the smallest exponent. -/
structure Formed (x : Binary64) : Prop where
  fits : x.mantissa < 2 ^ precision
  least : minExponent ≤ x.exponent
  full : minExponent < x.exponent → 2 ^ (precision - 1) ≤ x.mantissa

/-- The form of a double. -/
structure Normal (x : Binary64) : Prop extends Formed x where
  finite : x.exponent ≤ maxExponent

/-- A number rounds to a double: no other is nearer, and where another is as near the mantissa is
even. -/
structure Nearest (x : Binary64) (q : ℚ) : Prop where
  closest : ∀ y : Binary64, y.Formed → |q - x.magnitude| ≤ |q - y.magnitude|
  even : ∀ y : Binary64, y.Formed → y.magnitude ≠ x.magnitude →
    |q - y.magnitude| = |q - x.magnitude| → x.mantissa % 2 = 0

theorem two_zpow_pos (e : ℤ) : (0 : ℚ) < 2 ^ e := zpow_pos (by norm_num) e

theorem two_zpow_succ (e : ℤ) : (2 : ℚ) ^ (e + 1) = 2 * 2 ^ e := by
  rw [zpow_add_one₀ (by norm_num), mul_comm]

/-- A double with a larger exponent is a multiple of the last place of one with a smaller. -/
theorem exists_magnitude_eq (h : x.exponent ≤ y.exponent) :
    ∃ n : ℕ, y.magnitude = n * 2 ^ x.exponent := by
  obtain ⟨k, hk⟩ := Int.eq_ofNat_of_zero_le (Int.sub_nonneg.mpr h)
  refine ⟨y.mantissa * 2 ^ k, ?_⟩
  have hexponent : y.exponent = k + x.exponent := by omega
  rw [magnitude, hexponent, zpow_add₀ (by norm_num), zpow_natCast]
  push_cast
  ring

/-! ## The neighbours -/

/-- Whether the doubles are twice as dense below a double as above it. -/
def AtBorder (x : Binary64) : Prop := x.mantissa = 2 ^ (precision - 1) ∧ minExponent < x.exponent

instance (x : Binary64) : Decidable x.AtBorder := inferInstanceAs (Decidable (_ ∧ _))

/-- The distance of a double from the one below it. -/
def gapBelow (x : Binary64) : ℚ := if x.AtBorder then 2 ^ (x.exponent - 1) else 2 ^ x.exponent

theorem two_zpow_pred (e : ℤ) : 2 * (2 : ℚ) ^ (e - 1) = 2 ^ e := by
  rw [← two_zpow_succ, Int.sub_add_cancel]

theorem gapBelow_pos (x : Binary64) : 0 < x.gapBelow := by
  unfold gapBelow
  split <;> exact two_zpow_pos _

theorem gapBelow_le (x : Binary64) : x.gapBelow ≤ 2 ^ x.exponent := by
  unfold gapBelow
  split
  · linarith [two_zpow_pred x.exponent, two_zpow_pos (x.exponent - 1)]
  · exact le_refl _

/-- The double above a double. -/
theorem Formed.exists_above (h : x.Formed) :
    ∃ y : Binary64, y.Formed ∧ y.magnitude = x.magnitude + 2 ^ x.exponent := by
  have hfits := h.fits
  have hfull := h.full
  simp only [precision] at hfits hfull
  by_cases hroom : x.mantissa + 1 < 2 ^ precision
  · refine ⟨⟨x.negative, x.mantissa + 1, x.exponent⟩, ⟨hroom, h.least, ?_⟩, ?_⟩
    · exact fun hexponent => Nat.le_succ_of_le (h.full hexponent)
    · simp only [magnitude]
      push_cast
      ring
  · -- the mantissa is all ones, so the next double is a power of two
    simp only [precision] at hroom
    have hmantissa : x.mantissa = 2 ^ 53 - 1 := by omega
    refine ⟨⟨x.negative, 2 ^ 52, x.exponent + 1⟩, ⟨by simp [precision], ?_, ?_⟩, ?_⟩
    · exact Int.le_add_one h.least
    · exact fun _ => le_refl _
    · simp only [magnitude, hmantissa, two_zpow_succ]
      norm_num
      ring

/-- The double below a double that is not zero. -/
theorem Formed.exists_below (h : x.Formed) (hpos : 0 < x.mantissa) :
    ∃ y : Binary64, y.Formed ∧ y.magnitude = x.magnitude - x.gapBelow := by
  have hfits := h.fits
  have hleast := h.least
  have hfull := h.full
  simp only [precision] at hfits hfull
  by_cases hborder : x.AtBorder
  · obtain ⟨hmantissa, hexponent⟩ := hborder
    refine ⟨⟨x.negative, 2 ^ 53 - 1, x.exponent - 1⟩, ⟨by simp [precision], ?_, ?_⟩, ?_⟩
    · show minExponent ≤ x.exponent - 1
      omega
    · exact fun _ => by simp [precision]
    · simp only [magnitude, gapBelow, if_pos (show x.AtBorder from ⟨hmantissa, hexponent⟩),
        hmantissa, precision, ← two_zpow_pred x.exponent]
      norm_num
      ring
  · refine ⟨⟨x.negative, x.mantissa - 1, x.exponent⟩, ⟨?_, hleast, ?_⟩, ?_⟩
    · show x.mantissa - 1 < 2 ^ 53
      omega
    · intro hexponent
      have hother : x.mantissa ≠ 2 ^ 52 := fun heq => hborder ⟨heq, hexponent⟩
      have hmantissa := hfull hexponent
      show 2 ^ 52 ≤ x.mantissa - 1
      omega
    · simp only [magnitude, gapBelow, if_neg hborder, Nat.cast_sub hpos]
      push_cast
      ring

/-- No double lies between a double and the one above it. -/
theorem Formed.add_le_of_lt (h : x.Formed) (hy : y.Formed) (hlt : x.magnitude < y.magnitude) :
    x.magnitude + 2 ^ x.exponent ≤ y.magnitude := by
  have hunit := two_zpow_pos x.exponent
  rcases le_or_gt x.exponent y.exponent with hle | hgt
  · obtain ⟨n, hn⟩ := exists_magnitude_eq hle
    rw [hn, magnitude] at hlt ⊢
    have hmantissa : (x.mantissa : ℚ) < n := lt_of_mul_lt_mul_right hlt hunit.le
    have hsucc : (x.mantissa : ℚ) + 1 ≤ n := by exact_mod_cast hmantissa
    nlinarith
  · -- with a smaller exponent there is too little room in the mantissa
    exfalso
    have hfull : 2 ^ 52 ≤ x.mantissa := h.full (hy.least.trans_lt hgt)
    have hfits : y.mantissa < 2 ^ 53 := hy.fits
    have hscale : (2 : ℚ) * 2 ^ y.exponent ≤ 2 ^ x.exponent := by
      rw [← two_zpow_succ]
      exact zpow_le_zpow_right₀ (by norm_num) hgt
    have hunit' := two_zpow_pos y.exponent
    have hfullq : (2 : ℚ) ^ 52 ≤ x.mantissa := by exact_mod_cast hfull
    have hfitsq : (y.mantissa : ℚ) ≤ 2 ^ 53 := by exact_mod_cast hfits.le
    simp only [magnitude] at hlt
    nlinarith

/-- No double lies between a double and the one below it. -/
theorem Formed.le_sub_of_lt (h : x.Formed) (hy : y.Formed) (hlt : y.magnitude < x.magnitude) :
    y.magnitude ≤ x.magnitude - x.gapBelow := by
  have hunit := two_zpow_pos x.exponent
  rcases le_or_gt x.exponent y.exponent with hle | hgt
  · obtain ⟨n, hn⟩ := exists_magnitude_eq hle
    have hgap := x.gapBelow_le
    rw [hn, magnitude] at hlt ⊢
    have hmantissa : (n : ℚ) < x.mantissa := lt_of_mul_lt_mul_right hlt hunit.le
    have hsucc : (n : ℚ) + 1 ≤ x.mantissa := by exact_mod_cast hmantissa
    nlinarith
  · -- the largest double with a smaller exponent is half a place below a power of two
    have hexponent : minExponent < x.exponent := hy.least.trans_lt hgt
    have hfull : 2 ^ 52 ≤ x.mantissa := h.full hexponent
    have hfits : y.mantissa + 1 ≤ 2 ^ 53 := hy.fits
    have hfitsq : (y.mantissa : ℚ) + 1 ≤ 2 ^ 53 := by exact_mod_cast hfits
    have hscale : (2 : ℚ) ^ y.exponent ≤ 2 ^ (x.exponent - 1) :=
      zpow_le_zpow_right₀ (by norm_num) (Int.le_sub_one_of_lt hgt)
    have hhalf := two_zpow_pred x.exponent
    have htop : y.magnitude ≤ (2 ^ 53 - 1) * 2 ^ (x.exponent - 1) := by
      simp only [magnitude]
      have hmantissa : (y.mantissa : ℚ) ≤ 2 ^ 53 - 1 := by linarith
      exact mul_le_mul hmantissa hscale (two_zpow_pos _).le (by norm_num)
    unfold gapBelow
    split
    · rename_i hborder
      have hmantissa : (x.mantissa : ℚ) = 2 ^ 52 := by
        rw [hborder.1]
        norm_num [precision]
      simp only [magnitude, hmantissa] at htop ⊢
      linarith
    · rename_i hborder
      have hother : x.mantissa ≠ 2 ^ 52 := fun heq => hborder ⟨heq, hexponent⟩
      have hmantissa : (2 : ℚ) ^ 52 + 1 ≤ x.mantissa := by
        have hnat : 2 ^ 52 + 1 ≤ x.mantissa := by omega
        exact_mod_cast hnat
      simp only [magnitude] at htop ⊢
      nlinarith

/-! ## The interval -/

/-- The numbers around a double up to the middle of the gap on either side. The ends belong to even
mantissas. -/
structure Within (x : Binary64) (q : ℚ) : Prop where
  low : x.magnitude - x.gapBelow / 2 ≤ q
  high : q ≤ x.magnitude + 2 ^ x.exponent / 2
  inside : x.mantissa % 2 ≠ 0 →
    x.magnitude - x.gapBelow / 2 < q ∧ q < x.magnitude + 2 ^ x.exponent / 2

/-- **What rounds to a double is an interval around it.** -/
theorem Formed.nearest_iff_within (h : x.Formed) (hpos : 0 < x.mantissa) :
    x.Nearest q ↔ x.Within q := by
  have hunit := two_zpow_pos x.exponent
  have hgap := x.gapBelow_pos
  constructor
  · intro hnearest
    obtain ⟨above, habove, hmagnitude⟩ := h.exists_above
    obtain ⟨below, hbelow, hmagnitude'⟩ := h.exists_below hpos
    have hclosest := hnearest.closest above habove
    have hclosest' := hnearest.closest below hbelow
    have heven := hnearest.even above habove
    have heven' := hnearest.even below hbelow
    rw [hmagnitude] at hclosest heven
    rw [hmagnitude'] at hclosest' heven'
    have hlow : x.magnitude - x.gapBelow / 2 ≤ q := by
      by_contra hlt
      rw [abs_of_nonpos (by linarith)] at hclosest'
      rcases abs_cases (q - (x.magnitude - x.gapBelow)) with hcase | hcase <;> linarith
    have hhigh : q ≤ x.magnitude + 2 ^ x.exponent / 2 := by
      by_contra hlt
      rw [abs_of_nonneg (by linarith)] at hclosest
      rcases abs_cases (q - (x.magnitude + 2 ^ x.exponent)) with hcase | hcase <;> linarith
    refine ⟨hlow, hhigh, fun hodd => ⟨lt_of_le_of_ne hlow fun heq => hodd ?_,
      lt_of_le_of_ne hhigh fun heq => hodd ?_⟩⟩
    · apply heven' (by linarith)
      rw [abs_of_nonneg (by linarith), abs_of_nonpos (by linarith)]
      linarith
    · apply heven (by linarith)
      rw [abs_of_nonpos (by linarith), abs_of_nonneg (by linarith)]
      linarith
  · intro hwithin
    have hlow := hwithin.low
    have hhigh := hwithin.high
    -- every other double lies behind one of the two neighbours
    have hfar : ∀ y : Binary64, y.Formed → y.magnitude ≠ x.magnitude →
        |q - x.magnitude| ≤ |q - y.magnitude| ∧
          (|q - y.magnitude| = |q - x.magnitude| → x.mantissa % 2 = 0) := by
      intro y hy hne
      have hinside := hwithin.inside
      rcases lt_or_gt_of_ne hne with hlt | hgt
      · have hbelow := h.le_sub_of_lt hy hlt
        have hdistance : |q - y.magnitude| = q - y.magnitude := abs_of_nonneg (by linarith)
        rw [hdistance]
        refine ⟨abs_le.mpr ⟨by linarith, by linarith⟩, fun heq => ?_⟩
        by_contra hodd
        have hstrict := (hinside hodd).1
        rcases abs_cases (q - x.magnitude) with hcase | hcase <;> linarith
      · have habove := h.add_le_of_lt hy hgt
        have hdistance : |q - y.magnitude| = -(q - y.magnitude) := abs_of_nonpos (by linarith)
        rw [hdistance]
        refine ⟨abs_le.mpr ⟨by linarith, by linarith⟩, fun heq => ?_⟩
        by_contra hodd
        have hstrict := (hinside hodd).2
        rcases abs_cases (q - x.magnitude) with hcase | hcase <;> linarith
    refine ⟨fun y hy => ?_, fun y hy hne => (hfar y hy hne).2⟩
    by_cases heq : y.magnitude = x.magnitude
    · rw [heq]
    · exact (hfar y hy heq).1

/-- Between two numbers that round to a double all do. -/
theorem Within.convex {low high : ℚ} (hlow : x.Within low) (hhigh : x.Within high) (h : low ≤ q)
    (h' : q ≤ high) : x.Within q where
  low := hlow.low.trans h
  high := h'.trans hhigh.high
  inside hodd := ⟨(hlow.inside hodd).1.trans_le h, h'.trans_lt (hhigh.inside hodd).2⟩

/-- A double rounds to itself. -/
theorem nearest_magnitude (x : Binary64) : x.Nearest x.magnitude where
  closest y _ := by simp
  even y _ hne heq := by
    rw [sub_self, abs_zero, abs_eq_zero, sub_eq_zero] at heq
    exact absurd heq.symm hne

/-! ## Doubles that are made from numerals -/

/-- A power by the positive part of an exponent and one by the negative part make up the power. -/
theorem cast_pow_toNat {b : ℕ} (hb : 0 < b) (e : ℤ) :
    ((Nat.pow b e.toNat : ℕ) : ℚ) = b ^ e * (Nat.pow b (-e).toNat : ℕ) := by
  have hne : (b : ℚ) ≠ 0 := by exact_mod_cast hb.ne'
  simp only [Nat.pow_eq, Nat.cast_pow, ← zpow_natCast]
  rw [← zpow_add₀ hne]
  congr 1
  omega

theorem scaled_snd_pos (num : ℕ) {den : ℕ} (h : 0 < den) (shift : ℤ) :
    0 < (scaled num den shift).2 :=
  Nat.mul_pos h (Nat.pow_pos (by norm_num))

/-- A fraction that is scaled is multiplied by the power of two. -/
theorem scaled_ratio (num : ℕ) {den : ℕ} (h : 0 < den) (shift : ℤ) :
    ((scaled num den shift).1 : ℚ) / (scaled num den shift).2 = num / den * 2 ^ shift := by
  have hden : (den : ℚ) ≠ 0 := by exact_mod_cast h.ne'
  have hpow : ((Nat.pow 2 (-shift).toNat : ℕ) : ℚ) ≠ 0 := by
    exact_mod_cast (Nat.pow_pos (by norm_num)).ne'
  have htwo := cast_pow_toNat (b := 2) (by norm_num) shift
  simp only [scaled, Nat.cast_mul, htwo]
  push_cast
  field_simp

theorem le_roundDiv {num den b : ℕ} (h : 0 < den) (hle : b * den ≤ num) : b ≤ roundDiv num den := by
  have hquotient : b ≤ num / den := (Nat.le_div_iff_mul_le h).mpr hle
  unfold roundDiv
  dsimp only
  split_ifs <;> omega

theorem roundDiv_le {num den b : ℕ} (h : 0 < den) (hle : num ≤ b * den) : roundDiv num den ≤ b := by
  have hquotient : num / den ≤ b := Nat.div_le_of_le_mul (by rwa [Nat.mul_comm])
  have hsplit := Nat.div_add_mod num den
  -- rounding up happens only where there is a rest, and then the quotient is below the bound
  have hup : den ≤ 2 * (num % den) → num / den + 1 ≤ b := by
    intro hrest
    by_contra hlt
    obtain rfl : num / den = b := by omega
    rw [Nat.mul_comm] at hsplit
    omega
  unfold roundDiv
  dsimp only
  split_ifs <;> omega

/-- Which power of two is compared with a fraction, and how. -/
theorem log2Floor_eq (num den : ℕ) : log2Floor num den
    = if (scaled num den (-((num.log2 : ℤ) - den.log2))).1
        < (scaled num den (-((num.log2 : ℤ) - den.log2))).2
      then (num.log2 : ℤ) - den.log2 - 1 else (num.log2 : ℤ) - den.log2 := rfl

theorem scaled_lt_iff {num den : ℕ} (h : 0 < den) (e : ℤ) :
    (scaled num den (-e)).1 < (scaled num den (-e)).2 ↔ (num : ℚ) / den < 2 ^ e := by
  have hpos : (0 : ℚ) < (scaled num den (-e)).2 := by exact_mod_cast scaled_snd_pos num h _
  rw [← Nat.cast_lt (α := ℚ), ← div_lt_one hpos, scaled_ratio num h, zpow_neg, ← div_eq_mul_inv,
    div_lt_one (two_zpow_pos e)]

/-- The power of two that is found for a fraction is the largest one not above it. -/
theorem log2Floor_spec {num den : ℕ} (hnum : 0 < num) (hden : 0 < den) :
    (2 : ℚ) ^ log2Floor num den ≤ num / den ∧ (num : ℚ) / den < 2 ^ (log2Floor num den + 1) := by
  have hnumLow : (2 : ℚ) ^ num.log2 ≤ num := by exact_mod_cast Nat.log2_self_le hnum.ne'
  have hnumHigh : (num : ℚ) < 2 ^ (num.log2 + 1) := by exact_mod_cast Nat.lt_log2_self
  have hdenLow : (2 : ℚ) ^ den.log2 ≤ den := by exact_mod_cast Nat.log2_self_le hden.ne'
  have hdenHigh : (den : ℚ) < 2 ^ (den.log2 + 1) := by exact_mod_cast Nat.lt_log2_self
  have hdenq : (0 : ℚ) < den := by exact_mod_cast hden
  rw [log2Floor_eq]
  split
  · rename_i hlt
    refine ⟨?_, by rw [Int.sub_add_cancel]; exact (scaled_lt_iff hden _).mp hlt⟩
    have hexponent : (num.log2 : ℤ) - den.log2 - 1 = num.log2 - (den.log2 + 1 : ℕ) := by omega
    rw [hexponent, zpow_sub₀ (by norm_num), zpow_natCast, zpow_natCast]
    exact div_le_div₀ (by positivity) hnumLow hdenq hdenHigh.le
  · rename_i hge
    refine ⟨not_lt.mp (mt (scaled_lt_iff hden _).mpr hge), ?_⟩
    have hexponent : (num.log2 : ℤ) - den.log2 + 1 = (num.log2 + 1 : ℕ) - den.log2 := by omega
    rw [hexponent, zpow_sub₀ (by norm_num), zpow_natCast, zpow_natCast]
    exact div_lt_div₀ hnumHigh hdenLow (by positivity) (by positivity)

theorem normal_zero (negative : Bool) : (zero negative).Normal :=
  ⟨⟨by norm_num [zero, precision], le_refl _, fun h => absurd h (lt_irrefl _)⟩,
    by simp [zero, minExponent, maxExponent]⟩

/-- The exponent of the double nearest to a fraction, unless rounding needs one more bit. -/
def roundedExponent (num den : ℕ) (shift : ℤ) : ℤ :=
  max (log2Floor num den + shift - 52) minExponent

/-- The mantissa at that exponent. -/
def roundedMantissa (num den : ℕ) (shift : ℤ) : ℕ :=
  roundDiv (scaled num den (shift - roundedExponent num den shift)).1
    (scaled num den (shift - roundedExponent num den shift)).2

theorem nearest?_eq {num : ℕ} (negative : Bool) (h : num ≠ 0) (den : ℕ) (shift : ℤ) :
    nearest? negative num den shift =
      if roundedMantissa num den shift = 2 ^ 53 then
        if roundedExponent num den shift + 1 ≤ maxExponent then
          some ⟨negative, 2 ^ 52, roundedExponent num den shift + 1⟩ else none
      else if roundedExponent num den shift ≤ maxExponent then
        some ⟨negative, roundedMantissa num den shift, roundedExponent num den shift⟩ else none := by
  let rounded : ℕ × ℤ := if roundedMantissa num den shift = 2 ^ 53 then
    (2 ^ 52, roundedExponent num den shift + 1)
    else (roundedMantissa num den shift, roundedExponent num den shift)
  rw [nearest?, if_neg h]
  show (if rounded.2 ≤ maxExponent then some (⟨negative, rounded.1, rounded.2⟩ : Binary64)
    else none) = _
  simp only [rounded]
  split_ifs <;> rfl

/-- The mantissa has 53 bits, or fewer at the smallest exponent. -/
theorem roundedMantissa_spec {num den : ℕ} (hnum : 0 < num) (hden : 0 < den) (shift : ℤ) :
    roundedMantissa num den shift ≤ 2 ^ 53 ∧ (minExponent < roundedExponent num den shift →
      2 ^ 52 ≤ roundedMantissa num den shift) := by
  obtain ⟨hlow, hhigh⟩ := log2Floor_spec hnum hden
  have hpos := scaled_snd_pos num hden (shift - roundedExponent num den shift)
  have hposq : (0 : ℚ) < (scaled num den (shift - roundedExponent num den shift)).2 := by
    exact_mod_cast hpos
  have hratio := scaled_ratio num hden (shift - roundedExponent num den shift)
  have hunit := two_zpow_pos (shift - roundedExponent num den shift)
  have hmax : log2Floor num den + shift - 52 ≤ roundedExponent num den shift := le_max_left _ _
  constructor
  · refine roundDiv_le hpos ?_
    have hbound : (num : ℚ) / den * 2 ^ (shift - roundedExponent num den shift) ≤ 2 ^ (53 : ℤ) :=
      calc (num : ℚ) / den * 2 ^ (shift - roundedExponent num den shift)
          ≤ 2 ^ (log2Floor num den + 1) * 2 ^ (shift - roundedExponent num den shift) :=
            mul_le_mul_of_nonneg_right hhigh.le hunit.le
        _ = 2 ^ (log2Floor num den + 1 + (shift - roundedExponent num den shift)) :=
            (zpow_add₀ (by norm_num) _ _).symm
        _ ≤ 2 ^ (53 : ℤ) := zpow_le_zpow_right₀ (by norm_num) (by omega)
    rw [← hratio, div_le_iff₀ hposq] at hbound
    exact_mod_cast hbound
  · intro hmin
    refine le_roundDiv hpos ?_
    have hexponent : roundedExponent num den shift = log2Floor num den + shift - 52 := by
      unfold roundedExponent at hmin ⊢
      omega
    have hbound : (2 : ℚ) ^ (52 : ℤ) ≤ num / den * 2 ^ (shift - roundedExponent num den shift) :=
      calc (2 : ℚ) ^ (52 : ℤ)
          = 2 ^ (log2Floor num den + (shift - roundedExponent num den shift)) := by
            congr 1
            omega
        _ = 2 ^ log2Floor num den * 2 ^ (shift - roundedExponent num den shift) :=
            zpow_add₀ (by norm_num) _ _
        _ ≤ num / den * 2 ^ (shift - roundedExponent num den shift) :=
            mul_le_mul_of_nonneg_right hlow hunit.le
    rw [← hratio, le_div_iff₀ hposq] at hbound
    exact_mod_cast hbound

/-- What is rounded once is a double. -/
theorem normal_of_nearest? {negative : Bool} {num den : ℕ} {shift : ℤ} (hden : 0 < den)
    (h : nearest? negative num den shift = some x) : x.Normal := by
  by_cases hnum : num = 0
  · subst hnum
    cases h
    exact normal_zero negative
  · obtain ⟨hle, hfull⟩ := roundedMantissa_spec (Nat.pos_of_ne_zero hnum) hden shift
    have hleast : minExponent ≤ roundedExponent num den shift := le_max_right _ _
    rw [nearest?_eq negative hnum] at h
    split_ifs at h with hcarry hfinite hfinite
    · cases h
      exact ⟨⟨by norm_num [precision], hleast.trans (Int.le_add_one le_rfl), fun _ => le_refl _⟩,
        hfinite⟩
    · cases h
      exact ⟨⟨lt_of_le_of_ne hle hcarry, hleast, hfull⟩, hfinite⟩

/-- Powers of ten are not rounded to zero. -/
theorem mantissa_pos_of_powerOfTen? {n : ℕ} (h : powerOfTen? n = some x) : 0 < x.mantissa := by
  have hnum : 0 < Nat.pow 10 n := Nat.pow_pos (by norm_num)
  have hone : (1 : ℚ) ≤ (Nat.pow 10 n : ℕ) / (1 : ℕ) := by
    rw [Nat.cast_one, div_one]
    exact_mod_cast hnum
  have hlog : 0 ≤ log2Floor (Nat.pow 10 n) 1 := by
    have hlt := hone.trans_lt (log2Floor_spec hnum Nat.one_pos).2
    by_contra hneg
    have hle : (2 : ℚ) ^ (log2Floor (Nat.pow 10 n) 1 + 1) ≤ 2 ^ (0 : ℤ) :=
      zpow_le_zpow_right₀ (by norm_num) (by omega)
    rw [zpow_zero] at hle
    exact absurd hlt (not_lt.mpr hle)
  have hexponent : minExponent < roundedExponent (Nat.pow 10 n) 1 0 := by
    refine lt_of_lt_of_le ?_ (le_max_left _ _)
    simp only [minExponent]
    omega
  have hmantissa := (roundedMantissa_spec hnum Nat.one_pos 0).2 hexponent
  rw [powerOfTen?, nearest?_eq false hnum.ne'] at h
  split_ifs at h
  · cases h
    norm_num
  · cases h
    exact lt_of_lt_of_le (by norm_num) hmantissa

theorem normal_of_div? {z : Binary64} {n : ℕ} (hy : powerOfTen? n = some y)
    (h : div? x y = some z) : z.Normal :=
  normal_of_nearest? (mantissa_pos_of_powerOfTen? hy) h

theorem Normal.of_scaleByTen? {exponent : ℤ} (hx : x.Normal)
    (h : scaleByTen? x exponent = some y) : y.Normal := by
  unfold scaleByTen? at h
  split_ifs at h
  · cases h
    exact hx
  · obtain ⟨ten, -, h⟩ := Option.bind_eq_some_iff.mp h
    exact normal_of_nearest? Nat.one_pos h
  · obtain ⟨low, -, h⟩ := Option.bind_eq_some_iff.mp h
    obtain ⟨ten, hten, h⟩ := Option.bind_eq_some_iff.mp h
    exact normal_of_div? hten h

/-- **Every double that is made from a numeral has the form of a double.** -/
theorem normal_of_ofDecimal? {negative : Bool} {digits : ℕ} {exponent : ℤ}
    (h : ofDecimal? negative digits exponent = some x) : x.Normal := by
  obtain ⟨magnitude, hmagnitude, h⟩ := Option.bind_eq_some_iff.mp h
  obtain ⟨y, hy, h⟩ := Option.bind_eq_some_iff.mp h
  cases h
  have hnormal := (normal_of_nearest? Nat.one_pos hmagnitude).of_scaleByTen? hy
  exact ⟨⟨hnormal.fits, hnormal.least, hnormal.full⟩, hnormal.finite⟩

end AccessLog.Binary64
