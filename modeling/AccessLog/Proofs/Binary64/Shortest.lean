import AccessLog.Binary64.Shortest
import AccessLog.Proofs.Binary64.Rounding
import Mathlib.Tactic.LinearCombination

/-!
# The search for the shortest decimal

The digits of a double are searched for on grids: the multiples of a power of ten, from the largest
power that is not above the double down to smaller ones. The first grid that has a point among the
numbers that round to the double gives the digits.

Two facts carry this. **If any point of a grid rounds to a double then one of the two does between
which it lies** (`onGrid_gridPoint?`), so looking at two points is looking at all of them. And
**seventeen grids suffice** (`Formed.exists_gridPoint?`): the last of them is finer than the
interval of what rounds to the double is long.
-/

set_option autoImplicit false

namespace AccessLog.Binary64

variable {x : Binary64} {place : ℤ} {digits : ℕ}

theorem ten_zpow_pos (e : ℤ) : (0 : ℚ) < 10 ^ e := zpow_pos (by norm_num) e

/-! ## Quarters of the last place -/

section

variable (x : Binary64) (place : ℤ)

theorem quarterIn_snd_pos : 0 < (x.quarterIn place).2 := by
  have htwo : ∀ n, 0 < Nat.pow 2 n := fun n => Nat.pow_pos (by norm_num)
  have hten : ∀ n, 0 < Nat.pow 10 n := fun n => Nat.pow_pos (by norm_num)
  simpa only [quarterIn, scaled, Nat.one_mul] using Nat.mul_pos (htwo _) (hten _)

/-- A row of quarters is as long as they say, on a scale of its own. -/
theorem scaled_quarters (quarters : ℕ) :
    ((quarters * (x.quarterIn place).1 : ℕ) : ℚ) * 10 ^ place
      = (x.quarterIn place).2 * (quarters * 2 ^ (x.exponent - 2)) := by
  have htwo := cast_pow_toNat (b := 2) (by norm_num) (x.exponent - 2)
  have hten := cast_pow_toNat (b := 10) (by norm_num) place
  simp only [quarterIn, scaled, Nat.one_mul, Nat.cast_mul] at htwo hten ⊢
  rw [htwo, hten]
  push_cast
  ring

/-- So is a row of steps of the grid, on the same scale. -/
theorem scaled_points (points : ℕ) :
    ((points * (x.quarterIn place).2 : ℕ) : ℚ) * 10 ^ place
      = (x.quarterIn place).2 * (points * 10 ^ place) := by
  push_cast
  ring

end

/-- Whole numbers on one scale compare like what they stand for. -/
theorem le_iff_of_scaled {a b : ℕ} {step scale A B : ℚ} (hstep : 0 < step) (hscale : 0 < scale)
    (ha : a * step = scale * A) (hb : b * step = scale * B) : a ≤ b ↔ A ≤ B := by
  rw [← Nat.cast_le (α := ℚ), ← mul_le_mul_iff_left₀ hstep, ha, hb, mul_le_mul_iff_right₀ hscale]

section

variable {quarters points : ℕ}

theorem quarters_le_iff : quarters * (x.quarterIn place).1 ≤ points * (x.quarterIn place).2 ↔
    (quarters : ℚ) * 2 ^ (x.exponent - 2) ≤ points * 10 ^ place :=
  le_iff_of_scaled (ten_zpow_pos place) (by exact_mod_cast quarterIn_snd_pos x place)
    (scaled_quarters x place quarters) (scaled_points x place points)

theorem le_quarters_iff : points * (x.quarterIn place).2 ≤ quarters * (x.quarterIn place).1 ↔
    (points : ℚ) * 10 ^ place ≤ quarters * 2 ^ (x.exponent - 2) :=
  le_iff_of_scaled (ten_zpow_pos place) (by exact_mod_cast quarterIn_snd_pos x place)
    (scaled_points x place points) (scaled_quarters x place quarters)

theorem quarters_lt_iff : quarters * (x.quarterIn place).1 < points * (x.quarterIn place).2 ↔
    (quarters : ℚ) * 2 ^ (x.exponent - 2) < points * 10 ^ place := by
  rw [← not_le, le_quarters_iff, not_le]

theorem lt_quarters_iff : points * (x.quarterIn place).2 < quarters * (x.quarterIn place).1 ↔
    (points : ℚ) * 10 ^ place < quarters * 2 ^ (x.exponent - 2) := by
  rw [← not_le, quarters_le_iff, not_le]

end

theorem quarter_eq (e : ℤ) : 4 * (2 : ℚ) ^ (e - 2) = 2 ^ e := by
  have hsplit : e = e - 2 + 1 + 1 := by omega
  conv_rhs => rw [hsplit, two_zpow_succ, two_zpow_succ]
  ring

/-! ## The borders -/

theorem lowerBorder_eq (x : Binary64) :
    x.lowerBorder = if x.AtBorder then 4 * x.mantissa - 1 else 4 * x.mantissa - 2 := by
  unfold lowerBorder
  exact if_congr (by simp [AtBorder]) rfl rfl

theorem cast_lowerBorder (hpos : 0 < x.mantissa) :
    (x.lowerBorder : ℚ) * 2 ^ (x.exponent - 2) = x.magnitude - x.gapBelow / 2 := by
  have hquarter := quarter_eq x.exponent
  have hhalf := two_zpow_pred x.exponent
  rw [lowerBorder_eq, gapBelow, magnitude]
  split
  · rw [Nat.cast_sub (by omega)]
    push_cast
    linear_combination (x.mantissa : ℚ) * hquarter - hquarter / 4 + hhalf / 4
  · rw [Nat.cast_sub (by omega)]
    push_cast
    linear_combination (x.mantissa : ℚ) * hquarter - hquarter / 2

theorem cast_upperBorder (x : Binary64) :
    (x.upperBorder : ℚ) * 2 ^ (x.exponent - 2) = x.magnitude + 2 ^ x.exponent / 2 := by
  have hquarter := quarter_eq x.exponent
  rw [upperBorder, magnitude]
  push_cast
  linear_combination (x.mantissa : ℚ) * hquarter + hquarter / 2

theorem rounds_eq (x : Binary64) (digits : ℕ) (place : ℤ) :
    x.rounds digits place = if x.mantissa % 2 = 0 then
        decide (x.lowerBorder * (x.quarterIn place).1 ≤ digits * (x.quarterIn place).2)
          && decide (digits * (x.quarterIn place).2 ≤ x.upperBorder * (x.quarterIn place).1)
      else decide (x.lowerBorder * (x.quarterIn place).1 < digits * (x.quarterIn place).2)
          && decide (digits * (x.quarterIn place).2 < x.upperBorder * (x.quarterIn place).1) := rfl

theorem rounds_iff (hpos : 0 < x.mantissa) :
    x.rounds digits place = true ↔ x.Within (digits * 10 ^ place) := by
  have hlow := cast_lowerBorder hpos
  have hhigh := cast_upperBorder x
  rw [rounds_eq]
  split
  · rename_i heven
    rw [Bool.and_eq_true, decide_eq_true_iff, decide_eq_true_iff, quarters_le_iff, le_quarters_iff,
      hlow, hhigh]
    exact ⟨fun h => ⟨h.1, h.2, fun hodd => absurd heven hodd⟩, fun h => ⟨h.low, h.high⟩⟩
  · rename_i hodd
    rw [Bool.and_eq_true, decide_eq_true_iff, decide_eq_true_iff, quarters_lt_iff, lt_quarters_iff,
      hlow, hhigh]
    exact ⟨fun h => ⟨h.1.le, h.2.le, fun _ => h⟩, fun h => h.inside hodd⟩

/-! ## One grid -/

/-- The point of a grid at a double or right below it. -/
def pointBelow (x : Binary64) (place : ℤ) : ℕ :=
  4 * x.mantissa * (x.quarterIn place).1 / (x.quarterIn place).2

theorem magnitude_eq (x : Binary64) :
    x.magnitude = (4 * x.mantissa : ℕ) * 2 ^ (x.exponent - 2) := by
  have hquarter := quarter_eq x.exponent
  rw [magnitude]
  push_cast
  linear_combination -(x.mantissa : ℚ) * hquarter

/-- A double lies between two points of a grid. -/
theorem pointBelow_spec (x : Binary64) (place : ℤ) :
    x.pointBelow place * 10 ^ place ≤ x.magnitude ∧
      x.magnitude < (x.pointBelow place + 1 : ℕ) * 10 ^ place := by
  have hpos := quarterIn_snd_pos x place
  rw [magnitude_eq]
  constructor
  · exact le_quarters_iff.mp (Nat.div_mul_le_self _ _)
  · refine quarters_lt_iff.mp ?_
    rw [pointBelow, mul_comm _ (x.quarterIn place).2]
    exact Nat.lt_mul_div_succ _ hpos

theorem Within.magnitude (x : Binary64) : x.Within x.magnitude := by
  have hunit := two_zpow_pos x.exponent
  have hgap := x.gapBelow_pos
  exact ⟨by linarith, by linarith, fun _ => ⟨by linarith, by linarith⟩⟩

/-- If a point of a grid rounds to a double, then so does one next to the double, which is no
farther from it. -/
theorem Within.next (h : x.Within (digits * 10 ^ place)) :
    (x.Within (x.pointBelow place * 10 ^ place) ∧
        x.magnitude - x.pointBelow place * 10 ^ place ≤ |x.magnitude - digits * 10 ^ place|) ∨
      (x.Within ((x.pointBelow place + 1 : ℕ) * 10 ^ place) ∧
        (x.pointBelow place + 1 : ℕ) * 10 ^ place - x.magnitude
          ≤ |x.magnitude - digits * 10 ^ place|) := by
  obtain ⟨hbelow, habove⟩ := pointBelow_spec x place
  have hten := ten_zpow_pos place
  rcases Nat.lt_or_ge (x.pointBelow place) digits with hlt | hge
  · have hle : ((x.pointBelow place + 1 : ℕ) : ℚ) * 10 ^ place ≤ digits * 10 ^ place :=
      mul_le_mul_of_nonneg_right (by exact_mod_cast hlt) hten.le
    refine .inr ⟨(Within.magnitude x).convex h habove.le hle, ?_⟩
    rw [abs_of_nonpos (by linarith)]
    linarith
  · have hle : (digits : ℚ) * 10 ^ place ≤ x.pointBelow place * 10 ^ place :=
      mul_le_mul_of_nonneg_right (by exact_mod_cast hge) hten.le
    refine .inl ⟨h.convex (Within.magnitude x) hle hbelow, ?_⟩
    rw [abs_of_nonneg (by linarith)]
    linarith

/-- What a grid gives: nothing if none of its points rounds to the double, or else one of the two
next to it, the nearer one if both do. -/
inductive OnGrid (x : Binary64) (place : ℤ) : Option ℕ → Prop where
  | miss (h : ∀ digits : ℕ, ¬ x.Within (digits * 10 ^ place)) : OnGrid x place none
  | hit {digits : ℕ} (hnext : digits = x.pointBelow place ∨ digits = x.pointBelow place + 1)
    (hwithin : x.Within (digits * 10 ^ place))
    (hclosest : ∀ other : ℕ, x.Within (other * 10 ^ place) →
      |x.magnitude - digits * 10 ^ place| ≤ |x.magnitude - other * 10 ^ place|) :
    OnGrid x place (some digits)

theorem OnGrid.below (h : x.Within (x.pointBelow place * 10 ^ place))
    (hcloser : x.Within ((x.pointBelow place + 1 : ℕ) * 10 ^ place) →
      2 * x.magnitude ≤ (2 * x.pointBelow place + 1 : ℕ) * 10 ^ place) :
    OnGrid x place (some (x.pointBelow place)) := by
  refine .hit (.inl rfl) h fun other hother => ?_
  rw [abs_of_nonneg (sub_nonneg.mpr (pointBelow_spec x place).1)]
  rcases hother.next with ⟨-, hle⟩ | ⟨habove, hle⟩
  · exact hle
  · have hmiddle := hcloser habove
    push_cast at hmiddle hle
    linarith

theorem OnGrid.above (h : x.Within ((x.pointBelow place + 1 : ℕ) * 10 ^ place))
    (hcloser : x.Within (x.pointBelow place * 10 ^ place) →
      (2 * x.pointBelow place + 1 : ℕ) * 10 ^ place ≤ 2 * x.magnitude) :
    OnGrid x place (some (x.pointBelow place + 1)) := by
  refine .hit (.inr rfl) h fun other hother => ?_
  rw [abs_of_nonpos (sub_nonpos.mpr (pointBelow_spec x place).2.le), neg_sub]
  rcases hother.next with ⟨hbelow, hle⟩ | ⟨-, hle⟩
  · have hmiddle := hcloser hbelow
    push_cast at hmiddle ⊢
    linarith
  · exact hle

theorem pointBelow_mul_le (x : Binary64) (place : ℤ) :
    x.pointBelow place * (x.quarterIn place).2 ≤ 4 * x.mantissa * (x.quarterIn place).1 :=
  Nat.div_mul_le_self _ _

theorem two_mul_magnitude (x : Binary64) :
    2 * x.magnitude = (2 * (4 * x.mantissa) : ℕ) * 2 ^ (x.exponent - 2) := by
  rw [magnitude_eq]
  push_cast
  ring

/-- Which of the two points is nearer is decided in whole numbers. -/
theorem twice_lt_iff : 2 * (4 * x.mantissa * (x.quarterIn place).1
      - x.pointBelow place * (x.quarterIn place).2) < (x.quarterIn place).2 ↔
    2 * x.magnitude < (2 * x.pointBelow place + 1 : ℕ) * 10 ^ place := by
  have hle := pointBelow_mul_le x place
  rw [two_mul_magnitude, ← quarters_lt_iff, Nat.mul_assoc 2, Nat.add_mul, Nat.mul_assoc 2]
  omega

theorem lt_twice_iff : (x.quarterIn place).2 < 2 * (4 * x.mantissa * (x.quarterIn place).1
      - x.pointBelow place * (x.quarterIn place).2) ↔
    (2 * x.pointBelow place + 1 : ℕ) * 10 ^ place < 2 * x.magnitude := by
  have hle := pointBelow_mul_le x place
  rw [two_mul_magnitude, ← lt_quarters_iff, Nat.mul_assoc 2, Nat.add_mul, Nat.mul_assoc 2]
  omega

theorem gridPoint?_eq (x : Binary64) (place : ℤ) :
    x.gridPoint? place =
      match x.rounds (x.pointBelow place) place, x.rounds (x.pointBelow place + 1) place with
      | false, false => none
      | true, false => some (x.pointBelow place)
      | false, true => some (x.pointBelow place + 1)
      | true, true =>
        let twice := 2 * (4 * x.mantissa * (x.quarterIn place).1
          - x.pointBelow place * (x.quarterIn place).2)
        if twice < (x.quarterIn place).2 then some (x.pointBelow place)
        else if (x.quarterIn place).2 < twice then some (x.pointBelow place + 1)
        else if x.pointBelow place % 2 = 0 then some (x.pointBelow place)
        else some (x.pointBelow place + 1) := rfl

/-- **Looking at two points of a grid is looking at all of them.** -/
theorem onGrid_gridPoint? (hpos : 0 < x.mantissa) (place : ℤ) :
    OnGrid x place (x.gridPoint? place) := by
  have hrounds : ∀ digits, x.rounds digits place = true ↔ x.Within (digits * 10 ^ place) :=
    fun _ => rounds_iff hpos
  rw [gridPoint?_eq]
  cases hbelow : x.rounds (x.pointBelow place) place with
  | false =>
    have hnotBelow : ¬ x.Within (x.pointBelow place * 10 ^ place) := by
      rw [← hrounds, hbelow]
      exact Bool.false_ne_true
    cases habove : x.rounds (x.pointBelow place + 1) place with
    | false =>
      refine .miss fun digits hdigits => ?_
      rcases hdigits.next with ⟨hwithin, -⟩ | ⟨hwithin, -⟩
      · exact hnotBelow hwithin
      · rw [← hrounds, habove] at hwithin
        cases hwithin
    | true => exact .above ((hrounds _).mp habove) fun h => absurd h hnotBelow
  | true =>
    have hisBelow := (hrounds _).mp hbelow
    cases habove : x.rounds (x.pointBelow place + 1) place with
    | false =>
      refine .below hisBelow fun h => ?_
      rw [← hrounds, habove] at h
      cases h
    | true =>
      have hisAbove := (hrounds _).mp habove
      show OnGrid x place (if _ then _ else if _ then _ else if _ then _ else _)
      split
      · rename_i hlt
        exact .below hisBelow fun _ => (twice_lt_iff.mp hlt).le
      · rename_i hge
        have hle := not_lt.mp (mt twice_lt_iff.mpr hge)
        split
        · exact .above hisAbove fun _ => hle
        · rename_i hle'
          have hge' := not_lt.mp (mt lt_twice_iff.mpr hle')
          split
          · exact .below hisBelow fun _ => hge'
          · exact .above hisAbove fun _ => hle

theorem not_within_of_gridPoint? (hpos : 0 < x.mantissa) (h : x.gridPoint? place = none)
    (digits : ℕ) : ¬ x.Within (digits * 10 ^ place) := by
  have hgrid := onGrid_gridPoint? hpos place
  rw [h] at hgrid
  cases hgrid with
  | miss hmiss => exact hmiss digits

/-! ## Seventeen grids -/

theorem Within.of_lt {q : ℚ} (hlow : x.magnitude - x.gapBelow / 2 < q)
    (hhigh : q < x.magnitude + 2 ^ x.exponent / 2) : x.Within q :=
  ⟨hlow.le, hhigh.le, fun _ => ⟨hlow, hhigh⟩⟩

/-- A grid has a point in an interval that is longer than its steps. -/
theorem exists_gridPoint? (hpos : 0 < x.mantissa)
    (h : (10 : ℚ) ^ place < x.gapBelow / 2 + 2 ^ x.exponent / 2) :
    ∃ digits, x.gridPoint? place = some digits := by
  cases hpoint : x.gridPoint? place with
  | some digits => exact ⟨digits, rfl⟩
  | none =>
    exfalso
    have hnone := not_within_of_gridPoint? hpos hpoint
    obtain ⟨hbelow, habove⟩ := pointBelow_spec x place
    have hunit := two_zpow_pos x.exponent
    have hgap := x.gapBelow_pos
    -- the two points next to the double would stand on either side of the interval
    have hlow : x.pointBelow place * 10 ^ place ≤ x.magnitude - x.gapBelow / 2 := by
      by_contra hlt
      exact hnone _ (.of_lt (not_le.mp hlt) (by linarith))
    have hhigh : x.magnitude + 2 ^ x.exponent / 2 ≤ (x.pointBelow place + 1 : ℕ) * 10 ^ place := by
      by_contra hlt
      exact hnone _ (.of_lt (by linarith) (not_le.mp hlt))
    push_cast at hhigh
    linarith

/-- Sixteen places below its first digit a double has no room between its neighbours. -/
theorem Formed.exists_gridPoint? (h : x.Formed) (hpos : 0 < x.mantissa)
    (hplace : (10 : ℚ) ^ place ≤ x.magnitude) :
    ∃ digits, x.gridPoint? (place - 16) = some digits := by
  apply Binary64.exists_gridPoint? hpos
  have hunit := two_zpow_pos x.exponent
  have hsmall : (10 : ℚ) ^ (place - 16) * 10 ^ 16 = 10 ^ place := by
    rw [← zpow_natCast, ← zpow_add₀ (by norm_num)]
    norm_num
  have hmagnitude : x.magnitude < 2 ^ 53 * 2 ^ x.exponent := by
    have hfits : (x.mantissa : ℚ) < 2 ^ 53 := by exact_mod_cast h.fits
    exact mul_lt_mul_of_pos_right hfits hunit
  unfold gapBelow
  split
  · rename_i hborder
    have hhalf := two_zpow_pred x.exponent
    have hmantissa : x.magnitude = 2 ^ 52 * 2 ^ x.exponent := by
      rw [magnitude, hborder.1]
      norm_num [precision]
    rw [hmantissa] at hplace
    linarith
  · linarith

/-! ## The first digit -/

/-- Whether a power of ten is not above a double. -/
def reaches (x : Binary64) (place : ℤ) : Bool :=
  decide ((x.quarterIn place).2 ≤ 4 * x.mantissa * (x.quarterIn place).1)

theorem reaches_iff : x.reaches place = true ↔ (10 : ℚ) ^ place ≤ x.magnitude := by
  have hone : 1 * (x.quarterIn place).2 ≤ 4 * x.mantissa * (x.quarterIn place).1 ↔
      ((1 : ℕ) : ℚ) * 10 ^ place ≤ (4 * x.mantissa : ℕ) * 2 ^ (x.exponent - 2) := le_quarters_iff
  rw [Nat.one_mul, Nat.cast_one, one_mul, ← magnitude_eq] at hone
  rw [reaches, decide_eq_true_iff, hone]

/-- One place higher, if the power of ten there is not above a double. -/
def climb (x : Binary64) (place : ℤ) : ℤ := if x.reaches (place + 1) then place + 1 else place

/-- A first guess at the place of the first digit. -/
def estimate (x : Binary64) : ℤ := (((x.mantissa.log2 : ℤ) + x.exponent) * 30103) / 100000 - 1

theorem log10Floor_eq (x : Binary64) :
    x.log10Floor = x.climb (x.climb (x.climb x.estimate)) := rfl

/-- A climb stays below the double, and above it is one place less to climb. -/
theorem climb_spec {more : ℕ} (h : (10 : ℚ) ^ place ≤ x.magnitude)
    (hbound : x.magnitude < 10 ^ (place + (more + 1 : ℕ) + 1)) :
    (10 : ℚ) ^ x.climb place ≤ x.magnitude ∧ x.magnitude < 10 ^ (x.climb place + more + 1) := by
  unfold climb
  split
  · rename_i hreaches
    refine ⟨reaches_iff.mp hreaches, hbound.trans_le (le_of_eq ?_)⟩
    congr 1
    push_cast
    omega
  · rename_i hreaches
    rw [reaches_iff, not_le] at hreaches
    exact ⟨h, hreaches.trans_le (zpow_le_zpow_right₀ (by norm_num) (by omega))⟩

/-- Powers of two that are whole, between the powers of ten that are guessed for them. -/
theorem estimate_nonneg : ∀ k < 1100, 10 ^ (k * 30103 / 100000) ≤ 10 * 2 ^ k ∧
    2 ^ (k + 1) < 10 ^ (k * 30103 / 100000 + 3) := by decide +kernel

/-- Powers of two below one, turned over. -/
theorem estimate_neg : ∀ k < 1100, 2 ^ k ≤ 10 ^ ((k * 30103 + 99999) / 100000 + 1) ∧
    2 * 10 ^ ((k * 30103 + 99999) / 100000) < 10 ^ 3 * 2 ^ k := by decide +kernel

theorem estimate_spec {k : ℤ} (hlow : -1100 < k) (hhigh : k < 1100) :
    (10 : ℚ) ^ (k * 30103 / 100000 - 1) ≤ 2 ^ k ∧
      (2 : ℚ) ^ (k + 1) < 10 ^ (k * 30103 / 100000 + 3) := by
  have hten : ∀ e : ℤ, (10 : ℚ) ^ (e + 1) = 10 ^ e * 10 := zpow_add_one₀ (by norm_num)
  rcases Int.le_total 0 k with hpos | hneg
  · obtain ⟨n, rfl⟩ := Int.eq_ofNat_of_zero_le hpos
    obtain ⟨hbelow, habove⟩ := estimate_nonneg n (by omega)
    have hdiv : (n : ℤ) * 30103 / 100000 = (n * 30103 / 100000 : ℕ) := by push_cast; rfl
    rw [hdiv]
    generalize n * 30103 / 100000 = e at hbelow habove
    have hbelow' : (10 : ℚ) ^ e ≤ 10 * 2 ^ n := by exact_mod_cast hbelow
    constructor
    · have hstep := hten ((e : ℤ) - 1)
      rw [Int.sub_add_cancel, zpow_natCast] at hstep
      rw [zpow_natCast]
      linarith
    · exact_mod_cast habove
  · obtain ⟨n, hn⟩ := Int.eq_ofNat_of_zero_le (Int.neg_nonneg.mpr hneg)
    obtain rfl : k = -n := by omega
    obtain ⟨hbelow, habove⟩ := estimate_neg n (by omega)
    have hdiv : -(n : ℤ) * 30103 / 100000 = -((n * 30103 + 99999) / 100000 : ℕ) := by
      push_cast
      omega
    rw [hdiv]
    generalize (n * 30103 + 99999) / 100000 = e at hbelow habove
    have hbelow' : (2 : ℚ) ^ n ≤ 10 ^ (e + 1) := by exact_mod_cast hbelow
    have habove' : (2 : ℚ) * 10 ^ e < 10 ^ 3 * 2 ^ n := by exact_mod_cast habove
    have htwo : (0 : ℚ) < 2 ^ n := by positivity
    have hpow : (0 : ℚ) < 10 ^ e := by positivity
    constructor
    · have hexponent : -(e : ℤ) - 1 = -((e + 1 : ℕ) : ℤ) := by omega
      rw [hexponent, zpow_neg, zpow_neg, zpow_natCast, zpow_natCast]
      exact inv_anti₀ htwo hbelow'
    · have hexponent : -(e : ℤ) + 3 = 3 - e := by omega
      have hexponent' : -(n : ℤ) + 1 = 1 - n := by omega
      rw [hexponent, hexponent', zpow_sub₀ (by norm_num), zpow_sub₀ (by norm_num), zpow_natCast,
        zpow_natCast, div_lt_div_iff₀ htwo hpow]
      exact_mod_cast habove

/-- **The place that the search starts from is that of the first digit.** -/
theorem Normal.log10Floor_spec (h : x.Normal) (hpos : 0 < x.mantissa) :
    (10 : ℚ) ^ x.log10Floor ≤ x.magnitude ∧ x.magnitude < 10 ^ (x.log10Floor + 1) := by
  have hleast := h.least
  have hfinite := h.finite
  have hlog : x.mantissa.log2 < precision := (Nat.log2_lt hpos.ne').mpr h.fits
  simp only [minExponent, maxExponent, precision] at hleast hfinite hlog
  have hunit := two_zpow_pos x.exponent
  obtain ⟨hbelow, habove⟩ := estimate_spec (k := x.mantissa.log2 + x.exponent) (by omega) (by omega)
  have hlow : (2 : ℚ) ^ ((x.mantissa.log2 : ℤ) + x.exponent) ≤ x.magnitude := by
    have hmantissa : (2 : ℚ) ^ x.mantissa.log2 ≤ x.mantissa := by
      exact_mod_cast Nat.log2_self_le hpos.ne'
    rw [zpow_add₀ (by norm_num), zpow_natCast, magnitude]
    exact mul_le_mul_of_nonneg_right hmantissa hunit.le
  have hhigh : x.magnitude < 2 ^ ((x.mantissa.log2 : ℤ) + x.exponent + 1) := by
    have hmantissa : (x.mantissa : ℚ) < 2 ^ (x.mantissa.log2 + 1) := by
      exact_mod_cast Nat.lt_log2_self
    have hexponent : (x.mantissa.log2 : ℤ) + x.exponent + 1
        = ((x.mantissa.log2 + 1 : ℕ) : ℤ) + x.exponent := by omega
    rw [hexponent, zpow_add₀ (by norm_num), zpow_natCast, magnitude]
    exact mul_lt_mul_of_pos_right hmantissa hunit
  rw [log10Floor_eq]
  have hstart : (10 : ℚ) ^ x.estimate ≤ x.magnitude := hbelow.trans hlow
  have hstop : x.magnitude < 10 ^ (x.estimate + (3 : ℕ) + 1) := by
    refine (hhigh.trans habove).trans_le (le_of_eq ?_)
    congr 1
    unfold estimate
    omega
  obtain ⟨hone, hone'⟩ := climb_spec hstart hstop
  obtain ⟨htwo, htwo'⟩ := climb_spec hone hone'
  simpa using climb_spec htwo htwo'

/-! ## The search -/

theorem searchGrids_succ {count : ℕ} (h : x.gridPoint? place = none) :
    x.searchGrids place (count + 1) = x.searchGrids (place - 1) count := by
  rw [searchGrids, h]

/-- The search ends at the first grid with a point, if there is one among those it tries. -/
theorem searchGrids_spec {count : ℕ}
    (h : ∃ i < count, ∃ digits, x.gridPoint? (place - i) = some digits) :
    x.gridPoint? (x.searchGrids place count).2 = some (x.searchGrids place count).1 ∧
      (x.searchGrids place count).2 ≤ place ∧
      ∀ other, (x.searchGrids place count).2 < other → other ≤ place →
        x.gridPoint? other = none := by
  induction count generalizing place with
  | zero =>
    obtain ⟨i, hi, -⟩ := h
    exact absurd hi (Nat.not_lt_zero i)
  | succ count ih =>
    cases hpoint : x.gridPoint? place with
    | some digits =>
      simp only [searchGrids, hpoint]
      exact ⟨trivial, le_refl _, fun other hlt hle => absurd hle (not_le.mpr hlt)⟩
    | none =>
      rw [searchGrids_succ hpoint]
      -- the grid with a point is not this one, so it is among those that are left
      have hleft : ∃ i < count, ∃ digits, x.gridPoint? (place - 1 - i) = some digits := by
        obtain ⟨i, hi, digits, hdigits⟩ := h
        cases i with
        | zero => simp [hpoint] at hdigits
        | succ i =>
          refine ⟨i, by omega, digits, ?_⟩
          rw [← hdigits]
          congr 1
          push_cast
          omega
      obtain ⟨hfound, hle, hbefore⟩ := ih hleft
      refine ⟨hfound, by omega, fun other hlt hother => ?_⟩
      rcases eq_or_lt_of_le hother with rfl | hless
      · exact hpoint
      · exact hbefore other hlt (by omega)

/-- Where the search ends: at a point of a grid that is next to the double and the nearest of those
that round to it, with no point on a coarser grid unless the double begins at this place. -/
structure FirstHit (x : Binary64) (digits : ℕ) (place : ℤ) : Prop where
  next : digits = x.pointBelow place ∨ digits = x.pointBelow place + 1
  within : x.Within (digits * 10 ^ place)
  closest : ∀ other : ℕ, x.Within (other * 10 ^ place) →
    |x.magnitude - digits * 10 ^ place| ≤ |x.magnitude - other * 10 ^ place|
  reached : (10 : ℚ) ^ place ≤ x.magnitude
  coarser : x.magnitude < 10 ^ (place + 1) ∨
    ∀ (other : ℕ) (p : ℤ), place < p → ¬ x.Within (other * 10 ^ p)

/-- A point of a coarse grid is one of a fine grid. -/
theorem exists_point_eq (points : ℕ) {fine coarse : ℤ} (h : fine ≤ coarse) :
    ∃ other : ℕ, (points : ℚ) * 10 ^ coarse = other * 10 ^ fine := by
  obtain ⟨k, hk⟩ := Int.eq_ofNat_of_zero_le (Int.sub_nonneg.mpr h)
  refine ⟨points * 10 ^ k, ?_⟩
  have hcoarse : coarse = k + fine := by omega
  rw [hcoarse, zpow_add₀ (by norm_num), zpow_natCast]
  push_cast
  ring

/-- A point that a grid gives, with no point on coarser ones. -/
theorem firstHit_of_gridPoint? (hpos : 0 < x.mantissa) (hpoint : x.gridPoint? place = some digits)
    (hreached : (10 : ℚ) ^ place ≤ x.magnitude)
    (hcoarser : x.magnitude < 10 ^ (place + 1) ∨ x.gridPoint? (place + 1) = none) :
    x.FirstHit digits place := by
  have hgrid := onGrid_gridPoint? hpos place
  rw [hpoint] at hgrid
  cases hgrid with
  | hit hnext hwithin hclosest =>
    refine ⟨hnext, hwithin, hclosest, hreached, hcoarser.imp_right ?_⟩
    intro hnone other p hp hother
    -- the grid right before this one has no point, and the coarser ones are part of it
    obtain ⟨point, hpoint⟩ := exists_point_eq other (Int.add_one_le_of_lt hp)
    exact not_within_of_gridPoint? hpos hnone point (hpoint ▸ hother)

/-- **The search finds digits.** -/
theorem Normal.firstHit_shortest (h : x.Normal) (hpos : 0 < x.mantissa) :
    x.FirstHit x.shortest.1 x.shortest.2 := by
  obtain ⟨hreached, hbound⟩ := h.log10Floor_spec hpos
  have hsixteen : ∃ i < 17, ∃ digits, x.gridPoint? (x.log10Floor - (i : ℕ)) = some digits :=
    ⟨16, by norm_num, h.toFormed.exists_gridPoint? hpos hreached⟩
  obtain ⟨hpoint, hle, hbefore⟩ := searchGrids_spec hsixteen
  refine firstHit_of_gridPoint? hpos hpoint ?_ ?_
  · exact (zpow_le_zpow_right₀ (by norm_num) hle).trans hreached
  · rcases eq_or_lt_of_le hle with heq | hlt
    · exact .inl (heq ▸ hbound)
    · exact .inr (hbefore _ (Int.lt_succ _) hlt)

/-! ## Fewest digits -/

/-- The decimal that a double is shown as: it rounds to the double, no other that does has fewer
digits, and none with as many is nearer. -/
structure Shortest (x : Binary64) (digits : ℕ) (place : ℤ) : Prop where
  nearest : x.Nearest (digits * 10 ^ place)
  fewest : ∀ (other : ℕ) (p : ℤ), x.Nearest (other * 10 ^ p) →
    (Nat.toDigits 10 digits).length ≤ (Nat.toDigits 10 other).length
  closest : ∀ (other : ℕ) (p : ℤ), x.Nearest (other * 10 ^ p) →
    (Nat.toDigits 10 other).length = (Nat.toDigits 10 digits).length →
      |x.magnitude - digits * 10 ^ place| ≤ |x.magnitude - other * 10 ^ p|

theorem lt_pow_digits (n : ℕ) : n < 10 ^ (Nat.toDigits 10 n).length :=
  (Nat.length_toDigits_le_iff (by norm_num) Nat.length_toDigits_pos).mp le_rfl

theorem pow_le_of_lt_digits {n count : ℕ} (hcount : 0 < count)
    (h : count < (Nat.toDigits 10 n).length) : 10 ^ count ≤ n := by
  by_contra hlt
  have hle := (Nat.length_toDigits_le_iff (by norm_num) hcount).mpr (not_le.mp hlt)
  exact absurd hle (not_le.mpr h)

namespace FirstHit

variable {kept zeros : ℕ}

/-- No double but zero itself is so small that zero rounds to it. -/
theorem digits_pos (h : x.FirstHit digits place) (hpos : 0 < x.mantissa) : 0 < digits := by
  refine Nat.pos_of_ne_zero fun hzero => ?_
  have hlow := h.within.low
  have hunit := two_zpow_pos x.exponent
  have hgap := x.gapBelow_le
  have hmantissa : (1 : ℚ) ≤ x.mantissa := by exact_mod_cast hpos
  have hmagnitude : 2 ^ x.exponent ≤ x.magnitude := le_mul_of_one_le_left hunit.le hmantissa
  rw [hzero, Nat.cast_zero, zero_mul] at hlow
  linarith

/-- A decimal with fewer digits would be a point of a coarser grid. -/
theorem kept_lt_ten (h : x.FirstHit digits place) (hdigits : digits = kept * 10 ^ zeros)
    (hlast : kept % 10 ≠ 0) {other : ℕ} {p : ℤ} (hp : place < p)
    (hother : x.Within (other * 10 ^ p)) : kept < 10 := by
  rcases h.coarser with hbound | hnone
  · have hten := ten_zpow_pos place
    have hbelow : x.pointBelow place < 10 := by
      have hlt := (pointBelow_spec x place).1.trans_lt hbound
      rw [zpow_add_one₀ (by norm_num), mul_comm (10 ^ place : ℚ)] at hlt
      exact_mod_cast lt_of_mul_lt_mul_right hlt hten.le
    have hle : kept * 10 ^ zeros ≤ 10 := by
      rw [← hdigits]
      rcases h.next with hnext | hnext <;> omega
    cases zeros with
    | zero => omega
    | succ zeros =>
      have hpow : 1 ≤ 10 ^ zeros := Nat.one_le_pow _ _ (by norm_num)
      rw [Nat.pow_succ] at hle
      nlinarith
  · exact absurd hother (hnone other p hp)

theorem kept_le (h : digits = kept * 10 ^ zeros) : kept ≤ digits :=
  h ▸ Nat.le_mul_of_pos_right kept (by positivity)

/-- A decimal below a power of ten that is not above what is kept of the digits lies before them. -/
theorem mul_zpow_le {other : ℕ} {p : ℤ} {count : ℕ} (h : other < 10 ^ count) (hp : p ≤ place) :
    (other : ℚ) * 10 ^ p ≤ (10 ^ count : ℕ) * 10 ^ place := by
  have hother : (other : ℚ) ≤ (10 ^ count : ℕ) := by exact_mod_cast h.le
  exact mul_le_mul hother (zpow_le_zpow_right₀ (by norm_num) hp) (ten_zpow_pos p).le (by positivity)

theorem fewest (h : x.FirstHit digits place) (hdigits : digits = kept * 10 ^ zeros)
    (hlast : kept % 10 ≠ 0) {other : ℕ} {p : ℤ} (hother : x.Within (other * 10 ^ p)) :
    (Nat.toDigits 10 kept).length ≤ (Nat.toDigits 10 other).length := by
  by_contra hshorter
  have hcount : 0 < (Nat.toDigits 10 other).length := Nat.length_toDigits_pos
  have hpower := pow_le_of_lt_digits hcount (not_le.mp hshorter)
  have hten : 10 ≤ kept := (Nat.le_self_pow hcount.ne' 10).trans hpower
  rcases Int.lt_or_le place p with hp | hp
  · exact absurd (h.kept_lt_ten hdigits hlast hp hother) (not_lt.mpr hten)
  · -- the power of ten between the shorter decimal and the digits rounds to the double as well
    have hwithin : x.Within ((10 ^ (Nat.toDigits 10 other).length : ℕ) * 10 ^ place) := by
      refine hother.convex h.within (mul_zpow_le (lt_pow_digits other) hp) ?_
      have hle : ((10 ^ (Nat.toDigits 10 other).length : ℕ) : ℚ) ≤ digits := by
        exact_mod_cast hpower.trans (kept_le hdigits)
      exact mul_le_mul_of_nonneg_right hle (ten_zpow_pos place).le
    have hcoarse : x.Within ((1 : ℕ) * 10 ^ (place + (Nat.toDigits 10 other).length)) := by
      rw [zpow_add₀ (by norm_num), zpow_natCast]
      push_cast at hwithin ⊢
      rwa [one_mul, mul_comm]
    exact absurd (h.kept_lt_ten hdigits hlast (by omega) hcoarse) (not_lt.mpr hten)

theorem closest_of_length (h : x.FirstHit digits place) (hdigits : digits = kept * 10 ^ zeros)
    (hlast : kept % 10 ≠ 0) {other : ℕ} {p : ℤ} (hother : x.Within (other * 10 ^ p))
    (hlength : (Nat.toDigits 10 other).length = (Nat.toDigits 10 kept).length) :
    |x.magnitude - digits * 10 ^ place| ≤ |x.magnitude - other * 10 ^ p| := by
  rcases Int.lt_or_le p place with hp | hp
  · -- on a finer grid it lies below the power of ten that is as long
    obtain ⟨count, hcount⟩ : ∃ count, (Nat.toDigits 10 kept).length = count + 1 :=
      Nat.exists_eq_succ_of_ne_zero Nat.length_toDigits_pos.ne'
    have hten := ten_zpow_pos place
    have hpower : 10 ^ count ≤ kept := by
      rcases Nat.eq_zero_or_pos count with rfl | hcountpos
      · exact Nat.pos_of_ne_zero fun hzero => hlast (by rw [hzero])
      · exact pow_le_of_lt_digits hcountpos (by omega)
    have hle : (other : ℚ) * 10 ^ p ≤ (10 ^ count : ℕ) * 10 ^ place := by
      have hlt : other < 10 ^ (count + 1) := by
        have hlt := lt_pow_digits other
        rwa [hlength, hcount] at hlt
      have hstep := mul_zpow_le hlt (Int.le_sub_one_of_lt hp)
      refine hstep.trans (le_of_eq ?_)
      have hplace : (10 : ℚ) ^ place = 10 ^ (place - 1) * 10 := by
        rw [← zpow_add_one₀ (by norm_num), Int.sub_add_cancel]
      rw [hplace]
      push_cast
      ring
    have hle' : ((10 ^ count : ℕ) : ℚ) * 10 ^ place ≤ digits * 10 ^ place := by
      have hnat : ((10 ^ count : ℕ) : ℚ) ≤ digits := by
        exact_mod_cast hpower.trans (kept_le hdigits)
      exact mul_le_mul_of_nonneg_right hnat hten.le
    rcases le_or_gt (((10 ^ count : ℕ) : ℚ) * 10 ^ place) x.magnitude with hbelow | habove
    · refine (h.closest _ (hother.convex h.within hle hle')).trans ?_
      rw [abs_of_nonneg (by linarith), abs_of_nonneg (by linarith)]
      linarith
    · -- then the digits are that power of ten, which has one digit only if the double reaches it
      exfalso
      have hpoint : x.pointBelow place < 10 ^ count := by
        have hlt := (pointBelow_spec x place).1.trans_lt habove
        exact_mod_cast lt_of_mul_lt_mul_right hlt hten.le
      have hkept := kept_le hdigits
      have heq : kept = 10 ^ count := by
        rcases h.next with hnext | hnext <;> omega
      have hzero : count = 0 := by
        by_contra hne
        exact hlast (heq ▸ Nat.mod_eq_zero_of_dvd (dvd_pow_self 10 hne))
      have hreached := h.reached
      rw [hzero] at habove
      norm_num at habove
      linarith
  · obtain ⟨point, hpoint⟩ := exists_point_eq other hp
    rw [hpoint] at hother ⊢
    exact h.closest point hother

/-- **What is kept of the digits is the shortest decimal**, whatever zeros there are at their end. -/
theorem shortest (h : x.FirstHit digits place) (hx : x.Formed) (hpos : 0 < x.mantissa)
    (hdigits : digits = kept * 10 ^ zeros) (hlast : kept % 10 ≠ 0) :
    x.Shortest kept (place + zeros) := by
  have hvalue : (kept : ℚ) * 10 ^ (place + zeros) = digits * 10 ^ place := by
    rw [hdigits, zpow_add₀ (by norm_num), zpow_natCast]
    push_cast
    ring
  refine ⟨?_, fun other p hother => ?_, fun other p hother hlength => ?_⟩
  · rw [hvalue, hx.nearest_iff_within hpos]
    exact h.within
  · exact h.fewest hdigits hlast ((hx.nearest_iff_within hpos).mp hother)
  · rw [hvalue]
    exact h.closest_of_length hdigits hlast ((hx.nearest_iff_within hpos).mp hother) hlength

end FirstHit

/-- Zero has one digit. -/
theorem shortest_zero (hzero : x.mantissa = 0) : x.Shortest 0 0 := by
  have hmagnitude : x.magnitude = 0 := by simp [magnitude, hzero]
  have hvalue : ((0 : ℕ) : ℚ) * 10 ^ (0 : ℤ) = x.magnitude := by rw [hmagnitude]; norm_num
  refine ⟨hvalue ▸ nearest_magnitude x, fun other p _ => ?_, fun other p _ _ => ?_⟩
  · exact Nat.length_toDigits_pos
  · rw [hvalue, sub_self, abs_zero]
    exact abs_nonneg _

end AccessLog.Binary64
