import AccessLog.Proofs.Time.Calendar
import Mathlib.Order.Monotone.Basic

/-!
# Counting days

How many days there are from one date to another can be counted: the years between them are as long
as the rule for leap years says, and so are the months. **The number of a date is what is counted from
the first day of 1970** (`number_eq_days`), in both directions. From one month to the next, and from
one year to the next, the number grows by the length of the month or the year: these are the steps,
and the rest is induction.

Every date lies within its month and every month within its year, so no two dates have one number
(`number_inj`). With that **a date is found again from its number** (`ofNumber_number`).
-/

set_option autoImplicit false

namespace AccessLog.Time

/-! ## Dates of the calendar -/

namespace Date

/-- A date is one of the calendar. -/
structure InCalendar (d : Date) : Prop where
  month : 1 ≤ d.month ∧ d.month ≤ 12
  day : 1 ≤ d.day ∧ d.day ≤ daysInMonth d.year d.month

variable {d : Date}

theorem isValid_iff : d.isValid = true ↔ d.InCalendar := by
  simp only [isValid, Bool.and_eq_true, decide_eq_true_eq]
  constructor
  · intro h
    obtain ⟨⟨hmonth, hlow⟩, hhigh⟩ := h
    exact ⟨hmonth, hlow, hhigh⟩
  · intro h
    exact ⟨⟨h.month, h.day.1⟩, h.day.2⟩

theorem inCalendar_ofNumber (n : Int) : (ofNumber n).InCalendar :=
  isValid_iff.mp (isValid_ofNumber n)

/-- No month has more than 31 days. -/
theorem InCalendar.day_range (h : d.InCalendar) : 1 ≤ d.day ∧ d.day ≤ 31 := by
  have hmonth : daysInMonth d.year d.month ≤ 31 := by
    unfold daysInMonth
    split
    · split <;> omega
    · split <;> omega
  exact ⟨h.day.1, h.day.2.trans hmonth⟩

end Date

/-! ## What is to be counted -/

/-- The days of a year. -/
def daysInYear (year : Int) : Nat := if isLeap year then 366 else 365

/-- The days from the start of the year 0 to the start of a year, year by year. -/
def daysBeforeYear : Int → Int
  | .ofNat n => ((List.range n).map fun k : Nat => (daysInYear k : Int)).sum
  | .negSucc n => -((List.range (n + 1)).map fun k : Nat => (daysInYear (-1 - k) : Int)).sum

/-- The days of the first months of a year, month by month. -/
def daysInMonths (year : Int) (count : Nat) : Nat :=
  ((List.range count).map fun k => daysInMonth year (k + 1)).sum

/-- The days from the first one of 1970 to a date. -/
def Date.days (d : Date) : Int :=
  daysBeforeYear d.year - daysBeforeYear 1970 + daysInMonths d.year (d.month - 1) + (d.day - 1)

/-! ## Steps -/

theorem daysBeforeYear_succ (year : Int) :
    daysBeforeYear (year + 1) = daysBeforeYear year + daysInYear year := by
  cases year with
  | ofNat n =>
    show daysBeforeYear (Int.ofNat (n + 1)) = _
    simp [daysBeforeYear, List.range_succ]
  | negSucc n =>
    cases n with
    | zero => simp [daysBeforeYear]
    | succ n =>
      have hnext : Int.negSucc (n + 1) + 1 = Int.negSucc n := by omega
      have hyear : Int.negSucc (n + 1) = -1 - ((n + 1 : Nat) : Int) := by omega
      rw [hnext]
      simp only [daysBeforeYear]
      rw [List.range_succ (n := n + 1), hyear]
      simp

theorem daysInMonths_succ (year : Int) (count : Nat) :
    daysInMonths year (count + 1) = daysInMonths year count + daysInMonth year (count + 1) := by
  simp [daysInMonths, List.range_succ]

/-- The days from the first March of a cycle's year 0 to a March. -/
def daysToMarch (year : Int) : Int :=
  cycleDays * (year / 400) + (365 * (year % 400) + year % 400 / 4 - year % 400 / 100)

/-- From one March to the next there are the days of the year in which the next one is. -/
theorem daysToMarch_eq (year : Int) :
    daysToMarch year = daysToMarch (year - 1) + daysInYear year := by
  simp only [daysToMarch, daysInYear, isLeap, cycleDays, Bool.and_eq_true, Bool.or_eq_true,
    beq_iff_eq, bne_iff_ne]
  split <;> omega

theorem number_eq_daysToMarch {y : Int} {m d : Nat} (year month : Int)
    (hmonth : 0 ≤ month ∧ month ≤ 11) (hm : (m : Int) = if month < 10 then month + 3 else month - 9)
    (hy : y = year + if month < 10 then 0 else 1) :
    Date.number ⟨y, m, d⟩ = daysToMarch year + (153 * month + 2) / 5 + (d - 1) - daysToEpoch := by
  rw [number_eq hmonth hm hy, daysToMarch]
  omega

theorem number_january (y : Int) (d : Nat) :
    Date.number ⟨y, 1, d⟩ = daysToMarch (y - 1) + 306 + (d - 1) - daysToEpoch :=
  number_eq_daysToMarch (y - 1) 10 (by decide) rfl (by simp)

theorem number_february (y : Int) (d : Nat) :
    Date.number ⟨y, 2, d⟩ = daysToMarch (y - 1) + 337 + (d - 1) - daysToEpoch :=
  number_eq_daysToMarch (y - 1) 11 (by decide) rfl (by simp)

theorem number_from_march (y : Int) {m : Nat} (hm : 3 ≤ m ∧ m ≤ 12) (d : Nat) :
    Date.number ⟨y, m, d⟩
      = daysToMarch y + (153 * ((m : Int) - 3) + 2) / 5 + (d - 1) - daysToEpoch := by
  have hlt : (m : Int) - 3 < 10 := by omega
  apply number_eq_daysToMarch y (m - 3)
  · omega
  · rw [if_pos hlt]
    omega
  · rw [if_pos hlt]
    omega

/-- From one month to the next the number grows by the days of the month. -/
theorem number_succ_month {y : Int} {m : Nat} (hm : 1 ≤ m ∧ m ≤ 11) :
    Date.number ⟨y, m + 1, 1⟩ = Date.number ⟨y, m, 1⟩ + daysInMonth y m := by
  by_cases hone : m = 1
  · subst hone
    rw [number_february, number_january]
    simp [daysInMonth]
    omega
  · by_cases htwo : m = 2
    · subst htwo
      -- the one month that ends with the year from March
      rw [number_from_march y (by decide), number_february, daysToMarch_eq y]
      simp only [daysInMonth, daysInYear, if_true]
      split <;> omega
    · have hthree : 3 ≤ m := by omega
      rw [number_from_march y (by omega), number_from_march y (by omega)]
      obtain ⟨-, hhigh⟩ := hm
      interval_cases m
      all_goals
        simp [daysInMonth]
        omega

/-- From one year to the next it grows by the days of the year. -/
theorem number_succ_year (y : Int) :
    Date.number ⟨y + 1, 1, 1⟩ = Date.number ⟨y, 1, 1⟩ + daysInYear y := by
  rw [number_january, number_january, Int.add_sub_cancel, daysToMarch_eq y]
  omega

/-! ## What is counted -/

theorem number_new_year (y : Int) :
    Date.number ⟨y, 1, 1⟩ = daysBeforeYear y - daysBeforeYear 1970 := by
  refine Int.inductionOn' y 1970 ?_ ?_ ?_
  · have hstart : Date.number ⟨1970, 1, 1⟩ = 0 := by decide
    omega
  · intro y _ ih
    rw [number_succ_year, daysBeforeYear_succ, ih]
    omega
  · intro y _ ih
    have hnumber := number_succ_year (y - 1)
    have hdays := daysBeforeYear_succ (y - 1)
    rw [Int.sub_add_cancel] at hnumber hdays
    omega

theorem number_new_month (y : Int) (count : Nat) (h : count ≤ 11) :
    Date.number ⟨y, count + 1, 1⟩ = Date.number ⟨y, 1, 1⟩ + daysInMonths y count := by
  induction count with
  | zero => simp [daysInMonths]
  | succ count ih =>
    rw [number_succ_month ⟨by omega, h⟩, ih (by omega), daysInMonths_succ]
    omega

namespace Date

variable {d : Date}

theorem number_eq_new_month (d : Date) :
    d.number = Date.number ⟨d.year, d.month, 1⟩ + (d.day - 1) := by
  simp only [number]
  omega

theorem number_eq_new_year (h : d.InCalendar) :
    d.number = Date.number ⟨d.year, 1, 1⟩ + daysInMonths d.year (d.month - 1) + (d.day - 1) := by
  obtain ⟨⟨hlow, hhigh⟩, -⟩ := h
  have hmonth := number_new_month d.year (d.month - 1) (by omega)
  rw [Nat.sub_add_cancel hlow] at hmonth
  rw [number_eq_new_month, hmonth]

/-- **The number of a date is what is counted** from the first day of 1970. -/
theorem number_eq_days (h : d.InCalendar) : d.number = d.days := by
  rw [number_eq_new_year h, number_new_year, days]

end Date

/-! ## Dates and their numbers -/

theorem daysInMonths_twelve (y : Int) : daysInMonths y 12 = daysInYear y := by
  simp only [daysInMonths, List.range_succ, List.range_zero, daysInMonth, daysInYear]
  simp
  split <;> rfl

theorem monotone_daysInMonths (y : Int) : Monotone (daysInMonths y) := by
  apply monotone_nat_of_le_succ
  intro count
  rw [daysInMonths_succ]
  omega

theorem new_year_le_new_year {y y' : Int} (h : y ≤ y') :
    Date.number ⟨y, 1, 1⟩ ≤ Date.number ⟨y', 1, 1⟩ := by
  obtain ⟨n, rfl⟩ := Int.le.dest h
  clear h
  induction n with
  | zero => simp
  | succ n ih =>
    rw [Int.natCast_succ, ← Int.add_assoc, number_succ_year]
    omega

namespace Date

variable {d d' : Date}

/-- A date lies in its month. -/
theorem InCalendar.lt_next_month (h : d.InCalendar) :
    d.number < Date.number ⟨d.year, 1, 1⟩ + daysInMonths d.year d.month := by
  have hmonth := h.month
  have hday := h.day
  have hmonths := daysInMonths_succ d.year (d.month - 1)
  rw [Nat.sub_add_cancel hmonth.1] at hmonths
  rw [number_eq_new_year h, hmonths]
  omega

theorem InCalendar.new_year_le (h : d.InCalendar) : Date.number ⟨d.year, 1, 1⟩ ≤ d.number := by
  have hday := h.day
  rw [number_eq_new_year h]
  omega

/-- A date lies in its year. -/
theorem InCalendar.lt_next_year (h : d.InCalendar) :
    d.number < Date.number ⟨d.year + 1, 1, 1⟩ := by
  have hmonths : daysInMonths d.year d.month ≤ daysInMonths d.year 12 :=
    monotone_daysInMonths d.year h.month.2
  rw [daysInMonths_twelve] at hmonths
  have hlt := h.lt_next_month
  rw [number_succ_year]
  omega

/-- A date that is not before another is in no earlier year. -/
theorem year_le (h : d.InCalendar) (h' : d'.InCalendar) (hle : d.number ≤ d'.number) :
    d.year ≤ d'.year := by
  by_contra hyear
  have hnew : Date.number ⟨d'.year + 1, 1, 1⟩ ≤ Date.number ⟨d.year, 1, 1⟩ :=
    new_year_le_new_year (by omega)
  have hlt := h'.lt_next_year
  have hge := h.new_year_le
  omega

theorem month_le (h : d.InCalendar) (h' : d'.InCalendar) (hyear : d.year = d'.year)
    (hle : d.number ≤ d'.number) : d.month ≤ d'.month := by
  by_contra hmonth
  have hnew : daysInMonths d.year d'.month ≤ daysInMonths d.year (d.month - 1) :=
    monotone_daysInMonths d.year (by omega)
  have hlt := h'.lt_next_month
  have hday := h.day
  rw [number_eq_new_year h] at hle
  rw [hyear] at hnew hle
  omega

/-- **No two dates have one number.** -/
theorem number_inj (h : d.InCalendar) (h' : d'.InCalendar) : d.number = d'.number ↔ d = d' := by
  constructor
  · intro heq
    have hyear : d.year = d'.year :=
      Int.le_antisymm (year_le h h' heq.le) (year_le h' h heq.ge)
    have hmonth : d.month = d'.month :=
      Nat.le_antisymm (month_le h h' hyear heq.le) (month_le h' h hyear.symm heq.ge)
    have hday : d.day = d'.day := by
      rw [number_eq_new_month, number_eq_new_month d', hyear, hmonth] at heq
      omega
    cases d
    cases d'
    simp_all
  · rintro rfl
    rfl

/-- **A date is found again from its number.** -/
theorem ofNumber_number (h : d.InCalendar) : ofNumber d.number = d :=
  (number_inj (inCalendar_ofNumber _) h).mp (number_ofNumber _)

/-- Days that follow each other are in one year or in years that do. -/
theorem year_le_succ (h : d.InCalendar) (h' : d'.InCalendar) (hle : d.number ≤ d'.number + 1) :
    d.year ≤ d'.year + 1 := by
  by_contra hyear
  have hnew : Date.number ⟨d'.year + 1 + 1, 1, 1⟩ ≤ Date.number ⟨d.year, 1, 1⟩ :=
    new_year_le_new_year (by omega)
  have hlong : 365 ≤ daysInYear (d'.year + 1) := by
    rw [daysInYear]
    split <;> omega
  rw [number_succ_year] at hnew
  have hlt := h'.lt_next_year
  have hge := h.new_year_le
  omega

end Date

end AccessLog.Time
