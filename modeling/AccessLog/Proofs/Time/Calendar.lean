import AccessLog.Time.Calendar
import Mathlib.Tactic.IntervalCases

/-!
# Days and their numbers

The date of a day number is worked out by a formula with four divisions, each of which corrects the
one before it. It is right because of where a day stands in its cycle of 400 years (`Position`): in
which century, in which span of four years, in which year, and on which day of that year. Years
begin in March, so a year is longer than others only at its end, a span only at the end of its last
year, and so on. Written out with these, the numerator of the formula is 365 times the year of the
cycle and less than 365 more (`yearOfCycle_eq`).

From that, **every number is the number of its date** (`number_ofNumber`), **and its date is one of
the calendar** (`isValid_ofNumber`).
-/

set_option autoImplicit false

namespace AccessLog.Time

/-! ## Positions in a cycle -/

/-- Where a day stands in a cycle: century, span of four years, year and day of the year, each counted
from zero. -/
structure Position where
  century : Int
  span : Int
  year : Int
  day : Int
  century_range : 0 ≤ century ∧ century ≤ 3
  span_range : 0 ≤ span ∧ span ≤ 24
  year_range : 0 ≤ year ∧ year ≤ 3
  day_range : 0 ≤ day ∧ day ≤ 365
  /-- The last year of a span has a leap day, except in the last span of the first three centuries. -/
  leap : day = 365 → year = 3 ∧ (span = 24 → century = 3)

namespace Position

def yearOfCycle (p : Position) : Int := 100 * p.century + 4 * p.span + p.year

def dayOfCycle (p : Position) : Int :=
  36524 * p.century + 1461 * p.span + 365 * p.year + p.day

/-- Every day of a cycle has a position. -/
theorem exists_dayOfCycle_eq {e : Int} (h : 0 ≤ e ∧ e < cycleDays) :
    ∃ p : Position, p.dayOfCycle = e := by
  have hcycle : e < 146097 := h.2
  obtain ⟨c, r, hc, hr, he⟩ : ∃ c r : Int, (0 ≤ c ∧ c ≤ 3) ∧
      (0 ≤ r ∧ r ≤ 36524 ∧ (r = 36524 → c = 3)) ∧ e = 36524 * c + r := by
    by_cases hlast : e = 146096
    · exact ⟨3, 36524, by omega, by omega, by omega⟩
    · exact ⟨e / 36524, e % 36524, by omega, by omega, by omega⟩
  obtain ⟨q, s, hq, hs, hr⟩ : ∃ q s : Int, (0 ≤ q ∧ q ≤ 24) ∧
      (0 ≤ s ∧ s ≤ 1460 ∧ (s = 1460 → q = 24 → c = 3)) ∧ r = 1461 * q + s :=
    ⟨r / 1461, r % 1461, by omega, by omega, by omega⟩
  by_cases hlast : s = 1460
  · refine ⟨⟨c, q, 3, 365, hc, hq, by omega, by omega, by omega⟩, ?_⟩
    simp only [dayOfCycle]
    omega
  · refine ⟨⟨c, q, s / 365, s % 365, hc, hq, by omega, by omega, by omega⟩, ?_⟩
    simp only [dayOfCycle]
    omega

variable (p : Position)

theorem yearOfCycle_range : 0 ≤ p.yearOfCycle ∧ p.yearOfCycle < 400 := by
  obtain ⟨c, q, j, t, hc, hq, hj, ht, hleap⟩ := p
  simp only [yearOfCycle]
  omega

/-- The year of the cycle, from the day of the cycle. -/
theorem yearOfCycle_eq :
    (p.dayOfCycle - p.dayOfCycle / 1460 + p.dayOfCycle / 36524 - p.dayOfCycle / 146096) / 365
      = p.yearOfCycle := by
  obtain ⟨c, q, j, t, hc, hq, hj, ht, hleap⟩ := p
  simp only [dayOfCycle, yearOfCycle]
  generalize he : 36524 * c + 1461 * q + 365 * j + t = e
  -- the last day of a cycle counts as a century of its own in the one quotient, and as a cycle in the
  -- other
  have hcenturies : e / 36524 - e / 146096 = c := by
    by_cases hlast : e = 146096
    · have hcentury : c = 3 := by omega
      omega
    · have hzero : e / 146096 = 0 := by omega
      omega
  -- the quotient by 1460 is early by one day for every span that has passed
  obtain ⟨x, hspans, hx⟩ : ∃ x : Int, e / 1460 = 25 * c + q + x ∧
      (x = 0 ∧ 24 * c + q + 365 * j + t < 1460 ∨ x = 1 ∧ 1460 ≤ 24 * c + q + 365 * j + t) := by
    by_cases hx : 24 * c + q + 365 * j + t < 1460
    · exact ⟨0, by omega, .inl ⟨rfl, hx⟩⟩
    · exact ⟨1, by omega, .inr ⟨rfl, by omega⟩⟩
  have hnumerator : e - e / 1460 + e / 36524 - e / 146096
      = 365 * (100 * c + 4 * q + j) + (t - x) := by omega
  rw [hnumerator]
  omega

/-- The days of the cycle before the year. -/
theorem daysBefore_eq :
    365 * p.yearOfCycle + p.yearOfCycle / 4 - p.yearOfCycle / 100 = p.dayOfCycle - p.day := by
  obtain ⟨c, q, j, t, hc, hq, hj, ht, hleap⟩ := p
  simp only [dayOfCycle, yearOfCycle]
  omega

end Position

/-! ## Dates -/

/-- The date of a day, from its position and its month from March. -/
theorem exists_ofNumber_eq (n : Int) : ∃ (p : Position) (cycle month : Int),
    n + daysToEpoch = cycleDays * cycle + p.dayOfCycle ∧ (0 ≤ month ∧ month ≤ 11) ∧
      ((153 * month + 2) / 5 ≤ p.day ∧ p.day < (153 * (month + 1) + 2) / 5) ∧
      Date.ofNumber n = ⟨p.yearOfCycle + 400 * cycle + if month < 10 then 0 else 1,
        (if month < 10 then month + 3 else month - 9).toNat,
        (p.day - (153 * month + 2) / 5 + 1).toNat⟩ := by
  have hcycle : (0 : Int) < cycleDays := by decide
  obtain ⟨p, hp⟩ := Position.exists_dayOfCycle_eq
    ⟨Int.emod_nonneg (n + daysToEpoch) (Int.ne_of_gt hcycle),
      Int.emod_lt_of_pos (n + daysToEpoch) hcycle⟩
  have hday := p.day_range
  refine ⟨p, (n + daysToEpoch) / cycleDays, (5 * p.day + 2) / 153, ?_, by omega, by omega, ?_⟩
  · rw [hp]
    exact (Int.mul_ediv_add_emod _ _).symm
  · have hdayOfYear : p.dayOfCycle - (365 * p.yearOfCycle + p.yearOfCycle / 4
        - p.yearOfCycle / 100) = p.day := by
      rw [p.daysBefore_eq]
      omega
    simp only [Date.ofNumber, ← hp, p.yearOfCycle_eq, hdayOfYear]
    generalize hmonth : (5 * p.day + 2) / 153 = month
    congr 1
    split <;> split <;> omega

/-- The number of a date whose year begins in March. -/
theorem number_eq {y : Int} {m d : Nat} {year month : Int} (hmonth : 0 ≤ month ∧ month ≤ 11)
    (hm : (m : Int) = if month < 10 then month + 3 else month - 9)
    (hy : y = year + if month < 10 then 0 else 1) :
    Date.number ⟨y, m, d⟩ = cycleDays * (year / 400)
      + (365 * (year % 400) + year % 400 / 4 - year % 400 / 100
        + ((153 * month + 2) / 5 + d - 1)) - daysToEpoch := by
  have hyear : (if m ≤ 2 then y - 1 else y) = year := by
    split <;> split at hy <;> split at hm <;> omega
  have hfromMarch : (((m + 9) % 12 : Nat) : Int) = month := by
    split at hm <;> omega
  simp only [Date.number, hyear, hfromMarch]

/-- **Every number is the number of its date.** -/
theorem Date.number_ofNumber (n : Int) : (Date.ofNumber n).number = n := by
  obtain ⟨p, cycle, month, hn, hmonth, hday, hdate⟩ := exists_ofNumber_eq n
  have hyear := p.yearOfCycle_range
  have hbefore := p.daysBefore_eq
  have hm : (((if month < 10 then month + 3 else month - 9).toNat : Nat) : Int)
      = if month < 10 then month + 3 else month - 9 := by
    split <;> omega
  have hd : (((p.day - (153 * month + 2) / 5 + 1).toNat : Nat) : Int)
      = p.day - (153 * month + 2) / 5 + 1 := by omega
  have hcycle : (p.yearOfCycle + 400 * cycle) / 400 = cycle := by omega
  have hyearOfCycle : (p.yearOfCycle + 400 * cycle) % 400 = p.yearOfCycle := by omega
  rw [hdate, number_eq hmonth hm rfl, hd, hcycle, hyearOfCycle, hbefore]
  omega

/-- A year that ends with a leap day in the reckoning from March is a leap year of the calendar. -/
theorem Position.isLeap_of_day (p : Position) (h : p.day = 365) (cycle : Int) :
    isLeap (p.yearOfCycle + 400 * cycle + 1) = true := by
  obtain ⟨c, q, j, t, hc, hq, hj, ht, hleap⟩ := p
  obtain ⟨rfl, hlast⟩ := hleap h
  have hfour : (100 * c + 4 * q + 3 + 400 * cycle + 1) % 4 = 0 := by omega
  have hhundred : (100 * c + 4 * q + 3 + 400 * cycle + 1) % 100 ≠ 0 ∨
      (100 * c + 4 * q + 3 + 400 * cycle + 1) % 400 = 0 := by
    by_cases hspan : q = 24
    · have hcentury := hlast hspan
      omega
    · omega
  simpa [isLeap, yearOfCycle, hfour] using hhundred

/-- **The date of a number is one of the calendar.** -/
theorem Date.isValid_ofNumber (n : Int) : (Date.ofNumber n).isValid = true := by
  obtain ⟨p, cycle, month, hn, ⟨hlow, hhigh⟩, hday, hdate⟩ := exists_ofNumber_eq n
  have hrange := p.day_range
  rw [hdate]
  simp only [Date.isValid, Bool.and_eq_true, decide_eq_true_eq]
  by_cases hfebruary : month = 11
  · subst hfebruary
    by_cases hleap : p.day = 365
    · have hyear := p.isLeap_of_day hleap cycle
      simp [daysInMonth, hyear, hleap]
    · simp only [daysInMonth]
      norm_num
      split <;> omega
  · interval_cases month
    all_goals first
      | exact absurd rfl hfebruary
      | simp [daysInMonth]
        omega

end AccessLog.Time
