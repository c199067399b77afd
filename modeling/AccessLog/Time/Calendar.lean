/-!
# The Gregorian calendar

Days are numbered from 1970-01-01, which is day 0, in both directions. The calendar is the
Gregorian one for all years; the year before year 1 is year 0.

Between dates and day numbers the year is taken to begin in March, so that the leap day is the
last day of a year, and years are counted in cycles of 400, which all have the same number of
days.
-/

set_option autoImplicit false

namespace AccessLog.Time

/-- A day of the calendar. -/
structure Date where
  year : Int
  /-- From 1 to 12. -/
  month : Nat
  /-- From 1 to the length of the month. -/
  day : Nat
  deriving DecidableEq, Repr

/-- Whether a year has a leap day. -/
def isLeap (year : Int) : Bool := year % 4 == 0 && (year % 100 != 0 || year % 400 == 0)

def daysInMonth (year : Int) (month : Nat) : Nat :=
  if month = 2 then if isLeap year then 29 else 28
  else if month = 4 ∨ month = 6 ∨ month = 9 ∨ month = 11 then 30
  else 31

/-- The days of 400 years. -/
def cycleDays : Int := 146097

/-- The days from 0000-03-01 to 1970-01-01. -/
def daysToEpoch : Int := 719468

namespace Date

/-- Whether the calendar has such a day. -/
def isValid (d : Date) : Bool :=
  1 ≤ d.month && d.month ≤ 12 && 1 ≤ d.day && d.day ≤ daysInMonth d.year d.month

/-- The number of a day. -/
def number (d : Date) : Int :=
  let year := if d.month ≤ 2 then d.year - 1 else d.year
  let cycle := year / 400
  let yearOfCycle := year % 400
  let monthFromMarch : Int := ((d.month + 9) % 12 : Nat)
  let dayOfYear := (153 * monthFromMarch + 2) / 5 + d.day - 1
  let dayOfCycle := 365 * yearOfCycle + yearOfCycle / 4 - yearOfCycle / 100 + dayOfYear
  cycleDays * cycle + dayOfCycle - daysToEpoch

/-- The day with a number. -/
def ofNumber (n : Int) : Date :=
  let cycle := (n + daysToEpoch) / cycleDays
  let dayOfCycle := (n + daysToEpoch) % cycleDays
  let yearOfCycle :=
    (dayOfCycle - dayOfCycle / 1460 + dayOfCycle / 36524 - dayOfCycle / 146096) / 365
  let dayOfYear := dayOfCycle - (365 * yearOfCycle + yearOfCycle / 4 - yearOfCycle / 100)
  let monthFromMarch := (5 * dayOfYear + 2) / 153
  let day := dayOfYear - (153 * monthFromMarch + 2) / 5 + 1
  let month := if monthFromMarch < 10 then monthFromMarch + 3 else monthFromMarch - 9
  let year := yearOfCycle + 400 * cycle
  ⟨if month ≤ 2 then year + 1 else year, month.toNat, day.toNat⟩

end Date

/-! ## Weeks -/

/-- The day of the week, counted from Monday. -/
def weekday (n : Int) : Nat := ((n + 3) % 7).toNat

/-- The day of the week, counted from Sunday. -/
def weekdayFromSunday (n : Int) : Nat := ((n + 4) % 7).toNat

/-- The day of the year, counted from 0. -/
def dayOfYear (n : Int) : Nat := (n - Date.number ⟨(Date.ofNumber n).year, 1, 1⟩).toNat

/-- The number of weeks of the year that began on or before a day, if weeks begin on a day of
the week that is `sinceStart` days earlier. -/
def weekOfYear (n : Int) (sinceStart : Nat) : Nat := (dayOfYear n + 7 - sinceStart) / 7

/-- The year to which a week belongs: that of its Thursday. -/
def weekYear (n : Int) : Int := (Date.ofNumber (n - weekday n + 3)).year

/-- The number of a week in its year; the first one holds the first Thursday. -/
def weekNumber (n : Int) : Nat := dayOfYear (n - weekday n + 3) / 7 + 1

end AccessLog.Time
