import AccessLog.Text.Basic
import AccessLog.Time.Calendar

/-!
# Points in time

An instant is a day in UTC, a second of it and nanoseconds. A leap second is kept as the second
before it with a billion nanoseconds more, so it is written as second 60 but counted like the
second before it. Instants lie in the years from -262143 to 262142.

The texts here are the ones with a fixed layout; `Time.Layout` has the free ones.
-/

set_option autoImplicit false

namespace AccessLog.Time

/-- A point in time, in UTC. -/
structure Instant where
  day : Int
  /-- The second of the day, below 86400. -/
  second : Nat
  /-- Nanoseconds, below two billion; from a billion on they belong to a leap second. -/
  nano : Nat
  deriving DecidableEq, Repr

def secondsPerDay : Nat := 86400

def nanosPerSecond : Nat := 1000000000

def minYear : Int := -262143

def maxYear : Int := 262142

namespace Instant

/-- The day of an instant in the calendar. -/
def date (t : Instant) : Date := Date.ofNumber t.day

def hour (t : Instant) : Nat := t.second / 3600

def minute (t : Instant) : Nat := t.second / 60 % 60

/-- The second of the minute as it is shown: 60 in a leap second. -/
def shownSecond (t : Instant) : Nat := t.second % 60 + t.nano / nanosPerSecond

/-- The part of the second that has passed, in nanoseconds. -/
def fraction (t : Instant) : Nat := t.nano % nanosPerSecond

/-- The seconds since the start of 1970. -/
def seconds (t : Instant) : Int := t.day * secondsPerDay + t.second

/-- The milliseconds since the start of 1970; those of a leap second count on top of the second
before it. -/
def millis (t : Instant) : Int := t.seconds * 1000 + (t.nano / 1000000 : Nat)

end Instant

/-! ## Numbers of a fixed width -/

/-- A numeral with leading zeros up to a width. -/
def zeros (width n : Nat) : String := Text.padLeft width '0' (Text.decimal n)

/-- A year: four digits, and a sign as well when it has more or is negative. -/
def yearText (year : Int) : String :=
  if 0 ≤ year ∧ year ≤ 9999 then zeros 4 year.toNat
  else (if year < 0 then "-" else "+") ++ zeros 4 year.natAbs

def monthNames : List String :=
  ["January", "February", "March", "April", "May", "June", "July", "August", "September",
   "October", "November", "December"]

/-- The English names of the days of the week, from Monday. -/
def weekdayNames : List String :=
  ["Monday", "Tuesday", "Wednesday", "Thursday", "Friday", "Saturday", "Sunday"]

/-- The three letters a name begins with. -/
def abbreviated (name : String) : String := String.ofList (name.toList.take 3)

namespace Instant

def monthName (t : Instant) : String := monthNames.getD (t.date.month - 1) ""

def weekdayName (t : Instant) : String := weekdayNames.getD (weekday t.day) ""

/-- The time of day to the second. -/
def clock (t : Instant) : String :=
  zeros 2 t.hour ++ ":" ++ zeros 2 t.minute ++ ":" ++ zeros 2 t.shownSecond

/-- The fraction of the second in as many groups of three digits as it needs; nothing when it
is zero. -/
def shortFraction (t : Instant) : String :=
  let n := t.fraction
  if n = 0 then ""
  else if n % 1000000 = 0 then "." ++ zeros 3 (n / 1000000)
  else if n % 1000 = 0 then "." ++ zeros 6 (n / 1000)
  else "." ++ zeros 9 n

/-- Date and time of day as RFC 3339 writes them, up to the seconds. -/
def dateAndClock (t : Instant) : String :=
  yearText t.date.year ++ "-" ++ zeros 2 t.date.month ++ "-" ++ zeros 2 t.date.day
    ++ "T" ++ t.clock

/-- RFC 3339 with milliseconds. -/
def rfc3339Millis (t : Instant) : String :=
  t.dateAndClock ++ "." ++ zeros 3 (t.fraction / 1000000) ++ "Z"

/-- RFC 3339 with as much of the fraction as is needed. -/
def rfc3339 (t : Instant) : String := t.dateAndClock ++ t.shortFraction ++ "Z"

/-- RFC 2822, which has no years of more than four digits and none before year 0. -/
def rfc2822? (t : Instant) : Option String :=
  if 0 ≤ t.date.year ∧ t.date.year ≤ 9999 then
    some (abbreviated t.weekdayName ++ ", " ++ Text.decimal t.date.day ++ " "
      ++ abbreviated t.monthName ++ " " ++ yearText t.date.year ++ " " ++ t.clock ++ " +0000")
  else none

end Instant

end AccessLog.Time
