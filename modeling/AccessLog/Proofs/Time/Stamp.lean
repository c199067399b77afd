import AccessLog.Proofs.Time.Reading
import AccessLog.Time.Pattern

/-!
# Points in time as they are written

A `Stamp` is a date and a time of day to the millisecond, and `Stamp.instant` the point in time that
it is in UTC. The same point in time may be written in two ways (`Stamp.Written`): as it is, or as
clocks show it that are ahead of UTC or behind, with the offset behind it. The second of a minute is
no affair of an offset, so a leap second is second 60 wherever it is written.

**Whichever way it was written, the same instant is read** (`read_written`). A local date may be the
day before or after the date in UTC, and in the year before or after; that both dates are read and
that the right day is reached is a matter of day numbers, as is the way back from the instant to
what is shown of it.
-/

set_option autoImplicit false

namespace AccessLog.Time

/-! ## What is written -/

/-- A date and a time of day to the millisecond. The second may be 60. -/
structure Stamp where
  date : Date
  hour : Nat
  minute : Nat
  second : Nat
  milli : Nat
  calendar : date.InCalendar
  hour_le : hour ≤ 23
  minute_le : minute ≤ 59
  second_le : second ≤ 60
  milli_le : milli ≤ 999

namespace Stamp

/-- The date alone. -/
def dateText (u : Stamp) : String :=
  yearText u.date.year ++ "-" ++ zeros 2 u.date.month ++ "-" ++ zeros 2 u.date.day

/-- Date, time of day and zone. -/
def text (u : Stamp) (zone : String) : String :=
  u.dateText ++ "T" ++ zeros 2 u.hour ++ ":" ++ zeros 2 u.minute ++ ":" ++ zeros 2 u.second ++ "."
    ++ zeros 3 u.milli ++ zone

/-- The minutes from the start of 1970 to the minute of a stamp. -/
def minutes (u : Stamp) : Int := 1440 * u.date.days + 60 * u.hour + u.minute

/-- The seconds from the start of 1970. A leap second counts like the second before it. -/
def seconds (u : Stamp) : Int :=
  86400 * u.date.days + 3600 * u.hour + 60 * u.minute + min u.second 59

/-- The milliseconds from the start of 1970. Those of a leap second count on top of the second
before it. -/
def millis (u : Stamp) : Int :=
  1000 * u.seconds + u.milli + if u.second = 60 then 1000 else 0

/-- The point in time that a stamp is in UTC. -/
def instant (u : Stamp) : Instant where
  day := u.date.number
  second := 3600 * u.hour + 60 * u.minute + min u.second 59
  nano := if u.second = 60 then u.milli * 1000000 + nanosPerSecond else u.milli * 1000000

end Stamp

/-- How far clocks are ahead of UTC or behind. -/
structure Offset where
  ahead : Bool
  hours : Nat
  minutes : Nat
  /-- Whether hours and minutes are written with a colon between them. -/
  colon : Bool
  hours_le : hours ≤ 23
  minutes_le : minutes ≤ 59

namespace Offset

/-- The minutes to be added to UTC. -/
def size (o : Offset) : Int :=
  if o.ahead then 60 * o.hours + o.minutes else -(60 * o.hours + o.minutes)

def text (o : Offset) : String :=
  (if o.ahead then "+" else "-") ++ zeros 2 o.hours ++ (if o.colon then ":" else "")
    ++ zeros 2 o.minutes

end Offset

/-- The ways in which the point in time of a stamp is written: in UTC, or at an offset from it. -/
inductive Stamp.Written (u : Stamp) : String → Prop where
  | utc : Written u (u.text "Z")
  | offset (v : Stamp) (o : Offset) (hminutes : v.minutes = u.minutes + o.size)
    (hsecond : v.second = u.second) (hmilli : v.milli = u.milli) : Written u (v.text o.text)

namespace Reader

open Scan

/-! ## Reading an offset -/

theorem takes_twoDigits {n : Nat} (h : n < 100) (rest : List Char) :
    ∃ pair, Takes twoDigits ((zeros 2 n).toList ++ rest) pair rest ∧ pairValue pair = n := by
  have hvalue : Nat.ofDigitChars 10 (zeros 2 n).toList 0 = n := ofDigitChars_zeros
  have hdigits : ∀ c ∈ (zeros 2 n).toList, c.isDigit = true := isDigit_zeros
  obtain ⟨c, d, hzeros⟩ := List.length_eq_two.mp (length_zeros (by decide) h)
  rw [hzeros] at hvalue hdigits ⊢
  refine ⟨(c, d), ?_, hvalue⟩
  show (if c.isDigit ∧ d.isDigit then _ else _) = _
  rw [if_pos ⟨hdigits c (by simp), hdigits d (by simp)⟩]
  rfl

/-- What may stand between the hours and the minutes of an offset is passed over. -/
theorem dropWhile_colon {n : Nat} (colon : Bool) :
    ((if colon then ":" else "").toList ++ (zeros 2 n).toList).dropWhile
      (fun c => c = ':' ∨ Text.isBlank c) = (zeros 2 n).toList := by
  apply dropWhile_append
  · cases colon <;> simp
  · intro c hc
    have hdigit : c.isDigit = true := isDigit_zeros c (List.mem_of_mem_head? hc)
    have hcolon : c ≠ ':' := by
      rintro rfl
      cases hdigit
    simp [hcolon, isBlank_of_isDigit hdigit]

theorem takes_offset_signed {c : Char} (hsign : c = '+' ∨ c = '-') {hours minutes : Nat}
    (hhours : hours < 100) (hminutes : minutes ≤ 59) (colon : Bool) :
    Takes offset (c :: ((zeros 2 hours).toList ++ ((if colon then ":" else "").toList
        ++ (zeros 2 minutes).toList)))
      (if c = '+' then 3600 * (hours : Int) + 60 * minutes
        else -(3600 * (hours : Int) + 60 * minutes)) [] := by
  obtain ⟨pair, hpair, rfl⟩ :=
    takes_twoDigits hhours ((if colon then ":" else "").toList ++ (zeros 2 minutes).toList)
  obtain ⟨pair', hpair', hvalue⟩ := takes_twoDigits (Nat.lt_of_le_of_lt hminutes (by decide)) []
  rw [List.append_nil] at hpair'
  refine takes_bind.mpr ⟨_, _, takes_get.mpr ⟨rfl, rfl⟩, ?_⟩
  split
  · rename_i heq
    obtain ⟨rfl, -⟩ := List.cons.inj heq
    simp at hsign
  · rename_i heq
    obtain ⟨rfl, -⟩ := List.cons.inj heq
    simp at hsign
  · rename_i heq
    cases heq
  · rename_i heq
    obtain ⟨rfl, rfl⟩ := List.cons.inj heq
    rw [if_pos (hsign.imp_right .inl)]
    refine takes_bind.mpr ⟨(), _, takes_set.mpr rfl, takes_bind.mpr ⟨_, _, hpair,
      takes_bind.mpr ⟨(), _, takes_modify.mpr (dropWhile_colon colon),
        takes_bind.mpr ⟨_, _, hpair', ?_⟩⟩⟩⟩
    rw [hvalue, if_neg (by omega)]
    exact takes_pure.mpr ⟨rfl, rfl⟩

/-- A sign is the start of no other zone. -/
theorem takes_zone_signed {c : Char} (hsign : c = '+' ∨ c = '-') {cs rest : List Char} {n : Int}
    (h : Takes offset (c :: cs) n rest) : Takes zone (c :: cs) n rest := by
  have hblank : Text.isBlank c = false := by
    rcases hsign with rfl | rfl <;> rfl
  have hupper : c.toUpper ≠ 'U' := by
    rcases hsign with rfl | rfl <;> decide
  refine takes_bind.mpr ⟨(), _, takes_blanks (by simpa using hblank),
    takes_bind.mpr ⟨_, _, takes_get.mpr ⟨rfl, rfl⟩, ?_⟩⟩
  rw [if_neg]
  · exact h
  · simp [hupper]

/-- A text that is read as a zone to its end, and that digits before it do not run into. -/
structure Zone (text : String) (size : Int) : Prop where
  takes : Takes zone text.toList (60 * size) []
  head : ∀ c ∈ text.toList.head?, c.isDigit = false
  size_lt : size.natAbs < 1440

theorem zone_utc : Zone "Z" 0 where
  takes := takes_zone_utc
  head := by simp
  size_lt := by decide

theorem zone_offset (o : Offset) : Zone o.text o.size where
  takes := by
    have htext : o.text.toList = (if o.ahead then '+' else '-') :: ((zeros 2 o.hours).toList
        ++ ((if o.colon then ":" else "").toList ++ (zeros 2 o.minutes).toList)) := by
      cases hahead : o.ahead <;> simp [Offset.text, hahead]
    have hsign : (if o.ahead then '+' else '-') = '+' ∨ (if o.ahead then '+' else '-') = '-' := by
      cases o.ahead <;> simp
    have hhours : o.hours < 100 := by
      have hle := o.hours_le
      omega
    have hsize : 60 * o.size = if (if o.ahead then '+' else '-') = '+'
        then 3600 * (o.hours : Int) + 60 * o.minutes
        else -(3600 * (o.hours : Int) + 60 * o.minutes) := by
      cases hahead : o.ahead
      all_goals
        simp [Offset.size, hahead]
        omega
    rw [htext, hsize]
    exact takes_zone_signed hsign (takes_offset_signed hsign hhours o.minutes_le o.colon)
  head := by
    cases hahead : o.ahead <;> simp [Offset.text, hahead]
  size_lt := by
    have hhours := o.hours_le
    have hminutes := o.minutes_le
    unfold Offset.size
    split <;> omega

end Reader

open Reader Scan

/-- A number of two digits is written in a layout as it is elsewhere. -/
theorem pair_zero {n : Nat} (h : n < 100) : Item.pair .zero n = zeros 2 n := by
  revert n
  decide +kernel

namespace Stamp

variable {u v : Stamp} {zone : String} {size : Int}

/-! ## Reading a stamp -/

theorem toList_text (u : Stamp) (zone : String) : (u.text zone).toList
    = (yearText u.date.year).toList ++ '-' :: ((zeros 2 u.date.month).toList
      ++ '-' :: ((zeros 2 u.date.day).toList ++ 'T' :: ((zeros 2 u.hour).toList
      ++ ':' :: ((zeros 2 u.minute).toList ++ ':' :: ((zeros 2 u.second).toList
      ++ (("." ++ zeros 3 u.milli).toList ++ zone.toList)))))) := by
  simp [text, dateText, String.toList_append]

/-- Less than a day apart there is one midnight at most. -/
theorem number_near (h : v.minutes = u.minutes + size) (hsize : size.natAbs < 1440) :
    v.date.number ≤ u.date.number + 1 ∧ u.date.number ≤ v.date.number + 1 := by
  have hhours := And.intro u.hour_le v.hour_le
  have hminutes := And.intro u.minute_le v.minute_le
  rw [Date.number_eq_days u.calendar, Date.number_eq_days v.calendar]
  simp only [minutes] at h
  omega

theorem date_instant (u : Stamp) : u.instant.date = u.date := Date.ofNumber_number u.calendar

/-- The second of the day in UTC, and the midnights that are crossed on the way there. -/
theorem shifted (hminutes : v.minutes = u.minutes + size) :
    ((3600 * v.hour + 60 * v.minute + min v.second 59 : Nat) : Int) - 60 * size
      = secondsPerDay * (u.date.number - v.date.number)
        + (3600 * u.hour + 60 * u.minute + min v.second 59 : Nat) := by
  rw [Date.number_eq_days u.calendar, Date.number_eq_days v.calendar]
  simp only [minutes] at hminutes
  simp only [secondsPerDay]
  omega

/-- **A stamp is read from its text**, and at an offset from UTC the point in time is the one that
the offset says. -/
theorem read_text (hzone : Zone zone size) (hminutes : v.minutes = u.minutes + size)
    (hsecond : v.second = u.second) (hmilli : v.milli = u.milli)
    (hyear : 0 ≤ u.date.year ∧ u.date.year ≤ 9999) :
    Instant.read (v.text zone) = .ok u.instant := by
  have hnear := number_near hminutes hzone.size_lt
  have hyears : minYear ≤ v.date.year ∧ v.date.year ≤ maxYear := by
    have hle := Date.year_le_succ v.calendar u.calendar hnear.1
    have hge := Date.year_le_succ u.calendar v.calendar hnear.2
    simp only [minYear, maxYear]
    omega
  have hmilli_lt : v.milli < 10 ^ 3 := Nat.lt_of_le_of_lt v.milli_le (by decide)
  have hfraction : Takes fraction (("." ++ zeros 3 v.milli).toList ++ zone.toList)
      (v.milli * 1000000) zone.toList := takes_fraction_zeros (by decide) hmilli_lt rfl hzone.head
  have hclock := takes_clock_zeros v.hour_le v.minute_le v.second_le hfraction
  rw [Instant.read_eq_ok_iff, toList_text]
  refine ⟨_, _, _, _, _, _, _, _, takes_date hyears v.calendar.month v.calendar.day_range,
    takes_dateEnd, hclock, hzone.takes, takes_blanks (by simp), ?_⟩
  rw [Instant.ofLocal_eq_ok_iff, date_instant, shifted hminutes]
  refine ⟨⟨Date.isValid_iff.mpr v.calendar, hyears⟩, ?_, ?_, ?_⟩
  · have hsize := hzone.size_lt
    simp only [secondsPerDay]
    omega
  · simp only [minYear, maxYear]
    omega
  · -- whole days go to the day, and what is left is the second of the day in UTC
    have hlt : 3600 * u.hour + 60 * u.minute + min v.second 59 < secondsPerDay := by
      have hhour := u.hour_le
      have hminute := u.minute_le
      simp only [secondsPerDay]
      omega
    have hpos : (secondsPerDay : Int) ≠ 0 := by decide
    rw [Int.mul_add_ediv_left _ _ hpos, Int.mul_add_emod_self_left,
      Int.ediv_eq_zero_of_lt (by omega) (by omega), Int.emod_eq_of_lt (by omega) (by omega),
      Int.toNat_natCast, hsecond, hmilli, instant]
    simp

/-- **Whichever way a point in time is written, it is read.** -/
theorem read_written {text : String} (h : u.Written text)
    (hyear : 0 ≤ u.date.year ∧ u.date.year ≤ 9999) : Instant.read text = .ok u.instant := by
  cases h with
  | utc => exact read_text zone_utc (by simp) rfl rfl hyear
  | offset v o hminutes hsecond hmilli =>
    exact read_text (zone_offset o) hminutes hsecond hmilli hyear

/-! ## What is shown of it -/

theorem hour_instant (u : Stamp) : u.instant.hour = u.hour := by
  have hminute := u.minute_le
  simp only [Instant.hour, instant]
  omega

theorem minute_instant (u : Stamp) : u.instant.minute = u.minute := by
  have hminute := u.minute_le
  simp only [Instant.minute, instant]
  omega

theorem shownSecond_instant (u : Stamp) : u.instant.shownSecond = u.second := by
  have hsecond := u.second_le
  have hmilli := u.milli_le
  simp only [Instant.shownSecond, instant, nanosPerSecond]
  split <;> omega

theorem fraction_instant (u : Stamp) : u.instant.fraction = u.milli * 1000000 := by
  have hmilli := u.milli_le
  simp only [Instant.fraction, instant, nanosPerSecond]
  split <;> omega

/-- **What was written in UTC is shown again.** -/
theorem rfc3339Millis_instant (u : Stamp) : u.instant.rfc3339Millis = u.text "Z" := by
  simp [Instant.rfc3339Millis, Instant.dateAndClock, Instant.clock, text, dateText, date_instant,
    hour_instant, minute_instant, shownSecond_instant, fraction_instant, String.append_assoc]

theorem seconds_instant (u : Stamp) : u.instant.seconds = u.seconds := by
  simp only [Instant.seconds, instant, seconds, secondsPerDay, Date.number_eq_days u.calendar]
  omega

theorem millis_instant (u : Stamp) : u.instant.millis = u.millis := by
  have hmilli := u.milli_le
  rw [Instant.millis, seconds_instant, millis]
  simp only [instant, nanosPerSecond]
  split <;> omega

theorem write_dateLayout (u : Stamp) (hyear : 0 ≤ u.date.year ∧ u.date.year ≤ 9999) :
    u.instant.write dateLayout = u.dateText := by
  have hmonth := u.calendar.month
  have hday := u.calendar.day_range
  have hnumber : Item.yearNumber .zero u.date.year = yearText u.date.year := by
    rw [Item.yearNumber, yearText, if_pos hyear, if_pos hyear]
    simp [Item.signed, zeros]
  have hm : Item.pair .zero u.date.month = zeros 2 u.date.month := pair_zero (by omega)
  have hd : Item.pair .zero u.date.day = zeros 2 u.date.day := pair_zero (by omega)
  simp [Instant.write, dateLayout, Item.text, Item.quantityText, date_instant, hnumber, hm, hd,
    dateText, String.append_assoc]

/-- **The date is the first ten characters.** -/
theorem dateText_eq (u : Stamp) (hyear : 0 ≤ u.date.year ∧ u.date.year ≤ 9999) (zone : String) :
    u.dateText = String.ofList ((u.text zone).toList.take 10) := by
  have hlength : u.dateText.toList.length = 10 := by
    have hmonth := u.calendar.month
    have hday := u.calendar.day_range
    have hy : (zeros 4 u.date.year.toNat).toList.length = 4 := length_zeros (by decide) (by omega)
    have hm : (zeros 2 u.date.month).toList.length = 2 := length_zeros (by decide) (by omega)
    have hd : (zeros 2 u.date.day).toList.length = 2 := length_zeros (by decide) (by omega)
    rw [dateText, yearText, if_pos hyear]
    simp only [String.toList_append, List.length_append, hy, hm, hd]
    rfl
  simp only [text, String.toList_append, List.append_assoc]
  rw [List.take_left' hlength, String.ofList_toList]

end Stamp

end AccessLog.Time
