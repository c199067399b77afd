import AccessLog.Time.Instant

/-!
# Reading a point in time

A date, a separator, a time of day and an offset from UTC, in the order of RFC 3339 but written
more freely: blanks may stand around the parts, numbers may have fewer digits than usual, a year
with a sign may have any number of digits, and `UTC` or `Z` of either case stand for no offset.

A part is checked as soon as it is read. So a month 13 is reported even if what follows it is
malformed, but a 30 February only once all else could be read.
-/

set_option autoImplicit false

namespace AccessLog.Time

/-- Why a text is no point in time. -/
inductive ReadError where
  | tooShort
  | invalid
  | outOfRange
  /-- Something follows. -/
  | tooLong
  /-- The moment lies outside of all years once its offset is taken into account. -/
  | impossible
  deriving DecidableEq, Repr

/-- The sentence shown for a text that is no point in time. -/
def ReadError.message : ReadError → String
  | .tooShort => "premature end of input"
  | .invalid => "input contains invalid characters"
  | .outOfRange => "input is out of range"
  | .tooLong => "trailing input"
  | .impossible => "no possible date and time matching input"

namespace Reader

/-- A step that takes something from the front of a text. -/
abbrev Scan := StateT (List Char) (Except ReadError)

/-- Passes over blanks. -/
def blanks : Scan Unit := modify (·.dropWhile Text.isBlank)

/-- Takes one given character. -/
def mark (c : Char) : Scan Unit := fun
  | [] => .error .tooShort
  | d :: rest => if d = c then .ok ((), rest) else .error .invalid

/-- Numerals that reach this bound are out of range wherever they stand. -/
def numeralBound : Nat := Nat.pow 2 63

/-- Takes one or more digits and no more than `width` of them. -/
def digits (width : Option Nat) : Scan (List Char) := fun
  | [] => .error .tooShort
  | cs =>
    let all := cs.takeWhile Char.isDigit
    let taken := match width with
      | some n => all.take n
      | none => all
    if taken.isEmpty then .error .invalid
    else if numeralBound ≤ Nat.ofDigitChars 10 taken 0 then .error .outOfRange
    else .ok (taken, cs.drop taken.length)

/-- Takes a numeral of at most two digits, with blanks before it, and checks its range. -/
def number (low high : Nat) : Scan Nat := do
  blanks
  let n := Nat.ofDigitChars 10 (← digits (some 2)) 0
  if low ≤ n ∧ n ≤ high then return n else throw .outOfRange

/-- Takes a mark with blanks before it. -/
def separator (c : Char) : Scan Unit := do
  blanks
  mark c

/-- Takes a number of up to four digits, or of any number of digits after a sign. -/
def signed : Scan Int := do
  match ← get with
  | '-' :: rest =>
    set rest
    return -(Nat.ofDigitChars 10 (← digits none) 0 : Nat)
  | '+' :: rest =>
    set rest
    return (Nat.ofDigitChars 10 (← digits none) 0 : Nat)
  | _ => return (Nat.ofDigitChars 10 (← digits (some 4)) 0 : Nat)

/-- Takes a year and checks that it has a width of 32 bits. -/
def year : Scan Int := do
  blanks
  let n ← signed
  if Int32.minValue.toInt ≤ n ∧ n ≤ Int32.maxValue.toInt then return n else throw .outOfRange

/-- Takes a date, not yet checked against the calendar. -/
def date : Scan Date := do
  let year ← year
  separator '-'
  let month ← number 1 12
  separator '-'
  let day ← number 1 31
  return ⟨year, month, day⟩

/-- Takes what separates date and time of day. -/
def dateEnd : Scan Unit := fun
  | [] => .error .tooShort
  | c :: rest => if c = 'T' ∨ c = 't' ∨ c = ' ' then .ok ((), rest) else .error .invalid

/-- Takes the fraction of a second, if there is one. Digits from the tenth on are passed over. -/
def fraction : Scan Nat := do
  match ← get with
  | '.' :: rest =>
    set rest
    let taken ← digits (some 9)
    modify (·.dropWhile Char.isDigit)
    return Nat.ofDigitChars 10 taken 0 * Nat.pow 10 (9 - taken.length)
  | _ => return 0

/-- Takes a time of day: the second of the day and nanoseconds. -/
def clock : Scan (Nat × Nat) := do
  let hour ← number 0 23
  separator ':'
  let minute ← number 0 59
  separator ':'
  let second ← number 0 60
  let nano ← fraction
  let whole := 3600 * hour + 60 * minute
  -- second 60 of any minute is a leap second
  if second = 60 then return (whole + 59, nano + nanosPerSecond) else return (whole + second, nano)

/-- Takes two digits; the text is too short when at most one ASCII character is left. -/
def twoDigits : Scan (Char × Char) := fun
  | [] => .error .tooShort
  | [c] => .error (if c.utf8Size = 1 then .tooShort else .invalid)
  | c :: d :: rest =>
    if c.isDigit ∧ d.isDigit then .ok ((c, d), rest) else .error .invalid

def pairValue (pair : Char × Char) : Nat := Nat.ofDigitChars 10 [pair.1, pair.2] 0

/-- Takes an offset from UTC in seconds. -/
def offset : Scan Int := do
  match ← get with
  | 'Z' :: rest | 'z' :: rest => do
    set rest
    return 0
  | [] => throw .tooShort
  | c :: rest => do
    unless c = '+' ∨ c = '-' ∨ c = '−' do throw .invalid
    set rest
    let hours := pairValue (← twoDigits)
    modify (·.dropWhile fun c => c = ':' ∨ Text.isBlank c)
    let minutes := pairValue (← twoDigits)
    if 60 ≤ minutes then throw .outOfRange
    let size : Int := 3600 * hours + 60 * minutes
    return if c = '+' then size else -size

/-- Takes a zone: `UTC` or an offset. -/
def zone : Scan Int := do
  blanks
  let cs ← get
  if (cs.take 3).map Char.toUpper = ['U', 'T', 'C'] then do
    set (cs.drop 3)
    return 0
  else offset

end Reader

/-- The instant at which clocks that are ahead of UTC by `offset` seconds show a date and time
of day. -/
def Instant.ofLocal (date : Date) (second nano : Nat) (offset : Int) :
    Except ReadError Instant := do
  unless date.isValid ∧ minYear ≤ date.year ∧ date.year ≤ maxYear do throw .outOfRange
  unless offset.natAbs < secondsPerDay do throw .outOfRange
  let shifted : Int := second - offset
  let day := date.number + shifted / secondsPerDay
  let year := (Date.ofNumber day).year
  unless minYear ≤ year ∧ year ≤ maxYear do throw .impossible
  return ⟨day, (shifted % secondsPerDay).toNat, nano⟩

/-- Reads a point in time. -/
def Instant.read (source : String) : Except ReadError Instant := do
  let scan : Reader.Scan (Date × (Nat × Nat) × Int) := do
    let date ← Reader.date
    Reader.dateEnd
    let clock ← Reader.clock
    let offset ← Reader.zone
    Reader.blanks
    return (date, clock, offset)
  let ((date, (second, nano), offset), rest) ← scan.run source.toList
  unless rest.isEmpty do throw .tooLong
  Instant.ofLocal date second nano offset

end AccessLog.Time
