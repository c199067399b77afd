import AccessLog.Time.Instant

/-!
# Layouts

A layout is text with specifiers in it, each a mark and one or more characters: `$Y-$m-$d`. A
dollar and a percent sign are both the mark. A layout with an unknown specifier, or one that
breaks off within a specifier, is none at all.

The fill of a number may be changed: `-` for none, `0` for zeros, `_` for blanks. Only a
specifier that stands for a single number may have it changed.
-/

set_option autoImplicit false

namespace AccessLog.Time

/-- How a number that is too short is filled. -/
inductive Fill where
  | none
  | zero
  | blank
  deriving DecidableEq, Repr

/-- The numbers of a point in time. -/
inductive Quantity where
  | year
  /-- The year without its last two digits. -/
  | century
  /-- The last two digits of the year. -/
  | yearOfCentury
  | weekYear
  | weekYearOfCentury
  | quarter
  | month
  | day
  /-- The week of the year, when weeks begin on Sunday. -/
  | weekFromSunday
  /-- The week of the year, when weeks begin on Monday. -/
  | weekFromMonday
  /-- The week of the week year. -/
  | week
  /-- The day of the week, from 0 for Sunday. -/
  | weekdayFromSunday
  /-- The day of the week, from 1 for Monday. -/
  | weekdayFromMonday
  | dayOfYear
  | hour
  /-- The hour on a clock of twelve hours. -/
  | hour12
  | minute
  | second
  | nanosecond
  /-- The seconds since the start of 1970. -/
  | epoch
  deriving DecidableEq, Repr

/-- One piece of a layout. -/
inductive Item where
  | literal (s : String)
  | number (quantity : Quantity) (fill : Fill)
  | monthName
  | shortMonthName
  | weekdayName
  | shortWeekdayName
  | upperHalf
  | lowerHalf
  /-- The fraction of the second with its point, as many digits as it needs. -/
  | fraction
  /-- The first digits of the fraction of the second, as many as said, with or without point. -/
  | fractionDigits (count : Nat) (point : Bool)
  | zoneName
  /-- The offset from UTC: hours, and minutes and seconds as they are asked for. -/
  | offset (text : String)
  | rfc3339
  deriving DecidableEq, Repr

namespace Item

/-! ## Writing -/

/-- Fills a text up to a width. -/
def filled (fill : Fill) (width : Nat) (s : String) : String :=
  match fill with
  | .none => s
  | .zero => Text.padLeft width '0' s
  | .blank => Text.padLeft width ' ' s

/-- A number, filled up to a width. Zeros go behind the sign, blanks before it. -/
def signed (fill : Fill) (width : Nat) (sign : String) (n : Nat) : String :=
  match fill with
  | .none => sign ++ Text.decimal n
  | .zero => sign ++ Text.padLeft (width - sign.length) '0' (Text.decimal n)
  | .blank => Text.padLeft width ' ' (sign ++ Text.decimal n)

/-- A year: four digits; one that has more or is negative has a sign and room for it. -/
def yearNumber (fill : Fill) (year : Int) : String :=
  if 0 ≤ year ∧ year ≤ 9999 then signed fill 4 "" year.toNat
  else signed fill 5 (if year < 0 then "-" else "+") year.natAbs

/-- Two digits for a number below 256. From 100 on the first of them is the character that many
places behind the digit zero. -/
def pair (fill : Fill) (n : Nat) : String :=
  let last := Nat.digitChar (n % 10)
  match n / 10, fill with
  | 0, .none => String.ofList [last]
  | 0, .blank => String.ofList [' ', last]
  | tens, _ => String.ofList [Char.ofNat ('0'.toNat + tens), last]

/-- The text of a number of a point in time. -/
def quantityText (t : Instant) (fill : Fill) : Quantity → String
  | .year => yearNumber fill t.date.year
  -- centuries are counted modulo 256
  | .century => pair fill (t.date.year / 100 % 256).toNat
  | .yearOfCentury => pair fill (t.date.year % 100).toNat
  | .weekYear => yearNumber fill (weekYear t.day)
  | .weekYearOfCentury => pair fill (weekYear t.day % 100).toNat
  | .quarter => Text.decimal ((t.date.month - 1) / 3 + 1)
  | .month => pair fill t.date.month
  | .day => pair fill t.date.day
  | .weekFromSunday => pair fill (weekOfYear t.day (weekdayFromSunday t.day))
  | .weekFromMonday => pair fill (weekOfYear t.day (weekday t.day))
  | .week => pair fill (weekNumber t.day)
  | .weekdayFromSunday => Text.decimal (Time.weekdayFromSunday t.day)
  | .weekdayFromMonday => Text.decimal (weekday t.day + 1)
  | .dayOfYear => filled fill 3 (Text.decimal (Time.dayOfYear t.day + 1))
  | .hour => pair fill t.hour
  | .hour12 => pair fill (if t.hour % 12 = 0 then 12 else t.hour % 12)
  | .minute => pair fill t.minute
  | .second => pair fill t.shownSecond
  | .nanosecond => filled fill 9 (Text.decimal t.fraction)
  | .epoch => signed fill 9 (if t.seconds < 0 then "-" else "") t.seconds.natAbs

/-- The text of an item at a point in time. -/
def text (t : Instant) : Item → String
  | literal s => s
  | number quantity fill => quantityText t fill quantity
  | monthName => t.monthName
  | shortMonthName => abbreviated t.monthName
  | weekdayName => t.weekdayName
  | shortWeekdayName => abbreviated t.weekdayName
  | upperHalf => if t.hour < 12 then "AM" else "PM"
  | lowerHalf => if t.hour < 12 then "am" else "pm"
  | fraction => t.shortFraction
  | fractionDigits count point =>
    (if point then "." else "") ++ zeros count (t.fraction / Nat.pow 10 (9 - count))
  | zoneName => "UTC"
  | offset s => s
  | rfc3339 => t.dateAndClock ++ t.shortFraction ++ "+00:00"

/-! ## Reading -/

abbrev zero (quantity : Quantity) : Item := .number quantity .zero

abbrev blank (quantity : Quantity) : Item := .number quantity .blank

abbrev bare (quantity : Quantity) : Item := .number quantity .none

def hourMinute : List Item := [zero .hour, literal ":", zero .minute]

def hourMinuteSecond : List Item := hourMinute ++ [literal ":", zero .second]

/-- Month, day and the last digits of the year. -/
def shortDate : List Item :=
  [zero .month, literal "/", zero .day, literal "/", zero .yearOfCentury]

/-- The items a single letter stands for. -/
def ofLetter? : Char → Option (List Item)
  | 'A' => some [weekdayName]
  | 'B' => some [monthName]
  | 'C' => some [zero .century]
  | 'D' | 'x' => some shortDate
  | 'F' => some [zero .year, literal "-", zero .month, literal "-", zero .day]
  | 'G' => some [zero .weekYear]
  | 'H' => some [zero .hour]
  | 'I' => some [zero .hour12]
  | 'M' => some [zero .minute]
  | 'P' => some [lowerHalf]
  | 'R' => some hourMinute
  | 'S' => some [zero .second]
  | 'T' | 'X' => some hourMinuteSecond
  | 'U' => some [zero .weekFromSunday]
  | 'V' => some [zero .week]
  | 'W' => some [zero .weekFromMonday]
  | 'Y' => some [zero .year]
  | 'Z' => some [zoneName]
  | 'a' => some [shortWeekdayName]
  | 'b' | 'h' => some [shortMonthName]
  | 'c' => some ([shortWeekdayName, literal " ", shortMonthName, literal " ", blank .day,
      literal " "] ++ hourMinuteSecond ++ [literal " ", zero .year])
  | 'd' => some [zero .day]
  | 'e' => some [blank .day]
  | 'f' => some [zero .nanosecond]
  | 'g' => some [zero .weekYearOfCentury]
  | 'j' => some [zero .dayOfYear]
  | 'k' => some [blank .hour]
  | 'l' => some [blank .hour12]
  | 'm' => some [zero .month]
  | 'n' => some [literal "\n"]
  | 'p' => some [upperHalf]
  | 'q' => some [bare .quarter]
  | 'r' => some ([zero .hour12, literal ":", zero .minute, literal ":", zero .second,
      literal " ", upperHalf])
  | 's' => some [bare .epoch]
  | 't' => some [literal "\t"]
  | 'u' => some [bare .weekdayFromMonday]
  | 'v' => some [blank .day, literal "-", shortMonthName, literal "-", zero .year]
  | 'w' => some [bare .weekdayFromSunday]
  | 'y' => some [zero .yearOfCentury]
  | 'z' => some [offset "+0000"]
  | '+' => some [rfc3339]
  | '%' | '$' => some [literal "%"]
  | _ => none

/-- Reads a specifier after its mark, without a change of its fill. -/
def plain? : List Char → Option (List Item × List Char)
  | ':' :: ':' :: ':' :: 'z' :: rest => some ([offset "+00"], rest)
  | ':' :: ':' :: 'z' :: rest => some ([offset "+00:00:00"], rest)
  | ':' :: 'z' :: rest => some ([offset "+00:00"], rest)
  | '.' :: 'f' :: rest => some ([fraction], rest)
  | '.' :: '3' :: 'f' :: rest => some ([fractionDigits 3 true], rest)
  | '.' :: '6' :: 'f' :: rest => some ([fractionDigits 6 true], rest)
  | '.' :: '9' :: 'f' :: rest => some ([fractionDigits 9 true], rest)
  | '3' :: 'f' :: rest => some ([fractionDigits 3 false], rest)
  | '6' :: 'f' :: rest => some ([fractionDigits 6 false], rest)
  | '9' :: 'f' :: rest => some ([fractionDigits 9 false], rest)
  | c :: rest => (ofLetter? c).map (·, rest)
  | [] => none

/-- The fill a character asks for. -/
def fillOf? : Char → Option Fill
  | '-' => some .none
  | '0' => some .zero
  | '_' => some .blank
  | _ => none

/-- Reads a specifier after its mark. -/
def specifier? : List Char → Option (List Item × List Char)
  | [] => none
  | c :: rest =>
    match fillOf? c with
    | none => plain? (c :: rest)
    | some fill =>
      match plain? rest with
      | some ([.number quantity _], rest) => some ([.number quantity fill], rest)
      | _ => none

/-- Whether a character opens a specifier. -/
def isMark (c : Char) : Bool := c == '$' || c == '%'

/-- Reads a layout of at most `bound` characters. -/
def ofChars? : Nat → List Char → Option (List Item)
  | _, [] => some []
  | 0, _ :: _ => none
  | bound + 1, c :: rest =>
    if isMark c then do
      let (items, rest) ← specifier? rest
      return items ++ (← ofChars? bound rest)
    else do
      return .literal (String.ofList [c]) :: (← ofChars? bound rest)

end Item

def layout? (pattern : String) : Option (List Item) :=
  Item.ofChars? pattern.toList.length pattern.toList

/-- A point in time as the items of a layout show it. -/
def Instant.write (t : Instant) (items : List Item) : String :=
  String.join (items.map (Item.text t))

end AccessLog.Time
