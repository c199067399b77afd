import AccessLog.Json.Tree

/-!
# Reading JSON

`Document.read` reads a text as far as it is JSON. Containers may be nested 127 deep; a deeper
one cannot be read. Numbers and strings are read whole: a numeral that is followed by something
else ends where it stops being a numeral, and what follows is judged by what stands around it.
-/

set_option autoImplicit false

namespace AccessLog.Json

namespace Reader

/-- The blanks between the parts of a text. -/
def isBlank (c : Char) : Bool := c == ' ' || c == '\n' || c == '\t' || c == '\r'

/-- Passes over blanks. -/
def skip (cs : List Char) : List Char := cs.dropWhile isBlank

/-! ## Strings -/

/-- Reads four hexadecimal digits of either case. -/
def hexUnit? : List Char → Option (Nat × List Char)
  | a :: b :: c :: d :: rest => (Text.hexNumber? [a, b, c, d]).map (·, rest)
  | _ => none

/-- Reads what follows `\u`: a code unit or, when it is the first half of a pair, the second half
as well. A half on its own is no character. -/
def escapedUnit? (cs : List Char) : Option (Char × List Char) := do
  let (unit, rest) ← hexUnit? cs
  if 0xDC00 ≤ unit ∧ unit ≤ 0xDFFF then none
  else if 0xD800 ≤ unit ∧ unit ≤ 0xDBFF then
    match rest with
    | '\\' :: 'u' :: rest =>
      let (second, rest) ← hexUnit? rest
      if 0xDC00 ≤ second ∧ second ≤ 0xDFFF then
        return (Char.ofNat (0x10000 + (unit - 0xD800) * 0x400 + (second - 0xDC00)), rest)
      else none
    | _ => none
  else return (Char.ofNat unit, rest)

/-- Reads what follows a backslash. -/
def escaped? : List Char → Option (Char × List Char)
  | '"' :: rest => some ('"', rest)
  | '\\' :: rest => some ('\\', rest)
  | '/' :: rest => some ('/', rest)
  | 'b' :: rest => some ('\x08', rest)
  | 'f' :: rest => some ('\x0c', rest)
  | 'n' :: rest => some ('\n', rest)
  | 'r' :: rest => some ('\r', rest)
  | 't' :: rest => some ('\t', rest)
  | 'u' :: rest => escapedUnit? rest
  | _ => none

/-- Reads a string after its opening quote, through its closing quote. The number bounds the
characters that are read. -/
def string? : Nat → List Char → Option (List Char × List Char)
  | 0, _ => none
  | _ + 1, [] => none
  | _ + 1, '"' :: rest => some ([], rest)
  | bound + 1, '\\' :: rest => do
    let (c, rest) ← escaped? rest
    let (s, rest) ← string? bound rest
    return (c :: s, rest)
  | bound + 1, c :: rest =>
    if c.toNat < 0x20 then none
    else do
      let (s, rest) ← string? bound rest
      return (c :: s, rest)

/-! ## Numbers -/

/-- The bound of the integers that are kept as they are. -/
def integerBound : Nat := UInt64.size

/-- Takes up digits for as long as the number that they make stays below the bound; gives the
number and how many digits were taken. -/
def absorb (n : Nat) : List Char → Nat × Nat
  | [] => (n, 0)
  | d :: ds =>
    let next := 10 * n + (d.toNat - '0'.toNat)
    if next < integerBound then
      let (m, count) := absorb next ds
      (m, count + 1)
    else (n, 0)

/-- An optional sign and one or more digits, as they follow the letter of an exponent. -/
def exponent? (cs : List Char) : Option (Int × List Char) :=
  let (negative, cs) := match cs with
    | '-' :: rest => (true, rest)
    | '+' :: rest => (false, rest)
    | _ => (false, cs)
  let digits := cs.takeWhile Char.isDigit
  let size : Int := Nat.ofDigitChars 10 digits 0
  if digits.isEmpty then none
  else some (if negative then -size else size, cs.dropWhile Char.isDigit)

/-- A point and one or more digits, if there is a point. -/
def fraction? : List Char → Option (List Char × List Char)
  | '.' :: rest =>
    let digits := rest.takeWhile Char.isDigit
    if digits.isEmpty then none else some (digits, rest.dropWhile Char.isDigit)
  | cs => some ([], cs)

/-- The double for the digits of a numeral. Digits beyond 64 bits are not taken up: before the
point they only count, behind it they are left out. -/
def float? (negative : Bool) (whole fraction : List Char) (exponent : Int) : Option Number :=
  let (n, wholeTaken) := absorb 0 whole
  let (n, fractionTaken) := absorb n fraction
  let exponent := exponent + (whole.length - wholeTaken : Nat) - fractionTaken
  (Binary64.ofDecimal? negative n exponent).map .float

/-- The number of a numeral without point and exponent. Negative zero and what does not fit 64
bits are doubles. -/
def integer? (negative : Bool) (whole : List Char) : Option Number :=
  let n := Nat.ofDigitChars 10 whole 0
  if negative then
    if 0 < n && n ≤ integerBound / 2 then some (.int (-n)) else float? negative whole [] 0
  else if n < integerBound then some (.int n)
  else float? negative whole [] 0

def number? (cs : List Char) : Option (Number × List Char) := do
  let (negative, cs) := match cs with
    | '-' :: rest => (true, rest)
    | _ => (false, cs)
  let whole := cs.takeWhile Char.isDigit
  let rest := cs.dropWhile Char.isDigit
  if whole.isEmpty || (whole.head? == some '0' && 1 < whole.length) then none
  else
    let (fraction, rest) ← fraction? rest
    match rest with
    | 'e' :: rest | 'E' :: rest =>
      let (exponent, rest) ← exponent? rest
      return (← float? negative whole fraction exponent, rest)
    | _ =>
      if fraction.isEmpty then return (← integer? negative whole, rest)
      else return (← float? negative whole fraction 0, rest)

def word? (word : String) (cs : List Char) : Option (List Char) :=
  if word.toList.isPrefixOf cs then some (cs.drop word.toList.length) else none

def scalar? (cs : List Char) : Option (Tree × List Char) :=
  match cs with
  | '"' :: rest => (string? cs.length rest).map fun (s, rest) => (.string (String.ofList s), rest)
  | 'n' :: _ => (word? "null" cs).map (.null, ·)
  | 't' :: _ => (word? "true" cs).map (.bool true, ·)
  | 'f' :: _ => (word? "false" cs).map (.bool false, ·)
  | _ => (number? cs).map fun (n, rest) => (.number n, rest)

/-! ## Values -/

/-- How deep containers may be nested. -/
def maxDepth : Nat := 127

mutual

/-- Reads a value inside of which `room` more containers may be nested. Gives the tree and, if
the value could be read to its end, what follows it. The first number bounds the steps. -/
def tree : Nat → Nat → List Char → Tree × Option (List Char)
  | 0, _, _ => (.broken, none)
  | bound + 1, room, cs =>
    match skip cs with
    | '[' :: rest =>
      match room with
      | 0 => (.broken, none)
      | room + 1 =>
        match skip rest with
        | ']' :: rest => (.array [] true, some rest)
        | rest =>
          let (found, rest) := items bound room rest
          (.array found rest.isSome, rest)
    | '{' :: rest =>
      match room with
      | 0 => (.broken, none)
      | room + 1 =>
        match skip rest with
        | '}' :: rest => (.object [] true, some rest)
        | rest =>
          let (found, rest) := members bound room rest
          (.object found rest.isSome, rest)
    | cs =>
      match scalar? cs with
      | some (t, rest) => (t, some rest)
      | none => (.broken, none)

/-- Reads one or more elements with commas between them, through the closing bracket. -/
def items : Nat → Nat → List Char → List Tree × Option (List Char)
  | 0, _, _ => ([], none)
  | bound + 1, room, cs =>
    match tree bound room cs with
    | (item, none) => ([item], none)
    | (item, some rest) =>
      match skip rest with
      | ']' :: rest => ([item], some rest)
      | ',' :: rest =>
        let (more, rest) := items bound room rest
        (item :: more, rest)
      | _ => ([item], none)

/-- Reads one or more members with commas between them, through the closing brace. A name that
is not followed by a colon still counts as read. -/
def members : Nat → Nat → List Char → List (String × Tree) × Option (List Char)
  | 0, _, _ => ([], none)
  | bound + 1, room, cs =>
    match skip cs with
    | '"' :: rest =>
      match string? cs.length rest with
      | none => ([], none)
      | some (name, rest) =>
        let name := String.ofList name
        match skip rest with
        | ':' :: rest =>
          match tree bound room rest with
          | (member, none) => ([(name, member)], none)
          | (member, some rest) =>
            match skip rest with
            | '}' :: rest => ([(name, member)], some rest)
            | ',' :: rest =>
              let (more, rest) := members bound room rest
              ((name, member) :: more, rest)
            | _ => ([(name, member)], none)
        | _ => ([(name, .broken)], none)
    | _ => ([], none)

end

end Reader

/-- Reads a text as far as it is JSON. -/
def Document.read (source : String) : Document :=
  let cs := source.toList
  -- every step but the last one consumes a character
  let (root, rest) := Reader.tree (2 * cs.length + 2) Reader.maxDepth cs
  match rest with
  | some rest => ⟨root, (Reader.skip rest).isEmpty⟩
  | none => ⟨root, false⟩

/-- The value a text spells, if all of it is JSON. -/
def Value.read? (source : String) : Option Value := (Document.read source).value?

end AccessLog.Json
