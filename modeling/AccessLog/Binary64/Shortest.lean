import AccessLog.Binary64.Basic
import AccessLog.Text.Basic

/-!
# The shortest decimal text of a double

A double is written with the fewest digits that are read back as the same double by a reader
that rounds correctly, and of those with the digits nearest to its value. Scientific exponents
from -5 to 15 are written in positional notation; the text always shows that the number is no
integer, by a decimal point or an exponent.
-/

set_option autoImplicit false

namespace AccessLog.Binary64

/-! ## The digits

Numbers near a double are compared in quarters of its last place, so that the borders of the
interval that rounds to it are whole numbers. -/

/-- The lower border of the reals that round to a double, in quarters of its last place. Below
a power of two the doubles are twice as dense. -/
def lowerBorder (x : Binary64) : Nat :=
  if x.mantissa = Nat.pow 2 (precision - 1) && minExponent < x.exponent then 4 * x.mantissa - 1
  else 4 * x.mantissa - 2

/-- The upper border of the reals that round to a double, in quarters of its last place. -/
def upperBorder (x : Binary64) : Nat := 4 * x.mantissa + 2

/-- A quarter of the last place of a double, measured in steps of `10 ^ place`. -/
def quarterIn (x : Binary64) (place : Int) : Nat × Nat :=
  let (n, d) := scaled 1 1 (x.exponent - 2)
  (n * Nat.pow 10 (-place).toNat, d * Nat.pow 10 place.toNat)

/-- Whether `digits * 10 ^ place` rounds to a double; the borders belong to even mantissas. -/
def rounds (x : Binary64) (digits : Nat) (place : Int) : Bool :=
  let (n, d) := quarterIn x place
  let low := lowerBorder x * n
  let high := upperBorder x * n
  let here := digits * d
  if x.mantissa % 2 = 0 then low ≤ here && here ≤ high else low < here && here < high

/-- The multiple of `10 ^ place` nearest to a double among those that round to it. Only the two
neighbours of the double matter; at a tie the even one is taken. -/
def gridPoint? (x : Binary64) (place : Int) : Option Nat :=
  let (n, d) := quarterIn x place
  let value := 4 * x.mantissa * n
  let below := value / d
  let above := below + 1
  match rounds x below place, rounds x above place with
  | false, false => none
  | true, false => some below
  | false, true => some above
  | true, true =>
    let twice := 2 * (value - below * d)
    if twice < d then some below
    else if d < twice then some above
    else if below % 2 = 0 then some below else some above

/-- The exponent of the largest power of ten that is not above a positive double, found from an
estimate that is at most a few too low. -/
def log10Floor (x : Binary64) : Int :=
  let reaches (place : Int) : Bool :=
    let (n, d) := quarterIn x place
    d ≤ 4 * x.mantissa * n
  let estimate := (((x.mantissa.log2 : Int) + x.exponent) * 30103) / 100000 - 1
  let climb (place : Int) : Int := if reaches (place + 1) then place + 1 else place
  climb (climb (climb estimate))

/-- The first hit on grids that get finer, from `count` more tries down to none. -/
def searchGrids (x : Binary64) (place : Int) : Nat → Nat × Int
  | 0 => (x.mantissa, x.exponent)
  | count + 1 =>
    match gridPoint? x place with
    | some digits => (digits, place)
    | none => searchGrids x (place - 1) count

/-- The digits of the shortest decimal and the place of the last of them. Seventeen digits
always suffice. -/
def shortest (x : Binary64) : Nat × Int := searchGrids x (log10Floor x) 17

/-! ## The notation -/

/-- The digits of a number without the zeros at its end. -/
def significantDigits (n : Nat) : List Char :=
  ((Nat.toDigits 10 n).reverse.dropWhile (· == '0')).reverse

/-- The text of a decimal with these digits, the first of which stands for `10 ^ exponent`. -/
def decimalNotation (digits : List Char) (exponent : Int) : List Char :=
  let zeros (n : Int) : List Char := List.replicate n.toNat '0'
  let count : Int := digits.length
  if exponent < -5 ∨ 15 < exponent then
    let fraction := match digits.drop 1 with
      | [] => []
      | more => '.' :: more
    let sign := if exponent < 0 then '-' else '+'
    digits.take 1 ++ fraction ++ 'e' :: sign :: Nat.toDigits 10 exponent.natAbs
  else if exponent < 0 then
    ['0', '.'] ++ zeros (-exponent - 1) ++ digits
  else if count ≤ exponent + 1 then
    digits ++ zeros (exponent + 1 - count) ++ ['.', '0']
  else
    digits.take (exponent + 1).toNat ++ '.' :: digits.drop (exponent + 1).toNat

def text (x : Binary64) : String :=
  let magnitude : List Char :=
    if x.isZero then ['0', '.', '0']
    else
      let (digits, place) := shortest x
      decimalNotation (significantDigits digits) (place + (Nat.toDigits 10 digits).length - 1)
  String.ofList (if x.negative then '-' :: magnitude else magnitude)

end AccessLog.Binary64
