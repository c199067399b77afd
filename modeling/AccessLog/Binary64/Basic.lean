/-!
# Double-precision numbers

A finite double is a sign and a magnitude `mantissa * 2 ^ exponent` in its one normal form:
the mantissa has 53 bits, or fewer at the smallest exponent. All arithmetic is on natural
numbers and rounds once, to the nearest double and at a tie to the even mantissa.
`Binary64.ofDecimal?` is how the digits of a numeral become a double.
-/

set_option autoImplicit false

namespace AccessLog

/-- A finite double, signed zeros included. -/
structure Binary64 where
  negative : Bool
  mantissa : Nat
  exponent : Int
  deriving DecidableEq, Repr

namespace Binary64

/-- The number of bits of a full mantissa. -/
def precision : Nat := 53

/-- The smallest exponent of a double. -/
def minExponent : Int := -1074

/-- The largest exponent of a double. -/
def maxExponent : Int := 971

/-- Zero of either sign. -/
def zero (negative : Bool) : Binary64 := ⟨negative, 0, minExponent⟩

def isZero (x : Binary64) : Bool := x.mantissa == 0

/-! ## Rounding -/

/-- The quotient of two natural numbers rounded to the nearest, a half to the even neighbour. -/
def roundDiv (num den : Nat) : Nat :=
  let q := num / den
  let twice := 2 * (num % den)
  if twice < den then q else if den < twice then q + 1 else if q % 2 = 0 then q else q + 1

/-- Multiplies a fraction by a power of two. -/
def scaled (num den : Nat) (shift : Int) : Nat × Nat :=
  (num * Nat.pow 2 shift.toNat, den * Nat.pow 2 (-shift).toNat)

/-- The exponent of the largest power of two that is not above a positive fraction. -/
def log2Floor (num den : Nat) : Int :=
  let estimate := (num.log2 : Int) - den.log2
  let (n, d) := scaled num den (-estimate)
  if n < d then estimate - 1 else estimate

/-- The double nearest to a fraction times a power of two, `none` when it is too large. -/
def nearest? (negative : Bool) (num den : Nat) (shift : Int) : Option Binary64 :=
  if num = 0 then some (zero negative)
  else
    let exponent := max (log2Floor num den + shift - (precision - 1 : Nat)) minExponent
    let (n, d) := scaled num den (shift - exponent)
    let mantissa := roundDiv n d
    -- rounding up may need one more bit
    let (mantissa, exponent) :=
      if mantissa = Nat.pow 2 precision then (Nat.pow 2 (precision - 1), exponent + 1)
      else (mantissa, exponent)
    if exponent ≤ maxExponent then some ⟨negative, mantissa, exponent⟩ else none

/-! ## From decimal numerals -/

/-- The product of two doubles. -/
def mul? (x y : Binary64) : Option Binary64 :=
  nearest? (x.negative != y.negative) (x.mantissa * y.mantissa) 1 (x.exponent + y.exponent)

/-- The quotient of two doubles, the second of which is not zero. -/
def div? (x y : Binary64) : Option Binary64 :=
  nearest? (x.negative != y.negative) x.mantissa y.mantissa (x.exponent - y.exponent)

/-- The largest power of ten that is a finite double has this exponent. -/
def maxPower : Nat := 308

/-- The double nearest to a power of ten. -/
def powerOfTen? (n : Nat) : Option Binary64 := nearest? false (Nat.pow 10 n) 1 0

/-- Divides a double by the largest power of ten a number of times. -/
def lower? : Nat → Binary64 → Option Binary64
  | 0, x => some x
  | count + 1, x => if x.isZero then some x else do lower? count (← div? x (← powerOfTen? maxPower))

/-- Multiplies a double by a power of ten. An exponent below the smallest power is brought into
range by dividing by the largest one first; one above the largest power is too large for
anything but zero. -/
def scaleByTen? (x : Binary64) (exponent : Int) : Option Binary64 :=
  if 0 ≤ exponent then
    if x.isZero then some x
    else if exponent ≤ maxPower then do mul? x (← powerOfTen? exponent.toNat)
    else none
  else
    let size := exponent.natAbs
    let count := (size - 1) / maxPower
    do div? (← lower? count x) (← powerOfTen? (size - maxPower * count))

/-- The double for `digits * 10 ^ exponent`: the digits are rounded first, and the result is
multiplied or divided by a rounded power of ten. Two roundings may land one unit away from the
nearest double; that is what this notation means here. -/
def ofDecimal? (negative : Bool) (digits : Nat) (exponent : Int) : Option Binary64 := do
  let magnitude ← nearest? false digits 1 0
  let x ← scaleByTen? magnitude exponent
  return { x with negative := negative }

end Binary64

end AccessLog
