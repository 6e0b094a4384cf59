/-!
Exact reading of binary64 numbers. A finite number is a sign and a fraction of natural numbers,
and every decimal format of this library is computed on those.
-/
namespace Settlement.Decimal

/-- A finite binary64 number of magnitude `significand * 2 ^ exponent`. -/
structure Binary where
  negative : Bool
  significand : Nat
  exponent : Int
  deriving DecidableEq, Repr

namespace Binary

/-- Nothing for NaN and the infinities. -/
def ofFloat? (x : Float) : Option Binary :=
  let bits := x.toBits.toNat
  let negative := decide (bits / Nat.pow 2 63 = 1)
  let biased : Nat := bits / Nat.pow 2 52 % Nat.pow 2 11
  let fraction : Nat := bits % Nat.pow 2 52
  if biased = 2047 then none
  else if biased = 0 then some ⟨negative, fraction, -1074⟩
  else some ⟨negative, Nat.pow 2 52 + fraction, (biased : Int) - 1075⟩

/-- The exact value. -/
def value (number : Binary) : Rat :=
  mkRat ((if number.negative then -number.significand else number.significand : Int)
    * Nat.pow 2 number.exponent.toNat) (Nat.pow 2 (-number.exponent).toNat)

/-- The magnitude times a power of ten, as numerator and denominator. -/
def scaled (number : Binary) (power : Int) : Nat × Nat :=
  (number.significand * Nat.pow 2 number.exponent.toNat * Nat.pow 10 power.toNat,
    Nat.pow 2 (-number.exponent).toNat * Nat.pow 10 (-power).toNat)

end Binary

/-- The whole number nearest to a quotient; a half goes to the even neighbour. -/
def roundQuotient (numerator denominator : Nat) : Nat :=
  let quotient := numerator / denominator
  let twice := 2 * (numerator % denominator)
  if twice < denominator then quotient
  else if denominator < twice then quotient + 1
  else quotient + quotient % 2

/-- How many decimal digits a positive number has. The first guess comes from its binary
length and is never too small, nor too large by more than one. -/
def digitCount (number : Nat) : Nat :=
  let guess := (number.log2 + 1) * 30103 / 100000
  if number < Nat.pow 10 guess then guess else guess + 1

/-- The power of ten of the leading digit of a positive binary64 magnitude; the least of them
is above `10 ^ -324`. -/
def Binary.leadingPower (number : Binary) : Int :=
  let (numerator, denominator) := number.scaled 324
  (digitCount (numerator / denominator) : Int) - 325

/-- The decimal digits of a number, the leading one first. -/
def digits (number : Nat) : List Char :=
  Nat.toDigits 10 number

/-- Digits padded on the left with zeros to a least width. -/
def paddedDigits (width number : Nat) : List Char :=
  let shown := digits number
  List.replicate (width - shown.length) '0' ++ shown

end Settlement.Decimal
