import Settlement.Decimal.Binary
/-!
The shortest decimal that reads back. Of the decimals inside a number's rounding interval the
one with the fewest digits is taken, of those the nearest, and of two nearest the even one.
-/
namespace Settlement.Decimal

/-- The decimal `coefficient * 10 ^ power`. -/
structure Scaled where
  coefficient : Nat
  power : Int
  deriving DecidableEq, Repr

/-- The reals that round to a number, in quarters of its last place; the ends belong to it
exactly when the significand is even. -/
structure Interval where
  low : Nat
  middle : Nat
  high : Nat
  closed : Bool

/-- The neighbour below the least significand of a binade is half as far away. -/
def Binary.interval (number : Binary) : Interval :=
  let narrow := decide (number.significand = Nat.pow 2 52 ∧ -1074 < number.exponent)
  { low := 4 * number.significand - if narrow then 1 else 2
    middle := 4 * number.significand
    high := 4 * number.significand + 2
    closed := number.significand % 2 = 0 }

def Interval.holds (interval : Interval) (unit point : Nat) : Bool :=
  if interval.closed then interval.low * unit ≤ point && point ≤ interval.high * unit
  else interval.low * unit < point && point < interval.high * unit

/-- The better of a number's two neighbours on the grid of multiples of `10 ^ power`, if one of
them is in the rounding interval. -/
def Binary.onGrid? (number : Binary) (power : Int) : Option Nat :=
  let interval := number.interval
  let step := Nat.pow 10 power.toNat * Nat.pow 2 (2 - number.exponent).toNat
  let unit := Nat.pow 2 (number.exponent - 2).toNat * Nat.pow 10 (-power).toNat
  let below := interval.middle * unit / step
  let lowGap := interval.middle * unit - below * step
  let highGap := (below + 1) * step - interval.middle * unit
  let lower := interval.holds unit (below * step)
  let upper := interval.holds unit ((below + 1) * step)
  if lower && upper then
    if lowGap < highGap then some below
    else if highGap < lowGap then some (below + 1)
    else some (below + below % 2)
  else if lower then some below
  else if upper then some (below + 1)
  else none

/-- Tries ever finer grids; seventeen digits always suffice. -/
def Binary.searchGrids (number : Binary) (leading : Int) : (finer tried : Nat) → Scaled
  | 0, _ => ⟨0, 0⟩
  | finer + 1, tried =>
    match number.onGrid? (leading - tried) with
    | some coefficient => ⟨coefficient, leading - tried⟩
    | none => number.searchGrids leading finer (tried + 1)

def Binary.shortest (number : Binary) : Scaled :=
  if number.significand = 0 then ⟨0, 0⟩
  else number.searchGrids number.leadingPower 17 0

end Settlement.Decimal
