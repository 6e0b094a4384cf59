import Settlement.Scalar.Basic
/-!
The arithmetic of binary64 numbers. Powers and whole parts refuse what has no number as its
answer; remainders are exact, and so are comparisons with whole numbers.
-/
namespace Settlement.Binary64

open Decimal (Binary)

/-- A finite number rounded toward zero. -/
def truncate (x : Float) : Except Fault Int :=
  match Binary.ofFloat? x with
  | some ⟨negative, significand, exponent⟩ =>
    let magnitude : Int :=
      (significand * Nat.pow 2 exponent.toNat / Nat.pow 2 (-exponent).toNat : Nat)
    .ok (if negative then -magnitude else magnitude)
  | none => .error (if x.isNaN then .wholeOfNaN else .wholeOfInfinity)

/-- The greatest whole number that is not above a finite number. -/
def floor (x : Float) : Float :=
  match Binary.ofFloat? x with
  | some number => Float.ofInt number.value.floor
  | none => x

/-- A count of units, each of them a power of two. The smallest unit is divided out in two steps,
for one over it is beyond the largest number. -/
def ofUnits (count : Nat) (power : Int) : Float :=
  Float.ofNat (count * Nat.pow 2 power.toNat)
    / Float.ofNat (Nat.pow 2 (min (-power) 1000).toNat)
    / Float.ofNat (Nat.pow 2 (-power - 1000).toNat)

/-- What remains of a division rounded toward zero, with the sign of the dividend. -/
def remainder (x y : Float) : Float :=
  match Binary.ofFloat? x, Binary.ofFloat? y with
  | some a, some b =>
    let unit := min a.exponent b.exponent
    let left := a.significand * Nat.pow 2 (a.exponent - unit).toNat
    let right := b.significand * Nat.pow 2 (b.exponent - unit).toNat
    let magnitude := ofUnits (left % right) unit
    if right = 0 then 0.0 / 0.0 else if a.negative then -magnitude else magnitude
  | some _, none => if y.isNaN then y else x
  | none, _ => 0.0 / 0.0

/-- The quotient rounded down and what remains, with the sign of the divisor. -/
def divMod (x y : Float) : Float × Float :=
  let rest := remainder x y
  let apart := (rest < 0.0) != (y < 0.0)
  let quotient := (x - rest) / y
  let quotient := if !(rest == 0.0) && apart then quotient - 1.0 else quotient
  let below := floor quotient
  let whole :=
    if quotient == 0.0 then 0.0
    else if 0.5 < quotient - below then below + 1.0 else below
  (whole, if rest == 0.0 then 0.0 else if apart then rest + y else rest)

def isOdd (x : Float) : Bool :=
  match truncate x with
  | .ok whole => floor x == x && whole % 2 == 1
  | .error _ => false

def infinity : Float := 1.0 / 0.0

def finitePower (base exponent : Float) : Except Fault Float :=
  let magnitude := Float.pow base.abs exponent
  if base < 0.0 && !(floor exponent == exponent) then
    if magnitude.isInf then .error .turnedPowerTooLarge
    else .ok (magnitude * Float.cos (3.141592653589793 * exponent))
  else if magnitude.isInf then .error .powerTooLarge
  else .ok (if base < 0.0 && isOdd exponent then -magnitude else magnitude)

def power (base exponent : Float) : Except Fault Float :=
  if exponent == 0.0 then .ok 1.0
  else if base.isNaN then .ok base
  else if exponent.isNaN then .ok (if base == 1.0 then 1.0 else exponent)
  else if exponent.isInf then
    .ok (if base.abs == 1.0 then 1.0
      else if decide (0.0 < exponent) == decide (1.0 < base.abs) then infinity else 0.0)
  else if base.isInf then
    let magnitude := if 0.0 < exponent then infinity else 0.0
    .ok (if base < 0.0 && isOdd exponent then -magnitude else magnitude)
  else if base == 0.0 then
    if exponent < 0.0 then .error .zeroToNegativePower
    else .ok (if isOdd exponent then base else 0.0)
  else finitePower base exponent

/-- The number nearest to a whole one; beyond the largest there is none. -/
def ofWhole (value : Int) : Except Fault Float :=
  match (Number.whole value).toFloat? with
  | some x => .ok x
  | none => .error .wholeTooLarge

/-- The number nearest to a quotient of natural numbers; infinite beyond the largest. The unit is
that of the last place of a number as high as the quotient. -/
def nearestQuotient (numerator denominator : Nat) : Float :=
  let height : Int := (numerator.log2 : Int) - denominator.log2
  let inUnits (unit : Int) : Nat :=
    Decimal.roundQuotient (numerator * Nat.pow 2 (-unit).toNat)
      (denominator * Nat.pow 2 unit.toNat)
  let isFull := denominator * Nat.pow 2 height.toNat ≤ numerator * Nat.pow 2 (-height).toNat
  let unit := max (if isFull then height - 52 else height - 53) (-1074)
  if numerator = 0 then 0.0 else ofUnits (inUnits unit) unit

def ratio (a b : Int) : Except Fault Float :=
  let magnitude := nearestQuotient a.natAbs b.natAbs
  if magnitude.isInf then .error .quotientTooLarge
  else .ok (Decimal.withSign (decide (a < 0) != decide (b < 0)) magnitude)

def isBelow (x : Float) (whole : Int) : Bool :=
  match Binary.ofFloat? x with
  | some number => number.value < whole
  | none => x < 0.0

def isAbove (x : Float) (whole : Int) : Bool :=
  match Binary.ofFloat? x with
  | some number => (whole : Rat) < number.value
  | none => 0.0 < x

instance : Scalar Float where
  toZero := inferInstance
  toOne := ⟨1.0⟩
  natCast := Float.ofNat
  toAdd := inferInstance
  toSub := inferInstance
  toMul := inferInstance
  toDiv := inferInstance
  toLE := inferInstance
  toLT := inferInstance
  decideLE := inferInstance
  decideLT := inferInstance
  isZero x := x == 0.0
  exp2 := Float.exp2
  power := power
  divMod := divMod
  truncate := truncate
  ofWhole := ofWhole
  ratio := ratio
  isBelow := isBelow
  isAbove := isAbove
  number := .real

end Settlement.Binary64
