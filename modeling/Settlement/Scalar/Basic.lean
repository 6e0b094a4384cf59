import Settlement.Fault
/-!
The arithmetic that an economy is computed in. Every phase of the economy is written for any
such arithmetic: the program runs on binary64 numbers.
-/
namespace Settlement

class Scalar (R : Type) extends Zero R, One R, NatCast R, Add R, Sub R, Mul R, Div R, LE R, LT R
    where
  [decideLE : DecidableLE R]
  [decideLT : DecidableLT R]
  isZero : R → Bool
  /-- Two to a power. -/
  exp2 : R → R
  /-- A number to a power; of a negative base only the real part counts. -/
  power : R → R → Except Fault R
  /-- The quotient rounded down and what remains. -/
  divMod : R → R → R × R
  /-- The whole part. -/
  truncate : R → Except Fault Int
  /-- The number nearest to a whole one. -/
  ofWhole : Int → Except Fault R
  /-- The number nearest to the quotient of two whole ones. -/
  ratio : Int → Int → Except Fault R
  /-- Whether a number is less than a whole one. -/
  isBelow : R → Int → Bool
  /-- Whether a number is greater than a whole one. -/
  isAbove : R → Int → Bool
  /-- The number that messages show. -/
  number : R → Number

attribute [reducible, instance] Scalar.decideLE Scalar.decideLT

namespace Scalar

variable {R : Type} [Scalar R]

/-- The first number unless the second is greater. -/
def larger (a b : R) : R := if a < b then b else a

/-- The first number unless the second is less. -/
def smaller (a b : R) : R := if b < a then b else a

/-- The sum of a list, from the left. -/
def sum (numbers : List R) : R := numbers.foldl (· + ·) 0

def quotient (a b : R) : Except Fault R :=
  if isZero b then .error (.divisionByZero false) else .ok (a / b)

end Scalar

end Settlement
