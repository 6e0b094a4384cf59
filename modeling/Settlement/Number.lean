import Settlement.Decimal.Layout
import Settlement.Decimal.Reading
/-!
Numbers as they are written: whole numbers of any size and reals are kept apart.
-/
namespace Settlement

inductive Number where
  | whole (value : Int)
  | real (value : Float)

/-- What a number stands for. -/
inductive Quantity where
  | finite (value : Rat)
  | infinite (negative : Bool)
  deriving DecidableEq

namespace Number

/-- Nothing for NaN. -/
def quantity? : Number → Option Quantity
  | whole value => some (.finite value)
  | real value =>
    match Decimal.Binary.ofFloat? value with
    | some number => some (.finite number.value)
    | none => if value.isNaN then none else some (.infinite (decide (value < 0.0)))

/-- Exact equality; a whole number may equal a real, and nothing equals NaN. -/
def same (a b : Number) : Bool :=
  match a.quantity?, b.quantity? with
  | some left, some right => left = right
  | _, _ => false

theorem same_eq_true_iff {a b : Number} :
    a.same b = true ↔ ∃ quantity, a.quantity? = some quantity ∧ b.quantity? = some quantity := by
  unfold same
  split
  · rename_i left right first second
    simp [first, second, eq_comm]
  · rename_i absent
    simp only [Bool.false_eq_true, false_iff]
    rintro ⟨quantity, first, second⟩
    exact absent _ _ first second

/-- The nearest real, unless the number is beyond all of them. -/
def toFloat? : Number → Option Float
  | real value => some value
  | whole value => if (Float.ofInt value).isFinite then some (Float.ofInt value) else none

def isZero : Number → Bool
  | whole value => value == 0
  | real value => value == 0.0

def isPositive : Number → Bool
  | whole value => 0 < value
  | real value => 0.0 < value

/-- The digits of a whole number. -/
def wholeText (value : Int) : String :=
  String.ofList (Decimal.signed (decide (value < 0)) (Decimal.digits value.natAbs))

/-- A number in full: all digits of a whole one, the shortest that read back of a real. -/
def shown : Number → String
  | whole value => wholeText value
  | real value => Decimal.shortest value

end Number

end Settlement
