import Settlement.Economy.Basic
import Settlement.Recipe.Catalog
import Settlement.Scalar.Given
/-!
The workforce moves toward the industries whose output is worth most. Every industry of the
catalog keeps a floor of the total weight, so that none is ever left without workers.
-/
namespace Settlement

structure LaborRule (R : Type) where
  smoothing : Given R
  /-- The least total weight. -/
  ratioFloor : Given R
  /-- Every industry weighs at least the total over this. -/
  floorDivisor : Given R

variable {R : Type} [Scalar R]

namespace Economy

/-- The weight of an industry: the value of its output times its productivity. -/
def weight (economy : Economy R) (entry : Labor × Output R) : R :=
  economy.values[entry.2.good].getD 0 * economy.productivity[entry.1]

def weights (economy : Economy R) (outputs : OrderedMap Labor (Output R)) : List R :=
  outputs.entries.map economy.weight

end Economy

namespace LaborRule

/-- The sum of all weights; that of none is a whole zero. -/
def sum : List R → Given R
  | [] => .whole 0
  | weights => .real (Scalar.sum weights)

def total (rule : LaborRule R) (weights : List R) : Except Fault (Given R) :=
  (sum weights).larger rule.ratioFloor

/-- The next share of an industry of a given weight. -/
def share (smoothing total floor old weight : R) : R :=
  smoothing * old + (1 - smoothing) * (Scalar.larger weight floor / total)

end LaborRule

namespace Economy

/-- Sets the share of every industry of the catalog. -/
def reassigned (economy : Economy R) (outputs : OrderedMap Labor (Output R))
    (smoothing total floor : R) : Economy R :=
  { economy with
    shares := outputs.entries.foldl
      (fun shares entry =>
        shares.modify entry.1 (LaborRule.share smoothing total floor · (economy.weight entry)))
      economy.shares }

/-- Reallocates the workforce, and tells the floor that was used. Without industries the floor is
all that is asked for. -/
def reallocate (economy : Economy R) (rule : LaborRule R)
    (outputs : OrderedMap Labor (Output R)) : Except Fault (R × Economy R) := do
  let weights := economy.weights outputs
  let total ← rule.total weights
  let floor ← total.dividedBy rule.floorDivisor
  if weights.isEmpty then return (floor, economy)
  else
    let smoothing ← rule.smoothing.factor "*" true
    let total ← total.operand (.notOperand "/" .real)
    if Scalar.isZero total then .error (.divisionByZero false)
    else return (floor, economy.reassigned outputs smoothing total floor)

end Economy

end Settlement
