import Settlement.Economy.Basic
import Settlement.OrderedMap
/-!
What grows back. A renewable stock below its target level recovers a part of the gap every tick;
one at or above it is left alone.
-/
namespace Settlement

/-- The level that a stock grows toward, and the part of the gap that it recovers. -/
structure Target (R : Type) where
  level : R
  rate : R

inductive Replenisher (R : Type) where
  | barren
  | renewable (targets : OrderedMap Good (Target R))

variable {R : Type} [Scalar R]

def Target.regrow (target : Target R) (stock : R) : R :=
  if stock < target.level then stock + (target.level - stock) * target.rate else stock

/-- The stocks after one round of growth. -/
def Replenisher.replenish : Replenisher R → Table Good R → Table Good R
  | barren, stocks => stocks
  | renewable targets, stocks =>
    targets.entries.foldl (fun stocks (good, target) => stocks.modify good target.regrow) stocks

end Settlement
