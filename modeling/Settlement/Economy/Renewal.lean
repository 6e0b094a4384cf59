import Settlement.Outcome
import Settlement.Replenisher
import Settlement.Scalar.Given
/-!
What time does to a settlement: stocks decay and grow back, people are born and die.
-/
namespace Settlement

/-- Rates per year, and whether the population stops at zero. -/
structure Demography (R : Type) where
  birthRate : Given R
  deathRate : Given R
  clamped : Bool

/-- The days of a year. -/
def daysPerYear {R : Type} [Scalar R] : R := (360 : Nat)

variable {R : Type} [Scalar R]

namespace Economy

def decayed (economy : Economy R) (decay : Table Good R) : Economy R :=
  { economy with
    stocks := Table.zipWith (fun stock rate => stock * (1 - rate)) economy.stocks decay }

def replenished (economy : Economy R) (replenisher : Replenisher R) : Economy R :=
  { economy with stocks := replenisher.replenish economy.stocks }

/-- Stocks that are not above zero become zero. -/
def floored (economy : Economy R) : Economy R :=
  { economy with stocks := economy.stocks.map fun stock => if stock ≤ 0 then 0 else stock }

/-- People are born only while food is in surplus. -/
def births (economy : Economy R) (demography : Demography R) : Given R :=
  if 0 < economy.surplus[Good.food] then demography.birthRate else .real 0

/-- By how much of itself the population grows in a year. -/
def growth (economy : Economy R) (demography : Demography R) : Except Fault R := do
  ((← (economy.births demography).minus demography.deathRate)).operand (.notOperand "*" .real)

/-- The population after some days, before it is stopped at zero. -/
def grown (economy : Economy R) (demography : Demography R) (days : Given R) : Except Fault R := do
  let days ← days.operand (.notOperand "/" · .real)
  let growth ← economy.growth demography
  return economy.population + days / daysPerYear * economy.population * growth

/-- The economy with a new population. -/
def peopled (economy : Economy R) (demography : Demography R) (population : R) :
    Outcome (Economy R) :=
  if demography.clamped && population < 0 then
    .noted { economy with population := 0 } [.extinct (Scalar.number population)]
  else .done { economy with population }

def growPopulation (economy : Economy R) (demography : Demography R) (days : Given R) :
    Outcome (Economy R) :=
  .given (economy.grown demography days) economy (economy.peopled demography)

end Economy

end Settlement
