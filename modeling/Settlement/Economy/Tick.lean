import Settlement.Economy.Market
import Settlement.Economy.Production
import Settlement.Economy.Renewal
import Settlement.Economy.Workforce
/-!
The tick of one economy. Its phases run in a fixed order, once each: demand and supply, values
and prices, workforce, production, decay and growth, population.
-/
namespace Settlement

/-- What the phases of a tick are governed by. -/
structure Rules (R : Type) where
  values : ValueRule R
  labor : LaborRule R
  exponent : Given R
  demography : Demography R

variable {R : Type} [Scalar R]

namespace Economy

/-- The market phases, which end with new prices. -/
def trade (rules : Rules R) (totals : Totals R) (economy : Economy R) : Outcome (Economy R) :=
  ((economy.withSurplus totals).revalue rules.values totals.demand).andThen
    (·.reprice rules.values totals)

def employ (rules : Rules R) (catalog : Catalog R) (economy : Economy R) : Outcome (Economy R) :=
  .given (economy.reallocate rules.labor catalog.outputs) economy fun (_, economy) => .done economy

/-- The phases that only time drives. -/
def renew (rules : Rules R) (decay : Table Good R) (replenisher : Replenisher R) (days : Given R)
    (economy : Economy R) : Outcome (Economy R) :=
  (((economy.decayed decay).replenished replenisher).floored).growPopulation rules.demography days

def tick (rules : Rules R) (catalog : Catalog R) (decay : Table Good R)
    (replenisher : Replenisher R) (days : Given R) (economy : Economy R) : Outcome (Economy R) :=
  let totals := economy.totals catalog
  (((economy.trade rules totals).andThen (employ rules catalog)).andThen
    fun economy => economy.produce catalog rules.exponent totals.demand).andThen
    (renew rules decay replenisher days)

end Economy

end Settlement
