import Settlement.Economy.Basic
import Settlement.Outcome
import Settlement.Recipe.Catalog
import Settlement.Scalar.Given
/-!
Demand, supply, and what they make of values and prices. A value moves toward its good's
scarcity; a price is the scarcity of the moment.
-/
namespace Settlement

/-- Demand and supply of every good for one tick. -/
structure Totals (R : Type) where
  demand : Table Good R
  supply : Table Good R

/-- Between which raw values a good is priced. -/
structure Bounds (R : Type) where
  floor : Given R
  ceiling : Given R

/-- How values follow scarcity. Bounds and ceilings may not be readable: values need the one,
prices the other. -/
structure ValueRule (R : Type) where
  smoothing : Given R
  bounds : Except Fault (Table Good (Bounds R))
  /-- The prices of goods that are not to be had. -/
  ceilings : Except Fault (Table Good R)

variable {R : Type} [Scalar R]

namespace Economy

/-- Adds what one group asks for. -/
def addDemand (economy : Economy R) (demand : Table Good R) (group : OrderGroup R) :
    Table Good R :=
  let scale := economy.scale group.labor
  group.inputs.foldl
    (fun demand (good, amount) => demand.modify good (· + amount * scale)) demand

def demand (economy : Economy R) (orders : List (OrderGroup R)) : Table Good R :=
  orders.foldl economy.addDemand (Table.const 0)

/-- Adds what one industry makes at its last yield. -/
def addSupply (economy : Economy R) (supply : Table Good R) (entry : Labor × Output R) :
    Table Good R :=
  supply.modify entry.2.good
    (· + economy.yields[entry.1] * economy.shares[entry.1] * economy.headcount)

def supply (economy : Economy R) (outputs : OrderedMap Labor (Output R)) : Table Good R :=
  outputs.entries.foldl economy.addSupply (Table.const 0)

def totals (economy : Economy R) (catalog : Catalog R) : Totals R where
  demand := economy.demand catalog.orders
  supply := economy.supply catalog.outputs

/-- Keeps what supply and stock leave of the demand, and what supply alone leaves. -/
def withSurplus (economy : Economy R) (totals : Totals R) : Economy R :=
  { economy with
    surplus := Table.ofFn fun good =>
      totals.supply[good] + economy.stocks[good] - totals.demand[good]
    marginalSurplus := Table.ofFn fun good => totals.supply[good] - totals.demand[good] }

end Economy

/-- One for a surplus as large as the demand, more for a shortage, less for a glut. -/
def rawValue (surplus demand : R) : R := Scalar.exp2 (1 - surplus / demand)

def Bounds.prices (bounds : Bounds R) (demand raw : R) : Bool :=
  0 < demand && bounds.floor.isLess (.real raw) && (Given.real raw).isLess bounds.ceiling

/-- The next value of a good; one that was unpriced takes the raw value at once. -/
def ValueRule.next (rule : ValueRule R) (bounds : Bounds R) (previous : Option R)
    (surplus demand : R) : Except Fault (Option R) :=
  let raw := rawValue surplus demand
  if bounds.prices demand raw then do
    let smoothing ← rule.smoothing.factor "*" previous.isNone
    return some (smoothing * previous.getD raw + (1 - smoothing) * raw)
  else return none

/-- Demand over what is available; the ceiling where nothing is, zero where nothing is asked. -/
def price (ceiling demand supply stock : R) : R :=
  let available := supply + stock
  if demand ≤ 0 then 0 else if 0 < available then demand / available else ceiling

namespace Economy

/-- Sets the value of a good, and notes it if the good loses its value. -/
def withValue (economy : Economy R) (good : Good) (value : Option R) : Outcome (Economy R) :=
  .noted { economy with values := economy.values.set good value }
    (if economy.values[good].isSome && value.isNone then [.unpriced good] else [])

def revalueGood (rule : ValueRule R) (bounds : Table Good (Bounds R)) (demand : Table Good R)
    (good : Good) (economy : Economy R) : Outcome (Economy R) :=
  .given (rule.next bounds[good] economy.values[good] economy.surplus[good] demand[good]) economy
    (economy.withValue good)

/-- Moves every value, good by good. -/
def revalue (economy : Economy R) (rule : ValueRule R) (demand : Table Good R) :
    Outcome (Economy R) :=
  .given rule.bounds economy fun bounds =>
    Outcome.each Good.all (revalueGood rule bounds demand) economy

def repriced (economy : Economy R) (ceilings : Table Good R) (totals : Totals R) : Economy R :=
  { economy with
    prices := Table.ofFn fun good =>
      price ceilings[good] totals.demand[good] totals.supply[good] economy.stocks[good] }

def reprice (economy : Economy R) (rule : ValueRule R) (totals : Totals R) :
    Outcome (Economy R) :=
  .given rule.ceilings economy fun ceilings => .done (economy.repriced ceilings totals)

end Economy

end Settlement
