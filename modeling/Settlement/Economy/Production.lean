import Settlement.Economy.Basic
import Settlement.Outcome
import Settlement.Recipe.Catalog
import Settlement.Scalar.Given
/-!
Production. Each order group takes its inputs in the proportion that the scarcest of them
allows, and the industry at its head turns out that much less.
-/
namespace Settlement

variable {R : Type} [Scalar R]

/-- How far a stock goes round; what nobody asks for is no bottleneck. -/
def satisfaction (stock demand : R) : R :=
  if demand ≤ 0 then 1 else Scalar.smaller (stock / demand) 1

namespace OrderGroup

/-- How far the scarcest input goes round. -/
def satisfaction (group : OrderGroup R) (stocks demand : Table Good R) : R :=
  match group.inputs with
  | [] => 1
  | (good, _) :: rest =>
    rest.foldl
      (fun least (good, _) =>
        Scalar.smaller least (Settlement.satisfaction stocks[good] demand[good]))
      (Settlement.satisfaction stocks[good] demand[good])

/-- What the group takes of an input. -/
def used (amount scale satisfaction : R) : R := amount * scale * satisfaction

/-- The stocks without what the group takes; none falls below zero. -/
def consume (group : OrderGroup R) (scale satisfaction : R) (stocks : Table Good R) :
    Table Good R :=
  group.inputs.foldl
    (fun stocks (good, amount) =>
      stocks.modify good (fun stock => Scalar.larger 0 (stock - used amount scale satisfaction)))
    stocks

end OrderGroup

namespace Economy

/-- The workforce of an industry as it counts for what the industry makes. -/
def effort (economy : Economy R) (labor : Labor) (exponent : Given R) : Except Fault R := do
  Scalar.power (economy.scale (some labor))
    (← exponent.operand (.notOperand "** or pow()" .real))

/-- Adds what an industry makes. -/
def turnOut (economy : Economy R) (labor : Labor) (output : Output R) (exponent : Given R)
    (satisfaction : R) : Outcome (Economy R) :=
  let yield := satisfaction * output.rate
  let economy :=
    { economy with
      yields := economy.yields.set labor yield
      productivity := economy.productivity.set labor satisfaction }
  .given (economy.effort labor exponent) economy fun effort =>
    .done { economy with stocks := economy.stocks.modify output.good (· + yield * effort) }

/-- Runs one group on the stocks as they were before all groups. -/
def runGroup (outputs : OrderedMap Labor (Output R)) (exponent : Given R)
    (before demand : Table Good R) (group : OrderGroup R) (economy : Economy R) :
    Outcome (Economy R) :=
  if group.inputs.isEmpty then .failed economy (.recipe group.labor .noInputs)
  else
    let satisfaction := group.satisfaction before demand
    let economy :=
      { economy with
        stocks := group.consume (economy.scale group.labor) satisfaction economy.stocks }
    match group.labor with
    | none => .done economy
    | some labor =>
      match outputs.find? labor with
      | none => .failed economy (.noOutput labor)
      | some output => economy.turnOut labor output exponent satisfaction

def produce (economy : Economy R) (catalog : Catalog R) (exponent : Given R)
    (demand : Table Good R) : Outcome (Economy R) :=
  Outcome.each catalog.orders (runGroup catalog.outputs exponent economy.stocks demand) economy

end Economy

end Settlement
