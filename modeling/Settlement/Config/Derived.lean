import Settlement.Config.Bounds
import Settlement.Economy.Tick
import Settlement.Recipe.Record
/-!
What a configuration means: the values that are read from its parameters. A parameter that holds
the wrong kind of document is a fault only where it is read.
-/
namespace Settlement

/-- The levels and rates that five resources of nature grow back with. -/
def Replenisher.standard : Replenisher Float :=
  .renewable (OrderedMap.ofList [
    (.wheat, ⟨50.0, 0.1⟩), (.logs, ⟨80.0, 0.1⟩), (.rock, ⟨120.0, 0.1⟩), (.game, ⟨20.0, 0.1⟩),
    (.fish, ⟨10.0, 0.1⟩)])

/-- Every target is a level and a rate under the name of its good. -/
def Replenisher.ofDocument (document : Document) : Except Fault (Replenisher Float) := do
  let targets ← (← document.fields).mapM fun (written, entry) => do
    let good ← Good.ofName written
    let level ← (← entry.atPosition 0).amount
    let rate ← (← entry.atPosition 1).amount
    return (good, (⟨level, rate⟩ : Target Float))
  return .renewable (OrderedMap.ofList targets)

def Replenisher.toDocument : Replenisher Float → Document
  | barren => .object [("kind", .text "NoReplenishment")]
  | renewable targets => .object [
    ("kind", .text "RenewableStockReplenisher"),
    ("targets", .object (targets.entries.map fun (good, target) =>
      (good.name, .list [.real target.level, .real target.rate])))]

namespace Config

/-- What a parameter holds, as it was given. -/
def given (config : Config) (parameter : Parameter) : Given Float := (config.get parameter).given

def catalog (config : Config) : Except Fault (Catalog Float) :=
  match config.get .recipes with
  | .null => .ok Catalog.standard
  | document => Catalog.ofDocument document

def replenisher (config : Config) : Except Fault (Replenisher Float) :=
  match config.get .replenishment with
  | .null => .ok Replenisher.standard
  | document => Replenisher.ofDocument document

/-- How many ticks the history has. -/
def totalTicks (config : Config) : Except Fault Int := do
  let years ← (config.given .historyYears).factor "*" false
  let period ← (config.given .tickPeriod).operand (.notOperand "/" .real)
  Scalar.truncate (← Scalar.quotient (years * daysPerYear) period)

/-- What each good loses per tick: its own rate unless the configuration has another. -/
def decay (config : Config) : Except Fault (Table Good Float) := do
  (← (config.get .decayRates).fields).foldlM
    (fun (rates : Table Good Float) (written, rate) => do
      return rates.set (← Good.ofName written) (← rate.entry))
    (Table.ofFn Good.decayRate)

def stocks (config : Config) : Except Fault (List (Good × Float)) :=
  (config.get .initialStocks).amounts Good.ofName

def labors (config : Config) : Except Fault (List (Labor × Float)) :=
  (config.get .initialLabors).amounts Labor.ofName

def values (config : Config) : Except Fault (List (Good × Float)) :=
  (config.get .initialValues).amounts Good.ofName

def valueRule (config : Config) : ValueRule Float where
  smoothing := config.given .valueSmoothing
  bounds := config.bounds
  ceilings := config.ceilings

def laborRule (config : Config) : LaborRule Float where
  smoothing := config.given .laborSmoothing
  ratioFloor := config.given .laborRatioFloor
  floorDivisor := config.given .laborFloorDivisor

def demography (config : Config) : Demography Float where
  birthRate := config.given .naturalBirthRate
  deathRate := config.given .deathRate
  clamped := (config.get .clampPopulation).holds

def rules (config : Config) : Rules Float where
  values := config.valueRule
  labor := config.laborRule
  exponent := config.given .scaleExponent
  demography := config.demography

end Config

end Settlement
