import Settlement.Attempt
import Settlement.Config.Derived
import Settlement.Config.Seed
import Settlement.World.Seeding
/-!
Building a world from a configuration. Everything that the world needs is read and checked in a
fixed order before its sites are seeded.
-/
namespace Settlement

namespace Config

/-- A tick has to take time. -/
def checkPeriod (config : Config) : Except Fault Unit :=
  let period := config.get .tickPeriod
  match period.number? with
  | some (.whole value) => if value ≤ 0 then .error (.periodNotPositive period) else .ok ()
  | some (.real value) => if value ≤ 0.0 then .error (.periodNotPositive period) else .ok ()
  | none => .error (.notOrdered "<=" period.kind .whole)

/-- The spread of populations, if it is positive. -/
def spread (config : Config) : Except Fault (Option Float) :=
  let spread := config.get .populationJitter
  match spread.number? with
  | some value => if value.isPositive then some <$> value.toFloat else .ok none
  | none => .error (.notOrdered ">" spread.kind .whole)

/-- The population that sites start from; one that is to be spread has to be a number. -/
def population (config : Config) (isSpread : Bool) : Except Fault Float :=
  let population := config.get .initialPopulation
  if isSpread then population.given.factor "*=" false else population.amount

/-- The shares that industries start with. -/
def defaultShares (config : Config) : Except Fault (Table Labor Float) :=
  (config.get .defaultLaborShare).table Labor

/-- How sites start, given what was already read. -/
def seeding (config : Config) (stocks values : List (Good × Float))
    (labors : List (Labor × Float)) : Except Fault (Seeding Float) := do
  let spread ← config.spread
  let population ← config.population spread.isSome
  let shares ← config.defaultShares
  let replenisher ← config.replenisher
  return {
    population, spread, replenisher
    stocks := (Table.const 0.0).setAll stocks
    values := (Table.const none).setAll (values.map fun (good, value) => (good, some value))
    shares := shares.setAll labors }

/-- A world with freshly seeded sites, on the configuration's own catalog or on a given one. -/
def buildWorld (config : Config) (draws : Draws) (given : Option (Catalog Float) := none) :
    Attempt (World Float) := do
  config.checkPeriod
  let catalog ←
    match given with
    | some catalog => pure catalog
    | none => config.catalog
  catalog.check
  Attempt.note (.catalogValid catalog.orders.length catalog.outputs.size)
  let decay ← config.decay
  let seed := config.get .randomSeed
  Seed.check seed
  let stocks ← config.stocks
  let labors ← config.labors
  let values ← config.values
  let count := (← (config.given .numSites).count).toNat
  let sites ←
    if count = 0 then pure OrderedMap.empty
    else do
      let seeding ← config.seeding stocks values labors
      pure (seeding.sites count (draws seed))
  Attempt.note (.built (config.get .experimentName) count)
  return { rules := config.rules, catalog, decay, clock := 0.0, sites }

end Config

end Settlement
