import Settlement.Config.Basic
/-!
Configurations that come with the program, each for another regime of the economy.
-/
namespace Settlement

inductive Preset where
  | baseline | singleFarm | timberScarcity | manySites | famine
  deriving DecidableEq, Repr

namespace Preset

def all : List Preset := [baseline, singleFarm, timberScarcity, manySites, famine]

def name : Preset → String
  | baseline => "baseline"
  | singleFarm => "single_farm"
  | timberScarcity => "timber_scarcity"
  | manySites => "many_sites"
  | famine => "famine"

private def target (level rate : Float) : Document := .list [.real level, .real rate]

/-- One farming industry that burns wood to grow food. -/
private def farmRecipes : Document := .object [
  ("orders", .list [.object [
    ("labor", .text "farmer"), ("inputs", .object [("wood", .real 0.1)])]]),
  ("productivity", .object [
    ("farmer", .object [("output", .text "food"), ("rate", .real 1.0)])])]

def settings : Preset → List (Parameter × Document)
  | baseline => []
  | singleFarm => [
    (.initialPopulation, .real 100.0),
    (.initialStocks, .object [("food", .real 50.0), ("wood", .real 50.0)]),
    (.initialLabors, .object [("farmer", .real 1.0)]),
    (.initialValues, .object []),
    (.defaultLaborShare, .real 0.0),
    (.replenishment, .object [("wood", target 50.0 0.1)]),
    (.recipes, farmRecipes)]
  | timberScarcity => [
    (.replenishment, .object [
      ("wheat", target 50.0 0.1),
      ("logs", target 20.0 0.02),
      ("rock", target 120.0 0.1),
      ("game", target 20.0 0.1),
      ("fish", target 10.0 0.1)])]
  | manySites => [
    (.numSites, .whole 8),
    (.populationJitter, .real 0.3),
    (.randomSeed, .whole 7)]
  | famine => [
    (.decayRates, .object [("food", .real 0.6), ("meat", .real 0.5)]),
    (.deathRate, .real 0.04),
    (.naturalBirthRate, .real 0.03)]

/-- An experiment of a preset goes by the preset's name. -/
def config (preset : Preset) : Config :=
  Config.withSettings ((.experimentName, .text preset.name) :: preset.settings)

def names : List String := all.map name

def ofName (written : Text) : Except Fault Preset :=
  match all.find? (·.name = written.string) with
  | some preset => .ok preset
  | none => .error (.unknownPreset written names)

end Preset

end Settlement
