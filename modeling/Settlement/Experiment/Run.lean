import Settlement.Config.Schedule
import Settlement.Experiment.Summary
/-!
Experiments: a world is built from a configuration, simulated and summed up. Experiments may be
compared, swept over the values of one parameter, or repeated under several seeds.
-/
namespace Settlement

structure Experiment where
  config : Config
  world : World Float
  recorder : Option (Recorder Float)
  ticksRun : Given Float
  summary : Summary Float

namespace Experiment

/-- Runs the experiment of a configuration for its history, or for some ticks. -/
def run (draws : Draws) (config : Config) (record : Bool) (ticks : Option (Given Float)) :
    Attempt Experiment := do
  let world ← config.buildWorld draws
  let observers := if record then [Recorder.observe] else []
  let observed ← Attempt.ofOutcome (config.simulate observers ticks ⟨world, .fresh none⟩)
  let recorder := if record then some observed.memory else none
  return {
    config, recorder
    world := observed.world
    ticksRun := ← config.ticksToRun ticks
    summary := .ofWorld observed.world recorder }

/-- Experiments under their labels, and how the others' configurations differ from the first. -/
structure Comparison where
  results : List (Name × Experiment)
  differences : OrderedMap Text (List (Parameter × Document × Document))

/-- Configurations under their labels. Of two under one label the last counts, in the place of the
first and under the label as it was first given. -/
def labelledConfigs (labelled : List (Name × Config)) : OrderedMap Name.Key (Name × Config) :=
  labelled.foldl
    (fun configs (label, config) =>
      let first := ((configs.find? label.key).map Prod.fst).getD label
      configs.insert label.key (first, config))
    OrderedMap.empty

/-- Runs the experiment of each configuration. -/
def compare (draws : Draws) (labelled : List (Name × Config)) (record : Bool)
    (ticks : Option (Given Float)) : Attempt Comparison := do
  let configs := (labelledConfigs labelled).values
  let results ← configs.mapM fun (label, config) => do
    return (label, ← run draws config record ticks)
  let differences :=
    match configs with
    | [] => []
    | (first, base) :: others =>
      others.map fun (label, config) => (first.shown ++ "_vs_" ++ label.shown, base.diff config)
  return ⟨results, OrderedMap.ofList differences⟩

/-- The label of one value of a sweep. -/
def sweepLabel (parameter : Parameter) (value : Document) : Text :=
  parameter.name ++ "=" ++ value.shown

/-- The configuration of one value of a sweep; the experiment is named after its label. -/
def sweepConfig (base : Config) (parameter : Parameter) (value : Document) : Config :=
  (base.set parameter value).set .experimentName (.text ("sweep_" ++ sweepLabel parameter value))

/-- Runs an experiment for each value of a parameter; the values are the parts of a document. -/
def sweep (draws : Draws) (base : Config) (name : Text) (values : Document)
    (ticks : Option (Given Float)) : Attempt (OrderedMap Text Experiment) := do
  match Parameter.ofName? name.string with
  | none => throw (.unknownParameter name)
  | some parameter =>
    let results ← (← values.elements).mapM fun value => do
      let config := sweepConfig base parameter value
      return (sweepLabel parameter value, ← run draws config false ticks)
    return OrderedMap.ofList results

/-- The configuration of a repetition under another seed. -/
def seedConfig (base : Config) (seed : Document) : Config :=
  (base.set .randomSeed seed).set .experimentName
    (.text ((base.get .experimentName).shown ++ "_seed" ++ seed.shown))

/-- Runs the same experiment under several seeds, the parts of a document. -/
def repeatSeeds (draws : Draws) (base : Config) (seeds : Document)
    (ticks : Option (Given Float)) : Attempt (List Experiment) := do
  (← seeds.elements).mapM fun seed => run draws (seedConfig base seed) false ticks

end Experiment

end Settlement
