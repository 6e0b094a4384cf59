import Settlement.Config.World
import Settlement.Simulation
/-!
The schedule that a configuration sets for a simulation.
-/
namespace Settlement

namespace Config

/-- The days of a tick. -/
def period (config : Config) : Given Float := config.given .tickPeriod

def interval (config : Config) : Except Fault Interval :=
  Interval.ofDocument (config.get .snapshotInterval)

/-- The ticks to run: those asked for, or the whole history. -/
def ticksToRun (config : Config) : Option (Given Float) → Except Fault (Given Float)
  | some ticks => .ok ticks
  | none => Given.whole <$> config.totalTicks

/-- How many ticks to run, and how often to look. -/
structure Schedule where
  ticks : Given Float
  interval : Interval

def schedule (config : Config) (ticks : Option (Given Float)) : Except Fault Schedule := do
  let ticks ← config.ticksToRun ticks
  return ⟨ticks, ← config.interval⟩

/-- Simulates a world by the schedule. -/
def simulate {μ : Type} (config : Config) (observers : List (Observer Float μ))
    (ticks : Option (Given Float)) (observed : Observed Float μ) : Outcome (Observed Float μ) :=
  .given (config.schedule ticks) observed fun schedule =>
    observed.simulate config.period schedule.interval observers schedule.ticks

end Config

end Settlement
