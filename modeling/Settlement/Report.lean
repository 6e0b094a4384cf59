import Settlement.Config.Preset
import Settlement.Config.Schedule
import Settlement.Recorder.Csv
/-!
The report of a settlement's history: what was run, how the first site stands in the end, and its
recorded history as comma-separated lines.
-/
namespace Settlement

structure Report where
  /-- The lines that are printed. -/
  lines : List Text
  /-- The recorded history. -/
  csv : String

namespace Report

/-- Text in a column of some width, at the left or at the right. -/
def left (width : Nat) (text : String) : String :=
  text ++ String.ofList (List.replicate (width - text.length) ' ')

def right (width : Nat) (text : String) : String :=
  String.ofList (List.replicate (width - text.length) ' ') ++ text

def figure (width places : Nat) (value : Float) : String := right width (Decimal.fixed places value)

/-- A number of days or years without decimal places. -/
def rounded (document : Document) : Except Fault String := do
  return Decimal.fixed 0 (← document.given.operand .notFigure)

def opening (config : Config) : Except Fault (List Text) := do
  let years ← rounded (config.get .historyYears)
  let days ← rounded (config.get .tickPeriod)
  return [
    "=== Settlement economy: " ++ (config.get .experimentName).shown ++ " ===",
    "Sites: " ++ (config.get .numSites).shown,
    "History: " ++ years ++ " years, " ++ days ++ "-day ticks",
    ""]

def goodLine (economy : Economy Float) (good : Good) : String :=
  let value :=
    match economy.values[good] with
    | some value => figure 8 3 value
    | none => right 8 "-"
  left 10 good.label ++ " " ++ figure 10 2 economy.stocks[good] ++ " " ++ value ++ " "
    ++ figure 8 3 economy.prices[good]

def laborLine (economy : Economy Float) (labor : Labor) : String :=
  left 10 labor.label ++ " " ++ figure 10 2 (economy.workers labor) ++ " "
    ++ figure 8 3 economy.productivity[labor]

def closing (rows : Nat) (clock : Float) (economy : Economy Float) : List String :=
  ["Wrote " ++ (Number.whole rows).shown ++ " snapshots to economy.csv",
    "",
    "=== Final State (Year " ++ Decimal.fixed 0 (clock / daysPerYear) ++ ") ===",
    "Population: " ++ Decimal.fixed 1 economy.population,
    "",
    left 10 "Good" ++ " " ++ right 10 "Stock" ++ " " ++ right 8 "Value" ++ " " ++ right 8 "Price"]
  ++ Good.all.map (goodLine economy)
  ++ ["", left 10 "Labor" ++ " " ++ right 10 "Workers" ++ " " ++ right 8 "Prod"]
  ++ Labor.all.map (laborLine economy)

/-- Runs the history of a configuration and reports on its first site. -/
def make (draws : Draws) (config : Config) : Attempt Report := do
  let opening ← opening config
  let world ← config.buildWorld draws
  match world.siteIds with
  | [] => throw .beyondList
  | first :: _ =>
    let observed ← Attempt.ofOutcome
      (config.simulate [Recorder.observe] none ⟨world, .fresh (some (.list [first.given]))⟩)
    let (rows, csv) ← observed.memory.writeCsv none
    let site ← observed.world.site first
    return ⟨opening ++ (closing rows observed.world.clock site.economy).map .ofString, csv⟩

end Report

end Settlement
