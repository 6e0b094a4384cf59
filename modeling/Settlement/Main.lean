import Settlement.Report
/-!
The command line: reports on the history of a preset, by default the first, and writes what was
recorded to a file. Populations are not spread.
-/
open Settlement

def main (arguments : List String) : IO UInt32 := do
  let name := arguments.head?.getD Preset.baseline.name
  let (report, _) := (do
    let preset ← Preset.ofName name
    Report.make Draws.none preset.config : Attempt Report).outcome
  match report with
  | .ok report =>
    IO.FS.writeFile "economy.csv" report.csv
    report.lines.forM fun line => IO.println line.string
    return 0
  | .error fault =>
    IO.eprintln fault.message.string
    return 1
