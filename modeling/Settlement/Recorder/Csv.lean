import Settlement.Recorder.Basic
/-!
The history of a site as comma-separated lines: a heading, then one line for each snapshot.
Lines can be read back.
-/
namespace Settlement

namespace Csv

/-- The mark of an unpriced good. -/
def unpriced : Float := -1.0

def lineEnd : List Char := ['\r', '\n']

/-- A cell that holds a comma, a quote or a line end stands in quotes, its quotes doubled. -/
def cell (text : String) : List Char :=
  let cs := text.toList
  if cs.any fun c => c = ',' || c = '"' || c = '\r' || c = '\n' then
    '"' :: cs.flatMap (fun c => if c = '"' then ['"', '"'] else [c]) ++ ['"']
  else cs

def line : List String → List Char
  | [] => lineEnd
  | first :: rest => cell first ++ rest.flatMap (fun text => ',' :: cell text) ++ lineEnd

def write (rows : List (List String)) : String := String.ofList (rows.flatMap line)

/-- What a reader has of the text so far: whole rows, cells of the row, characters of the cell,
all latest first. -/
structure Progress where
  rows : List (List String)
  cells : List String
  cs : List Char

def Progress.endCell (before : Progress) : Progress :=
  { before with cells := String.ofList before.cs.reverse :: before.cells, cs := [] }

def Progress.endRow (before : Progress) : Progress :=
  let ended := before.endCell
  ⟨ended.cells.reverse :: ended.rows, [], []⟩

def Progress.add (c : Char) (before : Progress) : Progress :=
  { before with cs := c :: before.cs }

/-- Reads on, inside quotes or outside of them. -/
def readOn : (quoted : Bool) → Progress → List Char → List (List String)
  | _, before, [] =>
    (if before.cells.isEmpty && before.cs.isEmpty then before.rows
      else before.endRow.rows).reverse
  | true, before, '"' :: '"' :: rest => readOn true (before.add '"') rest
  | true, before, '"' :: rest => readOn false before rest
  | true, before, c :: rest => readOn true (before.add c) rest
  | false, before, '\r' :: '\n' :: rest => readOn false before.endRow rest
  | false, before, ',' :: rest => readOn false before.endCell rest
  | false, before, '"' :: rest => readOn true before rest
  | false, before, c :: rest => readOn false (before.add c) rest

def read (text : String) : List (List String) := readOn false ⟨[], [], []⟩ text.toList

end Csv

/-- The columns: population, then value, price, stock and marginal surplus of every good, then
workers and productivity of every industry. -/
def csvHeading : List String :=
  let goods (word : String) := Good.all.map fun good => good.label ++ " " ++ word
  let labors (word : String) := Labor.all.map fun labor => labor.label ++ " " ++ word
  "Population" :: goods "Value" ++ goods "Price" ++ goods "Stock" ++ goods "Surplus"
    ++ labors "Labor" ++ labors "Productivity"

def Snapshot.csvRow (snapshot : Snapshot Float) : List Float :=
  snapshot.population :: snapshot.values.toList.map (·.getD Csv.unpriced)
    ++ snapshot.prices.toList ++ snapshot.stocks.toList ++ snapshot.marginalSurplus.toList
    ++ snapshot.workers.toList ++ snapshot.productivity.toList

namespace Recorder

/-- The heading and one row for each of some snapshots. -/
def csvRows (snapshots : List (Snapshot Float)) : List (List String) :=
  csvHeading :: snapshots.map fun snapshot => snapshot.csvRow.map Decimal.shortest

/-- The history to be written: that of a given site, or of the first that was recorded. -/
def csvHistory (recorder : Recorder Float) : Option Name → Except Fault (Array (Snapshot Float))
  | some site => recorder.snapshots site
  | none =>
    match recorder.history.values with
    | snapshots :: _ => .ok snapshots
    | [] => .error .nothingRecorded

/-- The number of snapshots of a site, and their text. -/
def writeCsv (recorder : Recorder Float) (site : Option Name) : Except Fault (Nat × String) := do
  let snapshots ← recorder.csvHistory site
  return (snapshots.size, Csv.write (csvRows snapshots.toList))

end Recorder

end Settlement
