import Settlement.Proofs.Recorder.Csv
import Settlement.Proofs.Table
/-!
What a line of a history says. Heading and lines go through the same columns in the same order, so
every cell is the quantity that the label above it names, and the figures of a snapshot can be read
off its line by the labels alone, as long as no good has the value that marks the unpriced ones.
-/
namespace Settlement

/-- What a column of a history is about. -/
inductive Column where
  | population
  | value (good : Good)
  | price (good : Good)
  | stock (good : Good)
  | surplus (good : Good)
  | workers (labor : Labor)
  | productivity (labor : Labor)

namespace Column

def label : Column → String
  | population => "Population"
  | value good => good.label ++ " Value"
  | price good => good.label ++ " Price"
  | stock good => good.label ++ " Stock"
  | surplus good => good.label ++ " Surplus"
  | workers labor => labor.label ++ " Labor"
  | productivity labor => labor.label ++ " Productivity"

/-- The columns from left to right. -/
def all : List Column :=
  population :: Good.all.map value ++ Good.all.map price ++ Good.all.map stock
    ++ Good.all.map surplus ++ Labor.all.map workers ++ Labor.all.map productivity

theorem mem_all (column : Column) : column ∈ all := by
  have goods (good : Good) : good ∈ Good.all := Enumeration.mem_all good
  have labors (labor : Labor) : labor ∈ Labor.all := Enumeration.mem_all labor
  cases column <;> simp [all, goods, labors]

theorem length_all : all.length = 1 + 4 * Good.all.length + 2 * Labor.all.length := by
  simp only [all, List.length_append, List.length_cons, List.length_map]
  omega

theorem csvHeading_eq : csvHeading = all.map label := by decide +kernel

theorem nodup_labels : (all.map label).Nodup := by decide +kernel

variable {α : Type}

/-- The cell of a row below the label of a column. -/
def cell? (column : Column) (row : List α) : Option α :=
  (csvHeading.zip row).lookup column.label

/-- Labels tell columns apart. -/
theorem cell?_map (column : Column) (f : Column → α) : column.cell? (all.map f) = some (f column) := by
  have general : ∀ {columns : List Column}, (columns.map label).Nodup → column ∈ columns →
      (columns.map fun other => (other.label, f other)).lookup column.label = some (f column) := by
    intro columns distinct member
    induction columns with
    | nil => cases member
    | cons first others ih =>
      rw [List.map_cons, List.nodup_cons] at distinct
      rw [List.map_cons]
      rcases List.mem_cons.mp member with rfl | later
      · exact List.lookup_cons_self
      · have apart : column.label ≠ first.label := fun same =>
          distinct.1 (same ▸ List.mem_map_of_mem later)
        rw [List.lookup_cons, beq_eq_false_iff_ne.mpr apart]
        exact ih distinct.2 later
  rw [cell?, csvHeading_eq, List.zip_map']
  exact general nodup_labels column.mem_all

end Column

/-- The quantity that a column is about. The mark stands for the value of an unpriced good. -/
def Snapshot.quantity (snapshot : Snapshot Float) : Column → Float
  | .population => snapshot.population
  | .value good => snapshot.values[good].getD Csv.unpriced
  | .price good => snapshot.prices[good]
  | .stock good => snapshot.stocks[good]
  | .surplus good => snapshot.marginalSurplus[good]
  | .workers labor => snapshot.shares[labor] * snapshot.population
  | .productivity labor => snapshot.productivity[labor]

theorem Snapshot.csvRow_eq (snapshot : Snapshot Float) :
    snapshot.csvRow = Column.all.map snapshot.quantity := by
  simp only [csvRow, Table.toList_eq, Column.all, List.map_append, List.map_cons, List.map_map,
    workers, Table.getElem_map]
  rfl

/-- The figures that a history is written with. -/
structure Figures where
  population : Float
  values : Table Good (Option Float)
  prices : Table Good Float
  stocks : Table Good Float
  marginalSurplus : Table Good Float
  workers : Table Labor Float
  productivity : Table Labor Float

namespace Figures

def ofSnapshot (snapshot : Snapshot Float) : Figures where
  population := snapshot.population
  values := snapshot.values
  prices := snapshot.prices
  stocks := snapshot.stocks
  marginalSurplus := snapshot.marginalSurplus
  workers := snapshot.workers
  productivity := snapshot.productivity

/-- The value that a cell of the first block tells. -/
def worth (cell : Float) : Option Float := if cell == Csv.unpriced then none else some cell

/-- Reads figures off a row of numbers, by the labels of their columns. -/
def ofNumbers (numbers : List Float) : Figures :=
  let figure (column : Column) : Float := (column.cell? numbers).getD 0
  { population := figure .population
    values := Table.ofFn fun good => worth (figure (.value good))
    prices := Table.ofFn fun good => figure (.price good)
    stocks := Table.ofFn fun good => figure (.stock good)
    marginalSurplus := Table.ofFn fun good => figure (.surplus good)
    workers := Table.ofFn fun labor => figure (.workers labor)
    productivity := Table.ofFn fun labor => figure (.productivity labor) }

def ofCells? (row : List String) : Option Figures := (row.mapM Decimal.read?).map ofNumbers

/-- Reads a history back. -/
def ofCsv? (text : String) : Option (List Figures) :=
  match Csv.read text with
  | heading :: rows => if heading = csvHeading then rows.mapM ofCells? else none
  | [] => none

end Figures

/-- No good is worth what marks an unpriced one. -/
def Snapshot.Unmarked (snapshot : Snapshot Float) : Prop :=
  ∀ (good : Good) value, snapshot.values[good] = some value → (value == Csv.unpriced) = false

variable {snapshot : Snapshot Float}

theorem Snapshot.Unmarked.worth_eq (unmarked : snapshot.Unmarked) (good : Good) :
    Figures.worth (snapshot.values[good].getD Csv.unpriced) = snapshot.values[good] := by
  cases priced : snapshot.values[good] with
  | none => decide +kernel
  | some value => rw [Option.getD_some, Figures.worth, unmarked good value priced]; rfl

theorem Figures.ofNumbers_csvRow (unmarked : snapshot.Unmarked) :
    ofNumbers snapshot.csvRow = ofSnapshot snapshot := by
  have figure (column : Column) : (column.cell? snapshot.csvRow).getD 0 =
      snapshot.quantity column := by
    rw [snapshot.csvRow_eq, Column.cell?_map, Option.getD_some]
  have values : (Table.ofFn fun good => worth (snapshot.quantity (.value good))) =
      snapshot.values := Table.ext fun good => by
    rw [Table.getElem_ofFn]
    exact unmarked.worth_eq good
  have workers : (Table.ofFn fun labor => snapshot.quantity (.workers labor)) =
      snapshot.workers := Table.ext fun labor => by
    rw [Table.getElem_ofFn, Snapshot.workers, Table.getElem_map]
    rfl
  have copy {ι : Type} [Enumeration ι] (table : Table ι Float) :
      (Table.ofFn fun i => table[i]) = table := Table.ext fun i => Table.getElem_ofFn _ i
  simp only [ofNumbers, figure, values, workers]
  simp only [Snapshot.quantity, copy, ofSnapshot]

end Settlement
