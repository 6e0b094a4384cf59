import Settlement.Recorder.Basic
/-!
What an experiment comes to: the people and stocks of all sites in the end, the most people there
were at a recorded tick, and the goods that some site leaves unpriced.
-/
namespace Settlement

structure Summary (R : Type) where
  finalPopulation : R
  peakPopulation : R
  finalStocks : Table Good R
  unpriced : List Good

variable {R : Type} [Scalar R]

namespace Recorder

/-- Adds a snapshot's people to those of its tick, if that is a name. -/
def addToTick (totals : OrderedMap Name.Key R) (snapshot : Snapshot R) : OrderedMap Name.Key R :=
  match snapshot.tick.key? with
  | some tick => totals.insert tick ((totals.find? tick).getD 0 + snapshot.population)
  | none => totals

/-- All people of the recorded sites, tick by tick. -/
def populations (recorder : Recorder R) : OrderedMap Name.Key R :=
  (recorder.history.values.flatMap Array.toList).foldl addToTick OrderedMap.empty

/-- The most people at a recorded tick, and zero if there is none. -/
def peak (recorder : Recorder R) : R :=
  match recorder.populations.values with
  | [] => 0
  | first :: rest => rest.foldl Scalar.larger first

end Recorder

namespace World

/-- The stocks of all sites together. -/
def totalStocks (world : World R) : Table Good R :=
  (world.sites.values.map fun site => site.economy.stocks).foldl (Table.zipWith (· + ·))
    (Table.const 0)

/-- The goods that are unpriced at some site, by name. -/
def unpriced (world : World R) : List Good :=
  (Good.all.filter fun good =>
    world.sites.values.any fun site => site.economy.values[good].isNone).mergeSort
      fun a b => decide (a.name ≤ b.name)

end World

/-- The summary of a world as an experiment left it; without a recorder only the final population
counts for the peak. -/
def Summary.ofWorld (world : World R) (recorder : Option (Recorder R)) : Summary R where
  finalPopulation := world.population
  peakPopulation := Scalar.larger (recorder.elim 0 Recorder.peak) world.population
  finalStocks := world.totalStocks
  unpriced := world.unpriced

end Settlement
