import Settlement.Document.Reading
import Settlement.Simulation
/-!
Recorders: observers that keep snapshots of site economies, of chosen sites or of all.
-/
namespace Settlement

/-- One site's economy at one moment. -/
structure Snapshot (R : Type) where
  /-- The tick as it was told. -/
  tick : Document
  time : R
  site : Name
  population : R
  values : Table Good (Option R)
  prices : Table Good R
  stocks : Table Good R
  surplus : Table Good R
  marginalSurplus : Table Good R
  shares : Table Labor R
  productivity : Table Labor R

variable {R : Type} [Scalar R]

namespace Snapshot

def capture (tick : Document) (time : R) (site : Name) (economy : Economy R) : Snapshot R where
  tick := tick
  time := time
  site := site
  population := economy.population
  values := economy.values
  prices := economy.prices
  stocks := economy.stocks
  surplus := economy.surplus
  marginalSurplus := economy.marginalSurplus
  shares := economy.shares
  productivity := economy.productivity

def year (snapshot : Snapshot R) : R := snapshot.time / daysPerYear

/-- The people of each industry. -/
def workers (snapshot : Snapshot R) : Table Labor R :=
  snapshot.shares.map (· * snapshot.population)

end Snapshot

structure Recorder (R : Type) where
  /-- The ids of the sites to record; all that a world has if none are chosen. -/
  chosen : Option Document
  /-- The snapshots by the keys of their sites' ids. -/
  history : OrderedMap Name.Key (Array (Snapshot R))

namespace Recorder

/-- Records nothing yet. -/
def fresh (chosen : Option Document) : Recorder R := ⟨chosen, OrderedMap.empty⟩

def add (recorder : Recorder R) (snapshot : Snapshot R) : Recorder R :=
  let before := (recorder.history.find? snapshot.site.key).getD #[]
  { recorder with history := recorder.history.insert snapshot.site.key (before.push snapshot) }

/-- Records one site of a world. -/
def observeSite (tick : Document) (world : World R) (id : Name) (recorder : Recorder R) :
    Outcome (Recorder R) :=
  .given (world.site id) recorder fun site =>
    .done (recorder.add (.capture tick world.clock id site.economy))

/-- Records one site that a document names. -/
def observeNamed (tick : Document) (world : World R) (id : Document) (recorder : Recorder R) :
    Outcome (Recorder R) :=
  .given id.name recorder (observeSite tick world · recorder)

/-- Records the chosen sites one by one, or all sites of the world. -/
def observeAt (tick : Document) (world : World R) (recorder : Recorder R) :
    Outcome (Recorder R) :=
  match recorder.chosen with
  | none => Outcome.each world.siteIds (observeSite tick world) recorder
  | some sites =>
    .given sites.elements recorder fun ids => Outcome.each ids (observeNamed tick world) recorder

def observe : Observer R (Recorder R) := fun index => observeAt (.whole index)

def snapshots (recorder : Recorder R) (site : Name) : Except Fault (Array (Snapshot R)) :=
  match recorder.history.find? site.key with
  | some snapshots => .ok snapshots
  | none => .error (.unrecordedSite site.shown)

def latest (recorder : Recorder R) (site : Name) : Option (Snapshot R) :=
  (recorder.history.find? site.key).bind Array.back?

end Recorder

end Settlement
