import Settlement.Config.World
import Settlement.Session.Basic
import Settlement.Text.Quoted
/-!
The table of sessions, in order of creation, and the requests that it serves. A request that
fails leaves the table as it is, but for the ticks that its session completed.
-/
namespace Settlement

structure Sessions where
  table : OrderedMap Text Session
  /-- How many ids were given out. -/
  issued : Nat
  /-- The ids to give out, by their numbers. -/
  ids : Nat → Text

namespace Sessions

/-- The id of a number: at least eight hexadecimal digits. -/
def idOf (number : Nat) : Text := String.ofList (Text.hex 8 number)

/-- No sessions yet; ids are to be given out in the order of their numbers. -/
def empty : Sessions := ⟨OrderedMap.empty, 0, idOf⟩

def nextId (sessions : Sessions) : Text := sessions.ids sessions.issued

def find (sessions : Sessions) (id : Text) : Except Fault Session :=
  match sessions.table.find? id with
  | some session => .ok session
  | none => .error (.unknownSession id)

def put (sessions : Sessions) (session : Session) : Sessions :=
  { sessions with table := sessions.table.insert session.id session }

/-- A session that has not been stepped; one without a name is named after its experiment. -/
def opened (id : Text) (name : Document) (config : Config) (world : World Float)
    (maxTicks : Int) : Session where
  id := id
  name := if name.holds then name else config.get .experimentName
  config := config
  world := world
  recorder := .fresh none
  status := .created
  currentTick := 0
  maxTicks := maxTicks

/-- Opens a session on a configuration. An id is given out as soon as the world is built. -/
def create (draws : Draws) (config : Config) (name : Document) (sessions : Sessions) :
    Outcome Sessions :=
  let (built, notes) := (config.buildWorld draws).outcome
  let noted (outcome : Outcome Sessions) : Outcome Sessions :=
    { outcome with notes := notes ++ outcome.notes }
  match built with
  | .error fault => noted (.failed sessions fault)
  | .ok world =>
    let counted := { sessions with issued := sessions.issued + 1 }
    match config.totalTicks with
    | .error fault => noted (.failed counted fault)
    | .ok maxTicks =>
      let session := opened sessions.nextId name config world maxTicks
      noted (.noted (counted.put session) [.sessionCreated session.id session.name])

def delete (id : Text) (sessions : Sessions) : Outcome Sessions :=
  .given (sessions.find id) sessions fun _ =>
    .done { sessions with table := sessions.table.erase id }

/-- Lets one session change. -/
def change (id : Text) (step : Session → Outcome Session) (sessions : Sessions) :
    Outcome Sessions :=
  .given (sessions.find id) sessions fun session => (step session).map sessions.put

inductive Request where
  | create (config : Option Config) (name : Document)
  | get (id : Text)
  | list
  | step (id : Text) (count : Document)
  | run (id : Text) (ticks : Document)
  | delete (id : Text)

def perform (draws : Draws) : Request → Sessions → Outcome Sessions
  | .create config name, sessions => sessions.create draws (config.getD Config.standard) name
  | .get id, sessions => .given (sessions.find id) sessions fun _ => .done sessions
  | .list, sessions => .done sessions
  | .step id count, sessions => sessions.change id (Session.stepBy count)
  | .run id ticks, sessions => sessions.change id (Session.runBy ticks)
  | .delete id, sessions => sessions.delete id

end Sessions

end Settlement
