import Settlement.Config.Schedule
import Settlement.Recorder.Basic
/-!
Sessions: worlds that are stepped on request. A session is stepped at most to the end of its
configured history, and records its sites on the way.
-/
namespace Settlement

inductive SessionStatus where
  | created | running | completed
  deriving DecidableEq, Repr

def SessionStatus.name : SessionStatus → String
  | created => "created"
  | running => "running"
  | completed => "completed"

structure Session where
  id : Text
  name : Document
  config : Config
  world : World Float
  recorder : Recorder Float
  status : SessionStatus
  /-- The ticks that were completed. -/
  currentTick : Int
  maxTicks : Int

namespace Session

/-- One tick, and a look at the world if one is due. -/
def tickOnce (period : Given Float) (interval : Interval) (session : Session) : Outcome Session :=
  let ticked := (session.world.tick period).map fun world => { session with world }
  let observed := ticked.andThen fun session =>
    if interval.isDue session.currentTick then
      (session.recorder.observe session.currentTick session.world).map fun recorder =>
        { session with recorder }
    else .done session
  observed.andThen fun session => .done { session with currentTick := session.currentTick + 1 }

/-- The ticks that are left. -/
def remaining (session : Session) : Int := session.maxTicks - session.currentTick

/-- A session that has reached its end is completed. -/
def settled (session : Session) : Session :=
  if session.maxTicks ≤ session.currentTick then { session with status := .completed }
  else session

/-- Up to a number of ticks, as many as are left. -/
def advance (count : Int) (session : Session) : Outcome Session :=
  .given session.config.interval session fun interval =>
    (Outcome.steps (min count session.remaining).toNat
      (fun _ => tickOnce session.config.period interval) session).noteFault
        (.sessionFailed session.id)

/-- Steps a session; a completed one stays as it is. -/
def step (count : Int) (session : Session) : Outcome Session :=
  if session.status = .completed then .done session
  else
    (advance count { session with status := .running }).andThen fun session =>
      .done session.settled

/-- Steps a session by some ticks, or by all that are left. -/
def run (ticks : Option Int) (session : Session) : Outcome Session :=
  session.step (ticks.getD session.remaining)

/-- What becomes of a session that is asked for a count which is none. -/
def refuse (fault : Fault) (session : Session) : Outcome Session :=
  if session.status = .completed then .done session
  else
    let started := { session with status := .running }
    .given started.config.interval started fun _ =>
      (Outcome.failed started fault).noteFault (.sessionFailed session.id)

/-- Steps a session by a count that a document gives. -/
def stepBy (count : Document) (session : Session) : Outcome Session :=
  match count.given.count with
  | .ok count => session.step count
  | .error fault => session.refuse fault

/-- Steps a session by a count, or by all ticks that are left where there is none. -/
def runBy : Document → Session → Outcome Session
  | .null, session => session.run none
  | ticks, session => session.stepBy ticks

def summary (session : Session) : List (Text × Document) := [
  ("id", .text session.id),
  ("name", session.name),
  ("status", .text session.status.name),
  ("current_tick", .whole session.currentTick),
  ("max_ticks", .whole session.maxTicks),
  ("time", .real session.world.clock),
  ("site_count", .whole session.world.sites.size),
  ("total_population", .real session.world.population)]

end Session

end Settlement
