import Settlement.Config.Preset
import Settlement.Recorder.Csv
import Settlement.Recorder.Record
import Settlement.Service.Call
import Settlement.Session.Table
import Settlement.World.Record
/-!
The service: calls on the table of sessions and how they end. A call that is refused changes
nothing.
-/
namespace Settlement.Service

/-- How a call ends. -/
inductive Reply where
  | document (body : Document)
  | csv (text : String)
  /-- Refused with a status and the reason. -/
  | refused (status : Nat) (detail : Text)
  /-- A fault that nothing caught. -/
  | failed (fault : Fault)

def sessionReply (session : Session) : Reply :=
  .document (.object (session.summary ++ [(.ofString "config", session.config.toDocument)]))

def listReply (sessions : Sessions) : Reply :=
  .document (.list (sessions.table.values.map fun session => .object session.summary))

/-- The configuration that a session is to be opened on: a preset, a given one, or neither. -/
def configOf (opening : Opening) : Except Fault (Option Config) :=
  match opening.preset with
  | some name =>
    if name.isEmpty then ofFields opening.config else do return some (← Preset.ofName name).config
  | none => ofFields opening.config
where
  ofFields : Option (List (Text × Document)) → Except Fault (Option Config)
    | none | some [] => .ok none
    | some fields => some <$> Config.ofFields fields

/-- How a missing name is shown when it is the reason of a refusal. -/
def missingDetail : Fault → Text
  | .missingPosition position => (Fault.missingPosition position).message
  | fault => fault.message.quoted

/-- The reply to a configuration that cannot be read. -/
def configRefusal (fault : Fault) : Reply :=
  match fault.category with
  | .missing => .refused 404 fault.message
  | .type => .refused 422 ("Invalid config: " ++ fault.message)
  | _ => .failed fault

/-- The reply to a session that cannot be opened. -/
def openingRefusal (fault : Fault) : Reply :=
  match fault.category with
  | .recipe => .refused 422 fault.message
  | .missing => .refused 422 (missingDetail fault)
  | .value | .type => .refused 422 ("Invalid config: " ++ fault.message)
  | _ => .failed fault

/-- A reply, and the table that the call leaves. -/
structure Served where
  reply : Reply
  sessions : Sessions

def create (draws : Draws) (opening : Opening) (sessions : Sessions) : Served :=
  match configOf opening with
  | .error fault => ⟨configRefusal fault, sessions⟩
  | .ok config =>
    let name := opening.name.elim .null .text
    let created := sessions.create draws (config.getD Config.standard) name
    match created.fault with
    | some fault => ⟨openingRefusal fault, created.state⟩
    | none =>
      match created.state.find sessions.nextId with
      | .ok session => ⟨sessionReply session, created.state⟩
      | .error fault => ⟨.failed fault, created.state⟩

def notFound (fault : Fault) : Reply := .refused 404 fault.message

/-- The reply about a session, if there is one of that id. -/
def withSession (sessions : Sessions) (id : Text) (reply : Session → Reply) : Reply :=
  match sessions.find id with
  | .ok session => reply session
  | .error fault => notFound fault

/-- The reply about a site of a session. -/
def withSite (sessions : Sessions) (id place : Text) (reply : Session → Site Float → Reply) :
    Reply :=
  withSession sessions id fun session =>
    match session.world.site (.ofText place) with
    | .ok site => reply session site
    | .error fault => notFound fault

/-- Lets a session change, and replies with what became of it. -/
def change (sessions : Sessions) (id : Text) (step : Session → Outcome Session) : Served :=
  match sessions.find id with
  | .error fault => ⟨notFound fault, sessions⟩
  | .ok _ =>
    let changed := sessions.change id step
    ⟨match changed.fault with
      | some fault => .failed fault
      | none => withSession changed.state id sessionReply,
      changed.state⟩

def delete (sessions : Sessions) (id : Text) : Served :=
  let deleted := sessions.delete id
  ⟨match deleted.fault with
    | some fault => notFound fault
    | none => .document (.object [("deleted", .boolean true)]),
    deleted.state⟩

def historyReply (session : Session) (site : Site Float) : Reply :=
  let snapshots := ((session.recorder.history.find? site.id.key).getD #[]).toList
  .document (.object [
    ("site_id", site.id.given),
    ("snapshots", .list (snapshots.map Snapshot.toDocument))])

def csvReply (session : Session) (site : Site Float) : Reply :=
  match session.recorder.writeCsv (some site.id) with
  | .ok (_, text) => .csv text
  | .error _ => .refused 404 ("No history for site '" ++ site.id.shown ++ "'")

def sitesReply (session : Session) : Reply :=
  .document (.list (session.world.sites.values.map (·.summary session.world.catalog)))

def serve (draws : Draws) (call : Call) (sessions : Sessions) : Served :=
  let told (reply : Reply) : Served := ⟨reply, sessions⟩
  match call with
  | .create opening => create draws opening sessions
  | .list => told (listReply sessions)
  | .get id => told (withSession sessions id sessionReply)
  | .delete id => delete sessions id
  | .step id count => change sessions id (Session.step count)
  | .run id ticks => change sessions id (Session.run ticks)
  | .sites id => told (withSession sessions id sitesReply)
  | .site id place => told (withSite sessions id place fun _ site => .document site.detail)
  | .history id place => told (withSite sessions id place historyReply)
  | .csv id place => told (withSite sessions id place csvReply)
  | .catalog id => told (withSession sessions id fun session =>
      .document session.world.catalog.toDocument)
  | .health => told (.document (.object [("status", .text "ok")]))

end Settlement.Service
