import Settlement.Proofs.Session
/-!
Requests that are served one after the other, whether or not they fail. A request changes what
happens in a session, never what the session is: its id, its name, its configuration and the length
of its history.
-/
namespace Settlement

/-- A session that is the same as another, at some other time. -/
structure Session.Same (session start : Session) : Prop where
  id : session.id = start.id
  name : session.name = start.name
  config : session.config = start.config
  maxTicks : session.maxTicks = start.maxTicks

namespace Session

variable {start session : Session}

theorem Same.self (session : Session) : session.Same session := ⟨rfl, rfl, rfl, rfl⟩

theorem Same.tickOnce (same : session.Same start) (period : Given Float) (interval : Interval) :
    (session.tickOnce period interval).state.Same start := by
  let kept (session : Session) : Prop := session.Same start
  have looked (session : Session) (same : session.Same start) :
      (if interval.isDue session.currentTick then
        (session.recorder.observe session.currentTick session.world).map fun recorder =>
          { session with recorder }
      else .done session).state.Same start := by
    split
    · exact ⟨same.id, same.name, same.config, same.maxTicks⟩
    · exact same
  refine Outcome.state_andThen_keeps kept (Outcome.state_andThen_keeps kept ?_ looked) ?_
  · exact ⟨same.id, same.name, same.config, same.maxTicks⟩
  · exact fun _ same => ⟨same.id, same.name, same.config, same.maxTicks⟩

theorem Same.settled (same : session.Same start) : session.settled.Same start := by
  unfold Session.settled
  split
  · exact ⟨same.id, same.name, same.config, same.maxTicks⟩
  · exact same

theorem Same.withStatus (same : session.Same start) (status : SessionStatus) :
    { session with status }.Same start := ⟨same.id, same.name, same.config, same.maxTicks⟩

theorem Same.step (same : session.Same start) (count : Int) :
    (session.step count).state.Same start := by
  let kept (session : Session) : Prop := session.Same start
  unfold Session.step
  split
  · exact same
  · refine Outcome.state_andThen_keeps kept ?_ fun _ same => same.settled
    refine Outcome.state_given_keeps kept (same.withStatus _) fun interval _ => ?_
    rw [Outcome.state_noteFault, Outcome.steps_eq_each]
    exact Outcome.state_each_keeps kept (fun _ _ _ same => same.tickOnce _ _) (same.withStatus _)

theorem Same.refuse (same : session.Same start) (fault : Fault) :
    (session.refuse fault).state.Same start := by
  let kept (session : Session) : Prop := session.Same start
  unfold Session.refuse
  split
  · exact same
  · refine Outcome.state_given_keeps kept (same.withStatus _) fun _ _ => ?_
    rw [Outcome.state_noteFault]
    exact same.withStatus _

theorem Same.stepBy (same : session.Same start) (count : Document) :
    (session.stepBy count).state.Same start := by
  unfold Session.stepBy
  split
  · exact same.step _
  · exact same.refuse _

theorem Same.runBy (same : session.Same start) (ticks : Document) :
    (session.runBy ticks).state.Same start := by
  unfold Session.runBy
  split
  · exact same.step _
  · exact same.stepBy _

end Session

namespace Sessions

/-- A request, with the draws that come to it. -/
structure Call where
  draws : Draws
  request : Request

/-- The session that a request names. -/
def Request.session? : Request → Option Text
  | .create _ _ | .list => none
  | .get id | .step id _ | .run id _ | .delete id => some id

/-- The session that a request opens, if it is to create one and can. -/
def Call.opens (sessions : Sessions) (call : Call) : Option Session :=
  match call.request with
  | .create config name =>
    let config := config.getD Config.standard
    match (config.buildWorld call.draws).outcome.1, config.totalTicks with
    | .ok world, .ok maxTicks => some (opened sessions.nextId name config world maxTicks)
    | _, _ => none
  | _ => none

/-- The table after a request, whether or not it fails. -/
def serve (sessions : Sessions) (call : Call) : Sessions :=
  (sessions.perform call.draws call.request).state

/-- The table after some requests. -/
def after (calls : List Call) (sessions : Sessions) : Sessions := calls.foldl serve sessions

variable {sessions : Sessions} {call : Call} {id : Text} {session : Session}

theorem after_cons (call : Call) (rest : List Call) (sessions : Sessions) :
    sessions.after (call :: rest) = (sessions.serve call).after rest := rfl

/-- To let a session change is to put what becomes of it in its place. -/
theorem state_change (found : sessions.find id = .ok session) (step : Session → Outcome Session) :
    (sessions.change id step).state = sessions.put (step session).state := by
  rw [change, found]
  rfl

theorem find_eq_error_iff {fault : Fault} :
    sessions.find id = .error fault ↔
      sessions.table.find? id = none ∧ fault = .unknownSession id := by
  unfold find
  cases sessions.table.find? id <;> simp [eq_comm]

/-- A request that names a session which is not there is refused, and changes nothing. -/
theorem perform_unknown {request : Request} (named : request.session? = some id)
    (absent : sessions.table.find? id = none) (draws : Draws) :
    sessions.perform draws request = .failed sessions (.unknownSession id) := by
  have found : sessions.find id = .error (.unknownSession id) :=
    find_eq_error_iff.mpr ⟨absent, rfl⟩
  cases request with
  | create config name => cases named
  | list => cases named
  | get other | step other count | run other ticks | delete other =>
    cases named
    simp only [perform, change, delete, found, Outcome.given_error]

/-- To create a session succeeds just where one is opened. It is put into the table then, and else
the table stays as it is. -/
theorem perform_create (sessions : Sessions) (draws : Draws) (config : Option Config)
    (name : Document) :
    let created := sessions.perform draws (.create config name)
    (Call.opens sessions ⟨draws, .create config name⟩).isSome = created.completes ∧
      created.state.table =
        match Call.opens sessions ⟨draws, .create config name⟩ with
        | some session => (sessions.put session).table
        | none => sessions.table := by
  simp only [perform, create, Call.opens]
  generalize ((config.getD Config.standard).buildWorld draws).outcome = building
  obtain ⟨built, notes⟩ := building
  cases built with
  | error fault => exact ⟨rfl, rfl⟩
  | ok world =>
    cases (config.getD Config.standard).totalTicks with
    | error fault => exact ⟨rfl, rfl⟩
    | ok maxTicks => exact ⟨rfl, rfl⟩

theorem table_create (sessions : Sessions) (draws : Draws) (config : Option Config)
    (name : Document) : (sessions.serve ⟨draws, .create config name⟩).table =
      match Call.opens sessions ⟨draws, .create config name⟩ with
      | some session => (sessions.put session).table
      | none => sessions.table :=
  (perform_create sessions draws config name).2

theorem id_of_opens (opens : call.opens sessions = some session) :
    session.id = sessions.nextId := by
  unfold Call.opens at opens
  split at opens
  · dsimp only at opens
    split at opens
    · cases opens
      rfl
    · cases opens
  · cases opens

end Sessions

end Settlement
