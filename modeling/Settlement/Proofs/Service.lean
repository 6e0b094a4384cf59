import Settlement.Proofs.Config.World
import Settlement.Proofs.Session.Requests
import Settlement.Proofs.Table
import Settlement.Service.Reply
/-!
How calls about sessions that are not there end, and how calls to open a session do.
-/
namespace Settlement.Service

/-- The session that a call is about. -/
def Call.session? : Call → Option Text
  | .get id | .delete id | .step id _ | .run id _ | .sites id | .site id _ | .history id _
  | .csv id _ | .catalog id => some id
  | .create _ | .list | .health => none

variable {sessions : Sessions} {id : Text}

theorem withSession_unknown (absent : sessions.table.find? id = none) (reply : Session → Reply) :
    withSession sessions id reply = .refused 404 (Fault.unknownSession id).message := by
  rw [withSession, Sessions.find_eq_error_iff.mpr ⟨absent, rfl⟩]
  rfl

theorem change_unknown (absent : sessions.table.find? id = none)
    (step : Session → Outcome Session) :
    change sessions id step = ⟨.refused 404 (Fault.unknownSession id).message, sessions⟩ := by
  rw [change, Sessions.find_eq_error_iff.mpr ⟨absent, rfl⟩]
  rfl

theorem delete_unknown (absent : sessions.table.find? id = none) :
    delete sessions id = ⟨.refused 404 (Fault.unknownSession id).message, sessions⟩ := by
  rw [delete, Sessions.delete, Sessions.find_eq_error_iff.mpr ⟨absent, rfl⟩]
  rfl

/-- A call about a session that is not there is refused, and changes nothing. -/
theorem serve_unknown (draws : Draws) {call : Call} (named : call.session? = some id)
    (absent : sessions.table.find? id = none) :
    serve draws call sessions = ⟨.refused 404 (Fault.unknownSession id).message, sessions⟩ := by
  have told (reply : Session → Reply) := withSession_unknown absent reply
  cases call with
  | create | list | health => cases named
  | step other count =>
    cases named
    exact change_unknown absent _
  | run other ticks =>
    cases named
    exact change_unknown absent _
  | delete other =>
    cases named
    exact delete_unknown absent
  | get other | sites other | site other place | history other place | csv other place
  | catalog other =>
    cases named
    simp only [serve, withSite, told]

/-! To open a session. -/

/-- The faults that nothing catches where a session is to be opened. -/
def Escapes (fault : Fault) : Prop :=
  fault.category ∈ [.member, .position, .zeroDivision, .overflow]

/-- The faults that are told of where a configuration is read. -/
def IsConfigFault (fault : Fault) : Prop := fault.category = .missing ∨ fault.category = .type

/-- To read a configuration fails at a preset or a parameter that is not known. -/
theorem reads_configOf (opening : Opening) :
    Reads (fun _ => True) IsConfigFault (configOf opening) := by
  have named (config : Config) (field : Text × Document) :
      Reads (fun _ => True) IsConfigFault (config.setNamed field) := by
    unfold Config.setNamed
    split
    · exact reads_ok
    · refine .error (.inr ?_)
      split <;> rfl
  have fields : Reads (fun _ => True) IsConfigFault (configOf.ofFields opening.config) := by
    unfold configOf.ofFields
    split
    · exact reads_ok
    · exact reads_ok
    · exact (reads_foldlM named _).map fun _ _ => trivial
  have preset (name : Text) : Reads (fun _ => True) IsConfigFault (Preset.ofName name) := by
    unfold Preset.ofName
    split
    · exact reads_ok
    · exact .error (.inl rfl)
  unfold configOf
  split
  · split
    · exact fields
    · exact (preset _).bind fun _ _ => reads_ok
  · exact fields

/-- A refusal for a name that is missing, or for a configuration that does not fit. -/
def Reply.Refuses (reply : Reply) : Prop :=
  ∃ detail, reply = .refused 404 detail ∨ reply = .refused 422 detail

theorem refuses_configRefusal {fault : Fault} (caught : IsConfigFault fault) :
    (configRefusal fault).Refuses := by
  unfold configRefusal
  rcases caught with missing | type
  · rw [missing]
    exact ⟨_, .inl rfl⟩
  · rw [type]
    exact ⟨_, .inr rfl⟩

theorem openingRefusal_of_isOfReading {fault : Fault} (reads : fault.isOfReading = true) :
    (openingRefusal fault).Refuses ∨ openingRefusal fault = .failed fault ∧ Escapes fault := by
  unfold Fault.isOfReading at reads
  unfold openingRefusal Escapes
  cases category : fault.category with
  | recipe | missing | value | type => exact .inl ⟨_, .inr rfl⟩
  | member | position | zeroDivision | overflow => exact .inr ⟨rfl, by decide⟩
  | comparison | malformed =>
    rw [category] at reads
    cases reads

/-- A session that cannot be opened fails as the reading of its configuration does, and is not
there. -/
theorem create_stopped {draws : Draws} {config : Config} {name : Document} {fault : Fault}
    (stopped : (sessions.create draws config name).fault = some fault) :
    (sessions.create draws config name).state.table = sessions.table ∧
      fault.isOfReading = true := by
  have building := (config.yields_buildWorld draws).outcome
  have counting := config.isReading_totalTicks
  unfold Sessions.create at stopped ⊢
  generalize (config.buildWorld draws).outcome = built at building stopped ⊢
  generalize config.totalTicks = maxTicks at counting stopped ⊢
  obtain ⟨world, notes⟩ := built
  cases building with
  | error fits =>
    cases stopped
    exact ⟨rfl, fits⟩
  | ok kept =>
    cases counting with
    | error fits =>
      cases stopped
      exact ⟨rfl, fits⟩
    | ok => cases stopped

/-- To open a session is all or nothing. Either the table has one session more and that is shown, or
the table is as it was; then the reason is told, unless it is a fault that nothing catches. -/
theorem opening_is_all_or_nothing (draws : Draws) (opening : Opening)
    (fresh : sessions.table.find? sessions.nextId = none) :
    let served := serve draws (.create opening) sessions
    (∃ session, served.sessions.table.entries =
        sessions.table.entries ++ [(sessions.nextId, session)] ∧
      served.reply = sessionReply session) ∨
      served.sessions.table = sessions.table ∧
        (served.reply.Refuses ∨ ∃ fault, served.reply = .failed fault ∧ Escapes fault) := by
  dsimp only [serve]
  unfold create
  cases read : configOf opening with
  | error fault =>
    have caught := (reads_configOf opening).fits_of_eq_error read
    exact .inr ⟨rfl, .inl (refuses_configRefusal caught)⟩
  | ok config =>
    dsimp only
    generalize config.getD Config.standard = config
    generalize opening.name.elim Document.null Document.text = name
    cases stops : (sessions.create draws config name).fault with
    | some fault =>
      obtain ⟨table, reads⟩ := create_stopped stops
      exact .inr ⟨table, (openingRefusal_of_isOfReading reads).imp_right fun escapes =>
        ⟨fault, escapes⟩⟩
    | none =>
      obtain ⟨world, maxTicks, _, _, created⟩ := Sessions.reaches_create_iff.mp ⟨stops, rfl⟩
      let session := Sessions.opened sessions.nextId name config world maxTicks
      have found :
          (sessions.create draws config name).state.find sessions.nextId = .ok session := by
        rw [created]
        exact Sessions.find_put _ session
      have entries : (sessions.create draws config name).state.table.entries =
          sessions.table.entries ++ [(sessions.nextId, session)] := by
        rw [created]
        exact OrderedMap.entries_insert_of_absent fresh session
      rw [found]
      exact .inl ⟨session, entries, rfl⟩

/-- Stocks as a list, where an object belongs. -/
def Opening.listedStocks : Opening := ⟨some [("initial_stocks", .list [.text "wood"])], none, none⟩

/-- An experiment that has a number for a name. -/
def Opening.numberedExperiment : Opening := ⟨some [("experiment_name", .whole 5)], none, none⟩

theorem opening_is_all_or_nothing_twice :
    let first := (serve .none (.create .numberedExperiment) .empty).sessions
    first.table.size = 1 ∧ first.table.find? first.nextId = none ∧
      ∃ session, (serve .none (.create .numberedExperiment) first).sessions.table.entries =
          first.table.entries ++ [(first.nextId, session)] ∧
        (serve .none (.create .numberedExperiment) first).reply = sessionReply session := by
  intro first
  have one : first.table.size = 1 := by decide +kernel
  have fresh : (first.table.find? first.nextId).isNone = true := by decide +kernel
  have fresh := Option.isNone_iff_eq_none.mp fresh
  refine ⟨one, fresh, ?_⟩
  obtain opened | ⟨same, _⟩ := opening_is_all_or_nothing .none .numberedExperiment fresh
  · exact opened
  · have two : (serve .none (.create .numberedExperiment) first).sessions.table.size = 2 := by
      decide +kernel
    rw [same, one] at two
    cases two

/-- The fault that a call ends by. -/
def Reply.fault? : Reply → Option Fault
  | .failed fault => some fault
  | _ => none

/-- Not every configuration that cannot be read is refused. -/
theorem opening_escapes_handlers :
    let served := serve .none (.create .listedStocks) .empty
    (∃ fault, served.reply = .failed fault ∧ fault.category = .member) ∧
      ¬served.reply.Refuses ∧ ∀ session, served.reply ≠ sessionReply session := by
  intro served
  have escapes : (served.reply.fault?.map Fault.category) = some .member := by decide +kernel
  obtain ⟨fault, ends, category⟩ := Option.map_eq_some_iff.mp escapes
  cases reply : served.reply with
  | failed other =>
    rw [reply] at ends
    cases ends
    refine ⟨⟨fault, rfl, category⟩, ?_, fun _ => nofun⟩
    rintro ⟨detail, missing | misfit⟩
    · cases missing
    · cases misfit
  | document | csv | refused =>
    rw [reply] at ends
    cases ends

end Settlement.Service
