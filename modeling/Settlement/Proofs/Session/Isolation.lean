import Settlement.Proofs.Service
/-!
Sessions that share a table. Whatever requests come in whatever order, what happens in one session
is what its own requests make of it where it is the only one.
-/
namespace Settlement

namespace Sessions

/-- Every session is kept under its own id. -/
def Keyed (sessions : Sessions) : Prop := ∀ entry ∈ sessions.table.entries, entry.2.id = entry.1

/-- What a request makes of a session; nothing where it deletes the session. -/
def Call.effect (call : Call) (session : Session) : Option Session :=
  if call.request.session? = some session.id then
    match call.request with
    | .step _ count => some (session.stepBy count).state
    | .run _ ticks => some (session.runBy ticks).state
    | .delete _ => none
    | _ => some session
  else some session

/-- The sessions that requests open, in order, each with the requests that come after it. -/
def births : List Call → Sessions → List (Session × List Call)
  | [], _ => []
  | call :: rest, sessions =>
    (call.opens sessions).toList.map (·, rest) ++ births rest (sessions.serve call)

/-- Whenever a session is to be created, the next id is held by none. -/
def givesFreshIds : List Call → Sessions → Bool
  | [], _ => true
  | call :: rest, sessions =>
    ((call.opens sessions).isNone || !sessions.table.contains sessions.nextId) &&
      givesFreshIds rest (sessions.serve call)

/-- A table with one session. -/
def only (session : Session) : Sessions := empty.put session

end Sessions

/-- What becomes of a session where it is the only one, and only those requests come that name
it. -/
def Session.alone (calls : List Sessions.Call) (session : Session) : Option Session :=
  ((Sessions.only session).after
    (calls.filter fun call => call.request.session? = some session.id)).table.find? session.id

namespace Sessions

variable {sessions : Sessions} {call : Call} {id : Text} {session : Session}

namespace Keyed

variable (keyed : sessions.Keyed)
include keyed

theorem put (session : Session) : (sessions.put session).Keyed := by
  intro entry member
  rcases OrderedMap.eq_or_mem_of_mem_place member with new | old
  · exact new ▸ rfl
  · exact keyed entry old

theorem erase (id : Text) :
    ({ sessions with table := sessions.table.erase id } : Sessions).Keyed :=
  fun entry member => keyed entry (List.mem_of_mem_filter member)

theorem find?_id (member : session ∈ sessions.table.values) :
    sessions.table.find? session.id = some session := by
  obtain ⟨entry, held, rfl⟩ := List.mem_map.mp member
  rw [keyed entry held]
  exact (OrderedMap.find?_eq_some_iff _ _ _).mpr held

theorem ne_of_find?_eq_none (absent : sessions.table.find? id = none)
    (member : session ∈ sessions.table.values) : session.id ≠ id := by
  rintro rfl
  rw [keyed.find?_id member] at absent
  cases absent

theorem id_of_find? (found : sessions.table.find? id = some session) : session.id = id :=
  keyed (id, session) ((OrderedMap.find?_eq_some_iff _ _ _).mp found)

/-- A session that is put in the place of another. -/
theorem values_put {next : Session} (found : sessions.table.find? next.id = some session) :
    (sessions.put next).table.values =
      sessions.table.values.map fun other => if other.id = next.id then next else other := by
  rw [OrderedMap.values, Sessions.put, OrderedMap.entries_insert_of_present found,
    OrderedMap.values, List.map_map, List.map_map]
  refine List.map_congr_left fun entry member => ?_
  rw [Function.comp_apply, Function.comp_apply, keyed entry member]
  split <;> rfl

/-- A change of one session. -/
theorem values_change {step : Session → Outcome Session}
    (keeps : ∀ session, (step session).state.id = session.id) (id : Text) :
    (sessions.change id step).state.table.values =
      sessions.table.values.map fun other =>
        if other.id = id then (step other).state else other := by
  cases found : sessions.find id with
  | error fault =>
    obtain ⟨absent, rfl⟩ := find_eq_error_iff.mp found
    have unchanged : (sessions.change id step).state = sessions := by
      rw [change, found]
      rfl
    rw [unchanged]
    exact ((List.map_congr_left fun other member =>
      if_neg (keyed.ne_of_find?_eq_none absent member)).trans (List.map_id _)).symm
  | ok session =>
    rw [state_change found]
    rw [find_eq_ok_iff] at found
    obtain rfl := keyed.id_of_find? found
    have place : sessions.table.find? (step session).state.id = some session := by
      rw [keeps]
      exact found
    rw [keyed.values_put place, keeps]
    refine List.map_congr_left fun other member => ?_
    split
    · rename_i same
      rw [← same, keyed.find?_id member] at found
      rw [Option.some.inj found]
    · rfl

theorem values_erase (id : Text) :
    (sessions.table.erase id).values = sessions.table.values.filter fun other => other.id ≠ id := by
  rw [OrderedMap.values, OrderedMap.erase, OrderedMap.values, List.filter_map]
  congr 1
  refine List.filter_congr fun entry member => ?_
  rw [Function.comp_apply, keyed entry member]

theorem values_delete (id : Text) :
    (sessions.delete id).state.table.values =
      sessions.table.values.filter fun other => other.id ≠ id := by
  cases found : sessions.find id with
  | error fault =>
    obtain ⟨absent, rfl⟩ := find_eq_error_iff.mp found
    have unchanged : (sessions.delete id).state = sessions := by
      rw [delete, found]
      rfl
    rw [unchanged, eq_comm, List.filter_eq_self]
    exact fun other member => decide_eq_true (keyed.ne_of_find?_eq_none absent member)
  | ok session =>
    rw [delete, found, ← keyed.values_erase]
    rfl

end Keyed

theorem id_stepBy (count : Document) (session : Session) :
    (session.stepBy count).state.id = session.id :=
  ((Session.Same.self session).stepBy count).id

theorem id_runBy (ticks : Document) (session : Session) :
    (session.runBy ticks).state.id = session.id :=
  ((Session.Same.self session).runBy ticks).id

theorem Keyed.change (keyed : sessions.Keyed) (id : Text) (step : Session → Outcome Session) :
    (sessions.change id step).state.Keyed :=
  Outcome.state_given_keeps Keyed keyed fun _ _ => keyed.put _

theorem Keyed.of_table {other : Sessions} (keyed : sessions.Keyed)
    (same : other.table = sessions.table) : other.Keyed := by
  intro entry member
  rw [same] at member
  exact keyed entry member

theorem Keyed.serve (keyed : sessions.Keyed) (call : Call) : (sessions.serve call).Keyed := by
  obtain ⟨draws, request⟩ := call
  cases request with
  | create config name =>
    have table := table_create sessions draws config name
    cases opens : Call.opens sessions ⟨draws, .create config name⟩ with
    | some session => exact (keyed.put session).of_table (by rw [table, opens])
    | none => exact keyed.of_table (by rw [table, opens])
  | get id => exact Outcome.state_given_keeps Keyed keyed fun _ _ => keyed
  | list => exact keyed
  | step id count => exact keyed.change id _
  | run id ticks => exact keyed.change id _
  | delete id => exact Outcome.state_given_keeps Keyed keyed fun _ _ => keyed.erase id

/-- What a request makes of the sessions, if it lets one change. -/
private theorem Keyed.values_step (keyed : sessions.Keyed) {step : Session → Outcome Session}
    (keeps : ∀ session, (step session).state.id = session.id) {effect : Session → Option Session}
    (effects : ∀ session, effect session =
      if some id = some session.id then some (step session).state else some session) :
    (sessions.change id step).state.table.values = sessions.table.values.filterMap effect := by
  have changes : effect =
      some ∘ fun other => if other.id = id then (step other).state else other := by
    funext other
    by_cases same : other.id = id
    · simp [effects, same]
    · simp [effects, same, Ne.symm same]
  rw [keyed.values_change keeps, changes, List.filterMap_eq_map]

/-- One request: what becomes of the sessions that were there, and the session that is opened. -/
theorem Keyed.values_serve (keyed : sessions.Keyed)
    (fresh : ((call.opens sessions).isNone || !sessions.table.contains sessions.nextId) = true) :
    (sessions.serve call).table.values =
      sessions.table.values.filterMap call.effect ++ (call.opens sessions).toList := by
  obtain ⟨draws, request⟩ := call
  cases request with
  | create config name =>
    have unaffected : Call.effect ⟨draws, .create config name⟩ = some := rfl
    rw [table_create, unaffected, List.filterMap_some]
    cases opens : Call.opens sessions ⟨draws, .create config name⟩ with
    | none => simp
    | some session =>
      have absent : sessions.table.find? session.id = none := by
        rw [id_of_opens opens]
        simpa [opens, OrderedMap.contains] using fresh
      show (sessions.table.insert session.id session).values = _
      rw [OrderedMap.values, OrderedMap.entries_insert_of_absent absent, List.map_append]
      rfl
  | get id =>
    have unchanged : (sessions.serve ⟨draws, .get id⟩).table = sessions.table := by
      show (Outcome.given (sessions.find id) sessions fun _ => .done sessions).state.table = _
      cases sessions.find id <;> rfl
    have unaffected : Call.effect ⟨draws, .get id⟩ = some := by
      funext session
      exact ite_self _
    rw [unchanged, unaffected, List.filterMap_some]
    exact (List.append_nil _).symm
  | list =>
    have unaffected : Call.effect ⟨draws, .list⟩ = some := rfl
    rw [unaffected, List.filterMap_some]
    exact (List.append_nil _).symm
  | step id count =>
    exact (keyed.values_step (id_stepBy count) fun _ => rfl).trans (List.append_nil _).symm
  | run id ticks =>
    exact (keyed.values_step (id_runBy ticks) fun _ => rfl).trans (List.append_nil _).symm
  | delete id =>
    have effects : Call.effect ⟨draws, .delete id⟩ = Option.guard fun other => other.id ≠ id := by
      funext other
      by_cases same : other.id = id
      · simp [Call.effect, Request.session?, Option.guard, same]
      · simp [Call.effect, Request.session?, Option.guard, same, Ne.symm same]
    rw [effects, List.filterMap_eq_filter]
    exact (keyed.values_delete id).trans (List.append_nil _).symm

theorem after_unknown {calls : List Call}
    (named : ∀ call ∈ calls, call.request.session? = some id)
    (absent : sessions.table.find? id = none) : sessions.after calls = sessions := by
  induction calls with
  | nil => rfl
  | cons call rest ih =>
    rw [List.forall_mem_cons] at named
    rw [after_cons, serve, perform_unknown named.1 absent]
    exact ih named.2

theorem put_only {next : Session} (same : next.id = session.id) :
    (only session).put next = only next := by
  have table : (only session).table.insert next.id next = (only next).table := by
    apply OrderedMap.ext_entries
    show OrderedMap.place next.id next [(session.id, session)] = [(next.id, next)]
    rw [OrderedMap.place, if_pos same.symm, same]
  rw [put, table]
  rfl

theorem find_only (session : Session) : (only session).find session.id = .ok session :=
  find_put empty session

/-- The only session is changed as it is among others, and where it is deleted none is left. -/
theorem serve_only (named : call.request.session? = some session.id) :
    (∃ next, call.effect session = some next ∧ next.id = session.id ∧
        (only session).serve call = only next) ∨
      call.effect session = none ∧ ((only session).serve call).table.find? session.id = none := by
  have found := find_only session
  obtain ⟨draws, request⟩ := call
  rw [Call.effect, if_pos named]
  cases request with
  | create config name => cases named
  | list => cases named
  | get id =>
    cases named
    refine .inl ⟨session, rfl, rfl, ?_⟩
    rw [serve, perform, found]
    rfl
  | step id count =>
    cases named
    exact .inl ⟨_, rfl, id_stepBy count session,
      (state_change found _).trans (put_only (id_stepBy count session))⟩
  | run id ticks =>
    cases named
    exact .inl ⟨_, rfl, id_runBy ticks session,
      (state_change found _).trans (put_only (id_runBy ticks session))⟩
  | delete id =>
    cases named
    refine .inr ⟨rfl, ?_⟩
    rw [serve, perform, delete, found]
    exact (OrderedMap.find?_erase _ _ _).trans (if_pos rfl)

end Sessions

namespace Session

open Sessions

variable {call : Call} {session : Session}

theorem alone_nil (session : Session) : session.alone [] = some session :=
  find_eq_ok_iff.mp (find_only session)

/-- A session that is the only one is changed by a request as it is among others. -/
theorem alone_cons (call : Call) (rest : List Call) (session : Session) :
    session.alone (call :: rest) = (call.effect session).bind (alone rest) := by
  by_cases named : call.request.session? = some session.id
  · rw [alone, List.filter_cons_of_pos (by simpa using named), after_cons]
    obtain ⟨next, effect, same, served⟩ | ⟨effect, gone⟩ := serve_only named
    · rw [effect, served, ← same]
      rfl
    · have names : ∀ call ∈ rest.filter fun call => call.request.session? = some session.id,
          call.request.session? = some session.id := by simp
      rw [effect, after_unknown names gone]
      exact gone
  · rw [alone, List.filter_cons_of_neg (by simpa using named), Call.effect, if_neg named]
    rfl

theorem effect_eq_none_iff : call.effect session = none ↔ call.request = .delete session.id := by
  obtain ⟨draws, request⟩ := call
  unfold Call.effect
  cases request with
  | create config name => simp
  | list => simp
  | get id => simp
  | step id count => split <;> simp
  | run id ticks => split <;> simp
  | delete id => simp [Request.session?, eq_comm]

theorem id_of_effect {next : Session} (effect : call.effect session = some next) :
    next.id = session.id := by
  by_cases named : call.request.session? = some session.id
  · obtain ⟨other, same, id, _⟩ | ⟨gone, _⟩ := serve_only named
    · rw [effect, Option.some.injEq] at same
      rw [same, id]
    · rw [effect] at gone
      cases gone
  · rw [Call.effect, if_neg named, Option.some.injEq] at effect
    rw [effect]

/-- A session is there until it is deleted. -/
theorem alone_eq_none_iff {calls : List Call} :
    session.alone calls = none ↔ ∃ call ∈ calls, call.request = .delete session.id := by
  induction calls generalizing session with
  | nil => simp [alone_nil]
  | cons call rest ih =>
    rw [alone_cons, List.exists_mem_cons_iff, ← effect_eq_none_iff]
    cases effect : call.effect session with
    | none => simp
    | some next => simp [ih, id_of_effect effect]

end Session

namespace Sessions

variable {sessions : Sessions}

/-- Induction on the requests: every session that is there or will be opened goes its own way. -/
theorem Keyed.values_after (calls : List Call) (keyed : sessions.Keyed)
    (fresh : givesFreshIds calls sessions = true) :
    (sessions.after calls).table.values =
      (sessions.table.values.map (·, calls) ++ births calls sessions).filterMap
        fun birth => birth.1.alone birth.2 := by
  induction calls generalizing sessions with
  | nil =>
    rw [births, List.append_nil, List.filterMap_map]
    exact List.filterMap_some.symm.trans
      (List.filterMap_congr fun session _ => session.alone_nil.symm)
  | cons call rest ih =>
    rw [givesFreshIds, Bool.and_eq_true] at fresh
    rw [after_cons, ih (keyed.serve call) fresh.2, keyed.values_serve fresh.1, births]
    simp only [List.map_append, List.filterMap_append, List.append_assoc, List.filterMap_map,
      List.filterMap_filterMap]
    congr 1
    exact List.filterMap_congr fun session _ => (session.alone_cons call rest).symm

theorem Keyed.nodup_ids (keyed : sessions.Keyed) :
    (sessions.table.values.map Session.id).Nodup := by
  have keys : sessions.table.values.map Session.id = sessions.table.entries.map Prod.fst := by
    rw [OrderedMap.values, List.map_map]
    exact List.map_congr_left keyed
  rw [keys]
  exact sessions.table.distinct

theorem Keyed.after (calls : List Call) (keyed : sessions.Keyed) :
    (sessions.after calls).Keyed := by
  induction calls generalizing sessions with
  | nil => exact keyed
  | cons call rest ih => exact ih (keyed.serve call)

theorem isSome_opens (sessions : Sessions) (draws : Draws) (config : Option Config)
    (name : Document) : (Call.opens sessions ⟨draws, .create config name⟩).isSome =
      (sessions.perform draws (.create config name)).completes :=
  (perform_create sessions draws config name).1

/-- Sessions do not interfere. Those that are there are the sessions that were opened and not deleted
since, in order, each as its own requests alone would have left it; and what can not be opened or is
not there leaves the table as it is. -/
theorem sessions_do_not_interfere (ids : Nat → Text) {calls : List Call}
    (fresh : givesFreshIds calls { empty with ids } = true) :
    let start : Sessions := { empty with ids }
    (start.after calls).table.values =
        (births calls start).filterMap (fun birth => birth.1.alone birth.2) ∧
      ((start.after calls).table.values.map Session.id).Nodup ∧
      (∀ (session : Session) (later : List Call), session.alone later = none ↔
        ∃ call ∈ later, call.request = .delete session.id) ∧
      (∀ sessions draws config name,
        let created := Sessions.perform draws (.create config name) sessions
        (Call.opens sessions ⟨draws, .create config name⟩).isSome = created.completes ∧
          (created.completes = false → created.state.table = sessions.table)) ∧
      (∀ (sessions : Sessions) id, sessions.table.find? id = none →
        (∀ draws request, request.session? = some id →
          sessions.perform draws request = .failed sessions (.unknownSession id)) ∧
        ∀ draws (call : Service.Call), call.session? = some id →
          Service.serve draws call sessions =
            ⟨.refused 404 (Fault.unknownSession id).message, sessions⟩) := by
  have keyed : ({ empty with ids } : Sessions).Keyed := by simp [Keyed, empty, OrderedMap.empty]
  refine ⟨keyed.values_after calls fresh, (keyed.after calls).nodup_ids,
    fun _ _ => Session.alone_eq_none_iff, fun sessions draws config name => ?_,
    fun sessions id absent => ⟨fun draws _ named => perform_unknown named absent draws,
      fun draws _ named => Service.serve_unknown draws named absent⟩⟩
  have opens := isSome_opens sessions draws config name
  refine ⟨opens, fun failed => ?_⟩
  have unopened : Call.opens sessions ⟨draws, .create config name⟩ = none := by
    rw [← Option.not_isSome_iff_eq_none, opens, failed]
    exact Bool.false_ne_true
  have table := table_create sessions draws config name
  rw [unopened] at table
  exact table

/-- Two sessions whose requests take turns, until the first is deleted. -/
def takingTurns : List Call := [
  ⟨.none, .create (some .quietYear) .null⟩,
  ⟨.none, .create (some .quietYear) (.text "second")⟩,
  ⟨.none, .step (idOf 0) (.whole 1)⟩,
  ⟨.none, .step (idOf 1) (.whole 2)⟩,
  ⟨.none, .run (idOf 0) .null⟩,
  ⟨.none, .delete (idOf 0)⟩,
  ⟨.none, .step (idOf 0) (.whole 1)⟩,
  ⟨.none, .list⟩]

theorem sessions_do_not_interfere_takingTurns :
    givesFreshIds takingTurns empty = true ∧
      (empty.after takingTurns).table.values =
        (births takingTurns empty).filterMap (fun birth => birth.1.alone birth.2) ∧
      (births takingTurns empty).map (fun birth => birth.1.id) = [idOf 0, idOf 1] ∧
      (empty.after takingTurns).table.values.map
        (fun session => (session.id, session.currentTick)) = [(idOf 1, 2)] := by
  have fresh : givesFreshIds takingTurns { empty with ids := idOf } = true := by decide +kernel
  exact ⟨fresh, (sessions_do_not_interfere idOf fresh).1, by decide +kernel, by decide +kernel⟩

end Sessions

end Settlement
