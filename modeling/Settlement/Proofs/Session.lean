import Settlement.Proofs.Simulation
import Settlement.Session.Table
/-!
Sessions that are advanced request by request. Their count of ticks is the number of the pass that
comes next, so however the ticks are split over requests, a session goes through the passes of one
simulation, up to the end of its history.
-/
namespace Settlement

namespace Session

/-- The world of a session, and what its recorder remembers of it. -/
def observed (session : Session) : Observed Float (Recorder Float) :=
  ⟨session.world, session.recorder⟩

/-- A number of passes has led a session on from where it started. -/
structure LedFrom (session start : Session) (ticks : Nat) : Prop where
  id : session.id = start.id
  config : session.config = start.config
  maxTicks : session.maxTicks = start.maxTicks
  currentTick : session.currentTick = ticks
  passes : ∀ interval, start.config.interval = .ok interval →
    (Observed.passes start.config.period interval [Recorder.observe] ticks start.observed).Reaches
      session.observed

variable {start session next : Session} {ticks : Nat}

theorem LedFrom.self (unticked : start.currentTick = 0) : start.LedFrom start 0 where
  id := rfl
  config := rfl
  maxTicks := rfl
  currentTick := unticked
  passes _ _ := Outcome.reaches_each_nil.mpr rfl

theorem LedFrom.withStatus (led : session.LedFrom start ticks) (status : SessionStatus) :
    { session with status }.LedFrom start ticks :=
  ⟨led.id, led.config, led.maxTicks, led.currentTick, led.passes⟩

/-- To tick a session is a pass on what it observed. -/
theorem reaches_tickOnce {period : Given Float} {interval : Interval} {index : Nat}
    (counted : session.currentTick = index)
    (ticked : (tickOnce period interval session).Reaches next) :
    ∃ seen, (Observed.pass period interval [Recorder.observe] index session.observed).Reaches seen ∧
      next = { session with
        world := seen.world, recorder := seen.memory, currentTick := index + 1 } := by
  obtain ⟨looked, observes, counts⟩ := Outcome.reaches_andThen.mp ticked
  obtain rfl := Outcome.reaches_done.mp counts
  obtain ⟨_, moves, looks⟩ := Outcome.reaches_andThen.mp observes
  obtain ⟨world, tick, rfl⟩ := Outcome.reaches_map.mp moves
  simp only [counted] at looks
  simp only [Observed.pass, Outcome.reaches_andThen, Outcome.reaches_map]
  by_cases due : interval.isDue index
  · rw [if_pos due] at looks
    obtain ⟨recorder, observe, rfl⟩ := Outcome.reaches_map.mp looks
    refine ⟨⟨world, recorder⟩, ⟨_, ⟨world, tick, rfl⟩, ?_⟩, rfl⟩
    rw [if_pos due, Observed.observe, Outcome.each_singleton]
    exact Outcome.reaches_map.mpr ⟨recorder, observe, rfl⟩
  · rw [if_neg due] at looks
    obtain rfl := Outcome.reaches_done.mp looks
    refine ⟨⟨world, session.recorder⟩, ⟨_, ⟨world, tick, rfl⟩, ?_⟩, rfl⟩
    rw [if_neg due]
    exact Outcome.reaches_done.mpr rfl

theorem LedFrom.tickOnce {interval : Interval} (led : session.LedFrom start ticks)
    (read : start.config.interval = .ok interval)
    (ticked : (tickOnce start.config.period interval session).Reaches next) :
    next.LedFrom start (ticks + 1) ∧ next.status = session.status := by
  obtain ⟨seen, pass, rfl⟩ := reaches_tickOnce led.currentTick ticked
  refine ⟨⟨led.id, led.config, led.maxTicks, by simp, ?_⟩, rfl⟩
  intro other same
  cases read.symm.trans same
  exact Observed.reaches_passes_succ.mpr ⟨_, led.passes interval read, pass⟩

/-- Induction on the ticks that were taken. -/
theorem LedFrom.steps {interval : Interval} {count : Nat} (led : session.LedFrom start ticks)
    (read : start.config.interval = .ok interval)
    (ticked : (Outcome.steps count
      (fun _ => Session.tickOnce start.config.period interval) session).Reaches next) :
    next.LedFrom start (ticks + count) ∧ next.status = session.status := by
  rw [Outcome.steps_eq_each] at ticked
  induction count generalizing next with
  | zero =>
    obtain rfl := Outcome.reaches_each_nil.mp ticked
    exact ⟨led, rfl⟩
  | succ count ih =>
    rw [List.range_succ, Outcome.reaches_each_concat] at ticked
    obtain ⟨middle, before, last⟩ := ticked
    obtain ⟨led, same⟩ := ih before
    obtain ⟨led, status⟩ := led.tickOnce read last
    exact ⟨led, status.trans same⟩

theorem LedFrom.advance {count : Int} (led : session.LedFrom start ticks)
    (advanced : (advance count session).Reaches next) :
    next.LedFrom start (ticks + (min count (start.maxTicks - ticks)).toNat) ∧
      next.status = session.status := by
  obtain ⟨interval, read, ticked⟩ := Outcome.reaches_given.mp advanced
  rw [Outcome.reaches_noteFault, remaining, led.config, led.maxTicks, led.currentTick] at ticked
  exact led.steps (led.config ▸ read) ticked

/-- A session that stands within its history, and is completed only at its end. -/
structure Stands (session start : Session) (ticks : Nat) : Prop where
  led : session.LedFrom start ticks
  within : ticks ≤ start.maxTicks.toNat
  completed : session.status = .completed → start.maxTicks ≤ ticks

theorem Stands.step {count : Int} (stands : session.Stands start ticks)
    (stepped : (session.step count).Reaches next) :
    next.Stands start (min start.maxTicks.toNat (ticks + count.toNat)) := by
  have within := stands.within
  unfold Session.step at stepped
  split at stepped
  · rename_i completed
    obtain rfl := Outcome.reaches_done.mp stepped
    have ended := stands.completed completed
    have same : min start.maxTicks.toNat (ticks + count.toNat) = ticks := by omega
    rw [same]
    exact stands
  · obtain ⟨advanced, advance, settles⟩ := Outcome.reaches_andThen.mp stepped
    obtain rfl := Outcome.reaches_done.mp settles
    obtain ⟨led, running⟩ := (stands.led.withStatus .running).advance advance
    have same : ticks + (min count (start.maxTicks - ticks)).toNat =
        min start.maxTicks.toNat (ticks + count.toNat) := by omega
    rw [same] at led
    unfold settled
    split
    · rename_i ended
      rw [led.maxTicks, led.currentTick] at ended
      exact ⟨led.withStatus .completed, Nat.min_le_left _ _, fun _ => ended⟩
    · refine ⟨led, Nat.min_le_left _ _, fun completed => ?_⟩
      rw [running] at completed
      cases completed

end Session

/-- A request for ticks: for a number of them, or for all that remain. -/
inductive TickRequest where
  | step (count : Int)
  | run (count : Int)
  | runAll

namespace TickRequest

/-- The request as it is made to the table, for the session of an id. -/
def named (id : Text) : TickRequest → Sessions.Request
  | step count => .step id (.whole count)
  | run count => .run id (.whole count)
  | runAll => .run id .null

/-- The ticks that a session is stepped by. -/
def ticks (session : Session) : TickRequest → Int
  | step count | run count => count
  | runAll => session.remaining

/-- How many ticks are asked for, in a history of some length and after those asked for before. -/
def asked (history before : Nat) : TickRequest → Nat
  | step count | run count => count.toNat
  | runAll => history - before

/-- How many ticks were asked for, before and by all of some requests. -/
def total (history before : Nat) (requests : List TickRequest) : Nat :=
  requests.foldl (fun before request => before + request.asked history before) before

end TickRequest

theorem Session.Stands.serve {start session next : Session} {before : Nat} {request : TickRequest}
    (stands : session.Stands start (min start.maxTicks.toNat before))
    (served : (session.step (request.ticks session)).Reaches next) :
    next.Stands start
      (min start.maxTicks.toNat (before + request.asked start.maxTicks.toNat before)) := by
  have same : min start.maxTicks.toNat (before + request.asked start.maxTicks.toNat before) =
      min start.maxTicks.toNat
        (min start.maxTicks.toNat before + (request.ticks session).toNat) := by
    cases request with
    | step count | run count =>
      simp only [TickRequest.asked, TickRequest.ticks]
      omega
    | runAll =>
      simp only [TickRequest.asked, TickRequest.ticks, Session.remaining, stands.led.maxTicks,
        stands.led.currentTick]
      omega
  rw [same]
  exact stands.step served

namespace Sessions

variable {draws : Draws} {sessions after : Sessions} {id : Text}

theorem find_eq_ok_iff {session : Session} :
    sessions.find id = .ok session ↔ sessions.table.find? id = some session := by
  unfold find
  cases sessions.table.find? id <;> simp

theorem find_put (sessions : Sessions) (session : Session) :
    (sessions.put session).find session.id = .ok session := by
  rw [find_eq_ok_iff, put, OrderedMap.find?_insert, if_pos rfl]

theorem reaches_create_iff {config : Config} {name : Document} :
    (sessions.create draws config name).Reaches after ↔
      ∃ world maxTicks, (config.buildWorld draws).outcome.1 = .ok world ∧
        config.totalTicks = .ok maxTicks ∧
        after = { sessions with issued := sessions.issued + 1 }.put
          (opened sessions.nextId name config world maxTicks) := by
  unfold create
  generalize (config.buildWorld draws).outcome = building
  obtain ⟨built, notes⟩ := building
  cases built with
  | error fault => simp [Outcome.Reaches, Outcome.failed]
  | ok world =>
    cases config.totalTicks with
    | error fault => simp [Outcome.Reaches, Outcome.failed]
    | ok maxTicks => simp [Outcome.Reaches, Outcome.noted, eq_comm]

theorem reaches_perform_iff {request : TickRequest} :
    (sessions.perform draws (request.named id)).Reaches after ↔
      ∃ session next, sessions.find id = .ok session ∧
        (session.step (request.ticks session)).Reaches next ∧ sessions.put next = after := by
  have steps : sessions.perform draws (request.named id) =
      sessions.change id fun session => session.step (request.ticks session) := by
    cases request <;> rfl
  simp only [steps, change, Outcome.reaches_given, Outcome.reaches_map, exists_and_left]

/-- Induction on the requests that were served. -/
private theorem exists_stands (start : Session) {session : Session} {before : Nat}
    {requests : List TickRequest} (found : sessions.find start.id = .ok session)
    (stands : session.Stands start (min start.maxTicks.toNat before))
    (served : (Outcome.each (requests.map (TickRequest.named start.id)) (perform draws)
      sessions).Reaches after) :
    ∃ final, after.find start.id = .ok final ∧
      final.Stands start
        (min start.maxTicks.toNat (TickRequest.total start.maxTicks.toNat before requests)) := by
  induction requests generalizing sessions session before with
  | nil =>
    obtain rfl := Outcome.reaches_each_nil.mp served
    exact ⟨session, found, stands⟩
  | cons request rest ih =>
    obtain ⟨middle, first, later⟩ := Outcome.reaches_each_cons.mp served
    obtain ⟨present, next, same, stepped, rfl⟩ := reaches_perform_iff.mp first
    cases found.symm.trans same
    have stood := stands.serve stepped
    have placed := find_put sessions next
    rw [stood.led.id] at placed
    exact ih placed stood later

/-- However ticks are asked for, a session ends where one simulation of as many ticks ends. -/
theorem session_agrees_with_simulation {config : Config} {name : Document} {created : Sessions}
    {requests : List TickRequest} (opened : (sessions.create draws config name).Reaches created)
    (served : (Outcome.each (requests.map (TickRequest.named sessions.nextId)) (perform draws)
      created).Reaches after) :
    ∃ world maxTicks session, (config.buildWorld draws).outcome.1 = .ok world ∧
      config.totalTicks = .ok maxTicks ∧ after.find sessions.nextId = .ok session ∧
      session.currentTick =
        min (max maxTicks 0) (TickRequest.total maxTicks.toNat 0 requests) ∧
      ∀ observed, (config.simulate [Recorder.observe] (some (.whole session.currentTick))
          ⟨world, .fresh none⟩).Reaches observed →
        session.observed = observed := by
  obtain ⟨world, maxTicks, built, history, rfl⟩ := reaches_create_iff.mp opened
  let start := Sessions.opened sessions.nextId name config world maxTicks
  have stands : start.Stands start (min start.maxTicks.toNat 0) := by
    rw [Nat.min_zero]
    exact ⟨.self rfl, Nat.zero_le _, nofun⟩
  obtain ⟨session, found, stands⟩ := exists_stands start (find_put _ start) stands served
  refine ⟨world, maxTicks, session, built, history, found, ?_, ?_⟩
  · have ticks : session.currentTick =
        (min maxTicks.toNat (TickRequest.total maxTicks.toNat 0 requests) : Nat) :=
      stands.led.currentTick
    rw [ticks]
    omega
  · intro observed simulated
    obtain ⟨interval, read, passes⟩ := Config.reaches_passes_of_simulate simulated
    rw [stands.led.currentTick, Int.toNat_natCast] at passes
    exact (stands.led.passes interval read).unique passes

end Sessions

/-- Two sites without industries, looked at after every other tick of one year. -/
def Config.quietYear : Config :=
  .withSettings [(.numSites, .whole 2), (.historyYears, .whole 1), (.snapshotInterval, .whole 2),
    (.recipes, .object [])]

theorem Sessions.session_agrees_with_simulation_quietYear :
    ∃ created after world session,
      (Sessions.empty.create .none .quietYear .null).Reaches created ∧
      (Outcome.each ([.step 3, .runAll].map (TickRequest.named Sessions.empty.nextId))
        (perform .none) created).Reaches after ∧
      (Config.quietYear.buildWorld .none).outcome.1 = .ok world ∧
      after.find Sessions.empty.nextId = .ok session ∧ session.currentTick = 4 ∧
      ∀ observed, (Config.quietYear.simulate [Recorder.observe]
          (some (.whole session.currentTick)) ⟨world, .fresh none⟩).Reaches observed →
        session.observed = observed := by
  have opened : (Sessions.empty.create .none .quietYear .null).Reaches _ :=
    Outcome.completes_iff_reaches_state.mp (by decide +kernel)
  have served : (Outcome.each ([.step 3, .runAll].map (TickRequest.named Sessions.empty.nextId))
      (perform .none) (Sessions.empty.create .none .quietYear .null).state).Reaches _ :=
    Outcome.completes_iff_reaches_state.mp (by decide +kernel)
  have year : Config.quietYear.totalTicks.toOption = some 4 := by decide +kernel
  obtain ⟨world, maxTicks, session, built, history, found, ticks, agrees⟩ :=
    session_agrees_with_simulation opened served
  rw [history] at year
  obtain rfl := Option.some.inj year
  exact ⟨_, _, world, session, opened, served, built, found, ticks, agrees⟩

end Settlement
