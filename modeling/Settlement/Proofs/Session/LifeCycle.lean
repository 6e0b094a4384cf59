import Settlement.Proofs.Config.World
import Settlement.Proofs.Recorder
import Settlement.Proofs.Session.Requests
/-!
The life of a session. Its world is ticked by one request after the other, and any tick may be
interrupted by a fault; the fault ends the request, and the session can be asked again. Whatever
happens, the counter, the clock and the recorder tell of the same completed ticks.
-/
namespace Settlement

namespace Session

/-- The ticks that are called for by a number of passes, with whether each was completed. The first
that was not is the last. -/
def ticksOfPasses (period : Given Float) (interval : Interval) : Nat → Session → List Bool
  | 0, _ => []
  | count + 1, session =>
    (session.world.tick period).completes ::
      if (session.tickOnce period interval).completes then
        ticksOfPasses period interval count (session.tickOnce period interval).state
      else []

/-- The ticks that are called for to step a session. -/
def ticksOfStep (count : Int) (session : Session) : List Bool :=
  if session.status = .completed then []
  else
    match session.config.interval with
    | .ok interval =>
      ticksOfPasses session.config.period interval (min count session.remaining).toNat
        { session with status := .running }
    | .error _ => []

/-- The ticks that are called for by requests, in order. -/
def ticksOf : List TickRequest → Session → List Bool
  | [], _ => []
  | request :: rest, session =>
    session.ticksOfStep (request.ticks session) ++
      ticksOf rest (session.step (request.ticks session)).state

/-- What requests make of a session, whether or not they fail. -/
def served (requests : List TickRequest) (session : Session) : Session :=
  requests.foldl (fun session request => (session.step (request.ticks session)).state) session

/-- The indices below a count that are looked at. -/
def dueTicks (every : Int) (count : Nat) : List Nat :=
  (List.range count).filter fun index => every ∣ index

theorem dueTicks_succ (every : Int) (count : Nat) :
    dueTicks every (count + 1) = dueTicks every count ++ if every ∣ count then [count] else [] := by
  rw [dueTicks, List.range_succ, List.filter_append, List.filter_singleton]
  by_cases due : every ∣ count
  · simp [dueTicks, due]
  · simp [dueTicks, due]

variable {start session : Session} {every : Int} {calls : List Bool}

/-- A session that has lived through some ticks: its counter, its clock and its recorder tell of
those that were completed. -/
structure Lived (session start : Session) (every : Int) (calls : List Bool) : Prop where
  same : session.Same start
  currentTick : session.currentTick = calls.count true
  world : ∃ clock, World.clockAfter (List.replicate (calls.count true) start.config.period)
      start.world.clock = .ok clock ∧ session.world.At start.world.siteIds clock
  chosen : session.recorder.chosen = none
  looks : ∀ id ∈ start.world.siteIds, session.recorder.looks id.key =
    (dueTicks every (calls.count true)).map fun index => (id, .whole index)

theorem Lived.withStatus (lived : session.Lived start every calls) (status : SessionStatus) :
    { session with status }.Lived start every calls :=
  ⟨lived.same.withStatus status, lived.currentTick, lived.world, lived.chosen, lived.looks⟩

theorem isDue_iff {index : Nat} : Interval.isDue ⟨.whole every⟩ index = true ↔ every ∣ index := by
  simp only [Interval.isDue, beq_iff_eq, Int.dvd_iff_emod_eq_zero]

/-- A tick that is interrupted changes no more than the economies of some sites. -/
private theorem Lived.tickOnce_interrupted {interval : Interval}
    (lived : session.Lived start every calls)
    (interrupted : (session.world.tick start.config.period).completes = false) :
    (session.tickOnce start.config.period interval).completes = false ∧
      (session.tickOnce start.config.period interval).state.Lived start every (calls ++ [false]) ∧
      (session.tickOnce start.config.period interval).state.status = session.status := by
  let ticked := (session.world.tick start.config.period).map fun world => { session with world }
  have stops : ticked.completes = false := interrupted
  have ends : session.tickOnce start.config.period interval = ticked := by
    rw [tickOnce, Outcome.andThen_of_not_completes stops, Outcome.andThen_of_not_completes stops]
  have count : (calls ++ [false]).count true = calls.count true := by simp
  obtain ⟨clock, moved, stands⟩ := lived.world
  rw [ends]
  refine ⟨stops, ⟨⟨lived.same.id, lived.same.name, lived.same.config, lived.same.maxTicks⟩, ?_, ?_,
    lived.chosen, ?_⟩, rfl⟩
  · rw [count]
    exact lived.currentTick
  · rw [count]
    exact ⟨clock, moved, stands.of_tick_interrupted interrupted⟩
  · rw [count]
    exact lived.looks

/-- A tick that is completed is followed by a look at every site, if one is due. -/
private theorem exists_reaches_tickOnce {world : World Float} {ids : List Name} {clock : Float}
    {period : Given Float} (ticked : (session.world.tick period).Reaches world)
    (stands : world.At ids clock) (all : session.recorder.chosen = none) {count : Nat}
    (counted : session.currentTick = count) :
    ∃ recorder, (session.tickOnce period ⟨.whole every⟩).Reaches
        { session with world, recorder, currentTick := count + 1 } ∧
      recorder.chosen = none ∧ ∀ id ∈ ids, recorder.looks id.key =
        session.recorder.looks id.key ++ if every ∣ count then [(id, .whole count)] else [] := by
  simp only [tickOnce, Outcome.reaches_andThen, Outcome.reaches_map, Outcome.reaches_done]
  by_cases due : every ∣ (count : Int)
  · obtain ⟨recorder, looked, chosen, looks⟩ :=
      Recorder.exists_reaches_observe stands all count
    refine ⟨recorder, ⟨{ session with world, recorder }, ⟨_, ⟨world, ticked, rfl⟩, ?_⟩, ?_⟩, chosen,
      fun id member => ?_⟩
    · rw [counted, if_pos (isDue_iff.mpr due)]
      exact Outcome.reaches_map.mpr ⟨recorder, looked, rfl⟩
    · rw [counted]
    · rw [looks id member, if_pos due]
  · refine ⟨session.recorder, ⟨{ session with world }, ⟨_, ⟨world, ticked, rfl⟩, ?_⟩, ?_⟩, all,
      fun id member => ?_⟩
    · rw [counted, if_neg (isDue_iff.not.mpr due)]
      exact Outcome.reaches_done.mpr rfl
    · rw [counted]
    · rw [if_neg due, List.append_nil]

private theorem Lived.tickOnce_completed (lived : session.Lived start every calls)
    (completed : (session.world.tick start.config.period).completes = true) :
    (session.tickOnce start.config.period ⟨.whole every⟩).completes = true ∧
      (session.tickOnce start.config.period ⟨.whole every⟩).state.Lived start every
        (calls ++ [true]) ∧
      (session.tickOnce start.config.period ⟨.whole every⟩).state.status = session.status := by
  obtain ⟨world, ticked⟩ := Outcome.completes_iff_exists_reaches.mp completed
  obtain ⟨clock, moved, stands⟩ := lived.world
  obtain ⟨length, success, stands⟩ := stands.of_reaches_tick ticked
  obtain ⟨recorder, reaches, chosen, looks⟩ :=
    exists_reaches_tickOnce ticked stands lived.chosen lived.currentTick
  have count : (calls ++ [true]).count true = calls.count true + 1 := by simp
  rw [reaches.state_eq]
  refine ⟨Outcome.completes_iff_exists_reaches.mpr ⟨_, reaches⟩,
    ⟨⟨lived.same.id, lived.same.name, lived.same.config, lived.same.maxTicks⟩, ?_, ?_, chosen, ?_⟩,
    rfl⟩
  · rw [count]
    rfl
  · rw [count]
    exact ⟨clock + length, World.clockAfter_replicate_succ moved success, stands⟩
  · intro id member
    rw [looks id member, lived.looks id member, count, dueTicks_succ, List.map_append]
    split <;> rfl

/-- One pass: a tick is called for, and what it did is told of. -/
theorem Lived.tickOnce (lived : session.Lived start every calls) :
    (session.tickOnce start.config.period ⟨.whole every⟩).completes =
        (session.world.tick start.config.period).completes ∧
      (session.tickOnce start.config.period ⟨.whole every⟩).state.Lived start every
        (calls ++ [(session.world.tick start.config.period).completes]) ∧
      (session.tickOnce start.config.period ⟨.whole every⟩).state.status = session.status := by
  cases completes : (session.world.tick start.config.period).completes with
  | true => exact lived.tickOnce_completed completes
  | false => exact lived.tickOnce_interrupted completes

/-- Induction on the passes; a fault ends them before all are done. -/
theorem Lived.steps (lived : session.Lived start every calls) (count : Nat) :
    let passes := Outcome.steps count
      (fun _ => Session.tickOnce start.config.period ⟨.whole every⟩) session
    let ticks := ticksOfPasses start.config.period ⟨.whole every⟩ count session
    passes.state.Lived start every (calls ++ ticks) ∧ passes.state.status = session.status ∧
      (if passes.completes then ticks.count true = count else ticks.count true < count) := by
  dsimp only
  induction count generalizing session calls with
  | zero =>
    refine ⟨?_, rfl, rfl⟩
    rw [ticksOfPasses, List.append_nil]
    exact lived
  | succ count ih =>
    obtain ⟨completes, next, status⟩ := lived.tickOnce
    rw [Outcome.steps_succ, ticksOfPasses, ← completes]
    rw [← completes] at next
    cases complete : (session.tickOnce start.config.period ⟨.whole every⟩).completes with
    | false =>
      rw [complete] at next
      rw [Outcome.andThen_of_not_completes complete]
      exact ⟨next, status, by simp [complete]⟩
    | true =>
      rw [complete] at next
      obtain ⟨later, kept, counted⟩ := ih next
      rw [Outcome.state_andThen complete, if_pos rfl, List.append_cons]
      refine ⟨later, kept.trans status, ?_⟩
      have both := Outcome.completes_andThen
        (session.tickOnce start.config.period ⟨.whole every⟩)
        (Outcome.steps count fun _ => Session.tickOnce start.config.period ⟨.whole every⟩)
      rw [complete, eq_self, true_and] at both
      simp only [both, List.count_cons_self]
      split at counted <;> simp_all

theorem Lived.remaining_eq (lived : session.Lived start every calls) :
    session.remaining = start.maxTicks - calls.count true := by
  rw [remaining, lived.currentTick, lived.same.maxTicks]

theorem Lived.advance (lived : session.Lived start every calls)
    (read : start.config.interval = .ok ⟨.whole every⟩) (count : Int) :
    let budget := (min count (start.maxTicks - calls.count true)).toNat
    let ticks := ticksOfPasses session.config.period ⟨.whole every⟩ budget session
    (advance count session).state.Lived start every (calls ++ ticks) ∧
      (advance count session).state.status = session.status ∧
      (if (advance count session).completes then ticks.count true = budget
        else ticks.count true < budget) := by
  have advanced : Session.advance count session =
      (Outcome.steps (min count (start.maxTicks - calls.count true)).toNat
        (fun _ => Session.tickOnce start.config.period ⟨.whole every⟩) session).noteFault
          (.sessionFailed session.id) := by
    rw [Session.advance, lived.same.config, read, Outcome.given_ok, lived.remaining_eq]
  rw [advanced, Outcome.state_noteFault, Outcome.completes_noteFault, lived.same.config]
  exact lived.steps _

/-- A session that stands within its history: it is completed at its end, and running before. -/
structure Kept (session start : Session) (every : Int) (calls : List Bool) : Prop where
  lived : session.Lived start every calls
  within : calls.count true ≤ start.maxTicks.toNat
  running : session.status = .running → session.currentTick < start.maxTicks
  completed : session.status = .completed → start.maxTicks ≤ session.currentTick

theorem Kept.settled (lived : session.Lived start every calls) (running : session.status = .running)
    (within : calls.count true ≤ start.maxTicks.toNat) :
    session.settled.Kept start every calls ∧ session.settled.status ≠ .created := by
  unfold Session.settled
  split
  · rename_i ended
    rw [lived.same.maxTicks] at ended
    exact ⟨⟨lived.withStatus .completed, within, nofun, fun _ => ended⟩, nofun⟩
  · rename_i lasts
    rw [lived.same.maxTicks, Int.not_le] at lasts
    exact ⟨⟨lived, within, fun _ => lasts, by simp [running]⟩, by simp [running]⟩

/-- One request: the session comes to its end, or is interrupted before. -/
theorem Kept.step (kept : session.Kept start every calls)
    (read : start.config.interval = .ok ⟨.whole every⟩) (count : Int) :
    (session.step count).state.Kept start every (calls ++ session.ticksOfStep count) ∧
      (session.step count).state.status ≠ .created := by
  have interval : session.config.interval = .ok ⟨.whole every⟩ := kept.lived.same.config ▸ read
  unfold Session.step ticksOfStep
  by_cases completed : session.status = .completed
  · rw [if_pos completed, if_pos completed, List.append_nil]
    exact ⟨kept, by simp [Outcome.done, completed]⟩
  rw [if_neg completed, if_neg completed, interval, kept.lived.remaining_eq]
  obtain ⟨lived, status, total⟩ := (kept.lived.withStatus .running).advance read count
  dsimp only at lived status total ⊢
  generalize ticksOfPasses session.config.period ⟨.whole every⟩
    (min count (start.maxTicks - calls.count true)).toNat { session with status := .running } =
      ticks at lived total ⊢
  have counted := lived.currentTick
  have within := kept.within
  rw [List.count_append] at counted
  cases complete : (Session.advance count { session with status := .running }).completes with
  | true =>
    rw [complete, if_pos rfl] at total
    rw [Outcome.state_andThen complete]
    refine Kept.settled lived status ?_
    rw [List.count_append]
    omega
  | false =>
    rw [complete, if_neg Bool.false_ne_true] at total
    rw [Outcome.andThen_of_not_completes complete]
    refine ⟨⟨lived, ?_, fun _ => ?_, by simp [status]⟩, by simp [status]⟩
    · rw [List.count_append]
      omega
    · rw [counted]
      omega

theorem served_cons (request : TickRequest) (rest : List TickRequest) (session : Session) :
    session.served (request :: rest) = (session.step (request.ticks session)).state.served rest :=
  rfl

/-- Nothing happens in a session after its end. -/
theorem served_of_completed (completed : session.status = .completed)
    (requests : List TickRequest) : session.served requests = session := by
  induction requests with
  | nil => rfl
  | cons request rest ih =>
    have stays : session.step (request.ticks session) = .done session := if_pos completed
    rw [served_cons, stays]
    exact ih

/-- Induction on the requests. -/
theorem Kept.served (kept : session.Kept start every calls)
    (read : start.config.interval = .ok ⟨.whole every⟩) (requests : List TickRequest) :
    (session.served requests).Kept start every (calls ++ session.ticksOf requests) ∧
      (session.status ≠ .created ∨ requests ≠ [] →
        (session.served requests).status ≠ .created) := by
  induction requests generalizing session calls with
  | nil =>
    rw [ticksOf, List.append_nil]
    exact ⟨kept, fun opened => by simpa [served] using opened⟩
  | cons request rest ih =>
    obtain ⟨next, opened⟩ := kept.step read (request.ticks session)
    obtain ⟨later, running⟩ := ih next
    rw [ticksOf, ← List.append_assoc]
    exact ⟨later, fun _ => running (.inl opened)⟩

theorem ticksOf_append (first second : List TickRequest) (session : Session) :
    session.ticksOf (first ++ second) =
      session.ticksOf first ++ (session.served first).ticksOf second := by
  induction first generalizing session with
  | nil => rfl
  | cons request rest ih => rw [List.cons_append, ticksOf, ticksOf, ih, List.append_assoc]; rfl

/-- A session that was just opened has not lived through any tick. -/
theorem kept_opened {id : Text} {name : Document} {config : Config} {world : World Float}
    {maxTicks : Int} (indexed : world.Indexed) (every : Int) :
    (Sessions.opened id name config world maxTicks).Kept
      (Sessions.opened id name config world maxTicks) every [] where
  lived := {
    same := .self _
    currentTick := rfl
    world := ⟨world.clock, rfl, indexed.at_self⟩
    chosen := rfl
    looks := fun _ _ => rfl }
  within := Nat.zero_le _
  running := nofun
  completed := nofun

end Session

theorem Config.interval_of_whole {config : Config} {every : Int}
    (whole : (config.get .snapshotInterval).number? = some (.whole every)) :
    config.interval = .ok ⟨.whole (max every 1)⟩ := by
  have least : (if every < 1 then 1 else every) = max every 1 := by omega
  rw [interval, Interval.ofDocument, whole]
  dsimp only
  rw [Interval.ofNumber, least]

namespace Sessions

variable {draws : Draws} {sessions created : Sessions} {id : Text} {session : Session}

/-- The requests for ticks, as calls for the session of an id. -/
def callsFor (draws : Draws) (id : Text) (requests : List TickRequest) : List Call :=
  requests.map fun request => ⟨draws, request.named id⟩

/-- What requests make of a session does not depend on the table that it is kept in. -/
theorem find_after (found : sessions.find session.id = .ok session) (requests : List TickRequest) :
    (sessions.after (callsFor draws session.id requests)).find session.id =
      .ok (session.served requests) := by
  induction requests generalizing sessions session with
  | nil => exact found
  | cons request rest ih =>
    have same : (session.step (request.ticks session)).state.id = session.id :=
      ((Session.Same.self session).step _).id
    have served : sessions.serve ⟨draws, request.named session.id⟩ =
        sessions.put (session.step (request.ticks session)).state := by
      cases request <;> exact state_change found _
    have placed := find_put sessions (session.step (request.ticks session)).state
    rw [callsFor, List.map_cons, after_cons, served, Session.served_cons, ← same]
    exact ih placed

/-- The life cycle of a session, also where requests fail midway. Its counter is the number of ticks
that were completed, by which its clock and its recorder go; its status tells where in its history it
stands; and nothing happens to it after its end. -/
theorem session_life_cycle {config : Config} {name : Document} {every : Int}
    (opened : (sessions.create draws config name).Reaches created)
    (whole : (config.get .snapshotInterval).number? = some (.whole every))
    (earlier later : List TickRequest) :
    ∃ world maxTicks before session, (config.buildWorld draws).outcome.1 = .ok world ∧
      config.totalTicks = .ok maxTicks ∧
      (created.after (callsFor draws sessions.nextId earlier)).find sessions.nextId = .ok before ∧
      (created.after (callsFor draws sessions.nextId (earlier ++ later))).find sessions.nextId =
        .ok session ∧
      before.currentTick ≤ session.currentTick ∧
      0 ≤ session.currentTick ∧ session.currentTick ≤ max maxTicks 0 ∧
      session.currentTick = ((Sessions.opened sessions.nextId name config world maxTicks).ticksOf
        (earlier ++ later)).count true ∧
      World.clockAfter (List.replicate session.currentTick.toNat config.period) 0.0 =
        .ok session.world.clock ∧
      session.world.siteIds = world.siteIds ∧
      (∀ site ∈ world.siteIds, session.recorder.looks site.key =
        (Session.dueTicks (max every 1) session.currentTick.toNat).map
          fun index => (site, .whole index)) ∧
      (session.status = .created → earlier ++ later = []) ∧
      (session.status = .running → session.currentTick < maxTicks) ∧
      (session.status = .completed → maxTicks ≤ session.currentTick) ∧
      (before.status = .completed → session = before) := by
  obtain ⟨world, maxTicks, built, history, rfl⟩ := reaches_create_iff.mp opened
  obtain ⟨clock, indexed⟩ : world.clock = 0.0 ∧ world.Indexed := by
    have yields := (config.yields_buildWorld draws).outcome
    rw [built] at yields
    cases yields with
    | ok kept => exact kept
  have read := Config.interval_of_whole whole
  let start := Sessions.opened sessions.nextId name config world maxTicks
  have kept : start.Kept start (max every 1) [] := Session.kept_opened indexed _
  obtain ⟨first, _⟩ := kept.served read earlier
  obtain ⟨last, created⟩ := kept.served read (earlier ++ later)
  have split : start.served (earlier ++ later) = (start.served earlier).served later :=
    List.foldl_append
  have placed := find_put { sessions with issued := sessions.issued + 1 } start
  have total : (start.served (earlier ++ later)).currentTick =
      ((start.ticksOf (earlier ++ later)).count true : Nat) := last.lived.currentTick
  have within := last.within
  rw [List.nil_append] at last within first
  obtain ⟨ended, moved, stands⟩ := last.lived.world
  refine ⟨world, maxTicks, start.served earlier, start.served (earlier ++ later), built, history,
    find_after placed earlier, find_after placed (earlier ++ later), ?_, ?_, ?_, total, ?_,
    stands.siteIds, ?_, ?_, last.running, last.completed, ?_⟩
  · rw [total, first.lived.currentTick, Session.ticksOf_append, List.count_append]
    omega
  · rw [total]
    exact Int.natCast_nonneg _
  · rw [total]
    have same : start.maxTicks = maxTicks := rfl
    omega
  · rw [total, Int.toNat_natCast, stands.clock, ← clock]
    exact moved
  · rw [total, Int.toNat_natCast]
    exact last.lived.looks
  · exact fun unserved => by_contra fun some => created (.inr some) unserved
  · intro completed
    rw [split, Session.served_of_completed completed]

end Sessions

/-- One site without industries, where no number tells how many are born when there is food: of the
ticks of its year only the first, which finds none, can be completed. -/
def Config.strandedYear : Config :=
  .withSettings [(.historyYears, .whole 1), (.recipes, .object []), (.naturalBirthRate, .null),
    (.replenishment, .object [("food", .list [.whole 10, .real 0.5])])]

theorem Sessions.session_life_cycle_strandedYear :
    ∃ created before session,
      (Sessions.empty.create .none .strandedYear .null).Reaches created ∧
      (created.after (callsFor .none Sessions.empty.nextId [.step 3])).find
        Sessions.empty.nextId = .ok before ∧
      (created.after (callsFor .none Sessions.empty.nextId ([.step 3] ++ [.runAll]))).find
        Sessions.empty.nextId = .ok session ∧
      before.currentTick ≤ session.currentTick ∧ session.currentTick = 1 ∧
      World.clockAfter [Config.strandedYear.period] 0.0 = .ok session.world.clock ∧
      session.status = .running := by
  have opened : (Sessions.empty.create .none .strandedYear .null).Reaches _ :=
    Outcome.completes_iff_reaches_state.mp (by decide +kernel)
  have whole : (Config.strandedYear.get .snapshotInterval).number? = some (.whole 5) := by
    simp [Config.strandedYear, Config.withSettings, Config.get, Config.standard, Table.setAll,
      Table.getElem_set, Parameter.standard, Document.whole, Document.number?]
  obtain ⟨world, maxTicks, before, session, _, _, first, found, grows, _, _, _, clock, _⟩ :=
    session_life_cycle opened whole [.step 3] [.runAll]
  have reached : (((Sessions.empty.create .none .strandedYear .null).state.after
      (callsFor .none Sessions.empty.nextId ([.step 3] ++ [.runAll]))).find
        Sessions.empty.nextId).toOption.map (fun session => (session.currentTick, session.status)) =
          some (1, .running) := by decide +kernel
  rw [found] at reached
  obtain ⟨ticks, status⟩ := Prod.mk.inj (Option.some.inj reached)
  rw [ticks] at clock
  exact ⟨_, before, session, opened, first, found, grows, ticks, clock, status⟩

end Settlement
