import Settlement.Proofs.Experiment
import Settlement.Proofs.Session.LifeCycle
/-!
The schedule of a simulation. A simulation ends in the world that as many ticks end in, and after
every tick whose index the interval divides, each of its observers has looked once, in order, at the
world as it then was. Nothing that observers remember reaches the world.
-/
namespace Settlement

namespace World

variable {R : Type} [Scalar R] {world last : World R} {days : Given R}

theorem reaches_ticks_succ {count : Nat} :
    (ticks (count + 1) days world).Reaches last ↔
      ∃ middle, (ticks count days world).Reaches middle ∧ (tick days middle).Reaches last := by
  rw [ticks, ticks, Outcome.steps_eq_each, Outcome.steps_eq_each, List.range_succ,
    Outcome.reaches_each_concat]

/-- Induction on the later ticks. -/
theorem reaches_ticks_add {count more : Nat} :
    (ticks (count + more) days world).Reaches last ↔
      ∃ middle, (ticks count days world).Reaches middle ∧
        (ticks more days middle).Reaches last := by
  induction more generalizing last with
  | zero =>
    constructor
    · intro ticked
      exact ⟨last, ticked, Outcome.reaches_done.mpr rfl⟩
    · intro holds
      obtain ⟨middle, ticked, still⟩ := holds
      exact Outcome.reaches_done.mp still ▸ ticked
  | succ more ih =>
    rw [← Nat.add_assoc, reaches_ticks_succ]
    constructor
    · intro holds
      obtain ⟨before, ticked, last⟩ := holds
      obtain ⟨middle, first, later⟩ := ih.mp ticked
      exact ⟨middle, first, reaches_ticks_succ.mpr ⟨before, later, last⟩⟩
    · intro holds
      obtain ⟨middle, first, ticked⟩ := holds
      obtain ⟨before, later, last⟩ := reaches_ticks_succ.mp ticked
      exact ⟨before, ih.mpr ⟨middle, first, later⟩, last⟩

theorem ticks_eq_run (count : Nat) (days : Given R) (world : World R) :
    ticks count days world = world.run (List.replicate count days) := by
  have lengths : List.replicate count days = (List.range count).map fun _ => days := by
    rw [List.map_const', List.length_range]
  rw [ticks, Outcome.steps_eq_each, run, lengths, Outcome.each_map]

/-- Ticks that come to their end have come through each of them. -/
theorem completes_ticks_of_le {index count : Nat} (within : index ≤ count)
    (ticked : (ticks count days world).Reaches last) :
    (ticks index days world).completes = true := by
  obtain ⟨more, rfl⟩ := Nat.exists_eq_add_of_le within
  obtain ⟨middle, first, _⟩ := reaches_ticks_add.mp ticked
  exact Outcome.completes_iff_exists_reaches.mpr ⟨middle, first⟩

/-- To note the year leaves the world as it is, if the year can be told. -/
theorem reaches_noteYear_iff :
    world.noteYear.Reaches last ↔ world = last ∧ ∃ year, world.noteworthyYear = .ok year := by
  simp [noteYear, and_comm]

end World

/-- A look of an observer at a world, after the tick of an index. -/
structure Look (R μ : Type) where
  observer : Observer R μ
  index : Nat
  world : World R

namespace Look

variable {R μ : Type}

def take (look : Look R μ) (memory : μ) : Outcome μ := look.observer look.index look.world memory

/-- One look of each observer, in order. -/
def round (observers : List (Observer R μ)) (index : Nat) (world : World R) : List (Look R μ) :=
  observers.map fun observer => ⟨observer, index, world⟩

/-- The looks that are due in the course of some ticks: a round after each tick whose index is
divided, at the world as it is after that tick. -/
def due [Scalar R] (period : Given R) (every : Int) (observers : List (Observer R μ)) (count : Nat)
    (world : World R) : List (Look R μ) :=
  (Session.dueTicks every count).flatMap fun index =>
    round observers index (World.ticks (index + 1) period world).state

theorem due_succ [Scalar R] (period : Given R) (every : Int) (observers : List (Observer R μ))
    (count : Nat) (world : World R) :
    due period every observers (count + 1) world = due period every observers count world ++
      if every ∣ count then round observers count (World.ticks (count + 1) period world).state
      else [] := by
  rw [due, Session.dueTicks_succ, List.flatMap_append, due]
  split <;> simp

end Look

namespace Observed

variable {R μ : Type} [Scalar R] {period : Given R} {every : Int} {observers : List (Observer R μ)}
  {first last : Observed R μ}

/-- The schedule of a number of ticks: the world goes through them, the year can be told before
each, and the observers take the looks that are due. -/
structure Follows (period : Given R) (every : Int) (observers : List (Observer R μ)) (count : Nat)
    (first last : Observed R μ) : Prop where
  years : ∀ index < count, ∃ year,
    (World.ticks index period first.world).state.noteworthyYear = .ok year
  world : (World.ticks count period first.world).Reaches last.world
  looks : (Outcome.each (Look.due period every observers count first.world) Look.take
    first.memory).Reaches last.memory

omit [Scalar R] in
/-- To let the observers look leaves the world as it is. -/
theorem reaches_observe_iff {index : Nat} :
    (first.observe observers index).Reaches last ↔ last.world = first.world ∧
      (Outcome.each (Look.round observers index first.world) Look.take first.memory).Reaches
        last.memory := by
  rw [observe, Outcome.reaches_map, Look.round, Outcome.each_map]
  constructor
  · intro holds
    obtain ⟨memory, looked, rfl⟩ := holds
    exact ⟨rfl, looked⟩
  · intro holds
    obtain ⟨same, looked⟩ := holds
    exact ⟨last.memory, looked, same ▸ rfl⟩

omit [Scalar R] in
theorem reaches_observe_if_due_iff {index : Nat} :
    (if Interval.isDue ⟨.whole every⟩ index then first.observe observers index
      else .done first).Reaches last ↔ last.world = first.world ∧
      (Outcome.each (if every ∣ index then Look.round observers index first.world else [])
        Look.take first.memory).Reaches last.memory := by
  by_cases due : every ∣ (index : Int)
  · rw [if_pos (Session.isDue_iff.mpr due), if_pos due, reaches_observe_iff]
  · rw [if_neg (Session.isDue_iff.not.mpr due), if_neg due, Outcome.reaches_done,
      Outcome.reaches_each_nil]
    constructor
    · rintro rfl
      exact ⟨rfl, rfl⟩
    · intro holds
      obtain ⟨world, memory⟩ := holds
      exact congrArg₂ Observed.mk world.symm memory

/-- One step: the year is told, the world is ticked, and a round is taken where one is due. -/
theorem reaches_step_iff {index : Nat} :
    (step period ⟨.whole every⟩ observers index first).Reaches last ↔
      (∃ year, first.world.noteworthyYear = .ok year) ∧
        (first.world.tick period).Reaches last.world ∧
        (Outcome.each (if every ∣ index then Look.round observers index last.world else [])
          Look.take first.memory).Reaches last.memory := by
  simp only [step, Outcome.reaches_andThen, Outcome.reaches_map, World.reaches_noteYear_iff,
    reaches_observe_if_due_iff]
  constructor
  · intro holds
    obtain ⟨_, ⟨world, ⟨_, ⟨rfl, year⟩, ticked⟩, rfl⟩, same, looked⟩ := holds
    rw [same]
    exact ⟨year, ticked, looked⟩
  · intro holds
    obtain ⟨year, ticked, looked⟩ := holds
    exact ⟨_, ⟨last.world, ⟨_, ⟨rfl, year⟩, ticked⟩, rfl⟩, rfl, looked⟩

theorem follows_zero_iff : Follows period every observers 0 first last ↔ first = last := by
  constructor
  · intro follows
    exact congrArg₂ Observed.mk (Outcome.reaches_done.mp follows.world)
      (Outcome.reaches_done.mp follows.looks)
  · rintro rfl
    exact ⟨fun index within => absurd within (Nat.not_lt_zero index),
      Outcome.reaches_done.mpr rfl, Outcome.reaches_done.mpr rfl⟩

/-- One tick more adds its own round to the schedule. -/
theorem follows_succ_iff {count : Nat} :
    Follows period every observers (count + 1) first last ↔
      ∃ middle, Follows period every observers count first middle ∧
        (∃ year, middle.world.noteworthyYear = .ok year) ∧
        (middle.world.tick period).Reaches last.world ∧
        (Outcome.each (if every ∣ count then Look.round observers count last.world else [])
          Look.take middle.memory).Reaches last.memory := by
  constructor
  · intro follows
    obtain ⟨world, before, ticked⟩ := World.reaches_ticks_succ.mp follows.world
    have looks := follows.looks
    rw [Look.due_succ, follows.world.state_eq, Outcome.reaches_each_append] at looks
    obtain ⟨memory, earlier, looked⟩ := looks
    have year := follows.years count (Nat.lt_succ_self count)
    rw [before.state_eq] at year
    exact ⟨⟨world, memory⟩, ⟨fun index within => follows.years index (Nat.lt_succ_of_lt within),
      before, earlier⟩, year, ticked, looked⟩
  · intro holds
    obtain ⟨middle, before, year, ticked, looked⟩ := holds
    have ended : (World.ticks (count + 1) period first.world).Reaches last.world :=
      World.reaches_ticks_succ.mpr ⟨middle.world, before.world, ticked⟩
    refine ⟨?_, ended, ?_⟩
    · intro index within
      rcases Nat.lt_succ_iff_lt_or_eq.mp within with earlier | rfl
      · exact before.years index earlier
      · rw [before.world.state_eq]
        exact year
    · rw [Look.due_succ, ended.state_eq, Outcome.reaches_each_append]
      exact ⟨middle.memory, before.looks, looked⟩

/-- Induction on the ticks. -/
theorem reaches_steps_iff {count : Nat} :
    (Outcome.steps count (step period ⟨.whole every⟩ observers) first).Reaches last ↔
      Follows period every observers count first last := by
  induction count generalizing last with
  | zero => rw [Outcome.steps, Outcome.stepsFrom, Outcome.reaches_done, follows_zero_iff]
  | succ count ih =>
    rw [Outcome.steps_eq_each, List.range_succ, Outcome.reaches_each_concat,
      ← Outcome.steps_eq_each, follows_succ_iff]
    simp only [ih, reaches_step_iff]

/-- A simulation follows its schedule. It fails besides only where the years that it takes cannot be
told. -/
theorem reaches_simulate_iff {ticks : Given R} :
    (first.simulate period ⟨.whole every⟩ observers ticks).Reaches last ↔
      (∃ years, yearsOf ticks period = .ok years) ∧ ∃ count, ticks.whole? = some count ∧
        Follows period every observers count.toNat first last := by
  simp only [simulate, Outcome.reaches_given, Outcome.reaches_andThen, Outcome.reaches_noted, run,
    reaches_steps_iff, Given.count_eq_ok_iff]
  constructor
  · intro holds
    obtain ⟨years, told, _, ⟨_, rfl, count, counted, follows⟩, rfl⟩ := holds
    exact ⟨⟨years, told⟩, count, counted, follows⟩
  · intro holds
    obtain ⟨⟨years, told⟩, count, counted, follows⟩ := holds
    exact ⟨years, told, last, ⟨_, rfl, count, counted, follows⟩, rfl⟩

/-- What observers remember is of no account to the world. -/
theorem Follows.withoutObservers {count : Nat}
    (follows : Follows period every observers count first last) {ν : Type} (memory : ν) :
    Follows period every [] count ⟨first.world, memory⟩ ⟨last.world, memory⟩ := by
  have none : Look.due period every ([] : List (Observer R ν)) count first.world = [] := by
    simp [Look.due, Look.round]
  refine ⟨follows.years, follows.world, ?_⟩
  rw [none, Outcome.reaches_each_nil]

end Observed

namespace Config

variable {μ : Type} {config : Config} {every : Int} {observers : List (Observer Float μ)}
  {ticks : Option (Given Float)} {first last : Observed Float μ}

/-- A simulation by a configuration whose interval is a whole number. -/
theorem reaches_simulate_iff
    (whole : (config.get .snapshotInterval).number? = some (.whole every)) :
    (config.simulate observers ticks first).Reaches last ↔
      ∃ given, config.ticksToRun ticks = .ok given ∧
        (∃ years, yearsOf given config.period = .ok years) ∧ ∃ count, given.whole? = some count ∧
          Observed.Follows config.period (max every 1) observers count.toNat first last := by
  constructor
  · intro ran
    obtain ⟨schedule, read, ran⟩ := Outcome.reaches_given.mp ran
    obtain ⟨given, asked, read⟩ := bind_eq_ok_iff.mp read
    rw [interval_of_whole whole] at read
    cases read
    exact ⟨given, asked, Observed.reaches_simulate_iff.mp ran⟩
  · intro holds
    obtain ⟨given, asked, follows⟩ := holds
    have read : config.schedule ticks = .ok ⟨given, ⟨.whole (max every 1)⟩⟩ := by
      rw [schedule, asked, interval_of_whole whole]
      rfl
    exact Outcome.reaches_given.mpr ⟨_, read, Observed.reaches_simulate_iff.mpr follows⟩

/-- A simulation of a number of ticks, with any observers, leads from one world to another. -/
def Simulates (config : Config) (count : Int) (before after : World Float) : Prop :=
  ∃ (μ : Type) (observers : List (Observer Float μ)) (ticks : Option (Given Float))
    (given : Given Float) (first last : Observed Float μ),
    config.ticksToRun ticks = .ok given ∧ given.whole? = some count ∧
      (config.simulate observers ticks first).Reaches last ∧
      first.world = before ∧ last.world = after

theorem Simulates.reaches_ticks {count : Int} {before after : World Float}
    (whole : (config.get .snapshotInterval).number? = some (.whole every))
    (simulates : config.Simulates count before after) :
    (World.ticks count.toNat config.period before).Reaches after := by
  obtain ⟨_, _, _, given, first, last, asked, counted, ran, rfl, rfl⟩ := simulates
  obtain ⟨same, again, _, total, agrees, follows⟩ := (reaches_simulate_iff whole).mp ran
  cases asked.symm.trans again
  cases counted.symm.trans agrees
  exact follows.world

/-- A simulation follows its schedule, whatever the arithmetic of the world comes to. It ends in the
world that as many ticks end in as it says it has run, and each of its observers, in order, has
looked after just those ticks whose index the interval divides, at the world as it was after them.
The observers have no influence on the world, and one simulation after another leaves the world that
one simulation of all their ticks leaves. -/
theorem simulation_follows_schedule
    (whole : (config.get .snapshotInterval).number? = some (.whole every))
    (ran : (config.simulate observers ticks first).Reaches last) :
    ∃ given count, config.ticksToRun ticks = .ok given ∧ given.whole? = some count ∧
      (∀ index ≤ count.toNat,
        (World.ticks index config.period first.world).completes = true) ∧
      (World.ticks count.toNat config.period first.world).Reaches last.world ∧
      (Outcome.each (Look.due config.period (max every 1) observers count.toNat first.world)
        Look.take first.memory).Reaches last.memory ∧
      (∀ {ν : Type} (memory : ν), (config.simulate [] ticks ⟨first.world, memory⟩).Reaches
        ⟨last.world, memory⟩) ∧
      (∀ other, config.Simulates count first.world other → other = last.world) ∧
      (∀ more resumed entire, 0 ≤ count → 0 ≤ more → config.Simulates more last.world resumed →
        config.Simulates (count + more) first.world entire → resumed = entire) ∧
      (∀ draws record experiment,
        (Experiment.run draws config record ticks).outcome.1 = .ok experiment →
          experiment.ticksRun = given ∧
            ((config.buildWorld draws).outcome.1 = .ok first.world →
              experiment.world = last.world)) := by
  obtain ⟨given, asked, years, count, counted, follows⟩ := (reaches_simulate_iff whole).mp ran
  refine ⟨given, count, asked, counted,
    fun index within => World.completes_ticks_of_le within follows.world, follows.world,
    follows.looks, fun memory => ?_, fun other simulates => ?_, ?_, ?_⟩
  · exact (reaches_simulate_iff whole).mpr
      ⟨given, asked, years, count, counted, follows.withoutObservers memory⟩
  · exact (simulates.reaches_ticks whole).unique follows.world
  · intro more resumed entire some others later total
    have split : (count + more).toNat = count.toNat + more.toNat := by omega
    have ticked := total.reaches_ticks whole
    rw [split] at ticked
    obtain ⟨middle, before, after⟩ := World.reaches_ticks_add.mp ticked
    cases before.unique follows.world
    exact (later.reaches_ticks whole).unique after
  · intro draws record experiment reported
    obtain ⟨world, observed, ticksRun, built, simulated, same, rfl⟩ :=
      Experiment.outcome_run_eq_ok_iff.mp reported
    cases asked.symm.trans same
    refine ⟨rfl, fun starts => ?_⟩
    cases built.symm.trans starts
    have simulates : config.Simulates count first.world observed.world :=
      ⟨_, _, ticks, given, _, observed, asked, counted, simulated, rfl, rfl⟩
    exact (simulates.reaches_ticks whole).unique follows.world

end Config

/-- An observer that remembers its mark with the index of every tick that it looks after. -/
def Observer.marking (mark : Nat) : Observer Float (List (Nat × Int)) :=
  fun index _ seen => .done (seen ++ [(mark, index)])

theorem Config.quietYear_builds :
    (Config.quietYear.buildWorld .none).outcome.1.toOption.isSome = true := by
  decide +kernel

/-- The world of a quiet year. -/
def World.quiet : World Float :=
  (Config.quietYear.buildWorld .none).outcome.1.toOption.get Config.quietYear_builds

namespace Config

/-- Three quarters of a quiet year, as two observers see them. -/
def threeQuarters : Outcome (Observed Float (List (Nat × Int))) :=
  quietYear.simulate [.marking 0, .marking 1] (some (.whole 3)) ⟨.quiet, []⟩

/-- The last quarter, as another observer sees it. -/
def lastQuarter : Outcome (Observed Float (List (Nat × Int))) :=
  quietYear.simulate [.marking 2] (some (.whole 1)) ⟨threeQuarters.state.world, []⟩

theorem simulation_follows_schedule_quietYear :
    ∃ before after, threeQuarters.Reaches before ∧
      before.memory = [(0, 0), (1, 0), (0, 2), (1, 2)] ∧
      (World.ticks 3 quietYear.period .quiet).Reaches before.world ∧
      lastQuarter.Reaches after ∧ after.memory = [(2, 0)] ∧
      (World.ticks 1 quietYear.period before.world).Reaches after.world ∧
      ∀ entire, quietYear.Simulates 4 .quiet entire → after.world = entire := by
  have whole : (quietYear.get .snapshotInterval).number? = some (.whole 2) := by
    simp [quietYear, withSettings, get, standard, Table.setAll, Table.getElem_set,
      Document.whole, Document.number?]
  have ran : threeQuarters.Reaches threeQuarters.state :=
    Outcome.completes_iff_reaches_state.mp (by decide +kernel)
  have ended : lastQuarter.Reaches lastQuarter.state :=
    Outcome.completes_iff_reaches_state.mp (by decide +kernel)
  obtain ⟨_, _, asked, counted, _, ticked, looked, _, _, resumes, _⟩ :=
    simulation_follows_schedule whole ran
  cases asked
  cases counted
  obtain ⟨_, _, asked, counted, _, later, seen, _⟩ := simulation_follows_schedule whole ended
  cases asked
  cases counted
  refine ⟨_, _, ran, (Outcome.reaches_done.mp looked).symm, ticked, ended,
    (Outcome.reaches_done.mp seen).symm, later, fun entire simulates => ?_⟩
  have resumed : quietYear.Simulates 1 threeQuarters.state.world lastQuarter.state.world :=
    ⟨_, _, _, _, _, _, rfl, rfl, ended, rfl, rfl⟩
  exact resumes 1 _ entire (by decide) (by decide) resumed simulates

end Config

end Settlement
