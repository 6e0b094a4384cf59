import Settlement.Config.Schedule
import Settlement.Proofs.Outcome
/-!
What a simulation does besides its notes: passes, numbered from zero, each of them a tick and then
a look at the world if one is due. What ticks and looks keep, a simulation keeps, whatever stops it.
-/
namespace Settlement

/-- A tick whose year can not be noted does not begin, and to note the year is no part of it. -/
theorem World.state_noteYear_andThen_tick_eq_or {R : Type} [Scalar R] (world : World R)
    (period : Given R) : (world.noteYear.andThen (World.tick period)).state = world ∨
      (world.noteYear.andThen (World.tick period)).state = (world.tick period).state := by
  unfold World.noteYear
  cases world.noteworthyYear with
  | error fault => exact .inl rfl
  | ok year => exact .inr rfl

namespace Observed

variable {R μ : Type} [Scalar R]

/-- One tick, and a look at the world if one is due. -/
def pass (period : Given R) (interval : Interval) (observers : List (Observer R μ)) (index : Nat)
    (observed : Observed R μ) : Outcome (Observed R μ) :=
  ((observed.world.tick period).map fun world => { observed with world }).andThen fun observed =>
    if interval.isDue index then observed.observe observers index else .done observed

/-- A number of passes. -/
def passes (period : Given R) (interval : Interval) (observers : List (Observer R μ))
    (count : Nat) (observed : Observed R μ) : Outcome (Observed R μ) :=
  Outcome.each (List.range count) (pass period interval observers) observed

variable {period : Given R} {interval : Interval} {observers : List (Observer R μ)}
  {first last : Observed R μ}

theorem reaches_passes_succ {count : Nat} :
    (passes period interval observers (count + 1) first).Reaches last ↔
      ∃ middle, (passes period interval observers count first).Reaches middle ∧
        (pass period interval observers count middle).Reaches last := by
  rw [passes, List.range_succ, Outcome.reaches_each_concat]
  rfl

theorem reaches_pass_of_step {index : Nat}
    (stepped : (step period interval observers index first).Reaches last) :
    (pass period interval observers index first).Reaches last := by
  obtain ⟨ticked, moves, looked⟩ := Outcome.reaches_andThen.mp stepped
  obtain ⟨world, tick, rfl⟩ := Outcome.reaches_map.mp moves
  obtain ⟨same, noted, tick⟩ := Outcome.reaches_andThen.mp tick
  -- To note the year leaves the world as it is.
  obtain ⟨_, _, noted⟩ := Outcome.reaches_given.mp noted
  obtain rfl := Outcome.reaches_noted.mp noted
  exact Outcome.reaches_andThen.mpr ⟨_, Outcome.reaches_map.mpr ⟨world, tick, rfl⟩, looked⟩

theorem reaches_passes_of_run {ticks : Int}
    (ran : (run period interval observers ticks first).Reaches last) :
    (passes period interval observers ticks.toNat first).Reaches last := by
  rw [run, Outcome.steps_eq_each] at ran
  exact ran.each_imp fun _ _ _ _ => reaches_pass_of_step

theorem reaches_passes_of_simulate {ticks : Int}
    (ran : (simulate period interval observers (.whole ticks) first).Reaches last) :
    (passes period interval observers ticks.toNat first).Reaches last := by
  obtain ⟨_, _, simulated⟩ := Outcome.reaches_given.mp ran
  obtain ⟨_, opened, closing⟩ := Outcome.reaches_andThen.mp simulated
  obtain rfl := Outcome.reaches_noted.mp closing
  obtain ⟨_, opening, counted⟩ := Outcome.reaches_andThen.mp opened
  obtain rfl := Outcome.reaches_noted.mp opening
  obtain ⟨_, count, ran⟩ := Outcome.reaches_given.mp counted
  cases count
  exact reaches_passes_of_run ran

/-- What ticks and looks keep, also those that a fault stops, a simulation keeps. -/
theorem state_simulate_keeps {property : Observed R μ → Prop}
    (ticks : ∀ running, property running →
      property { running with world := (running.world.tick period).state })
    (looks : ∀ (index : Nat) running, property running →
      property (observe observers index running).state)
    (count : Given R) (start : property first) :
    property (simulate period interval observers count first).state := by
  have stepped (index : Nat) (running : Observed R μ) (held : property running) :
      property (step period interval observers index running).state := by
    refine Outcome.state_andThen_keeps property ?_ fun after before => ?_
    · show property { running with
        world := (running.world.noteYear.andThen (World.tick period)).state }
      obtain same | ticked := running.world.state_noteYear_andThen_tick_eq_or period
      · rwa [same]
      · rw [ticked]
        exact ticks running held
    · split
      · exact looks index after before
      · exact before
  refine Outcome.state_given_keeps property start fun years _ => ?_
  refine Outcome.state_andThen_keeps property ?_ fun after before => before
  refine Outcome.state_andThen_keeps property start fun after before => ?_
  refine Outcome.state_given_keeps property before fun count _ => ?_
  rw [run, Outcome.steps_eq_each]
  exact Outcome.state_each_keeps property (fun index _ => stepped index) before

end Observed

/-- A simulation reads its interval once, and then passes as often as it was asked to. -/
theorem Config.reaches_passes_of_simulate {μ : Type} {config : Config}
    {observers : List (Observer Float μ)} {ticks : Int} {first last : Observed Float μ}
    (ran : (config.simulate observers (some (.whole ticks)) first).Reaches last) :
    ∃ interval, config.interval = .ok interval ∧
      (Observed.passes config.period interval observers ticks.toNat first).Reaches last := by
  obtain ⟨schedule, read, ran⟩ := Outcome.reaches_given.mp ran
  unfold Config.schedule at read
  cases interval : config.interval with
  | error fault =>
    rw [interval] at read
    cases read
  | ok due =>
    rw [interval] at read
    cases read
    exact ⟨due, rfl, Observed.reaches_passes_of_simulate ran⟩

end Settlement
