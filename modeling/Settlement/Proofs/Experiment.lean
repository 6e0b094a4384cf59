import Settlement.Experiment.Run
import Settlement.Proofs.Attempt
/-!
Experiments. One comes to its end where its world can be built and simulated and its ticks counted;
it then tells of the world that the simulation ends in.
-/
namespace Settlement.Experiment

theorem outcome_run_eq_ok_iff {draws : Draws} {config : Config} {record : Bool}
    {ticks : Option (Given Float)} {experiment : Experiment} :
    (run draws config record ticks).outcome.1 = .ok experiment ↔
      ∃ world observed ticksRun, (config.buildWorld draws).outcome.1 = .ok world ∧
        (config.simulate (if record then [Recorder.observe] else []) ticks
          ⟨world, .fresh none⟩).Reaches observed ∧
        config.ticksToRun ticks = .ok ticksRun ∧
        experiment = {
          config, ticksRun
          world := observed.world
          recorder := if record then some observed.memory else none
          summary := .ofWorld observed.world (if record then some observed.memory else none) } := by
  simp only [run, Attempt.outcome, Attempt.run_bind_eq_ok_iff, Attempt.run_ofOutcome_eq_ok_iff,
    Attempt.run_liftM_eq_ok_iff, Attempt.run_pure_eq_ok_iff]
  constructor
  · intro ran
    obtain ⟨world, built, observed, simulated, ticksRun, counted, rfl⟩ := ran
    exact ⟨world, observed, ticksRun, built, simulated, counted, rfl⟩
  · intro holds
    obtain ⟨world, observed, ticksRun, built, simulated, counted, rfl⟩ := holds
    exact ⟨world, built, observed, simulated, ticksRun, counted, rfl⟩

end Settlement.Experiment
