import Settlement.Proofs.Exact.Run
/-!
Safety of runs. A world whose catalog passed its check never fails under safe parameters, and the
workforces whose powers its ticks take are never negative.
-/
namespace Settlement

namespace Economy

/-- The next tick takes no power of a negative workforce, whichever group it has come to. -/
def RaisesNoNegative (rules : Rules ℝ) (catalog : Catalog ℝ) (economy : Economy ℝ) : Prop :=
  ∀ staffed, (economy.staff rules catalog).Reaches staffed →
    ∀ front group back, catalog.orders = front ++ group :: back →
      ∀ running, (Outcome.each front (runGroup catalog.outputs rules.exponent staffed.stocks
          (economy.totals catalog).demand) staffed).Reaches running →
        ∀ labor, group.labor = some labor → 0 ≤ running.scale (some labor)

variable {economy : Economy ℝ} {inexact : Rules ℝ} {rules : ExactRules} {catalog : Catalog ℝ}

private theorem scale_eq_of_reaches_each {given : Given ℝ} {exponent : ℝ}
    (denotes : given.Denotes exponent) {outputs : OrderedMap Labor (Output ℝ)}
    {before demand : Table Good ℝ} {groups : List (OrderGroup ℝ)} {staffed running : Economy ℝ}
    (ran : (Outcome.each groups (runGroup outputs given before demand) staffed).Reaches running) :
    running.scale = staffed.scale := by
  have keeps : ∀ group ∈ groups, ∀ first second : Economy ℝ, first.scale = staffed.scale →
      (runGroup outputs given before demand group first).Reaches second →
        second.scale = staffed.scale := by
    intro group _ first second same step
    obtain ⟨_, rfl⟩ := (reaches_runGroup_iff_eq denotes).mp step
    exact scale_afterGroup.trans same
  exact ran.each_keeps keeps rfl

theorem NonNegative.raisesNoNegative (nonneg : economy.NonNegative)
    (denotes : inexact.Denotes rules) (safe : rules.Safe) :
    economy.RaisesNoNegative inexact catalog := by
  intro staffed staff front group back _ running ran labor _
  obtain ⟨_, _, rfl⟩ := (reaches_staff_iff_eq denotes).mp staff
  rw [scale_eq_of_reaches_each denotes.exponent ran]
  exact scale_nonneg _ (nonneg.shares_employed safe) _

end Economy

namespace World

variable {world : World ℝ} {rules : ExactRules} {lengths : List (Given ℝ)}

/-- No run of a checked world fails, and no tick takes a power of a negative workforce. -/
theorem checked_run_never_fails (denotes : world.rules.Denotes rules) (safe : rules.Safe)
    (exponent : 0 ≤ rules.exponent) (checked : world.catalog.check = .ok ())
    (indexed : world.Indexed) (sites : ∀ site ∈ world.sites.values, site.economy.NonNegative)
    (forwards : ∀ given ∈ lengths, ∃ days, 0 ≤ days ∧ given.Denotes days) :
    ∃ reached, (world.run lengths).Reaches reached ∧
      ∀ site ∈ reached.sites.values,
        site.economy.RaisesNoNegative world.rules world.catalog := by
  have valid := Catalog.check_eq_ok_iff.mp checked
  obtain ⟨reached, ran⟩ := exists_reaches_run denotes safe exponent valid indexed forwards
  refine ⟨reached, ran, ?_⟩
  intro site member
  obtain ⟨start, present, laps, _⟩ := indexed.exists_of_mem_reached ran member
  have nonneg : site.economy.NonNegative :=
    laps_keep denotes (fun _ _ _ held => held.ticked safe valid) forwards laps
      (sites start present)
  exact nonneg.raisesNoNegative denotes safe

theorem checked_run_never_fails_mills :
    ∃ reached, (mills.run [.whole 30, .real 0, .real (1 / 2)]).Reaches reached ∧
      ∀ site ∈ reached.sites.values,
        site.economy.RaisesNoNegative mills.rules mills.catalog := by
  refine checked_run_never_fails (Rules.ofExact_denotes _) ExactRules.standard_admissible.safe
    ExactRules.standard_exponent_nonneg Catalog.check_mill mills_indexed ?_ ?_
  · have nonneg := Economy.mill_sound.nonNegative ExactRules.standard_admissible
    simp [mills, OrderedMap.values, nonneg]
  · have month : (Given.whole 30 : Given ℝ).Denotes ((30 : Int) : ℝ) := .whole rfl
    have none : (Given.real 0 : Given ℝ).Denotes 0 := .real 0
    have half : (Given.real (1 / 2) : Given ℝ).Denotes (1 / 2) := .real _
    simp only [List.forall_mem_cons]
    exact ⟨⟨_, by norm_num, month⟩, ⟨_, le_refl 0, none⟩, ⟨_, by norm_num, half⟩, by simp⟩

end World

end Settlement
