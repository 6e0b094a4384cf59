import Settlement.Proofs.Exact.Rules
import Settlement.Proofs.Outcome
import Settlement.Proofs.Table
/-!
Renewal in exact arithmetic: stocks shrink by a part of themselves and grow back by a part of what
they lack, and the population grows by its own rate.
-/
namespace Settlement

theorem Target.regrow_nonneg {target : Target ℝ} (rate : 0 ≤ target.rate) {stock : ℝ}
    (stock_nonneg : 0 ≤ stock) : 0 ≤ target.regrow stock := by
  unfold regrow
  split
  · rename_i below
    exact add_nonneg stock_nonneg (mul_nonneg (sub_nonneg.mpr (le_of_lt below)) rate)
  · exact stock_nonneg

namespace Replenisher

/-- What a good grows toward, if it grows back. -/
def target? : Replenisher ℝ → Good → Option (Target ℝ)
  | barren, _ => none
  | renewable targets, good => targets.find? good

/-- No good grows away from its target. -/
def Restoring (replenisher : Replenisher ℝ) : Prop :=
  ∀ good target, replenisher.target? good = some target → 0 ≤ target.rate

theorem getElem_replenish (replenisher : Replenisher ℝ) (stocks : Table Good ℝ) (good : Good) :
    (replenisher.replenish stocks)[good] =
      (replenisher.target? good).elim stocks[good] fun target => target.regrow stocks[good] := by
  cases replenisher with
  | barren => rfl
  | renewable targets =>
    exact Table.getElem_foldl_modify targets (fun entry stock => entry.2.regrow stock) stocks good

theorem replenish_nonneg {replenisher : Replenisher ℝ} (restoring : replenisher.Restoring)
    {stocks : Table Good ℝ} {good : Good} (stock_nonneg : 0 ≤ stocks[good]) :
    0 ≤ (replenisher.replenish stocks)[good] := by
  rw [getElem_replenish]
  cases grows : replenisher.target? good with
  | none => exact stock_nonneg
  | some target => exact target.regrow_nonneg (restoring good target grows) stock_nonneg

end Replenisher

/-- By how much of itself a population grows in a year. -/
noncomputable def ExactRules.growth (rules : ExactRules) (foodSurplus : ℝ) : ℝ :=
  (if 0 < foodSurplus then rules.birthRate else 0) - rules.deathRate

namespace Economy

variable (economy : Economy ℝ)

theorem getElem_stocks_decayed (decay : Table Good ℝ) (good : Good) :
    (economy.decayed decay).stocks[good] = economy.stocks[good] * (1 - decay[good]) :=
  Table.getElem_zipWith _ _ _ _

theorem getElem_stocks_floored (good : Good) :
    economy.floored.stocks[good] = max 0 economy.stocks[good] := by
  rw [floored, Table.getElem_map]
  split
  · rename_i empty
    exact (max_eq_left empty).symm
  · rename_i some
    exact (max_eq_right (le_of_lt (not_le.mp some))).symm

/-- The population after some days, before it is stopped at zero. -/
noncomputable def populationAfter (rules : ExactRules) (days : ℝ) : ℝ :=
  economy.population +
    days / daysPerYear * economy.population * rules.growth economy.surplus[Good.food]

/-- The economy with its population after some days. -/
noncomputable def aged (rules : ExactRules) (days : ℝ) : Economy ℝ :=
  { economy with
    population :=
      if rules.clamped then max 0 (economy.populationAfter rules days)
      else economy.populationAfter rules days }

variable {economy} {after : Economy ℝ} {inexact : Rules ℝ} {rules : ExactRules}

theorem growth_eq (denotes : inexact.Denotes rules) :
    economy.growth inexact.demography = .ok (rules.growth economy.surplus[Good.food]) := by
  have births : (economy.births inexact.demography).Denotes
      (if 0 < economy.surplus[Good.food] then rules.birthRate else 0) := by
    unfold Economy.births
    split
    · exact denotes.birthRate
    · exact .real 0
  obtain ⟨difference, success, exact⟩ := births.minus denotes.deathRate
  rw [Economy.growth, success]
  exact exact.operand _

theorem reaches_growPopulation_iff_eq (denotes : inexact.Denotes rules) {given : Given ℝ}
    {days : ℝ} (length : given.Denotes days) :
    (economy.growPopulation inexact.demography given).Reaches after ↔
      after = economy.aged rules days := by
  have grown : economy.grown inexact.demography given =
      .ok (economy.populationAfter rules days) := by
    rw [Economy.grown, length.operand, growth_eq denotes]
    rfl
  rw [growPopulation, grown, Outcome.given_ok, peopled, denotes.clamped, aged]
  cases rules.clamped with
  | false => simp [eq_comm]
  | true =>
    by_cases extinct : economy.populationAfter rules days < 0
    · simp [extinct, max_eq_left (le_of_lt extinct), eq_comm]
    · simp [extinct, max_eq_right (not_lt.mp extinct), eq_comm]

end Economy

end Settlement
