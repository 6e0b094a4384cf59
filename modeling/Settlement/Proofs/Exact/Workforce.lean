import Mathlib.Algebra.Order.BigOperators.Group.List
import Settlement.Proofs.Exact.Rules
import Settlement.Proofs.Outcome
import Settlement.Proofs.Table
/-!
The workforce in exact arithmetic. The next share of an industry is a mean of its old share and of
its weight, raised to the floor, over the total weight. Because of the floor these quotients sum
to more than one, but by less than the inverse divisor for every industry but one.
-/
namespace Settlement

namespace LaborRule

theorem sum_denotes (weights : List ℝ) : (sum weights).Denotes weights.sum := by
  cases weights with
  | nil =>
    have zero : (Given.whole 0 : Given ℝ).Denotes ((0 : Int) : ℝ) := .whole rfl
    exact_mod_cast zero
  | cons weight rest =>
    rw [← Scalar.sum_eq]
    exact .real _

end LaborRule

namespace Economy

variable (economy : Economy ℝ) (rules : ExactRules) (outputs : OrderedMap Labor (Output ℝ))

/-- The total weight of all industries, which has a floor of its own. -/
noncomputable def totalWeight : ℝ := max (economy.weights outputs).sum rules.ratioFloor

/-- The share that an industry moves toward: its weight, raised to the floor, over all weights. -/
noncomputable def targetShare (entry : Labor × Output ℝ) : ℝ :=
  max (economy.weight entry) (economy.totalWeight rules outputs / rules.floorDivisor) /
    economy.totalWeight rules outputs

/-- The economy with the workforce moved. -/
noncomputable def restaffed : Economy ℝ :=
  economy.reassigned outputs rules.laborSmoothing (economy.totalWeight rules outputs)
    (economy.totalWeight rules outputs / rules.floorDivisor)

theorem getElem_shares_restaffed (labor : Labor) :
    (economy.restaffed rules outputs).shares[labor] =
      (outputs.find? labor).elim economy.shares[labor] fun output =>
        rules.laborSmoothing * economy.shares[labor] +
          (1 - rules.laborSmoothing) * economy.targetShare rules outputs (labor, output) := by
  have moved := Table.getElem_foldl_modify outputs
    (fun entry share => LaborRule.share rules.laborSmoothing (economy.totalWeight rules outputs)
      (economy.totalWeight rules outputs / rules.floorDivisor) share (economy.weight entry))
    economy.shares labor
  simp only [restaffed, reassigned, targetShare]
  rw [moved]
  simp only [LaborRule.share, Scalar.larger_eq_max]

variable {economy rules outputs}

/-- Without industries there is no workforce to move. -/
theorem restaffed_of_isEmpty (empty : (economy.weights outputs).isEmpty = true) :
    economy.restaffed rules outputs = economy := by
  have none : outputs.entries = [] := by simpa [weights] using empty
  simp only [restaffed, reassigned, none, List.foldl_nil]

theorem reallocate_eq_ok_iff {inexact : Rules ℝ} (denotes : inexact.Denotes rules)
    {floor : ℝ} {after : Economy ℝ} :
    economy.reallocate inexact.labor outputs = .ok (floor, after) ↔
      rules.floorDivisor ≠ 0 ∧
        ((economy.weights outputs).isEmpty = false → economy.totalWeight rules outputs ≠ 0) ∧
        floor = economy.totalWeight rules outputs / rules.floorDivisor ∧
        after = economy.restaffed rules outputs := by
  obtain ⟨total, success, totals⟩ :=
    (LaborRule.sum_denotes (economy.weights outputs)).larger denotes.ratioFloor
  change total.Denotes (economy.totalWeight rules outputs) at totals
  have divided := totals.dividedBy_eq_ok_iff denotes.floorDivisor
  simp only [reallocate, LaborRule.total, success, bind, Except.bind]
  cases quotient : total.dividedBy inexact.labor.floorDivisor with
  | error fault =>
    have zero : rules.floorDivisor = 0 := by
      by_contra nonzero
      rw [(divided _).mpr ⟨nonzero, rfl⟩] at quotient
      cases quotient
    simp [zero]
  | ok floor =>
    obtain ⟨nonzero, rfl⟩ := (divided floor).mp quotient
    by_cases empty : (economy.weights outputs).isEmpty = true
    · simp [empty, nonzero, restaffed_of_isEmpty empty, pure, Except.pure, eq_comm]
    · simp only [empty, denotes.laborSmoothing.factor, totals.operand]
      by_cases zero : economy.totalWeight rules outputs = 0
      · simp [Scalar.isZero, zero]
      · simp [Scalar.isZero, zero, nonzero, pure, Except.pure, restaffed, eq_comm]

theorem reaches_employ_iff_eq {inexact : Rules ℝ} (denotes : inexact.Denotes rules)
    {catalog : Catalog ℝ} {after : Economy ℝ} :
    (employ inexact catalog economy).Reaches after ↔
      rules.floorDivisor ≠ 0 ∧
        ((economy.weights catalog.outputs).isEmpty = false →
          economy.totalWeight rules catalog.outputs ≠ 0) ∧
        after = economy.restaffed rules catalog.outputs := by
  simp [employ, reallocate_eq_ok_iff denotes]

theorem weight_nonneg
    (values : ∀ (good : Good) value, economy.values[good] = some value → 0 ≤ value)
    (productivity : ∀ labor : Labor, 0 ≤ economy.productivity[labor]) (entry : Labor × Output ℝ) :
    0 ≤ economy.weight entry := by
  refine mul_nonneg ?_ (productivity entry.1)
  cases worth : economy.values[entry.2.good] with
  | none => exact le_refl 0
  | some value => exact values _ value worth

theorem weights_nonneg (weights : ∀ entry, 0 ≤ economy.weight entry) :
    ∀ weight ∈ economy.weights outputs, 0 ≤ weight := by
  intro weight member
  obtain ⟨entry, _, rfl⟩ := List.mem_map.mp member
  exact weights entry

theorem totalWeight_pos (floor : 0 < rules.ratioFloor) : 0 < economy.totalWeight rules outputs :=
  lt_of_lt_of_le floor (le_max_right _ _)

theorem weight_le_totalWeight (weights : ∀ entry, 0 ≤ economy.weight entry)
    {entry : Labor × Output ℝ} (member : entry ∈ outputs.entries) :
    economy.weight entry ≤ economy.totalWeight rules outputs := by
  have all : ∀ weight ∈ economy.weights outputs, 0 ≤ weight := weights_nonneg weights
  exact le_trans (List.single_le_sum all _ (List.mem_map_of_mem member)) (le_max_left _ _)

/-- The floor leaves no industry without a share to move toward. -/
theorem targetShare_pos (safe : rules.Safe) (entry : Labor × Output ℝ) :
    0 < economy.targetShare rules outputs entry := by
  have total : 0 < economy.totalWeight rules outputs := totalWeight_pos safe.ratioFloor
  exact div_pos (lt_max_of_lt_right (div_pos total safe.floorDivisor)) total

theorem targetShare_nonneg (safe : rules.Safe) (entry : Labor × Output ℝ) :
    0 ≤ economy.targetShare rules outputs entry := le_of_lt (targetShare_pos safe entry)

theorem targetShare_mem (admissible : rules.Admissible)
    (weights : ∀ entry, 0 ≤ economy.weight entry) {entry : Labor × Output ℝ}
    (member : entry ∈ outputs.entries) :
    economy.targetShare rules outputs entry ∈ Set.Icc (1 / rules.floorDivisor) 1 := by
  have total : 0 < economy.totalWeight rules outputs := totalWeight_pos admissible.ratioFloor
  have divisor := admissible.safe.floorDivisor
  constructor
  · rw [targetShare, div_le_div_iff₀ divisor total, one_mul, ← div_le_iff₀ divisor]
    exact le_max_right _ _
  · rw [targetShare, div_le_one total]
    exact max_le (weight_le_totalWeight weights member)
      (div_le_self (le_of_lt total) admissible.floorDivisor)

theorem getElem_shares_restaffed_of_mem {entry : Labor × Output ℝ}
    (member : entry ∈ outputs.entries) :
    (economy.restaffed rules outputs).shares[entry.1] =
      rules.laborSmoothing * economy.shares[entry.1] +
        (1 - rules.laborSmoothing) * economy.targetShare rules outputs entry := by
  rw [getElem_shares_restaffed, (OrderedMap.find?_eq_some_iff _ _ _).mpr member, Option.elim_some]

theorem shares_restaffed_nonneg (safe : rules.Safe)
    (shares : ∀ labor : Labor, 0 ≤ economy.shares[labor]) (labor : Labor) :
    0 ≤ (economy.restaffed rules outputs).shares[labor] := by
  rw [getElem_shares_restaffed]
  cases outputs.find? labor with
  | none => exact shares labor
  | some output =>
    exact add_nonneg (mul_nonneg safe.laborSmoothing.1 (shares labor))
      (mul_nonneg (sub_nonneg.mpr safe.laborSmoothing.2) (targetShare_nonneg safe _))

/-- An industry of the catalog keeps the floor and gets no more than everybody. -/
theorem shares_restaffed_mem (admissible : rules.Admissible)
    (shares : ∀ labor : Labor, economy.shares[labor] ∈ Set.Icc 0 1)
    (weights : ∀ entry, 0 ≤ economy.weight entry) {entry : Labor × Output ℝ}
    (member : entry ∈ outputs.entries) :
    (economy.restaffed rules outputs).shares[entry.1] ∈
      Set.Icc ((1 - rules.laborSmoothing) / rules.floorDivisor) 1 := by
  have smoothing := admissible.safe.laborSmoothing
  have rest : 0 ≤ 1 - rules.laborSmoothing := sub_nonneg.mpr smoothing.2
  have old := shares entry.1
  have target := targetShare_mem admissible weights member
  rw [getElem_shares_restaffed_of_mem member]
  constructor
  · calc (1 - rules.laborSmoothing) / rules.floorDivisor
        = 0 + (1 - rules.laborSmoothing) * (1 / rules.floorDivisor) := by ring
      _ ≤ _ := add_le_add (mul_nonneg smoothing.1 old.1) (mul_le_mul_of_nonneg_left target.1 rest)
  · calc _ ≤ rules.laborSmoothing * 1 + (1 - rules.laborSmoothing) * 1 :=
          add_le_add (mul_le_mul_of_nonneg_left old.2 smoothing.1)
            (mul_le_mul_of_nonneg_left target.2 rest)
      _ = 1 := by ring

end Economy

/-- Raising weights to a floor adds less than one floor for every weight but one. -/
theorem sum_max_le {weights : List ℝ} (nonneg : ∀ weight ∈ weights, 0 ≤ weight)
    {total floor : ℝ} (bounded : weights.sum ≤ total) (floor_nonneg : 0 ≤ floor)
    (floor_le : floor ≤ total) :
    (weights.map (max · floor)).sum ≤ total + (weights.length - 1) * floor := by
  induction weights generalizing total with
  | nil => simpa using floor_le
  | cons weight rest ih =>
    rw [List.forall_mem_cons] at nonneg
    rw [List.sum_cons] at bounded
    rw [List.map_cons, List.sum_cons, List.length_cons, Nat.cast_add_one]
    rcases le_total weight floor with low | high
    · rw [max_eq_right low]
      have later := ih nonneg.2 (by linarith) floor_le
      linarith
    · -- The weight above the floor pays for one floor of the rest.
      rw [max_eq_left high]
      have sum_nonneg := List.sum_nonneg nonneg.2
      have sum_le : rest.sum ≤ total - weight + floor := by linarith
      have later := ih nonneg.2 sum_le (by linarith)
      linarith

namespace Economy

/-- The part of the population that works in the industries of a catalog. -/
noncomputable def totalShare (economy : Economy ℝ) (outputs : OrderedMap Labor (Output ℝ)) : ℝ :=
  (outputs.entries.map fun entry => economy.shares[entry.1]).sum

variable {economy : Economy ℝ} {rules : ExactRules} {outputs : OrderedMap Labor (Output ℝ)}

theorem totalShare_restaffed :
    (economy.restaffed rules outputs).totalShare outputs =
      rules.laborSmoothing * economy.totalShare outputs + (1 - rules.laborSmoothing) *
        (outputs.entries.map (economy.targetShare rules outputs)).sum := by
  rw [totalShare, totalShare, ← List.sum_map_mul_left, ← List.sum_map_mul_left,
    ← List.sum_map_add]
  exact congrArg List.sum
    (List.map_congr_left fun entry member => getElem_shares_restaffed_of_mem member)

variable (floor : 0 < rules.ratioFloor) (divisor : 1 ≤ rules.floorDivisor)
  (weights : ∀ entry, 0 ≤ economy.weight entry)
include floor divisor weights

theorem sum_targetShare_le :
    (outputs.entries.map (economy.targetShare rules outputs)).sum ≤
      1 + ((outputs.size : ℝ) - 1) / rules.floorDivisor := by
  have total : 0 < economy.totalWeight rules outputs := totalWeight_pos floor
  have positive : 0 < rules.floorDivisor := lt_of_lt_of_le one_pos divisor
  have raised := sum_max_le (weights_nonneg weights) (le_max_left _ rules.ratioFloor)
    (le_of_lt (div_pos total positive)) (div_le_self (le_of_lt total) divisor)
  have sums : (outputs.entries.map (economy.targetShare rules outputs)).sum =
      ((economy.weights outputs).map
        (max · (economy.totalWeight rules outputs / rules.floorDivisor))).sum /
          economy.totalWeight rules outputs := by
    rw [Economy.weights, List.map_map, div_eq_mul_inv, ← List.sum_map_mul_right]
    exact congrArg List.sum (List.map_congr_left fun entry _ => div_eq_mul_inv _ _)
  have count : (economy.weights outputs).length = outputs.size := List.length_map _
  rw [sums, div_le_iff₀ total, ← count]
  calc _ ≤ economy.totalWeight rules outputs + (((economy.weights outputs).length : ℝ) - 1) *
          (economy.totalWeight rules outputs / rules.floorDivisor) := raised
    _ = _ := by ring

theorem totalShare_restaffed_le (smoothing : rules.laborSmoothing ≤ 1) :
    (economy.restaffed rules outputs).totalShare outputs ≤
      rules.laborSmoothing * economy.totalShare outputs +
        (1 - rules.laborSmoothing) * (1 + ((outputs.size : ℝ) - 1) / rules.floorDivisor) := by
  rw [totalShare_restaffed]
  exact add_le_add_right (mul_le_mul_of_nonneg_left (sum_targetShare_le floor divisor weights)
    (sub_nonneg.mpr smoothing)) _

end Economy

end Settlement
