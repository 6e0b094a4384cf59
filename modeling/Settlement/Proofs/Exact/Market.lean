import Mathlib.Algebra.BigOperators.Ring.List
import Mathlib.Algebra.Order.BigOperators.Group.List
import Mathlib.Analysis.Convex.Basic
import Settlement.Proofs.Exact.Rules
import Settlement.Proofs.Market
/-!
Markets in exact arithmetic. Demand and supply are sums over groups and industries, and a value
moves within every convex set that holds the old value and the range of priced raw values.
-/
namespace Settlement

/-- How much of a good a group orders per head, over all entries of that good. -/
noncomputable def OrderGroup.amount (group : OrderGroup ℝ) (good : Good) : ℝ :=
  ((group.inputs.filter (·.1 = good)).map Prod.snd).sum

theorem OrderGroup.amount_nonneg {group : OrderGroup ℝ}
    (amounts : ∀ input ∈ group.inputs, 0 ≤ input.2) (good : Good) : 0 ≤ group.amount good := by
  apply List.sum_nonneg
  intro amount member
  obtain ⟨input, chosen, rfl⟩ := List.mem_map.mp member
  exact amounts input (List.mem_of_mem_filter chosen)

theorem OrderGroup.amount_eq_zero {group : OrderGroup ℝ} {good : Good}
    (unordered : ∀ input ∈ group.inputs, input.1 ≠ good) : group.amount good = 0 := by
  have none : group.inputs.filter (·.1 = good) = [] :=
    List.filter_eq_nil_iff.mpr fun input member => by simpa using unordered input member
  rw [amount, none, List.map_nil, List.sum_nil]

namespace Economy

variable (economy : Economy ℝ)

theorem headcount_eq : economy.headcount = max economy.population 0 := Scalar.larger_eq_max _ _

theorem headcount_nonneg : 0 ≤ economy.headcount := by
  rw [headcount_eq]
  exact le_max_right _ _

theorem scale_nonneg (shares : ∀ labor : Labor, 0 ≤ economy.shares[labor])
    (head : Option Labor) : 0 ≤ economy.scale head := by
  cases head with
  | none => exact economy.headcount_nonneg
  | some labor => exact mul_nonneg (shares labor) economy.headcount_nonneg

theorem getElem_addDemand (demand : Table Good ℝ) (group : OrderGroup ℝ) (good : Good) :
    (economy.addDemand demand group)[good] =
      demand[good] + group.amount good * economy.scale group.labor := by
  have added := Table.getElem_foldl_add Prod.fst
    (fun input : Good × ℝ => input.2 * economy.scale group.labor) group.inputs demand good
  rw [List.sum_map_mul_right] at added
  exact added

theorem getElem_demand (orders : List (OrderGroup ℝ)) (good : Good) :
    (economy.demand orders)[good] =
      (orders.map fun group => group.amount good * economy.scale group.labor).sum := by
  have general (start : Table Good ℝ) : (orders.foldl economy.addDemand start)[good] =
      start[good] +
        (orders.map fun group => group.amount good * economy.scale group.labor).sum := by
    induction orders generalizing start with
    | nil => simp
    | cons group rest ih =>
      rw [List.foldl_cons, ih, getElem_addDemand, List.map_cons, List.sum_cons, add_assoc]
  rw [demand, general, Table.getElem_const, zero_add]

theorem getElem_supply (outputs : OrderedMap Labor (Output ℝ)) (good : Good) :
    (economy.supply outputs)[good] =
      ((outputs.entries.filter (·.2.good = good)).map fun entry =>
        economy.yields[entry.1] * economy.shares[entry.1] * economy.headcount).sum := by
  have added := Table.getElem_foldl_add (fun entry : Labor × Output ℝ => entry.2.good)
    (fun entry => economy.yields[entry.1] * economy.shares[entry.1] * economy.headcount)
    outputs.entries (Table.const 0) good
  rw [Table.getElem_const, zero_add] at added
  exact added

theorem supply_nonneg (shares : ∀ labor : Labor, 0 ≤ economy.shares[labor])
    (yields : ∀ labor : Labor, 0 ≤ economy.yields[labor])
    (outputs : OrderedMap Labor (Output ℝ)) (good : Good) : 0 ≤ (economy.supply outputs)[good] := by
  rw [getElem_supply]
  apply List.sum_nonneg
  intro term member
  obtain ⟨entry, _, rfl⟩ := List.mem_map.mp member
  exact mul_nonneg (mul_nonneg (yields entry.1) (shares entry.1)) economy.headcount_nonneg

end Economy

theorem rawValue_pos (surplus demand : ℝ) : 0 < rawValue surplus demand := Scalar.exp2_pos _

namespace ExactRules

/-- The next value of a good. -/
noncomputable def value (rules : ExactRules) (good : Good) (previous : Option ℝ)
    (surplus demand : ℝ) : Option ℝ :=
  if 0 < demand ∧
      rawValue surplus demand ∈ Set.Ioo rules.valueFloor[good] rules.valueCeiling[good] then
    some (rules.valueSmoothing * previous.getD (rawValue surplus demand) +
      (1 - rules.valueSmoothing) * rawValue surplus demand)
  else none

variable {rules : ExactRules} {good : Good} {previous : Option ℝ} {surplus demand value : ℝ}

theorem value_eq_some (priced : rules.value good previous surplus demand = some value) :
    0 < demand ∧
      rawValue surplus demand ∈ Set.Ioo rules.valueFloor[good] rules.valueCeiling[good] ∧
      value = rules.valueSmoothing * previous.getD (rawValue surplus demand) +
        (1 - rules.valueSmoothing) * rawValue surplus demand := by
  unfold ExactRules.value at priced
  split at priced
  · rename_i bounds
    exact ⟨bounds.1, bounds.2, (Option.some.inj priced).symm⟩
  · cases priced

/-- A value is a mean of the old value and the raw one. -/
theorem value_mem {range : Set ℝ} (convex : Convex ℝ range)
    (smoothing : rules.valueSmoothing ∈ Set.Icc 0 1)
    (raws : Set.Ioo rules.valueFloor[good] rules.valueCeiling[good] ∩ Set.Ioi 0 ⊆ range)
    (old : ∀ value, previous = some value → value ∈ range)
    (priced : rules.value good previous surplus demand = some value) : value ∈ range := by
  obtain ⟨_, bounds, rfl⟩ := value_eq_some priced
  have raw : rawValue surplus demand ∈ range := raws ⟨bounds, rawValue_pos _ _⟩
  have base : previous.getD (rawValue surplus demand) ∈ range := by
    cases previous with
    | none => exact raw
    | some value => exact old value rfl
  exact convex base raw smoothing.1 (sub_nonneg.mpr smoothing.2) (by ring)

end ExactRules

theorem Rules.Denotes.next_eq {rules : Rules ℝ} {exact : ExactRules} {bounds : Bounds ℝ}
    {good : Good} (denotes : rules.Denotes exact)
    (floor : bounds.floor.Denotes exact.valueFloor[good])
    (ceiling : bounds.ceiling.Denotes exact.valueCeiling[good]) (previous : Option ℝ)
    (surplus demand : ℝ) :
    rules.values.next bounds previous surplus demand =
      .ok (exact.value good previous surplus demand) := by
  have priced : bounds.prices demand (rawValue surplus demand) = true ↔
      0 < demand ∧ rawValue surplus demand ∈
        Set.Ioo exact.valueFloor[good] exact.valueCeiling[good] := by
    simp [Bounds.prices, floor.isLess (.real _), (Given.Denotes.real _).isLess ceiling, and_assoc]
  unfold ValueRule.next ExactRules.value
  simp only [priced, denotes.valueSmoothing.factor]
  split <;> rfl

namespace Economy

/-- The economy with all values moved. -/
noncomputable def revalued (economy : Economy ℝ) (rules : ExactRules) (demand : Table Good ℝ) :
    Economy ℝ :=
  { economy with
    values := Table.ofFn fun good =>
      rules.value good economy.values[good] economy.surplus[good] demand[good] }

variable {economy after : Economy ℝ} {rules : Rules ℝ} {exact : ExactRules}

theorem reaches_revalue_iff_eq (denotes : rules.Denotes exact) {demand : Table Good ℝ} :
    (economy.revalue rules.values demand).Reaches after ↔
      after = economy.revalued exact demand := by
  obtain ⟨bounds, success, ranges⟩ := denotes.bounds
  have next (good : Good) := denotes.next_eq (ranges good).1 (ranges good).2
    economy.values[good] economy.surplus[good] demand[good]
  rw [reaches_revalue_iff]
  constructor
  · intro holds
    obtain ⟨others, values, found, moved, rfl⟩ := holds
    rw [success] at found
    cases found
    have same : values = Table.ofFn fun good =>
        exact.value good economy.values[good] economy.surplus[good] demand[good] := by
      refine Table.ext fun good => ?_
      rw [Table.getElem_ofFn]
      exact Except.ok.inj ((moved good).symm.trans (next good))
    rw [revalued, same]
  · rintro rfl
    refine ⟨bounds, _, success, fun good => ?_, rfl⟩
    rw [next good, Table.getElem_ofFn]

/-- The economy after the market phases. -/
noncomputable def traded (economy : Economy ℝ) (rules : ExactRules) (totals : Totals ℝ) :
    Economy ℝ :=
  ((economy.withSurplus totals).revalued rules totals.demand).repriced rules.valueCeiling totals

theorem reaches_trade_iff_eq (denotes : rules.Denotes exact) {totals : Totals ℝ} :
    (economy.trade rules totals).Reaches after ↔ after = economy.traded exact totals := by
  simp only [trade, Outcome.reaches_andThen, reaches_revalue_iff_eq denotes, exists_eq_left,
    reaches_reprice_iff, denotes.ceilings, Except.ok.injEq, exists_eq_left', traded]
  exact eq_comm

theorem getElem_values_traded (totals : Totals ℝ) (good : Good) :
    (economy.traded exact totals).values[good] =
      exact.value good economy.values[good]
        (totals.supply[good] + economy.stocks[good] - totals.demand[good]) totals.demand[good] := by
  have surplus : (economy.withSurplus totals).surplus[good] =
      totals.supply[good] + economy.stocks[good] - totals.demand[good] := Table.getElem_ofFn _ good
  rw [← surplus]
  exact Table.getElem_ofFn (fun good => exact.value good economy.values[good]
    (economy.withSurplus totals).surplus[good] totals.demand[good]) good

theorem getElem_prices_traded (totals : Totals ℝ) (good : Good) :
    (economy.traded exact totals).prices[good] =
      price exact.valueCeiling[good] totals.demand[good] totals.supply[good] economy.stocks[good] :=
  Table.getElem_ofFn _ good

end Economy

theorem price_nonneg {ceiling demand supply stock : ℝ} (ceiling_nonneg : 0 ≤ ceiling) :
    0 ≤ price ceiling demand supply stock := by
  simp only [price]
  split_ifs with unasked available
  · exact le_refl 0
  · exact div_nonneg (le_of_lt (not_le.mp unasked)) (le_of_lt available)
  · exact ceiling_nonneg

end Settlement
