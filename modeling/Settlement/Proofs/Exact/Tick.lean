import Settlement.Proofs.Exact.Production
import Settlement.Proofs.Exact.Renewal
import Settlement.Proofs.Exact.Workforce
/-!
The tick in exact arithmetic. A tick that no fault stops is a function of the economy, and under
safe parameters and with a valid catalog no fault stops it.
-/
namespace Settlement.Economy

section phases

variable {R : Type} [Scalar R]

/-- The phases of a tick up to the one that moves the workforce. -/
def staff (rules : Rules R) (catalog : Catalog R) (economy : Economy R) : Outcome (Economy R) :=
  (economy.trade rules (economy.totals catalog)).andThen (employ rules catalog)

/-- The phases of a tick up to the one that stops stocks at zero. -/
def harvest (rules : Rules R) (catalog : Catalog R) (decay : Table Good R)
    (replenisher : Replenisher R) (economy : Economy R) : Outcome (Economy R) :=
  ((economy.staff rules catalog).andThen fun staffed =>
    staffed.produce catalog rules.exponent (economy.totals catalog).demand).andThen fun produced =>
      .done ((produced.decayed decay).replenished replenisher)

/-- A tick stops the stocks of the harvest at zero and then lets the population grow. -/
theorem tick_eq (rules : Rules R) (catalog : Catalog R) (decay : Table Good R)
    (replenisher : Replenisher R) (days : Given R) (economy : Economy R) :
    economy.tick rules catalog decay replenisher days =
      (economy.harvest rules catalog decay replenisher).andThen fun harvested =>
        harvested.floored.growPopulation rules.demography days := by
  simp only [harvest, Outcome.andThen_assoc, Outcome.done_andThen, tick, staff]
  rfl

end phases

/-- The economy with the workforce moved. -/
noncomputable def employed (rules : ExactRules) (catalog : Catalog ℝ) (economy : Economy ℝ) :
    Economy ℝ :=
  (economy.traded rules (economy.totals catalog)).restaffed rules catalog.outputs

noncomputable def produced (rules : ExactRules) (catalog : Catalog ℝ) (economy : Economy ℝ) :
    Economy ℝ :=
  (economy.employed rules catalog).afterGroups catalog.outputs rules.exponent economy.stocks
    (economy.totals catalog).demand catalog.orders

noncomputable def harvested (rules : ExactRules) (catalog : Catalog ℝ) (decay : Table Good ℝ)
    (replenisher : Replenisher ℝ) (economy : Economy ℝ) : Economy ℝ :=
  ((economy.produced rules catalog).decayed decay).replenished replenisher

noncomputable def ticked (rules : ExactRules) (catalog : Catalog ℝ) (decay : Table Good ℝ)
    (replenisher : Replenisher ℝ) (days : ℝ) (economy : Economy ℝ) : Economy ℝ :=
  (economy.harvested rules catalog decay replenisher).floored.aged rules days

/-- No divisor of a tick is zero, and every group can run. -/
structure CanTick (rules : ExactRules) (catalog : Catalog ℝ) (economy : Economy ℝ) : Prop where
  floorDivisor : rules.floorDivisor ≠ 0
  totalWeight : ((economy.traded rules (economy.totals catalog)).weights catalog.outputs).isEmpty =
    false → (economy.traded rules (economy.totals catalog)).totalWeight rules catalog.outputs ≠ 0
  groups : ∀ group ∈ catalog.orders,
    (economy.employed rules catalog).CanRun catalog.outputs rules.exponent group

variable {economy after : Economy ℝ} {inexact : Rules ℝ} {rules : ExactRules}
  {catalog : Catalog ℝ} {decay : Table Good ℝ} {replenisher : Replenisher ℝ}

theorem reaches_staff_iff_eq (denotes : inexact.Denotes rules) :
    (economy.staff inexact catalog).Reaches after ↔
      rules.floorDivisor ≠ 0 ∧
        (((economy.traded rules (economy.totals catalog)).weights catalog.outputs).isEmpty = false →
          (economy.traded rules (economy.totals catalog)).totalWeight rules catalog.outputs ≠ 0) ∧
        after = economy.employed rules catalog := by
  simp only [staff, Outcome.reaches_andThen, reaches_trade_iff_eq denotes, exists_eq_left,
    reaches_employ_iff_eq denotes, employed]

theorem reaches_harvest_iff_eq (denotes : inexact.Denotes rules) :
    (economy.harvest inexact catalog decay replenisher).Reaches after ↔
      economy.CanTick rules catalog ∧
        after = economy.harvested rules catalog decay replenisher := by
  simp only [harvest, Outcome.reaches_andThen, Outcome.reaches_done, reaches_staff_iff_eq denotes,
    reaches_produce_iff_eq denotes.exponent]
  constructor
  · intro holds
    obtain ⟨_, ⟨_, ⟨divisor, total, rfl⟩, groups, rfl⟩, rfl⟩ := holds
    exact ⟨⟨divisor, total, groups⟩, rfl⟩
  · intro holds
    obtain ⟨ready, rfl⟩ := holds
    exact ⟨_, ⟨_, ⟨ready.floorDivisor, ready.totalWeight, rfl⟩, ready.groups, rfl⟩, rfl⟩

theorem reaches_tick_iff_eq (denotes : inexact.Denotes rules) {given : Given ℝ} {days : ℝ}
    (length : given.Denotes days) :
    (economy.tick inexact catalog decay replenisher given).Reaches after ↔
      economy.CanTick rules catalog ∧
        after = economy.ticked rules catalog decay replenisher days := by
  simp only [tick_eq, Outcome.reaches_andThen, reaches_harvest_iff_eq denotes,
    reaches_growPopulation_iff_eq denotes length, ticked]
  constructor
  · intro holds
    obtain ⟨_, ⟨ready, rfl⟩, rfl⟩ := holds
    exact ⟨ready, rfl⟩
  · intro holds
    obtain ⟨ready, rfl⟩ := holds
    exact ⟨_, ⟨ready, rfl⟩, rfl⟩

/-- Production changes stocks, productivity and yields only. -/
theorem produced_frame (rules : ExactRules) (catalog : Catalog ℝ) (economy : Economy ℝ) :
    ∃ stocks productivity yields, economy.produced rules catalog =
      { economy.employed rules catalog with stocks, productivity, yields } :=
  afterGroups_frame

/-- After the workforce has moved, a tick leaves values, prices and shares alone. -/
theorem ticked_frame (rules : ExactRules) (catalog : Catalog ℝ) (decay : Table Good ℝ)
    (replenisher : Replenisher ℝ) (days : ℝ) (economy : Economy ℝ) :
    ∃ population stocks productivity yields,
      economy.ticked rules catalog decay replenisher days =
        { economy.employed rules catalog with population, stocks, productivity, yields } := by
  obtain ⟨stocks, productivity, yields, frame⟩ := produced_frame rules catalog economy
  let after := economy.ticked rules catalog decay replenisher days
  refine ⟨after.population, after.stocks, productivity, yields, ?_⟩
  simp only [after, ticked, harvested, frame]
  rfl

theorem values_ticked {days : ℝ} :
    (economy.ticked rules catalog decay replenisher days).values =
      (economy.traded rules (economy.totals catalog)).values := by
  obtain ⟨_, _, _, _, frame⟩ :=
    ticked_frame rules catalog decay replenisher days economy
  rw [frame]
  rfl

theorem prices_ticked {days : ℝ} :
    (economy.ticked rules catalog decay replenisher days).prices =
      (economy.traded rules (economy.totals catalog)).prices := by
  obtain ⟨_, _, _, _, frame⟩ :=
    ticked_frame rules catalog decay replenisher days economy
  rw [frame]
  rfl

theorem getElem_surplus_ticked {days : ℝ} (good : Good) :
    (economy.ticked rules catalog decay replenisher days).surplus[good] =
      (economy.totals catalog).supply[good] + economy.stocks[good] -
        (economy.totals catalog).demand[good] := by
  obtain ⟨_, _, _, _, frame⟩ := ticked_frame rules catalog decay replenisher days economy
  rw [frame]
  exact Table.getElem_ofFn _ good

theorem getElem_values_ticked {days : ℝ} (good : Good) :
    (economy.ticked rules catalog decay replenisher days).values[good] =
      rules.value good economy.values[good]
        ((economy.totals catalog).supply[good] + economy.stocks[good] -
          (economy.totals catalog).demand[good]) (economy.totals catalog).demand[good] := by
  rw [values_ticked, getElem_values_traded]

theorem shares_ticked {days : ℝ} :
    (economy.ticked rules catalog decay replenisher days).shares =
      (economy.employed rules catalog).shares := by
  obtain ⟨_, _, _, _, frame⟩ :=
    ticked_frame rules catalog decay replenisher days economy
  rw [frame]

theorem getElem_stocks_ticked {days : ℝ} (good : Good) :
    (economy.ticked rules catalog decay replenisher days).stocks[good] =
      max 0 (economy.harvested rules catalog decay replenisher).stocks[good] :=
  getElem_stocks_floored _ _

/-- An industry of a valid catalog records how far its inputs went round in this tick. -/
theorem record_ticked_of_mem (valid : catalog.Valid) {entry : Labor × Output ℝ}
    (member : entry ∈ catalog.outputs.entries) {days : ℝ} :
    ∃ group ∈ catalog.orders, group.labor = some entry.1 ∧
      (economy.ticked rules catalog decay replenisher days).record entry.1 =
        (group.satisfaction economy.stocks (economy.totals catalog).demand,
          group.satisfaction economy.stocks (economy.totals catalog).demand * entry.2.rate) := by
  obtain ⟨group, chosen, head⟩ := List.mem_map.mp (valid.groups entry member)
  exact ⟨group, chosen, head, record_afterGroups_of_mem valid.heads chosen head
    ((OrderedMap.find?_eq_some_iff _ _ _).mpr member)⟩

theorem record_ticked_of_find?_eq_none (valid : catalog.Valid) {labor : Labor}
    (absent : catalog.outputs.find? labor = none) {days : ℝ} :
    (economy.ticked rules catalog decay replenisher days).record labor = economy.record labor := by
  refine record_afterGroups_of_not_mem fun heads => ?_
  obtain ⟨group, chosen, head⟩ := List.mem_map.mp heads
  have present := valid.outputs group chosen labor head
  rw [OrderedMap.contains, absent] at present
  cases present

/-- What holds of every old record and of every satisfaction holds of every new record. -/
theorem record_ticked_mem (property : ℝ × ℝ → Prop) (valid : catalog.Valid)
    (stocks : ∀ good : Good, 0 ≤ economy.stocks[good])
    (old : ∀ labor, property (economy.record labor))
    (new : ∀ satisfaction ∈ Set.Icc (0 : ℝ) 1, ∀ entry ∈ catalog.outputs.entries,
      property (satisfaction, satisfaction * entry.2.rate)) {days : ℝ} (labor : Labor) :
    property ((economy.ticked rules catalog decay replenisher days).record labor) := by
  cases found : catalog.outputs.find? labor with
  | none =>
    rw [record_ticked_of_find?_eq_none valid found]
    exact old labor
  | some output =>
    have member := (OrderedMap.find?_eq_some_iff _ _ _).mp found
    obtain ⟨group, _, _, recorded⟩ := record_ticked_of_mem valid member
    rw [recorded]
    exact new _ (OrderGroup.satisfaction_mem stocks) _ member

/-- No entry of the economy that a tick reads is negative. The population may be. -/
structure NonNegative (economy : Economy ℝ) : Prop where
  stocks : ∀ good : Good, 0 ≤ economy.stocks[good]
  values : ∀ (good : Good) value, economy.values[good] = some value → 0 ≤ value
  shares : ∀ labor : Labor, 0 ≤ economy.shares[labor]
  productivity : ∀ labor : Labor, 0 ≤ economy.productivity[labor]
  yields : ∀ labor : Labor, 0 ≤ economy.yields[labor]

/-- The bounds that an economy starts within. -/
structure Sound (rules : ExactRules) (economy : Economy ℝ) : Prop where
  population : 0 ≤ economy.population
  stocks : ∀ good : Good, 0 ≤ economy.stocks[good]
  values : ∀ (good : Good) value, economy.values[good] = some value →
    value ∈ Set.Ioo rules.valueFloor[good] rules.valueCeiling[good]
  shares : ∀ labor : Labor, economy.shares[labor] ∈ Set.Icc 0 1
  productivity : ∀ labor : Labor, economy.productivity[labor] ∈ Set.Icc 0 1
  yields : ∀ labor : Labor, 0 ≤ economy.yields[labor]

theorem Sound.nonNegative (sound : economy.Sound rules) (admissible : rules.Admissible) :
    economy.NonNegative where
  stocks := sound.stocks
  values good value priced :=
    le_of_lt (lt_of_le_of_lt (admissible.valueFloor good) (sound.values good value priced).1)
  shares labor := (sound.shares labor).1
  productivity labor := (sound.productivity labor).1
  yields := sound.yields

theorem values_traded_mem {range : Set ℝ} (convex : Convex ℝ range)
    (smoothing : rules.valueSmoothing ∈ Set.Icc 0 1) {good : Good}
    (raws : Set.Ioo rules.valueFloor[good] rules.valueCeiling[good] ∩ Set.Ioi 0 ⊆ range)
    (old : ∀ value, economy.values[good] = some value → value ∈ range) {totals : Totals ℝ}
    {value : ℝ} (priced : (economy.traded rules totals).values[good] = some value) :
    value ∈ range := by
  rw [getElem_values_traded] at priced
  exact ExactRules.value_mem convex smoothing raws old priced

theorem values_traded_nonneg (smoothing : rules.valueSmoothing ∈ Set.Icc 0 1)
    (old : ∀ (good : Good) value, economy.values[good] = some value → 0 ≤ value)
    {totals : Totals ℝ} (good : Good) (value : ℝ)
    (priced : (economy.traded rules totals).values[good] = some value) : 0 ≤ value :=
  values_traded_mem (convex_Ici 0) smoothing (fun _ raw => Set.Ioi_subset_Ici_self raw.2)
    (old good) priced

theorem NonNegative.values_traded (nonneg : economy.NonNegative) (safe : rules.Safe)
    {totals : Totals ℝ} (good : Good) (value : ℝ)
    (priced : (economy.traded rules totals).values[good] = some value) : 0 ≤ value :=
  values_traded_nonneg safe.valueSmoothing nonneg.values good value priced

theorem NonNegative.shares_employed (nonneg : economy.NonNegative) (safe : rules.Safe)
    (labor : Labor) : 0 ≤ (economy.employed rules catalog).shares[labor] := by
  have shares : ∀ labor : Labor,
      0 ≤ (economy.traded rules (economy.totals catalog)).shares[labor] := nonneg.shares
  exact shares_restaffed_nonneg safe shares labor

theorem NonNegative.record_ticked (nonneg : economy.NonNegative) (valid : catalog.Valid) {days : ℝ}
    (labor : Labor) :
    0 ≤ ((economy.ticked rules catalog decay replenisher days).record labor).1 ∧
      0 ≤ ((economy.ticked rules catalog decay replenisher days).record labor).2 := by
  have old (labor : Labor) : 0 ≤ (economy.record labor).1 ∧ 0 ≤ (economy.record labor).2 :=
    ⟨nonneg.productivity labor, nonneg.yields labor⟩
  refine record_ticked_mem (fun record => 0 ≤ record.1 ∧ 0 ≤ record.2) valid nonneg.stocks old ?_
    labor
  intro satisfaction bounds entry member
  exact ⟨bounds.1, mul_nonneg bounds.1 (valid.rate_nonneg entry member)⟩

theorem NonNegative.ticked (nonneg : economy.NonNegative) (safe : rules.Safe)
    (valid : catalog.Valid) {days : ℝ} :
    (economy.ticked rules catalog decay replenisher days).NonNegative where
  stocks good := by
    rw [getElem_stocks_ticked]
    exact le_max_left _ _
  values good value priced := by
    rw [values_ticked] at priced
    exact nonneg.values_traded safe good value priced
  shares labor := by
    rw [shares_ticked]
    exact nonneg.shares_employed safe labor
  productivity labor := (nonneg.record_ticked valid labor).1
  yields labor := (nonneg.record_ticked valid labor).2

/-- The groups leave no stock negative. -/
theorem NonNegative.stocks_produced (nonneg : economy.NonNegative) (safe : rules.Safe)
    (valid : catalog.Valid) (good : Good) : 0 ≤ (economy.produced rules catalog).stocks[good] :=
  stocks_afterGroups_nonneg (scale_nonneg _ (nonneg.shares_employed safe)) nonneg.stocks
    valid.amount_nonneg valid.rate_nonneg (nonneg.stocks good)

/-- Where weights have a positive floor, a valid catalog leaves nothing that could stop a tick. -/
theorem canTick_of_pos (floor : 0 < rules.ratioFloor) (divisor : 0 < rules.floorDivisor)
    (exponent : 0 ≤ rules.exponent) (valid : catalog.Valid) : economy.CanTick rules catalog where
  floorDivisor := ne_of_gt divisor
  totalWeight _ := ne_of_gt (totalWeight_pos floor)
  groups := canRun_of_powers valid fun _ _ _ => exponent

theorem canTick_of_safe (safe : rules.Safe) (exponent : 0 ≤ rules.exponent)
    (valid : catalog.Valid) : economy.CanTick rules catalog :=
  canTick_of_pos safe.ratioFloor safe.floorDivisor exponent valid

end Settlement.Economy

namespace Settlement

/-- Farmers make flour of wheat, and everybody eats flour. -/
noncomputable def Catalog.mill : Catalog ℝ where
  orders := [⟨none, [(.flour, 1 / (2 : Nat))]⟩, ⟨some .farmer, [(.wheat, 1)]⟩]
  outputs := ⟨[(.farmer, ⟨.flour, 1⟩)], by simp⟩

theorem Catalog.mill_valid : Catalog.mill.Valid where
  heads := by simp [mill]
  inputs := by simp [mill]
  amounts := by norm_num [mill]
  outputs := by simp [mill, OrderedMap.contains, OrderedMap.find?]
  groups := by simp [mill]
  rates := by norm_num [mill]

theorem Catalog.check_mill : Catalog.mill.check = .ok () := check_eq_ok_iff.mpr mill_valid

/-- Ten people, one of them a farmer, short of wheat. -/
noncomputable def Economy.mill : Economy ℝ :=
  seeded (10 : Nat)
    (Table.ofFn fun
      | .flour => (4 : Nat)
      | .wheat => 1 / (2 : Nat)
      | _ => 0)
    (Table.const none) (Table.const (1 / (10 : Nat)))

theorem Economy.mill_sound : mill.Sound .standard where
  population := by norm_num [mill, seeded]
  stocks good := by
    rw [mill, seeded, Table.getElem_ofFn]
    cases good <;> norm_num
  values good value priced := by simp [mill, seeded] at priced
  shares labor := by norm_num [mill, seeded]
  productivity labor := by norm_num [mill, seeded]
  yields labor := by norm_num [mill, seeded]

end Settlement
