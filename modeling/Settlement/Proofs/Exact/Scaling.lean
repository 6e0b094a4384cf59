import Settlement.Proofs.Exact.Production
import Settlement.Proofs.Exact.Renewal
/-!
Units and scale. An economy may be measured in other units of its goods, and it may be multiplied:
more people with more of everything. A tick of the one mirrors a tick of the other, since every
decision that it takes is on a ratio of amounts or on the sign of one. Only the power of the
workforce does not follow a multiplied economy, unless its exponent is one.
-/
namespace Settlement

/-- Other units to measure goods in: how many of them make one of the old. -/
structure Units where
  factor : Table Good ℝ
  positive : ∀ good : Good, 0 < factor[good]

/-- Amounts of goods in other units. -/
noncomputable def Units.measure (units : Units) (amounts : Table Good ℝ) : Table Good ℝ :=
  Table.zipWith (· * ·) amounts units.factor

/-- What workers make, each in the unit of what their industry turns out. -/
noncomputable def Units.measureYields (units : Units) (outputs : OrderedMap Labor (Output ℝ))
    (yields : Table Labor ℝ) : Table Labor ℝ :=
  Table.ofFn fun labor => (outputs.find? labor).elim yields[labor] fun output =>
    yields[labor] * units.factor[output.good]

noncomputable def OrderGroup.inUnits (group : OrderGroup ℝ) (units : Units) : OrderGroup ℝ :=
  { group with inputs := group.inputs.map fun input => (input.1, input.2 * units.factor[input.1]) }

noncomputable def Output.inUnits (output : Output ℝ) (units : Units) : Output ℝ :=
  { output with rate := output.rate * units.factor[output.good] }

noncomputable def Catalog.inUnits (catalog : Catalog ℝ) (units : Units) : Catalog ℝ where
  orders := catalog.orders.map (·.inUnits units)
  outputs := catalog.outputs.mapValues (·.inUnits units)

noncomputable def Replenisher.inUnits (units : Units) : Replenisher ℝ → Replenisher ℝ
  | barren => barren
  | renewable targets => renewable (targets.mapEntries fun good target =>
      { target with level := target.level * units.factor[good] })

/-- The same replenisher for an economy that is some times as large. -/
noncomputable def Replenisher.multiplied (factor : ℝ) : Replenisher ℝ → Replenisher ℝ
  | barren => barren
  | renewable targets => renewable (targets.mapValues fun target =>
      { target with level := target.level * factor })

namespace Economy

/-- The same economy in other units. -/
noncomputable def inUnits (economy : Economy ℝ) (units : Units)
    (outputs : OrderedMap Labor (Output ℝ)) : Economy ℝ :=
  { economy with
    stocks := units.measure economy.stocks
    surplus := units.measure economy.surplus
    marginalSurplus := units.measure economy.marginalSurplus
    yields := units.measureYields outputs economy.yields }

/-- An economy of some times as many people, with as many times the goods. -/
noncomputable def multiplied (economy : Economy ℝ) (factor : ℝ) : Economy ℝ :=
  { economy with
    population := economy.population * factor
    stocks := economy.stocks.map (· * factor)
    surplus := economy.surplus.map (· * factor)
    marginalSurplus := economy.marginalSurplus.map (· * factor) }

end Economy

/-- Amounts in other units, for an economy that is some times as large. -/
noncomputable def Units.scale (units : Units) (factor : ℝ) (amounts : Table Good ℝ) :
    Table Good ℝ :=
  (units.measure amounts).map (· * factor)

namespace Units

variable (units : Units) {factor : ℝ} {amounts : Table Good ℝ} {good : Good}

@[simp]
theorem getElem_measure : (units.measure amounts)[good] = amounts[good] * units.factor[good] :=
  Table.getElem_zipWith _ _ _ _

@[simp]
theorem getElem_scale :
    (units.scale factor amounts)[good] = amounts[good] * (units.factor[good] * factor) := by
  rw [scale, Table.getElem_map, getElem_measure, mul_assoc]

theorem scale_pos (positive : 0 < factor) : 0 < units.factor[good] * factor :=
  mul_pos (units.positive good) positive

theorem scale_modify {change other : ℝ → ℝ}
    (same : ∀ amount, other (amount * (units.factor[good] * factor)) =
      change amount * (units.factor[good] * factor)) :
    (units.scale factor amounts).modify good other =
      units.scale factor (amounts.modify good change) := by
  refine Table.ext fun wanted => ?_
  rw [getElem_scale, Table.getElem_modify, Table.getElem_modify, getElem_scale]
  split
  · rename_i here
    subst here
    exact same _
  · rfl

theorem getElem_measureYields {outputs : OrderedMap Labor (Output ℝ)} {labor : Labor}
    {output : Output ℝ} (found : outputs.find? labor = some output) (yields : Table Labor ℝ) :
    (units.measureYields outputs yields)[labor] = yields[labor] * units.factor[output.good] := by
  rw [measureYields, Table.getElem_ofFn, found, Option.elim_some]

theorem measureYields_set {outputs : OrderedMap Labor (Output ℝ)} {labor : Labor}
    {output : Output ℝ} (found : outputs.find? labor = some output) (yields : Table Labor ℝ)
    (yield : ℝ) :
    (units.measureYields outputs yields).set labor (yield * units.factor[output.good]) =
      units.measureYields outputs (yields.set labor yield) := by
  refine Table.ext fun other => ?_
  by_cases same : labor = other
  · subst same
    rw [Table.getElem_set_self, getElem_measureYields units found, Table.getElem_set_self]
  · simp only [Table.getElem_set_ne _ _ same, measureYields, Table.getElem_ofFn]

theorem scale_ofFn {f g : Good → ℝ}
    (same : ∀ good, g good = f good * (units.factor[good] * factor)) :
    Table.ofFn g = units.scale factor (Table.ofFn f) := by
  refine Table.ext fun good => ?_
  rw [getElem_scale, Table.getElem_ofFn, Table.getElem_ofFn, same]

end Units

section ratios

variable {weight : ℝ} (positive : 0 < weight)
include positive

theorem rawValue_mul (surplus demand : ℝ) :
    rawValue (surplus * weight) (demand * weight) = rawValue surplus demand :=
  congrArg (fun ratio => Scalar.exp2 (1 - ratio))
    (mul_div_mul_right surplus demand (ne_of_gt positive))

theorem Bounds.prices_mul (bounds : Bounds ℝ) (demand raw : ℝ) :
    bounds.prices (demand * weight) raw = bounds.prices demand raw := by
  have asked : decide (0 < demand * weight) = decide (0 < demand) :=
    decide_eq_decide.mpr (mul_pos_iff_of_pos_right positive)
  rw [Bounds.prices, Bounds.prices]
  exact congrArg (· && _ && _) asked

theorem ValueRule.next_mul (rule : ValueRule ℝ) (bounds : Bounds ℝ) (previous : Option ℝ)
    (surplus demand : ℝ) :
    rule.next bounds previous (surplus * weight) (demand * weight) =
      rule.next bounds previous surplus demand := by
  simp only [next, rawValue_mul positive, Bounds.prices_mul positive]

theorem mul_nonpos_iff_nonpos (amount : ℝ) : amount * weight ≤ 0 ↔ amount ≤ 0 := by
  rw [← not_lt, ← not_lt, mul_pos_iff_of_pos_right positive]

theorem price_mul (ceiling demand supply stock : ℝ) :
    price ceiling (demand * weight) (supply * weight) (stock * weight) =
      price ceiling demand supply stock := by
  simp only [price, ← add_mul, mul_nonpos_iff_nonpos positive, mul_pos_iff_of_pos_right positive,
    mul_div_mul_right _ _ (ne_of_gt positive)]

theorem satisfaction_mul (stock demand : ℝ) :
    satisfaction (stock * weight) (demand * weight) = satisfaction stock demand := by
  simp only [satisfaction, mul_nonpos_iff_nonpos positive,
    mul_div_mul_right _ _ (ne_of_gt positive)]

theorem Target.regrow_mul (target : Target ℝ) (stock : ℝ) :
    Target.regrow { target with level := target.level * weight } (stock * weight) =
      target.regrow stock * weight := by
  have below : (stock * weight < target.level * weight) = (stock < target.level) :=
    propext (mul_lt_mul_iff_of_pos_right positive)
  simp only [regrow, below]
  split
  · ring
  · rfl

end ratios

theorem OrderGroup.amount_inUnits (group : OrderGroup ℝ) (units : Units) (good : Good) :
    (group.inUnits units).amount good = group.amount good * units.factor[good] := by
  simp only [amount, inUnits, List.filter_map, List.map_map, ← List.sum_map_mul_right]
  refine congrArg List.sum (List.map_congr_left fun input member => ?_)
  have same : input.1 = good := by simpa using (List.mem_filter.mp member).2
  simp [same]

/-- Demand and supply in other units, of an economy that is some times as large. -/
noncomputable def Totals.scaled (totals : Totals ℝ) (units : Units) (factor : ℝ) : Totals ℝ where
  demand := units.scale factor totals.demand
  supply := units.scale factor totals.supply

namespace Economy

variable (economy : Economy ℝ) (units : Units) (outputs : OrderedMap Labor (Output ℝ))
  (factor : ℝ)

/-- The economy in other units and some times as large. -/
noncomputable def scaled : Economy ℝ := (economy.inUnits units outputs).multiplied factor

theorem scaled_eq : economy.scaled units outputs factor =
    { economy with
      population := economy.population * factor
      stocks := units.scale factor economy.stocks
      surplus := units.scale factor economy.surplus
      marginalSurplus := units.scale factor economy.marginalSurplus
      yields := units.measureYields outputs economy.yields } := rfl

variable {economy units outputs factor}

theorem withSurplus_scaled (totals : Totals ℝ) :
    (economy.scaled units outputs factor).withSurplus (totals.scaled units factor) =
      (economy.withSurplus totals).scaled units outputs factor := by
  have surplus : Table.ofFn (fun good => (units.scale factor totals.supply)[good] +
      (units.scale factor economy.stocks)[good] - (units.scale factor totals.demand)[good]) =
        units.scale factor (economy.withSurplus totals).surplus :=
    units.scale_ofFn fun good => by simp only [Units.getElem_scale]; ring
  have marginal : Table.ofFn (fun good => (units.scale factor totals.supply)[good] -
      (units.scale factor totals.demand)[good]) =
        units.scale factor (economy.withSurplus totals).marginalSurplus :=
    units.scale_ofFn fun good => by simp only [Units.getElem_scale]; ring
  rw [scaled_eq, scaled_eq, withSurplus]
  exact congrArg₂ (fun surplus marginalSurplus => { economy with
    population := economy.population * factor
    stocks := units.scale factor economy.stocks
    surplus
    marginalSurplus
    yields := units.measureYields outputs economy.yields }) surplus marginal

theorem weights_scaled : (economy.scaled units outputs factor).weights
    (outputs.mapValues (·.inUnits units)) = economy.weights outputs := by
  rw [weights, OrderedMap.mapValues, List.map_map]
  rfl

theorem reassigned_scaled (smoothing total floor : ℝ) :
    (economy.scaled units outputs factor).reassigned (outputs.mapValues (·.inUnits units)) smoothing
        total floor =
      (economy.reassigned outputs smoothing total floor).scaled units outputs factor := by
  rw [reassigned, OrderedMap.mapValues, List.foldl_map]
  rfl

theorem reallocate_scaled (rule : LaborRule ℝ) :
    (economy.scaled units outputs factor).reallocate rule (outputs.mapValues (·.inUnits units)) =
      (economy.reallocate rule outputs).map fun result =>
        (result.1, result.2.scaled units outputs factor) := by
  show _ = (fun result : ℝ × Economy ℝ => (result.1, result.2.scaled units outputs factor)) <$> _
  simp only [reallocate, weights_scaled, reassigned_scaled, map_bind, apply_ite (Functor.map _),
    map_pure]
  rfl

theorem mirrors_employ (rules : Rules ℝ) (catalog : Catalog ℝ) :
    Outcome.Mirrors (·.scaled units catalog.outputs factor) (economy.employ rules catalog)
      ((economy.scaled units catalog.outputs factor).employ rules (catalog.inUnits units)) := by
  rw [employ, employ, Catalog.inUnits, reallocate_scaled, Outcome.given_map]
  exact Outcome.mirrors_given _ fun _ => Outcome.mirrors_done _ _

variable (positive : 0 < factor)
include positive

theorem headcount_scaled :
    (economy.scaled units outputs factor).headcount = economy.headcount * factor := by
  rw [headcount_eq, headcount_eq, max_mul_of_nonneg _ _ (le_of_lt positive), zero_mul]
  rfl

theorem scale_scaled (head : Option Labor) :
    (economy.scaled units outputs factor).scale head = economy.scale head * factor := by
  cases head with
  | none => exact headcount_scaled positive
  | some labor =>
    rw [scale, headcount_scaled positive, scale, mul_assoc]
    rfl

theorem demand_scaled (orders : List (OrderGroup ℝ)) :
    (economy.scaled units outputs factor).demand (orders.map (·.inUnits units)) =
      units.scale factor (economy.demand orders) := by
  refine Table.ext fun good => ?_
  rw [Units.getElem_scale, getElem_demand, getElem_demand, List.map_map, ← List.sum_map_mul_right]
  refine congrArg List.sum (List.map_congr_left fun group _ => ?_)
  show (group.inUnits units).amount good * scale _ group.labor = _
  rw [OrderGroup.amount_inUnits, scale_scaled positive]
  ring

theorem supply_scaled :
    (economy.scaled units outputs factor).supply (outputs.mapValues (·.inUnits units)) =
      units.scale factor (economy.supply outputs) := by
  refine Table.ext fun good => ?_
  rw [Units.getElem_scale, getElem_supply, getElem_supply, OrderedMap.mapValues, List.filter_map,
    List.map_map, ← List.sum_map_mul_right]
  refine congrArg List.sum (List.map_congr_left fun entry member => ?_)
  obtain ⟨present, same⟩ := List.mem_filter.mp member
  have made : entry.2.good = good := by simpa [Output.inUnits] using same
  have found := (OrderedMap.find?_eq_some_iff _ _ _).mpr present
  show (economy.scaled units outputs factor).yields[entry.1] * economy.shares[entry.1] *
    headcount _ = _
  have yields : (economy.scaled units outputs factor).yields[entry.1] = _ :=
    units.getElem_measureYields found economy.yields
  rw [yields, headcount_scaled positive, made]
  ring

theorem totals_scaled (catalog : Catalog ℝ) :
    (economy.scaled units catalog.outputs factor).totals (catalog.inUnits units) =
      (economy.totals catalog).scaled units factor := by
  rw [totals, Catalog.inUnits, demand_scaled positive, supply_scaled positive]
  rfl

theorem mirrors_revalue (rule : ValueRule ℝ) (demand : Table Good ℝ) :
    Outcome.Mirrors (·.scaled units outputs factor) (economy.revalue rule demand)
      ((economy.scaled units outputs factor).revalue rule (units.scale factor demand)) := by
  refine Outcome.mirrors_given _ fun bounds => ?_
  refine Outcome.mirrors_each (fun good _ state _ => ?_) (fun _ _ _ _ _ _ => trivial) trivial
  have same : rule.next bounds[good] state.values[good]
      (state.scaled units outputs factor).surplus[good] (units.scale factor demand)[good] =
        rule.next bounds[good] state.values[good] state.surplus[good] demand[good] := by
    rw [scaled_eq, Units.getElem_scale, Units.getElem_scale,
      ValueRule.next_mul (units.scale_pos positive)]
  rw [revalueGood, revalueGood]
  show Outcome.Mirrors _ _ (.given (rule.next bounds[good] state.values[good] _ _) _ _)
  rw [same]
  exact Outcome.mirrors_given _ fun value => Outcome.mirrors_noted _ _ _ _

theorem mirrors_trade (rules : Rules ℝ) (totals : Totals ℝ) :
    Outcome.Mirrors (·.scaled units outputs factor) (economy.trade rules totals)
      ((economy.scaled units outputs factor).trade rules (totals.scaled units factor)) := by
  rw [trade, trade, withSurplus_scaled]
  refine (mirrors_revalue positive _ _).andThen fun state _ => ?_
  refine Outcome.mirrors_given _ fun ceilings => ?_
  have prices : (state.scaled units outputs factor).repriced ceilings (totals.scaled units factor) =
      (state.repriced ceilings totals).scaled units outputs factor := by
    simp only [repriced, scaled_eq, Totals.scaled, Units.getElem_scale,
      price_mul (units.scale_pos positive)]
  rw [prices]
  exact Outcome.mirrors_done _ _

end Economy

namespace OrderGroup

variable (group : OrderGroup ℝ) (units : Units) {factor : ℝ}

theorem satisfaction_scaled (positive : 0 < factor) (stocks demand : Table Good ℝ) :
    (group.inUnits units).satisfaction (units.scale factor stocks) (units.scale factor demand) =
      group.satisfaction stocks demand := by
  obtain ⟨head, inputs⟩ := group
  cases inputs with
  | nil => rfl
  | cons input rest =>
    simp only [satisfaction, inUnits, List.map_cons, List.foldl_map, Units.getElem_scale,
      satisfaction_mul (units.scale_pos positive)]

theorem consume_scaled (positive : 0 < factor) (scale satisfaction : ℝ) (stocks : Table Good ℝ) :
    (group.inUnits units).consume (scale * factor) satisfaction (units.scale factor stocks) =
      units.scale factor (group.consume scale satisfaction stocks) := by
  rw [consume, consume, inUnits, List.foldl_map]
  refine List.foldl_hom _ fun stocks input => units.scale_modify fun stock => ?_
  rw [Scalar.larger_eq_max, Scalar.larger_eq_max,
    max_mul_of_nonneg _ _ (le_of_lt (units.scale_pos positive)), zero_mul, used, used]
  congr 1
  ring

end OrderGroup

namespace Economy

variable {economy : Economy ℝ} {units : Units} {outputs : OrderedMap Labor (Output ℝ)}
  {factor : ℝ} {exponent : Given ℝ} (positive : 0 < factor)
  (linear : factor = 1 ∨ exponent.Denotes 1)
include positive linear

/-- The first power of a workforce is as many times as large as the economy. -/
theorem effort_scaled (labor : Labor) :
    (economy.scaled units outputs factor).effort labor exponent =
      (economy.effort labor exponent).map (· * factor) := by
  rw [effort, effort, scale_scaled positive]
  rcases linear with rfl | one
  · have same : (fun workforce : ℝ => workforce * 1) = id := funext mul_one
    rw [mul_one, same, Except.map_id]
    rfl
  · have first (workforce : ℝ) : Scalar.power workforce 1 = .ok workforce :=
      Scalar.power_eq_ok_iff.mpr ⟨by norm_num, Real.rpow_one workforce⟩
    rw [one.operand]
    show Scalar.power (economy.scale (some labor) * factor) 1 =
      (Scalar.power (economy.scale (some labor)) 1).map (· * factor)
    rw [first, first]
    rfl

theorem mirrors_turnOut {labor : Labor} {output : Output ℝ}
    (found : outputs.find? labor = some output) (satisfaction : ℝ) :
    Outcome.Mirrors (·.scaled units outputs factor)
      (economy.turnOut labor output exponent satisfaction)
      ((economy.scaled units outputs factor).turnOut labor (output.inUnits units) exponent
        satisfaction) := by
  let worked : Economy ℝ :=
    { economy with
      yields := economy.yields.set labor (satisfaction * output.rate)
      productivity := economy.productivity.set labor satisfaction }
  have yields : (units.measureYields outputs economy.yields).set labor
      (satisfaction * (output.rate * units.factor[output.good])) =
        units.measureYields outputs worked.yields := by
    rw [← mul_assoc, units.measureYields_set found]
  -- The industry records its yield before it adds its output, so the record is scaled on its own.
  have turned : (economy.scaled units outputs factor).turnOut labor (output.inUnits units) exponent
      satisfaction =
        .given ((worked.scaled units outputs factor).effort labor exponent)
          (worked.scaled units outputs factor) fun effort =>
            .done { worked.scaled units outputs factor with
              stocks := (units.scale factor economy.stocks).modify output.good
                (· + satisfaction * (output.rate * units.factor[output.good]) * effort) } := by
    rw [scaled_eq worked, ← yields]
    rfl
  rw [turned, effort_scaled positive linear, Outcome.given_map]
  refine Outcome.mirrors_given _ fun effort => ?_
  have stocks : (units.scale factor economy.stocks).modify output.good
      (· + satisfaction * (output.rate * units.factor[output.good]) * (effort * factor)) =
        units.scale factor (economy.stocks.modify output.good
          (· + satisfaction * output.rate * effort)) :=
    units.scale_modify fun stock => by ring
  rw [stocks]
  exact Outcome.mirrors_done _ _

theorem mirrors_runGroup (before demand : Table Good ℝ) (group : OrderGroup ℝ) :
    Outcome.Mirrors (·.scaled units outputs factor)
      (runGroup outputs exponent before demand group economy)
      (runGroup (outputs.mapValues (·.inUnits units)) exponent (units.scale factor before)
        (units.scale factor demand) (group.inUnits units)
        (economy.scaled units outputs factor)) := by
  have inputs : (group.inUnits units).inputs.isEmpty = group.inputs.isEmpty := List.isEmpty_map
  have head : (group.inUnits units).labor = group.labor := rfl
  simp only [runGroup, inputs, head, OrderGroup.satisfaction_scaled group units positive,
    scale_scaled positive]
  split
  · exact Outcome.mirrors_failed _ _ _
  have stocks : (group.inUnits units).consume (economy.scale group.labor * factor)
      (group.satisfaction before demand) (economy.scaled units outputs factor).stocks =
        units.scale factor (group.consume (economy.scale group.labor)
          (group.satisfaction before demand) economy.stocks) :=
    group.consume_scaled units positive _ _ _
  rw [stocks]
  cases group.labor with
  | none => exact Outcome.mirrors_done _ _
  | some labor =>
    simp only [OrderedMap.find?_mapValues]
    cases found : outputs.find? labor with
    | none => exact Outcome.mirrors_failed _ _ _
    | some output => exact mirrors_turnOut positive linear found _

theorem mirrors_produce (catalog : Catalog ℝ) (demand : Table Good ℝ) :
    Outcome.Mirrors (·.scaled units catalog.outputs factor)
      (economy.produce catalog exponent demand)
      ((economy.scaled units catalog.outputs factor).produce (catalog.inUnits units) exponent
        (units.scale factor demand)) := by
  rw [produce, produce, Catalog.inUnits, Outcome.each_map]
  exact Outcome.mirrors_each
    (fun group _ state _ => mirrors_runGroup positive linear economy.stocks demand group)
    (fun _ _ _ _ _ _ => trivial) trivial

end Economy

theorem Replenisher.replenish_scaled (replenisher : Replenisher ℝ) (units : Units) {factor : ℝ}
    (positive : 0 < factor) (stocks : Table Good ℝ) :
    ((replenisher.inUnits units).multiplied factor).replenish (units.scale factor stocks) =
      units.scale factor (replenisher.replenish stocks) := by
  cases replenisher with
  | barren => rfl
  | renewable targets =>
    simp only [inUnits, multiplied, replenish, OrderedMap.mapValues, OrderedMap.mapEntries,
      List.map_map, List.foldl_map]
    refine List.foldl_hom _ fun stocks entry => units.scale_modify fun stock => ?_
    simp only [Function.comp_apply, mul_assoc]
    exact Target.regrow_mul (units.scale_pos positive) entry.2 stock

namespace Economy

variable {economy : Economy ℝ} {units : Units} {outputs : OrderedMap Labor (Output ℝ)}
  {factor : ℝ}

theorem decayed_scaled (decay : Table Good ℝ) :
    (economy.scaled units outputs factor).decayed decay =
      (economy.decayed decay).scaled units outputs factor := by
  have stocks : Table.zipWith (fun stock rate => stock * (1 - rate))
      (units.scale factor economy.stocks) decay =
        units.scale factor (economy.decayed decay).stocks := by
    refine Table.ext fun good => ?_
    rw [Table.getElem_zipWith, Units.getElem_scale, Units.getElem_scale, getElem_stocks_decayed]
    ring
  exact congrArg (fun stocks => { economy.scaled units outputs factor with stocks }) stocks

variable (positive : 0 < factor)
include positive

theorem replenished_scaled (replenisher : Replenisher ℝ) :
    (economy.scaled units outputs factor).replenished
        ((replenisher.inUnits units).multiplied factor) =
      (economy.replenished replenisher).scaled units outputs factor :=
  congrArg (fun stocks => { economy.scaled units outputs factor with stocks })
    (replenisher.replenish_scaled units positive economy.stocks)

theorem floored_scaled :
    (economy.scaled units outputs factor).floored =
      economy.floored.scaled units outputs factor := by
  have stocks : (units.scale factor economy.stocks).map (fun stock =>
      if stock ≤ 0 then 0 else stock) = units.scale factor economy.floored.stocks := by
    refine Table.ext fun good => ?_
    rw [Table.getElem_map, Units.getElem_scale, Units.getElem_scale, floored, Table.getElem_map]
    simp only [mul_nonpos_iff_nonpos (units.scale_pos positive), ite_mul, zero_mul]
  exact congrArg (fun stocks => { economy.scaled units outputs factor with stocks }) stocks

theorem grown_scaled (demography : Demography ℝ) (days : Given ℝ) :
    (economy.scaled units outputs factor).grown demography days =
      (economy.grown demography days).map (· * factor) := by
  have births : (economy.scaled units outputs factor).births demography =
      economy.births demography := by
    simp only [Economy.births, scaled_eq, Units.getElem_scale,
      mul_pos_iff_of_pos_right (units.scale_pos positive)]
  have growth : (economy.scaled units outputs factor).growth demography =
      economy.growth demography := by
    rw [Economy.growth, births, Economy.growth]
  rw [grown, grown, growth]
  cases days.operand (.notOperand "/" · .real) with
  | error fault => rfl
  | ok days =>
    cases economy.growth demography with
    | error fault => rfl
    | ok growth =>
      have grown : economy.population * factor +
          days / daysPerYear * (economy.population * factor) * growth =
            (economy.population + days / daysPerYear * economy.population * growth) * factor := by
        ring
      exact congrArg Except.ok grown

theorem mirrors_growPopulation (demography : Demography ℝ) (days : Given ℝ) :
    Outcome.Mirrors (·.scaled units outputs factor) (economy.growPopulation demography days)
      ((economy.scaled units outputs factor).growPopulation demography days) := by
  rw [growPopulation, growPopulation, grown_scaled positive, Outcome.given_map]
  refine Outcome.mirrors_given _ fun population => ?_
  have extinct : (population * factor < 0) = (population < 0) :=
    propext (by rw [← not_le, ← not_le, mul_nonneg_iff_of_pos_right positive])
  simp only [peopled, extinct]
  split
  · have nobody : { economy.scaled units outputs factor with population := 0 } =
        Economy.scaled { economy with population := 0 } units outputs factor :=
      congrArg (fun population => { economy.scaled units outputs factor with population })
        (zero_mul factor).symm
    rw [nobody]
    exact Outcome.mirrors_noted _ _ _ _
  · exact Outcome.mirrors_done _ _

/-- A tick in other units, of an economy that is some times as large, mirrors a tick of that
economy. -/
theorem mirrors_tick {rules : Rules ℝ} (linear : factor = 1 ∨ rules.exponent.Denotes 1)
    (catalog : Catalog ℝ) (decay : Table Good ℝ) (replenisher : Replenisher ℝ) (days : Given ℝ) :
    Outcome.Mirrors (·.scaled units catalog.outputs factor)
      (economy.tick rules catalog decay replenisher days)
      ((economy.scaled units catalog.outputs factor).tick rules (catalog.inUnits units) decay
        ((replenisher.inUnits units).multiplied factor) days) := by
  simp only [tick, totals_scaled positive]
  have renews (state : Economy ℝ) :
      Outcome.Mirrors (·.scaled units catalog.outputs factor)
        (state.renew rules decay replenisher days)
        ((state.scaled units catalog.outputs factor).renew rules decay
          ((replenisher.inUnits units).multiplied factor) days) := by
    rw [renew, renew, decayed_scaled, replenished_scaled positive, floored_scaled positive]
    exact mirrors_growPopulation positive _ _
  refine ((Outcome.Mirrors.andThen ?trade ?employ).andThen ?produce).andThen fun state _ =>
    renews state
  case trade => exact mirrors_trade positive rules _
  case employ => exact fun _ _ => mirrors_employ rules catalog
  case produce => exact fun _ _ => mirrors_produce positive linear catalog _

end Economy

/-- The units in which the goods are measured already. -/
noncomputable def Units.same : Units where
  factor := Table.const 1
  positive good := by simp

@[simp]
theorem Units.measure_same (amounts : Table Good ℝ) : Units.same.measure amounts = amounts :=
  Table.ext fun good => by simp [same]

@[simp]
theorem Units.measureYields_same (outputs : OrderedMap Labor (Output ℝ))
    (yields : Table Labor ℝ) : Units.same.measureYields outputs yields = yields := by
  refine Table.ext fun labor => ?_
  rw [measureYields, Table.getElem_ofFn]
  cases outputs.find? labor <;> simp [same]

theorem Catalog.inUnits_same (catalog : Catalog ℝ) : catalog.inUnits .same = catalog := by
  have orders : catalog.orders.map (·.inUnits .same) = catalog.orders := by
    simp [OrderGroup.inUnits, Units.same]
  have outputs : catalog.outputs.mapValues (·.inUnits .same) = catalog.outputs :=
    OrderedMap.ext_entries (by simp [OrderedMap.mapValues, Output.inUnits, Units.same])
  rw [inUnits, orders, outputs]

theorem Replenisher.inUnits_same (replenisher : Replenisher ℝ) :
    replenisher.inUnits .same = replenisher := by
  cases replenisher with
  | barren => rfl
  | renewable targets =>
    exact congrArg renewable
      (OrderedMap.ext_entries (by simp [OrderedMap.mapEntries, Units.same]))

theorem Replenisher.multiplied_one (replenisher : Replenisher ℝ) :
    replenisher.multiplied 1 = replenisher := by
  cases replenisher with
  | barren => rfl
  | renewable targets =>
    exact congrArg renewable (OrderedMap.ext_entries (by simp [OrderedMap.mapValues]))

theorem Economy.inUnits_same (economy : Economy ℝ) (outputs : OrderedMap Labor (Output ℝ)) :
    economy.inUnits .same outputs = economy := by
  simp only [inUnits, Units.measure_same, Units.measureYields_same]

theorem Economy.multiplied_one (economy : Economy ℝ) : economy.multiplied 1 = economy := by
  have same (amounts : Table Good ℝ) : amounts.map (fun amount => amount) = amounts :=
    Table.ext fun good => by simp
  simp only [multiplied, mul_one, same]

theorem Economy.totals_multiplied (economy : Economy ℝ) {factor : ℝ} (positive : 0 < factor)
    (catalog : Catalog ℝ) (good : Good) :
    ((economy.multiplied factor).totals catalog).demand[good] =
        (economy.totals catalog).demand[good] * factor ∧
      ((economy.multiplied factor).totals catalog).supply[good] =
        (economy.totals catalog).supply[good] * factor := by
  have totals : (economy.scaled .same catalog.outputs factor).totals (catalog.inUnits .same) = _ :=
    totals_scaled positive catalog
  have unit : Units.same.factor[good] = 1 := Table.getElem_const _ _
  rw [catalog.inUnits_same, scaled, inUnits_same] at totals
  simp only [totals, Totals.scaled, Units.getElem_scale, unit, one_mul, and_self]

end Settlement
