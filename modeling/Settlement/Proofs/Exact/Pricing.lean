import Settlement.Proofs.Exact.Run
import Settlement.Proofs.Exact.Scarcity
/-!
When goods lose their values. No raw value is above four, so under higher ceilings only a glut, or
that nobody asks, leaves a good without a value, and no value outgrows four and what it began with.
-/
namespace Settlement

/-- Scarcity is measured by how much of the demand is there. -/
theorem rawValue_eq {supply stock demand : ℝ} (asked : 0 < demand) :
    rawValue (supply + stock - demand) demand = 2 ^ (2 - (supply + stock) / demand) := by
  have power : 1 - (supply + stock - demand) / demand = 2 - (supply + stock) / demand := by
    rw [sub_div, div_self (ne_of_gt asked)]
    ring
  rw [rawValue, power]
  rfl

namespace ExactRules

variable {rules : ExactRules} {good : Good} {previous : Option ℝ} {surplus demand value bound : ℝ}

/-- A bound of four or more on the old value is one on the next. -/
theorem value_le (smoothing : rules.valueSmoothing ∈ Set.Icc 0 1) (large : 4 ≤ bound)
    (available : -demand ≤ surplus) (old : ∀ value, previous = some value → value ≤ bound)
    (priced : rules.value good previous surplus demand = some value) : value ≤ bound := by
  obtain ⟨asked, _, rfl⟩ := value_eq_some priced
  have raw : rawValue surplus demand ≤ bound := le_trans (rawValue_le_four asked available) large
  have base : previous.getD (rawValue surplus demand) ≤ bound := by
    cases previous with
    | none => exact raw
    | some value => exact old value rfl
  exact convex_Iic bound base raw smoothing.1 (sub_nonneg.mpr smoothing.2) (by ring)

/-- Under a ceiling that raw values stay below, only the floor unprices what is asked for. -/
theorem value_eq_none_iff (ceiling : 4 < rules.valueCeiling[good])
    (available : -demand ≤ surplus) :
    rules.value good previous surplus demand = none ↔
      demand ≤ 0 ∨ rawValue surplus demand ≤ rules.valueFloor[good] := by
  rcases le_or_gt demand 0 with unasked | asked
  · simp [ExactRules.value, unasked, not_lt.mpr unasked]
  · have below := lt_of_le_of_lt (rawValue_le_four asked available) ceiling
    simp [ExactRules.value, asked, not_le.mpr asked, below]

end ExactRules

namespace Economy

/-- How a tick that leads from one economy to another prices a good. The raw value is that of the
surplus and the demand which the tick added up. -/
structure Prices (rules : ExactRules) (catalog : Catalog ℝ) (before after : Economy ℝ)
    (good : Good) : Prop where
  raw : 0 < (before.totals catalog).demand[good] →
    rawValue after.surplus[good] (before.totals catalog).demand[good] =
      2 ^ (2 - ((before.totals catalog).supply[good] + before.stocks[good]) /
        (before.totals catalog).demand[good])
  range : 0 < (before.totals catalog).demand[good] →
    rawValue after.surplus[good] (before.totals catalog).demand[good] ∈ Set.Ioc 0 4
  ceiling : 0 < (before.totals catalog).demand[good] →
    rawValue after.surplus[good] (before.totals catalog).demand[good] < rules.valueCeiling[good]
  unpriced : after.values[good] = none ↔ (before.totals catalog).demand[good] ≤ 0 ∨
    rawValue after.surplus[good] (before.totals catalog).demand[good] ≤ rules.valueFloor[good]

variable {economy : Economy ℝ} {rules : ExactRules} {catalog : Catalog ℝ} {decay : Table Good ℝ}
  {replenisher : Replenisher ℝ} {days : ℝ}

/-- No more of a good is missing than is asked for. -/
theorem NonNegative.neg_demand_le (nonneg : economy.NonNegative) (good : Good) :
    -(economy.totals catalog).demand[good] ≤
      (economy.totals catalog).supply[good] + economy.stocks[good] -
        (economy.totals catalog).demand[good] := by
  have supply : 0 ≤ (economy.totals catalog).supply[good] :=
    economy.supply_nonneg nonneg.shares nonneg.yields catalog.outputs good
  have stock := nonneg.stocks good
  linarith

theorem NonNegative.prices_ticked (nonneg : economy.NonNegative) {good : Good}
    (ceiling : 4 < rules.valueCeiling[good]) :
    Prices rules catalog economy (economy.ticked rules catalog decay replenisher days) good := by
  have available : -(economy.totals catalog).demand[good] ≤ _ := nonneg.neg_demand_le good
  rw [← getElem_surplus_ticked] at available
  refine ⟨?_, ?_, ?_, ?_⟩
  · intro asked
    rw [getElem_surplus_ticked]
    exact rawValue_eq asked
  · intro asked
    exact ⟨rawValue_pos _ _, rawValue_le_four asked available⟩
  · intro asked
    exact lt_of_le_of_lt (rawValue_le_four asked available) ceiling
  · rw [getElem_values_ticked, ← getElem_surplus_ticked]
    exact ExactRules.value_eq_none_iff ceiling available

end Economy

namespace World

variable {world reached : World ℝ} {rules : ExactRules} {lengths : List (Given ℝ)}
  {replenisher : Replenisher ℝ} {economy after : Economy ℝ}

theorem values_of_laps_le (denotes : world.rules.Denotes rules) (safe : rules.Safe)
    (valid : world.catalog.Valid) (nonneg : economy.NonNegative)
    (forwards : ∀ given ∈ lengths, ∃ days, 0 ≤ days ∧ given.Denotes days)
    (laps : (world.laps replenisher lengths economy).Reaches after) :
    after.NonNegative ∧ ∀ (good : Good) value, after.values[good] = some value →
      value ≤ max 4 (economy.worth good) := by
  let bounded (reached : Economy ℝ) : Prop := reached.NonNegative ∧
    ∀ (good : Good) value, reached.values[good] = some value → value ≤ max 4 (economy.worth good)
  have keeps : ∀ before days, 0 < days → bounded before →
      bounded (before.ticked rules world.catalog world.decay replenisher days) := by
    intro before days _ holds
    obtain ⟨held, values⟩ := holds
    refine ⟨held.ticked safe valid, fun good value priced => ?_⟩
    rw [Economy.getElem_values_ticked] at priced
    exact ExactRules.value_le safe.valueSmoothing (le_max_left _ _) (held.neg_demand_le good)
      (values good) priced
  have start : bounded economy := by
    refine ⟨nonneg, fun good value priced => ?_⟩
    rw [Economy.worth, priced]
    exact le_max_right _ _
  exact laps_keep denotes keeps forwards laps start

/-- Only a glut, or that nobody asks for it, leaves a good without a value. The test against the
ceiling refuses no good, and no value outgrows four and what it was at the start. -/
theorem unpriced_only_by_glut (denotes : world.rules.Denotes rules) (safe : rules.Safe)
    (ceilings : ∀ good : Good, 4 < rules.valueCeiling[good])
    (checked : world.catalog.check = .ok ()) (indexed : world.Indexed)
    (nonneg : ∀ site ∈ world.sites.values, site.economy.NonNegative)
    (forwards : ∀ given ∈ lengths, ∃ days, 0 ≤ days ∧ given.Denotes days)
    (ran : (world.run lengths).Reaches reached) :
    (∀ site ∈ reached.sites.values, ∃ start ∈ world.sites.values,
      site = { start with economy := site.economy } ∧
        ∀ (good : Good) value, site.economy.values[good] = some value →
          value ≤ max 4 (start.economy.worth good)) ∧
      ∀ given days next, given.Denotes days → 0 < days → (reached.tick given).Reaches next →
        ∀ site ∈ next.sites.values, ∃ before ∈ reached.sites.values,
          site = { before with economy := site.economy } ∧
            ∀ good, Economy.Prices rules world.catalog before.economy site.economy good := by
  have valid := Catalog.check_eq_ok_iff.mp checked
  have bounds : ∀ site ∈ reached.sites.values, ∃ start ∈ world.sites.values,
      site = { start with economy := site.economy } ∧ site.economy.NonNegative ∧
        ∀ (good : Good) value, site.economy.values[good] = some value →
          value ≤ max 4 (start.economy.worth good) := by
    intro site member
    obtain ⟨start, present, laps, same⟩ := indexed.exists_of_mem_reached ran member
    exact ⟨start, present, same,
      values_of_laps_le denotes safe valid (nonneg start present) forwards laps⟩
  constructor
  · intro site member
    obtain ⟨start, present, same, _, bounded⟩ := bounds site member
    exact ⟨start, present, same, bounded⟩
  · intro given days next length positive ticked site member
    have kept : reached.Indexed ∧ reached.rules = world.rules ∧
        reached.catalog = world.catalog := by
      obtain ⟨_, clock, _, rfl⟩ := (reaches_run_iff indexed).mp ran
      exact ⟨indexed.withEconomies _ _, rfl, rfl⟩
    obtain ⟨reindexed, sameRules, sameCatalog⟩ := kept
    rw [← sameRules] at denotes
    obtain ⟨before, present, same, economy⟩ :=
      reindexed.exists_of_mem_ticked denotes length positive ticked member
    obtain ⟨_, _, _, held, _⟩ := bounds before present
    refine ⟨before, present, same, fun good => ?_⟩
    rw [economy, sameCatalog]
    exact held.prices_ticked (ceilings good)

theorem unpriced_only_by_glut_mills :
    ∃ reached next, (mills.run [.whole 30, .real (1 / 2)]).Reaches reached ∧
      (reached.tick (.whole 7)).Reaches next ∧
      ∀ site ∈ next.sites.values, ∃ before ∈ reached.sites.values,
        site = { before with economy := site.economy } ∧
          ∀ good, Economy.Prices .standard .mill before.economy site.economy good := by
  have month : (Given.whole 30 : Given ℝ).Denotes ((30 : Int) : ℝ) := .whole rfl
  have half : (Given.real (1 / 2) : Given ℝ).Denotes (1 / 2) := .real _
  have week : (Given.whole 7 : Given ℝ).Denotes ((7 : Int) : ℝ) := .whole rfl
  have forwards : ∀ given ∈ ([.whole 30, .real (1 / 2), .whole 7] : List (Given ℝ)),
      ∃ days, 0 ≤ days ∧ given.Denotes days := by
    simp only [List.forall_mem_cons]
    exact ⟨⟨_, by norm_num, month⟩, ⟨_, by norm_num, half⟩, ⟨_, by norm_num, week⟩, by simp⟩
  have nonneg : ∀ site ∈ mills.sites.values, site.economy.NonNegative := by
    simp [mills, OrderedMap.values,
      Economy.mill_sound.nonNegative ExactRules.standard_admissible]
  have safe := ExactRules.standard_admissible.safe
  obtain ⟨next, ran⟩ := exists_reaches_run (Rules.ofExact_denotes _) safe
    ExactRules.standard_exponent_nonneg Catalog.mill_valid mills_indexed forwards
  -- The run of three ticks is one of two and a tick.
  obtain ⟨reached, first, last⟩ : ∃ reached,
      (mills.run [.whole 30, .real (1 / 2)]).Reaches reached ∧
        (reached.tick (.whole 7)).Reaches next := Outcome.reaches_each_concat.mp ran
  have ceilings (good : Good) : 4 < ExactRules.standard.valueCeiling[good] := by
    norm_num [ExactRules.standard]
  have priced := unpriced_only_by_glut (Rules.ofExact_denotes _) safe ceilings Catalog.check_mill
    mills_indexed nonneg (fun given member => forwards given (List.mem_append_left _ member)) first
  exact ⟨reached, next, first, last, priced.2 _ _ _ week (by norm_num) last⟩

end World

end Settlement
