import Settlement.Proofs.Exact.Run
/-!
Extinction. A population dies out in a tick exactly when the deaths of that tick outweigh it, and a
site without people stays without them: its market is closed, its industries stand still, and only
decay and growth change what it has in store.
-/
namespace Settlement

/-- One round of decay and growth, after which no stock is below zero. -/
def Replenisher.weather {R : Type} [Scalar R] (replenisher : Replenisher R)
    (decay stocks : Table Good R) : Table Good R :=
  (replenisher.replenish (Table.zipWith (fun stock rate => stock * (1 - rate)) stocks decay)).map
    fun stock => if stock ≤ 0 then 0 else stock

namespace Economy

/-- Nobody is there: nothing is asked for or made, and production leaves all stocks as they are. -/
structure Deserted (rules : Rules ℝ) (catalog : Catalog ℝ) (economy : Economy ℝ) : Prop where
  population : economy.population = 0
  demand : ∀ good : Good, (economy.totals catalog).demand[good] = 0
  supply : ∀ good : Good, (economy.totals catalog).supply[good] = 0
  production : ∃ staffed produced, (economy.staff rules catalog).Reaches staffed ∧
    (staffed.produce catalog rules.exponent (economy.totals catalog).demand).Reaches produced ∧
      staffed.stocks = economy.stocks ∧ produced.stocks = economy.stocks

/-- Nothing is worth anything. -/
structure Closed (economy : Economy ℝ) : Prop where
  marginalSurplus : ∀ good : Good, economy.marginalSurplus[good] = 0
  prices : ∀ good : Good, economy.prices[good] = 0
  values : ∀ good : Good, economy.values[good] = none

variable {economy : Economy ℝ} {inexact : Rules ℝ} {rules : ExactRules} {catalog : Catalog ℝ}
  {decay : Table Good ℝ} {replenisher : Replenisher ℝ} {days : ℝ}

theorem stocks_weathered (decay : Table Good ℝ) (replenisher : Replenisher ℝ) :
    ((economy.decayed decay).replenished replenisher).floored.stocks =
      replenisher.weather decay economy.stocks := rfl

theorem population_ticked (clamped : rules.clamped = true) :
    (economy.ticked rules catalog decay replenisher days).population =
      max 0 (economy.population + days / daysPerYear * economy.population * rules.growth
        (economy.ticked rules catalog decay replenisher days).surplus[Good.food]) := by
  obtain ⟨_, _, _, frame⟩ := produced_frame rules catalog economy
  simp only [ticked, aged, clamped, if_true, harvested, frame]
  rfl

/-- The deaths of a tick outweigh a population exactly when they would make up all of it. -/
theorem population_ticked_eq_zero_iff (clamped : rules.clamped = true)
    (peopled : 0 < economy.population) :
    (economy.ticked rules catalog decay replenisher days).population = 0 ↔
      1 ≤ days / daysPerYear * (rules.deathRate -
        if 0 < (economy.ticked rules catalog decay replenisher days).surplus[Good.food] then
          rules.birthRate else 0) := by
  rw [population_ticked clamped, max_eq_left_iff, ExactRules.growth]
  generalize (if 0 < (economy.ticked rules catalog decay replenisher days).surplus[Good.food] then
    rules.birthRate else 0) = births
  have deaths : economy.population + days / daysPerYear * economy.population *
      (births - rules.deathRate) = economy.population - economy.population *
        (days / daysPerYear * (rules.deathRate - births)) := by ring
  rw [deaths, sub_nonpos, le_mul_iff_one_le_right peopled]

section deserted

variable (empty : economy.population = 0)
include empty

theorem scale_of_empty (head : Option Labor) : economy.scale head = 0 := by
  have nobody : economy.headcount = 0 := by rw [headcount_eq, empty, max_self]
  cases head with
  | none => exact nobody
  | some labor => rw [scale, nobody, mul_zero]

theorem getElem_demand_of_empty (good : Good) : (economy.totals catalog).demand[good] = 0 := by
  rw [totals, getElem_demand]
  simp [scale_of_empty empty]

theorem getElem_supply_of_empty (good : Good) : (economy.totals catalog).supply[good] = 0 := by
  have nobody : economy.headcount = 0 := scale_of_empty empty none
  rw [totals, getElem_supply]
  simp [nobody]

variable (exponent : 0 < rules.exponent) (valid : catalog.Valid)
  (stocks : ∀ good : Good, 0 ≤ economy.stocks[good])
include exponent valid stocks

/-- Nobody takes anything, and no power of nobody's work makes anything. -/
theorem stocks_produced_of_empty : (economy.produced rules catalog).stocks = economy.stocks := by
  have idle : ∀ head, (economy.employed rules catalog).scale head = 0 := scale_of_empty empty
  have taken (good : Good) : (economy.employed rules catalog).totalTaken economy.stocks
      (economy.totals catalog).demand catalog.orders good = 0 := by
    simp [totalTaken, takes, OrderGroup.use_eq, idle]
  have made (good : Good) : (economy.employed rules catalog).totalMade catalog.outputs
      rules.exponent economy.stocks (economy.totals catalog).demand catalog.orders good = 0 := by
    apply List.sum_eq_zero
    intro amount member
    obtain ⟨group, _, rfl⟩ := List.mem_map.mp member
    rw [makes]
    cases group.producer? catalog.outputs with
    | none => rfl
    | some industry => simp [Economy.made, idle, Real.zero_rpow (ne_of_gt exponent)]
  refine Table.ext fun good => ?_
  have covered : (economy.employed rules catalog).totalTaken economy.stocks
      (economy.totals catalog).demand catalog.orders good ≤
        (economy.employed rules catalog).stocks[good] := by
    rw [taken]
    exact stocks good
  rw [produced, getElem_stocks_afterGroups (fun head => le_of_eq (idle head).symm) stocks
    valid.amount_nonneg valid.rate_nonneg covered, taken, made, sub_zero, add_zero]
  rfl

theorem stocks_ticked_of_empty :
    (economy.ticked rules catalog decay replenisher days).stocks =
      replenisher.weather decay economy.stocks := by
  rw [← stocks_produced_of_empty empty exponent valid stocks, ← stocks_weathered]
  rfl

end deserted

theorem closed_ticked_of_empty (empty : economy.population = 0) :
    (economy.ticked rules catalog decay replenisher days).Closed where
  marginalSurplus good := by
    obtain ⟨_, _, _, _, frame⟩ := ticked_frame rules catalog decay replenisher days economy
    have surplus : (economy.ticked rules catalog decay replenisher days).marginalSurplus[good] =
        (economy.totals catalog).supply[good] - (economy.totals catalog).demand[good] := by
      rw [frame]
      exact Table.getElem_ofFn _ good
    rw [surplus, getElem_demand_of_empty empty, getElem_supply_of_empty empty, sub_zero]
  prices good := by
    rw [prices_ticked, getElem_prices_traded, getElem_demand_of_empty empty, price]
    simp
  values good := by
    rw [getElem_values_ticked, getElem_demand_of_empty empty, ExactRules.value]
    simp

theorem deserted_of_empty (denotes : inexact.Denotes rules) (safe : rules.Safe)
    (exponent : 0 < rules.exponent) (valid : catalog.Valid) (empty : economy.population = 0)
    (stocks : ∀ good : Good, 0 ≤ economy.stocks[good]) : economy.Deserted inexact catalog where
  population := empty
  demand := getElem_demand_of_empty empty
  supply := getElem_supply_of_empty empty
  production := by
    have ready : economy.CanTick rules catalog := canTick_of_safe safe (le_of_lt exponent) valid
    exact ⟨economy.employed rules catalog, economy.produced rules catalog,
      (reaches_staff_iff_eq denotes).mpr ⟨ready.floorDivisor, ready.totalWeight, rfl⟩,
      (reaches_produce_iff_eq denotes.exponent).mpr ⟨ready.groups, rfl⟩, rfl,
      stocks_produced_of_empty empty exponent valid stocks⟩

end Economy

namespace World

variable {world : World ℝ} {rules : ExactRules} {lengths : List (Given ℝ)}
  {replenisher : Replenisher ℝ} {economy after : Economy ℝ}

/-- Each of the laps ends where nobody is, so the next one can go on there. -/
theorem deserted_laps (denotes : world.rules.Denotes rules) (clamped : rules.clamped = true)
    (exponent : 0 < rules.exponent) (valid : world.catalog.Valid)
    (empty : economy.population = 0) (stocks : ∀ good : Good, 0 ≤ economy.stocks[good])
    (forwards : ∀ given ∈ lengths, ∃ days, 0 < days ∧ given.Denotes days)
    (laps : (world.laps replenisher lengths economy).Reaches after) :
    after.population = 0 ∧ (∀ good : Good, 0 ≤ after.stocks[good]) ∧
      (lengths ≠ [] → after.Closed) ∧
      after.stocks = (replenisher.weather world.decay)^[lengths.length] economy.stocks := by
  have deserted := holds_of_laps (motive := fun count current =>
    current.population = 0 ∧ (∀ good : Good, 0 ≤ current.stocks[good]) ∧
      (0 < count → current.Closed) ∧
      current.stocks = (replenisher.weather world.decay)^[count] economy.stocks)
    denotes forwards laps ⟨empty, stocks, by simp, rfl⟩ ?_
  · obtain ⟨still, left, closed, rounds⟩ := deserted
    exact ⟨still, left, fun some => closed (List.length_pos_iff.mpr some), rounds⟩
  · intro count current days _ held
    obtain ⟨empty, stocks, _, rounds⟩ := held
    refine ⟨?_, fun good => ?_, fun _ => Economy.closed_ticked_of_empty empty, ?_⟩
    · rw [Economy.population_ticked clamped, empty]
      simp
    · rw [Economy.getElem_stocks_ticked]
      exact le_max_left _ _
    · rw [Economy.stocks_ticked_of_empty empty exponent valid stocks, rounds,
        Function.iterate_succ_apply']

/-- Extinction happens exactly when it should, and it is final. A population that is there dies
out in a tick just when the deaths of that tick make up all of it; where nobody is there, nobody
comes back, nothing is traded or made, and the stocks only decay and grow back. -/
theorem extinction_exact_and_final (denotes : world.rules.Denotes rules) (safe : rules.Safe)
    (clamped : rules.clamped = true) (exponent : 0 < rules.exponent)
    (checked : world.catalog.check = .ok ()) (indexed : world.Indexed) :
    (∀ given days, given.Denotes days → 0 < days →
      ∃ next, (world.tick given).Reaches next ∧
        ∀ site ∈ world.sites.values, 0 < site.economy.population →
          ∃ economy, next.site site.id = .ok { site with economy } ∧
            economy.surplus[Good.food] =
              (site.economy.totals world.catalog).supply[Good.food] +
                site.economy.stocks[Good.food] -
                  (site.economy.totals world.catalog).demand[Good.food] ∧
            (economy.population = 0 ↔ 1 ≤ days / daysPerYear * (rules.deathRate -
              if 0 < economy.surplus[Good.food] then rules.birthRate else 0))) ∧
      ∀ lengths, (∀ given ∈ lengths, ∃ days, 0 < days ∧ given.Denotes days) →
        ∃ reached, (world.run lengths).Reaches reached ∧
          ∀ site ∈ world.sites.values, site.economy.population = 0 →
            (∀ good : Good, 0 ≤ site.economy.stocks[good]) →
              ∃ economy, reached.site site.id = .ok { site with economy } ∧
                economy.Deserted world.rules world.catalog ∧
                (lengths ≠ [] → economy.Closed) ∧
                economy.stocks = (site.replenisher.weather world.decay)^[lengths.length]
                  site.economy.stocks := by
  have valid := Catalog.check_eq_ok_iff.mp checked
  constructor
  · intro given days length positive
    obtain ⟨next, ran⟩ := exists_reaches_run denotes safe (le_of_lt exponent) valid indexed
      (List.forall_mem_singleton.mpr ⟨days, le_of_lt positive, length⟩)
    refine ⟨next, by rwa [run, Outcome.each_singleton] at ran, ?_⟩
    intro site member peopled
    obtain ⟨economy, lapped, found⟩ := indexed.reaches_laps ran member
    rw [laps, Outcome.each_singleton] at lapped
    rcases (reaches_lap_iff_eq denotes length).mp lapped with ⟨zero, _⟩ | ⟨_, _, rfl⟩
    · exact absurd zero (ne_of_gt positive)
    · exact ⟨_, found, Economy.getElem_surplus_ticked _,
        Economy.population_ticked_eq_zero_iff clamped peopled⟩
  · intro lengths forwards
    obtain ⟨reached, ran⟩ := exists_reaches_run denotes safe (le_of_lt exponent) valid indexed
      fun given member => (forwards given member).imp fun _ days => ⟨le_of_lt days.1, days.2⟩
    refine ⟨reached, ran, ?_⟩
    intro site member empty stocks
    obtain ⟨economy, laps, found⟩ := indexed.reaches_laps ran member
    obtain ⟨still, left, closed, rounds⟩ :=
      deserted_laps denotes clamped exponent valid empty stocks forwards laps
    exact ⟨economy, found,
      Economy.deserted_of_empty denotes safe exponent valid still left, closed, rounds⟩

/-- A mill with its people. -/
noncomputable def peopledMill : Site ℝ := ⟨.ofText "north", .text "North", .mill, .barren⟩

/-- A mill without people, near fields where wheat grows back. -/
noncomputable def desertedMill : Site ℝ :=
  ⟨.ofText "south", .text "South", { Economy.mill with population := 0 },
    .renewable ⟨[(.wheat, ⟨(50 : Nat), 1 / (2 : Nat)⟩)], List.nodup_singleton _⟩⟩

/-- The mills of a country that one half of the people have left. -/
noncomputable def leftMills : World ℝ :=
  { mills with
    sites := ⟨[(.text "north", peopledMill), (.text "south", desertedMill)], by simp; decide⟩ }

theorem extinction_exact_and_final_leftMills :
    (∃ next economy, (leftMills.tick (.whole 30)).Reaches next ∧
      next.site peopledMill.id = .ok { peopledMill with economy } ∧ economy.population ≠ 0) ∧
      ∃ reached economy, (leftMills.run [.whole 30, .real (1 / 2)]).Reaches reached ∧
        reached.site desertedMill.id = .ok { desertedMill with economy } ∧ economy.Closed ∧
        economy.stocks = (desertedMill.replenisher.weather leftMills.decay)^[2]
          desertedMill.economy.stocks := by
  have month : (Given.whole 30 : Given ℝ).Denotes ((30 : Int) : ℝ) := .whole rfl
  have half : (Given.real (1 / 2) : Given ℝ).Denotes (1 / 2) := .real _
  have indexed : leftMills.Indexed := by
    simp [Indexed, leftMills, peopledMill, desertedMill, Name.ofText]
  obtain ⟨exact, final⟩ := extinction_exact_and_final (Rules.ofExact_denotes .standard)
    ExactRules.standard_admissible.safe rfl (by norm_num [ExactRules.standard])
    Catalog.check_mill indexed
  constructor
  · obtain ⟨next, ticked, sites⟩ := exact (.whole 30) _ month (by norm_num)
    have people : (0 : ℝ) < peopledMill.economy.population := by
      norm_num [peopledMill, Economy.mill, Economy.seeded]
    obtain ⟨economy, found, _, dies⟩ :=
      sites peopledMill (by simp [leftMills, OrderedMap.values]) people
    refine ⟨next, economy, ticked, found, fun extinct => ?_⟩
    have outweighed := dies.mp extinct
    split at outweighed <;> norm_num [ExactRules.standard, daysPerYear] at outweighed
  · obtain ⟨reached, ran, sites⟩ := final [.whole 30, .real (1 / 2)] (by
      simp only [List.forall_mem_cons]
      exact ⟨⟨_, by norm_num, month⟩, ⟨_, by norm_num, half⟩, by simp⟩)
    obtain ⟨economy, found, _, closed, rounds⟩ := sites desertedMill
      (by simp [leftMills, OrderedMap.values]) rfl Economy.mill_sound.stocks
    exact ⟨reached, economy, ran, found, closed (by simp), rounds⟩

end World

end Settlement
