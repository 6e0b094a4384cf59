import Settlement.Proofs.Exact.Bounds
/-!
How many people work. The shares that industries move toward sum to one before the floor that keeps
every industry alive is added, so a settlement may come to have more workers than people. By the
parameters of the design it has at most a thousandth too many for every industry but one, and it
comes nearer to that only by a fifth of the way per tick. More would take a negative weight: values
that overshoot, or productivity from stocks that were negative at the start.
-/
namespace Settlement

/-- The workforce moves by the parameters of the design. -/
structure ExactRules.StandardLabor (rules : ExactRules) : Prop where
  smoothing : rules.laborSmoothing = standard.laborSmoothing
  ratioFloor : rules.ratioFloor = standard.ratioFloor
  floorDivisor : rules.floorDivisor = standard.floorDivisor

/-- How many workers there may be too many after some ticks. -/
noncomputable def ExactRules.overstaffing (rules : ExactRules) (catalog : Catalog ℝ)
    (ticks : Nat) : ℝ :=
  (1 - rules.laborSmoothing ^ ticks) * (((catalog.outputs.size - 1 : Nat) : ℝ) / rules.floorDivisor)

namespace Economy

/-- No more workers than people, and industries with values and productivity to weigh them by. -/
structure Staffed (outputs : OrderedMap Labor (Output ℝ)) (economy : Economy ℝ) : Prop where
  shares : ∀ entry ∈ outputs.entries, 0 ≤ economy.shares[entry.1]
  total : economy.totalShare outputs ≤ 1
  values : ∀ (good : Good) value, economy.values[good] = some value → 0 < value
  productivity : ∀ labor : Labor, economy.productivity[labor] ∈ Set.Icc 0 1

/-- Nothing is negative that the weights of industries come from. -/
structure Weighable (economy : Economy ℝ) : Prop where
  stocks : ∀ good : Good, 0 ≤ economy.stocks[good]
  values : ∀ (good : Good) value, economy.values[good] = some value → 0 ≤ value
  productivity : ∀ labor : Labor, 0 ≤ economy.productivity[labor]

variable {economy : Economy ℝ} {rules : ExactRules} {catalog : Catalog ℝ} {decay : Table Good ℝ}
  {replenisher : Replenisher ℝ} {days : ℝ}

theorem Staffed.weighable (staffed : economy.Staffed catalog.outputs)
    (stocks : ∀ good : Good, 0 ≤ economy.stocks[good]) : economy.Weighable where
  stocks := stocks
  values good value priced := le_of_lt (staffed.values good value priced)
  productivity labor := (staffed.productivity labor).1

section weighable

variable (weighable : economy.Weighable) (smoothing : rules.valueSmoothing ∈ Set.Icc 0 1)
include weighable smoothing

theorem Weighable.ticked (valid : catalog.Valid) :
    (economy.ticked rules catalog decay replenisher days).Weighable where
  stocks good := by
    rw [getElem_stocks_ticked]
    exact le_max_left _ _
  values good value priced := by
    rw [values_ticked] at priced
    exact values_traded_nonneg smoothing weighable.values good value priced
  productivity labor :=
    record_ticked_mem (fun record => 0 ≤ record.1) valid weighable.stocks weighable.productivity
      (fun _ bounds _ _ => bounds.1) labor

variable (floor : 0 < rules.ratioFloor) (divisor : 1 ≤ rules.floorDivisor)
  (labor : rules.laborSmoothing ∈ Set.Icc 0 1)
include floor divisor labor

/-- One tick more, and one step nearer to the limit. -/
theorem Weighable.totalShare_ticked_le {ticks : Nat}
    (start : economy.totalShare catalog.outputs ≤ 1 + rules.overstaffing catalog ticks) :
    (economy.ticked rules catalog decay replenisher days).totalShare catalog.outputs ≤
      1 + rules.overstaffing catalog (ticks + 1) := by
  have weights (entry : Labor × Output ℝ) :
      0 ≤ (economy.traded rules (economy.totals catalog)).weight entry :=
    weight_nonneg (values_traded_nonneg smoothing weighable.values) weighable.productivity entry
  have moved : (economy.employed rules catalog).totalShare catalog.outputs ≤
      rules.laborSmoothing * economy.totalShare catalog.outputs + (1 - rules.laborSmoothing) *
        (1 + ((catalog.outputs.size : ℝ) - 1) / rules.floorDivisor) :=
    totalShare_restaffed_le floor divisor weights labor.2
  have others : (catalog.outputs.size : ℝ) - 1 ≤ ((catalog.outputs.size - 1 : Nat) : ℝ) := by
    have least : catalog.outputs.size ≤ catalog.outputs.size - 1 + 1 := by omega
    rw [sub_le_iff_le_add]
    exact_mod_cast least
  have target : 1 + ((catalog.outputs.size : ℝ) - 1) / rules.floorDivisor ≤
      1 + ((catalog.outputs.size - 1 : Nat) : ℝ) / rules.floorDivisor :=
    add_le_add_right (div_le_div_of_nonneg_right others (le_trans zero_le_one divisor)) 1
  rw [totalShare_ticked]
  calc _ ≤ rules.laborSmoothing * (1 + rules.overstaffing catalog ticks) +
          (1 - rules.laborSmoothing) *
            (1 + ((catalog.outputs.size - 1 : Nat) : ℝ) / rules.floorDivisor) :=
        le_trans moved (add_le_add (mul_le_mul_of_nonneg_left start labor.1)
          (mul_le_mul_of_nonneg_left target (sub_nonneg.mpr labor.2)))
    _ = 1 + rules.overstaffing catalog (ticks + 1) := by
        rw [ExactRules.overstaffing, ExactRules.overstaffing, pow_succ]
        ring

end weighable

end Economy

theorem ExactRules.overstaffing_le_succ {rules : ExactRules} (catalog : Catalog ℝ)
    (labor : rules.laborSmoothing ∈ Set.Icc 0 1) (divisor : 1 ≤ rules.floorDivisor) (ticks : Nat) :
    rules.overstaffing catalog ticks ≤ rules.overstaffing catalog (ticks + 1) := by
  have others : 0 ≤ ((catalog.outputs.size - 1 : Nat) : ℝ) / rules.floorDivisor :=
    div_nonneg (Nat.cast_nonneg _) (le_trans zero_le_one divisor)
  have powers : rules.laborSmoothing ^ (ticks + 1) ≤ rules.laborSmoothing ^ ticks :=
    pow_le_pow_of_le_one labor.1 labor.2 (Nat.le_succ ticks)
  exact mul_le_mul_of_nonneg_right (sub_le_sub_left powers 1) others

namespace World

variable {world reached : World ℝ} {rules : ExactRules} {replenisher : Replenisher ℝ}
  {economy after : Economy ℝ} {lengths : List (Given ℝ)}

/-- Laps of no time leave the bound that there was, which is below the next. -/
theorem totalShare_of_laps_le (denotes : world.rules.Denotes rules)
    (smoothing : rules.valueSmoothing ∈ Set.Icc 0 1) (floor : 0 < rules.ratioFloor)
    (divisor : 1 ≤ rules.floorDivisor) (labor : rules.laborSmoothing ∈ Set.Icc 0 1)
    (valid : world.catalog.Valid) (weighable : economy.Weighable)
    (numbers : ∀ given ∈ lengths, ∃ days, given.Denotes days) {ticks : Nat}
    (start : economy.totalShare world.catalog.outputs ≤
      1 + rules.overstaffing world.catalog ticks)
    (laps : (world.laps replenisher lengths economy).Reaches after) :
    after.totalShare world.catalog.outputs ≤
      1 + rules.overstaffing world.catalog (ticks + lengths.length) := by
  have kept := laps.each_counts (motive := fun count current => current.Weighable ∧
    current.totalShare world.catalog.outputs ≤
      1 + rules.overstaffing world.catalog (ticks + count)) ?_ ⟨weighable, start⟩
  · exact kept.2
  · intro given member count current next held lap
    obtain ⟨weighable, total⟩ := held
    obtain ⟨days, length⟩ := numbers given member
    rcases (reaches_lap_iff_eq denotes length).mp lap with ⟨_, rfl⟩ | ⟨_, _, rfl⟩
    · have more := rules.overstaffing_le_succ world.catalog labor divisor (ticks + count)
      exact ⟨weighable, le_trans total (add_le_add_right more 1)⟩
    · exact ⟨weighable.ticked smoothing valid,
        weighable.totalShare_ticked_le smoothing floor divisor labor total⟩

/-- By the standard parameters the workforce may exceed the population, but only by a thousandth
for every industry but one, and it takes long to do so. -/
theorem totalShare_of_run_le (denotes : world.rules.Denotes rules) (labor : rules.StandardLabor)
    (smoothing : rules.valueSmoothing ∈ Set.Icc 0 1) (checked : world.catalog.check = .ok ())
    (indexed : world.Indexed)
    (staffed : ∀ site ∈ world.sites.values, site.economy.Staffed world.catalog.outputs)
    (stocks : ∀ site ∈ world.sites.values, ∀ good : Good, 0 ≤ site.economy.stocks[good])
    (numbers : ∀ given ∈ lengths, ∃ days, given.Denotes days)
    (ran : (world.run lengths).Reaches reached) :
    ∀ site ∈ reached.sites.values, site.economy.totalShare world.catalog.outputs ≤
      1 + (1 - (4 / 5) ^ lengths.length) *
        (((world.catalog.outputs.size - 1 : Nat) : ℝ) / 1000) := by
  have admissible := ExactRules.standard_admissible
  intro site member
  obtain ⟨start, present, laps, _⟩ := indexed.exists_of_mem_reached ran member
  have none : rules.overstaffing world.catalog 0 = 0 := by
    rw [ExactRules.overstaffing, pow_zero, sub_self, zero_mul]
  have bound : site.economy.totalShare world.catalog.outputs ≤
      1 + rules.overstaffing world.catalog (0 + lengths.length) :=
    totalShare_of_laps_le denotes smoothing (labor.ratioFloor ▸ admissible.ratioFloor)
      (labor.floorDivisor ▸ admissible.floorDivisor)
      (labor.smoothing ▸ admissible.safe.laborSmoothing) (Catalog.check_eq_ok_iff.mp checked)
      ((staffed start present).weighable (stocks start present)) numbers
      (by rw [none, add_zero]; exact (staffed start present).total) laps
  rw [Nat.zero_add, ExactRules.overstaffing, labor.smoothing, labor.floorDivisor] at bound
  exact bound

theorem totalShare_of_run_le_mills :
    ∃ reached, (mills.run [.whole 30]).Reaches reached ∧ ∀ site ∈ reached.sites.values,
      site.economy.totalShare mills.catalog.outputs ≤ 1 := by
  have month : (Given.whole 30 : Given ℝ).Denotes ((30 : Int) : ℝ) := .whole rfl
  have denotes : mills.rules.Denotes .standard := Rules.ofExact_denotes _
  have admissible := ExactRules.standard_admissible
  have starts : ∀ start ∈ mills.sites.values, start.economy = .mill := by
    simp [mills, OrderedMap.values]
  have staffed : Economy.mill.Staffed mills.catalog.outputs :=
    { shares := fun entry _ => (Economy.mill_sound.shares entry.1).1
      total := by norm_num [Economy.totalShare, mills, Catalog.mill, Economy.mill, Economy.seeded]
      values := fun good value priced => by simp [Economy.mill, Economy.seeded] at priced
      productivity := Economy.mill_sound.productivity }
  have forwards : ∀ given ∈ [(Given.whole 30 : Given ℝ)], ∃ days, 0 ≤ days ∧ given.Denotes days :=
    fun given member => ⟨_, by norm_num, List.mem_singleton.mp member ▸ month⟩
  obtain ⟨reached, ran⟩ := exists_reaches_run denotes admissible.safe
    ExactRules.standard_exponent_nonneg Catalog.mill_valid mills_indexed forwards
  have bounds := totalShare_of_run_le denotes ⟨rfl, rfl, rfl⟩ admissible.valueSmoothing
    Catalog.check_mill mills_indexed (fun start present => starts start present ▸ staffed)
    (fun start present => starts start present ▸ Economy.mill_sound.stocks)
    (fun given member => (forwards given member).imp fun _ => And.right) ran
  refine ⟨reached, ran, fun site member => le_of_le_of_eq (bounds site member) ?_⟩
  norm_num [mills, Catalog.mill, OrderedMap.size]

end World

/-- Farmers take game and bring wheat, hunters take wheat and bring game. -/
def Catalog.exchange (rate : ℝ) : Catalog ℝ where
  orders := [⟨some .farmer, [(.game, 1)]⟩, ⟨some .hunter, [(.wheat, 1)]⟩]
  outputs := ⟨[(.farmer, ⟨.wheat, rate⟩), (.hunter, ⟨.game, rate⟩)], by simp⟩

theorem Catalog.exchange_valid {rate : ℝ} (nonneg : 0 ≤ rate) : (exchange rate).Valid where
  heads := by simp [exchange]
  inputs := by simp [exchange]
  amounts := by norm_num [exchange]
  outputs := by simp [exchange, OrderedMap.contains, OrderedMap.find?]
  groups := by simp [exchange]
  rates := by simp [exchange, nonneg]

/-- The standard parameters, but for how values are smoothed. -/
noncomputable def ExactRules.smoothed (smoothing : ℝ) : ExactRules :=
  { standard with valueSmoothing := smoothing }

/-- What the shares of two industries of these weights move toward, taken together. -/
noncomputable def ExactRules.pairTarget (rules : ExactRules) (first second : ℝ) : ℝ :=
  let total := max (first + second) rules.ratioFloor
  (max first (total / rules.floorDivisor) + max second (total / rules.floorDivisor)) / total

theorem ExactRules.StandardLabor.smoothed (smoothing : ℝ) :
    (ExactRules.smoothed smoothing).StandardLabor := ⟨rfl, rfl, rfl⟩

theorem rawValue_eq_zpow {surplus demand : ℝ} {power : Int}
    (exponent : 1 - surplus / demand = power) : rawValue surplus demand = 2 ^ power := by
  rw [← Real.rpow_intCast, ← exponent]
  rfl

theorem ExactRules.value_smoothed {smoothing raw surplus demand : ℝ} {good : Good}
    {previous : Option ℝ} (asked : 0 < demand) (scarcity : rawValue surplus demand = raw)
    (bounds : raw ∈ Set.Ioo (1 / 1000) 1000) :
    (smoothed smoothing).value good previous surplus demand =
      some (smoothing * previous.getD raw + (1 - smoothing) * raw) := by
  have range : raw ∈ Set.Ioo (smoothed smoothing).valueFloor[good]
      (smoothed smoothing).valueCeiling[good] := by
    simpa [smoothed, standard] using bounds
  rw [value, scarcity, if_pos ⟨asked, range⟩]
  rfl

namespace Economy

/-- One person, who spends half of the time in each industry. -/
noncomputable def exchange (wheat game : ℝ) (values : Table Good (Option ℝ)) : Economy ℝ :=
  seeded 1
    (Table.ofFn fun
      | .wheat => wheat
      | .game => game
      | _ => 0)
    values (Table.const (1 / (2 : Nat)))

section exchange

variable {economy : Economy ℝ} {rate wheat game : ℝ} {rules : ExactRules}
  {values : Table Good (Option ℝ)}

theorem totalShare_exchange : economy.totalShare (Catalog.exchange rate).outputs =
    economy.shares[Labor.farmer] + economy.shares[Labor.hunter] := by
  simp [totalShare, Catalog.exchange]

theorem demand_exchange :
    (economy.totals (.exchange rate)).demand[Good.wheat] = economy.scale (some .hunter) ∧
      (economy.totals (.exchange rate)).demand[Good.game] = economy.scale (some .farmer) := by
  constructor
  · refine (economy.getElem_demand _ _).trans ?_
    simp [Catalog.exchange, OrderGroup.amount]
  · refine (economy.getElem_demand _ _).trans ?_
    simp [Catalog.exchange, OrderGroup.amount]

theorem supply_exchange :
    (economy.totals (.exchange rate)).supply[Good.wheat] =
        economy.yields[Labor.farmer] * economy.shares[Labor.farmer] * economy.headcount ∧
      (economy.totals (.exchange rate)).supply[Good.game] =
        economy.yields[Labor.hunter] * economy.shares[Labor.hunter] * economy.headcount := by
  constructor
  · refine (economy.getElem_supply _ _).trans ?_
    simp [Catalog.exchange]
  · refine (economy.getElem_supply _ _).trans ?_
    simp [Catalog.exchange]

/-- The next shares, by what the two goods are worth. -/
theorem totalShare_ticked_exchange (first second : ℝ) {decay : Table Good ℝ}
    {replenisher : Replenisher ℝ} {days : ℝ}
    (farmers : (economy.traded rules (economy.totals (.exchange rate))).values[Good.wheat].getD 0 *
      economy.productivity[Labor.farmer] = first)
    (hunters : (economy.traded rules (economy.totals (.exchange rate))).values[Good.game].getD 0 *
      economy.productivity[Labor.hunter] = second) :
    (economy.ticked rules (.exchange rate) decay replenisher days).totalShare
        (Catalog.exchange rate).outputs =
      rules.laborSmoothing * economy.totalShare (Catalog.exchange rate).outputs +
        (1 - rules.laborSmoothing) * rules.pairTarget first second := by
  let traded := economy.traded rules (economy.totals (.exchange rate))
  have weights : traded.weight (.farmer, ⟨.wheat, rate⟩) = first ∧
      traded.weight (.hunter, ⟨.game, rate⟩) = second := ⟨farmers, hunters⟩
  have total : traded.totalWeight rules (Catalog.exchange rate).outputs =
      max (first + second) rules.ratioFloor := by
    rw [totalWeight, ← weights.1, ← weights.2]
    exact congrArg (max · _) List.sum_pair
  have targets : ((Catalog.exchange rate).outputs.entries.map
      (traded.targetShare rules (Catalog.exchange rate).outputs)).sum =
        traded.targetShare rules (Catalog.exchange rate).outputs (.farmer, ⟨.wheat, rate⟩) +
          traded.targetShare rules (Catalog.exchange rate).outputs (.hunter, ⟨.game, rate⟩) :=
    List.sum_pair
  rw [totalShare_ticked, employed, totalShare_restaffed, targets, targetShare, targetShare, total,
    weights.1, weights.2, ← add_div]
  rfl

theorem scale_exchange (labor : Labor) :
    (exchange wheat game values).scale (some labor) = 1 / 2 := by
  rw [scale, headcount_eq]
  norm_num [exchange, seeded]

/-- Each industry makes as much as the other asks for, so that the stocks are the surplus. -/
theorem values_traded_exchange :
    ((exchange wheat game values).traded rules
        ((exchange wheat game values).totals (.exchange rate))).values[Good.wheat] =
      rules.value .wheat values[Good.wheat] wheat (1 / 2) ∧
    ((exchange wheat game values).traded rules
        ((exchange wheat game values).totals (.exchange rate))).values[Good.game] =
      rules.value .game values[Good.game] game (1 / 2) := by
  have made (labor : Labor) : (exchange wheat game values).yields[labor] *
      (exchange wheat game values).shares[labor] * (exchange wheat game values).headcount =
        1 / 2 := by
    rw [headcount_eq]
    norm_num [exchange, seeded]
  have stocks : (exchange wheat game values).stocks[Good.wheat] = wheat ∧
      (exchange wheat game values).stocks[Good.game] = game := by
    constructor <;> exact Table.getElem_ofFn _ _
  constructor
  · rw [getElem_values_traded, demand_exchange.1, supply_exchange.1, scale_exchange, made, stocks.1,
      add_sub_cancel_left]
    rfl
  · rw [getElem_values_traded, demand_exchange.2, supply_exchange.2, scale_exchange, made, stocks.2,
      add_sub_cancel_left]
    rfl

theorem staffed_exchange (positive : ∀ (good : Good) value, values[good] = some value → 0 < value) :
    (exchange wheat game values).Staffed (Catalog.exchange rate).outputs where
  shares entry _ := by norm_num [exchange, seeded]
  total := by
    rw [totalShare_exchange]
    norm_num [exchange, seeded]
  values := positive
  productivity labor := by norm_num [exchange, seeded]

theorem stocks_exchange_nonneg (first : 0 ≤ wheat) (second : 0 ≤ game) (good : Good) :
    0 ≤ (exchange wheat game values).stocks[good] := by
  rw [exchange, seeded, Table.getElem_ofFn]
  cases good <;> simp [first, second]

theorem totalShare_ticked_of_worth (first second : ℝ) {decay : Table Good ℝ}
    {replenisher : Replenisher ℝ} {days : ℝ}
    (wheats : (rules.value .wheat values[Good.wheat] wheat (1 / 2)).getD 0 = first)
    (games : (rules.value .game values[Good.game] game (1 / 2)).getD 0 = second) :
    ((exchange wheat game values).ticked rules (.exchange rate) decay replenisher days).totalShare
        (Catalog.exchange rate).outputs =
      rules.laborSmoothing + (1 - rules.laborSmoothing) * rules.pairTarget first second := by
  have productivity (labor : Labor) : (exchange wheat game values).productivity[labor] = 1 :=
    Table.getElem_const _ _
  have start : (exchange wheat game values).totalShare (Catalog.exchange rate).outputs = 1 := by
    rw [totalShare_exchange]
    norm_num [exchange, seeded]
  have moved : ((exchange wheat game values).ticked rules (.exchange rate) decay replenisher
      days).totalShare (Catalog.exchange rate).outputs = _ :=
    totalShare_ticked_exchange first second
      (by rw [values_traded_exchange.1, productivity, wheats, mul_one])
      (by rw [values_traded_exchange.2, productivity, games, mul_one])
  rw [moved, start, mul_one]

/-- A good of which there is too much has no value, and its industry keeps the floor. -/
theorem totalShare_glut {decay : Table Good ℝ} {replenisher : Replenisher ℝ} {days : ℝ} :
    ((exchange 6 (1 / 2) (Table.const none)).ticked (.smoothed (4 / 5)) (.exchange rate) decay
      replenisher days).totalShare (Catalog.exchange rate).outputs = 1 + 1 / 5 * (1 / 1000) := by
  have glut : rawValue (6 : ℝ) (1 / 2) = 2 ^ (-11 : Int) := rawValue_eq_zpow (by norm_num)
  have even : rawValue (1 / 2 : ℝ) (1 / 2) = 1 :=
    (rawValue_eq_zpow (by norm_num)).trans (zpow_zero 2)
  have wheats : (ExactRules.smoothed (4 / 5)).value .wheat none 6 (1 / 2) = none := by
    rw [ExactRules.value, glut, if_neg]
    intro priced
    have cheap := priced.2.1
    norm_num [ExactRules.smoothed, ExactRules.standard] at cheap
  have games : (ExactRules.smoothed (4 / 5)).value .game none (1 / 2) (1 / 2) = some 1 := by
    rw [ExactRules.value_smoothed (by norm_num) even (by norm_num)]
    norm_num
  rw [totalShare_ticked_of_worth 0 1 (by rw [Table.getElem_const, wheats]; rfl)
    (by rw [Table.getElem_const, games]; rfl)]
  norm_num [ExactRules.pairTarget, ExactRules.smoothed, ExactRules.standard, max_def]

/-- Where a value may overshoot, one industry may weigh as much less than nothing as the other
weighs more. -/
theorem totalShare_overshot {decay : Table Good ℝ} {replenisher : Replenisher ℝ} {days : ℝ} :
    (20 : ℝ) < ((exchange 0 0 (Table.ofFn fun
        | .wheat => some (1 / 2)
        | .game => some (3 / 2)
        | _ => none)).ticked (.smoothed 2) (.exchange rate) decay replenisher days).totalShare
      (Catalog.exchange rate).outputs := by
  have scarce : rawValue (0 : ℝ) (1 / 2) = 2 := (rawValue_eq_zpow (by norm_num)).trans (zpow_one 2)
  have wheats : (ExactRules.smoothed 2).value .wheat (some (1 / 2)) 0 (1 / 2) = some (-1) := by
    rw [ExactRules.value_smoothed (by norm_num) scarce (by norm_num)]
    norm_num
  have games : (ExactRules.smoothed 2).value .game (some (3 / 2)) 0 (1 / 2) = some 1 := by
    rw [ExactRules.value_smoothed (by norm_num) scarce (by norm_num)]
    norm_num
  rw [totalShare_ticked_of_worth (-1) 1 (by rw [Table.getElem_ofFn, wheats]; rfl)
    (by rw [Table.getElem_ofFn, games]; rfl)]
  norm_num [ExactRules.pairTarget, ExactRules.smoothed, ExactRules.standard, max_def]

theorem record_ticked_exchange {decay : Table Good ℝ} {replenisher : Replenisher ℝ} {days : ℝ}
    (nonneg : 0 ≤ rate) :
    (economy.ticked rules (.exchange rate) decay replenisher days).record .farmer =
        (satisfaction economy.stocks[Good.game] (economy.scale (some .farmer)),
          satisfaction economy.stocks[Good.game] (economy.scale (some .farmer)) * rate) ∧
      (economy.ticked rules (.exchange rate) decay replenisher days).record .hunter =
        (satisfaction economy.stocks[Good.wheat] (economy.scale (some .hunter)),
          satisfaction economy.stocks[Good.wheat] (economy.scale (some .hunter)) * rate) := by
  have valid := Catalog.exchange_valid nonneg
  have demands : (economy.totals (.exchange rate)).demand[Good.wheat] = _ ∧
      (economy.totals (.exchange rate)).demand[Good.game] = _ := demand_exchange
  have farming : ∀ group ∈ (Catalog.exchange rate).orders, group.labor = some .farmer →
      group = ⟨some .farmer, [(.game, 1)]⟩ := by simp [Catalog.exchange]
  have hunting : ∀ group ∈ (Catalog.exchange rate).orders, group.labor = some .hunter →
      group = ⟨some .hunter, [(.wheat, 1)]⟩ := by simp [Catalog.exchange]
  have farmer : (Labor.farmer, (⟨.wheat, rate⟩ : Output ℝ)) ∈
      (Catalog.exchange rate).outputs.entries := by simp [Catalog.exchange]
  have hunter : (Labor.hunter, (⟨.game, rate⟩ : Output ℝ)) ∈
      (Catalog.exchange rate).outputs.entries := by simp [Catalog.exchange]
  obtain ⟨group, first, head, farmed⟩ := record_ticked_of_mem valid farmer
  obtain ⟨other, second, chief, hunted⟩ := record_ticked_of_mem valid hunter
  rw [farmed, hunted, farming group first head, hunting other second chief, ← demands.1,
    ← demands.2]
  exact ⟨rfl, rfl⟩

/-- Where there is nothing and nothing is made, both goods are as scarce as they can be. -/
theorem values_traded_scarce (stocks : ∀ good : Good, economy.stocks[good] = 0)
    (yields : economy.yields[Labor.farmer] = 0 ∧ economy.yields[Labor.hunter] = 0)
    (farmers : 0 < economy.scale (some .farmer)) (hunters : 0 < economy.scale (some .hunter)) :
    (economy.traded (.smoothed 0) (economy.totals (.exchange rate))).values[Good.wheat] = some 4 ∧
      (economy.traded (.smoothed 0) (economy.totals (.exchange rate))).values[Good.game] =
        some 4 := by
  have scarce {demand : ℝ} (asked : 0 < demand) : rawValue (0 + 0 - demand) demand = 4 := by
    have exponent : 1 - (0 + 0 - demand) / demand = ((2 : Int) : ℝ) := by
      rw [add_zero, zero_sub, neg_div, div_self (ne_of_gt asked)]
      norm_num
    rw [rawValue_eq_zpow exponent]
    norm_num
  have value {good : Good} {demand : ℝ} (asked : 0 < demand) :
      (ExactRules.smoothed 0).value good economy.values[good] (0 + 0 - demand) demand = some 4 := by
    rw [ExactRules.value_smoothed asked (scarce asked) (by norm_num), zero_mul, zero_add, sub_zero,
      one_mul]
  constructor
  · rw [getElem_values_traded, demand_exchange.1, supply_exchange.1, yields.1, stocks, zero_mul,
      zero_mul, value hunters]
  · rw [getElem_values_traded, demand_exchange.2, supply_exchange.2, yields.2, stocks, zero_mul,
      zero_mul, value farmers]

theorem shares_employed_pos {catalog : Catalog ℝ} (safe : rules.Safe)
    (smoothing : 0 < rules.laborSmoothing) {labor : Labor} (share : 0 < economy.shares[labor]) :
    0 < (economy.employed rules catalog).shares[labor] := by
  rw [employed, getElem_shares_restaffed]
  cases catalog.outputs.find? labor with
  | none => exact share
  | some output =>
    exact add_pos_of_pos_of_nonneg (mul_pos smoothing share)
      (mul_nonneg (sub_nonneg.mpr safe.laborSmoothing.2) (targetShare_nonneg safe _))

/-- A day is too short for people to die out. -/
theorem population_ticked_pos {catalog : Catalog ℝ} {decay : Table Good ℝ}
    {replenisher : Replenisher ℝ} {smoothing : ℝ} (people : 0 < economy.population) :
    0 < (economy.ticked (.smoothed smoothing) catalog decay replenisher 1).population := by
  let harvested := (economy.harvested (.smoothed smoothing) catalog decay replenisher).floored
  have same : harvested.population = economy.population := by
    obtain ⟨_, _, _, frame⟩ := produced_frame (.smoothed smoothing) catalog economy
    simp only [harvested, Economy.harvested, frame]
    rfl
  have growth (surplus : ℝ) : -(1 / 200) ≤ (ExactRules.smoothed smoothing).growth surplus := by
    unfold ExactRules.growth
    split <;> norm_num [ExactRules.smoothed, ExactRules.standard]
  have grown : 0 < harvested.populationAfter (.smoothed smoothing) 1 := by
    have days : (daysPerYear : ℝ) = 360 := by norm_num [daysPerYear]
    rw [populationAfter, same, days]
    nlinarith [mul_le_mul_of_nonneg_left (growth harvested.surplus[Good.food]) (le_of_lt people)]
  exact lt_of_lt_of_le grown (le_max_right _ _)

/-- One group has less than nothing to take, so that its industry is less than productive. -/
theorem totalShare_indebted :
    (80 : ℝ) < (((exchange (1 / 2) (-1 / 2) (Table.const none)).ticked (.smoothed 0) (.exchange 0)
      (Table.const 1) .barren 1).ticked (.smoothed 0) (.exchange 0) (Table.const 1) .barren
        1).totalShare (Catalog.exchange 0).outputs := by
  let start := exchange (1 / 2) (-1 / 2) (Table.const none)
  let later := start.ticked (.smoothed 0) (.exchange 0) (Table.const 1) .barren 1
  have safe : (ExactRules.smoothed 0).Safe :=
    { ExactRules.standard_admissible.safe with valueSmoothing := ⟨le_refl 0, zero_le_one⟩ }
  have shares (labor : Labor) : 0 < later.shares[labor] := by
    have share : 0 < start.shares[labor] := by norm_num [start, exchange, seeded]
    have employed : 0 < (start.employed (.smoothed 0) (.exchange 0)).shares[labor] :=
      shares_employed_pos safe (by norm_num [ExactRules.smoothed, ExactRules.standard]) share
    rwa [← shares_ticked] at employed
  have people : 0 < later.population := population_ticked_pos one_pos
  have scales (labor : Labor) : 0 < later.scale (some labor) := by
    rw [scale, headcount_eq]
    exact mul_pos (shares labor) (lt_of_lt_of_le people (le_max_left _ _))
  have stocks (good : Good) : later.stocks[good] = 0 := by
    rw [getElem_stocks_ticked, harvested, replenished, Replenisher.getElem_replenish,
      getElem_stocks_decayed, Table.getElem_const, sub_self, mul_zero]
    exact max_self 0
  have short : satisfaction start.stocks[Good.game] (start.scale (some .farmer)) = -1 := by
    have debt : start.stocks[Good.game] = -1 / 2 := Table.getElem_ofFn _ _
    rw [satisfaction_eq, debt, scale_exchange]
    norm_num
  have enough : satisfaction start.stocks[Good.wheat] (start.scale (some .hunter)) = 1 := by
    have stock : start.stocks[Good.wheat] = 1 / 2 := Table.getElem_ofFn _ _
    rw [satisfaction_eq, stock, scale_exchange]
    norm_num
  obtain ⟨farmers, hunters⟩ : later.record .farmer = _ ∧ later.record .hunter = _ :=
    record_ticked_exchange (le_refl 0)
  rw [short, mul_zero] at farmers
  rw [enough, mul_zero] at hunters
  obtain ⟨wheat, game⟩ :
      (later.traded (.smoothed 0) (later.totals (.exchange 0))).values[Good.wheat] = some 4 ∧ _ :=
    values_traded_scarce stocks ⟨congrArg Prod.snd farmers, congrArg Prod.snd hunters⟩
      (scales .farmer) (scales .hunter)
  have idle : later.productivity[Labor.farmer] = -1 := congrArg Prod.fst farmers
  have busy : later.productivity[Labor.hunter] = 1 := congrArg Prod.fst hunters
  have total : 0 < later.totalShare (Catalog.exchange 0).outputs := by
    rw [totalShare_exchange]
    exact add_pos (shares .farmer) (shares .hunter)
  have target : (ExactRules.smoothed 0).pairTarget (-4) 4 = 400 + 1 / 1000 := by
    norm_num [ExactRules.pairTarget, ExactRules.smoothed, ExactRules.standard, max_def]
  have smoothing : (ExactRules.smoothed 0).laborSmoothing = 4 / 5 := rfl
  rw [totalShare_ticked_exchange (-4) 4 (by rw [wheat, idle]; norm_num)
    (by rw [game, busy]; norm_num), target, smoothing]
  calc (80 : ℝ) < 4 / 5 * 0 + (1 - 4 / 5) * (400 + 1 / 1000) := by norm_num
    _ ≤ 4 / 5 * later.totalShare (Catalog.exchange 0).outputs + (1 - 4 / 5) * (400 + 1 / 1000) :=
        add_le_add (mul_le_mul_of_nonneg_left (le_of_lt total) (by norm_num)) le_rfl

end exchange

/-- By the standard parameters the workforce grows beyond the population, where one of two
industries is left with its floor. A value smoothing above one and stocks below zero take it
further than any floor does. -/
theorem workforce_outgrows_population :
    (∀ smoothing, (ExactRules.smoothed smoothing).StandardLabor) ∧
      (Catalog.exchange 1).check = .ok () ∧ (Catalog.exchange 0).check = .ok () ∧
      (∃ after, (exchange 6 (1 / 2) (Table.const none)).Staffed (Catalog.exchange 1).outputs ∧
        (∀ good : Good, 0 ≤ (exchange 6 (1 / 2) (Table.const none)).stocks[good]) ∧
        ((exchange 6 (1 / 2) (Table.const none)).tick (.ofExact (.smoothed (4 / 5))) (.exchange 1)
          (Table.const 0) .barren (.whole 1)).Reaches after ∧
        after.totalShare (Catalog.exchange 1).outputs = 1 + 1 / 5 * (1 / 1000)) ∧
      (∃ values after, (exchange 0 0 values).Staffed (Catalog.exchange 1).outputs ∧
        (∀ good : Good, 0 ≤ (exchange 0 0 values).stocks[good]) ∧
        ((exchange 0 0 values).tick (.ofExact (.smoothed 2)) (.exchange 1) (Table.const 0) .barren
          (.whole 1)).Reaches after ∧
        20 < after.totalShare (Catalog.exchange 1).outputs) ∧
      ∃ first second,
        (exchange (1 / 2) (-1 / 2) (Table.const none)).Staffed (Catalog.exchange 0).outputs ∧
          ((exchange (1 / 2) (-1 / 2) (Table.const none)).tick (.ofExact (.smoothed 0))
            (.exchange 0) (Table.const 1) .barren (.whole 1)).Reaches first ∧
          (first.tick (.ofExact (.smoothed 0)) (.exchange 0) (Table.const 1) .barren
            (.whole 1)).Reaches second ∧
          80 < second.totalShare (Catalog.exchange 0).outputs := by
  have day : (Given.whole 1 : Given ℝ).Denotes 1 := by
    have whole : (Given.whole 1 : Given ℝ).Denotes ((1 : Int) : ℝ) := .whole rfl
    rwa [Int.cast_one] at whole
  have ticks {economy : Economy ℝ} {smoothing rate : ℝ} {decay : Table Good ℝ} (nonneg : 0 ≤ rate) :
      (economy.tick (.ofExact (.smoothed smoothing)) (.exchange rate) decay .barren
        (.whole 1)).Reaches
          (economy.ticked (.smoothed smoothing) (.exchange rate) decay .barren 1) :=
    (reaches_tick_iff_eq (Rules.ofExact_denotes _) day).mpr
      ⟨canTick_of_pos ExactRules.standard_admissible.ratioFloor
        ExactRules.standard_admissible.safe.floorDivisor ExactRules.standard_exponent_nonneg
        (Catalog.exchange_valid nonneg), rfl⟩
  have unpriced (good : Good) (value : ℝ)
      (priced : (Table.const none : Table Good (Option ℝ))[good] = some value) : 0 < value := by
    simp at priced
  refine ⟨.smoothed, Catalog.check_eq_ok_iff.mpr (Catalog.exchange_valid zero_le_one),
    Catalog.check_eq_ok_iff.mpr (Catalog.exchange_valid (le_refl 0)), ?_, ?_, ?_⟩
  · exact ⟨_, staffed_exchange unpriced, stocks_exchange_nonneg (by norm_num) (by norm_num),
      ticks zero_le_one, totalShare_glut⟩
  · refine ⟨_, _, staffed_exchange ?_, stocks_exchange_nonneg (le_refl 0) (le_refl 0),
      ticks zero_le_one, totalShare_overshot⟩
    intro good value priced
    rw [Table.getElem_ofFn] at priced
    cases good <;> cases priced <;> norm_num
  · exact ⟨_, _, staffed_exchange unpriced, ticks (le_refl 0), ticks (le_refl 0),
      totalShare_indebted⟩

end Economy

end Settlement
