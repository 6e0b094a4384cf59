import Settlement.Proofs.Exact.Consumption
import Settlement.Proofs.Exact.Overstaffing
/-!
What keeps an industry alive. The floor is a weight: no industry counts for less when the shares to
move toward are found. A share is a part of the population and moves only a fifth of the way, so one
tick guarantees a fifth of a thousandth and many ticks guarantee a thousandth, however high the
floor was.
-/
namespace Settlement

namespace Economy

variable {economy traded staffed after : Economy ℝ} {inexact : Rules ℝ} {rules : ExactRules}
  {outputs : OrderedMap Labor (Output ℝ)} {catalog : Catalog ℝ} {decay : Table Good ℝ}
  {replenisher : Replenisher ℝ} {given : Given ℝ} {days floor : ℝ}

/-- An industry moves toward a thousandth, and toward more only if it weighs more than the floor. -/
theorem targetShare_standard (labor : rules.StandardLabor) (entry : Labor × Output ℝ) :
    1 / 1000 ≤ economy.targetShare rules outputs entry ∧
      (economy.targetShare rules outputs entry = 1 / 1000 ↔
        economy.weight entry ≤ economy.totalWeight rules outputs / rules.floorDivisor) := by
  have total : 0 < economy.totalWeight rules outputs :=
    totalWeight_pos (labor.ratioFloor ▸ ExactRules.standard_admissible.ratioFloor)
  have divisor : rules.floorDivisor = 1000 := labor.floorDivisor
  have least : 1 / 1000 = economy.totalWeight rules outputs / 1000 /
      economy.totalWeight rules outputs := by field_simp
  rw [targetShare, divisor, least]
  constructor
  · exact div_le_div_of_nonneg_right (le_max_right _ _) (le_of_lt total)
  · rw [div_left_inj' (ne_of_gt total), max_eq_right_iff]

theorem share_ticked_standard (labor : rules.StandardLabor) {entry : Labor × Output ℝ}
    (member : entry ∈ catalog.outputs.entries) :
    (economy.ticked rules catalog decay replenisher days).shares[entry.1] =
      4 / 5 * economy.shares[entry.1] + 1 / 5 *
        (economy.traded rules (economy.totals catalog)).targetShare rules catalog.outputs entry := by
  have smoothing : rules.laborSmoothing = 4 / 5 := labor.smoothing
  have moved : (economy.employed rules catalog).shares[entry.1] =
      rules.laborSmoothing * economy.shares[entry.1] + (1 - rules.laborSmoothing) * _ :=
    getElem_shares_restaffed_of_mem member
  rw [shares_ticked, moved, smoothing]
  norm_num

/-- By the standard parameters an industry keeps four fifths of its share and gets a fifth of a
thousandth of the population at least. Only one that had enough is sure to have the floor. -/
theorem share_of_tick_ge (denotes : inexact.Denotes rules) (labor : rules.StandardLabor)
    (length : given.Denotes days)
    (trades : (economy.trade inexact (economy.totals catalog)).Reaches traded)
    (moves : traded.reallocate inexact.labor catalog.outputs = .ok (floor, staffed))
    (ticks : (economy.tick inexact catalog decay replenisher given).Reaches after) :
    ∀ entry ∈ catalog.outputs.entries,
      4 / 5 * economy.shares[entry.1] + 1 / 5000 ≤ after.shares[entry.1] ∧
        (after.shares[entry.1] = 4 / 5 * economy.shares[entry.1] + 1 / 5000 ↔
          traded.weight entry ≤ floor) ∧
        (floor ≤ 4 / 5 * economy.shares[entry.1] + 1 / 5000 → floor ≤ after.shares[entry.1]) := by
  obtain rfl := (reaches_trade_iff_eq denotes).mp trades
  obtain ⟨_, _, rfl, _⟩ := (reallocate_eq_ok_iff denotes).mp moves
  obtain ⟨_, rfl⟩ := (reaches_tick_iff_eq denotes length).mp ticks
  intro entry member
  have target : 1 / 1000 ≤ (economy.traded rules (economy.totals catalog)).targetShare rules
      catalog.outputs entry ∧ _ := targetShare_standard labor entry
  rw [share_ticked_standard labor member, ← target.2]
  have least := target.1
  refine ⟨by linarith, ⟨fun same => by linarith, fun same => by linarith⟩, ?_⟩
  intro enough
  linarith

section mill

/-- The mill at a time when flour is worth nine hundred. -/
noncomputable def dearMill : Economy ℝ :=
  { mill with
    values := Table.ofFn fun
      | .flour => some 900
      | _ => none }

/-- The mill can tick, and the floor of that tick is told. -/
private theorem exists_reaches_tick_mill (economy : Economy ℝ) :
    ∃ floor staffed after,
      (economy.trade (.ofExact .standard) (economy.totals .mill)).Reaches
          (economy.traded .standard (economy.totals .mill)) ∧
        (economy.traded .standard (economy.totals .mill)).reallocate (Rules.ofExact .standard).labor
          Catalog.mill.outputs = .ok (floor, staffed) ∧
        (economy.tick (.ofExact .standard) .mill (Table.const 0) .barren (.real 90)).Reaches after
        := by
  have denotes := Rules.ofExact_denotes .standard
  have ready : economy.CanTick .standard .mill :=
    canTick_of_safe ExactRules.standard_admissible.safe ExactRules.standard_exponent_nonneg
      Catalog.mill_valid
  exact ⟨_, _, _, (reaches_trade_iff_eq denotes).mpr rfl,
    (reallocate_eq_ok_iff denotes).mpr ⟨ready.floorDivisor, ready.totalWeight, rfl, rfl⟩,
    (reaches_tick_iff_eq denotes (.real 90)).mpr ⟨ready, rfl⟩⟩

theorem farmer_mem_mill :
    ((.farmer, ⟨.flour, 1⟩) : Labor × Output ℝ) ∈ Catalog.mill.outputs.entries := by
  simp [Catalog.mill]

theorem share_of_tick_ge_mill :
    ∃ floor staffed after,
      (mill.traded .standard (mill.totals .mill)).reallocate (Rules.ofExact .standard).labor
          Catalog.mill.outputs = .ok (floor, staffed) ∧
        (mill.tick (.ofExact .standard) .mill (Table.const 0) .barren (.real 90)).Reaches after ∧
        401 / 5000 ≤ after.shares[Labor.farmer] := by
  obtain ⟨floor, staffed, after, trades, moves, ticks⟩ := exists_reaches_tick_mill mill
  have bound := (share_of_tick_ge (Rules.ofExact_denotes .standard) ⟨rfl, rfl, rfl⟩ (.real 90)
    trades moves ticks _ farmer_mem_mill).1
  have share : mill.shares[Labor.farmer] = 1 / 10 := Table.getElem_const _ _
  refine ⟨floor, staffed, after, moves, ticks, ?_⟩
  rw [share] at bound
  norm_num at bound
  exact bound

theorem dearMill_sound : dearMill.Sound .standard :=
  { mill_sound with
    values := fun good value priced => by
      rw [dearMill, Table.getElem_ofFn] at priced
      cases good <;> cases priced
      norm_num [ExactRules.standard] }

theorem value_dearMill_flour :
    (dearMill.traded .standard (dearMill.totals .mill)).values[Good.flour] = some (3602 / 5) := by
  have totals : dearMill.totals .mill = mill.totals .mill := rfl
  have raw : rawValue (1 + (4 : ℝ) - 5) 5 = 2 := by
    norm_num [rawValue, Scalar.exp2]
  have stock : dearMill.stocks[Good.flour] = 4 := Table.getElem_ofFn _ _
  have old : dearMill.values[Good.flour] = some 900 := Table.getElem_ofFn _ _
  rw [getElem_values_traded, totals, demand_mill_flour, supply_mill_flour, stock, old,
    ExactRules.value, raw]
  norm_num [ExactRules.standard]

/-- What is worth much raises the floor, but no share. -/
theorem share_falls_below_floor :
    Catalog.mill.check = .ok () ∧ ExactRules.standard.Admissible ∧
      ExactRules.standard.StandardLabor ∧ dearMill.Sound .standard ∧
      ∃ traded floor staffed after,
        (dearMill.trade (.ofExact .standard) (dearMill.totals .mill)).Reaches traded ∧
          traded.reallocate (Rules.ofExact .standard).labor Catalog.mill.outputs =
            .ok (floor, staffed) ∧
          (dearMill.tick (.ofExact .standard) .mill (Table.const 0) .barren (.real 90)).Reaches
            after ∧
          after.shares[Labor.farmer] < floor := by
  have denotes := Rules.ofExact_denotes .standard
  have admissible := ExactRules.standard_admissible
  refine ⟨Catalog.check_mill, admissible, ⟨rfl, rfl, rfl⟩, dearMill_sound, ?_⟩
  obtain ⟨floor, staffed, after, trades, moves, ticks⟩ := exists_reaches_tick_mill dearMill
  refine ⟨_, floor, staffed, after, trades, moves, ticks, ?_⟩
  obtain ⟨_, _, rfl, _⟩ := (reallocate_eq_ok_iff denotes).mp moves
  obtain ⟨_, rfl⟩ := (reaches_tick_iff_eq denotes (.real 90)).mp ticks
  -- The share moves a fifth of the way to at most everybody.
  have share : (dearMill.ticked .standard .mill (Table.const 0) .barren 90).shares[Labor.farmer] ≤
      4 / 5 * (1 / 10) + 1 / 5 * 1 := by
    have target : (dearMill.traded .standard (dearMill.totals .mill)).targetShare .standard
        Catalog.mill.outputs (.farmer, ⟨.flour, 1⟩) ≤ 1 :=
      (targetShare_mem admissible (dearMill_sound.weight_traded admissible _) farmer_mem_mill).2
    have old : dearMill.shares[Labor.farmer] = 1 / 10 := Table.getElem_const _ _
    have moved : (dearMill.ticked .standard .mill (Table.const 0) .barren 90).shares[Labor.farmer] =
        _ := share_ticked_standard ⟨rfl, rfl, rfl⟩ farmer_mem_mill
    rw [moved, old]
    linarith
  -- The total is at least what the mill itself weighs.
  have total : 3602 / 5 ≤ (dearMill.traded .standard (dearMill.totals .mill)).totalWeight .standard
      Catalog.mill.outputs := by
    have productivity :
        (dearMill.traded .standard (dearMill.totals .mill)).productivity[Labor.farmer] = 1 :=
      Table.getElem_const _ _
    have weight : (dearMill.traded .standard (dearMill.totals .mill)).weight
        (.farmer, ⟨.flour, 1⟩) = 3602 / 5 := by
      rw [Economy.weight, value_dearMill_flour, productivity, Option.getD_some, mul_one]
    rw [← weight]
    exact weight_le_totalWeight (dearMill_sound.weight_traded admissible _) farmer_mem_mill
  have divisor : ExactRules.standard.floorDivisor = 1000 := rfl
  rw [divisor]
  linarith

end mill

end Economy

namespace World

variable {world reached : World ℝ} {rules : ExactRules} {replenisher : Replenisher ℝ}
  {economy after : Economy ℝ} {lengths : List (Given ℝ)}

/-- Each tick takes a share by a fifth of the way toward a thousandth, unless it is above that. -/
theorem share_of_laps_ge (denotes : world.rules.Denotes rules) (labor : rules.StandardLabor)
    (forwards : ∀ given ∈ lengths, ∃ days, 0 < days ∧ given.Denotes days)
    (laps : (world.laps replenisher lengths economy).Reaches after) {entry : Labor × Output ℝ}
    (member : entry ∈ world.catalog.outputs.entries) :
    1 / 1000 - (4 / 5) ^ lengths.length * (1 / 1000 - economy.shares[entry.1]) ≤
      after.shares[entry.1] := by
  refine holds_of_laps (motive := fun count current =>
    1 / 1000 - (4 / 5) ^ count * (1 / 1000 - economy.shares[entry.1]) ≤ current.shares[entry.1])
    denotes forwards laps (by simp) ?_
  intro count current days _ held
  have target : 1 / 1000 ≤ (current.traded rules (current.totals world.catalog)).targetShare
      rules world.catalog.outputs entry := (Economy.targetShare_standard labor entry).1
  rw [Economy.share_ticked_standard labor member, pow_succ]
  linarith

/-- In the long run every industry of the catalog comes to have a thousandth of the population, or
as near to it as the ticks allow. -/
theorem share_of_run_ge (denotes : world.rules.Denotes rules) (labor : rules.StandardLabor)
    (indexed : world.Indexed)
    (forwards : ∀ given ∈ lengths, ∃ days, 0 < days ∧ given.Denotes days)
    (ran : (world.run lengths).Reaches reached) :
    ∀ site ∈ reached.sites.values, ∃ start ∈ world.sites.values,
      site = { start with economy := site.economy } ∧
        ∀ entry ∈ world.catalog.outputs.entries,
          1 / 1000 - (4 / 5) ^ lengths.length * (1 / 1000 - start.economy.shares[entry.1]) ≤
            site.economy.shares[entry.1] := by
  intro site member
  obtain ⟨start, present, laps, same⟩ := indexed.exists_of_mem_reached ran member
  exact ⟨start, present, same, fun entry listed =>
    share_of_laps_ge denotes labor forwards laps listed⟩

end World

end Settlement
