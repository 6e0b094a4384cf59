import Settlement.Proofs.Exact.Accounting
import Settlement.Proofs.Exact.Extinction
import Settlement.Proofs.Exact.LaborFloor
import Settlement.Proofs.Exact.Regrowth
/-!
What revives an industry. Every tick gives each industry of the catalog some workers before it
produces, so an industry makes nothing only for want of an input, and it makes something as soon as
all its inputs are there, however long it has been idle.
-/
namespace Settlement

/-- Only what is asked for and not there at all does not go round. -/
theorem satisfaction_eq_zero_iff {stock demand : ℝ} :
    satisfaction stock demand = 0 ↔ 0 < demand ∧ stock = 0 := by
  rw [satisfaction_eq]
  split
  · rename_i unasked
    simp [not_lt.mpr unasked]
  · rename_i asked
    have positive := not_le.mp asked
    have ratio : stock / demand = 0 ↔ stock = 0 := by simp [ne_of_gt positive]
    rw [and_iff_right positive, ← ratio]
    constructor
    · intro least
      rcases min_choice (stock / demand) 1 with left | right
      · rw [← left, least]
      · exact absurd (least.symm.trans right) zero_ne_one
    · intro none
      rw [none, min_eq_left zero_le_one]

namespace OrderGroup

theorem satisfaction_eq_zero_iff {group : OrderGroup ℝ} {stocks demand : Table Good ℝ}
    (stocks_nonneg : ∀ good : Good, 0 ≤ stocks[good]) :
    group.satisfaction stocks demand = 0 ↔
      ∃ input ∈ group.inputs, 0 < demand[input.1] ∧ stocks[input.1] = 0 := by
  constructor
  · intro none
    have orders : group.inputs ≠ [] := by
      intro empty
      rw [satisfaction, empty] at none
      exact one_ne_zero none
    obtain ⟨chosen, _⟩ : IsLeast _ (group.satisfaction stocks demand) :=
      satisfaction_isLeast orders
    obtain ⟨input, member, least⟩ := chosen
    exact ⟨input, member, Settlement.satisfaction_eq_zero_iff.mp (least.symm.trans none)⟩
  · intro holds
    obtain ⟨input, member, lacking⟩ := holds
    have least : group.satisfaction stocks demand ≤ _ := satisfaction_le member
    rw [Settlement.satisfaction_eq_zero_iff.mpr lacking] at least
    exact le_antisymm least (satisfaction_mem stocks_nonneg).1

end OrderGroup

namespace Economy

/-- Of an input of an industry nothing is there, while some of it is asked for. -/
def Starved (economy : Economy ℝ) (catalog : Catalog ℝ) (labor : Labor) : Prop :=
  ∃ group ∈ catalog.orders, group.labor = some labor ∧
    ∃ input ∈ group.inputs, 0 < (economy.totals catalog).demand[input.1] ∧
      economy.stocks[input.1] = 0

/-- When production comes to the group of an industry, the group takes its inputs and adds this
amount to the stock of the output. -/
def TurnsOut (economy : Economy ℝ) (rules : Rules ℝ) (catalog : Catalog ℝ)
    (entry : Labor × Output ℝ) (amount : ℝ) : Prop :=
  ∃ staffed front group back running after, (economy.staff rules catalog).Reaches staffed ∧
    catalog.orders = front ++ group :: back ∧ group.labor = some entry.1 ∧
    (Outcome.each front (runGroup catalog.outputs rules.exponent staffed.stocks
      (economy.totals catalog).demand) staffed).Reaches running ∧
    (runGroup catalog.outputs rules.exponent staffed.stocks (economy.totals catalog).demand group
      running).Reaches after ∧
    after.stocks = (group.consume (running.scale group.labor)
      (group.satisfaction staffed.stocks (economy.totals catalog).demand) running.stocks).modify
        entry.2.good (· + amount)

/-- How an industry fares in a tick: it is idle exactly if it is starved, and else it makes
something of its output. -/
structure Resumes (rules : Rules ℝ) (catalog : Catalog ℝ) (before after : Economy ℝ)
    (entry : Labor × Output ℝ) : Prop where
  idle : after.productivity[entry.1] = 0 ↔ before.Starved catalog entry.1
  works : ¬before.Starved catalog entry.1 → 0 < after.productivity[entry.1]
  makes : ¬before.Starved catalog entry.1 → 0 < entry.2.rate →
    ∃ amount, 0 < amount ∧ before.TurnsOut rules catalog entry amount

variable {economy : Economy ℝ} {inexact : Rules ℝ} {rules : ExactRules} {catalog : Catalog ℝ}
  {decay : Table Good ℝ} {replenisher : Replenisher ℝ} {days : ℝ} {entry : Labor × Output ℝ}

/-- Unless shares never move, every tick gives each industry workers. -/
theorem NonNegative.shares_employed_pos (nonneg : economy.NonNegative) (safe : rules.Safe)
    (moves : rules.laborSmoothing < 1) (member : entry ∈ catalog.outputs.entries) :
    0 < (economy.employed rules catalog).shares[entry.1] := by
  have share : (economy.employed rules catalog).shares[entry.1] =
      rules.laborSmoothing * economy.shares[entry.1] + (1 - rules.laborSmoothing) * _ :=
    getElem_shares_restaffed_of_mem member
  rw [share]
  exact add_pos_of_nonneg_of_pos (mul_nonneg safe.laborSmoothing.1 (nonneg.shares entry.1))
    (mul_pos (sub_pos.mpr moves) (targetShare_pos safe entry))

theorem headcount_pos (populated : 0 < economy.population) : 0 < economy.headcount := by
  rw [headcount_eq]
  exact lt_max_of_lt_left populated

theorem NonNegative.scale_employed_pos (nonneg : economy.NonNegative) (safe : rules.Safe)
    (moves : rules.laborSmoothing < 1) (populated : 0 < economy.population)
    (member : entry ∈ catalog.outputs.entries) :
    0 < (economy.employed rules catalog).scale (some entry.1) :=
  mul_pos (nonneg.shares_employed_pos safe moves member) (headcount_pos populated)

/-- Where there are people, a tick takes powers of positive numbers only. -/
theorem NonNegative.canTick (nonneg : economy.NonNegative) (safe : rules.Safe)
    (moves : rules.laborSmoothing < 1) (valid : catalog.Valid)
    (populated : 0 < economy.population) : economy.CanTick rules catalog where
  floorDivisor := ne_of_gt safe.floorDivisor
  totalWeight _ := ne_of_gt (totalWeight_pos safe.ratioFloor)
  groups := canRun_of_powers valid fun _ member none =>
    absurd none (ne_of_gt (nonneg.scale_employed_pos safe moves populated member))

/-- The group of an industry turns out what the workers make of the part that goes round. -/
theorem CanTick.turnsOut (ready : economy.CanTick rules catalog) (denotes : inexact.Denotes rules)
    {group : OrderGroup ℝ} (chosen : group ∈ catalog.orders) (head : group.labor = some entry.1)
    (member : entry ∈ catalog.outputs.entries) :
    economy.TurnsOut inexact catalog entry ((economy.employed rules catalog).made rules.exponent
      (group.satisfaction economy.stocks (economy.totals catalog).demand) entry) := by
  obtain ⟨front, back, split⟩ := List.append_of_mem chosen
  let staffed := economy.employed rules catalog
  let running := staffed.afterGroups catalog.outputs rules.exponent staffed.stocks
    (economy.totals catalog).demand front
  have same : running.scale = staffed.scale := scale_afterGroups
  have staff : (economy.staff inexact catalog).Reaches staffed :=
    (reaches_staff_iff_eq denotes).mpr ⟨ready.floorDivisor, ready.totalWeight, rfl⟩
  have front_ran : (staffed.produce (catalog.listed front) inexact.exponent
      (economy.totals catalog).demand).Reaches running :=
    (reaches_produce_iff_eq denotes.exponent).mpr
      ⟨fun other earlier => ready.groups other (split ▸ List.mem_append_left _ earlier), rfl⟩
  have ready_group : running.CanRun catalog.outputs rules.exponent group := by
    rw [CanRun, same]
    exact ready.groups group chosen
  have ran : (runGroup catalog.outputs inexact.exponent staffed.stocks
      (economy.totals catalog).demand group running).Reaches _ :=
    (reaches_runGroup_iff_eq denotes.exponent).mpr ⟨ready_group, rfl⟩
  have heads : group.producer? catalog.outputs = some entry :=
    OrderGroup.producer?_eq_some_iff.mpr ⟨head, member⟩
  refine ⟨staffed, front, group, back, running, _, staff, split, head, front_ran, ran, ?_⟩
  have made : (running.consumed staffed.stocks (economy.totals catalog).demand group).made
      rules.exponent (group.satisfaction staffed.stocks (economy.totals catalog).demand) entry =
      staffed.made rules.exponent
        (group.satisfaction economy.stocks (economy.totals catalog).demand) entry := by
    rw [Economy.made, Economy.made, ← same]
    rfl
  rw [afterGroup, heads, ← made]
  rfl

theorem NonNegative.resumes (nonneg : economy.NonNegative) (denotes : inexact.Denotes rules)
    (safe : rules.Safe) (moves : rules.laborSmoothing < 1) (valid : catalog.Valid)
    (populated : 0 < economy.population) (member : entry ∈ catalog.outputs.entries) :
    Resumes inexact catalog economy (economy.ticked rules catalog decay replenisher days)
      entry := by
  obtain ⟨group, chosen, head, recorded⟩ : ∃ group ∈ catalog.orders, group.labor = some entry.1 ∧
      (economy.ticked rules catalog decay replenisher days).record entry.1 = _ :=
    record_ticked_of_mem valid member
  have productivity : (economy.ticked rules catalog decay replenisher days).productivity[entry.1] =
      group.satisfaction economy.stocks (economy.totals catalog).demand :=
    congrArg Prod.fst recorded
  have starved : group.satisfaction economy.stocks (economy.totals catalog).demand = 0 ↔
      economy.Starved catalog entry.1 := by
    rw [OrderGroup.satisfaction_eq_zero_iff nonneg.stocks]
    constructor
    · intro lacking
      exact ⟨group, chosen, head, lacking⟩
    · intro lacking
      obtain ⟨other, present, heads, lacking⟩ := lacking
      have same := (valid.group?_eq present heads).symm.trans (valid.group?_eq chosen head)
      exact Option.some.inj same ▸ lacking
  have part (fed : ¬economy.Starved catalog entry.1) :
      0 < group.satisfaction economy.stocks (economy.totals catalog).demand :=
    lt_of_le_of_ne (OrderGroup.satisfaction_mem nonneg.stocks).1
      fun none => fed (starved.mp none.symm)
  rw [← productivity] at starved
  refine ⟨starved, fun fed => productivity ▸ part fed, fun fed rate => ?_⟩
  have workers := nonneg.scale_employed_pos safe moves populated member
  exact ⟨_, mul_pos (mul_pos (part fed) rate) (Real.rpow_pos_of_pos workers _),
    (nonneg.canTick safe moves valid populated).turnsOut denotes chosen head member⟩

end Economy

namespace World

variable {world reached : World ℝ} {rules : ExactRules} {lengths : List (Given ℝ)}

/-- No industry is locked out. Wherever a run has led, the next tick of a site that has people is
not stopped, and each of its industries makes something unless an input of it that is asked for is
not there at all. What the industry did before does not matter. -/
theorem industries_resume (denotes : world.rules.Denotes rules) (safe : rules.Safe)
    (moves : rules.laborSmoothing < 1) (checked : world.catalog.check = .ok ())
    (indexed : world.Indexed) (nonneg : ∀ site ∈ world.sites.values, site.economy.NonNegative)
    (forwards : ∀ given ∈ lengths, ∃ days, 0 ≤ days ∧ given.Denotes days)
    (ran : (world.run lengths).Reaches reached) :
    ∀ site ∈ reached.sites.values, 0 < site.economy.population →
      ∀ given days, given.Denotes days → 0 < days → ∃ after,
        (tickSite given site.id reached).Reaches (reached.putEconomy site after) ∧
          (∀ next, (reached.tick given).Reaches next →
            next.site site.id = .ok { site with economy := after }) ∧
          ∀ entry ∈ world.catalog.outputs.entries,
            Economy.Resumes world.rules world.catalog site.economy after entry := by
  have valid := Catalog.check_eq_ok_iff.mp checked
  obtain ⟨reindexed, sameRules, sameCatalog, _⟩ := indexed.of_reaches_run ran
  intro site member populated given days length positive
  obtain ⟨start, present, laps, _⟩ := indexed.exists_of_mem_reached ran member
  have held : site.economy.NonNegative :=
    laps_keep denotes (fun _ _ _ held => held.ticked safe valid) forwards laps
      (nonneg start present)
  have lapped : (reached.lap site.replenisher given site.economy).Reaches
      (site.economy.ticked rules world.catalog reached.decay site.replenisher days) := by
    refine (reaches_lap_iff_eq (sameRules ▸ denotes) length).mpr (.inr ⟨positive, ?_, ?_⟩)
    · rw [sameCatalog]
      exact held.canTick safe moves valid populated
    · rw [sameCatalog]
  obtain ⟨entry, placed, rfl⟩ := List.mem_map.mp member
  refine ⟨entry.2.economy.ticked rules world.catalog reached.decay entry.2.replenisher days, ?_,
    fun next ticked => ?_, fun _ listed =>
      held.resumes denotes safe moves valid populated listed⟩
  · rw [tickSite_eq given (reindexed.find?_id placed)]
    exact Outcome.reaches_map.mpr ⟨_, lapped, rfl⟩
  · obtain ⟨_, _, _, rfl⟩ := (reaches_tick_iff reindexed).mp ticked
    rw [reindexed.site_withEconomies member, lapped.state_eq]

section fallow

/-- A mill that has nothing in store, near fields where wheat grows back. -/
noncomputable def emptyMill : Site ℝ :=
  { southMill with economy := { Economy.mill with stocks := Table.const 0 } }

noncomputable def fallow : World ℝ :=
  { mills with sites := ⟨[(.text "south", emptyMill)], List.nodup_singleton _⟩ }

theorem fallow_nonNegative : ∀ site ∈ fallow.sites.values, site.economy.NonNegative := by
  intro site member
  obtain rfl := List.mem_singleton.mp member
  exact { Economy.mill_sound.nonNegative ExactRules.standard_admissible with
    stocks := fun good => le_of_eq (Table.getElem_const 0 good).symm }

theorem emptyMill_populated : 0 < emptyMill.economy.population := by
  norm_num [emptyMill, Economy.mill, Economy.seeded]

theorem farmer_starved_iff {economy : Economy ℝ} (working : 0 < economy.shares[Labor.farmer])
    (populated : 0 < economy.population) :
    economy.Starved .mill .farmer ↔ economy.stocks[Good.wheat] = 0 := by
  have asked : 0 < (economy.totals .mill).demand[Good.wheat] :=
    lt_of_lt_of_eq (mul_pos working (Economy.headcount_pos populated))
      (Economy.getElem_demand_mill_wheat economy).symm
  unfold Economy.Starved
  generalize (economy.totals .mill).demand = demand at asked
  simp [Catalog.mill, asked]

/-- After a month the people of the empty mill are still there, and so is some wheat. -/
theorem fallow_after_month {after : Economy ℝ}
    (laps : (fallow.laps emptyMill.replenisher [.whole 30] emptyMill.economy).Reaches after) :
    0 < after.population ∧ 0 < after.shares[Labor.farmer] ∧ 0 < after.stocks[Good.wheat] := by
  have month : (Given.whole 30 : Given ℝ).Denotes ((30 : Int) : ℝ) := .whole rfl
  have denotes : fallow.rules.Denotes .standard := Rules.ofExact_denotes _
  have admissible := ExactRules.standard_admissible
  have nonneg : emptyMill.economy.NonNegative :=
    fallow_nonNegative _ (List.mem_singleton_self emptyMill)
  have level : _ ≤ after.stocks[Good.wheat] :=
    level_of_laps denotes admissible.safe Catalog.mill_valid nonneg
      (List.forall_mem_singleton.mpr ⟨_, by norm_num, month⟩) laps (List.cons_ne_nil _ _)
      (by norm_num [fallow, mills]) rfl (wheatFields_regular _ (List.mem_singleton_self _))
  rw [World.laps, Outcome.each_singleton] at laps
  obtain ⟨_, rfl⟩ := (reaches_lap_iff_of_pos denotes month (by norm_num)).mp laps
  refine ⟨lt_of_le_of_ne ?_ fun extinct => ?_, ?_, lt_of_lt_of_le (by norm_num) level⟩
  · rw [Economy.population_ticked rfl]
    exact le_max_left _ _
  · have outweighed := (Economy.population_ticked_eq_zero_iff rfl emptyMill_populated).mp
      extinct.symm
    split at outweighed <;> norm_num [ExactRules.standard, daysPerYear] at outweighed
  · rw [Economy.shares_ticked]
    exact nonneg.shares_employed_pos admissible.safe admissible.laborSmoothing.2
      Economy.farmer_mem_mill

theorem industries_resume_fallow :
    ∃ reached site after, (fallow.run [.whole 30]).Reaches reached ∧
      site ∈ reached.sites.values ∧ site.economy.productivity[Labor.farmer] = 0 ∧
      (tickSite (.real (1 / 2)) site.id reached).Reaches (reached.putEconomy site after) ∧
      0 < after.productivity[Labor.farmer] := by
  have month : (Given.whole 30 : Given ℝ).Denotes ((30 : Int) : ℝ) := .whole rfl
  have half : (Given.real (1 / 2) : Given ℝ).Denotes (1 / 2) := .real _
  have denotes : fallow.rules.Denotes .standard := Rules.ofExact_denotes _
  have safe := ExactRules.standard_admissible.safe
  have moves := ExactRules.standard_admissible.laborSmoothing.2
  have indexed : fallow.Indexed := by
    simp [Indexed, fallow, emptyMill, southMill, Name.ofText]
  have forwards : ∀ given ∈ ([.whole 30] : List (Given ℝ)), ∃ days, 0 ≤ days ∧ given.Denotes days :=
    List.forall_mem_singleton.mpr ⟨_, by norm_num, month⟩
  obtain ⟨reached, ran⟩ := exists_reaches_run denotes safe ExactRules.standard_exponent_nonneg
    Catalog.mill_valid indexed forwards
  have present : emptyMill ∈ fallow.sites.values := List.mem_singleton_self _
  have working : emptyMill.economy.shares[Labor.farmer] = 1 / 10 := Table.getElem_const _ _
  obtain ⟨idle, _, ticks, fares⟩ := industries_resume denotes safe moves Catalog.check_mill indexed
    fallow_nonNegative (by simp) (Outcome.reaches_each_nil.mpr rfl) emptyMill present
    emptyMill_populated _ _ month (by norm_num)
  have found := ticks reached (by rwa [run, Outcome.each_singleton] at ran)
  have stands : idle.productivity[Labor.farmer] = 0 :=
    (fares _ Economy.farmer_mem_mill).idle.mpr
      ((farmer_starved_iff (by rw [working]; norm_num) emptyMill_populated).mpr
        (Table.getElem_const _ _))
  obtain ⟨economy, laps, ended⟩ := indexed.reaches_laps ran present
  obtain rfl : economy = idle :=
    congrArg Site.economy (Except.ok.inj (ended.symm.trans found))
  obtain ⟨people, workers, wheat⟩ := fallow_after_month laps
  obtain ⟨after, ticked, _, resumes⟩ := industries_resume denotes safe moves Catalog.check_mill
    indexed fallow_nonNegative forwards ran _ (mem_values_of_site found) people _ _ half
    (by norm_num)
  refine ⟨reached, _, after, ran, mem_values_of_site found, stands, ticked, ?_⟩
  refine (resumes _ Economy.farmer_mem_mill).works fun starved => ?_
  have short : economy.Starved .mill .farmer := starved
  exact ne_of_gt wheat ((farmer_starved_iff workers people).mp short)

end fallow

end World

end Settlement
