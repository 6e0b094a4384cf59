import Settlement.Proofs.Exact.Reordering
import Settlement.Proofs.World.Idle
/-!
What a catalog does not mention. An industry without an output is idle for ever, a good that no
group orders has no value and no price, and a good that nobody makes and that does not grow back is
never more than it was.
-/
namespace Settlement

namespace Catalog

variable {R : Type}

/-- No group orders the good. -/
def Unordered (catalog : Catalog R) (good : Good) : Prop :=
  ∀ group ∈ catalog.orders, ∀ input ∈ group.inputs, input.1 ≠ good

/-- No industry turns the good out. -/
def Unmade (catalog : Catalog R) (good : Good) : Prop :=
  ∀ entry ∈ catalog.outputs.entries, entry.2.good ≠ good

end Catalog

namespace Economy

variable {economy : Economy ℝ} {rules : ExactRules} {catalog : Catalog ℝ} {decay : Table Good ℝ}
  {replenisher : Replenisher ℝ} {days : ℝ} {good : Good}

theorem demand_eq_zero (unordered : catalog.Unordered good) :
    (economy.totals catalog).demand[good] = 0 := by
  refine (economy.getElem_demand catalog.orders good).trans (List.sum_eq_zero ?_)
  rw [List.forall_mem_map]
  intro group member
  rw [OrderGroup.amount_eq_zero (unordered group member), zero_mul]

/-- What is not asked for is neither valued nor priced. -/
theorem worthless_of_unordered (unordered : catalog.Unordered good) :
    (economy.ticked rules catalog decay replenisher days).values[good] = none ∧
      (economy.ticked rules catalog decay replenisher days).prices[good] = 0 := by
  have unasked : (economy.totals catalog).demand[good] = 0 := demand_eq_zero unordered
  rw [values_ticked, prices_ticked, getElem_values_traded, getElem_prices_traded, unasked]
  constructor
  · rw [ExactRules.value, if_neg fun priced => lt_irrefl 0 priced.1]
  · exact if_pos (le_refl 0)

theorem totalMade_eq_zero {exponent : ℝ} {before demand : Table Good ℝ}
    {orders : List (OrderGroup ℝ)} (unmade : catalog.Unmade good) :
    economy.totalMade catalog.outputs exponent before demand orders good = 0 := by
  apply List.sum_eq_zero
  rw [List.forall_mem_map]
  intro group _
  unfold makes
  cases heads : group.producer? catalog.outputs with
  | none => rfl
  | some industry => exact if_neg (unmade industry (OrderGroup.producer?_eq_some_iff.mp heads).2)

/-- A stock that nothing adds to is taken from, and decays. -/
theorem NonNegative.stock_ticked_le (nonneg : economy.NonNegative) (safe : rules.Safe)
    (valid : catalog.Valid) (decays : 0 ≤ decay[good]) (unmade : catalog.Unmade good)
    (barren : replenisher.target? good = none) :
    (economy.ticked rules catalog decay replenisher days).stocks[good] ≤ economy.stocks[good] := by
  have scales := scale_nonneg (economy.employed rules catalog) (nonneg.shares_employed safe)
  have taken : 0 ≤ (economy.employed rules catalog).totalTaken economy.stocks
      (economy.totals catalog).demand catalog.orders good :=
    totalTaken_nonneg scales nonneg.stocks valid.amount_nonneg
  have left : (economy.produced rules catalog).stocks[good] ∈ Set.Icc _ _ :=
    getElem_stocks_afterGroups_mem scales nonneg.stocks valid.rate_nonneg (nonneg.stocks good)
      valid.amount_nonneg
  rw [totalMade_eq_zero unmade, add_zero, add_zero] at left
  have remains : 0 ≤ (economy.produced rules catalog).stocks[good] :=
    le_trans (le_max_left _ _) left.1
  have harvested : (economy.harvested rules catalog decay replenisher).stocks[good] =
      (economy.produced rules catalog).stocks[good] * (1 - decay[good]) := by
    rw [harvested, replenished, Replenisher.getElem_replenish, barren, Option.elim_none,
      getElem_stocks_decayed]
  rw [getElem_stocks_ticked, harvested]
  refine max_le (nonneg.stocks good) ?_
  calc _ ≤ (economy.produced rules catalog).stocks[good] :=
        mul_le_of_le_one_right remains (sub_le_self 1 decays)
    _ ≤ max 0 (economy.stocks[good] - _) := left.2
    _ ≤ economy.stocks[good] := max_le (nonneg.stocks good) (sub_le_self _ taken)

end Economy

namespace World

variable {world : World ℝ} {rules : ExactRules} {lengths : List (Given ℝ)}

/-- What a valid catalog does not mention has no part in any run. An idle industry keeps its
entries, and other entries would have changed nothing else. After every further tick what nobody
orders is neither valued nor priced, and what nobody makes and does not grow back has not grown.
The economies need not be within all bounds: it is enough that nothing in them is negative. -/
theorem unmentioned_is_inert (denotes : world.rules.Denotes rules) (safe : rules.Safe)
    (decays : ∀ good : Good, 0 ≤ world.decay[good]) (checked : world.catalog.check = .ok ())
    (indexed : world.Indexed) (sites : ∀ site ∈ world.sites.values, site.economy.NonNegative)
    (forwards : ∀ given ∈ lengths, ∃ days, 0 ≤ days ∧ given.Denotes days) :
    (∀ others after, ((world.withIdle others).run lengths).Reaches after ↔
        ∃ reached, (world.run lengths).Reaches reached ∧ after = reached.withIdle others) ∧
      ∀ reached, (world.run lengths).Reaches reached →
        (∀ site ∈ reached.sites.values, ∃ start ∈ world.sites.values,
          site = { start with economy := site.economy } ∧
            ∀ labor, world.catalog.outputs.find? labor = none →
              site.economy.shares[labor] = start.economy.shares[labor] ∧
                site.economy.productivity[labor] = start.economy.productivity[labor] ∧
                site.economy.yields[labor] = start.economy.yields[labor]) ∧
          ∀ given days next, 0 < days → given.Denotes days → (reached.tick given).Reaches next →
            ∀ site ∈ next.sites.values, ∃ before ∈ reached.sites.values,
              site = { before with economy := site.economy } ∧
                ∀ good : Good,
                  (world.catalog.Unordered good →
                    site.economy.values[good] = none ∧ site.economy.prices[good] = 0) ∧
                  (world.catalog.Unmade good → site.replenisher.target? good = none →
                    site.economy.stocks[good] ≤ before.economy.stocks[good]) := by
  have valid := Catalog.check_eq_ok_iff.mp checked
  refine ⟨fun others after => reaches_run_withIdle_iff valid indexed others lengths after, ?_⟩
  intro reached ran
  refine ⟨fun site member => indexed.idle_kept valid ran member, ?_⟩
  intro given days next positive length ticked site member
  have nonneg : ∀ site ∈ reached.sites.values, site.economy.NonNegative := by
    intro site member
    obtain ⟨start, present, laps, _⟩ := indexed.exists_of_mem_reached ran member
    exact laps_keep denotes (fun _ _ _ held => held.ticked safe valid) forwards laps
      (sites start present)
  obtain ⟨_, clock, _, rfl⟩ := (reaches_run_iff indexed).mp ran
  obtain ⟨before, present, same, economy⟩ :=
    (indexed.withEconomies _ clock).exists_of_mem_ticked denotes length positive ticked member
  refine ⟨before, present, same, fun good => ?_⟩
  rw [economy]
  refine ⟨Economy.worthless_of_unordered, fun unmade barren => ?_⟩
  rw [same] at barren
  exact (nonneg before present).stock_ticked_le safe valid (decays good) unmade barren

/-- Nobody mines in the mills, and nobody wants rock. -/
theorem unmentioned_is_inert_mills :
    ∃ reached next, (mills.run [.whole 30]).Reaches reached ∧
      (reached.tick (.whole 30)).Reaches next ∧
      ((mills.withIdle fun _ => { Economy.mill with shares := Table.const 1 }).run
        [.whole 30]).Reaches
          (reached.withIdle fun _ => { Economy.mill with shares := Table.const 1 }) ∧
      (∀ site ∈ reached.sites.values,
        site.economy.shares[Labor.miner] = Economy.mill.shares[Labor.miner]) ∧
      ∀ site ∈ next.sites.values, site.economy.values[Good.rock] = none ∧
        site.economy.prices[Good.rock] = 0 ∧ ∃ before ∈ reached.sites.values,
          site.economy.stocks[Good.rock] ≤ before.economy.stocks[Good.rock] := by
  have month : (Given.whole 30 : Given ℝ).Denotes ((30 : Int) : ℝ) := .whole rfl
  have denotes : mills.rules.Denotes .standard := Rules.ofExact_denotes _
  have admissible := ExactRules.standard_admissible
  have forwards (lengths : List (Given ℝ)) (months : ∀ given ∈ lengths, given = .whole 30) :
      ∀ given ∈ lengths, ∃ days, 0 ≤ days ∧ given.Denotes days :=
    fun given member => ⟨_, by norm_num, months given member ▸ month⟩
  have starts : ∀ start ∈ mills.sites.values,
      start.economy = .mill ∧ start.replenisher.target? .rock = none := by
    simp [mills, OrderedMap.values, Replenisher.target?, OrderedMap.find?]
  obtain ⟨next, ran⟩ := exists_reaches_run denotes admissible.safe
    ExactRules.standard_exponent_nonneg Catalog.mill_valid mills_indexed
    (forwards [.whole 30, .whole 30] (by simp))
  obtain ⟨reached, first, second⟩ := Outcome.reaches_each_cons.mp ran
  rw [Outcome.each_singleton] at second
  have once : (mills.run [.whole 30]).Reaches reached := by rwa [run, Outcome.each_singleton]
  obtain ⟨idle, frames⟩ := unmentioned_is_inert denotes admissible.safe
    (fun good => by norm_num [mills]) Catalog.check_mill mills_indexed
    (fun start present => (starts start present).1 ▸ Economy.mill_sound.nonNegative admissible)
    (forwards [.whole 30] (by simp))
  obtain ⟨kept, ticks⟩ := frames reached once
  refine ⟨reached, next, once, second, (idle _ _).mpr ⟨reached, once, rfl⟩, ?_, ?_⟩
  · intro site member
    obtain ⟨start, present, _, same⟩ := kept site member
    rw [(same .miner rfl).1, (starts start present).1]
  · intro site member
    obtain ⟨before, present, same, goods⟩ :=
      ticks _ _ next (by norm_num : (0 : ℝ) < ((30 : Int) : ℝ)) month second site member
    obtain ⟨start, began, other, _⟩ := kept before present
    have barren : site.replenisher.target? .rock = none := by
      rw [same, other]
      exact (starts start began).2
    have unordered : mills.catalog.Unordered .rock := by
      simp [Catalog.Unordered, mills, Catalog.mill]
    have unmade : mills.catalog.Unmade .rock := by simp [Catalog.Unmade, mills, Catalog.mill]
    obtain ⟨unvalued, unpriced⟩ := (goods .rock).1 unordered
    exact ⟨unvalued, unpriced, before, present, (goods .rock).2 unmade barren⟩

end World

end Settlement
