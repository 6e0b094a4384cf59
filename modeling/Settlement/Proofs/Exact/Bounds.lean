import Settlement.Proofs.Exact.Run
/-!
The bounds of all runs. They hold together or not at all: shares stay below one because values and
productivity are not negative, and stocks stay above zero because shares and yields are not. The
shares of all industries may add up to more than one, and their limit is the fixed point of the
step that moves the workforce.
-/
namespace Settlement

namespace Economy

/-- The bounds that a tick adds to those of a sound economy. -/
structure Settled (rules : ExactRules) (catalog : Catalog ℝ) (economy : Economy ℝ) : Prop where
  prices : ∀ good : Good, 0 ≤ economy.prices[good]
  yields : ∀ entry ∈ catalog.outputs.entries, economy.yields[entry.1] ∈ Set.Icc 0 entry.2.rate
  shares : ∀ entry ∈ catalog.outputs.entries, economy.shares[entry.1] ∈
    Set.Icc ((1 - rules.laborSmoothing) / rules.floorDivisor) 1

variable {economy : Economy ℝ} {rules : ExactRules} {catalog : Catalog ℝ} {decay : Table Good ℝ}
  {replenisher : Replenisher ℝ} {days : ℝ}

/-- The industries are weighed after the values have moved. -/
theorem Sound.weight_traded (sound : economy.Sound rules) (admissible : rules.Admissible)
    (totals : Totals ℝ) (entry : Labor × Output ℝ) :
    0 ≤ (economy.traded rules totals).weight entry := by
  have nonneg := sound.nonNegative admissible
  exact weight_nonneg (nonneg.values_traded admissible.safe) nonneg.productivity entry

theorem Sound.shares_employed (sound : economy.Sound rules) (admissible : rules.Admissible)
    {entry : Labor × Output ℝ} (member : entry ∈ catalog.outputs.entries) :
    (economy.employed rules catalog).shares[entry.1] ∈
      Set.Icc ((1 - rules.laborSmoothing) / rules.floorDivisor) 1 := by
  have old : ∀ labor : Labor,
      (economy.traded rules (economy.totals catalog)).shares[labor] ∈ Set.Icc 0 1 := sound.shares
  exact shares_restaffed_mem admissible old (sound.weight_traded admissible _) member

theorem Sound.ticked (sound : economy.Sound rules) (admissible : rules.Admissible)
    (valid : catalog.Valid) :
    (economy.ticked rules catalog decay replenisher days).Sound rules where
  population := by
    show 0 ≤ (aged _ rules days).population
    rw [aged, admissible.clamped]
    exact le_max_left _ _
  stocks good := by
    rw [getElem_stocks_ticked]
    exact le_max_left _ _
  values good value priced := by
    rw [values_ticked] at priced
    exact values_traded_mem (convex_Ioo _ _) admissible.valueSmoothing Set.inter_subset_left
      (sound.values good) priced
  shares labor := by
    rw [shares_ticked]
    cases found : catalog.outputs.find? labor with
    | none =>
      rw [employed, getElem_shares_restaffed, found]
      exact sound.shares labor
    | some output =>
      have member := (OrderedMap.find?_eq_some_iff _ _ _).mp found
      have upper := (sound.shares_employed admissible member).2
      exact ⟨(sound.nonNegative admissible).shares_employed admissible.safe labor, upper⟩
  productivity labor := by
    refine record_ticked_mem (fun record => record.1 ∈ Set.Icc 0 1) valid sound.stocks
      sound.productivity ?_ labor
    intro satisfaction bounds _ _
    exact bounds
  yields := ((sound.nonNegative admissible).ticked admissible.safe valid).yields

theorem Sound.settled (sound : economy.Sound rules) (admissible : rules.Admissible)
    (valid : catalog.Valid) :
    (economy.ticked rules catalog decay replenisher days).Settled rules catalog where
  prices good := by
    rw [prices_ticked, getElem_prices_traded]
    have bounds := le_trans (admissible.valueFloor good) (le_of_lt (admissible.valueCeiling good))
    exact price_nonneg bounds
  yields entry member := by
    obtain ⟨group, _, _, recorded⟩ := record_ticked_of_mem valid member
    have satisfaction : group.satisfaction economy.stocks (economy.totals catalog).demand ∈
        Set.Icc 0 1 := OrderGroup.satisfaction_mem sound.stocks
    have rate := valid.rate_nonneg entry member
    have yield : (economy.ticked rules catalog decay replenisher days).yields[entry.1] =
        group.satisfaction economy.stocks (economy.totals catalog).demand * entry.2.rate :=
      congrArg Prod.snd recorded
    rw [yield]
    exact ⟨mul_nonneg satisfaction.1 rate, mul_le_of_le_one_left rate satisfaction.2⟩
  shares entry member := by
    rw [shares_ticked]
    exact sound.shares_employed admissible member

/-- The stocks are not negative even before they are stopped at zero. -/
theorem Sound.stocks_harvested (sound : economy.Sound rules) (admissible : rules.Admissible)
    (valid : catalog.Valid) (decays : ∀ good : Good, decay[good] ∈ Set.Icc 0 1)
    (restoring : replenisher.Restoring) (good : Good) :
    0 ≤ (economy.harvested rules catalog decay replenisher).stocks[good] := by
  have produced : 0 ≤ (economy.produced rules catalog).stocks[good] :=
    (sound.nonNegative admissible).stocks_produced admissible.safe valid good
  refine Replenisher.replenish_nonneg restoring ?_
  rw [getElem_stocks_decayed]
  exact mul_nonneg produced (sub_nonneg.mpr (decays good).2)

end Economy

/-- To how much the shares of all industries may add up. -/
noncomputable def ExactRules.shareLimit (rules : ExactRules) (catalog : Catalog ℝ) : ℝ :=
  1 + ((catalog.outputs.size : ℝ) - 1) / rules.floorDivisor

theorem Economy.totalShare_ticked {economy : Economy ℝ} {rules : ExactRules} {catalog : Catalog ℝ}
    {decay : Table Good ℝ} {replenisher : Replenisher ℝ} {days : ℝ} :
    (economy.ticked rules catalog decay replenisher days).totalShare catalog.outputs =
      (economy.employed rules catalog).totalShare catalog.outputs := by
  rw [totalShare, shares_ticked, totalShare]

/-- A tick takes the shares nearer to their limit, from above by the smoothing at least. -/
theorem Economy.Sound.totalShare_ticked_le {economy : Economy ℝ} {rules : ExactRules}
    {catalog : Catalog ℝ} {decay : Table Good ℝ} {replenisher : Replenisher ℝ} {days : ℝ}
    (sound : economy.Sound rules) (admissible : rules.Admissible) :
    (economy.ticked rules catalog decay replenisher days).totalShare catalog.outputs -
        rules.shareLimit catalog ≤
      rules.laborSmoothing *
        (economy.totalShare catalog.outputs - rules.shareLimit catalog) := by
  have moved : (economy.employed rules catalog).totalShare catalog.outputs ≤
      rules.laborSmoothing * economy.totalShare catalog.outputs +
        (1 - rules.laborSmoothing) * rules.shareLimit catalog :=
    totalShare_restaffed_le admissible.ratioFloor admissible.floorDivisor
      (sound.weight_traded admissible _) admissible.safe.laborSmoothing.2
  rw [totalShare_ticked]
  linarith

namespace World

variable {world : World ℝ} {rules : ExactRules} {replenisher : Replenisher ℝ}
  {economy after : Economy ℝ} {lengths : List (Given ℝ)}

/-- Each tick leaves an economy that is sound again, so the next one can go on from there. -/
theorem bounds_of_laps (denotes : world.rules.Denotes rules) (admissible : rules.Admissible)
    (valid : world.catalog.Valid) (sound : economy.Sound rules)
    (forwards : ∀ given ∈ lengths, ∃ days, 0 < days ∧ given.Denotes days)
    (laps : (world.laps replenisher lengths economy).Reaches after) :
    after.Sound rules ∧ (lengths ≠ [] → after.Settled rules world.catalog) ∧
      after.totalShare world.catalog.outputs - rules.shareLimit world.catalog ≤
        rules.laborSmoothing ^ lengths.length *
          (economy.totalShare world.catalog.outputs - rules.shareLimit world.catalog) := by
  have bounds := holds_of_laps (motive := fun count current =>
    current.Sound rules ∧ (0 < count → current.Settled rules world.catalog) ∧
      current.totalShare world.catalog.outputs - rules.shareLimit world.catalog ≤
        rules.laborSmoothing ^ count *
          (economy.totalShare world.catalog.outputs - rules.shareLimit world.catalog))
    denotes forwards laps ⟨sound, by simp, by simp⟩ ?_
  · exact ⟨bounds.1, fun some => bounds.2.1 (List.length_pos_iff.mpr some), bounds.2.2⟩
  · intro count current days _ held
    obtain ⟨sound, _, total⟩ := held
    refine ⟨sound.ticked admissible valid, fun _ => sound.settled admissible valid, ?_⟩
    rw [pow_succ', mul_assoc]
    exact le_trans (sound.totalShare_ticked_le admissible)
      (mul_le_mul_of_nonneg_left total admissible.laborSmoothing.1)

private theorem le_max_of_sub_le {total start limit part : ℝ} (share : part ∈ Set.Icc 0 1)
    (near : total - limit ≤ part * (start - limit)) : total ≤ max start limit := by
  rcases le_total start limit with below | above
  · have gap := mul_nonpos_of_nonneg_of_nonpos share.1 (sub_nonpos.mpr below)
    exact le_max_of_le_right (by linarith)
  · have gap := mul_le_of_le_one_left (sub_nonneg.mpr above) share.2
    exact le_max_of_le_left (by linarith)

/-- The joint invariant of all runs. The stocks that it speaks of last are those of the next tick
before it stops them at zero. -/
theorem bounds_of_run (denotes : world.rules.Denotes rules) (admissible : rules.Admissible)
    (decays : ∀ good : Good, world.decay[good] ∈ Set.Icc 0 1)
    (checked : world.catalog.check = .ok ()) (indexed : world.Indexed)
    (restoring : ∀ site ∈ world.sites.values, site.replenisher.Restoring)
    (sound : ∀ site ∈ world.sites.values, site.economy.Sound rules)
    (forwards : ∀ given ∈ lengths, ∃ days, 0 < days ∧ given.Denotes days) :
    (0 ≤ rules.exponent → (world.run lengths).completes = true) ∧
      ∀ reached, (world.run lengths).Reaches reached → ∀ site ∈ reached.sites.values,
        ∃ start ∈ world.sites.values, site = { start with economy := site.economy } ∧
          site.economy.Sound rules ∧
          (lengths ≠ [] → site.economy.Settled rules world.catalog) ∧
          site.economy.totalShare world.catalog.outputs - rules.shareLimit world.catalog ≤
            rules.laborSmoothing ^ lengths.length *
              (start.economy.totalShare world.catalog.outputs - rules.shareLimit world.catalog) ∧
          site.economy.totalShare world.catalog.outputs ≤
            max (start.economy.totalShare world.catalog.outputs) (rules.shareLimit world.catalog) ∧
          ∀ harvested, (site.economy.harvest world.rules world.catalog world.decay
              site.replenisher).Reaches harvested →
            ∀ good : Good, 0 ≤ harvested.stocks[good] := by
  have valid := Catalog.check_eq_ok_iff.mp checked
  constructor
  · intro exponent
    obtain ⟨reached, ran⟩ := exists_reaches_run denotes admissible.safe exponent valid indexed
      fun given member => (forwards given member).imp fun _ days => ⟨le_of_lt days.1, days.2⟩
    exact Outcome.completes_iff_exists_reaches.mpr ⟨reached, ran⟩
  · intro reached ran site member
    obtain ⟨start, present, laps, same⟩ := indexed.exists_of_mem_reached ran member
    obtain ⟨kept, settled, total⟩ :=
      bounds_of_laps denotes admissible valid (sound start present) forwards laps
    have smoothing := admissible.safe.laborSmoothing
    have part : rules.laborSmoothing ^ lengths.length ∈ Set.Icc 0 1 :=
      ⟨pow_nonneg smoothing.1 _, pow_le_one₀ smoothing.1 smoothing.2⟩
    refine ⟨start, present, same, kept, settled, total, le_max_of_sub_le part total, ?_⟩
    intro harvested harvest
    obtain ⟨_, rfl⟩ := (Economy.reaches_harvest_iff_eq denotes).mp harvest
    have grows : site.replenisher.Restoring := by
      rw [same]
      exact restoring start present
    exact kept.stocks_harvested admissible valid decays grows

theorem bounds_of_run_mills :
    (mills.run [.whole 30, .real (1 / 2)]).completes = true ∧
      ∀ reached, (mills.run [.whole 30, .real (1 / 2)]).Reaches reached →
        ∀ site ∈ reached.sites.values, site.economy.Sound .standard := by
  have month : (Given.whole 30 : Given ℝ).Denotes ((30 : Int) : ℝ) := .whole rfl
  have half : (Given.real (1 / 2) : Given ℝ).Denotes (1 / 2) := .real _
  have bounds := bounds_of_run (Rules.ofExact_denotes _) ExactRules.standard_admissible
    (fun good => by norm_num [mills]) Catalog.check_mill mills_indexed mills_restoring
    (by simp [mills, OrderedMap.values, Economy.mill_sound]) (fun given member => by
      rcases List.mem_cons.mp member with rfl | member
      · exact ⟨_, by norm_num, month⟩
      · obtain rfl := List.mem_singleton.mp member
        exact ⟨_, by norm_num, half⟩)
  refine ⟨bounds.1 ExactRules.standard_exponent_nonneg, ?_⟩
  intro reached ran site member
  obtain ⟨_, _, _, sound, _⟩ := bounds.2 reached ran site member
  exact sound

end World

end Settlement
