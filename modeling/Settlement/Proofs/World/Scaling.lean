import Settlement.Proofs.Exact.Run
import Settlement.Proofs.Exact.Scaling
/-!
Worlds in other units and on another scale. A run of such a world mirrors a run of the original.
-/
namespace Settlement

noncomputable def Site.inUnits (site : Site ℝ) (units : Units)
    (outputs : OrderedMap Labor (Output ℝ)) : Site ℝ :=
  { site with
    economy := site.economy.inUnits units outputs
    replenisher := site.replenisher.inUnits units }

noncomputable def Site.multiplied (site : Site ℝ) (factor : ℝ) : Site ℝ :=
  { site with
    economy := site.economy.multiplied factor
    replenisher := site.replenisher.multiplied factor }

/-- The site in other units, and as many times as large as its factor says. -/
noncomputable def Site.scaled (site : Site ℝ) (units : Units)
    (outputs : OrderedMap Labor (Output ℝ)) (factor : Name.Key → ℝ) : Site ℝ :=
  (site.inUnits units outputs).multiplied (factor site.id.key)

namespace World

/-- The same world with its goods measured in other units. -/
noncomputable def inUnits (world : World ℝ) (units : Units) : World ℝ :=
  { world with
    catalog := world.catalog.inUnits units
    sites := world.sites.mapValues (·.inUnits units world.catalog.outputs) }

/-- The world with every site as many times as large as its factor says. -/
noncomputable def multiplied (world : World ℝ) (factor : Name.Key → ℝ) : World ℝ :=
  { world with sites := world.sites.mapValues fun site => site.multiplied (factor site.id.key) }

/-- The world in other units, with every site as many times as large as its factor says. -/
noncomputable def scaled (world : World ℝ) (units : Units) (factor : Name.Key → ℝ) : World ℝ :=
  (world.inUnits units).multiplied factor

variable (world : World ℝ) (units : Units) (factor : Name.Key → ℝ)

theorem sites_scaled : (world.scaled units factor).sites =
    world.sites.mapValues (·.scaled units world.catalog.outputs factor) := by
  rw [scaled, multiplied, inUnits, OrderedMap.mapValues_mapValues]
  rfl

theorem siteIds_scaled : (world.scaled units factor).siteIds = world.siteIds := by
  rw [siteIds, sites_scaled, OrderedMap.values_mapValues, List.map_map]
  rfl

theorem site_scaled (id : Name) : (world.scaled units factor).site id =
    (world.site id).map (·.scaled units world.catalog.outputs factor) := by
  rw [site, sites_scaled, OrderedMap.find?_mapValues, site]
  cases world.sites.find? id.key <;> rfl

theorem putEconomy_scaled (site : Site ℝ) (economy : Economy ℝ) :
    (world.scaled units factor).putEconomy (site.scaled units world.catalog.outputs factor)
        (economy.scaled units world.catalog.outputs (factor site.id.key)) =
      (world.putEconomy site economy).scaled units factor := by
  have placed := OrderedMap.mapValues_insert (·.scaled units world.catalog.outputs factor)
    world.sites site.id.key { site with economy }
  have sites := sites_scaled (world.putEconomy site economy) units factor
  rw [putEconomy, sites_scaled]
  exact congrArg (fun sites => { world.scaled units factor with sites })
    (placed.symm.trans sites.symm)

variable {world units factor}

theorem rules_of_reaches_tickSite {after : World ℝ} {days : Given ℝ} {id : Name}
    (ticked : (tickSite days id world).Reaches after) : after.rules = world.rules := by
  rcases exists_of_reaches_tickSite ticked with rfl | ⟨_, _, _, _, rfl⟩
  · rfl
  · rfl

theorem rules_of_reaches_tick {after : World ℝ} {days : Given ℝ}
    (ticked : (world.tick days).Reaches after) : after.rules = world.rules := by
  obtain ⟨middle, sites, clock⟩ := Outcome.reaches_andThen.mp ticked
  have kept : middle.rules = world.rules :=
    sites.each_keeps (fun _ _ _ _ same step => (rules_of_reaches_tickSite step).trans same) rfl
  obtain ⟨length, _, moved⟩ := Outcome.reaches_given.mp clock
  rw [← Outcome.reaches_done.mp moved]
  exact kept

theorem mirrors_tickSite (positive : ∀ key, 0 < factor key)
    (linear : (∀ key, factor key = 1) ∨ world.rules.exponent.Denotes 1) (days : Given ℝ)
    (id : Name) :
    Outcome.Mirrors (·.scaled units factor) (tickSite days id world)
      (tickSite days id (world.scaled units factor)) := by
  refine Outcome.mirrors_given _ fun backwards => ?_
  split
  · exact Outcome.mirrors_failed _ _ _
  split
  · exact Outcome.mirrors_done _ _
  rw [site_scaled, Outcome.given_map]
  refine Outcome.mirrors_given _ fun site => ?_
  exact (Economy.mirrors_tick (positive site.id.key) (linear.imp_left (· site.id.key)) _ _ _ _).map
    (putEconomy_scaled world units factor site)

theorem mirrors_tick (positive : ∀ key, 0 < factor key)
    (linear : (∀ key, factor key = 1) ∨ world.rules.exponent.Denotes 1) (days : Given ℝ) :
    Outcome.Mirrors (·.scaled units factor) (world.tick days)
      ((world.scaled units factor).tick days) := by
  rw [tick, tick, siteIds_scaled]
  have sites : Outcome.Mirrors (·.scaled units factor)
      (Outcome.each world.siteIds (tickSite days) world)
      (Outcome.each world.siteIds (tickSite days) (world.scaled units factor)) :=
    Outcome.mirrors_each
      (fun id _ (state : World ℝ) (same : state.rules = world.rules) =>
        mirrors_tickSite positive (same.symm ▸ linear) days id)
      (fun _ _ _ _ same step => (rules_of_reaches_tickSite step).trans same) rfl
  exact sites.andThen fun state _ => Outcome.mirrors_given _ fun length => Outcome.mirrors_done _ _

theorem mirrors_run (positive : ∀ key, 0 < factor key)
    (linear : (∀ key, factor key = 1) ∨ world.rules.exponent.Denotes 1)
    (lengths : List (Given ℝ)) :
    Outcome.Mirrors (·.scaled units factor) (world.run lengths)
      ((world.scaled units factor).run lengths) :=
  Outcome.mirrors_each
    (fun days _ (state : World ℝ) (same : state.rules = world.rules) =>
      mirrors_tick positive (same.symm ▸ linear) days)
    (fun _ _ _ _ same step => (rules_of_reaches_tick step).trans same) rfl

theorem scaled_one (world : World ℝ) (units : Units) :
    world.scaled units (fun _ => 1) = world.inUnits units := by
  have site : (fun site : Site ℝ => site.scaled units world.catalog.outputs fun _ => 1) =
      (·.inUnits units world.catalog.outputs) := funext fun site => by
    rw [Site.scaled, Site.multiplied, Economy.multiplied_one, Replenisher.multiplied_one]
  have sites := world.sites_scaled units fun _ => 1
  rw [site] at sites
  exact congrArg (fun sites => { world.inUnits units with sites }) sites

theorem scaled_same (world : World ℝ) (factor : Name.Key → ℝ) :
    world.scaled .same factor = world.multiplied factor := by
  have site : (fun site : Site ℝ => site.scaled .same world.catalog.outputs factor) =
      fun site => site.multiplied (factor site.id.key) := funext fun site => by
    rw [Site.scaled, Site.inUnits, Economy.inUnits_same, Replenisher.inUnits_same]
  have sites := world.sites_scaled .same factor
  rw [site] at sites
  exact congrArg₂ (fun catalog sites => { world with catalog, sites }) world.catalog.inUnits_same
    sites

/-- It does not matter in which units goods are measured: the world in other units ends a run
exactly as the original does, with the same amounts in those units and all else the same. -/
theorem reaches_run_inUnits_iff (world : World ℝ) (units : Units) (lengths : List (Given ℝ))
    (after : World ℝ) :
    ((world.inUnits units).run lengths).Reaches after ↔
      ∃ reached, (world.run lengths).Reaches reached ∧ after = reached.inUnits units := by
  have mirrors : Outcome.Mirrors _ _ ((world.scaled units fun _ => 1).run lengths) :=
    mirrors_run (fun _ => one_pos) (.inl fun _ => rfl) lengths
  simp only [scaled_one] at mirrors
  exact mirrors.reaches_iff

/-- Where the exponent of the workforce is one, scale does not matter: sites that start some times
as large stay as many times as large, and so do their demand and supply. -/
theorem run_multiplied (positive : ∀ key, 0 < factor key)
    (linear : world.rules.exponent.Denotes 1) (lengths : List (Given ℝ)) :
    (∀ after, ((world.multiplied factor).run lengths).Reaches after ↔
        ∃ reached, (world.run lengths).Reaches reached ∧ after = reached.multiplied factor) ∧
      ∀ reached, (world.run lengths).Reaches reached → ∀ site ∈ reached.sites.values,
        ∀ good : Good,
          ((site.multiplied (factor site.id.key)).economy.totals reached.catalog).demand[good] =
              (site.economy.totals reached.catalog).demand[good] * factor site.id.key ∧
            ((site.multiplied (factor site.id.key)).economy.totals reached.catalog).supply[good] =
              (site.economy.totals reached.catalog).supply[good] * factor site.id.key := by
  have mirrors : Outcome.Mirrors _ _ ((world.scaled .same factor).run lengths) :=
    mirrors_run positive (.inr linear) lengths
  simp only [scaled_same] at mirrors
  refine ⟨fun after => mirrors.reaches_iff, fun reached _ site _ good => ?_⟩
  exact site.economy.totals_multiplied (positive site.id.key) reached.catalog good

/-- Mills whose output grows as their workforce does. -/
noncomputable def linearMills : World ℝ :=
  { mills with rules := .ofExact { ExactRules.standard with exponent := 1 } }

theorem run_multiplied_linearMills :
    ∃ reached, (linearMills.run [.whole 30]).Reaches reached ∧
      ((linearMills.multiplied fun _ => 3).run [.whole 30]).Reaches
        (reached.multiplied fun _ => 3) := by
  have month : (Given.whole 30 : Given ℝ).Denotes ((30 : Int) : ℝ) := .whole rfl
  have forwards : ∀ given ∈ [(Given.whole 30 : Given ℝ)], ∃ days, 0 ≤ days ∧ given.Denotes days :=
    fun given member => ⟨_, by norm_num, List.mem_singleton.mp member ▸ month⟩
  have denotes : linearMills.rules.Denotes { ExactRules.standard with exponent := 1 } :=
    Rules.ofExact_denotes _
  have safe : ExactRules.Safe { ExactRules.standard with exponent := 1 } :=
    { ExactRules.standard_admissible.safe with }
  have linear : linearMills.rules.exponent.Denotes 1 := .real 1
  obtain ⟨reached, ran⟩ :=
    exists_reaches_run denotes safe zero_le_one Catalog.mill_valid mills_indexed forwards
  obtain ⟨ends, _⟩ := run_multiplied (fun _ => three_pos) linear [.whole 30]
  exact ⟨reached, ran, (ends _).mpr ⟨reached, ran, rfl⟩⟩

end World

end Settlement
