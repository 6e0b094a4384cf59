import Settlement.Proofs.Exact.Rewriting
import Settlement.Proofs.Exact.Run
/-!
Worlds with rewritten recipes. A run cannot tell in which way the recipes of its world are written:
it goes through the same economies, notes the same, and stops, if at all, by the same fault.
-/
namespace Settlement

namespace World

/-- The world with other recipes. -/
def withCatalog (world : World ℝ) (catalog : Catalog ℝ) : World ℝ := { world with catalog }

/-- What every tick of a world keeps. -/
structure Ready (rules : ExactRules) (catalog : Catalog ℝ) (world : World ℝ) : Prop where
  denotes : world.rules.Denotes rules
  catalog : world.catalog = catalog
  economies : ∀ site ∈ world.sites.values, site.economy.NonNegative

variable {world after : World ℝ} {rules : ExactRules} {catalog other : Catalog ℝ}
  {given : Given ℝ} {lengths : List (Given ℝ)}

theorem Ready.tickSite (ready : world.Ready rules catalog) (safe : rules.Safe)
    (valid : catalog.Valid) {days : ℝ} (length : given.Denotes days) {id : Name}
    (ticked : (tickSite given id world).Reaches after) : after.Ready rules catalog := by
  rcases exists_of_reaches_tickSite ticked with rfl | ⟨site, economy, found, reached, rfl⟩
  · exact ready
  · have start := ready.economies site (mem_values_of_site found)
    obtain ⟨_, rfl⟩ := (Economy.reaches_tick_iff_eq ready.denotes length).mp reached
    refine ⟨ready.denotes, ready.catalog, fun next member => ?_⟩
    obtain ⟨entry, present, rfl⟩ := List.mem_map.mp member
    rcases OrderedMap.eq_or_mem_of_mem_place present with new | old
    · rw [new]
      exact start.ticked safe (ready.catalog ▸ valid)
    · exact ready.economies entry.2 (List.mem_map_of_mem old)

theorem Ready.tick (ready : world.Ready rules catalog) (safe : rules.Safe) (valid : catalog.Valid)
    {days : ℝ} (length : given.Denotes days) (ticked : (world.tick given).Reaches after) :
    after.Ready rules catalog := by
  obtain ⟨middle, sites, clock⟩ := Outcome.reaches_andThen.mp ticked
  have kept : middle.Ready rules catalog :=
    sites.each_keeps (fun _ _ _ _ held step => held.tickSite safe valid length step) ready
  obtain ⟨_, _, moved⟩ := Outcome.reaches_given.mp clock
  rw [← Outcome.reaches_done.mp moved]
  exact ⟨kept.denotes, kept.catalog, kept.economies⟩

theorem Ready.tickSite_rewritten (ready : world.Ready rules catalog) (safe : rules.Safe)
    (valid : catalog.Valid) (rewritten : catalog.Rewritten other) (given : Given ℝ) (id : Name) :
    World.tickSite given id (world.withCatalog other) =
      (World.tickSite given id world).map (·.withCatalog other) := by
  have sites : (world.withCatalog other).site id = world.site id := rfl
  have placed (site : Site ℝ) : (world.withCatalog other).putEconomy site =
      fun economy => (world.putEconomy site economy).withCatalog other := rfl
  rw [World.tickSite, World.tickSite, Outcome.map_given]
  refine congrArg (Outcome.given given.isNegative _) (funext fun backwards => ?_)
  split_ifs
  · rfl
  · rfl
  · rw [sites, Outcome.map_given]
    cases found : world.site id with
    | error fault => rw [Outcome.given_error, Outcome.given_error]
    | ok site =>
      have start := ready.economies site (mem_values_of_site found)
      have ticked := start.tick_rewritten ready.denotes safe valid rewritten world.decay
        site.replenisher given
      rw [← ready.catalog] at ticked
      rw [Outcome.given_ok, Outcome.given_ok, Outcome.map_map, placed]
      exact congrArg (Outcome.map _) ticked

theorem Ready.tick_rewritten (ready : world.Ready rules catalog) (safe : rules.Safe)
    (valid : catalog.Valid) (rewritten : catalog.Rewritten other) {days : ℝ}
    (length : given.Denotes days) :
    (world.withCatalog other).tick given = (world.tick given).map (·.withCatalog other) := by
  have ids : (world.withCatalog other).siteIds = world.siteIds := rfl
  have sites : (Outcome.each world.siteIds (World.tickSite given) world).map (·.withCatalog other) =
      Outcome.each world.siteIds (World.tickSite given) (world.withCatalog other) :=
    Outcome.map_each
      (List.forall₂_same.mpr fun id _ (state : World ℝ) held =>
        Ready.tickSite_rewritten held safe valid rewritten given id)
      (fun _ _ _ _ held step => held.tickSite safe valid length step) ready
  rw [World.tick, World.tick, ids, ← sites]
  refine (Outcome.map_andThen _ fun state _ => ?_).symm
  rw [advanceClock, advanceClock, Outcome.map_given]
  rfl

theorem Ready.run_rewritten (ready : world.Ready rules catalog) (safe : rules.Safe)
    (valid : catalog.Valid) (rewritten : catalog.Rewritten other)
    (numbers : ∀ given ∈ lengths, ∃ days, given.Denotes days) :
    (world.withCatalog other).run lengths = (world.run lengths).map (·.withCatalog other) := by
  have ticks : List.Forall₂ (fun given counterpart => ∀ state, state.Ready rules catalog →
      World.tick counterpart (state.withCatalog other) =
        (World.tick given state).map (·.withCatalog other)) lengths lengths := by
    refine List.forall₂_same.mpr fun given member state held => ?_
    obtain ⟨days, length⟩ := numbers given member
    exact held.tick_rewritten safe valid rewritten length
  have keeps : ∀ given ∈ lengths, ∀ state after, state.Ready rules catalog →
      (World.tick given state).Reaches after → after.Ready rules catalog := by
    intro given member state after held ticked
    obtain ⟨days, length⟩ := numbers given member
    exact held.tick safe valid length ticked
  exact (Outcome.map_each ticks keeps ready).symm

/-- Permute the inputs of a group, write two entries of one good as one, list the industries in
another order: the recipes stay usable, and every run goes through the same economies. It completes
with the one catalog exactly when it does with the other, as it does under safe parameters. -/
theorem run_with_rewritten_recipes (denotes : world.rules.Denotes rules) (safe : rules.Safe)
    (checked : world.catalog.check = .ok ())
    (nonneg : ∀ site ∈ world.sites.values, site.economy.NonNegative)
    (rewritten : world.catalog.Rewritten other)
    (numbers : ∀ given ∈ lengths, ∃ days, given.Denotes days) :
    other.check = .ok () ∧
      (world.withCatalog other).run lengths = (world.run lengths).map (·.withCatalog other) ∧
      ((world.withCatalog other).run lengths).state.sites = (world.run lengths).state.sites ∧
      (world.Indexed → 0 ≤ rules.exponent →
        (∀ given ∈ lengths, ∃ days, 0 ≤ days ∧ given.Denotes days) →
          ∃ reached, (world.run lengths).Reaches reached ∧
            ((world.withCatalog other).run lengths).Reaches (reached.withCatalog other)) := by
  have valid := Catalog.check_eq_ok_iff.mp checked
  have ready : world.Ready rules world.catalog := ⟨denotes, rfl, nonneg⟩
  have same := ready.run_rewritten safe valid rewritten numbers
  refine ⟨Catalog.check_eq_ok_iff.mpr (rewritten.valid valid), same, ?_, ?_⟩
  · rw [same, Outcome.map, withCatalog]
  · intro indexed exponent forwards
    obtain ⟨reached, ran⟩ := exists_reaches_run denotes safe exponent valid indexed forwards
    refine ⟨reached, ran, ?_⟩
    rw [same]
    exact Outcome.reaches_map.mpr ⟨reached, ran, rfl⟩

end World

private theorem farmer_hunter_nodup : [Labor.farmer, .hunter].Nodup := by decide

/-- A mill that takes wheat twice, and hunters who bring wheat for game. -/
noncomputable def Catalog.repetitive : Catalog ℝ where
  orders := [⟨some .farmer, [(.wheat, 1), (.game, 1), (.wheat, 1)]⟩, ⟨some .hunter, [(.game, 1)]⟩]
  outputs := ⟨[(.farmer, ⟨.flour, 1⟩), (.hunter, ⟨.wheat, 1⟩)], farmer_hunter_nodup⟩

/-- The same recipes, with all wheat in one entry. -/
noncomputable def Catalog.concise : Catalog ℝ where
  orders := [⟨some .farmer, [(.game, 1), (.wheat, 1 + 1)]⟩, ⟨some .hunter, [(.game, 1)]⟩]
  outputs := ⟨[(.hunter, ⟨.wheat, 1⟩), (.farmer, ⟨.flour, 1⟩)], by decide⟩

theorem Catalog.repetitive_valid : Catalog.repetitive.Valid where
  heads := by simp [repetitive]
  inputs := by simp [repetitive]
  amounts := by
    simp only [repetitive, List.forall_mem_cons]
    norm_num
  outputs := by simp [repetitive, OrderedMap.contains, OrderedMap.find?]
  groups := by simp [repetitive]
  rates := by norm_num [repetitive]

theorem Catalog.rewritten_repetitive : Catalog.repetitive.Rewritten .concise := by
  let hunting : OrderGroup ℝ := ⟨some .hunter, [(.game, 1)]⟩
  have merged : Catalog.repetitive.Rewrite
      ⟨[⟨some .farmer, [(.wheat, 1 + 1), (.game, 1)]⟩, hunting], Catalog.repetitive.outputs⟩ :=
    .group [] [hunting] (.merge [] [(.game, 1)] [])
  have permuted : Catalog.Rewrite
      ⟨[⟨some .farmer, [(.wheat, 1 + 1), (.game, 1)]⟩, hunting], Catalog.repetitive.outputs⟩
      ⟨Catalog.concise.orders, Catalog.repetitive.outputs⟩ :=
    .group [] [hunting] (.permute (.swap _ _ _))
  have listed : Catalog.Rewrite ⟨Catalog.concise.orders, Catalog.repetitive.outputs⟩ .concise :=
    .outputs (.swap _ _ _)
  exact .tail (.tail (.single merged) permuted) listed

namespace World

/-- The mills with recipes that repeat themselves. -/
noncomputable def repetitiveMills : World ℝ := mills.withCatalog .repetitive

theorem run_with_rewritten_recipes_repetitiveMills :
    ∃ reached, (repetitiveMills.run [.whole 30, .real (1 / 2)]).Reaches reached ∧
      ((repetitiveMills.withCatalog .concise).run [.whole 30, .real (1 / 2)]).Reaches
        (reached.withCatalog .concise) := by
  have month : (Given.whole 30 : Given ℝ).Denotes ((30 : Int) : ℝ) := .whole rfl
  have half : (Given.real (1 / 2) : Given ℝ).Denotes (1 / 2) := .real _
  have forwards : ∀ given ∈ [(Given.whole 30 : Given ℝ), .real (1 / 2)],
      ∃ days, 0 ≤ days ∧ given.Denotes days := by
    simp only [List.forall_mem_cons]
    exact ⟨⟨_, by norm_num, month⟩, ⟨_, by norm_num, half⟩, by simp⟩
  have nonneg : ∀ site ∈ repetitiveMills.sites.values, site.economy.NonNegative := by
    have start := Economy.mill_sound.nonNegative ExactRules.standard_admissible
    simp [repetitiveMills, withCatalog, mills, OrderedMap.values, start]
  have denotes : repetitiveMills.rules.Denotes .standard := Rules.ofExact_denotes .standard
  obtain ⟨_, _, _, completes⟩ := run_with_rewritten_recipes denotes ExactRules.standard_admissible.safe
    (Catalog.check_eq_ok_iff.mpr Catalog.repetitive_valid) nonneg Catalog.rewritten_repetitive
    fun given member => (forwards given member).imp fun _ => And.right
  exact completes mills_indexed ExactRules.standard_exponent_nonneg forwards

end World

end Settlement
