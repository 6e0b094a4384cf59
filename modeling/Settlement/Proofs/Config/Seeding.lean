import Settlement.Config.Schedule
import Settlement.Proofs.Attempt
import Settlement.Proofs.World.Independence
import Settlement.Proofs.World.Seeding
/-!
Worlds of like configurations. The seed of a configuration decides about the populations of sites
and about nothing else of a world, and the number of sites decides only how many of the same row of
sites there are.
-/
namespace Settlement

/-- What can be multiplied is an amount. -/
theorem Document.amount_of_factor {document : Document} {operation : String} {ofEntry : Bool}
    {factor : Float} (read : document.given.factor operation ofEntry = .ok factor) :
    document.amount = .ok factor := by
  cases document with
  | boolean value => exact read
  | number value => cases value <;> exact read
  | _ => cases read

namespace Config

/-- Two configurations hold the same but for one parameter. -/
def AgreesBut (first : Config) (parameter : Parameter) (second : Config) : Prop :=
  ∀ other, other ≠ parameter → first.get other = second.get other

/-- Two configurations hold the same but for the seed and the number of sites. -/
def SameSites (first second : Config) : Prop :=
  ∀ parameter, parameter ≠ .randomSeed → parameter ≠ .numSites →
    first.get parameter = second.get parameter

/-- What is read for a world, whatever its seed and the number of its sites. -/
structure Plan where
  catalog : Catalog Float
  decay : Table Good Float
  stocks : List (Good × Float)
  labors : List (Labor × Float)
  values : List (Good × Float)

/-- A configuration gives what a world needs, with a catalog that can be used. -/
structure Provides (config : Config) (recipes : Option (Catalog Float)) (plan : Plan) : Prop where
  period : config.checkPeriod = .ok ()
  catalog : recipes.elim config.catalog .ok = .ok plan.catalog
  checked : plan.catalog.check = .ok ()
  decay : config.decay = .ok plan.decay
  stocks : config.stocks = .ok plan.stocks
  labors : config.labors = .ok plan.labors
  values : config.values = .ok plan.values

/-- The sites of a world; how they start is read only if there are any. -/
structure Settles (config : Config) (plan : Plan) (draws : Draws) (count : Nat)
    (sites : OrderedMap Name.Key (Site Float)) : Prop where
  empty : count = 0 → sites = .empty
  seeded : count ≠ 0 → ∃ seeding,
    config.seeding plan.stocks plan.values plan.labors = .ok seeding ∧
      sites = seeding.sites count (draws (config.get .randomSeed))

/-- How the sites of a configuration start, if it has any. -/
def start (config : Config) : Except Fault (Seeding Float) := do
  let stocks ← config.stocks
  let labors ← config.labors
  let values ← config.values
  config.seeding stocks values labors

variable {config first second : Config} {draws : Draws} {recipes : Option (Catalog Float)}
  {world : World Float} {plan : Plan}

theorem Provides.start_eq (provides : config.Provides recipes plan) :
    config.start = config.seeding plan.stocks plan.values plan.labors := by
  rw [start, provides.stocks, provides.labors, provides.values]
  rfl

theorem outcome_buildWorld_eq_ok_iff :
    (config.buildWorld draws recipes).outcome.1 = .ok world ↔
      ∃ plan, config.Provides recipes plan ∧ Seed.check (config.get .randomSeed) = .ok () ∧
        ∃ count, (config.given .numSites).count = .ok count ∧
          ∃ sites, config.Settles plan draws count.toNat sites ∧
            world = ⟨config.rules, plan.catalog, plan.decay, 0.0, sites⟩ := by
  -- A catalog that is given counts as one that was read.
  have given {made value : Catalog Float} {notes : Array Note} :
      ((pure made : Attempt (Catalog Float)).run notes).1 = .ok value ↔
        (.ok made : Except Fault (Catalog Float)) = .ok value := Iff.rfl
  cases recipes <;>
  · simp only [buildWorld, Attempt.outcome, Attempt.run_bind_eq_ok_iff, given,
      Attempt.run_liftM_eq_ok_iff, Attempt.run_ite_eq_ok_iff, Attempt.run_note_eq_ok,
      Attempt.run_pure_eq_ok_iff]
    constructor
    · intro built
      obtain ⟨_, period, catalog, read, _, checked, _, _, decay, decays, _, seed, stocks, stocked,
        labors, labored, values, valued, count, counted, seeded⟩ := built
      refine ⟨⟨catalog, decay, stocks, labors, values⟩,
        ⟨period, read, checked, decays, stocked, labored, valued⟩, seed, count, counted, ?_⟩
      split at seeded
      · rename_i none
        obtain ⟨_, ⟨⟩, _, _, ⟨⟩⟩ := seeded
        exact ⟨_, ⟨fun _ => rfl, fun some => absurd none some⟩, rfl⟩
      · rename_i some
        obtain ⟨seeding, planned, _, ⟨⟩, _, _, ⟨⟩⟩ := seeded
        exact ⟨_, ⟨fun none => absurd none some, fun _ => ⟨seeding, planned, rfl⟩⟩, rfl⟩
    · intro holds
      obtain ⟨plan, provides, seed, count, counted, sites, settles, rfl⟩ := holds
      refine ⟨_, provides.period, _, provides.catalog, _, provides.checked, (), trivial, _,
        provides.decay, _, seed, _, provides.stocks, _, provides.labors, _, provides.values, _,
        counted, ?_⟩
      split
      · rename_i none
        exact ⟨_, (settles.empty none).symm, (), trivial, rfl⟩
      · rename_i some
        obtain ⟨seeding, planned, rfl⟩ := settles.seeded some
        exact ⟨seeding, planned, _, rfl, (), trivial, rfl⟩

namespace SameSites

variable (same : first.SameSites second)
include same

theorem symm : second.SameSites first :=
  fun parameter seed sites => (same parameter seed sites).symm

theorem rules_eq : first.rules = second.rules := by
  simp only [SameSites, ne_eq] at same
  simp [rules, valueRule, laborRule, demography, bounds, ceilings, given, same]

theorem seeding_eq : first.seeding = second.seeding := by
  simp only [SameSites, ne_eq] at same
  funext stocks values labors
  simp [seeding, spread, population, defaultShares, replenisher, same]

theorem provides (gives : first.Provides recipes plan) : second.Provides recipes plan := by
  have equal := same
  simp only [SameSites, ne_eq] at equal
  refine ⟨?_, ?_, gives.checked, ?_, ?_, ?_, ?_⟩
  · rw [← gives.period]
    simp [checkPeriod, equal]
  · rw [← gives.catalog]
    simp [catalog, equal]
  · rw [← gives.decay]
    simp [decay, equal]
  · rw [← gives.stocks]
    simp [stocks, equal]
  · rw [← gives.labors]
    simp [labors, equal]
  · rw [← gives.values]
    simp [values, equal]

theorem simulate_eq {μ : Type} (observers : List (Observer Float μ))
    (ticks : Option (Given Float)) (observed : Observed Float μ) :
    first.simulate observers ticks observed = second.simulate observers ticks observed := by
  simp only [SameSites, ne_eq] at same
  have counts : first.ticksToRun ticks = second.ticksToRun ticks := by
    cases ticks with
    | none => simp [ticksToRun, totalTicks, given, same]
    | some ticks => rfl
  simp [simulate, schedule, counts, interval, period, given, same]

end SameSites

theorem AgreesBut.sameSites_of_seed (agree : first.AgreesBut .randomSeed second) :
    first.SameSites second := fun parameter seed _ => agree parameter seed

theorem AgreesBut.sameSites_of_count (agree : first.AgreesBut .numSites second) :
    first.SameSites second := fun parameter _ sites => agree parameter sites

theorem agreesBut_set (config : Config) (parameter : Parameter) (value : Document) :
    config.AgreesBut parameter (config.set parameter value) := by
  intro other apart
  exact (Table.getElem_set_ne config.settings value apart.symm).symm

section seeding

variable {stocks values : List (Good × Float)} {labors : List (Labor × Float)}
  {seeding : Seeding Float}

/-- What the populations of seeded sites are read from. -/
theorem people_of_seeding_eq_ok (read : config.seeding stocks values labors = .ok seeding) :
    config.spread = .ok seeding.spread ∧
      config.population seeding.spread.isSome = .ok seeding.population := by
  obtain ⟨spread, spreads, read⟩ := bind_eq_ok_iff.mp read
  obtain ⟨population, peopled, read⟩ := bind_eq_ok_iff.mp read
  obtain ⟨shares, _, read⟩ := bind_eq_ok_iff.mp read
  obtain ⟨replenisher, _, read⟩ := bind_eq_ok_iff.mp read
  cases read
  exact ⟨spreads, peopled⟩

/-- Without a spread, the sites of a configuration take no draws. -/
theorem spread_of_seeding_eq_ok {jitter : Number}
    (read : config.seeding stocks values labors = .ok seeding)
    (given : (config.get .populationJitter).number? = some jitter)
    (still : jitter.isPositive = false) : seeding.spread = none := by
  have spreads := (people_of_seeding_eq_ok read).1
  unfold Config.spread at spreads
  simp only [given, still] at spreads
  exact (Except.ok.inj spreads).symm

/-- Spread or not, a population is the amount that the configuration holds. -/
theorem amount_of_population {isSpread : Bool} {population : Float}
    (read : config.population isSpread = .ok population) :
    (config.get .initialPopulation).amount = .ok population := by
  unfold Config.population at read
  dsimp only at read
  split at read
  · exact Document.amount_of_factor read
  · exact read

theorem amount_of_start (read : config.start = .ok seeding) :
    (config.get .initialPopulation).amount = .ok seeding.population := by
  obtain ⟨stocks, _, read⟩ := bind_eq_ok_iff.mp read
  obtain ⟨labors, _, read⟩ := bind_eq_ok_iff.mp read
  obtain ⟨values, _, read⟩ := bind_eq_ok_iff.mp read
  exact amount_of_population (people_of_seeding_eq_ok read).2

end seeding

namespace Settles

variable {count : Nat} {sites : OrderedMap Name.Key (Site Float)}

/-- Another seed gives other sites only if populations are spread, and then other populations. -/
theorem reseeded (settles : first.Settles plan draws count sites) (same : first.SameSites second) :
    ∃ others, second.Settles plan draws count others ∧
      (∀ bare : World Float, { bare with sites }.unpeopled =
        { bare with sites := others }.unpeopled) ∧
      ∀ jitter, (first.get .populationJitter).number? = some jitter → jitter.isPositive = false →
        sites = others := by
  by_cases none : count = 0
  · exact ⟨sites, ⟨settles.empty, absurd none⟩, fun _ => rfl, fun _ _ _ => rfl⟩
  · obtain ⟨seeding, read, rfl⟩ := settles.seeded none
    refine ⟨_, ⟨fun zero => absurd zero none, fun _ => ⟨seeding, same.seeding_eq ▸ read, rfl⟩⟩,
      fun bare => Seeding.unpeopled_sites bare, fun jitter given still => ?_⟩
    exact Seeding.sites_eq_of_alike (spread_of_seeding_eq_ok read given still)

/-- Fewer sites by the same seed are the first ones. -/
theorem take (settles : second.Settles plan draws count sites) (same : first.SameSites second)
    (seed : first.get .randomSeed = second.get .randomSeed) {fewer : Nat}
    (within : fewer ≤ count) :
    ∃ others, first.Settles plan draws fewer others ∧
      others.entries = sites.entries.take fewer := by
  by_cases none : fewer = 0
  · exact ⟨.empty, ⟨fun _ => rfl, absurd none⟩, by rw [none]; rfl⟩
  · obtain ⟨seeding, read, rfl⟩ := settles.seeded (by omega)
    refine ⟨_, ⟨fun zero => absurd zero none, fun _ => ⟨seeding, same.seeding_eq ▸ read, rfl⟩⟩, ?_⟩
    rw [seed]
    exact Seeding.entries_sites_take within

/-- The sites of a world are seeded as the configuration has it, and they can be added one by
one. -/
theorem exists_settle {world : World Float}
    (settles : config.Settles plan draws count world.sites) :
    world.sites.size = count ∧ world.Indexed ∧ ∃ seeding left,
      (count ≠ 0 → config.seeding plan.stocks plan.values plan.labors = .ok seeding) ∧
      world.sites = seeding.sites count (draws (config.get .randomSeed)) ∧
      Seeding.settle seeding count (draws (config.get .randomSeed))
        { world with sites := .empty } = .ok (world, left) := by
  obtain ⟨rules, catalog, decay, clock, sites⟩ := world
  by_cases none : count = 0
  · obtain rfl := settles.empty none
    subst none
    exact ⟨rfl, by simp [World.Indexed, OrderedMap.empty],
      ⟨0, .none, .const 0, .const .none, .const 0, .barren⟩, _, (absurd rfl ·), rfl, rfl⟩
  · obtain ⟨seeding, read, rfl⟩ := settles.seeded none
    refine ⟨?_, .of_seeding rfl, seeding, _, fun _ => read, rfl, Seeding.settle_eq seeding _ _ rfl⟩
    rw [OrderedMap.size, Seeding.entries_sites, List.length_map, List.length_range]

end Settles

theorem exists_buildWorld_of_seed (agree : first.AgreesBut .randomSeed second)
    (accepted : Seed.check (second.get .randomSeed) = .ok ())
    (built : (first.buildWorld draws recipes).outcome.1 = .ok world) :
    ∃ other, (second.buildWorld draws recipes).outcome.1 = .ok other ∧
      world.unpeopled = other.unpeopled ∧
      ∀ jitter, (first.get .populationJitter).number? = some jitter → jitter.isPositive = false →
        world = other := by
  have same := agree.sameSites_of_seed
  obtain ⟨plan, provides, _, count, counted, sites, settles, rfl⟩ :=
    outcome_buildWorld_eq_ok_iff.mp built
  have recounted : (second.given .numSites).count = .ok count := by
    rw [← counted, Config.given, Config.given, agree .numSites (by decide)]
  obtain ⟨others, resettles, unpeopled, still⟩ := settles.reseeded same
  refine ⟨_, outcome_buildWorld_eq_ok_iff.mpr ⟨plan, same.provides provides, accepted, count,
    recounted, others, resettles, rfl⟩, ?_, fun jitter given none => ?_⟩
  · rw [← same.rules_eq]
    exact unpeopled ⟨first.rules, plan.catalog, plan.decay, 0.0, sites⟩
  · rw [same.rules_eq, still jitter given none]

theorem exists_buildWorld_of_count (agree : first.AgreesBut .numSites second) {fewer more : Int}
    (few : (first.given .numSites).count = .ok fewer)
    (many : (second.given .numSites).count = .ok more) (within : fewer ≤ more)
    (built : (second.buildWorld draws recipes).outcome.1 = .ok world) :
    ∃ part, (first.buildWorld draws recipes).outcome.1 = .ok part ∧ part.SameSetting world ∧
      part.sites.entries = world.sites.entries.take fewer.toNat := by
  have same := agree.sameSites_of_count
  obtain ⟨plan, provides, accepted, count, counted, sites, settles, rfl⟩ :=
    outcome_buildWorld_eq_ok_iff.mp built
  obtain rfl := Except.ok.inj (counted.symm.trans many)
  have seed : first.get .randomSeed = second.get .randomSeed := agree .randomSeed (by decide)
  obtain ⟨others, first_settles, entries⟩ :=
    settles.take same seed (Int.toNat_le_toNat within)
  exact ⟨_, outcome_buildWorld_eq_ok_iff.mpr ⟨plan, same.symm.provides provides, seed ▸ accepted,
    fewer, few, others, first_settles, rfl⟩, ⟨same.rules_eq, rfl, rfl, rfl⟩, entries⟩

/-- A world that is built has as many sites as asked for, which start as the configuration has it,
and they can be added one by one. -/
theorem exists_settle_of_buildWorld
    (built : (config.buildWorld draws recipes).outcome.1 = .ok world) :
    ∃ count, (config.given .numSites).count = .ok count ∧ world.sites.size = count.toNat ∧
      world.Indexed ∧ ∃ seeding left,
        (count.toNat ≠ 0 → config.start = .ok seeding) ∧
        world.sites = seeding.sites count.toNat (draws (config.get .randomSeed)) ∧
        Seeding.settle seeding count.toNat (draws (config.get .randomSeed))
          { world with sites := .empty } = .ok (world, left) := by
  obtain ⟨plan, provides, _, count, counted, sites, settles, rfl⟩ :=
    outcome_buildWorld_eq_ok_iff.mp built
  refine ⟨count, counted, ?_⟩
  rw [provides.start_eq]
  exact settles.exists_settle

theorem indexed_of_buildWorld (built : (config.buildWorld draws recipes).outcome.1 = .ok world) :
    world.Indexed := by
  obtain ⟨_, _, _, indexed, _⟩ := exists_settle_of_buildWorld built
  exact indexed

/-- The worlds that a configuration builds are stable under its seed and its size. Another seed
changes populations only, and without a spread it changes nothing, so that all simulations are the
same. Fewer sites are the first of more, and end every run as they end it among the others. Sites
start as the configuration has it, and could be added one by one, since no two have the same id. In
exact arithmetic each starts with a tenth at least of the population that the configuration
holds. -/
theorem seeding_stable (draws : Draws) (recipes : Option (Catalog Float)) :
    (∀ (first second : Config) (world : World Float), first.AgreesBut .randomSeed second →
      Seed.check (second.get .randomSeed) = .ok () →
      (first.buildWorld draws recipes).outcome.1 = .ok world →
        ∃ other, (second.buildWorld draws recipes).outcome.1 = .ok other ∧
          world.unpeopled = other.unpeopled ∧
          ∀ jitter, (first.get .populationJitter).number? = some jitter →
            jitter.isPositive = false → world = other ∧
              ∀ (μ : Type) (observers : List (Observer Float μ)) ticks memory,
                first.simulate observers ticks ⟨world, memory⟩ =
                  second.simulate observers ticks ⟨other, memory⟩) ∧
    (∀ (small large : Config) (fewer more : Int) (world : World Float),
      small.AgreesBut .numSites large → (small.given .numSites).count = .ok fewer →
      (large.given .numSites).count = .ok more → fewer ≤ more →
      (large.buildWorld draws recipes).outcome.1 = .ok world →
        ∃ part, (small.buildWorld draws recipes).outcome.1 = .ok part ∧ part.SameSetting world ∧
          part.sites.entries = world.sites.entries.take fewer.toNat ∧
          ∀ lengths reached, (world.run lengths).Reaches reached →
            ∃ final, (part.run lengths).Reaches final ∧ final.clock = reached.clock ∧
              ∀ site ∈ part.sites.values, final.site site.id = reached.site site.id) ∧
    (∀ (config : Config) (world : World Float),
      (config.buildWorld draws recipes).outcome.1 = .ok world →
        ∃ count, (config.given .numSites).count = .ok count ∧ world.sites.size = count.toNat ∧
          world.Indexed ∧ ∃ seeding left,
            (count.toNat ≠ 0 → config.start = .ok seeding) ∧
            world.sites = seeding.sites count.toNat (draws (config.get .randomSeed)) ∧
            Seeding.settle seeding count.toNat (draws (config.get .randomSeed))
              { world with sites := .empty } = .ok (world, left)) ∧
    ∀ (config : Config) (seeding : Seeding Float), config.start = .ok seeding →
      (config.get .initialPopulation).amount = .ok seeding.population ∧
      ∀ (exact : Float → ℝ) (count : Nat) (stream : Nat → ℝ), 0 ≤ exact seeding.population →
        ∀ site ∈ ((seeding.map exact).sites count stream).values,
          exact seeding.population / 10 ≤ site.economy.population := by
  refine ⟨?_, ?_, fun _ _ built => exists_settle_of_buildWorld built, ?_⟩
  · intro first second world agree accepted built
    obtain ⟨other, builds, unpeopled, still⟩ := exists_buildWorld_of_seed agree accepted built
    refine ⟨other, builds, unpeopled, fun jitter given none => ?_⟩
    obtain rfl := still jitter given none
    exact ⟨rfl, fun _ observers ticks _ =>
      agree.sameSites_of_seed.simulate_eq observers ticks _⟩
  · intro small large fewer more world agree few many within built
    obtain ⟨part, builds, setting, entries⟩ :=
      exists_buildWorld_of_count agree few many within built
    refine ⟨part, builds, setting, entries, fun lengths reached ran => ?_⟩
    refine World.exists_reaches_run_of_subset (indexed_of_buildWorld built)
      (indexed_of_buildWorld builds) ⟨setting.rules.symm, setting.catalog.symm,
        setting.decay.symm, setting.clock.symm⟩ (fun site member => ?_) ran
    rw [OrderedMap.values, entries, List.map_take] at member
    exact List.mem_of_mem_take member
  · intro config seeding read
    refine ⟨amount_of_start read, fun exact count stream nonneg site member => ?_⟩
    obtain ⟨index, _, rfl⟩ := Seeding.mem_values_sites.mp member
    exact (seeding.map exact).tenth_le_population nonneg index (stream index)

/-- Two villages without industries. -/
def villages : Config := .withSettings [(.numSites, .whole 2), (.recipes, .object [])]

/-- The same villages with populations that are spread. -/
def scatteredVillages : Config := villages.set .populationJitter (.real 1.0)

theorem seeding_stable_villages :
    (∃ world more reached final, (villages.buildWorld .none).outcome.1 = .ok world ∧
      ((villages.set .randomSeed (.whole 7)).buildWorld .none).outcome.1 = .ok world ∧
      ((villages.set .numSites (.whole 3)).buildWorld .none).outcome.1 = .ok more ∧
      world.sites.entries = more.sites.entries.take 2 ∧ world.sites.size = 2 ∧
      (more.run [.whole 90]).Reaches reached ∧ (world.run [.whole 90]).Reaches final ∧
      ∀ site ∈ world.sites.values, final.site site.id = reached.site site.id) ∧
      ∃ seeding, scatteredVillages.start = .ok seeding ∧ seeding.spread.isSome = true ∧
        ∀ site ∈ ((seeding.map Binary64.exactly).sites 2 fun _ => -5).values,
          16 / 5 ≤ site.economy.population := by
  obtain ⟨seeds, sizes, settled, people⟩ := seeding_stable .none none
  obtain ⟨world, built⟩ := exists_eq_ok_of_isSome
    (by decide +kernel : (villages.buildWorld .none).outcome.1.toOption.isSome = true)
  obtain ⟨more, many⟩ := exists_eq_ok_of_isSome (by decide +kernel :
    ((villages.set .numSites (.whole 3)).buildWorld .none).outcome.1.toOption.isSome = true)
  constructor
  · have accepted :
        Seed.check ((villages.set .randomSeed (.whole 7)).get .randomSeed) = .ok () := by
      rw [get, set, Table.getElem_set_self]
      rfl
    have count : villages.get .numSites = .whole 2 := by
      simp [villages, withSettings, get, standard, Table.setAll, Table.getElem_set]
    have jitter : villages.get .populationJitter = .real 0.0 := by
      simp [villages, withSettings, get, standard, Table.setAll, Table.getElem_set,
        Parameter.standard]
    have two : (villages.given .numSites).count = .ok 2 := by
      rw [given, count]
      rfl
    have three : ((villages.set .numSites (.whole 3)).given .numSites).count = .ok 3 := by
      rw [given, get, set, Table.getElem_set_self]
      rfl
    obtain ⟨_, again, _, still⟩ := seeds _ _ world (agreesBut_set villages .randomSeed (.whole 7))
      accepted built
    obtain ⟨rfl, _⟩ := still (.real 0.0) (by rw [jitter]; rfl) (by decide +kernel)
    obtain ⟨part, first, _, entries, histories⟩ := sizes villages _ 2 3 more
      (agreesBut_set villages .numSites (.whole 3)) two three (by decide) many
    obtain rfl := Except.ok.inj (first.symm.trans built)
    obtain ⟨_, counted, size, _⟩ := settled _ part built
    obtain rfl := Except.ok.inj (counted.symm.trans two)
    have quarter : (more.run [.whole 90]).completes = true := by
      have decided : (((villages.set .numSites (.whole 3)).buildWorld .none).outcome.1.toOption.elim
        false fun larger => (larger.run [.whole 90]).completes) = true := by decide +kernel
      rwa [many] at decided
    obtain ⟨reached, ran⟩ := Outcome.completes_iff_exists_reaches.mp quarter
    obtain ⟨final, runs, _, alike⟩ := histories _ reached ran
    exact ⟨part, more, reached, final, built, again, many, entries, size, ran, runs, alike⟩
  · obtain ⟨seeding, read⟩ := exists_eq_ok_of_isSome
      (by decide +kernel : scatteredVillages.start.toOption.isSome = true)
    have spread : scatteredVillages.start.toOption.elim false (·.spread.isSome) = true := by
      decide +kernel
    rw [read] at spread
    obtain ⟨amount, people⟩ := people _ _ read
    have held : scatteredVillages.get .initialPopulation = .real 32.0 := by
      simp [scatteredVillages, villages, withSettings, get, set, standard, Table.setAll,
        Table.getElem_set, Parameter.standard]
    rw [held] at amount
    have full : Binary64.exactly seeding.population = 32 := by
      rw [← Except.ok.inj amount, Binary64.exactly,
        (by decide +kernel : Decimal.Binary.ofFloat? 32.0 = some ⟨false, 2 ^ 52, -47⟩),
        Option.elim_some, (by decide +kernel : Decimal.Binary.value ⟨false, 2 ^ 52, -47⟩ = 32)]
      norm_num
    refine ⟨seeding, read, spread, fun site member => ?_⟩
    have tenth := people Binary64.exactly 2 (fun _ => -5) (by rw [full]; norm_num) site member
    rw [full] at tenth
    exact le_of_eq_of_le (by norm_num) tenth

end Config

end Settlement
