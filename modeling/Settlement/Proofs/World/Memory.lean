import Settlement.Proofs.Exact.Run
/-!
What a tick remembers. It reads the people, stocks, values, shares, productivity and yields that
the last one left, and nothing else: prices and surpluses are written before they are read, the
clock is never read, and the length of a tick moves the population only. All of this holds in any
arithmetic.
-/
namespace Settlement

variable {R : Type}

namespace Economy

/-- Two economies that agree in all but prices and surpluses. -/
structure Alike (first second : Economy R) : Prop where
  population : second.population = first.population
  stocks : second.stocks = first.stocks
  values : second.values = first.values
  shares : second.shares = first.shares
  productivity : second.productivity = first.productivity
  yields : second.yields = first.yields

variable [Scalar R] {economy first second after other : Economy R} {rules : Rules R}
  {catalog : Catalog R} {decay : Table Good R} {replenisher : Replenisher R} {days length : Given R}

theorem reaches_trade_iff {totals : Totals R} :
    (economy.trade rules totals).Reaches after ↔
      ∃ bounds values ceilings, rules.values.bounds = .ok bounds ∧
        (∀ good : Good, rules.values.next bounds[good] economy.values[good]
          (economy.withSurplus totals).surplus[good] totals.demand[good] = .ok values[good]) ∧
        rules.values.ceilings = .ok ceilings ∧
        after = Economy.repriced { economy.withSurplus totals with values } ceilings totals := by
  simp only [trade, Outcome.reaches_andThen, reaches_revalue_iff, reaches_reprice_iff]
  constructor
  · intro holds
    obtain ⟨_, ⟨bounds, values, read, moved, rfl⟩, ceilings, found, rfl⟩ := holds
    exact ⟨bounds, values, ceilings, read, moved, found, rfl⟩
  · intro holds
    obtain ⟨bounds, values, ceilings, read, moved, found, rfl⟩ := holds
    exact ⟨_, ⟨bounds, values, read, moved, rfl⟩, ceilings, found, rfl⟩

namespace Alike

variable (alike : first.Alike second)
include alike

theorem totals_eq : second.totals catalog = first.totals catalog := by
  obtain ⟨⟩ := second
  obtain ⟨rfl, rfl, rfl, rfl, rfl, rfl⟩ := alike
  rfl

/-- The market overwrites all in which alike economies may differ, before anything reads it. -/
theorem reaches_trade_iff {totals : Totals R} :
    (second.trade rules totals).Reaches after ↔ (first.trade rules totals).Reaches after := by
  obtain ⟨⟩ := second
  obtain ⟨rfl, rfl, rfl, rfl, rfl, rfl⟩ := alike
  rw [Economy.reaches_trade_iff, Economy.reaches_trade_iff]
  rfl

theorem reaches_tick_iff :
    (second.tick rules catalog decay replenisher days).Reaches after ↔
      (first.tick rules catalog decay replenisher days).Reaches after := by
  simp only [tick, Outcome.reaches_andThen, alike.totals_eq, alike.reaches_trade_iff]

end Alike

/-- The population grows and nothing else changes. -/
theorem eq_of_reaches_growPopulation {demography : Demography R}
    (grown : (economy.growPopulation demography days).Reaches after) :
    after = { economy with population := after.population } := by
  obtain ⟨population, _, peopled⟩ := Outcome.reaches_given.mp grown
  unfold Economy.peopled at peopled
  split at peopled
  · rw [← Outcome.reaches_noted.mp peopled]
  · rw [← Outcome.reaches_done.mp peopled]

/-- Ticks of different lengths differ in the population that they end with. -/
theorem eq_of_reaches_tick (ticked : (economy.tick rules catalog decay replenisher days).Reaches
      after)
    (longer : (economy.tick rules catalog decay replenisher length).Reaches other) :
    other = { after with population := other.population } := by
  rw [tick_eq, Outcome.reaches_andThen] at ticked longer
  obtain ⟨harvested, harvest, grown⟩ := ticked
  obtain ⟨again, reaped, aged⟩ := longer
  obtain rfl := harvest.unique reaped
  rw [eq_of_reaches_growPopulation grown, eq_of_reaches_growPopulation aged]

/-- A tick depends on its length as on a number, in whichever form that was given. -/
theorem tick_congr (same : ∀ fault, length.operand fault = days.operand fault) :
    economy.tick rules catalog decay replenisher length =
      economy.tick rules catalog decay replenisher days := by
  have grown (state : Economy R) : state.growPopulation rules.demography length =
      state.growPopulation rules.demography days := by
    rw [growPopulation, grown, same, growPopulation, grown]
  simp only [tick_eq, grown]

end Economy

namespace World

/-- Two worlds that agree in all but the clock and the prices and surpluses of their sites. -/
def Alike (first second : World R) : Prop :=
  ∃ economies : Site R → Economy R, second = first.withEconomies economies second.clock ∧
    ∀ site ∈ first.sites.values, site.economy.Alike (economies site)

variable [Scalar R] {world first second reached : World R} {replenisher : Replenisher R}
  {economy other after : Economy R} {days length : Given R} {lengths : List (Given R)}

/-- Laps of alike economies end in one economy, as soon as one of them takes any time. -/
theorem reaches_laps_iff_of_alike (alike : economy.Alike other)
    (moves : ∃ days ∈ lengths, days.isZero = false) :
    (world.laps replenisher lengths other).Reaches after ↔
      (world.laps replenisher lengths economy).Reaches after := by
  induction lengths with
  | nil => simp at moves
  | cons days rest ih =>
    simp only [laps, Outcome.reaches_each_cons, reaches_lap_iff]
    cases zero : days.isZero with
    | true =>
      have later : ∃ days ∈ rest, days.isZero = false := by simpa [zero] using moves
      have lapped := ih later
      simp only [laps] at lapped
      simp [and_assoc, lapped]
    | false => simp only [Bool.false_eq_true, if_false, alike.reaches_tick_iff]

theorem exists_clockAfter_of_eq_ok {start clock : R} (moved : clockAfter lengths start = .ok clock)
    (other : R) : ∃ clock, clockAfter lengths other = .ok clock := by
  induction lengths generalizing start other with
  | nil => exact ⟨other, rfl⟩
  | cons days rest ih =>
    obtain ⟨length, success, moved⟩ := clockAfter_cons_eq_ok_iff.mp moved
    obtain ⟨clock, later⟩ := ih moved (other + length)
    exact ⟨clock, clockAfter_cons_eq_ok_iff.mpr ⟨length, success, later⟩⟩

theorem reaches_tick_of_reaches_lap (moves : days.isZero = false)
    (lapped : (world.lap replenisher days economy).Reaches after) :
    (economy.tick world.rules world.catalog world.decay replenisher days).Reaches after := by
  simpa [moves] using (reaches_lap_iff.mp lapped).2

/-- Alike worlds run alike, and from the first tick that takes any time they agree in all but the
clock. -/
theorem exists_reaches_run_of_alike (alike : first.Alike second) (indexed : first.Indexed)
    (moves : ∃ days ∈ lengths, days.isZero = false)
    (ran : (first.run lengths).Reaches reached) :
    ∃ clock, (second.run lengths).Reaches { reached with clock } := by
  obtain ⟨complete, ended, moved, rfl⟩ := (reaches_run_iff indexed).mp ran
  obtain ⟨economies, same, alikes⟩ := alike
  obtain ⟨clock, later⟩ := exists_clockAfter_of_eq_ok moved second.clock
  have laps (site : Site R) (member : site ∈ first.sites.values) :
      (first.laps site.replenisher lengths (economies site)).Reaches
        (first.laps site.replenisher lengths site.economy).state :=
    (reaches_laps_iff_of_alike (alikes site member) moves).mpr
      (Outcome.completes_iff_reaches_state.mp (complete site member))
  refine ⟨clock, ?_⟩
  rw [same] at later ⊢
  refine (reaches_run_iff (indexed.withEconomies _ _)).mpr ⟨?_, clock, later, ?_⟩
  · rw [values_withEconomies, List.forall_mem_map]
    exact fun site member => Outcome.completes_iff_exists_reaches.mpr ⟨_, laps site member⟩
  · rw [withEconomies_withEconomies]
    exact withEconomies_congr (fun site member => (laps site member).state_eq.symm) clock

/-- What a tick depends on. Worlds that differ in prices, surpluses and clocks only agree after a
tick in all but populations and clocks, and in populations as well if the ticks take as long. Over
a whole run neither prices nor surpluses ever feed back. -/
theorem market_never_feeds_back (alike : first.Alike second) (indexed : first.Indexed) :
    (∀ days length a b, days.isZero = false → length.isZero = false →
      (first.tick days).Reaches a → (second.tick length).Reaches b →
        (∀ site ∈ a.sites.values, ∃ population,
          b.site site.id = .ok { site with economy := { site.economy with population } }) ∧
        ((∀ fault, length.operand fault = days.operand fault) → b = { a with clock := b.clock })) ∧
      ∀ lengths reached, (∃ days ∈ lengths, days.isZero = false) →
        (first.run lengths).Reaches reached →
          ∃ clock, (second.run lengths).Reaches { reached with clock } := by
  refine ⟨?_, fun lengths reached moves ran =>
    exists_reaches_run_of_alike alike indexed moves ran⟩
  intro days length a b moves takes ticked longer
  obtain ⟨economies, same, alikes⟩ := alike
  rw [same] at longer
  obtain ⟨complete, _, _, rfl⟩ := (reaches_tick_iff indexed).mp ticked
  obtain ⟨finished, _, _, rfl⟩ := (reaches_tick_iff (indexed.withEconomies _ _)).mp longer
  rw [values_withEconomies, List.forall_mem_map] at finished
  rw [withEconomies_withEconomies]
  -- Both laps of a site tick its economy, the second from an economy that is alike.
  have short (site : Site R) (member : site ∈ first.sites.values) :
      (site.economy.tick first.rules first.catalog first.decay site.replenisher days).Reaches
        (first.lap site.replenisher days site.economy).state :=
    reaches_tick_of_reaches_lap moves
      (Outcome.completes_iff_reaches_state.mp (complete site member))
  have long (site : Site R) (member : site ∈ first.sites.values) :
      (site.economy.tick first.rules first.catalog first.decay site.replenisher length).Reaches
        (first.lap site.replenisher length (economies site)).state :=
    (alikes site member).reaches_tick_iff.mp (reaches_tick_of_reaches_lap takes
      (Outcome.completes_iff_reaches_state.mp (finished site member)))
  constructor
  · rw [values_withEconomies, List.forall_mem_map]
    intro site member
    refine ⟨(first.lap site.replenisher length (economies site)).state.population,
      (indexed.site_withEconomies member _ _).trans ?_⟩
    exact congrArg (fun economy => Except.ok { site with economy })
      (Economy.eq_of_reaches_tick (short site member) (long site member))
  · intro lasts
    have agree (site : Site R) (member : site ∈ first.sites.values) :
        (first.lap site.replenisher length (economies site)).state =
          (first.lap site.replenisher days site.economy).state := by
      have ticks := long site member
      rw [Economy.tick_congr lasts] at ticks
      exact ticks.unique (short site member)
    exact withEconomies_congr agree _

/-- The mills at another time, with other prices and surpluses in memory. -/
noncomputable def staleMills : World ℝ :=
  mills.withEconomies (fun site => { site.economy with
    prices := Table.const (7 : Nat)
    surplus := Table.const (9 : Nat)
    marginalSurplus := Table.const (8 : Nat) }) (100 : Nat)

theorem market_never_feeds_back_mills :
    ∃ a b, (mills.tick (.whole 30)).Reaches a ∧ (staleMills.tick (.whole 60)).Reaches b ∧
      (∀ site ∈ a.sites.values, ∃ population,
        b.site site.id = .ok { site with economy := { site.economy with population } }) ∧
      ∃ clock, (staleMills.run [.whole 30]).Reaches { a with clock } := by
  have alike : mills.Alike staleMills := ⟨_, rfl, fun _ _ => ⟨rfl, rfl, rfl, rfl, rfl, rfl⟩⟩
  have safe := ExactRules.standard_admissible.safe
  have run (world : World ℝ) (rules : world.rules = mills.rules)
      (catalog : world.catalog = mills.catalog) (indexed : world.Indexed) (days : Int)
      (forwards : 0 ≤ days) : ∃ reached, (world.run [.whole days]).Reaches reached := by
    refine exists_reaches_run (rules ▸ Rules.ofExact_denotes .standard) safe
      ExactRules.standard_exponent_nonneg (catalog ▸ Catalog.mill_valid) indexed ?_
    intro given member
    exact ⟨days, Int.cast_nonneg forwards, List.mem_singleton.mp member ▸ .whole rfl⟩
  obtain ⟨a, short⟩ := run mills rfl rfl mills_indexed 30 (by decide)
  obtain ⟨b, long⟩ := run staleMills rfl rfl (mills_indexed.withEconomies _ _) 60 (by decide)
  obtain ⟨ticks, runs⟩ := market_never_feeds_back alike mills_indexed
  have again := runs [.whole 30] a ⟨_, List.mem_singleton_self _, rfl⟩ short
  rw [World.run, Outcome.each_singleton] at short long
  exact ⟨a, b, short, long, (ticks _ _ a b rfl rfl short long).1, again⟩

end World

end Settlement
