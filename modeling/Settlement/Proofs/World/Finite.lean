import Settlement.Proofs.Binary64
import Settlement.Proofs.Config.World
/-!
Stocks that stay numbers. In a world whose numbers are finite, the amounts and rates of its catalog
among them, no stock ever becomes negative or NaN, as long as nothing overflows. A catalog is not
refused for an amount that is no number, and such an amount spoils stocks.
-/
namespace Settlement

open Binary64 (IsFinite saturating)

instance {R : Type} [DecidableEq R] : DecidableEq (Economy R) := fun a b =>
  decidable_of_iff (a.population = b.population ∧ a.stocks = b.stocks ∧ a.values = b.values ∧
      a.prices = b.prices ∧ a.surplus = b.surplus ∧ a.marginalSurplus = b.marginalSurplus ∧
      a.shares = b.shares ∧ a.productivity = b.productivity ∧ a.yields = b.yields) (by
    cases a
    cases b
    simp)

namespace World

/-- A run in which overflow plays no part: it ends in the same world where every overflow stops at
the largest finite number. -/
structure RunsCalmly (world : World Float) (lengths : List (Given Float)) (reached : World Float) :
    Prop where
  ran : (world.run lengths).Reaches reached
  calm : (@World.run Float saturating lengths world).Reaches reached

/-- Whether the clock and all laps of a run end, and end as they do where every overflow stops. -/
def keepsCalm (lengths : List (Given Float)) (world : World Float) : Bool :=
  (clockAfter lengths world.clock).toOption.isSome &&
    (@clockAfter Float saturating lengths world.clock).toOption =
      (clockAfter lengths world.clock).toOption &&
    world.sites.values.all fun site =>
      let laps := world.laps site.replenisher lengths site.economy
      let stopped := @World.laps Float saturating world site.replenisher lengths site.economy
      laps.completes && stopped.completes && stopped.state = laps.state

variable {world reached : World Float} {lengths : List (Given Float)}

theorem exists_runsCalmly_of_keepsCalm (indexed : world.Indexed)
    (calm : world.keepsCalm lengths = true) : ∃ reached, world.RunsCalmly lengths reached := by
  simp only [keepsCalm, Bool.and_eq_true, List.all_eq_true, decide_eq_true_iff] at calm
  obtain ⟨⟨ends, clocks⟩, laps⟩ := calm
  obtain ⟨clock, moved⟩ := Option.isSome_iff_exists.mp ends
  refine ⟨_, (reaches_run_iff indexed).mpr ⟨fun site member => (laps site member).1.1, clock,
    eq_ok_of_toOption_eq_some moved, rfl⟩, ?_⟩
  let _ := saturating
  refine (reaches_run_iff indexed).mpr ⟨fun site member => (laps site member).1.2, clock,
    eq_ok_of_toOption_eq_some (clocks.trans moved), ?_⟩
  exact withEconomies_congr (fun site member => (laps site member).2.symm) clock

/-- Stocks stay numbers: where all numbers that a world starts with are finite and no stock is
negative, no tick makes a stock negative or NaN, as long as nothing overflows. -/
theorem stocks_stay_numbers (indexed : world.Indexed) (finite : world.Within IsFinite)
    (stocked : ∀ site ∈ world.sites.values, site.economy.Stocked)
    (lasts : ∀ days ∈ lengths, days.Within IsFinite) (ran : world.RunsCalmly lengths reached) :
    ∀ site ∈ reached.sites.values, ∀ good : Good,
      0 ≤ site.economy.stocks[good] ∧ IsFinite site.economy.stocks[good] := by
  intro site member good
  obtain ⟨kept, stocked⟩ := @Within.stocked_of_reaches_run Float saturating IsFinite
    Binary64.closed_saturating world reached lengths finite indexed stocked lasts ran.calm site
    member
  exact ⟨stocked good, kept.stocks good⟩

/-- An orchard, which needs nothing to bear. -/
def orchard : World Float where
  rules := {
    values := {
      smoothing := .real 0.8
      bounds := .ok (Table.const ⟨.real 0.001, .real 1000.0⟩)
      ceilings := .ok (Table.const 1000.0) }
    labor := { smoothing := .real 0.8, ratioFloor := .real 0.01, floorDivisor := .real 1000.0 }
    exponent := .whole 0
    demography := { birthRate := .real 0.05, deathRate := .real 0.005, clamped := true } }
  catalog := ⟨[⟨some .farmer, [(.wheat, 0.0)]⟩], ⟨[(.farmer, ⟨.flour, 2.0⟩)], by simp⟩⟩
  decay := Table.const 0.1
  clock := 0.0
  sites := ⟨[(.text "orchard", ⟨.ofText "orchard", .text "Orchard",
    .seeded 5.0 (Table.const 1.0) (Table.const none) (Table.const 0.5),
    .renewable ⟨[(.wheat, ⟨50.0, 0.1⟩)], by simp⟩⟩)], by simp⟩

theorem orchard_indexed : orchard.Indexed := by
  simp [Indexed, orchard, Name.ofText]

theorem orchard_finite : orchard.Within IsFinite where
  rules := {
    valueSmoothing := rfl
    bounds := by
      rintro _ ⟨rfl⟩ good
      rw [Table.getElem_const]
      exact ⟨rfl, rfl⟩
    laborSmoothing := rfl
    ratioFloor := rfl
    floorDivisor := rfl
    exponent := trivial
    birthRate := rfl
    deathRate := rfl }
  catalog := {
    amounts := fun group member input chosen => by
      obtain rfl := List.mem_singleton.mp member
      obtain rfl := List.mem_singleton.mp chosen
      rfl
    rates := fun entry member => by
      obtain rfl := List.mem_singleton.mp member
      rfl }
  decay good := by
    rw [orchard, Table.getElem_const]
    rfl
  replenishers site member := by
    obtain rfl := List.mem_singleton.mp member
    intro entry member
    obtain rfl := List.mem_singleton.mp member
    exact ⟨rfl, rfl⟩
  economies site member := by
    obtain rfl := List.mem_singleton.mp member
    refine .of_seeded rfl rfl (fun good => ?_) (fun good value present => ?_) fun labor => ?_
    · rw [Table.getElem_const]
      rfl
    · rw [Table.getElem_const] at present
      cases present
    · rw [Table.getElem_const]
      rfl

theorem orchard_stocked : ∀ site ∈ orchard.sites.values, site.economy.Stocked := by
  intro site member
  obtain rfl := List.mem_singleton.mp member
  intro good
  show 0 ≤ (Table.const 1.0 : Table Good Float)[good]
  rw [Table.getElem_const]
  exact of_decide_eq_true rfl

theorem stocks_stay_numbers_orchard :
    orchard.Indexed ∧ orchard.Within IsFinite ∧
      ∃ reached, orchard.RunsCalmly [.real 90.0, .whole 30] reached ∧
        ∀ site ∈ reached.sites.values, ∀ good : Good,
          0 ≤ site.economy.stocks[good] ∧ IsFinite site.economy.stocks[good] := by
  obtain ⟨reached, ran⟩ := exists_runsCalmly_of_keepsCalm orchard_indexed
    (by decide +kernel : orchard.keepsCalm [.real 90.0, .whole 30] = true)
  have lasts : ∀ days ∈ [.real 90.0, .whole 30], Given.Within IsFinite days := by
    intro days member
    rcases List.mem_cons.mp member with rfl | member
    · rfl
    · obtain rfl := List.mem_singleton.mp member
      trivial
  exact ⟨orchard_indexed, orchard_finite, reached, ran,
    stocks_stay_numbers orchard_indexed orchard_finite orchard_stocked lasts ran⟩

/-- A configuration with farmers who order an amount of wheat that is no number. -/
def spoiltRecipes : Document := .object [
  ("scale_exponent", .whole 0),
  ("recipes", .object [
    ("orders", .list [.object [
      ("labor", .text "farmer"), ("inputs", .object [("wheat", .real (0.0 / 0.0))])]]),
    ("productivity", .object [
      ("farmer", .object [("output", .text "flour"), ("rate", .real 2.0)])])])]

/-- Recipes are not refused for an amount that is no number. A world built on them loses a stock to
it in its first tick, although all that the configuration holds besides its recipes is standard or
zero and nothing overflows. -/
theorem nan_amount_spoils_stock : ∃ config world reached,
    Config.read (spoiltRecipes.write (.full none)) = .ok config ∧
    (Config.standard.diff config).map Prod.fst = [.scaleExponent, .recipes] ∧
    (config.get .scaleExponent).same (.whole 0) = true ∧
    (config.buildWorld .none).outcome.1 = .ok world ∧ world.RunsCalmly [.real 90.0] reached ∧
    ∃ site ∈ reached.sites.values,
      site.economy.stocks[Good.flour].isNaN = true ∧ ¬0 ≤ site.economy.stocks[Good.flour] := by
  have spoils : ((Config.read (spoiltRecipes.write (.full none))).toOption.any fun config =>
      (Config.standard.diff config).map Prod.fst = [.scaleExponent, .recipes] &&
      (config.get .scaleExponent).same (.whole 0) &&
      (config.buildWorld .none).outcome.1.toOption.any fun world =>
        world.keepsCalm [.real 90.0] &&
        (world.run [.real 90.0]).state.sites.values.any fun site =>
          site.economy.stocks[Good.flour].isNaN && !decide (0 ≤ site.economy.stocks[Good.flour])) =
        true := by decide +kernel
  simp only [Option.any_eq_true, Bool.and_eq_true, decide_eq_true_iff, List.any_eq_true] at spoils
  obtain ⟨config, read, ⟨differs, exponent⟩, world, built, calm, site, member, spoilt, negative⟩ :=
    spoils
  have built := eq_ok_of_toOption_eq_some built
  have indexed : world.Indexed := by
    have yields := (config.yields_buildWorld .none).outcome
    exact (yields.kind_of_eq_ok built).2
  obtain ⟨reached, ran⟩ := exists_runsCalmly_of_keepsCalm indexed calm
  rw [ran.ran.state_eq] at member
  exact ⟨config, world, reached, eq_ok_of_toOption_eq_some read, differs, exponent, built, ran,
    site, member, spoilt, by simpa using negative⟩

end World

end Settlement
