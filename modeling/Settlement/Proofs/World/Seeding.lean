import Settlement.Proofs.Decimal.Written
import Settlement.Proofs.Exact.Scalar
import Settlement.Proofs.OrderedMap
import Settlement.Proofs.World.Run
/-!
Seeded sites. A site takes nothing from the sites before it but its place in the row of draws, so
fewer sites are the first ones of more. No two get the same id, so that none is refused when they
are added to a world one by one.
-/
namespace Settlement

/-- Whole numbers that are written alike are the same. -/
theorem Number.wholeText_natCast_injective :
    Function.Injective fun number : Nat => wholeText number := by
  intro first second same
  have digits := String.ofList_injective same
  simp only [Decimal.signed, Int.natCast_nonneg, not_lt.mpr, decide_false, Int.natAbs_natCast,
    Bool.false_eq_true, if_false] at digits
  rw [← Decimal.natural_digits first, digits, Decimal.natural_digits]

/-- The real that a float stands for; one that is no number, or infinite, stands for none. -/
def Binary64.exactly (x : Float) : ℝ := ((Decimal.Binary.ofFloat? x).elim 0 (·.value) : ℚ)

/-- The same growth in another arithmetic. -/
def Replenisher.map {R S : Type} (value : R → S) : Replenisher R → Replenisher S
  | barren => barren
  | renewable targets =>
    renewable (targets.mapValues fun target => ⟨value target.level, value target.rate⟩)

namespace Seeding

variable {R : Type} [Scalar R] {seeding : Seeding R} {count : Nat} {draws others : Nat → R}

theorem key_siteId_injective : Function.Injective fun index => (siteId index).key := by
  intro first second same
  have texts : Text.ofString "site_" ++ Text.ofString (Number.wholeText first) =
      Text.ofString "site_" ++ Text.ofString (Number.wholeText second) := Name.Key.text.inj same
  have units := List.append_cancel_left (congrArg Text.units texts)
  have numerals : Text.ofString (Number.wholeText first) =
      Text.ofString (Number.wholeText second) := congrArg Text.mk units
  have written := congrArg Text.string numerals
  rw [Text.string_ofString, Text.string_ofString] at written
  exact Number.wholeText_natCast_injective written

/-- The sites stand in their order, each with the draw of its own place. -/
theorem entries_sites (seeding : Seeding R) (count : Nat) (draws : Nat → R) :
    (seeding.sites count draws).entries = (List.range count).map fun index =>
      ((siteId index).key, seeding.site index (draws index)) := by
  apply OrderedMap.entries_ofList_of_nodup
  rw [List.map_map]
  exact List.nodup_range.map key_siteId_injective

theorem mem_values_sites {site : Site R} : site ∈ (seeding.sites count draws).values ↔
    ∃ index < count, site = seeding.site index (draws index) := by
  simp [OrderedMap.values, entries_sites, eq_comm]

/-- Fewer sites are the first ones of more. -/
theorem entries_sites_take {fewer : Nat} (within : fewer ≤ count) :
    (seeding.sites fewer draws).entries = (seeding.sites count draws).entries.take fewer := by
  rw [entries_sites, entries_sites, ← List.map_take, List.take_range, min_eq_left within]

theorem sites_succ (seeding : Seeding R) (count : Nat) (draws : Nat → R) :
    (seeding.sites (count + 1) draws).entries = (seeding.sites count draws).entries ++
      [((siteId count).key, seeding.site count (draws count))] := by
  rw [entries_sites, entries_sites, List.range_succ, List.map_append, List.map_singleton]

/-- Where populations are not spread, no site looks at its draw. -/
theorem site_eq_of_alike (alike : seeding.spread = none) (index : Nat) (draw other : R) :
    seeding.site index draw = seeding.site index other := by
  simp only [site, populationFor, alike]

theorem sites_eq_of_alike (alike : seeding.spread = none) :
    seeding.sites count draws = seeding.sites count others := by
  apply OrderedMap.ext_entries
  rw [entries_sites, entries_sites]
  exact List.map_congr_left fun index _ => by rw [site_eq_of_alike alike]

/-! The loop that seeds a world. -/

/-- A draw for the next site, and the draws that are left. Only a population that is spread takes
one. -/
def draw (seeding : Seeding R) (stream : Nat → R) : R × (Nat → R) :=
  if seeding.spread.isSome then (stream 0, fun index => stream (index + 1)) else (0, stream)

/-- The draws that are left when some sites have taken theirs. -/
def left (seeding : Seeding R) (count : Nat) (stream : Nat → R) : Nat → R :=
  if seeding.spread.isSome then fun index => stream (index + count) else stream

/-- Adds the sites to a world one by one, each with the next draw of the same row. -/
def settle (seeding : Seeding R) (count : Nat) (stream : Nat → R) (world : World R) :
    Except Fault (World R × (Nat → R)) :=
  (List.range count).foldlM
    (fun settled index => do
      let drawn := seeding.draw settled.2
      return (← settled.1.addSite (seeding.site index drawn.1), drawn.2))
    (world, stream)

theorem site_draw_left (index : Nat) :
    seeding.site index (seeding.draw (seeding.left index draws)).1 =
      seeding.site index (draws index) := by
  unfold draw left
  cases spread : seeding.spread with
  | none => exact site_eq_of_alike spread index _ _
  | some spread => simp

theorem draw_left (index : Nat) :
    (seeding.draw (seeding.left index draws)).2 = seeding.left (index + 1) draws := by
  unfold draw left
  cases seeding.spread with
  | none => rfl
  | some spread =>
    funext place
    simp only [Option.isSome_some, if_true]
    rw [Nat.add_right_comm, Nat.add_assoc]

/-- The next site is added behind the others. -/
theorem addSite_site {world : World R} (settled : world.sites = seeding.sites count draws) :
    world.addSite (seeding.site count (draws count)) =
      .ok { world with sites := seeding.sites (count + 1) draws } := by
  have absent : world.sites.find? (siteId count).key = none := by
    rw [OrderedMap.find?_eq_none_iff, settled, entries_sites, List.map_map, List.mem_map]
    intro holds
    obtain ⟨index, member, same⟩ := holds
    exact absurd (key_siteId_injective same) (ne_of_lt (List.mem_range.mp member))
  have placed : world.sites.insert (siteId count).key (seeding.site count (draws count)) =
      seeding.sites (count + 1) draws := by
    apply OrderedMap.ext_entries
    rw [OrderedMap.entries_insert_of_absent absent, settled, sites_succ]
  have free : world.sites.contains (seeding.site count (draws count)).id.key = false := by
    rw [OrderedMap.contains]
    exact congrArg Option.isSome absent
  rw [World.addSite, free, ← placed]
  rfl

/-- To add the seeded sites to a world without sites fails at none of them, and each has the draw of
its place. -/
theorem settle_eq (seeding : Seeding R) (count : Nat) (draws : Nat → R) {world : World R}
    (bare : world.sites = .empty) :
    seeding.settle count draws world =
      .ok ({ world with sites := seeding.sites count draws }, seeding.left count draws) := by
  induction count with
  | zero =>
    have none : seeding.sites 0 draws = world.sites := bare.symm
    have all : seeding.left 0 draws = draws := by simp [left]
    rw [none, all]
    rfl
  | succ count ih =>
    have settled : seeding.settle (count + 1) draws world =
        seeding.settle count draws world >>= fun settled => do
          return (← settled.1.addSite (seeding.site count (seeding.draw settled.2).1),
            (seeding.draw settled.2).2) := by
      rw [settle, List.range_succ, List.foldlM_append]
      simp [settle]
    rw [settled, ih, ← draw_left]
    show (do return (← World.addSite _ (seeding.site count _), _)) = _
    rw [site_draw_left, addSite_site rfl]
    rfl

/-! Populations. -/

/-- The same start in another arithmetic. -/
def map {S : Type} (value : R → S) (seeding : Seeding R) : Seeding S where
  population := value seeding.population
  spread := seeding.spread.map value
  stocks := seeding.stocks.map value
  values := seeding.values.map (Option.map value)
  shares := seeding.shares.map value
  replenisher := seeding.replenisher.map value

/-- A spread population keeps a tenth at least. -/
theorem tenth_le_population (seeding : Seeding ℝ) (nonneg : 0 ≤ seeding.population) (index : Nat)
    (draw : ℝ) : seeding.population / 10 ≤ (seeding.site index draw).economy.population := by
  show _ ≤ seeding.populationFor draw
  unfold populationFor
  split
  · rename_i spread _
    have least : 1 / 10 ≤ spreadFactor spread draw := by
      unfold spreadFactor
      dsimp only
      split
      · norm_num
      · rename_i enough
        exact le_of_eq_of_le (by norm_num) (not_lt.mp enough)
    rw [div_eq_mul_one_div]
    exact mul_le_mul_of_nonneg_left least nonneg
  · exact div_le_self nonneg (by norm_num)

end Seeding

/-- The world with the same sites and nobody in them. -/
def World.unpeopled {R : Type} [Scalar R] (world : World R) : World R :=
  world.withEconomies (fun site => { site.economy with population := 0 }) world.clock

/-- Draws decide about populations only. -/
theorem Seeding.unpeopled_sites {R : Type} [Scalar R] {seeding : Seeding R} {count : Nat}
    {draws others : Nat → R} (world : World R) :
    { world with sites := seeding.sites count draws }.unpeopled =
      { world with sites := seeding.sites count others }.unpeopled := by
  have same : (seeding.sites count draws).mapValues
        (fun site => { site with economy := { site.economy with population := 0 } }) =
      (seeding.sites count others).mapValues
        fun site => { site with economy := { site.economy with population := 0 } } := by
    apply OrderedMap.ext_entries
    simp only [OrderedMap.mapValues, entries_sites, List.map_map]
    rfl
  simp only [World.unpeopled, World.withEconomies, same]

end Settlement
