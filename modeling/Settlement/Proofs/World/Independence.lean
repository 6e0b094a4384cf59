import Settlement.Proofs.Exact.Run
/-!
Independence of sites. What becomes of a site over a whole run depends on its economy, its
replenisher and the setting of its world, and on no other site.
-/
namespace Settlement.World

variable {R : Type}

/-- The world with one site only. -/
def alone (world : World R) (site : Site R) : World R :=
  { world with sites := ⟨[(site.id.key, site)], by simp⟩ }

theorem alone_indexed (world : World R) (site : Site R) : (world.alone site).Indexed := by
  intro entry member
  obtain rfl := List.mem_singleton.mp member
  rfl

theorem values_alone (world : World R) (site : Site R) :
    (world.alone site).sites.values = [site] := rfl

/-- Two worlds may differ in their sites only. -/
structure SameSetting (first second : World R) : Prop where
  rules : first.rules = second.rules
  catalog : first.catalog = second.catalog
  decay : first.decay = second.decay
  clock : first.clock = second.clock

variable [Scalar R]

/-- Ticks one site by hand: for each length the site, then the clock. -/
def drive (id : Name) (lengths : List (Given R)) : World R → Outcome (World R) :=
  Outcome.each lengths fun days world => (tickSite days id world).andThen (advanceClock days)

variable {world other reached : World R} {site : Site R} {lengths : List (Given R)}

theorem tick_alone (world : World R) (site : Site R) (days : Given R) :
    (world.alone site).tick days =
      (tickSite days site.id (world.alone site)).andThen (advanceClock days) := by
  show (Outcome.each [site.id] (tickSite days) (world.alone site)).andThen _ = _
  rw [Outcome.each_cons, Outcome.andThen_assoc]
  congr 1
  funext ticked
  rw [Outcome.each_nil, Outcome.done_andThen]

/-- A site that is alone is driven as the world ticks: a tick leaves it alone again. -/
theorem reaches_drive_alone_iff {lone : World R} :
    ((world.alone site).drive site.id lengths).Reaches lone ↔
      ((world.alone site).run lengths).Reaches lone := by
  induction lengths generalizing world site with
  | nil => exact Iff.rfl
  | cons days rest ih =>
    rw [drive, run, Outcome.reaches_each_cons, Outcome.reaches_each_cons]
    apply exists_congr
    intro ticked
    rw [← tick_alone]
    refine and_congr_right fun tick => ?_
    obtain ⟨_, length, _, rfl⟩ := (reaches_tick_iff (alone_indexed world site)).mp tick
    let later : World R := { world with clock := world.clock + length }
    let lapped : Site R := { site with
      economy := ((world.alone site).lap site.replenisher days site.economy).state }
    have again : ((later.alone lapped).drive lapped.id rest).Reaches lone ↔
      ((later.alone lapped).run rest).Reaches lone := ih
    exact again

theorem SameSetting.lap_eq (setting : world.SameSetting other) : world.lap = other.lap := by
  funext replenisher days economy
  simp only [lap, setting.rules, setting.catalog, setting.decay]

theorem SameSetting.laps_eq (setting : world.SameSetting other) (replenisher : Replenisher R) :
    world.laps replenisher lengths = other.laps replenisher lengths := by
  simp only [laps, setting.lap_eq]

/-- A world whose sites are among those of another runs as that one does. -/
theorem exists_reaches_run_of_subset (indexed : world.Indexed) (others : other.Indexed)
    (setting : world.SameSetting other)
    (subset : ∀ site ∈ other.sites.values, site ∈ world.sites.values)
    (ran : (world.run lengths).Reaches reached) :
    ∃ final, (other.run lengths).Reaches final ∧ final.clock = reached.clock ∧
      ∀ site ∈ other.sites.values, final.site site.id = reached.site site.id := by
  obtain ⟨complete, clock, moved, rfl⟩ := (reaches_run_iff indexed).mp ran
  have same (site : Site R) : world.laps site.replenisher lengths site.economy =
      other.laps site.replenisher lengths site.economy := by
    rw [setting.laps_eq]
  refine ⟨_, (reaches_run_iff others).mpr ⟨?_, clock, setting.clock ▸ moved, rfl⟩, ?_, ?_⟩
  · intro site member
    rw [← same]
    exact complete site (subset site member)
  · rw [clock_withEconomies, clock_withEconomies]
  · intro site member
    rw [others.site_withEconomies member, indexed.site_withEconomies (subset site member), same]

/-- A site ends a run as it would have ended it alone. So neither the order in which sites were
added nor the presence of others matters, and equal sites stay equal. -/
theorem sites_independent (indexed : world.Indexed) (ran : (world.run lengths).Reaches reached) :
    (∀ site ∈ world.sites.values, ∃ lone economy,
      ((world.alone site).drive site.id lengths).Reaches lone ∧ lone.clock = reached.clock ∧
        lone.site site.id = .ok { site with economy } ∧
        reached.site site.id = .ok { site with economy }) ∧
      (∀ other : World R, other.Indexed → world.SameSetting other →
        (∀ site ∈ other.sites.values, site ∈ world.sites.values) →
          ∃ final, (other.run lengths).Reaches final ∧ final.clock = reached.clock ∧
            ∀ site ∈ other.sites.values, final.site site.id = reached.site site.id) ∧
      ∀ first ∈ world.sites.values, ∀ second ∈ world.sites.values,
        first.economy = second.economy → first.replenisher = second.replenisher →
          ∃ economy, reached.site first.id = .ok { first with economy } ∧
            reached.site second.id = .ok { second with economy } := by
  refine ⟨?_, ?_, ?_⟩
  · intro site member
    obtain ⟨economy, _, ended⟩ := indexed.reaches_laps ran member
    have subset : ∀ other ∈ (world.alone site).sites.values, other ∈ world.sites.values := by
      rw [values_alone]
      exact fun other same => List.mem_singleton.mp same ▸ member
    obtain ⟨lone, alone, clock, sites⟩ := exists_reaches_run_of_subset indexed
      (alone_indexed world site) ⟨rfl, rfl, rfl, rfl⟩ subset ran
    have same := sites site (by rw [values_alone]; exact List.mem_singleton_self site)
    exact ⟨lone, economy, reaches_drive_alone_iff.mpr alone, clock, same.trans ended, ended⟩
  · intro other others setting subset
    exact exists_reaches_run_of_subset indexed others setting subset ran
  · intro first left second right economies replenishers
    obtain ⟨economy, laps, ended⟩ := indexed.reaches_laps ran left
    obtain ⟨other, others, finish⟩ := indexed.reaches_laps ran right
    rw [← economies, ← replenishers] at others
    obtain rfl := laps.unique others
    exact ⟨economy, ended, finish⟩

theorem sites_independent_mills :
    ∃ reached, (mills.run [.whole 30]).Reaches reached ∧
      ∀ site ∈ mills.sites.values, ∃ lone economy,
        ((mills.alone site).drive site.id [.whole 30]).Reaches lone ∧
          lone.site site.id = .ok { site with economy } ∧
          reached.site site.id = .ok { site with economy } := by
  have month : (Given.whole 30 : Given ℝ).Denotes ((30 : Int) : ℝ) := .whole rfl
  have forwards : ∀ given ∈ [(Given.whole 30 : Given ℝ)], ∃ days, 0 ≤ days ∧ given.Denotes days :=
    fun given member => ⟨_, by norm_num, List.mem_singleton.mp member ▸ month⟩
  obtain ⟨reached, ran⟩ := exists_reaches_run (Rules.ofExact_denotes _)
    ExactRules.standard_admissible.safe ExactRules.standard_exponent_nonneg Catalog.mill_valid
    mills_indexed forwards
  refine ⟨reached, ran, ?_⟩
  intro site member
  obtain ⟨lone, economy, alone, _, ended, same⟩ :=
    (sites_independent mills_indexed ran).1 site member
  exact ⟨lone, economy, alone, ended, same⟩

end Settlement.World
