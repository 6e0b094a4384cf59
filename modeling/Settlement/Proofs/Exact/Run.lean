import Settlement.Proofs.Exact.Tick
import Settlement.Proofs.World.Run
/-!
Runs in exact arithmetic. A lap of no days changes nothing, a longer one is a tick.
-/
namespace Settlement.World

variable {world : World ℝ} {rules : ExactRules} {replenisher : Replenisher ℝ}
  {economy after : Economy ℝ} {lengths : List (Given ℝ)}

theorem reaches_lap_iff_eq (denotes : world.rules.Denotes rules) {given : Given ℝ} {days : ℝ}
    (length : given.Denotes days) :
    (world.lap replenisher given economy).Reaches after ↔
      days = 0 ∧ after = economy ∨
        0 < days ∧ economy.CanTick rules world.catalog ∧
          after = economy.ticked rules world.catalog world.decay replenisher days := by
  rw [reaches_lap_iff, length.isNegative, length.isZero]
  rcases lt_trichotomy days 0 with negative | rfl | positive
  · simp [negative, ne_of_lt negative, not_lt_of_gt negative]
  · simp [eq_comm]
  · simp [not_lt_of_gt positive, ne_of_gt positive, positive,
      Economy.reaches_tick_iff_eq denotes length]

/-- A lap of any length above zero ends where a tick of that length ends. -/
theorem reaches_lap_iff_of_pos (denotes : world.rules.Denotes rules) {given : Given ℝ} {days : ℝ}
    (length : given.Denotes days) (positive : 0 < days) :
    (world.lap replenisher given economy).Reaches after ↔
      economy.CanTick rules world.catalog ∧
        after = economy.ticked rules world.catalog world.decay replenisher days := by
  rw [reaches_lap_iff_eq denotes length]
  simp [positive, ne_of_gt positive]

/-- What a tick keeps, all laps keep. -/
theorem laps_keep {property : Economy ℝ → Prop} (denotes : world.rules.Denotes rules)
    (keeps : ∀ economy days, 0 < days → property economy →
      property (economy.ticked rules world.catalog world.decay replenisher days))
    (forwards : ∀ given ∈ lengths, ∃ days, 0 ≤ days ∧ given.Denotes days)
    (ran : (world.laps replenisher lengths economy).Reaches after) (start : property economy) :
    property after := by
  refine Outcome.Reaches.each_keeps ?_ ran start
  intro given member first second held lapped
  obtain ⟨days, _, length⟩ := forwards given member
  rcases (reaches_lap_iff_eq denotes length).mp lapped with ⟨_, rfl⟩ | ⟨positive, _, rfl⟩
  · exact held
  · exact keeps first days positive held

/-- What holds before the first tick, and what every tick carries on to the next count, holds after
as many ticks as there are lengths. -/
theorem holds_of_laps {motive : Nat → Economy ℝ → Prop} (denotes : world.rules.Denotes rules)
    (forwards : ∀ given ∈ lengths, ∃ days, 0 < days ∧ given.Denotes days)
    (ran : (world.laps replenisher lengths economy).Reaches after) (start : motive 0 economy)
    (ticks : ∀ count economy days, 0 < days → motive count economy →
      motive (count + 1) (economy.ticked rules world.catalog world.decay replenisher days)) :
    motive lengths.length after := by
  refine Outcome.Reaches.each_counts ?_ ran start
  intro given member count first second held lapped
  obtain ⟨days, positive, length⟩ := forwards given member
  obtain ⟨_, rfl⟩ := (reaches_lap_iff_of_pos denotes length positive).mp lapped
  exact ticks count first days positive held

/-- A tick that takes any time ticks the economy of every site. -/
theorem Indexed.exists_of_mem_ticked {next : World ℝ} {given : Given ℝ} {days : ℝ}
    {site : Site ℝ} (indexed : world.Indexed) (denotes : world.rules.Denotes rules)
    (length : given.Denotes days) (positive : 0 < days) (ticked : (world.tick given).Reaches next)
    (member : site ∈ next.sites.values) :
    ∃ before ∈ world.sites.values, site = { before with economy := site.economy } ∧
      site.economy =
        before.economy.ticked rules world.catalog world.decay before.replenisher days := by
  obtain ⟨complete, _, _, rfl⟩ := (reaches_tick_iff indexed).mp ticked
  rw [values_withEconomies] at member
  obtain ⟨before, present, rfl⟩ := List.mem_map.mp member
  have lapped := Outcome.completes_iff_reaches_state.mp (complete before present)
  obtain ⟨_, same⟩ := (reaches_lap_iff_of_pos denotes length positive).mp lapped
  exact ⟨before, present, rfl, same⟩

theorem exists_clockAfter (numbers : ∀ given ∈ lengths, ∃ days, given.Denotes days) (start : ℝ) :
    ∃ clock, clockAfter lengths start = .ok clock := by
  induction lengths generalizing start with
  | nil => exact ⟨start, rfl⟩
  | cons given rest ih =>
    obtain ⟨days, length⟩ := numbers given (by simp)
    obtain ⟨clock, later⟩ :=
      ih (fun other member => numbers other (by simp [member])) (start + days)
    exact ⟨clock, clockAfter_cons_eq_ok_iff.mpr ⟨days, length.operand _, later⟩⟩

/-- Under safe parameters and with a valid catalog, nothing stops a run that goes forwards. -/
theorem exists_reaches_run (denotes : world.rules.Denotes rules) (safe : rules.Safe)
    (exponent : 0 ≤ rules.exponent) (valid : world.catalog.Valid) (indexed : world.Indexed)
    (forwards : ∀ given ∈ lengths, ∃ days, 0 ≤ days ∧ given.Denotes days) :
    ∃ reached, (world.run lengths).Reaches reached := by
  obtain ⟨clock, moved⟩ := exists_clockAfter
    (fun given member => (forwards given member).imp fun _ => And.right) world.clock
  refine ⟨_, (reaches_run_iff indexed).mpr ⟨fun site _ => ?_, clock, moved, rfl⟩⟩
  have laps : ∃ after, (world.laps site.replenisher lengths site.economy).Reaches after ∧ True := by
    refine Outcome.exists_reaches_each ?_ trivial
    intro given member economy _
    obtain ⟨days, nonneg, length⟩ := forwards given member
    simp only [reaches_lap_iff_eq denotes length, and_true]
    rcases eq_or_lt_of_le nonneg with zero | positive
    · exact ⟨economy, .inl ⟨zero.symm, rfl⟩⟩
    · exact ⟨_, .inr ⟨positive, Economy.canTick_of_safe safe exponent valid, rfl⟩⟩
  obtain ⟨after, reaches, _⟩ := laps
  exact Outcome.completes_iff_exists_reaches.mpr ⟨after, reaches⟩

/-- Two settlements with a mill, one of which has wheat that grows back. -/
noncomputable def mills : World ℝ where
  rules := .ofExact .standard
  catalog := .mill
  decay := Table.const (1 / (10 : Nat))
  clock := 0
  sites := ⟨[
    (.text "north", ⟨.ofText "north", .text "North", .mill, .barren⟩),
    (.text "south", ⟨.ofText "south", .text "South", .mill,
      .renewable ⟨[(.wheat, ⟨(50 : Nat), 1 / (2 : Nat)⟩)], by simp⟩⟩)], by simp; decide⟩

theorem mills_indexed : mills.Indexed := by
  simp [Indexed, mills, Name.ofText]

theorem mills_restoring : ∀ site ∈ mills.sites.values, site.replenisher.Restoring := by
  have barren : (Replenisher.barren : Replenisher ℝ).Restoring := by
    intro good target grows
    cases grows
  simp only [mills, OrderedMap.values, List.map_cons, List.map_nil, List.forall_mem_cons]
  refine ⟨barren, ?_, by simp⟩
  intro good target grows
  rcases eq_or_ne Good.wheat good with rfl | other
  · obtain rfl := Option.some.inj grows
    norm_num
  · simp [Replenisher.target?, OrderedMap.find?, other] at grows

/-- A month and half a day, as they may be given. -/
theorem month_and_half_forwards : ∀ given ∈ ([.whole 30, .real (1 / 2)] : List (Given ℝ)),
    ∃ days, 0 < days ∧ given.Denotes days := by
  have month : (Given.whole 30 : Given ℝ).Denotes ((30 : Int) : ℝ) := .whole rfl
  have half : (Given.real (1 / 2) : Given ℝ).Denotes (1 / 2) := .real _
  simp only [List.forall_mem_cons]
  exact ⟨⟨_, by norm_num, month⟩, ⟨_, by norm_num, half⟩, by simp⟩

end Settlement.World
