import Settlement.Proofs.Outcome
import Settlement.Proofs.Table
import Settlement.World.Seeding
/-!
Runs of a world. The sites of a world tick side by side: a run reaches a state exactly when each
economy goes through its own laps, and then every site holds the economy that its laps end in.
-/
namespace Settlement.World

variable {R : Type}

/-- Every site stands under the key of its id. -/
def Indexed (world : World R) : Prop := ∀ entry ∈ world.sites.entries, entry.2.id.key = entry.1

/-- The world at another time, with other economies. -/
def withEconomies (world : World R) (economies : Site R → Economy R) (clock : R) : World R :=
  { world with
    clock
    sites := world.sites.mapValues fun site => { site with economy := economies site } }

theorem Indexed.of_seeding [Scalar R] {world : World R} {seeding : Seeding R} {count : Nat}
    {draws : Nat → R} (seeded : world.sites = seeding.sites count draws) : world.Indexed := by
  rw [Indexed, seeded]
  apply OrderedMap.forall_mem_ofList
  intro entry member
  obtain ⟨index, _, rfl⟩ := List.mem_map.mp member
  rfl

theorem Indexed.find?_id {world : World R} (indexed : world.Indexed) {entry : Name.Key × Site R}
    (member : entry ∈ world.sites.entries) :
    world.sites.find? entry.2.id.key = some entry.2 := by
  rw [indexed entry member]
  exact (OrderedMap.find?_eq_some_iff _ _ _).mpr member

theorem Indexed.withEconomies {world : World R} (indexed : world.Indexed)
    (economies : Site R → Economy R) (clock : R) :
    (world.withEconomies economies clock).Indexed := by
  intro entry member
  obtain ⟨old, present, rfl⟩ := List.mem_map.mp member
  exact indexed old present

theorem withEconomies_self (world : World R) :
    world.withEconomies Site.economy world.clock = world := by
  have same : world.sites.mapValues (fun site => { site with economy := site.economy }) =
      world.sites := OrderedMap.ext_entries (List.map_id' _)
  rw [World.withEconomies, same]

theorem withEconomies_withEconomies (world : World R) (first second : Site R → Economy R)
    (earlier later : R) :
    (world.withEconomies first earlier).withEconomies second later =
      world.withEconomies (fun site => second { site with economy := first site }) later := by
  simp only [World.withEconomies, OrderedMap.mapValues_mapValues, Function.comp_def]

theorem withEconomies_congr {world : World R} {first second : Site R → Economy R}
    (same : ∀ site ∈ world.sites.values, first site = second site) (clock : R) :
    world.withEconomies first clock = world.withEconomies second clock := by
  have sites : world.sites.mapValues (fun site => { site with economy := first site }) =
      world.sites.mapValues fun site => { site with economy := second site } := by
    apply OrderedMap.ext_entries
    apply List.map_congr_left
    intro entry member
    simp only [same entry.2 (List.mem_map_of_mem member)]
  rw [World.withEconomies, sites, World.withEconomies]

theorem values_withEconomies (world : World R) (economies : Site R → Economy R) (clock : R) :
    (world.withEconomies economies clock).sites.values =
      world.sites.values.map fun site => { site with economy := economies site } :=
  OrderedMap.values_mapValues _ _

theorem clock_withEconomies (world : World R) (economies : Site R → Economy R) (clock : R) :
    (world.withEconomies economies clock).clock = clock := rfl

theorem Indexed.site_withEconomies {world : World R} (indexed : world.Indexed) {site : Site R}
    (member : site ∈ world.sites.values) (economies : Site R → Economy R) (clock : R) :
    (world.withEconomies economies clock).site site.id =
      .ok { site with economy := economies site } := by
  obtain ⟨entry, present, rfl⟩ := List.mem_map.mp member
  have found : (world.withEconomies economies clock).sites.find? entry.2.id.key =
      some { entry.2 with economy := economies entry.2 } := by
    rw [World.withEconomies, OrderedMap.find?_mapValues, indexed.find?_id present]
    rfl
  rw [World.site, found]

theorem mem_values_of_site {world : World R} {id : Name} {site : Site R} (found : world.site id = .ok site) :
    site ∈ world.sites.values := by
  unfold World.site at found
  split at found
  · rename_i present
    cases found
    exact List.mem_map_of_mem ((OrderedMap.find?_eq_some_iff _ _ _).mp present)
  · cases found

theorem putEconomy_self {world : World R} {site : Site R}
    (found : world.sites.find? site.id.key = some site) :
    world.putEconomy site site.economy = world := by
  show { world with sites := world.sites.insert site.id.key site } = world
  rw [OrderedMap.insert_self found]

theorem putEconomy_entries {world : World R} {front back : List (Name.Key × Site R)}
    {entry : Name.Key × Site R} (indexed : world.Indexed)
    (sites : world.sites.entries = front ++ entry :: back) (economy : Economy R) :
    (world.putEconomy entry.2 economy).sites.entries =
      front ++ (entry.1, { entry.2 with economy }) :: back := by
  have same : entry.2.id.key = entry.1 := indexed entry (by simp [sites])
  have distinct := world.sites.distinct
  rw [sites, List.map_append, List.nodup_append] at distinct
  have absent : entry.1 ∉ front.map Prod.fst := fun member =>
    distinct.2.2 entry.1 member entry.1 (by simp) rfl
  show OrderedMap.place entry.2.id.key _ world.sites.entries = _
  rw [sites, same]
  exact OrderedMap.place_append entry.2 _ absent

theorem Indexed.putEconomy {world : World R} {entry : Name.Key × Site R}
    (indexed : world.Indexed) (economy : Economy R) :
    (world.putEconomy entry.2 economy).Indexed := by
  intro other member
  rcases OrderedMap.eq_or_mem_of_mem_place member with new | old
  · exact new ▸ rfl
  · exact indexed other old

variable [Scalar R]

/-- What a tick does to an economy of the world. -/
def lap (world : World R) (replenisher : Replenisher R) (days : Given R) (economy : Economy R) :
    Outcome (Economy R) :=
  .given days.isNegative economy fun backwards =>
    if backwards then .failed economy (.backwards days.number)
    else if days.isZero then .done economy
    else economy.tick world.rules world.catalog world.decay replenisher days

def laps (world : World R) (replenisher : Replenisher R) (lengths : List (Given R)) :
    Economy R → Outcome (Economy R) :=
  Outcome.each lengths (world.lap replenisher)

/-- Ticks of given lengths, one after the other. -/
def run (lengths : List (Given R)) : World R → Outcome (World R) := Outcome.each lengths tick

/-- The clock after ticks of given lengths. -/
def clockAfter (lengths : List (Given R)) (clock : R) : Except Fault R :=
  lengths.foldlM
    (fun clock days => do return clock + (← days.operand (.notOperand "+=" .real))) clock

theorem reaches_lap_iff {world : World R} {replenisher : Replenisher R} {days : Given R}
    {economy after : Economy R} : (world.lap replenisher days economy).Reaches after ↔
    days.isNegative = .ok false ∧
      if days.isZero then economy = after
      else (economy.tick world.rules world.catalog world.decay replenisher days).Reaches after := by
  rw [lap, Outcome.reaches_given]
  constructor
  · intro holds
    obtain ⟨backwards, sign, lapped⟩ := holds
    cases backwards with
    | true => exact absurd lapped Outcome.not_reaches_failed
    | false =>
      refine ⟨sign, ?_⟩
      cases zero : days.isZero <;> simpa [zero] using lapped
  · intro holds
    obtain ⟨sign, lapped⟩ := holds
    refine ⟨false, sign, ?_⟩
    cases zero : days.isZero <;> simpa [zero] using lapped

/-- To tick a site is to let its economy have a lap. -/
theorem tickSite_eq {world : World R} {site : Site R} (days : Given R)
    (found : world.sites.find? site.id.key = some site) :
    tickSite days site.id world =
      (world.lap site.replenisher days site.economy).map (world.putEconomy site) := by
  have unchanged := putEconomy_self found
  unfold tickSite lap
  cases days.isNegative with
  | error fault => simp [Outcome.map, Outcome.failed, unchanged]
  | ok backwards =>
    cases backwards with
    | true => simp [Outcome.map, Outcome.failed, unchanged]
    | false =>
      by_cases zero : days.isZero
      · simp [zero, Outcome.map, Outcome.done, unchanged]
      · simp [zero, World.site, found]

/-- Whether or not a fault stops the tick of a site, it leaves the world, or puts what the tick has
made of the economy of the site in its place. -/
theorem state_tickSite_eq_or (days : Given R) (id : Name) (world : World R) :
    (tickSite days id world).state = world ∨ ∃ site, world.site id = .ok site ∧
      (tickSite days id world).state = world.putEconomy site
        (site.economy.tick world.rules world.catalog world.decay site.replenisher days).state := by
  unfold tickSite
  cases days.isNegative with
  | error fault => exact .inl rfl
  | ok backwards =>
    rw [Outcome.given_ok]
    split_ifs
    · exact .inl rfl
    · exact .inl rfl
    · cases found : world.site id with
      | error fault => exact .inl rfl
      | ok site => exact .inr ⟨site, rfl, rfl⟩

/-- A site that could be ticked had no lap, or its economy was ticked. -/
theorem exists_of_reaches_tickSite {world after : World R} {days : Given R} {id : Name}
    (ticked : (tickSite days id world).Reaches after) :
    after = world ∨ ∃ site economy, world.site id = .ok site ∧
      (site.economy.tick world.rules world.catalog world.decay site.replenisher days).Reaches
        economy ∧ after = world.putEconomy site economy := by
  rw [tickSite, Outcome.reaches_given] at ticked
  obtain ⟨backwards, _, ticked⟩ := ticked
  split_ifs at ticked
  · exact absurd ticked Outcome.not_reaches_failed
  · exact .inl (Outcome.reaches_done.mp ticked).symm
  · obtain ⟨site, found, ticked⟩ := Outcome.reaches_given.mp ticked
    obtain ⟨economy, reached, rfl⟩ := Outcome.reaches_map.mp ticked
    exact .inr ⟨site, economy, found, reached, rfl⟩

/-- The entry of a site after its lap. -/
private def lapEntry (world : World R) (days : Given R) (entry : Name.Key × Site R) :
    Name.Key × Site R :=
  (entry.1, { entry.2 with
    economy := (world.lap entry.2.replenisher days entry.2.economy).state })

/-- Induction on the sites that are still to tick: those before them have had their laps. -/
private theorem reaches_each_tickSite {world after : World R} {days : Given R}
    {front back : List (Name.Key × Site R)} (indexed : world.Indexed)
    (sites : world.sites.entries = front ++ back) :
    (Outcome.each (back.map fun entry => entry.2.id) (tickSite days) world).Reaches after ↔
      (∀ entry ∈ back, (world.lap entry.2.replenisher days entry.2.economy).completes = true) ∧
        after = { world with sites := after.sites } ∧
        after.sites.entries = front ++ back.map (world.lapEntry days) := by
  induction back generalizing world front with
  | nil =>
    rw [List.map_nil, Outcome.reaches_each_nil]
    constructor
    · rintro rfl
      exact ⟨by simp, rfl, by simpa using sites⟩
    · intro holds
      obtain ⟨_, same, entries⟩ := holds
      have kept : world.sites = after.sites :=
        OrderedMap.ext_entries (by rw [sites, entries]; rfl)
      rw [same, ← kept]
  | cons entry rest ih =>
    have member : entry ∈ world.sites.entries := by simp [sites]
    have found := indexed.find?_id member
    simp only [List.map_cons, Outcome.reaches_each_cons, tickSite_eq days found,
      Outcome.reaches_map]
    have placed (economy : Economy R) : (world.putEconomy entry.2 economy).sites.entries =
        (front ++ [(entry.1, { entry.2 with economy })]) ++ rest := by
      simpa using putEconomy_entries indexed sites economy
    have step (economy : Economy R) := ih (indexed.putEconomy economy) (placed economy)
    constructor
    · intro holds
      obtain ⟨_, ⟨economy, lapped, rfl⟩, rest⟩ := holds
      obtain ⟨complete, same, entries⟩ := (step economy).mp rest
      refine ⟨?_, same, ?_⟩
      · rw [List.forall_mem_cons, Outcome.completes_iff_exists_reaches]
        exact ⟨⟨economy, lapped⟩, complete⟩
      · rw [entries, List.append_assoc]
        have ended : (entry.1, { entry.2 with economy }) = world.lapEntry days entry := by
          rw [lapEntry, lapped.state_eq]
        rw [ended]
        rfl
    · intro holds
      obtain ⟨complete, same, entries⟩ := holds
      rw [List.forall_mem_cons, Outcome.completes_iff_reaches_state] at complete
      refine ⟨_, ⟨_, complete.1, rfl⟩, (step _).mpr ⟨complete.2, same, ?_⟩⟩
      rw [entries, List.append_assoc]
      rfl

private theorem reaches_advanceClock {world after : World R} {days : Given R} :
    (advanceClock days world).Reaches after ↔
      ∃ length, days.operand (.notOperand "+=" .real) = .ok length ∧
        { world with clock := world.clock + length } = after := by
  simp [advanceClock]

/-- A tick is a lap for every site. -/
theorem reaches_tick_iff {world after : World R} {days : Given R} (indexed : world.Indexed) :
    (world.tick days).Reaches after ↔
      (∀ site ∈ world.sites.values,
        (world.lap site.replenisher days site.economy).completes = true) ∧
        ∃ length, days.operand (.notOperand "+=" .real) = .ok length ∧
          after = world.withEconomies
            (fun site => (world.lap site.replenisher days site.economy).state)
            (world.clock + length) := by
  have ids : world.siteIds = world.sites.entries.map fun entry => entry.2.id := by
    simp [siteIds, OrderedMap.values, Function.comp_def]
  have start : world.sites.entries = [] ++ world.sites.entries := rfl
  have each {ticked : World R} :
      (Outcome.each (world.sites.entries.map fun entry => entry.2.id) (tickSite days) world).Reaches
          ticked ↔ _ :=
    reaches_each_tickSite indexed start
  have members : (∀ site ∈ world.sites.values,
      (world.lap site.replenisher days site.economy).completes = true) ↔
      ∀ entry ∈ world.sites.entries,
        (world.lap entry.2.replenisher days entry.2.economy).completes = true := by
    simp only [OrderedMap.values, List.forall_mem_map]
  rw [tick, ids, Outcome.reaches_andThen, members]
  constructor
  · intro holds
    obtain ⟨ticked, sites, clock⟩ := holds
    obtain ⟨complete, same, entries⟩ := each.mp sites
    obtain ⟨length, success, rfl⟩ := reaches_advanceClock.mp clock
    refine ⟨complete, length, success, ?_⟩
    have kept : ticked.sites = (world.withEconomies
        (fun site => (world.lap site.replenisher days site.economy).state)
        (world.clock + length)).sites := OrderedMap.ext_entries entries
    rw [same, kept]
    rfl
  · intro holds
    obtain ⟨complete, length, success, rfl⟩ := holds
    refine ⟨world.withEconomies
      (fun site => (world.lap site.replenisher days site.economy).state) world.clock, ?_, ?_⟩
    · exact each.mpr ⟨complete, rfl, rfl⟩
    · exact reaches_advanceClock.mpr ⟨length, success, rfl⟩

theorem completes_laps_cons {world : World R} {replenisher : Replenisher R} {days : Given R}
    {rest : List (Given R)} {economy : Economy R} :
    (world.laps replenisher (days :: rest) economy).completes = true ↔
      (world.lap replenisher days economy).completes = true ∧
        (world.laps replenisher rest
          (world.lap replenisher days economy).state).completes = true := by
  rw [laps, Outcome.each_cons, Outcome.completes_andThen]
  rfl

theorem state_laps_cons {world : World R} {replenisher : Replenisher R} {days : Given R}
    {economy : Economy R} (complete : (world.lap replenisher days economy).completes = true)
    (rest : List (Given R)) :
    (world.laps replenisher (days :: rest) economy).state =
      (world.laps replenisher rest (world.lap replenisher days economy).state).state := by
  rw [laps, Outcome.each_cons, Outcome.state_andThen complete]
  rfl

theorem clockAfter_cons_eq_ok_iff {days : Given R} {rest : List (Given R)} {start clock : R} :
    clockAfter (days :: rest) start = .ok clock ↔
      ∃ length, days.operand (.notOperand "+=" .real) = .ok length ∧
        clockAfter rest (start + length) = .ok clock := by
  rw [clockAfter, List.foldlM_cons]
  cases days.operand (.notOperand "+=" .real) with
  | error fault => simp [bind, Except.bind]
  | ok length => simp [bind, Except.bind, pure, Except.pure, clockAfter]

/-- A run takes every site through its laps. -/
theorem reaches_run_iff {world after : World R} {lengths : List (Given R)}
    (indexed : world.Indexed) :
    (world.run lengths).Reaches after ↔
      (∀ site ∈ world.sites.values,
        (world.laps site.replenisher lengths site.economy).completes = true) ∧
        ∃ clock, clockAfter lengths world.clock = .ok clock ∧
          after = world.withEconomies
            (fun site => (world.laps site.replenisher lengths site.economy).state) clock := by
  induction lengths generalizing world with
  | nil =>
    have still : world.withEconomies
        (fun site => (world.laps site.replenisher [] site.economy).state) world.clock = world :=
      world.withEconomies_self
    constructor
    · intro ends
      refine ⟨fun _ _ => rfl, world.clock, rfl, ?_⟩
      rw [still, Outcome.reaches_each_nil.mp ends]
    · intro holds
      obtain ⟨_, clock, kept, rfl⟩ := holds
      cases kept
      rw [still]
      exact Outcome.reaches_each_nil.mpr rfl
  | cons days rest ih =>
    rw [run, Outcome.reaches_each_cons]
    constructor
    · intro holds
      obtain ⟨middle, ticked, ran⟩ := holds
      obtain ⟨first, length, success, rfl⟩ := (reaches_tick_iff indexed).mp ticked
      obtain ⟨later, clock, moved, rfl⟩ := (ih (indexed.withEconomies _ _)).mp ran
      rw [values_withEconomies, List.forall_mem_map] at later
      refine ⟨fun site member => completes_laps_cons.mpr ⟨first site member, later site member⟩,
        clock, clockAfter_cons_eq_ok_iff.mpr ⟨length, success, moved⟩, ?_⟩
      rw [withEconomies_withEconomies]
      exact withEconomies_congr
        (fun site member => (state_laps_cons (first site member) rest).symm) clock
    · intro holds
      obtain ⟨complete, clock, moved, rfl⟩ := holds
      have split site (member : site ∈ world.sites.values) :=
        completes_laps_cons.mp (complete site member)
      obtain ⟨length, success, moved⟩ := clockAfter_cons_eq_ok_iff.mp moved
      refine ⟨_, (reaches_tick_iff indexed).mpr
        ⟨fun site member => (split site member).1, length, success, rfl⟩,
        (ih (indexed.withEconomies _ _)).mpr ⟨?_, clock, moved, ?_⟩⟩
      · rw [values_withEconomies, List.forall_mem_map]
        exact fun site member => (split site member).2
      · rw [withEconomies_withEconomies]
        exact withEconomies_congr
          (fun site member => state_laps_cons (split site member).1 rest) clock

variable {world reached : World R} {lengths : List (Given R)} {site : Site R}

/-- A run changes the clock and the economies of the sites only. -/
theorem Indexed.of_reaches_run (indexed : world.Indexed)
    (ran : (world.run lengths).Reaches reached) :
    reached.Indexed ∧ reached.rules = world.rules ∧ reached.catalog = world.catalog ∧
      reached.decay = world.decay := by
  obtain ⟨_, clock, _, rfl⟩ := (reaches_run_iff indexed).mp ran
  exact ⟨indexed.withEconomies _ _, rfl, rfl, rfl⟩

/-- A run leads every site through its laps and keeps the rest of it. -/
theorem Indexed.reaches_laps (indexed : world.Indexed) (ran : (world.run lengths).Reaches reached)
    (member : site ∈ world.sites.values) :
    ∃ economy, (world.laps site.replenisher lengths site.economy).Reaches economy ∧
      reached.site site.id = .ok { site with economy } := by
  obtain ⟨complete, clock, _, rfl⟩ := (reaches_run_iff indexed).mp ran
  refine ⟨_, Outcome.completes_iff_reaches_state.mp (complete site member), ?_⟩
  exact indexed.site_withEconomies member _ clock

/-- The sites that a run ends with are those that it began with. -/
theorem Indexed.exists_of_mem_reached (indexed : world.Indexed)
    (ran : (world.run lengths).Reaches reached) (member : site ∈ reached.sites.values) :
    ∃ start ∈ world.sites.values, (world.laps start.replenisher lengths start.economy).Reaches
      site.economy ∧ site = { start with economy := site.economy } := by
  obtain ⟨complete, clock, _, rfl⟩ := (reaches_run_iff indexed).mp ran
  rw [values_withEconomies] at member
  obtain ⟨start, present, rfl⟩ := List.mem_map.mp member
  exact ⟨start, present, Outcome.completes_iff_reaches_state.mp (complete start present), rfl⟩

end Settlement.World
