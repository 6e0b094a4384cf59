import Settlement.Proofs.World.Run
/-!
Ticks that a fault may interrupt. Sites that have ticked before the fault keep what they became,
but whatever happens a world keeps its sites, and its clock moves only where a tick completes.
-/
namespace Settlement.World

variable {R : Type}

/-- A world at some time, with sites of the given ids, each under the key of its id. -/
structure At (world : World R) (ids : List Name) (clock : R) : Prop where
  indexed : world.Indexed
  siteIds : world.siteIds = ids
  clock : world.clock = clock

variable {world after : World R} {ids : List Name} {clock : R}

theorem Indexed.at_self (indexed : world.Indexed) : world.At world.siteIds world.clock :=
  ⟨indexed, rfl, rfl⟩

/-- No two sites of a world have the same key. -/
theorem At.nodup_keys (stands : world.At ids clock) : (ids.map Name.key).Nodup := by
  have keys : ids.map Name.key = world.sites.keys := by
    rw [← stands.siteIds, World.siteIds, OrderedMap.values, OrderedMap.keys, List.map_map,
      List.map_map]
    exact List.map_congr_left stands.indexed
  rw [keys]
  exact world.sites.distinct

theorem At.exists_site (stands : world.At ids clock) {id : Name} (member : id ∈ ids) :
    ∃ site, world.site id = .ok site := by
  rw [← stands.siteIds, World.siteIds, List.mem_map] at member
  obtain ⟨site, present, rfl⟩ := member
  obtain ⟨entry, held, rfl⟩ := List.mem_map.mp present
  exact ⟨entry.2, by rw [World.site, stands.indexed.find?_id held]⟩

theorem At.putEconomy (stands : world.At ids clock) {id : Name} {site : Site R}
    (found : world.site id = .ok site) (economy : Economy R) :
    (world.putEconomy site economy).At ids clock := by
  have held : world.sites.find? id.key = some site := by
    unfold World.site at found
    split at found <;> simp_all
  have member := (OrderedMap.find?_eq_some_iff _ _ _).mp held
  obtain ⟨front, back, split⟩ := List.append_of_mem member
  have indexed : (world.putEconomy (id.key, site).2 economy).Indexed :=
    stands.indexed.putEconomy economy
  refine ⟨indexed, ?_, stands.clock⟩
  rw [← stands.siteIds, World.siteIds, World.siteIds, OrderedMap.values, OrderedMap.values,
    putEconomy_entries stands.indexed split, split]
  simp

variable [Scalar R] {days : Given R}

theorem At.tickSite (stands : world.At ids clock) (id : Name) :
    (World.tickSite days id world).state.At ids clock := by
  obtain same | ⟨site, found, put⟩ := state_tickSite_eq_or days id world
  · rwa [same]
  · rw [put]
    exact stands.putEconomy found _

/-- The sites tick before the clock moves. -/
theorem At.tickSites (stands : world.At ids clock) :
    (Outcome.each world.siteIds (World.tickSite days) world).state.At ids clock :=
  Outcome.state_each_keeps (fun world : World R => world.At ids clock)
    (fun id _ _ kept => kept.tickSite id) stands

/-- A tick that completes moves the clock by its length. -/
theorem At.of_reaches_tick (stands : world.At ids clock)
    (ticked : (world.tick days).Reaches after) :
    ∃ length, days.operand (.notOperand "+=" .real) = .ok length ∧
      after.At ids (clock + length) := by
  obtain ⟨reached, sites, moves⟩ := Outcome.reaches_andThen.mp ticked
  have kept : reached.At ids clock := sites.state_eq ▸ stands.tickSites
  obtain ⟨length, success, moved⟩ := Outcome.reaches_given.mp moves
  obtain rfl := Outcome.reaches_done.mp moved
  exact ⟨length, success, kept.indexed, kept.siteIds, by rw [kept.clock]⟩

/-- A tick that a fault interrupts leaves the clock as it was. -/
theorem At.of_tick_interrupted (stands : world.At ids clock)
    (interrupted : (world.tick days).completes = false) :
    (world.tick days).state.At ids clock := by
  have kept : (Outcome.each world.siteIds (World.tickSite days) world).state.At ids clock :=
    stands.tickSites
  cases complete : (Outcome.each world.siteIds (World.tickSite days) world).completes with
  | false =>
    rw [tick, Outcome.andThen_of_not_completes complete]
    exact kept
  | true =>
    have moves : (advanceClock days
        (Outcome.each world.siteIds (World.tickSite days) world).state).completes = false := by
      rw [Bool.eq_false_iff, tick, ne_eq, Outcome.completes_andThen] at interrupted
      simpa [complete] using interrupted
    rw [tick, Outcome.state_andThen complete]
    unfold advanceClock at moves ⊢
    cases reading : days.operand (.notOperand "+=" .real) with
    | error fault => exact kept
    | ok length => simp [reading, Outcome.completes, Outcome.done] at moves

/-- One more tick moves the clock once more. -/
theorem clockAfter_replicate_succ {count : Nat} {start length : R}
    (moved : clockAfter (List.replicate count days) start = .ok clock)
    (success : days.operand (.notOperand "+=" .real) = .ok length) :
    clockAfter (List.replicate (count + 1) days) start = .ok (clock + length) := by
  have split : clockAfter (List.replicate (count + 1) days) start =
      clockAfter (List.replicate count days) start >>= clockAfter [days] := by
    rw [clockAfter, List.replicate_succ', List.foldlM_append]
    rfl
  rw [split, moved]
  exact clockAfter_cons_eq_ok_iff.mpr ⟨length, success, rfl⟩

end Settlement.World
