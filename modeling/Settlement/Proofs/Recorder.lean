import Settlement.Proofs.World.Interrupted
import Settlement.Recorder.Basic
/-!
What a recorder keeps. A look at a world adds one snapshot of every site behind those that were
taken before, and can not fail where all sites of the world are recorded.
-/
namespace Settlement.Recorder

variable {R : Type}

/-- The sites and ticks of the snapshots that are kept under a key, in the order in which they
were taken. -/
def looks (recorder : Recorder R) (key : Name.Key) : List (Name × Document) :=
  ((recorder.history.find? key).getD #[]).toList.map fun snapshot => (snapshot.site, snapshot.tick)

theorem looks_add (recorder : Recorder R) (snapshot : Snapshot R) (key : Name.Key) :
    (recorder.add snapshot).looks key =
      if snapshot.site.key = key then recorder.looks key ++ [(snapshot.site, snapshot.tick)]
      else recorder.looks key := by
  rw [looks, add, OrderedMap.find?_insert]
  split
  · rename_i same
    simp [looks, same]
  · rfl

variable {world : World R}

/-- Induction on the sites that are still to be looked at. -/
private theorem exists_reaches_each_observeSite (tick : Document) {ids : List Name}
    (present : ∀ id ∈ ids, ∃ site, world.site id = .ok site) (recorder : Recorder R) :
    ∃ after, (Outcome.each ids (observeSite tick world) recorder).Reaches after ∧
      after.chosen = recorder.chosen ∧
      ∀ key, after.looks key =
        recorder.looks key ++ (ids.filter (·.key = key)).map fun id => (id, tick) := by
  induction ids generalizing recorder with
  | nil => exact ⟨recorder, Outcome.reaches_each_nil.mpr rfl, rfl, fun _ => by simp⟩
  | cons id rest ih =>
    rw [List.forall_mem_cons] at present
    obtain ⟨⟨site, found⟩, others⟩ := present
    let added := recorder.add (.capture tick world.clock id site.economy)
    have looked : (observeSite tick world id recorder).Reaches added := by
      rw [observeSite, found]
      exact Outcome.reaches_done.mpr rfl
    obtain ⟨after, later, chosen, looks⟩ := ih others added
    refine ⟨after, Outcome.reaches_each_cons.mpr ⟨added, looked, later⟩, chosen, fun key => ?_⟩
    have first : added.looks key =
        if id.key = key then recorder.looks key ++ [(id, tick)] else recorder.looks key :=
      looks_add _ _ _
    rw [looks key, first]
    by_cases here : id.key = key
    · simp [here]
    · simp [here]

private theorem filter_key_eq_singleton {ids : List Name} (distinct : (ids.map Name.key).Nodup)
    {id : Name} (member : id ∈ ids) : ids.filter (·.key = id.key) = [id] := by
  obtain ⟨front, back, rfl⟩ := List.append_of_mem member
  rw [List.map_append, List.map_cons, List.nodup_append, List.nodup_cons] at distinct
  obtain ⟨_, ⟨later, _⟩, apart⟩ := distinct
  have before : front.filter (·.key = id.key) = [] := List.filter_eq_nil_iff.mpr
    fun other present same =>
      apart other.key (List.mem_map_of_mem present) id.key List.mem_cons_self (by simpa using same)
  have behind : back.filter (·.key = id.key) = [] := List.filter_eq_nil_iff.mpr
    fun other present same => later (List.mem_map.mpr ⟨other, present, by simpa using same⟩)
  simp [before, behind]

/-- A look at all sites of a world takes one snapshot of each. -/
theorem exists_reaches_observe {ids : List Name} {clock : R} (stands : world.At ids clock)
    {recorder : Recorder R} (all : recorder.chosen = none) (index : Int) :
    ∃ after, (recorder.observe index world).Reaches after ∧ after.chosen = none ∧
      ∀ id ∈ ids, after.looks id.key = recorder.looks id.key ++ [(id, .whole index)] := by
  obtain ⟨after, looked, chosen, looks⟩ := exists_reaches_each_observeSite (.whole index)
    (fun id => stands.exists_site) recorder
  refine ⟨after, ?_, chosen.trans all, fun id member => ?_⟩
  · rw [observe, observeAt, all, stands.siteIds]
    exact looked
  · rw [looks, filter_key_eq_singleton stands.nodup_keys member]
    rfl

end Settlement.Recorder
