import Settlement.Proofs.Session.LifeCycle
import Settlement.Proofs.World.Failure
/-!
Steps that a fault stops. A session that is stepped into a tick which fails keeps its counter and
its recorder from the last tick that was completed: only its world tells of the failed one.
-/
namespace Settlement

namespace Session

variable {session next after : Session} {period : Given Float} {interval : Interval} {count : Int}
  {fault : Fault}

/-- The recorder looks at all sites of the world, and each of them stands under its own key. -/
structure Watches (session : Session) : Prop where
  indexed : session.world.Indexed
  all : session.recorder.chosen = none

theorem Watches.tickOnce (watches : session.Watches)
    (ticked : (session.tickOnce period interval).Reaches next) : next.Watches := by
  obtain ⟨_, observes, counts⟩ := Outcome.reaches_andThen.mp ticked
  obtain rfl := Outcome.reaches_done.mp counts
  obtain ⟨_, moves, looks⟩ := Outcome.reaches_andThen.mp observes
  obtain ⟨world, tick, rfl⟩ := Outcome.reaches_map.mp moves
  obtain ⟨length, _, stands⟩ := watches.indexed.at_self.of_reaches_tick tick
  dsimp only at looks
  split at looks
  · obtain ⟨recorder, looked, chosen, _⟩ :=
      Recorder.exists_reaches_observe stands watches.all session.currentTick
    obtain ⟨other, observed, rfl⟩ := Outcome.reaches_map.mp looks
    obtain rfl := looked.unique observed
    exact ⟨stands.indexed, chosen⟩
  · obtain rfl := Outcome.reaches_done.mp looks
    exact ⟨stands.indexed, watches.all⟩

/-- Where all sites are looked at, nothing but the tick itself can fail. -/
theorem Watches.stops_tickOnce (watches : session.Watches)
    (stops : (session.tickOnce period interval).Stops fault after) :
    ∃ world, (session.world.tick period).Stops fault world ∧ after = { session with world } := by
  rcases Outcome.stops_andThen.mp stops with early | ⟨_, _, counts⟩
  · rcases Outcome.stops_andThen.mp early with moves | ⟨_, moves, looks⟩
    · obtain ⟨world, stopped, rfl⟩ := Outcome.stops_map.mp moves
      exact ⟨world, stopped, rfl⟩
    · obtain ⟨world, tick, rfl⟩ := Outcome.reaches_map.mp moves
      obtain ⟨length, _, stands⟩ := watches.indexed.at_self.of_reaches_tick tick
      dsimp only at looks
      split at looks
      · obtain ⟨recorder, looked, _, _⟩ :=
          Recorder.exists_reaches_observe stands watches.all session.currentTick
        obtain ⟨other, stopped, _⟩ := Outcome.stops_map.mp looks
        exact absurd looked stopped.not_reaches
      · exact absurd looks Outcome.not_stops_done
  · exact absurd counts Outcome.not_stops_done

/-- Steps that stop do so at one tick, after some that were completed. -/
theorem Watches.stops_steps (watches : session.Watches) {ticks : Nat}
    (stops : (Outcome.steps ticks (fun _ => Session.tickOnce period interval) session).Stops
      fault after) :
    ∃ done last world, done < ticks ∧
      (Outcome.steps done (fun _ => Session.tickOnce period interval) session).Reaches last ∧
        last.Watches ∧ (last.world.tick period).Stops fault world ∧
          after = { last with world } := by
  rw [Outcome.steps_eq_each] at stops
  obtain ⟨front, index, back, last, split, before, stopped⟩ := stops.exists_item
  have kept : last.Watches :=
    before.each_keeps (fun _ _ _ _ held tick => held.tickOnce tick) watches
  obtain ⟨world, struck, rfl⟩ := kept.stops_tickOnce stopped
  have fewer : front.length < ticks := by
    have sizes := congrArg List.length split
    simp only [List.length_range, List.length_append, List.length_cons] at sizes
    omega
  have first : front = List.range front.length := by
    have taken := congrArg (List.take front.length) split
    rw [List.take_left, List.take_range, Nat.min_eq_left (Nat.le_of_lt fewer)] at taken
    exact taken.symm
  refine ⟨front.length, last, world, fewer, ?_, kept, struck, rfl⟩
  rw [Outcome.steps_eq_each, ← first]
  exact before

/-- A step that stops has either not come to any tick, or it was stopped by one. -/
theorem Watches.stops_step (watches : session.Watches)
    (stops : (session.step count).Stops fault after) :
    (session.config.interval = .error fault ∧ after = { session with status := .running }) ∨
      ∃ interval done last world, session.config.interval = .ok interval ∧
        done < (min count session.remaining).toNat ∧
        (Outcome.steps done (fun _ => Session.tickOnce session.config.period interval)
          { session with status := .running }).Reaches last ∧
        last.Watches ∧ (last.world.tick session.config.period).Stops fault world ∧
        after = { last with world } := by
  unfold Session.step at stops
  split at stops
  · exact absurd stops Outcome.not_stops_done
  · rcases Outcome.stops_andThen.mp stops with advance | ⟨_, _, settles⟩
    · rcases Outcome.stops_given.mp advance with ⟨failed, rfl⟩ | ⟨interval, read, steps⟩
      · exact .inl ⟨failed, rfl⟩
      · have running : { session with status := .running }.Watches := ⟨watches.indexed, watches.all⟩
        obtain ⟨done, last, world, fewer, before, kept, struck, rfl⟩ :=
          running.stops_steps (Outcome.stops_noteFault.mp steps)
        exact .inr ⟨interval, done, last, world, read, fewer, before, kept, struck, rfl⟩
    · exact absurd settles Outcome.not_stops_done

/-- What a tick that fails leaves behind. In a world, the sites before the one where the fault
struck have ticked, the others and the clock have not, and where production finds fault with a
recipe it names the first group that orders nothing. In a session, the counter and the recorder
are those after the last completed tick. -/
theorem failed_tick_is_contained :
    (∀ (world after : World Float) (days : Given Float) (fault : Fault), world.Indexed →
      days.isNegative = .ok false → days.isZero = false → (world.tick days).Stops fault after →
        (world.sites.entries = [] ∧ after = world) ∨
          ∃ front entry back, world.StruckAt after days fault front entry back ∧
            ∀ staffed labor defect, ((entry.2.economy.trade world.rules
                (entry.2.economy.totals world.catalog)).andThen
                  (Economy.employ world.rules world.catalog)).Reaches staffed →
              (staffed.produce world.catalog world.rules.exponent
                (entry.2.economy.totals world.catalog).demand).fault = some (.recipe labor defect) →
              fault = .recipe labor defect ∧ defect = .noInputs ∧
                ∃ groups group rest, world.catalog.orders = groups ++ group :: rest ∧
                  (∀ earlier ∈ groups, earlier.inputs ≠ []) ∧ group.inputs = [] ∧
                    group.labor = labor) ∧
      ∀ (session after : Session) (count : Int) (fault : Fault), session.Watches →
        (session.step count).Stops fault after →
          (session.config.interval = .error fault ∧ after = { session with status := .running }) ∨
            ∃ interval done last world, session.config.interval = .ok interval ∧
              done < (min count session.remaining).toNat ∧
              (Outcome.steps done (fun _ => Session.tickOnce session.config.period interval)
                { session with status := .running }).Reaches last ∧
              last.world.Indexed ∧ (last.world.tick session.config.period).Stops fault world ∧
              after = { last with world } := by
  constructor
  · intro world after days fault indexed forwards moves stops
    rcases indexed.exists_struckAt forwards moves stops with none | ⟨front, entry, back, struck⟩
    · exact .inl none
    refine .inr ⟨front, entry, back, struck, ?_⟩
    intro staffed labor defect staff produce
    have stopped : (world.economyTick days entry.2).Stops (.recipe labor defect) _ :=
      Outcome.stops_andThen.mpr
        (.inl (Outcome.stops_andThen.mpr (.inr ⟨staffed, staff, produce, rfl⟩)))
    have same : some fault = some (.recipe labor defect) := struck.stopped.symm.trans stopped.1
    exact ⟨Option.some.inj same, Economy.exists_group_of_stops_produce ⟨produce, rfl⟩⟩
  · intro session after count fault watches stops
    rcases watches.stops_step stops with unread | ⟨interval, done, last, world, read, fewer, before,
      kept, struck, same⟩
    · exact .inl unread
    · exact .inr ⟨interval, done, last, world, read, fewer, before, kept.indexed, struck, same⟩

end Session

/-- Farmers, and miners who order nothing. -/
def Catalog.idleMine : Catalog Float where
  orders := [⟨some .farmer, [(.wheat, 1.0)]⟩, ⟨some .miner, []⟩]
  outputs := ⟨[(.farmer, ⟨.flour, 1.0⟩), (.miner, ⟨.rock, 1.0⟩)], by simp⟩

/-- A deserted village that still has a mine. -/
def Site.idleMine : Site Float where
  id := .ofText "mine"
  name := .text "Mine"
  economy := .seeded 0.0 (Table.const 1.0) (Table.const none) (Table.const 0.5)
  replenisher := .barren

/-- The village in a world whose catalog nobody checked. -/
def World.idleMine : World Float where
  rules := Config.strandedYear.rules
  catalog := .idleMine
  decay := Table.const 0.0
  clock := 0.0
  sites := ⟨[(.text "mine", .idleMine)], by simp⟩

theorem World.idleMine_indexed : idleMine.Indexed := by
  simp [Indexed, idleMine, Site.idleMine, Name.ofText]

/-- A desert, and a field where food will have grown after the first tick. -/
def World.awakening : World Float where
  rules := Config.strandedYear.rules
  catalog := ⟨[], OrderedMap.empty⟩
  decay := Table.const 0.0
  clock := 0.0
  sites := ⟨[
    (.text "desert", ⟨.ofText "desert", .text "Desert",
      .seeded 5.0 (Table.const 0.0) (Table.const none) (Table.const 0.5), .barren⟩),
    (.text "field", ⟨.ofText "field", .text "Field",
      .seeded 5.0 (Table.const 0.0) (Table.const none) (Table.const 0.5),
      .renewable ⟨[(.food, ⟨10.0, 0.5⟩)], by simp⟩⟩)], by simp; decide⟩

theorem World.awakening_indexed : awakening.Indexed := by
  simp [Indexed, awakening, Name.ofText]

/-- A session on the desert and the field. -/
def Session.awakening : Session := Sessions.opened "awakening" .null .strandedYear .awakening 12

theorem Session.awakening_watches : awakening.Watches := ⟨World.awakening_indexed, rfl⟩

theorem Session.failed_tick_is_contained_awakening :
    (∃ labor after front entry back, World.idleMine.StruckAt after (.whole 1)
      (.recipe labor .noInputs) front entry back) ∧
      ∃ fault after front entry back, ∃ last : Session, ∃ world,
        (Session.awakening.step 3).Stops fault after ∧ after = { last with world } ∧
          after.currentTick = 1 ∧
          last.world.StruckAt world Config.strandedYear.period fault front entry back := by
  obtain ⟨struck, stepped⟩ := Session.failed_tick_is_contained
  constructor
  · obtain ⟨fault, stops⟩ := Outcome.exists_stops_of_not_completes
      (by decide +kernel : (World.idleMine.tick (.whole 1)).completes = false)
    rcases struck _ _ _ _ World.idleMine_indexed rfl rfl stops with
      ⟨none, _⟩ | ⟨front, entry, back, here, recipes⟩
    · cases none
    have only : entry.2 = .idleMine := by
      have sites := here.sites
      cases front with
      | nil => exact congrArg Prod.snd (List.cons.inj sites).1.symm
      | cons first rest => simp [World.idleMine] at sites
    rw [only] at recipes
    let staff := ((Site.idleMine.economy.trade World.idleMine.rules
      (Site.idleMine.economy.totals World.idleMine.catalog)).andThen
        (Economy.employ World.idleMine.rules World.idleMine.catalog))
    have staffed : staff.Reaches staff.state :=
      Outcome.completes_iff_reaches_state.mp (by decide +kernel)
    have produced : ((staff.state.produce World.idleMine.catalog World.idleMine.rules.exponent
        (Site.idleMine.economy.totals World.idleMine.catalog).demand).fault.map Fault.category) =
          some .recipe := by decide +kernel
    obtain ⟨cause, produced, category⟩ := Option.map_eq_some_iff.mp produced
    cases cause with
    | recipe labor defect =>
      obtain ⟨rfl, rfl, _⟩ := recipes _ labor defect staffed produced
      exact ⟨labor, _, front, entry, back, here⟩
    | notFigure kind => cases kind <;> cases category
    | _ => cases category
  · obtain ⟨fault, stops⟩ := Outcome.exists_stops_of_not_completes
      (by decide +kernel : (Session.awakening.step 3).completes = false)
    have period : Config.strandedYear.period = .real 90.0 := by
      simp [Config.strandedYear, Config.withSettings, Config.period, Config.given, Config.get,
        Config.standard, Table.setAll, Table.getElem_set, Parameter.standard, Document.given]
    have forwards : Config.strandedYear.period.isNegative = .ok false := by
      rw [period]
      exact congrArg Except.ok (by decide +kernel : Binary64.isBelow 90.0 0 = false)
    have moves : Config.strandedYear.period.isZero = false := by
      rw [period]
      decide +kernel
    have whole : (Config.strandedYear.get .snapshotInterval).number? = some (.whole 5) := by
      simp [Config.strandedYear, Config.withSettings, Config.get, Config.standard, Table.setAll,
        Table.getElem_set, Parameter.standard, Document.whole, Document.number?]
    rcases stepped _ _ _ _ Session.awakening_watches stops with
      ⟨unread, _⟩ | ⟨interval, done, last, world, _, _, _, indexed, stopped, same⟩
    · cases (Config.interval_of_whole whole).symm.trans unread
    · have ticks : (Session.awakening.step 3).state.currentTick = 1 := by decide +kernel
      have sites : (Session.awakening.step 3).state.world.sites.entries.length = 2 := by
        decide +kernel
      rcases struck _ _ _ _ indexed forwards moves stopped with
        ⟨none, rfl⟩ | ⟨front, entry, back, here, _⟩
      · rw [same, none] at sites
        cases sites
      · exact ⟨fault, _, front, entry, back, last, world, stops, same, ticks, here⟩

end Settlement
