import Mathlib.Data.String.Basic
import Settlement.Experiment.Summary
import Settlement.Proofs.Config.Seeding
import Settlement.Proofs.Exact.Bounds
import Settlement.Proofs.OrderedMap
import Settlement.Proofs.Simulation.Years
/-!
What experiments come to. A recorder keeps its snapshots site by site. Once it has taken every look
that was due it has kept, in another order, those of one look after the other, so that the people
that it adds up tick by tick are those of the world at each look. What an experiment tells is thus
settled by the world alone, and recording adds no more to it than the peak.
-/
namespace Settlement

section snapshots

variable {R : Type}

/-- The snapshots that a look at a world takes, site by site. -/
def World.snapshots (tick : Document) (world : World R) : List (Snapshot R) :=
  world.sites.values.map fun site => .capture tick world.clock site.id site.economy

namespace Recorder

/-- All snapshots, site by site. -/
def kept (recorder : Recorder R) : List (Snapshot R) := recorder.history.values.flatMap Array.toList

theorem kept_add (recorder : Recorder R) (snapshot : Snapshot R) :
    (recorder.add snapshot).kept.Perm (recorder.kept ++ [snapshot]) := by
  cases found : recorder.history.find? snapshot.site.key with
  | none =>
    have added : (recorder.add snapshot).kept = recorder.kept ++ [snapshot] := by
      simp only [kept, add, found, OrderedMap.values, OrderedMap.entries_insert_of_absent found]
      simp
    rw [added]
  | some before =>
    obtain ⟨front, back, split, absent⟩ := OrderedMap.exists_entries_eq found
    have entries : ((recorder.add snapshot).history).entries =
        front ++ (snapshot.site.key, before.push snapshot) :: back := by
      show OrderedMap.place snapshot.site.key _ recorder.history.entries = _
      rw [split, OrderedMap.place_append _ _ absent, found, Option.getD_some]
    simp only [kept, OrderedMap.values, entries, split]
    simp only [List.map_append, List.map_cons, List.flatMap_append, List.flatMap_cons,
      Array.toList_push, List.append_assoc]
    exact (List.perm_append_comm.append_left _).append_left _

variable {world : World R} {recorder : Recorder R}

/-- Induction on the sites that are still to be looked at. -/
theorem exists_reaches_each_kept (tick : Document) {sites : List (Site R)}
    (present : ∀ site ∈ sites, world.site site.id = .ok site) (recorder : Recorder R) :
    ∃ after, (Outcome.each (sites.map Site.id) (observeSite tick world) recorder).Reaches after ∧
      after.chosen = recorder.chosen ∧ after.kept.Perm (recorder.kept ++
        sites.map fun site => .capture tick world.clock site.id site.economy) := by
  induction sites generalizing recorder with
  | nil => exact ⟨recorder, Outcome.reaches_each_nil.mpr rfl, rfl, by simp⟩
  | cons site rest ih =>
    rw [List.forall_mem_cons] at present
    let snapshot := Snapshot.capture tick world.clock site.id site.economy
    have looked : (observeSite tick world site.id recorder).Reaches (recorder.add snapshot) := by
      rw [observeSite, present.1]
      exact Outcome.reaches_done.mpr rfl
    obtain ⟨after, later, chosen, kept⟩ := ih present.2 (recorder.add snapshot)
    refine ⟨after, Outcome.reaches_each_cons.mpr ⟨_, looked, later⟩, chosen, kept.trans ?_⟩
    rw [List.map_cons, List.append_cons]
    exact (recorder.kept_add snapshot).append_right _

end Recorder

theorem World.Indexed.site_eq {world : World R} (indexed : world.Indexed) {site : Site R}
    (member : site ∈ world.sites.values) : world.site site.id = .ok site := by
  obtain ⟨entry, held, rfl⟩ := List.mem_map.mp member
  rw [World.site, indexed.find?_id held]

variable [Scalar R] {world last : World R} {period : Given R} {every : Int} {count : Nat}

theorem World.Indexed.of_reaches_ticks (indexed : world.Indexed)
    (ticked : (World.ticks count period world).Reaches last) : last.Indexed := by
  rw [World.ticks_eq_run] at ticked
  exact (indexed.of_reaches_run ticked).1

/-- The world after the tick of an index. -/
def World.moment (period : Given R) (world : World R) (index : Nat) : World R :=
  (World.ticks (index + 1) period world).state

/-- The snapshots that are taken in the course of some ticks. -/
def World.taken (period : Given R) (every : Int) (count : Nat) (world : World R) :
    List (Snapshot R) :=
  (Session.dueTicks every count).flatMap fun index =>
    (world.moment period index).snapshots (.whole index)

/-- A recorder that looks at all sites can take every look that is due, and has taken their
snapshots then. -/
theorem Recorder.exists_reaches_due (indexed : world.Indexed)
    (ticked : (World.ticks count period world).Reaches last) {recorder : Recorder R}
    (all : recorder.chosen = none) :
    ∃ after, (Outcome.each (Look.due period every [observe] count world) Look.take
        recorder).Reaches after ∧ after.chosen = none ∧
      after.kept.Perm (recorder.kept ++ world.taken period every count) := by
  induction count generalizing last with
  | zero =>
    exact ⟨recorder, Outcome.reaches_each_nil.mpr rfl, all, by simp [World.taken, Session.dueTicks]⟩
  | succ count ih =>
    obtain ⟨middle, before, _⟩ := World.reaches_ticks_succ.mp ticked
    obtain ⟨reached, looked, chosen, kept⟩ := ih before
    have taken : world.taken period every (count + 1) = world.taken period every count ++
        if every ∣ count then (world.moment period count).snapshots (.whole count) else [] := by
      rw [World.taken, Session.dueTicks_succ, List.flatMap_append, World.taken]
      split <;> simp
    rw [Look.due_succ, taken, ← List.append_assoc]
    by_cases due : every ∣ (count : Int)
    · rw [if_pos due, if_pos due]
      have moment : (World.ticks (count + 1) period world).state = last := ticked.state_eq
      have stands : last.Indexed := indexed.of_reaches_ticks ticked
      obtain ⟨after, again, still, more⟩ := exists_reaches_each_kept (.whole count)
        (fun site => stands.site_eq) reached
      refine ⟨after, Outcome.reaches_each_append.mpr ⟨reached, looked, ?_⟩, still.trans chosen, ?_⟩
      · rw [moment, Look.round, List.map_singleton, Outcome.each_singleton]
        show (observe (count : Int) last reached).Reaches after
        rw [observe, observeAt, chosen]
        exact again
      · rw [World.moment, moment]
        exact more.trans (kept.append_right _)
    · rw [if_neg due, if_neg due, List.append_nil, List.append_nil]
      exact ⟨reached, looked, chosen, kept⟩

/-- A new recorder comes to hold just the snapshots that are due. -/
theorem World.Indexed.exists_reaches_fresh (indexed : world.Indexed)
    (ticked : (World.ticks count period world).Reaches last) :
    ∃ recorder, (Outcome.each (Look.due period every [Recorder.observe] count world) Look.take
        (.fresh none)).Reaches recorder ∧
      recorder.kept.Perm (world.taken period every count) := by
  have all : (Recorder.fresh none : Recorder R).chosen = none := rfl
  obtain ⟨recorder, looked, _, kept⟩ := Recorder.exists_reaches_due indexed ticked all
  exact ⟨recorder, looked, kept⟩

end snapshots

section exact

open Recorder

/-- The people of some snapshots. -/
noncomputable def people (snapshots : List (Snapshot ℝ)) : ℝ :=
  (snapshots.map Snapshot.population).sum

/-- The snapshots of a tick. -/
def ofTick (key : Name.Key) (snapshots : List (Snapshot ℝ)) : List (Snapshot ℝ) :=
  snapshots.filter fun snapshot => snapshot.tick.key? = some key

theorem ofTick_concat (key : Name.Key) (earlier : List (Snapshot ℝ)) (snapshot : Snapshot ℝ) :
    ofTick key (earlier ++ [snapshot]) =
      ofTick key earlier ++ if snapshot.tick.key? = some key then [snapshot] else [] := by
  rw [ofTick, List.filter_append, List.filter_singleton, ofTick]
  by_cases here : snapshot.tick.key? = some key <;> simp [here]

theorem people_concat (earlier : List (Snapshot ℝ)) (snapshot : Snapshot ℝ) :
    people (earlier ++ [snapshot]) = people earlier + snapshot.population := by
  simp [people]

/-- Induction on the snapshots from the last one. -/
theorem find?_foldl_addToTick (snapshots : List (Snapshot ℝ)) (key : Name.Key) :
    (snapshots.foldl addToTick OrderedMap.empty).find? key =
      if ofTick key snapshots = [] then none else some (people (ofTick key snapshots)) := by
  induction snapshots using List.reverseRecOn with
  | nil => rfl
  | append_singleton earlier snapshot ih =>
    rw [List.foldl_append, List.foldl_cons, List.foldl_nil, ofTick_concat, addToTick]
    cases named : snapshot.tick.key? with
    | none => simpa using ih
    | some tick =>
      dsimp only
      rw [OrderedMap.find?_insert]
      by_cases same : tick = key
      · subst same
        have before : ((earlier.foldl addToTick OrderedMap.empty).find? tick).getD 0 =
            people (ofTick tick earlier) := by
          rw [ih]
          split
          · rename_i none
            rw [none]
            rfl
          · rfl
        rw [if_pos rfl, if_pos rfl, if_neg (by simp), people_concat, before]
      · have apart : ¬some tick = some key := fun equal => same (Option.some.inj equal)
        rw [if_neg same, ih, if_neg apart, List.append_nil]

/-- The people of all recorded sites at the ticks that were recorded. -/
theorem mem_values_populations {recorder : Recorder ℝ} {total : ℝ} :
    total ∈ recorder.populations.values ↔
      ∃ key, ofTick key recorder.kept ≠ [] ∧ people (ofTick key recorder.kept) = total := by
  have entry (key : Name.Key) : (key, total) ∈ recorder.populations.entries ↔
      ofTick key recorder.kept ≠ [] ∧ people (ofTick key recorder.kept) = total := by
    rw [← OrderedMap.find?_eq_some_iff]
    have found := find?_foldl_addToTick recorder.kept key
    rw [show recorder.populations.find? key = _ from found]
    split
    · rename_i none
      simp [none]
    · rename_i some
      simp [some]
  simp only [OrderedMap.values, List.mem_map, Prod.exists, exists_eq_right, entry]

/-- The name of a tick. -/
def tickKey (index : Int) : Name.Key := .number (some (.finite index))

theorem key?_whole (index : Int) : (Document.whole index).key? = some (tickKey index) := rfl

theorem tickKey_injective {a b : Int} (same : tickKey a = tickKey b) : a = b := by
  have quantities : (a : ℚ) = b := by simpa [tickKey] using same
  exact_mod_cast quantities

variable {world last : World ℝ} {period : Given ℝ} {every : Int} {count : Nat}

/-- The people of a world. -/
noncomputable def World.total (world : World ℝ) : ℝ :=
  (world.sites.values.map fun site => site.economy.population).sum

theorem people_snapshots (tick : Document) (world : World ℝ) :
    people (world.snapshots tick) = world.total := by
  simp [people, World.snapshots, World.total, Snapshot.capture, Function.comp_def]

theorem ofTick_snapshots (key : Name.Key) (tick : Document) (world : World ℝ) :
    ofTick key (world.snapshots tick) =
      if tick.key? = some key then world.snapshots tick else [] := by
  by_cases here : tick.key? = some key
  · rw [if_pos here, ofTick, List.filter_eq_self]
    intro snapshot member
    obtain ⟨site, _, rfl⟩ := List.mem_map.mp member
    exact decide_eq_true here
  · rw [if_neg here, ofTick, List.filter_eq_nil_iff]
    intro snapshot member
    obtain ⟨site, _, rfl⟩ := List.mem_map.mp member
    exact fun holds => here (of_decide_eq_true holds)

/-- The snapshots of a tick that is due are those of the look after it. -/
theorem ofTick_taken {index : Nat} (due : index ∈ Session.dueTicks every count) :
    ofTick (tickKey index) (world.taken period every count) =
      (world.moment period index).snapshots (.whole index) := by
  obtain ⟨front, back, split⟩ := List.append_of_mem due
  have distinct : (Session.dueTicks every count).Nodup := List.nodup_range.filter _
  rw [split, List.nodup_append, List.nodup_cons] at distinct
  have others {indices : List Nat} (absent : index ∉ indices) :
      (indices.flatMap fun other =>
        ofTick (tickKey index) ((world.moment period other).snapshots (.whole other))) = [] := by
    rw [List.flatMap_eq_nil_iff]
    intro other member
    rw [ofTick_snapshots, if_neg]
    intro same
    have equal : other = index := by exact_mod_cast tickKey_injective (Option.some.inj same)
    exact absent (equal ▸ member)
  have parts : ofTick (tickKey index) (world.taken period every count) =
      (Session.dueTicks every count).flatMap fun other =>
        ofTick (tickKey index) ((world.moment period other).snapshots (.whole other)) :=
    List.filter_flatMap
  rw [parts, split, List.flatMap_append, List.flatMap_cons, ofTick_snapshots,
    if_pos (key?_whole index), others distinct.2.1.1, others, List.append_nil, List.nil_append]
  exact fun before => distinct.2.2 index before index List.mem_cons_self rfl

/-- What a recorder that took the looks that were due makes of them: the people of the world at
each of them, if it has sites. -/
theorem mem_values_populations_iff {recorder : Recorder ℝ}
    (kept : recorder.kept.Perm (world.taken period every count)) {total : ℝ} :
    total ∈ recorder.populations.values ↔ ∃ index ∈ Session.dueTicks every count,
      (world.moment period index).sites.values ≠ [] ∧
        (world.moment period index).total = total := by
  have parts (key : Name.Key) : (ofTick key recorder.kept).Perm
      (ofTick key (world.taken period every count)) := kept.filter _
  have people_eq (key : Name.Key) : people (ofTick key recorder.kept) =
      people (ofTick key (world.taken period every count)) := ((parts key).map _).sum_eq
  rw [mem_values_populations]
  constructor
  · rintro ⟨key, some, rfl⟩
    obtain ⟨snapshot, member⟩ := List.exists_mem_of_ne_nil _ some
    obtain ⟨taken, named⟩ := List.mem_filter.mp ((parts key).mem_iff.mp member)
    obtain ⟨index, due, present⟩ := List.mem_flatMap.mp taken
    obtain ⟨site, here, rfl⟩ := List.mem_map.mp present
    obtain rfl : tickKey index = key := Option.some.inj (of_decide_eq_true named)
    rw [people_eq, ofTick_taken due, people_snapshots]
    exact ⟨index, due, List.ne_nil_of_mem here, rfl⟩
  · rintro ⟨index, due, some, rfl⟩
    refine ⟨tickKey index, fun none => some ?_, ?_⟩
    · have nothing := parts (tickKey index)
      rw [none, ofTick_taken due] at nothing
      exact List.map_eq_nil_iff.mp nothing.symm.eq_nil
    · rw [people_eq, ofTick_taken due, people_snapshots]

/-- The peak is the greatest of the totals, if there are any. -/
theorem peak_isGreatest {recorder : Recorder ℝ} (some : recorder.populations.values ≠ []) :
    IsGreatest {total | total ∈ recorder.populations.values} recorder.peak := by
  cases totals : recorder.populations.values with
  | nil => exact absurd totals some
  | cons first rest =>
    have larger : (Scalar.larger : ℝ → ℝ → ℝ) = max := by
      funext a b
      exact Scalar.larger_eq_max a b
    have peak : (first :: rest).max? = Option.some recorder.peak := by
      rw [Recorder.peak, totals, larger]
      rfl
    exact List.max?_eq_some_iff.mp peak

theorem population_eq_total (world : World ℝ) : world.population = world.total :=
  Scalar.sum_eq _

theorem getElem_foldl_zipWith_add (good : Good) (tables : List (Table Good ℝ))
    (start : Table Good ℝ) : (tables.foldl (Table.zipWith (· + ·)) start)[good] =
      start[good] + (tables.map fun table => table[good]).sum := by
  induction tables generalizing start with
  | nil => simp
  | cons table rest ih =>
    rw [List.foldl_cons, ih, Table.getElem_zipWith, List.map_cons, List.sum_cons, add_assoc]

theorem getElem_totalStocks (world : World ℝ) (good : Good) :
    world.totalStocks[good] =
      (world.sites.values.map fun site => site.economy.stocks[good]).sum := by
  rw [World.totalStocks, getElem_foldl_zipWith_add, Table.getElem_const, zero_add, List.map_map]
  rfl

end exact

section unpriced

variable {R : Type} {world : World R}

theorem mem_unpriced {good : Good} :
    good ∈ world.unpriced ↔ ∃ site ∈ world.sites.values, site.economy.values[good] = none := by
  have all : good ∈ Good.all := Enumeration.mem_all good
  simp [World.unpriced, all]

/-- The unpriced goods are listed by their names, none of them twice. -/
theorem pairwise_unpriced (world : World R) :
    world.unpriced.Pairwise fun first later => first.name < later.name := by
  have sorted : world.unpriced.Pairwise fun first later => first.name ≤ later.name := by
    refine (List.pairwise_mergeSort (fun a b c first later => ?_) (fun a b => ?_) _).imp
      of_decide_eq_true
    · exact decide_eq_true ((of_decide_eq_true first).trans (of_decide_eq_true later))
    · simpa using le_total a.name b.name
  have distinct : world.unpriced.Nodup :=
    (List.mergeSort_perm _ _).nodup_iff.mpr ((Enumeration.nodup_all Good).filter _)
  refine (sorted.and distinct).imp fun both => ?_
  exact lt_of_le_of_ne both.1 fun same => both.2 (Good.name_injective same)

end unpriced

section exact

variable {period : Given ℝ} {every : Int} {count : Nat} {world last : World ℝ}

/-- The people of all sites after the ticks whose index the interval divides, and in the end. -/
def World.totals (period : Given ℝ) (every : Int) (count : Nat) (world last : World ℝ) : Set ℝ :=
  insert last.total {total | ∃ (index : ℕ) (moment : World ℝ), index < count ∧ every ∣ index ∧
    (World.ticks (index + 1) period world).Reaches moment ∧ moment.total = total}

theorem mem_totals_iff (ticked : (World.ticks count period world).Reaches last) {total : ℝ} :
    total ∈ world.totals period every count last ↔ total = last.total ∨
      ∃ index ∈ Session.dueTicks every count, (world.moment period index).total = total := by
  rw [World.totals, Set.mem_insert_iff]
  refine or_congr_right ?_
  simp only [Session.dueTicks, List.mem_filter, List.mem_range, decide_eq_true_eq]
  constructor
  · rintro ⟨index, moment, within, due, reached, rfl⟩
    exact ⟨index, ⟨within, due⟩, congrArg World.total reached.state_eq⟩
  · rintro ⟨index, ⟨within, due⟩, rfl⟩
    have reached := Outcome.completes_iff_reaches_state.mp
      (World.completes_ticks_of_le (Nat.succ_le_of_lt within) ticked)
    exact ⟨index, _, within, due, reached, rfl⟩

/-- The peak of a recorder that took the looks that were due, or the people in the end if they are
more. Where nothing is recorded there are no looks, or there are no sites and thus no people. -/
theorem isGreatest_peak {recorder : Recorder ℝ}
    (ticked : (World.ticks count period world).Reaches last)
    (kept : recorder.kept.Perm (world.taken period every count)) (some : 0 ≤ last.total) :
    IsGreatest (world.totals period every count last) (max recorder.peak last.total) := by
  have recorded (total : ℝ) := @mem_values_populations_iff _ period every count recorder kept total
  constructor
  · rw [mem_totals_iff ticked]
    by_cases none : recorder.populations.values = []
    · have zero : recorder.peak = 0 := by rw [Recorder.peak, none]
      rw [zero, max_eq_right some]
      exact .inl rfl
    · obtain ⟨index, due, _, most⟩ := (recorded _).mp (peak_isGreatest none).1
      rcases max_choice recorder.peak last.total with larger | larger
      · rw [larger]
        exact .inr ⟨index, due, most⟩
      · exact .inl larger
  · intro total member
    rcases (mem_totals_iff ticked).mp member with rfl | ⟨index, due, rfl⟩
    · exact le_max_right _ _
    · by_cases none : (world.moment period index).sites.values = []
      · have zero : (world.moment period index).total = 0 := by simp [World.total, none]
        rw [zero]
        exact le_max_of_le_right some
      · have present := (recorded _).mpr ⟨index, due, none, rfl⟩
        exact le_max_of_le_left ((peak_isGreatest (List.ne_nil_of_mem present)).2 present)

/-- A summary that adds up a world: the people and the stocks are those of all sites, and the goods
that it lists are, by their names and each of them once, those that some site leaves unpriced. -/
structure Summary.AddsUp (summary : Summary ℝ) (world : World ℝ) : Prop where
  population : summary.finalPopulation = world.total
  stocks : ∀ good : Good, summary.finalStocks[good] =
    (world.sites.values.map fun site => site.economy.stocks[good]).sum
  ordered : summary.unpriced.Pairwise fun first later => first.name < later.name
  unpriced : ∀ good : Good, good ∈ summary.unpriced ↔
    ∃ site ∈ world.sites.values, site.economy.values[good] = none

theorem Summary.ofWorld_addsUp (world : World ℝ) (recorder : Option (Recorder ℝ)) :
    (ofWorld world recorder).AddsUp world where
  population := population_eq_total world
  stocks := getElem_totalStocks world
  ordered := pairwise_unpriced world
  unpriced _ := mem_unpriced

end exact

section experiment

variable {R : Type} [Scalar R]

/-- The simulation of an experiment on a world, which a new recorder looks at or not. -/
def World.tried (period : Given R) (every : Int) (record : Bool) (ticks : Given R)
    (world : World R) : Outcome (Observed R (Recorder R)) :=
  Observed.simulate period ⟨.whole (max every 1)⟩ (if record then [Recorder.observe] else []) ticks
    ⟨world, .fresh none⟩

/-- The summary of an experiment, with what its recorder has seen or without it. -/
def Observed.summary (record : Bool) (observed : Observed R (Recorder R)) : Summary R :=
  .ofWorld observed.world (if record then some observed.memory else none)

variable {world last : World R} {period ticks : Given R} {every : Int}

/-- What an experiment tells is the summary of a simulation of the world that it builds. -/
theorem Experiment.exists_tried {draws : Draws} {config : Config} {record : Bool}
    {asked : Option (Given Float)} {experiment : Experiment}
    (whole : (config.get .snapshotInterval).number? = some (.whole every))
    (ran : (run draws config record asked).outcome.1 = .ok experiment) :
    ∃ world observed, (config.buildWorld draws).outcome.1 = .ok world ∧ world.Indexed ∧
      config.ticksToRun asked = .ok experiment.ticksRun ∧
      (world.tried config.period every record experiment.ticksRun).Reaches observed ∧
      experiment.world = observed.world ∧ experiment.summary = observed.summary record := by
  obtain ⟨world, observed, given, built, simulated, counted, rfl⟩ :=
    Experiment.outcome_run_eq_ok_iff.mp ran
  obtain ⟨schedule, read, simulated⟩ := Outcome.reaches_given.mp simulated
  rw [Config.schedule, counted, Config.interval_of_whole whole] at read
  cases read
  exact ⟨world, observed, built, Config.indexed_of_buildWorld built, counted, simulated, rfl, rfl⟩

/-- Recording neither stops a simulation nor changes what becomes of the world. -/
theorem World.Indexed.exists_reaches_tried_iff (indexed : world.Indexed) :
    (∃ recorder, (world.tried period every true ticks).Reaches ⟨last, recorder⟩) ↔
      ∃ recorder, (world.tried period every false ticks).Reaches ⟨last, recorder⟩ := by
  constructor
  · rintro ⟨recorder, ran⟩
    obtain ⟨told, count, counted, follows⟩ := Observed.reaches_simulate_iff.mp ran
    exact ⟨.fresh none, Observed.reaches_simulate_iff.mpr
      ⟨told, count, counted, follows.withoutObservers _⟩⟩
  · rintro ⟨_, ran⟩
    obtain ⟨told, count, counted, follows⟩ := Observed.reaches_simulate_iff.mp ran
    obtain ⟨recorder, looks, _⟩ := indexed.exists_reaches_fresh follows.world
    exact ⟨recorder, Observed.reaches_simulate_iff.mpr
      ⟨told, count, counted, follows.years, follows.world, looks⟩⟩

/-- Recorded or not, a simulation ends in the world that its ticks end in. -/
theorem World.reaches_ticks_of_tried {record : Bool} {observed : Observed R (Recorder R)}
    (ran : (world.tried period every record ticks).Reaches observed) :
    ∃ count, ticks.whole? = some count ∧
      (World.ticks count.toNat period world).Reaches observed.world := by
  obtain ⟨_, count, counted, follows⟩ := Observed.reaches_simulate_iff.mp ran
  exact ⟨count, counted, follows.world⟩

/-- The recorder has then taken just the snapshots that were due. -/
theorem World.Indexed.kept_tried (indexed : world.Indexed) {observed : Observed R (Recorder R)}
    (ran : (world.tried period every true ticks).Reaches observed) {count : Int}
    (counted : ticks.whole? = some count) :
    observed.memory.kept.Perm (world.taken period (max every 1) count.toNat) := by
  obtain ⟨_, given, same, follows⟩ := Observed.reaches_simulate_iff.mp ran
  cases counted.symm.trans same
  obtain ⟨recorder, looks, kept⟩ := indexed.exists_reaches_fresh follows.world
  rw [← follows.looks.unique looks] at kept
  exact kept

end experiment

section exact

variable {world : World ℝ} {period ticks : Given ℝ} {every : Int}

theorem peak_summary (record : Bool) (observed : Observed ℝ (Recorder ℝ)) :
    (observed.summary record).peakPopulation =
      max (if record then observed.memory.peak else 0) observed.world.total := by
  rw [← population_eq_total]
  cases record <;> exact Scalar.larger_eq_max _ _

/-- What experiments tell, in exact arithmetic, does not depend on their record, but for the peak.
The summary adds up the world as a simulation leaves it, and its peak is no less than its people.
Recording neither stops a simulation nor changes what becomes of the world. Unless the people are
fewer than none in the end, the peak is the greatest number of people at a look that was due or in
the end, and without a record it is their number in the end. What an experiment tells is the summary
of such a simulation of the world that it builds. -/
theorem summary_totals (indexed : world.Indexed) :
    (∀ record observed, (world.tried period every record ticks).Reaches observed →
      (observed.summary record).AddsUp observed.world ∧
        (observed.summary record).finalPopulation ≤ (observed.summary record).peakPopulation) ∧
    (∀ last, (∃ recorder, (world.tried period every true ticks).Reaches ⟨last, recorder⟩) ↔
      ∃ recorder, (world.tried period every false ticks).Reaches ⟨last, recorder⟩) ∧
    (∀ recorded plain, (world.tried period every true ticks).Reaches recorded →
      (world.tried period every false ticks).Reaches plain → 0 ≤ recorded.world.total →
      (∃ count, ticks.whole? = some count ∧
        IsGreatest (world.totals period (max every 1) count.toNat recorded.world)
          (recorded.summary true).peakPopulation) ∧
      plain.summary false =
        { recorded.summary true with peakPopulation := recorded.world.total }) ∧
    ∀ draws config record asked experiment (interval : Int),
      (config.get .snapshotInterval).number? = some (.whole interval) →
      (Experiment.run draws config record asked).outcome.1 = .ok experiment →
        ∃ built observed, (config.buildWorld draws).outcome.1 = .ok built ∧ built.Indexed ∧
          config.ticksToRun asked = .ok experiment.ticksRun ∧
          (built.tried config.period interval record experiment.ticksRun).Reaches observed ∧
          experiment.world = observed.world ∧ experiment.summary = observed.summary record := by
  refine ⟨?_, fun last => indexed.exists_reaches_tried_iff, ?_, ?_⟩
  · intro record observed _
    have adds : (observed.summary record).AddsUp observed.world := Summary.ofWorld_addsUp _ _
    rw [peak_summary, adds.population]
    exact ⟨adds, le_max_right _ _⟩
  · intro recorded plain ran alone some
    obtain ⟨count, counted, ticked⟩ := World.reaches_ticks_of_tried ran
    obtain ⟨_, again, same⟩ := World.reaches_ticks_of_tried alone
    cases counted.symm.trans again
    constructor
    · have kept := indexed.kept_tried ran counted
      rw [peak_summary, if_pos rfl]
      exact ⟨count, counted, isGreatest_peak ticked kept some⟩
    · have peak : (plain.summary false).peakPopulation = recorded.world.total := by
        rw [peak_summary, if_neg Bool.false_ne_true, same.unique ticked, max_eq_right some]
      rw [← peak, Observed.summary, Observed.summary, same.unique ticked]
      rfl
  · intro draws config record asked experiment interval whole ran
    exact Experiment.exists_tried whole ran

namespace World

theorem total_nonneg (people : ∀ site ∈ world.sites.values, 0 ≤ site.economy.population) :
    0 ≤ world.total := by
  refine List.sum_nonneg fun population member => ?_
  obtain ⟨site, present, rfl⟩ := List.mem_map.mp member
  exact people site present

/-- The mills have no fewer people than none after any ticks that go forwards. -/
theorem total_mills_nonneg {count : Nat} {last : World ℝ} {length : ℝ}
    (denotes : period.Denotes length) (nonneg : 0 ≤ length)
    (ticked : (World.ticks count period mills).Reaches last) : 0 ≤ last.total := by
  have sound : ∀ site ∈ mills.sites.values, site.economy.Sound .standard := by
    simp [mills, OrderedMap.values, Economy.mill_sound]
  rw [ticks_eq_run] at ticked
  refine total_nonneg fun site member => ?_
  obtain ⟨start, present, laps, _⟩ := mills_indexed.exists_of_mem_reached ticked member
  have reached : site.economy.Sound .standard :=
    laps_keep (Rules.ofExact_denotes _)
      (fun _ _ _ held => held.ticked ExactRules.standard_admissible Catalog.mill_valid)
      (fun given member => ⟨length, nonneg, List.eq_of_mem_replicate member ▸ denotes⟩)
      laps (sound start present)
  exact reached.population

theorem summary_totals_mills :
    mills.Indexed ∧ ∃ recorded plain, (mills.tried (.whole 90) 2 true (.whole 4)).Reaches recorded ∧
      (mills.tried (.whole 90) 2 false (.whole 4)).Reaches plain ∧ 0 ≤ recorded.world.total ∧
      IsGreatest (mills.totals (.whole 90) 2 4 recorded.world)
        (recorded.summary true).peakPopulation ∧
      plain.summary false =
        { recorded.summary true with peakPopulation := recorded.world.total } := by
  have quarter : (Given.whole 90 : Given ℝ).Denotes ((90 : Int) : ℝ) := .whole rfl
  obtain ⟨last, ticked⟩ := Outcome.completes_iff_exists_reaches.mp
    (completes_ticks_mills quarter (by norm_num) 4)
  have simulated : (mills.simulated (.whole 90) ⟨.whole 2⟩ 4).Reaches ⟨last, ()⟩ :=
    (years_simulated_eq rfl quarter (by norm_num) ticked).1
  obtain ⟨told, count, counted, follows⟩ := Observed.reaches_simulate_iff.mp simulated
  have alone : (mills.tried (.whole 90) 2 false (.whole 4)).Reaches ⟨last, .fresh none⟩ :=
    Observed.reaches_simulate_iff.mpr ⟨told, count, counted, follows.withoutObservers _⟩
  obtain ⟨_, same, totals, _⟩ :=
    @summary_totals mills (.whole 90) (.whole 4) 2 mills_indexed
  obtain ⟨recorder, ran⟩ := (same last).mpr ⟨_, alone⟩
  have some := total_mills_nonneg quarter (by norm_num) ticked
  obtain ⟨⟨_, counted, greatest⟩, told⟩ := totals _ _ ran alone some
  cases counted
  exact ⟨mills_indexed, _, _, ran, alone, some, greatest, told⟩

end World

end exact

end Settlement
