import Settlement.Proofs.Simulation
import Settlement.Recorder.Basic
/-!
Recordings. Whatever happens to a world that a recorder looks at now and then, the recorder keeps
the snapshots of every site in the order in which they were taken.
-/
namespace Settlement.Recorder

variable {R : Type} [Scalar R]

/-- A world and a recorder after some of what can happen since a start: ticks of all sites, or of
one, and looks at sites, in any order, with the snapshots that were taken so far. What a tick had
done before a fault stopped it stays done. -/
inductive Recording (start : World R) (chosen : Option Document) :
    World R → Recorder R → List (Snapshot R) → Prop
  | begins : Recording start chosen start (fresh chosen) []
  | ticks {world recorder taken} (before : Recording start chosen world recorder taken)
      (days : Given R) : Recording start chosen (world.tick days).state recorder taken
  | ticksSite {world recorder taken} (before : Recording start chosen world recorder taken)
      (days : Given R) (id : Name) :
      Recording start chosen (World.tickSite days id world).state recorder taken
  | looks {world recorder taken} (before : Recording start chosen world recorder taken)
      (tick : Document) {id : Name} {site : Site R} (found : world.site id = .ok site) :
      Recording start chosen world (recorder.add (.capture tick world.clock id site.economy))
        (taken ++ [.capture tick world.clock id site.economy])

namespace Recording

variable {start world : World R} {chosen : Option Document} {recorder : Recorder R}
  {taken : List (Snapshot R)}

/-- A look at a world goes through its sites one by one. -/
theorem observeAt (recording : Recording start chosen world recorder taken) (tick : Document) :
    ∃ more, Recording start chosen world (recorder.observeAt tick world).state (taken ++ more) := by
  let kept (after : Recorder R) : Prop :=
    ∃ more, Recording start chosen world after (taken ++ more)
  have begun : kept recorder := ⟨[], by rwa [List.append_nil]⟩
  have looked (id : Name) (running : Recorder R) (held : kept running) :
      kept (observeSite tick world id running).state := by
    refine Outcome.state_given_keeps kept held fun site found => ?_
    obtain ⟨more, before⟩ := held
    exact ⟨_, by rw [← List.append_assoc]; exact before.looks tick found⟩
  unfold Recorder.observeAt
  split
  · exact Outcome.state_each_keeps kept (fun id _ => looked id) begun
  · refine Outcome.state_given_keeps kept begun fun ids _ => ?_
    refine Outcome.state_each_keeps kept (fun id _ running held => ?_) begun
    exact Outcome.state_given_keeps kept held fun name _ => looked name running held

/-- A simulation ticks and lets its observer look. -/
theorem simulate (recording : Recording start chosen world recorder taken) (period : Given R)
    (interval : Interval) (ticks : Given R) :
    ∃ more, Recording start chosen
      (Observed.simulate period interval [observe] ticks ⟨world, recorder⟩).state.world
      (Observed.simulate period interval [observe] ticks ⟨world, recorder⟩).state.memory
      (taken ++ more) := by
  let kept (after : Observed R (Recorder R)) : Prop :=
    ∃ more, Recording start chosen after.world after.memory (taken ++ more)
  have begun : kept ⟨world, recorder⟩ := ⟨[], by rwa [List.append_nil]⟩
  have ticked (running : Observed R (Recorder R)) (held : kept running) :
      kept { running with world := (running.world.tick period).state } := by
    obtain ⟨more, before⟩ := held
    exact ⟨more, before.ticks period⟩
  have looked (index : Nat) (running : Observed R (Recorder R)) (held : kept running) :
      kept (running.observe [observe] index).state := by
    obtain ⟨more, before⟩ := held
    obtain ⟨others, looked⟩ := before.observeAt (.whole index)
    refine ⟨more ++ others, ?_⟩
    rw [Observed.observe, Outcome.each_singleton, ← List.append_assoc]
    exact looked
  exact Observed.state_simulate_keeps ticked looked ticks begun

/-- The snapshots of the site with a key. -/
def ofSite (key : Name.Key) (taken : List (Snapshot R)) : List (Snapshot R) :=
  taken.filter (·.site.key = key)

omit [Scalar R] in
theorem ofSite_append (key : Name.Key) (taken more : List (Snapshot R)) :
    ofSite key (taken ++ more) = ofSite key taken ++ ofSite key more :=
  List.filter_append taken more

/-- The recorder has the snapshots of every site that was looked at, in the order in which they were
taken. -/
theorem find?_history (recording : Recording start chosen world recorder taken) (key : Name.Key) :
    recorder.history.find? key =
      if ofSite key taken = [] then none else some (ofSite key taken).toArray := by
  induction recording with
  | begins => rfl
  | ticks before days ih => exact ih
  | ticksSite before days id ih => exact ih
  | @looks world recorder taken before tick id site found ih =>
    rw [ofSite_append, add, OrderedMap.find?_insert]
    generalize made : Snapshot.capture tick world.clock id site.economy = snapshot
    split
    · rename_i here
      have kept : ((recorder.history.find? key).getD #[]).toList = ofSite key taken := by
        rw [ih]
        split <;> simp_all
      have added : ofSite key [snapshot] = [snapshot] := by simp [ofSite, here]
      rw [here, added, if_neg (by simp), Option.some.injEq, ← Array.toList_inj, Array.toList_push,
        kept, List.toList_toArray]
    · rename_i apart
      have added : ofSite key [snapshot] = [] := by simp [ofSite, apart]
      rw [ih, added, List.append_nil]

/-- The first site in the history is the first that was looked at. -/
theorem head?_history (recording : Recording start chosen world recorder taken) :
    recorder.history.keys.head? = taken.head?.map (·.site.key) := by
  induction recording with
  | begins => rfl
  | ticks before days ih => exact ih
  | ticksSite before days id ih => exact ih
  | @looks world recorder taken before tick id site found ih =>
    rw [add, OrderedMap.keys_insert]
    cases taken with
    | nil =>
      have empty : recorder.history.keys = [] := List.head?_eq_none_iff.mp ih
      simp [empty]
    | cons first others =>
      split
      · exact ih
      · rw [List.head?_append, ih]
        rfl

end Recording

end Settlement.Recorder
