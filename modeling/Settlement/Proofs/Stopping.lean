import Settlement.Proofs.Outcome
/-!
Outcomes that a fault stopped. `Stops` tells the fault and the state that it left; it goes with
`Reaches` as failure goes with success, and a loop that stops does so at one of its items, after
those before it went through.
-/
namespace Settlement.Outcome

variable {α σ τ : Type}

/-- A fault stopped the computation, and left this state. -/
def Stops (outcome : Outcome σ) (fault : Fault) (state : σ) : Prop :=
  outcome.fault = some fault ∧ outcome.state = state

variable {outcome : Outcome σ} {fault : Fault} {a b c : σ}

theorem Stops.state_eq (stops : outcome.Stops fault a) : outcome.state = a := stops.2

theorem Stops.not_reaches (stops : outcome.Stops fault a) : ¬outcome.Reaches b := fun ends => by
  have absent := ends.1
  rw [stops.1] at absent
  cases absent

theorem exists_stops_of_not_completes (stopped : outcome.completes = false) :
    ∃ fault, outcome.Stops fault outcome.state := by
  obtain ⟨state, notes, stop⟩ := outcome
  cases stop with
  | none => cases stopped
  | some fault => exact ⟨fault, rfl, rfl⟩

@[simp]
theorem not_stops_done : ¬(done a).Stops fault b := by
  simp [Stops, done]

@[simp]
theorem not_stops_noted {notes : List Note} : ¬(noted a notes).Stops fault b := by
  simp [Stops, noted]

@[simp]
theorem stops_failed {other : Fault} : (failed a other).Stops fault b ↔ other = fault ∧ a = b := by
  simp [Stops, failed]

@[simp]
theorem stops_map {f : σ → τ} {b : τ} :
    (outcome.map f).Stops fault b ↔ ∃ a, outcome.Stops fault a ∧ f a = b := by
  simp [Stops, map, and_assoc]

@[simp]
theorem stops_noteFault {note : Note} :
    (outcome.noteFault note).Stops fault b ↔ outcome.Stops fault b := by
  unfold noteFault
  split <;> rfl

theorem stops_given {reading : Except Fault α} {next : α → Outcome σ} :
    (given reading a next).Stops fault b ↔
      (reading = .error fault ∧ a = b) ∨ ∃ value, reading = .ok value ∧
        (next value).Stops fault b := by
  cases reading with
  | ok value => simp
  | error other => simp

theorem stops_andThen {next : σ → Outcome σ} :
    (outcome.andThen next).Stops fault c ↔
      outcome.Stops fault c ∨ ∃ b, outcome.Reaches b ∧ (next b).Stops fault c := by
  obtain ⟨state, notes, stop⟩ := outcome
  cases stop with
  | none => simp [Stops, Reaches, andThen]
  | some other => simp [Stops, Reaches, andThen]

/-- A loop that stops went through the items before the one at which it stopped. -/
theorem Stops.exists_item {step : α → σ → Outcome σ} {items : List α}
    (stops : (each items step a).Stops fault c) :
    ∃ front item back b, items = front ++ item :: back ∧ (each front step a).Reaches b ∧
      (step item b).Stops fault c := by
  induction items generalizing a with
  | nil => exact absurd stops not_stops_done
  | cons item rest ih =>
    rw [each_cons, stops_andThen] at stops
    rcases stops with here | ⟨b, first, later⟩
    · exact ⟨[], item, rest, a, rfl, reaches_each_nil.mpr rfl, here⟩
    · obtain ⟨front, other, back, middle, split, before, stops⟩ := ih later
      exact ⟨item :: front, other, back, middle, by rw [split, List.cons_append],
        reaches_each_cons.mpr ⟨b, first, before⟩, stops⟩

/-- A loop that goes through takes the step of each of its items. -/
theorem Reaches.exists_step {step : α → σ → Outcome σ} {items : List α} {item : α}
    (ends : (each items step a).Reaches b) (member : item ∈ items) :
    ∃ before after, (step item before).Reaches after := by
  induction items generalizing a with
  | nil => cases member
  | cons first rest ih =>
    obtain ⟨middle, step, later⟩ := reaches_each_cons.mp ends
    rcases List.mem_cons.mp member with rfl | behind
    · exact ⟨a, middle, step⟩
    · exact ih later behind

end Settlement.Outcome
