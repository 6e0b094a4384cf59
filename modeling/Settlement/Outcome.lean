import Settlement.Fault
import Settlement.Note
/-!
Outcomes of computations that change a state: the state they reached, what they noted, and the
fault that stopped them, if one did. What was done before a fault stays done.
-/
namespace Settlement

structure Outcome (σ : Type) where
  state : σ
  notes : Array Note
  fault : Option Fault

namespace Outcome

variable {α σ τ : Type}

def done (state : σ) : Outcome σ := ⟨state, #[], none⟩

def failed (state : σ) (fault : Fault) : Outcome σ := ⟨state, #[], some fault⟩

def noted (state : σ) (notes : List Note) : Outcome σ := ⟨state, notes.toArray, none⟩

/-- Goes on from the state reached, unless a fault stopped the computation. -/
def andThen (first : Outcome σ) (next : σ → Outcome σ) : Outcome σ :=
  match first with
  | ⟨state, notes, none⟩ =>
    let second := next state
    ⟨second.state, notes ++ second.notes, second.fault⟩
  | ⟨state, notes, some fault⟩ => ⟨state, notes, some fault⟩

/-- Seen as the outcome for a larger state. -/
def map (f : σ → τ) (outcome : Outcome σ) : Outcome τ :=
  ⟨f outcome.state, outcome.notes, outcome.fault⟩

/-- Goes on with a value, or stops where it is a fault. -/
def given (reading : Except Fault α) (state : σ) (next : α → Outcome σ) : Outcome σ :=
  match reading with
  | .ok value => next value
  | .error fault => failed state fault

/-- One step for each item, in order. -/
def each (items : List α) (step : α → σ → Outcome σ) (state : σ) : Outcome σ :=
  items.foldl (fun outcome item => outcome.andThen (step item)) (done state)

def completes (outcome : Outcome σ) : Bool := outcome.fault.isNone

/-- A number of steps from an index on; a fault ends them. -/
def stepsFrom (step : Nat → σ → Outcome σ) : (index count : Nat) → Outcome σ → Outcome σ
  | _, 0, outcome => outcome
  | index, count + 1, outcome =>
    if outcome.completes then stepsFrom step (index + 1) count (outcome.andThen (step index))
    else outcome

/-- A number of steps, numbered from zero. -/
def steps (count : Nat) (step : Nat → σ → Outcome σ) (state : σ) : Outcome σ :=
  stepsFrom step 0 count (done state)

/-- Adds a note where a fault stopped the computation. -/
def noteFault (outcome : Outcome σ) (note : Note) : Outcome σ :=
  if outcome.completes then outcome else { outcome with notes := outcome.notes.push note }

@[simp]
theorem done_andThen (state : σ) (next : σ → Outcome σ) :
    (done state).andThen next = next state := by
  simp [done, andThen]

@[simp]
theorem failed_andThen (state : σ) (fault : Fault) (next : σ → Outcome σ) :
    (failed state fault).andThen next = failed state fault := rfl

@[simp]
theorem given_ok (value : α) (state : σ) (next : α → Outcome σ) :
    given (.ok value) state next = next value := rfl

@[simp]
theorem given_error (fault : Fault) (state : σ) (next : α → Outcome σ) :
    given (.error fault) state next = failed state fault := rfl

@[simp]
theorem each_nil (step : α → σ → Outcome σ) (state : σ) :
    each [] step state = done state := rfl

theorem andThen_of_not_completes {outcome : Outcome σ} (stopped : outcome.completes = false)
    (next : σ → Outcome σ) : outcome.andThen next = outcome := by
  obtain ⟨state, notes, fault⟩ := outcome
  cases fault with
  | none => cases stopped
  | some fault => rfl

private theorem foldl_of_not_completes {outcome : Outcome σ} (stopped : outcome.completes = false)
    (step : α → σ → Outcome σ) (items : List α) :
    items.foldl (fun outcome item => outcome.andThen (step item)) outcome = outcome := by
  induction items with
  | nil => rfl
  | cons item rest ih => rw [List.foldl_cons, andThen_of_not_completes stopped, ih]

private theorem stepsFrom_eq_foldl (step : Nat → σ → Outcome σ) (index count : Nat)
    (outcome : Outcome σ) :
    stepsFrom step index count outcome =
      (List.range' index count).foldl (fun outcome index => outcome.andThen (step index))
        outcome := by
  induction count generalizing index outcome with
  | zero => rfl
  | succ count ih =>
    rw [stepsFrom, List.range'_succ, List.foldl_cons]
    split
    · exact ih _ _
    · rename_i stopped
      have stopped : outcome.completes = false := by simpa using stopped
      rw [andThen_of_not_completes stopped, foldl_of_not_completes stopped]

/-- Steps are taken for the numbers below their count, in order. -/
theorem steps_eq_each (count : Nat) (step : Nat → σ → Outcome σ) (state : σ) :
    steps count step state = each (List.range count) step state := by
  rw [steps, stepsFrom_eq_foldl, each, List.range_eq_range']

end Outcome

end Settlement
