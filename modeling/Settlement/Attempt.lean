import Settlement.Outcome
/-!
Computations that note what they do and end in a value or a fault.
-/
namespace Settlement

abbrev Attempt := ExceptT Fault (StateM (Array Note))

namespace Attempt

def note (note : Note) : Attempt Unit := modify (·.push note)

/-- Goes on with the state of an outcome, unless a fault stopped it. -/
def ofOutcome {σ : Type} (outcome : Outcome σ) : Attempt σ := do
  modify (· ++ outcome.notes)
  match outcome.fault with
  | some fault => throw fault
  | none => return outcome.state

/-- The result of an attempt, and what it noted. -/
def outcome {α : Type} (attempt : Attempt α) : Except Fault α × Array Note := attempt.run #[]

end Attempt

end Settlement
