import Settlement.Document.Display
import Settlement.Good
/-!
What a run reports while it goes on. Notes are values: nothing in a run depends on them.
-/
namespace Settlement

inductive Note where
  | catalogValid (groups industries : Nat)
  | built (experiment : Document) (sites : Nat)
  | unpriced (good : Good)
  | extinct (population : Number)
  | simulating (ticks : Int) (years : Number) (sites : Nat)
  | enteredYear (year : Int)
  | finished (year : Number)
  | sessionCreated (id : Text) (name : Document)
  | sessionFailed (id : Text)

namespace Note

inductive Level where
  | debug | info | error
  deriving DecidableEq, Repr

def level : Note → Level
  | catalogValid _ _ | unpriced _ | extinct _ | enteredYear _ => .debug
  | built _ _ | simulating _ _ _ | finished _ | sessionCreated _ _ => .info
  | sessionFailed _ => .error

def Level.name : Level → String
  | debug => "DEBUG"
  | info => "INFO"
  | error => "ERROR"

private def count (number : Nat) : String := (Number.whole number).shown

private def places (digits : Nat) (value : Number) : String :=
  Decimal.fixed digits (value.toFloat?.getD (1.0 / 0.0))

def message : Note → Text
  | catalogValid groups industries =>
    "Recipe catalog valid: " ++ count groups ++ " order groups, " ++ count industries
      ++ " industries"
  | built experiment sites =>
    "Built world '" ++ experiment.shown ++ "' with " ++ count sites ++ " site(s)"
  | unpriced good => "Good " ++ good.name ++ " is unpriced this tick"
  | extinct population => "Population extinct (clamped from " ++ places 3 population ++ ")"
  | simulating ticks years sites =>
    "Simulating " ++ (Number.whole ticks).shown ++ " ticks (" ++ places 0 years ++ " years) over "
      ++ count sites ++ " site(s)"
  | enteredYear year => "Year " ++ (Number.whole year).shown
  | finished year => "Simulation finished at year " ++ places 1 year
  | sessionCreated id name => "Created session " ++ id ++ " (" ++ name.shown ++ ")"
  | sessionFailed id => "Tick failed for session " ++ id

/-- The line of a log. -/
def line (note : Note) : Text := note.level.name ++ " " ++ note.message

end Note

end Settlement
