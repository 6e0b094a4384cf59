import Settlement.Scalar.Binary64
import Settlement.World.Basic
/-!
Driving a world through its history. Every tick is noted in the first days of every fiftieth
year; after selected ticks observers look at the world, and what they remember is kept beside it.
-/
namespace Settlement

/-- After how many ticks observers look again. -/
structure Interval where
  ticks : Number

namespace Interval

/-- Whether the tick of an index is followed by a look: those that the interval divides. -/
def isDue (interval : Interval) (index : Int) : Bool :=
  match interval.ticks with
  | .whole ticks => index % ticks == 0
  | .real ticks => (Scalar.divMod (Float.ofInt index) ticks).2 == 0.0

/-- An interval of less than one tick counts as one. -/
def ofNumber : Number → Interval
  | .whole ticks => ⟨.whole (if ticks < 1 then 1 else ticks)⟩
  | .real ticks => ⟨if ticks < 1.0 then .whole 1 else .real ticks⟩

def ofDocument (document : Document) : Except Fault Interval :=
  match document.number? with
  | some number => .ok (ofNumber number)
  | none => .error (.notOrdered ">" .whole document.kind)

end Interval

/-- Looks at a world after the tick of an index, and remembers. -/
abbrev Observer (R μ : Type) := Int → World R → μ → Outcome μ

/-- A world, and what observers remember of it. -/
structure Observed (R μ : Type) where
  world : World R
  memory : μ

variable {R μ : Type} [Scalar R]

/-- The years that some ticks take. -/
def yearsOf (ticks period : Given R) : Except Fault R := do
  return (← (← ticks.times period).operand (.notOperand "/" · .real)) / daysPerYear

/-- How many years apart the years are that are noted. -/
def noteworthyYears : Int := 50

namespace World

/-- The year that a noteworthy tick starts in: one of the fiftieth, in its first day. -/
def noteworthyYear (world : World R) : Except Fault (Option Int) := do
  let (year, day) := Scalar.divMod world.clock daysPerYear
  let year ← Scalar.truncate year
  if year % noteworthyYears = 0 then
    return if (← Scalar.truncate day) = 0 then some year else none
  else return none

/-- Notes the year, if it is noteworthy. -/
def noteYear (world : World R) : Outcome (World R) :=
  .given world.noteworthyYear world fun year =>
    .noted world (year.toList.map Note.enteredYear)

end World

namespace Observed

/-- Lets the observers look, one after the other. -/
def observe (observers : List (Observer R μ)) (index : Int) (observed : Observed R μ) :
    Outcome (Observed R μ) :=
  (Outcome.each observers (fun observer => observer index observed.world) observed.memory).map
    fun memory => { observed with memory }

/-- One tick of a simulation. -/
def step (period : Given R) (interval : Interval) (observers : List (Observer R μ)) (index : Nat)
    (observed : Observed R μ) : Outcome (Observed R μ) :=
  let ticked := observed.world.noteYear.andThen (World.tick period)
  (ticked.map fun world => { observed with world }).andThen fun observed =>
    if interval.isDue index then observed.observe observers index else .done observed

/-- A number of ticks, numbered from zero; fewer than none are none. -/
def run (period : Given R) (interval : Interval) (observers : List (Observer R μ)) (ticks : Int)
    (observed : Observed R μ) : Outcome (Observed R μ) :=
  Outcome.steps ticks.toNat (step period interval observers) observed

/-- A simulation from its first note to its last. -/
def simulate (period : Given R) (interval : Interval) (observers : List (Observer R μ))
    (ticks : Given R) (observed : Observed R μ) : Outcome (Observed R μ) :=
  .given (yearsOf ticks period) observed fun years =>
    let opening := Note.simulating ticks.wholePart (Scalar.number years) observed.world.sites.size
    let ran := (Outcome.noted observed [opening]).andThen fun observed =>
      .given ticks.count observed fun count => observed.run period interval observers count
    ran.andThen fun observed =>
      .noted observed [.finished (Scalar.number (observed.world.clock / daysPerYear))]

end Observed

end Settlement
