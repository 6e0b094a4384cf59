import Settlement.Table
import Settlement.Text.Case
/-!
The goods that a settlement stores and trades.
-/
namespace Settlement

inductive Good where
  | wheat | flour | meat | fish | game | food | logs | wood | rock | stone
  deriving DecidableEq, Repr

namespace Good

instance : Enumeration Good where
  count := 10
  members := #v[wheat, flour, meat, fish, game, food, logs, wood, rock, stone]
  index
    | wheat => 0 | flour => 1 | meat => 2 | fish => 3 | game => 4
    | food => 5 | logs => 6 | wood => 7 | rock => 8 | stone => 9
  members_index good := by cases good <;> rfl
  index_members := by decide

def all : List Good := Enumeration.all Good

def name : Good → String
  | wheat => "wheat" | flour => "flour" | meat => "meat" | fish => "fish" | game => "game"
  | food => "food" | logs => "logs" | wood => "wood" | rock => "rock" | stone => "stone"

/-- The name with a capital letter, for headings. -/
def label (good : Good) : String := good.name.capitalize

/-- Names are read whatever the case of their letters. -/
def ofName? (written : String) : Option Good :=
  let wanted := Text.lower written
  all.find? (·.name = wanted)

/-- The part of a stock that is lost every tick; all but the perishables keep. -/
def decayRate : Good → Float
  | food => 0.2
  | wheat => 0.1
  | meat => 0.25
  | fish => 0.2
  | _ => 0.0

/-- Every name is read back. -/
theorem ofName?_name (good : Good) : ofName? good.name = some good := by
  cases good <;> decide +kernel

theorem name_injective {a b : Good} (same : a.name = b.name) : a = b :=
  Option.some.inj (by rw [← ofName?_name a, same, ofName?_name b])

end Good

end Settlement
