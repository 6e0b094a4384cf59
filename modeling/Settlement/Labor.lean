import Settlement.Table
import Settlement.Text.Case
/-!
The industries of a settlement. Each turns its inputs into one good.
-/
namespace Settlement

inductive Labor where
  | farmer | lumberjack | miner | fisher | hunter | cook
  deriving DecidableEq, Repr

namespace Labor

instance : Enumeration Labor where
  count := 6
  members := #v[farmer, lumberjack, miner, fisher, hunter, cook]
  index
    | farmer => 0 | lumberjack => 1 | miner => 2 | fisher => 3 | hunter => 4 | cook => 5
  members_index labor := by cases labor <;> rfl
  index_members := by decide

def all : List Labor := Enumeration.all Labor

def name : Labor → String
  | farmer => "farmer" | lumberjack => "lumberjack" | miner => "miner"
  | fisher => "fisher" | hunter => "hunter" | cook => "cook"

/-- The name with a capital letter, for headings. -/
def label (labor : Labor) : String := labor.name.capitalize

/-- Names are read whatever the case of their letters. -/
def ofName? (written : String) : Option Labor :=
  let wanted := Text.lower written
  all.find? (·.name = wanted)

/-- The industry that heads an order group; without one the group is everybody's upkeep. -/
def groupName : Option Labor → String
  | some labor => labor.name
  | none => "base upkeep"

/-- Every name is read back. -/
theorem ofName?_name (labor : Labor) : ofName? labor.name = some labor := by
  cases labor <;> decide +kernel

end Labor

end Settlement
