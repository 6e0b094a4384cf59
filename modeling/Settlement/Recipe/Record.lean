import Settlement.Document.Reading
import Settlement.Recipe.Catalog
import Settlement.Scalar.Binary64
/-!
Catalogs as documents, and the standard catalog of a settlement.
-/
namespace Settlement

/-- The name of the industry of a group, and nothing for upkeep. -/
def laborDocument : Option Labor → Document
  | some labor => .text labor.name
  | none => .null

namespace OrderGroup

/-- A good listed twice keeps its first place and its last amount. -/
def inputsDocument (group : OrderGroup Float) : Document :=
  .object (group.inputs.foldl
    (fun fields (good, amount) => Document.setField good.name (.real amount) fields) [])

def toDocument (group : OrderGroup Float) : Document :=
  .object [("labor", laborDocument group.labor), ("inputs", group.inputsDocument)]

def ofDocument (document : Document) : Except Fault (OrderGroup Float) := do
  let labor ←
    match (← document.optional "labor").getD .null with
    | .null => pure none
    | named => some <$> named.labor
  let inputs ← ((← document.optional "inputs").getD (.object [])).amounts Good.ofName
  return ⟨labor, inputs⟩

end OrderGroup

namespace Output

def toDocument (output : Output Float) : Document :=
  .object [("output", .text output.good.name), ("rate", .real output.rate)]

def ofDocument (document : Document) : Except Fault (Output Float) := do
  let good ← (← document.required "output").good
  let rate ← (← document.required "rate").amount
  return ⟨good, rate⟩

end Output

namespace Catalog

def toDocument (catalog : Catalog Float) : Document :=
  .object [
    ("orders", .list (catalog.orders.map OrderGroup.toDocument)),
    ("productivity", .object (catalog.outputs.entries.map fun (labor, output) =>
      (labor.name, output.toDocument)))]

/-- Absent parts are empty; nothing is checked beyond names and amounts. -/
def ofDocument (document : Document) : Except Fault (Catalog Float) := do
  let groups ← ((← document.optional "orders").getD (.list [])).elements
  let orders ← groups.mapM OrderGroup.ofDocument
  let entries ← ((← document.optional "productivity").getD (.object [])).fields
  let outputs ← entries.mapM fun (written, entry) => do
    return (← Labor.ofName written, ← Output.ofDocument entry)
  return ⟨orders, OrderedMap.ofList outputs⟩

/-- Everybody eats; cooks make the food out of what the other industries bring in. -/
def standard : Catalog Float where
  orders := [
    ⟨none, [(.food, 0.5)]⟩,
    ⟨some .cook, [(.flour, 12.0), (.meat, 4.0), (.wood, 1.5), (.stone, 1.0)]⟩,
    ⟨some .lumberjack, [(.logs, 0.5)]⟩,
    ⟨some .miner, [(.rock, 0.5)]⟩,
    ⟨some .fisher, [(.fish, 4.0)]⟩,
    ⟨some .hunter, [(.game, 1.0)]⟩,
    ⟨some .farmer, [(.wheat, 2.0)]⟩]
  outputs := OrderedMap.ofList [
    (.farmer, ⟨.flour, 2.0⟩),
    (.lumberjack, ⟨.wood, 0.5⟩),
    (.miner, ⟨.stone, 0.5⟩),
    (.fisher, ⟨.meat, 4.0⟩),
    (.hunter, ⟨.meat, 1.0⟩),
    (.cook, ⟨.food, 16.0⟩)]

/-- Amounts agree when they are equal or both are no number. -/
def sameAmount (a b : Float) : Bool := a == b || (a.isNaN && b.isNaN)

def sameGroup (a b : OrderGroup Float) : Bool :=
  a.labor == b.labor && a.inputs.length == b.inputs.length
    && (a.inputs.zip b.inputs).all fun (left, right) =>
      left.1 == right.1 && sameAmount left.2 right.2

/-- The same groups in the same order, and the same outputs in any order. -/
def same (a b : Catalog Float) : Bool :=
  a.orders.length == b.orders.length
    && (a.orders.zip b.orders).all (fun (left, right) => sameGroup left right)
    && a.outputs.size == b.outputs.size
    && a.outputs.entries.all fun (labor, output) =>
      (b.outputs.find? labor).any fun other =>
        output.good == other.good && sameAmount output.rate other.rate

end Catalog

end Settlement
