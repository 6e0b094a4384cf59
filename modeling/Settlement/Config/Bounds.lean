import Settlement.Config.Basic
import Settlement.Document.Grid
import Settlement.Economy.Market
/-!
The bounds of values. Each bound is one number, or one for every good.
-/
namespace Settlement

/-- One bound: a number for every good, and the sizes of the lists that these are nested in. -/
structure Bound where
  outer : List Nat
  numbers : Table Good (Given Float)

namespace Bound

/-- The sizes of all lists. -/
def sizes (bound : Bound) : List Nat := bound.outer ++ [Good.all.length]

/-- How raw values relate to a bound that they keep. -/
def relation (isFloor : Bool) : String := if isFloor then ">" else "<"

/-- A number in a list, as it was given or as the nearest real. -/
def entry (isFloor exact : Bool) (document : Document) : Except Fault (Given Float) :=
  match document.given with
  | .other kind => .error (.notOrdered (relation isFloor) .real kind)
  | number =>
    if exact then .ok number
    else .real <$> number.operand (.notOrdered (relation isFloor) .real)

/-- The bound of lists, of which the innermost has an entry for every good or one for all. -/
def ofGrid (isFloor : Bool) (grid : Grid) : Except Fault Bound := do
  let last := grid.sizes.getLast?.getD 1
  if grid.isText then .error (.textBound isFloor)
  else if last = 1 || last = Good.all.length then
    let numbers ← grid.entries.mapM (entry isFloor grid.isExact)
    let first := numbers.take last
    return {
      outer := grid.sizes.dropLast
      numbers :=
        match first with
        | [number] => Table.const number
        | numbers => (Table.const (.real 0.0)).setAll (Good.all.zip numbers) }
  else .error (.notAligned [Good.all.length] grid.sizes)

def ofDocument (isFloor : Bool) (document : Document) : Except Fault Bound :=
  match document with
  | .list _ => do ofGrid isFloor (← Grid.ofDocument document)
  | .text _ => .error (.textBound isFloor)
  | document => do
    let number ← document.given.operand (.notOrdered (relation isFloor) .real)
    return ⟨[], Table.const (.real number)⟩

/-- Whether two rows of sizes fit from their ends: where they differ, one of them is one. -/
def fit : List Nat → List Nat → Bool
  | a :: as, b :: bs => (a = b || a = 1 || b = 1) && fit as bs
  | _, _ => true

end Bound

namespace Config

/-- Bounds that are nested deeper than one for every good do not say whether a good is priced. -/
def bounds (config : Config) : Except Fault (Table Good (Bounds Float)) := do
  let floor ← Bound.ofDocument true (config.get .valueFloor)
  let ceiling ← Bound.ofDocument false (config.get .valueCeiling)
  if !Bound.fit floor.sizes.reverse ceiling.sizes.reverse then
    .error (.notAligned floor.sizes ceiling.sizes)
  else if floor.outer.isEmpty && ceiling.outer.isEmpty then
    return Table.zipWith Bounds.mk floor.numbers ceiling.numbers
  else .error .ambiguousTruth

/-- The prices of goods that are not to be had. -/
def ceilings (config : Config) : Except Fault (Table Good Float) :=
  (config.get .valueCeiling).table Good

end Config

end Settlement
