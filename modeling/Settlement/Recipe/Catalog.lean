import Settlement.OrderedMap
import Settlement.Scalar.Basic
/-!
Recipe catalogs: what each industry takes in and what it turns out. A catalog may be checked for
its first unusable entry.
-/
namespace Settlement

/-- Inputs ordered together by one industry, or by everybody as upkeep. -/
structure OrderGroup (R : Type) where
  labor : Option Labor
  inputs : List (Good × R)

/-- The good that an industry turns out, and how much a worker makes of it. -/
structure Output (R : Type) where
  good : Good
  rate : R

structure Catalog (R : Type) where
  orders : List (OrderGroup R)
  outputs : OrderedMap Labor (Output R)

namespace Catalog

variable {R : Type} [Scalar R]

/-- The industries that take part, in their fixed order. -/
def labors (catalog : Catalog R) : List Labor :=
  Labor.all.filter catalog.outputs.contains

/-- The first reason why a group cannot be used, after the groups seen before it. -/
def groupDefect? (catalog : Catalog R) (seen : List (Option Labor)) (group : OrderGroup R) :
    Option RecipeDefect :=
  if group.labor ∈ seen then some .repeatedGroup
  else if group.inputs.isEmpty then some .noInputs
  else
    match group.inputs.find? fun input => input.2 < 0 with
    | some (good, _) => some (.negativeInput good)
    | none =>
      match group.labor with
      | some labor => if catalog.outputs.contains labor then none else some .noOutput
      | none => none

/-- The first unusable group of a list. -/
def ordersDefect? (catalog : Catalog R) (seen : List (Option Labor)) :
    List (OrderGroup R) → Option (Option Labor × RecipeDefect)
  | [] => none
  | group :: rest =>
    match catalog.groupDefect? seen group with
    | some defect => some (group.labor, defect)
    | none => catalog.ordersDefect? (group.labor :: seen) rest

/-- Why an industry that has an output cannot be used. -/
def outputDefect? (catalog : Catalog R) (entry : Labor × Output R) : Option RecipeDefect :=
  if some entry.1 ∉ catalog.orders.map OrderGroup.labor then some .noInputs
  else if entry.2.rate < 0 then some .negativeRate
  else none

/-- The first unusable entry: a group, or else an industry without inputs or with a negative
rate. -/
def firstDefect? (catalog : Catalog R) : Option (Option Labor × RecipeDefect) :=
  match catalog.ordersDefect? [] catalog.orders with
  | some defect => some defect
  | none => catalog.outputs.entries.findSome? fun entry =>
      (catalog.outputDefect? entry).map (some entry.1, ·)

/-- Refuses a catalog that has an unusable entry. -/
def check (catalog : Catalog R) : Except Fault Unit :=
  match catalog.firstDefect? with
  | some (labor, defect) => .error (.recipe labor defect)
  | none => .ok ()

end Catalog

end Settlement
