import Settlement.Document.Basic
import Settlement.Economy.Basic
/-!
An economy as a document, with its entries under the names of goods and industries.
-/
namespace Settlement

def Table.byGood (table : Table Good Float) : Document :=
  .object (Good.all.map fun good => (good.name, .real table[good]))

def Table.byLabor (table : Table Labor Float) : Document :=
  .object (Labor.all.map fun labor => (labor.name, .real table[labor]))

/-- A value, and nothing for an unpriced good. -/
def valueDocument : Option Float → Document
  | some value => .real value
  | none => .null

def Table.valuesByGood (table : Table Good (Option Float)) : Document :=
  .object (Good.all.map fun good => (good.name, valueDocument table[good]))

def Economy.toDocument (economy : Economy Float) : Document :=
  .object [
    ("pop", .real economy.population),
    ("stocks", economy.stocks.byGood),
    ("values", economy.values.valuesByGood),
    ("prices", economy.prices.byGood),
    ("surplus", economy.surplus.byGood),
    ("marginal_surplus", economy.marginalSurplus.byGood),
    ("labors", economy.shares.byLabor),
    ("productivity", economy.productivity.byLabor),
    ("yields", economy.yields.byLabor)]

end Settlement
