import Settlement.Scalar.Basic
/-!
The economy of one settlement: its people, its stocks, the worth of its goods and the share of
the people in each industry.
-/
namespace Settlement

structure Economy (R : Type) where
  population : R
  stocks : Table Good R
  /-- What a good is worth; nothing while it is unpriced. -/
  values : Table Good (Option R)
  prices : Table Good R
  /-- Supply and stock beyond demand, as last added up. -/
  surplus : Table Good R
  /-- Supply beyond demand, as last added up. -/
  marginalSurplus : Table Good R
  /-- The part of the population that works in each industry. -/
  shares : Table Labor R
  /-- How far the inputs of each industry went round. -/
  productivity : Table Labor R
  /-- What a worker of each industry last made. -/
  yields : Table Labor R

namespace Economy

variable {R : Type} [Scalar R]

/-- Nothing in store, no good priced. -/
def seeded (population : R) (stocks : Table Good R) (values : Table Good (Option R))
    (shares : Table Labor R) : Economy R where
  population := population
  stocks := stocks
  values := values
  prices := Table.const 0
  surplus := Table.const 0
  marginalSurplus := Table.const 0
  shares := shares
  productivity := Table.const 1
  yields := Table.const 1

/-- Those who work; a population that fell below zero has no workers. -/
def headcount (economy : Economy R) : R := Scalar.larger economy.population 0

/-- How many heads an order group counts: its workers, or everybody for upkeep. -/
def scale (economy : Economy R) : Option Labor → R
  | some labor => economy.shares[labor] * economy.headcount
  | none => economy.headcount

/-- The people of an industry. -/
def workers (economy : Economy R) (labor : Labor) : R :=
  economy.shares[labor] * economy.population

/-- The goods that have no value. -/
def unpriced (economy : Economy R) : List Good :=
  Good.all.filter fun good => economy.values[good].isNone

end Economy

end Settlement
