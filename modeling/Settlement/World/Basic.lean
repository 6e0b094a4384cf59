import Settlement.Document.Name
import Settlement.Economy.Tick
/-!
Worlds: a clock and the sites that tick by it. A tick takes the sites one by one, in the order in
which they were added, and then moves the clock.
-/
namespace Settlement

structure Site (R : Type) where
  id : Name
  name : Document
  economy : Economy R
  replenisher : Replenisher R

structure World (R : Type) where
  rules : Rules R
  catalog : Catalog R
  /-- The part of each stock that is lost per tick. -/
  decay : Table Good R
  /-- The days that have passed. -/
  clock : R
  /-- The sites by the keys of their ids. -/
  sites : OrderedMap Name.Key (Site R)

namespace World

variable {R : Type} [Scalar R]

def siteIds (world : World R) : List Name := world.sites.values.map Site.id

def site (world : World R) (id : Name) : Except Fault (Site R) :=
  match world.sites.find? id.key with
  | some site => .ok site
  | none => .error (.unknownSite id.shown)

/-- Adds a site under an id that no other site has. -/
def addSite (world : World R) (site : Site R) : Except Fault (World R) :=
  if world.sites.contains site.id.key then .error (.siteExists site.id.shown)
  else .ok { world with sites := world.sites.insert site.id.key site }

/-- Replaces the economy of a site. -/
def putEconomy (world : World R) (site : Site R) (economy : Economy R) : World R :=
  { world with sites := world.sites.insert site.id.key { site with economy } }

/-- Ticks one site by some days. No days change nothing, and no site can be ticked backwards. -/
def tickSite (days : Given R) (id : Name) (world : World R) : Outcome (World R) :=
  .given days.isNegative world fun backwards =>
    if backwards then .failed world (.backwards days.number)
    else if days.isZero then .done world
    else .given (world.site id) world fun site =>
      (site.economy.tick world.rules world.catalog world.decay site.replenisher days).map
        (world.putEconomy site)

def advanceClock (days : Given R) (world : World R) : Outcome (World R) :=
  .given (days.operand (.notOperand "+=" .real)) world fun days =>
    .done { world with clock := world.clock + days }

/-- Ticks every site by some days, then the clock. -/
def tick (days : Given R) (world : World R) : Outcome (World R) :=
  (Outcome.each world.siteIds (tickSite days) world).andThen (advanceClock days)

/-- Several ticks of the same length. -/
def ticks (count : Nat) (days : Given R) (world : World R) : Outcome (World R) :=
  Outcome.steps count (fun _ => tick days) world

/-- All people of all sites. -/
def population (world : World R) : R :=
  Scalar.sum (world.sites.values.map fun site => site.economy.population)

end World

end Settlement
