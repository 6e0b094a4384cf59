import Settlement.World.Basic
/-!
Seeding: how the sites of a new world start. All sites start alike but for their populations,
which may be spread by normal draws, one for each site.
-/
namespace Settlement

structure Seeding (R : Type) where
  population : R
  /-- The relative spread of populations, if they are spread at all. -/
  spread : Option R
  stocks : Table Good R
  values : Table Good (Option R)
  shares : Table Labor R
  replenisher : Replenisher R

namespace Seeding

variable {R : Type} [Scalar R]

/-- A spread population keeps at least a tenth. -/
def spreadFactor (spread draw : R) : R :=
  let least : R := 1 / (10 : Nat)
  let factor := 1 + spread * draw
  if factor < least then least else factor

def populationFor (seeding : Seeding R) (draw : R) : R :=
  match seeding.spread with
  | some spread => seeding.population * spreadFactor spread draw
  | none => seeding.population

def siteId (index : Nat) : Name := .ofText ("site_" ++ (Number.whole index).shown)

def site (seeding : Seeding R) (index : Nat) (draw : R) : Site R where
  id := siteId index
  name := .text ("Settlement " ++ (Number.whole index).shown)
  economy := .seeded (seeding.populationFor draw) seeding.stocks seeding.values seeding.shares
  replenisher := seeding.replenisher

def sites (seeding : Seeding R) (count : Nat) (draws : Nat → R) :
    OrderedMap Name.Key (Site R) :=
  OrderedMap.ofList ((List.range count).map fun index =>
    let site := seeding.site index (draws index)
    (site.id.key, site))

end Seeding

end Settlement
