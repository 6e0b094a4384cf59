import Settlement.Config.Derived
import Settlement.Economy.Record
import Settlement.World.Basic
/-!
Sites as documents: a summary for lists, and the full record.
-/
namespace Settlement

/-- The first of the industries with the largest share; a share that is no number comes before
all others. -/
def Economy.largest (economy : Economy Float) : List Labor → Option Labor
  | [] => none
  | first :: rest =>
    some (rest.foldl
      (fun best labor =>
        let share := economy.shares[labor]
        let most := economy.shares[best]
        if !most.isNaN && (share.isNaN || most < share) then labor else best)
      first)

/-- The leading industry of a site that has people. -/
def Economy.topIndustry (economy : Economy Float) (catalog : Catalog Float) : Option Labor :=
  if 0.0 < economy.population then economy.largest catalog.labors else none

def Site.summary (site : Site Float) (catalog : Catalog Float) : Document :=
  .object [
    ("id", site.id.given),
    ("name", site.name),
    ("pop", .real (Decimal.roundTo 4 site.economy.population)),
    ("unpriced_goods", .list (site.economy.unpriced.map fun good => .text good.name)),
    ("top_industry", laborDocument (site.economy.topIndustry catalog))]

def Site.detail (site : Site Float) : Document :=
  .object [
    ("id", site.id.given),
    ("name", site.name),
    ("replenisher", site.replenisher.toDocument),
    ("economy", site.economy.toDocument)]

end Settlement
