import Settlement.Economy.Record
import Settlement.Recorder.Basic
/-!
Snapshots as documents, and the series of one of their fields.
-/
namespace Settlement

namespace Snapshot

def toDocument (snapshot : Snapshot Float) : Document :=
  .object [
    ("tick", snapshot.tick),
    ("time", .real snapshot.time),
    ("year", .real (Decimal.roundTo 3 snapshot.year)),
    ("site_id", snapshot.site.given),
    ("pop", .real snapshot.population),
    ("values", snapshot.values.valuesByGood),
    ("prices", snapshot.prices.byGood),
    ("stocks", snapshot.stocks.byGood),
    ("surplus", snapshot.surplus.byGood),
    ("marginal_surplus", snapshot.marginalSurplus.byGood),
    ("labors", snapshot.shares.byLabor),
    ("workers", snapshot.workers.byLabor),
    ("productivity", snapshot.productivity.byLabor)]

private def row {ι : Type} [Enumeration ι] (table : Table ι Float) : Document :=
  .list (table.toList.map .real)

/-- A field as it stands in a series, with its entries in order. -/
def field (snapshot : Snapshot Float) (name : Text) : Except Fault Document :=
  match name.string with
  | "tick" => .ok snapshot.tick
  | "time" => .ok (.real snapshot.time)
  | "year" => .ok (.real snapshot.year)
  | "site_id" => .ok snapshot.site.given
  | "pop" => .ok (.real snapshot.population)
  | "values" => .ok (.list (snapshot.values.toList.map valueDocument))
  | "prices" => .ok (row snapshot.prices)
  | "stocks" => .ok (row snapshot.stocks)
  | "surplus" => .ok (row snapshot.surplus)
  | "marginal_surplus" => .ok (row snapshot.marginalSurplus)
  | "labors" => .ok (row snapshot.shares)
  | "productivity" => .ok (row snapshot.productivity)
  | _ => .error (.lacksSeries name)

end Snapshot

namespace Recorder

/-- One field of all snapshots of a site; a document that is no text names none. -/
def series (recorder : Recorder Float) (site : Name) (field : Document) :
    Except Fault (List Document) := do
  (← recorder.snapshots site).toList.mapM fun snapshot =>
    match field with
    | .text name => snapshot.field name
    | field => .error (.notMember field.kind)

/-- All snapshots of a site. -/
def documents (recorder : Recorder Float) (site : Name) : Except Fault (List Document) := do
  return (← recorder.snapshots site).toList.map Snapshot.toDocument

end Recorder

end Settlement
