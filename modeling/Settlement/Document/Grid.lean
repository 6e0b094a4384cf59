import Settlement.Document.Display
import Settlement.Document.Reading
/-!
Documents as grids: nested lists whose rows are alike. A single value is a grid without lists. A
grid can be laid over a table if it has as many entries, or one for all.
-/
namespace Settlement

/-- The sizes of nested lists, outermost first, as far as all rows are alike. -/
structure Extent where
  sizes : List Nat
  /-- Whether the rows are alike to the end. -/
  isEven : Bool

namespace Extent

/-- What two lists have in common from the front. -/
def commonFront : List Nat → List Nat → List Nat
  | a :: as, b :: bs => if a = b then a :: commonFront as bs else []
  | _, _ => []

/-- The extent of two rows together. -/
def meet (a b : Extent) : Extent :=
  ⟨commonFront a.sizes b.sizes, a.isEven && b.isEven && a.sizes == b.sizes⟩

end Extent

namespace Document

mutual

def extent : Document → Extent
  | list [] => ⟨[0], true⟩
  | list (row :: rows) =>
    let common := extentOfRows row.extent rows
    ⟨(rows.length + 1) :: common.sizes, common.isEven⟩
  | _ => ⟨[], true⟩

/-- The extent of rows together with those already seen. -/
def extentOfRows (seen : Extent) : List Document → Extent
  | [] => seen
  | row :: rows => extentOfRows (seen.meet row.extent) rows

end

mutual

/-- What stands in nested lists, in order. -/
def leaves : Document → List Document
  | list rows => leavesOfRows rows
  | document => [document]

def leavesOfRows : List Document → List Document
  | [] => []
  | row :: rows => row.leaves ++ leavesOfRows rows

end

/-- Whole numbers beyond 64 bits. -/
def isWide : Document → Bool
  | number (.whole value) => value < -Nat.pow 2 63 || Nat.pow 2 64 ≤ value
  | _ => false

/-- Whether a grid of text can hold the document: nothing, objects and whole numbers beyond 64 bits
have no place in it. -/
def fitsText : Document → Bool
  | null | object _ => false
  | document => !document.isWide

/-- An entry of a table: nothing is no number, and a list is no entry. -/
def entry : Document → Except Fault Float
  | null => .ok (0.0 / 0.0)
  | list _ => .error .listAsNumber
  | document => document.amount

/-- An entry of a grid of text, which ends before the null characters at its end. -/
def textEntry (document : Document) : Except Fault Float :=
  let shown : Text := ⟨(document.shown.units.reverse.dropWhile (· = 0)).reverse⟩
  match Decimal.read? shown.string with
  | some x => .ok x
  | none => .error (.unreadableEntry shown)

def isText : Document → Bool
  | text _ => true
  | _ => false

end Document

structure Grid where
  sizes : List Nat
  entries : List Document

namespace Grid

/-- The most lists that may be nested in each other. -/
def mostLevels : Nat := 64

def ofDocument (document : Document) : Except Fault Grid :=
  let extent := document.extent
  if extent.isEven && extent.sizes.length ≤ mostLevels then .ok ⟨extent.sizes, document.leaves⟩
  else if mostLevels ≤ extent.sizes.length then .error (.tooManyLevels mostLevels)
  else .error (.unevenLists extent.sizes)

/-- One text makes all entries text, if they fit. -/
def isText (grid : Grid) : Bool :=
  grid.entries.any Document.isText && grid.entries.all Document.fitsText

/-- One whole number beyond 64 bits leaves all numbers as they were given. -/
def isExact (grid : Grid) : Bool := grid.entries.any Document.isWide

def numbers (grid : Grid) : Except Fault (List Float) :=
  grid.entries.mapM (if grid.isText then Document.textEntry else Document.entry)

/-- The sizes without the ones in front of the last. -/
def inner : List Nat → List Nat
  | 1 :: size :: sizes => inner (size :: sizes)
  | sizes => sizes

/-- The table of a grid's numbers, which has one number for each member of the kind or one for
all. -/
def table (ι : Type) [Enumeration ι] (grid : Grid) : Except Fault (Table ι Float) := do
  let count := Enumeration.count ι
  if [[], [1], [count]].contains (inner grid.sizes) then
    match ← grid.numbers with
    | [value] => return Table.const value
    | values => return (Table.const 0.0).setAll ((Enumeration.all ι).zip values)
  else .error (.sizeMismatch (inner grid.sizes) [count])

end Grid

namespace Document

/-- The table that a document gives, entry by entry or by one number for all. -/
def table (ι : Type) [Enumeration ι] (document : Document) : Except Fault (Table ι Float) := do
  (← Grid.ofDocument document).table ι

end Document

end Settlement
