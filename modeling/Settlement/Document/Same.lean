import Settlement.Document.Basic
/-!
When two documents hold the same: numbers and truth values by their exact value, lists item by
item, objects whatever the order of their fields.
-/
namespace Settlement.Document

mutual

def same (a b : Document) : Bool :=
  match a, b with
  | null, null => true
  | text a, text b => a == b
  | list a, list b => sameItems a b
  | object a, object b => a.length == b.length && sameFields a b
  | boolean a, b => b.number?.any (Number.same (.whole (if a then 1 else 0)))
  | number a, b => b.number?.any a.same
  | _, _ => false

def sameItems : List Document → List Document → Bool
  | [], [] => true
  | a :: as, b :: bs => same a b && sameItems as bs
  | _, _ => false

/-- Whether every field of the first list has its equal in the second. -/
def sameFields : List (Text × Document) → List (Text × Document) → Bool
  | [], _ => true
  | (name, a) :: rest, fields =>
    (match fields.lookup name with
      | some b => same a b
      | none => false) && sameFields rest fields

end

end Settlement.Document
