import Settlement.Number
import Settlement.Text.Basic
/-!
Documents: the values that a configuration or a request is made of. The fields of an object keep
their order.
-/
namespace Settlement

inductive Document where
  | null
  | boolean (value : Bool)
  | number (value : Number)
  | text (value : Text)
  | list (items : List Document)
  | object (fields : List (Text × Document))

instance : Inhabited Document := ⟨.null⟩

namespace Document

/-- The kinds of documents; whole and real numbers count as two. -/
inductive Kind where
  | null | boolean | whole | real | text | list | object
  deriving DecidableEq, Repr

def kind : Document → Kind
  | null => .null
  | boolean _ => .boolean
  | number (.whole _) => .whole
  | number (.real _) => .real
  | text _ => .text
  | list _ => .list
  | object _ => .object

abbrev whole (value : Int) : Document := number (.whole value)

abbrev real (value : Float) : Document := number (.real value)

/-- Numbers, and the truth values as one and zero. -/
def number? : Document → Option Number
  | number value => some value
  | boolean value => some (.whole (if value then 1 else 0))
  | _ => none

/-- Null, false, zero and everything empty do not hold; all else does. -/
def holds : Document → Bool
  | null => false
  | boolean value => value
  | number value => !value.isZero
  | text value => !value.isEmpty
  | list items => !items.isEmpty
  | object fields => !fields.isEmpty

/-- Sets a field in place, or adds it at the end. -/
def setField (name : Text) (value : Document) :
    List (Text × Document) → List (Text × Document)
  | [] => [(name, value)]
  | (key, old) :: rest =>
    if key = name then (key, value) :: rest else (key, old) :: setField name value rest

/-- The field of a name, if the document is an object that has one. -/
def field? (name : Text) : Document → Option Document
  | object fields => fields.lookup name
  | _ => none

end Document

end Settlement
