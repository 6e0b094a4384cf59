import Settlement.Scalar.Binary64
import Settlement.Scalar.Given
/-!
Reading typed values from documents. Each reading refuses a document of the wrong kind.
-/
namespace Settlement

def Good.ofName (written : Text) : Except Fault Good :=
  match ofName? written.string with
  | some good => .ok good
  | none => .error (.unknownGood written)

def Labor.ofName (written : Text) : Except Fault Labor :=
  match ofName? written.string with
  | some labor => .ok labor
  | none => .error (.unknownLabor written)

namespace Document

def good : Document → Except Fault Good
  | text written => Good.ofName written
  | document => .error (.lacksMember document.kind "lower")

def labor : Document → Except Fault Labor
  | text written => Labor.ofName written
  | document => .error (.lacksMember document.kind "lower")

/-- The fields of an object, in order. -/
def fields : Document → Except Fault (List (Text × Document))
  | object fields => .ok fields
  | document => .error (.lacksMember document.kind "items")

/-- The field of a name in an object, which need not have one. -/
def optional (name : Text) : Document → Except Fault (Option Document)
  | object fields => .ok (fields.lookup name)
  | document => .error (.lacksMember document.kind "get")

/-- The field of a name in an object, which has to have one. -/
def required (name : Text) : Document → Except Fault Document
  | object fields =>
    match fields.lookup name with
    | some value => .ok value
    | none => .error (.missingField name)
  | list _ => .error .notListPosition
  | text _ => .error .notTextPosition
  | document => .error (.notSubscriptable document.kind)

/-- What stands at a position of a list or a text. -/
def atPosition (position : Nat) : Document → Except Fault Document
  | list items =>
    match items[position]? with
    | some item => .ok item
    | none => .error .beyondList
  | text value =>
    match value.characters[position]? with
    | some character => .ok (text character)
    | none => .error .beyondText
  | object _ => .error (.missingPosition position)
  | document => .error (.notSubscriptable document.kind)

/-- The text that another document is to be read from. -/
def source : Document → Except Fault Text
  | text value => .ok value
  | document => .error (.notSource document.kind)

/-- The parts of a document one by one: items, characters, or names of fields. -/
def elements : Document → Except Fault (List Document)
  | list items => .ok items
  | text value => .ok (value.characters.map text)
  | object fields => .ok (fields.map fun field => text field.1)
  | document => .error (.notIterable document.kind)

end Document

def Number.toFloat (value : Number) : Except Fault Float :=
  match value.toFloat? with
  | some x => .ok x
  | none => .error .wholeTooLarge

namespace Document

/-- The value as it was given, if it is a number, else its kind. -/
def given : Document → Given Float
  | boolean value => .truth value
  | number (.whole value) => .whole value
  | number (.real value) => .real value
  | document => .other document.kind

/-- An amount: a number, a truth value, or a text that holds a number. -/
def amount (document : Document) : Except Fault Float :=
  match document with
  | text value =>
    match Decimal.read? value.string with
    | some x => .ok x
    | none => .error (.unreadableNumber value)
  | document =>
    match document.number? with
    | some value => value.toFloat
    | none => .error (.notNumber document.kind)

/-- A list of names with amounts. -/
def amounts {ι : Type} (name : Text → Except Fault ι) (document : Document) :
    Except Fault (List (ι × Float)) := do
  (← document.fields).mapM fun (written, value) => do
    return (← name written, ← value.amount)

end Document

end Settlement
