import Settlement.Document.Same
import Settlement.Fault
/-!
Names: documents by which things are kept and found. Nothing, truth values, numbers and texts are
names; lists and objects are none. Names that hold the same have one key, so that a whole number
and an equal real name the same thing.
-/
namespace Settlement

/-- What equal names have in common. -/
inductive Name.Key where
  | nothing
  /-- What a number stands for; nothing for NaN. -/
  | number (value : Option Quantity)
  | text (value : Text)
  deriving DecidableEq

namespace Document

/-- The key of a document that is a name. -/
def key? : Document → Option Name.Key
  | null => some .nothing
  | text value => some (.text value)
  | document => document.number?.map fun number => .number number.quantity?

end Document

/-- A name as it was given, with its key. -/
structure Name where
  given : Document
  key : Name.Key
  key_given : given.key? = some key

namespace Name

def ofText (value : Text) : Name := ⟨.text value, .text value, rfl⟩

def shown (name : Name) : Text := name.given.shown

end Name

/-- A document as a name, if it is one. -/
def Document.name (document : Document) : Except Fault Name :=
  match found : document.key? with
  | some key => .ok ⟨document, key, found⟩
  | none => .error (.notKey document.kind)

end Settlement
