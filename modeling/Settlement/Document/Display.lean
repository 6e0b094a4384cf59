import Settlement.Document.Basic
import Settlement.Text.Quoted
/-!
Documents as messages and labels show them: texts inside lists and objects stand in quotes, a
text by itself does not.
-/
namespace Settlement.Document

mutual

/-- A document with its texts in quotes. -/
def quoted : Document → String
  | null => "None"
  | boolean true => "True"
  | boolean false => "False"
  | number value => value.shown
  | text value => value.quoted
  | list items => "[" ++ ", ".intercalate (quotedItems items) ++ "]"
  | object fields => "\x7b" ++ ", ".intercalate (quotedFields fields) ++ "\x7d"

def quotedItems : List Document → List String
  | [] => []
  | item :: items => item.quoted :: quotedItems items

def quotedFields : List (Text × Document) → List String
  | [] => []
  | (name, value) :: fields => (name.quoted ++ ": " ++ value.quoted) :: quotedFields fields

end

def shown : Document → Text
  | text value => value
  | document => document.quoted

end Settlement.Document
