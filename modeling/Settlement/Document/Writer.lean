import Settlement.Document.Basic
import Settlement.Text.Hex
/-!
Documents as ASCII text. UTF-16 units beyond ASCII are written as escapes; lists and objects stand
on one line, or with one entry a line at a chosen indent.
-/
namespace Settlement.Document

structure Style where
  /-- How far each level is moved in; nothing for a single line. -/
  indent : Option Nat
  real : Float → String

/-- Reals in the shortest form that reads back. -/
def Style.full (indent : Option Nat) : Style := ⟨indent, Decimal.Layout.document.write⟩

/-- A unit inside quotes. -/
def escapedUnit (unit : UInt16) : List Char :=
  let c := Text.charOf unit.toNat
  if c = '"' then ['\\', '"']
  else if c = '\\' then ['\\', '\\']
  else if c = '\n' then ['\\', 'n']
  else if c = '\r' then ['\\', 'r']
  else if c = '\t' then ['\\', 't']
  else if c = '\x08' then ['\\', 'b']
  else if c = '\x0c' then ['\\', 'f']
  else if 0x20 ≤ unit.toNat ∧ unit.toNat < 0x7f then [c]
  else '\\' :: 'u' :: Text.hex 4 unit.toNat

/-- A text in quotes, and what follows it. -/
def textThen (value : Text) (rest : List Char) : List Char :=
  '"' :: value.units.flatMap escapedUnit ++ '"' :: rest

/-- The line break and indent before an entry of a level. -/
def Style.gap (style : Style) (level : Nat) : List Char :=
  match style.indent with
  | some width => '\n' :: List.replicate (width * level) ' '
  | none => []

/-- What stands between two entries of a level. -/
def Style.between (style : Style) (level : Nat) : List Char :=
  match style.indent with
  | some _ => ',' :: style.gap level
  | none => [',', ' ']

def numberChars (style : Style) : Number → List Char
  | .whole value => (Number.wholeText value).toList
  | .real value => (style.real value).toList

mutual

/-- The text of a document at a level, and what follows it. -/
def charsThen (style : Style) (level : Nat) : Document → List Char → List Char
  | null, rest => 'n' :: 'u' :: 'l' :: 'l' :: rest
  | boolean true, rest => 't' :: 'r' :: 'u' :: 'e' :: rest
  | boolean false, rest => 'f' :: 'a' :: 'l' :: 's' :: 'e' :: rest
  | number value, rest => numberChars style value ++ rest
  | text value, rest => textThen value rest
  | list [], rest => '[' :: ']' :: rest
  | list (item :: items), rest =>
    '[' :: style.gap (level + 1) ++ charsThen style (level + 1) item
      (itemsThen style (level + 1) items (style.gap level ++ ']' :: rest))
  | object [], rest => '{' :: '}' :: rest
  | object ((name, value) :: fields), rest =>
    '{' :: style.gap (level + 1) ++ textThen name (':' :: ' ' :: charsThen style (level + 1) value
      (fieldsThen style (level + 1) fields (style.gap level ++ '}' :: rest)))

/-- The items of a level after its first, and what follows them. -/
def itemsThen (style : Style) (level : Nat) : List Document → List Char → List Char
  | [], rest => rest
  | item :: items, rest =>
    style.between level ++ charsThen style level item (itemsThen style level items rest)

/-- The fields of a level after its first, and what follows them. -/
def fieldsThen (style : Style) (level : Nat) : List (Text × Document) → List Char → List Char
  | [], rest => rest
  | (name, value) :: fields, rest =>
    style.between level ++ textThen name (':' :: ' ' :: charsThen style level value
      (fieldsThen style level fields rest))

end

def write (style : Style) (document : Document) : String :=
  String.ofList (charsThen style 0 document [])

mutual

/-- The whole numbers in a document, in order. -/
def wholes : Document → List Int
  | number (.whole value) => [value]
  | list items => wholesOfItems items
  | object fields => wholesOfFields fields
  | _ => []

def wholesOfItems : List Document → List Int
  | [] => []
  | item :: items => wholes item ++ wholesOfItems items

def wholesOfFields : List (Text × Document) → List Int
  | [] => []
  | (_, value) :: fields => wholes value ++ wholesOfFields fields

end

end Settlement.Document
