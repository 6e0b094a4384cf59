import Settlement.Decimal.Whole
import Settlement.Document.Reading
import Settlement.Text.Quoted
/-!
Seeds of random draws. A seed is nothing, a whole number that is not negative, or a list of whole
numbers, of texts that hold one, and of further lists.
-/
namespace Settlement

/-- The normal draws that belong to each seed. -/
abbrev Draws := Document → Nat → Float

/-- Draws that are all zero. -/
def Draws.none : Draws := fun _ _ => 0.0

namespace Seed

/-- Checks a text of decimal digits. -/
def checkDecimal (value : Text) : Except Fault Unit :=
  match Decimal.splitGrouped? Char.isDigit (value.chars.map Text.plain) with
  | some (digits, rest) =>
    if Decimal.mostDigits < digits.length then .error (.tooManyDigits digits.length)
    else if rest.all Text.isAsciiBlank then .ok ()
    else .error (.invalidWhole 10 value)
  | none => .error (.invalidWhole 10 value)

/-- Checks the hexadecimal digits of a text, which an underscore may stand in front of. -/
def checkHexadecimal (value : Text) (digits : List Char) : Except Fault Unit :=
  let digits :=
    match digits.map Text.plain with
    | '_' :: digits => digits
    | digits => digits
  match Decimal.wholeDigits? (fun c => (Text.hexValue? c).isSome) digits with
  | some _ => .ok ()
  | none => .error (.invalidWhole 16 value)

def checkText (value : Text) : Except Fault Unit :=
  match value.chars with
  | '0' :: 'x' :: digits => checkHexadecimal value digits
  | c :: _ => if c.isDigit then checkDecimal value else .error .unrecognizedSeed
  | [] => .error .unrecognizedSeed

mutual

def checkPart : Document → Except Fault Unit
  | .null => .error (.noLength .null)
  | .boolean _ => .ok ()
  | .number (.whole value) => if value < 0 then .error .negativeSeed else .ok ()
  | .number (.real _) => .error .realInSeed
  | .text value => checkText value
  | .list items => checkParts items
  | .object fields => fields.forM fun field => checkText field.1

def checkParts : List Document → Except Fault Unit
  | [] => .ok ()
  | item :: items => do
    checkPart item
    checkParts items

end

def check : Document → Except Fault Unit
  | .null => .ok ()
  | .boolean value => checkPart (.boolean value)
  | .number (.whole value) => checkPart (.number (.whole value))
  | .list items => checkParts items
  | seed => .error (.notSeed seed)

end Seed

end Settlement
