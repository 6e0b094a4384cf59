import Settlement.Decimal.Whole
import Settlement.Fault
/-!
Reading documents from text. Numbers without a point or exponent are whole, and have a limited
number of digits; the special values of reals may be named; of fields with one name the last counts,
in the place of the first. A half that stands alone means the same as its escape.
-/
namespace Settlement.Document

namespace Reader

def orMalformed {α : Type} : Option α → Except Fault α
  | some value => .ok value
  | none => .error .malformed

def isGap (c : Char) : Bool := c = ' ' || c = '\n' || c = '\r' || c = '\t'

def skipGaps (cs : List Char) : List Char := cs.dropWhile isGap

/-- The UTF-16 unit of four hexadecimal digits. -/
def unit? (a b c d : Char) : Option UInt16 :=
  UInt16.ofNat <$> [a, b, c, d].foldlM (fun value c => (Text.hexValue? c).map (16 * value + ·)) 0

def simpleEscape? (c : Char) : Option Char :=
  if c = '"' || c = '\\' || c = '/' then some c
  else if c = 'n' then some '\n'
  else if c = 'r' then some '\r'
  else if c = 't' then some '\t'
  else if c = 'b' then some '\x08'
  else if c = 'f' then some '\x0c'
  else none

/-- The units of a text up to its closing quote, and what follows that. -/
def textUnits : List Char → Option (List UInt16 × List Char)
  | [] => none
  | '"' :: rest => some ([], rest)
  | '\\' :: 'u' :: a :: b :: c :: d :: rest => do
    let unit ← unit? a b c d
    let (following, rest) ← textUnits rest
    return (unit :: following, rest)
  | '\\' :: c :: rest => do
    let escaped ← simpleEscape? c
    let (following, rest) ← textUnits rest
    return (Text.unitsOf escaped.toNat ++ following, rest)
  | c :: rest => do
    guard (0x20 ≤ c.toNat)
    let (following, rest) ← textUnits rest
    return (Text.unitsOf c.toNat ++ following, rest)

/-- The text up to its closing quote, and what follows that. -/
def textBody (cs : List Char) : Option (Text × List Char) :=
  (textUnits cs).map fun (units, rest) => (⟨units⟩, rest)

/-- The digits of a whole part: a lone zero, or digits that do not start with one. -/
def splitWhole? : List Char → Option (List Char × List Char)
  | '0' :: rest => some (['0'], rest)
  | c :: rest => if c.isDigit then some ((c :: rest).span Char.isDigit) else none
  | [] => none

/-- A point and at least one digit, or nothing. -/
def takeFraction (cs : List Char) : List Char × List Char :=
  match cs with
  | '.' :: c :: rest => if c.isDigit then (c :: rest).span Char.isDigit else ([], cs)
  | _ => ([], cs)

/-- A mark, an optional sign and at least one digit, or nothing. -/
def takeExponent (cs : List Char) : Option Int × List Char :=
  match cs with
  | mark :: rest =>
    let (negative, rest) := Decimal.splitSign rest
    let (shown, rest) := rest.span Char.isDigit
    if (mark = 'e' || mark = 'E') && !shown.isEmpty then
      let power : Int := Decimal.natural shown
      (some (if negative then -power else power), rest)
    else (none, cs)
  | [] => (none, cs)

/-- The value of a row of digits, of which there may not be too many. -/
def wholeOfDigits (digits : List Char) : Except Fault Nat :=
  if Decimal.mostDigits < digits.length then .error (.tooManyDigits digits.length)
  else .ok (Decimal.natural digits)

/-- A number without its sign. -/
def magnitude (negative : Bool) (cs : List Char) : Except Fault (Number × List Char) := do
  let (whole, rest) ← orMalformed (splitWhole? cs)
  let (fraction, rest) := takeFraction rest
  let (power, rest) := takeExponent rest
  if fraction.isEmpty && power.isNone then
    let value : Int ← wholeOfDigits whole
    return (.whole (if negative then -value else value), rest)
  else
    let magnitude :=
      Decimal.nearest (Decimal.natural (whole ++ fraction)) (power.getD 0 - fraction.length)
    return (.real (Decimal.withSign negative magnitude), rest)

/-- What follows a word at the front of a text. -/
def after? : (word cs : List Char) → Option (List Char)
  | [], cs => some cs
  | _ :: _, [] => none
  | a :: word, c :: cs => if a = c then after? word cs else none

/-- A value that is written as a word. -/
def word (rest : String) (value : Document) (cs : List Char) :
    Except Fault (Document × List Char) :=
  orMalformed ((after? rest.toList cs).map (value, ·))

/-- The values written as a word or a number. -/
def scalar (cs : List Char) : Except Fault (Document × List Char) :=
  match cs with
  | 'n' :: rest => word "ull" null rest
  | 't' :: rest => word "rue" (boolean true) rest
  | 'f' :: rest => word "alse" (boolean false) rest
  | 'N' :: rest => word "aN" (real (0.0 / 0.0)) rest
  | 'I' :: rest => word "nfinity" (real (1.0 / 0.0)) rest
  | '-' :: 'I' :: rest => word "nfinity" (real (-1.0 / 0.0)) rest
  | '-' :: rest => do
    let (value, rest) ← magnitude true rest
    return (number value, rest)
  | _ => do
    let (value, rest) ← magnitude false cs
    return (number value, rest)

mutual

/-- A document at the front of a text. Each nested step uses up fuel. -/
def value : (fuel : Nat) → List Char → Except Fault (Document × List Char)
  | 0, _ => .error .malformed
  | fuel + 1, cs =>
    match cs with
    | '"' :: rest => do
      let (value, rest) ← orMalformed (textBody rest)
      return (text value, rest)
    | '[' :: rest =>
      match skipGaps rest with
      | ']' :: rest => .ok (list [], rest)
      | rest => do
        let (items, rest) ← items fuel rest
        return (list items, rest)
    | '{' :: rest =>
      match skipGaps rest with
      | '}' :: rest => .ok (object [], rest)
      | rest => do
        let (fields, rest) ← members fuel [] rest
        return (object fields, rest)
    | _ => scalar cs

/-- One or more items up to the closing bracket. -/
def items : (fuel : Nat) → List Char → Except Fault (List Document × List Char)
  | 0, _ => .error .malformed
  | fuel + 1, cs => do
    let (item, rest) ← value fuel cs
    match skipGaps rest with
    | ']' :: rest => return ([item], rest)
    | ',' :: rest =>
      let (items, rest) ← items fuel (skipGaps rest)
      return (item :: items, rest)
    | _ => .error .malformed

/-- One or more fields up to the closing brace, after those already read. -/
def members : (fuel : Nat) → List (Text × Document) → List Char →
    Except Fault (List (Text × Document) × List Char)
  | 0, _, _ => .error .malformed
  | fuel + 1, before, cs => do
    let '"' :: rest := cs | .error .malformed
    let (name, rest) ← orMalformed (textBody rest)
    let ':' :: rest := skipGaps rest | .error .malformed
    let (value, rest) ← value fuel (skipGaps rest)
    let fields := setField name value before
    match skipGaps rest with
    | '}' :: rest => return (fields, rest)
    | ',' :: rest => members fuel fields (skipGaps rest)
    | _ => .error .malformed

end

/-- A character of a text, or the escape of a half that stands alone. -/
def spelled (point : Nat) : List Char :=
  let c := Text.charOf point
  if c.toNat = point then [c] else '\\' :: 'u' :: Text.hex 4 point

end Reader

open Reader in
/-- A whole text that is one document, with blanks around it. -/
def read (source : Text) : Except Fault Document := do
  let cs := source.points.flatMap spelled
  let (document, rest) ← value (2 * cs.length + 1) (skipGaps cs)
  if (skipGaps rest).isEmpty then return document else .error .malformed

end Settlement.Document
