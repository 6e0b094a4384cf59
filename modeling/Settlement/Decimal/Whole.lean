import Settlement.Decimal.Reading
/-!
Whole numbers given as text. Their digits may be grouped by single underscores, and a decimal
number has a limited number of digits.
-/
namespace Settlement.Decimal

/-- The most digits that a decimal whole number may have. -/
def mostDigits : Nat := 4300

/-- A row of digits without the underscores between them; the flag says whether a digit has just
been read. -/
def ungroup? : Bool → List Char → Option (List Char)
  | afterDigit, [] => if afterDigit then some [] else none
  | afterDigit, c :: rest =>
    if c = '_' then if afterDigit then ungroup? false rest else none
    else (ungroup? true rest).map (c :: ·)

/-- The digits at the front of a text, and what follows them. -/
def splitGrouped? (isDigit : Char → Bool) (cs : List Char) : Option (List Char × List Char) :=
  let (row, rest) := cs.span fun c => isDigit c || c = '_'
  (ungroup? false row).map (·, rest)

/-- Digits that only ASCII blanks follow. -/
def wholeDigits? (isDigit : Char → Bool) (cs : List Char) : Option (List Char) :=
  match splitGrouped? isDigit cs with
  | some (digits, rest) => if rest.all Text.isAsciiBlank then some digits else none
  | none => none

end Settlement.Decimal
