import Settlement.Decimal.Binary
import Settlement.Text.Blank
/-!
Reading decimals: the number nearest to a written decimal, and the free form that amounts may
be given in.
-/
namespace Settlement.Decimal

/-- The value of a row of ASCII digits. -/
def natural (cs : List Char) : Nat :=
  cs.foldl (fun value c => 10 * value + (c.toNat - '0'.toNat)) 0

/-- The number nearest to `coefficient * 10 ^ power`: infinite beyond the largest, zero below
the least. -/
def nearest (coefficient : Nat) (power : Int) : Float :=
  let height := digitCount coefficient + power
  if coefficient = 0 ∨ height < -330 then 0.0
  else if 310 < height then 1.0 / 0.0
  else Float.ofScientific coefficient (decide (power < 0)) power.natAbs

def withSign (negative : Bool) (magnitude : Float) : Float :=
  if negative then -magnitude else magnitude

/-- A sign, if there is one, and what follows. -/
def splitSign : List Char → Bool × List Char
  | '-' :: rest => (true, rest)
  | '+' :: rest => (false, rest)
  | rest => (false, rest)

/-- A fraction part and what follows it; a lone point is a fraction without digits. -/
def splitFraction : List Char → List Char × List Char
  | '.' :: rest => rest.span Char.isDigit
  | rest => ([], rest)

/-- An exponent that takes up all of the text. -/
def exponent? : List Char → Option Int
  | [] => some 0
  | mark :: rest =>
    let (negative, shown) := splitSign rest
    if (mark = 'e' || mark = 'E') && !shown.isEmpty && shown.all Char.isDigit then
      some (if negative then -(natural shown : Int) else natural shown)
    else none

/-- Digits with an optional fraction and exponent; at least one digit stands before the
exponent. -/
def unsigned? (cs : List Char) : Option Float :=
  let (whole, rest) := cs.span Char.isDigit
  let (fraction, rest) := splitFraction rest
  if whole.isEmpty && fraction.isEmpty then none
  else (exponent? rest).map fun power =>
    nearest (natural (whole ++ fraction)) (power - fraction.length)

def special? (cs : List Char) : Option Float :=
  let word := cs.map Char.toLower
  if word = "nan".toList then some (0.0 / 0.0)
  else if word = "inf".toList || word = "infinity".toList then some (1.0 / 0.0)
  else none

/-- Underscores may stand only between two digits, and are dropped there; the flag says whether
a digit has just been read. -/
def ungrouped? : Bool → List Char → Option (List Char)
  | _, [] => some []
  | afterDigit, '_' :: c :: rest =>
    if afterDigit && c.isDigit then (ungrouped? true rest).map (c :: ·) else none
  | _, c :: rest =>
    if c = '_' then none else (ungrouped? c.isDigit rest).map (c :: ·)

/-- A number given as text: blanks around it are dropped, digits may be of any script and
grouped by underscores, and the special values may be named in any case. -/
def read? (text : String) : Option Float := do
  let cs ← ungrouped? false (Text.trim (text.toList.map Text.plain))
  let (negative, magnitude) := splitSign cs
  (withSign negative) <$> (unsigned? magnitude <|> special? magnitude)

end Settlement.Decimal
