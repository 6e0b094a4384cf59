import Settlement.Decimal.Shortest
/-!
How numbers are written: the shortest digits with a floating or an exponential layout, or a fixed
number of places.
-/
namespace Settlement.Decimal

/-- Where the point may stand, and how far the exponent is padded. -/
structure Layout where
  /-- The least power of the leading digit that is written without an exponent. -/
  least : Int
  /-- The least power of the leading digit that is again written with one. -/
  limit : Int
  exponentWidth : Nat
  nan : String
  infinity : String

/-- Numbers are positional from `0.0001` up to `10 ^ 16`, always show a point or an exponent,
and the exponent has a sign and at least two digits. -/
def Layout.plain : Layout := ⟨-4, 16, 2, "nan", "inf"⟩

/-- The same digits with the names that documents use for the special values. -/
def Layout.document : Layout := ⟨-4, 16, 2, "NaN", "Infinity"⟩

def signed (negative : Bool) (magnitude : List Char) : List Char :=
  if negative then '-' :: magnitude else magnitude

/-- Digits with a point after the first `place` of them, padded with zeros on either side. -/
def pointed (shown : List Char) (place : Int) : List Char :=
  if place ≤ 0 then '0' :: '.' :: (List.replicate (-place).toNat '0' ++ shown)
  else
    let whole := shown.take place.toNat
    let rest := shown.drop place.toNat
    whole ++ List.replicate (place.toNat - shown.length) '0'
      ++ '.' :: (if rest.isEmpty then ['0'] else rest)

/-- One digit, the others after a point, and the power of the first. -/
def exponential (width : Nat) (shown : List Char) (leading : Int) : List Char :=
  let rest := shown.drop 1
  shown.take 1 ++ (if rest.isEmpty then [] else '.' :: rest)
    ++ 'e' :: (if leading < 0 then '-' else '+') :: paddedDigits width leading.natAbs

def Layout.magnitude (layout : Layout) (number : Scaled) : List Char :=
  let shown := digits number.coefficient
  let leading := number.power + shown.length - 1
  let significant := (shown.reverse.dropWhile (· = '0')).reverse
  if number.coefficient = 0 then ['0', '.', '0']
  else if layout.least ≤ leading ∧ leading < layout.limit then pointed significant (leading + 1)
  else exponential layout.exponentWidth significant leading

def Layout.write (layout : Layout) (x : Float) : String :=
  match Binary.ofFloat? x with
  | some number => String.ofList (signed number.negative (layout.magnitude number.shortest))
  | none =>
    if x.isNaN then layout.nan
    else if x < 0 then "-" ++ layout.infinity else layout.infinity

/-- The shortest text that reads back as the number. -/
def shortest (x : Float) : String := Layout.plain.write x

/-- The magnitude in units of the last of some decimal places, a half going to the even one. -/
def Binary.inPlaces (places : Nat) (number : Binary) : Nat :=
  let (numerator, denominator) := number.scaled places
  roundQuotient numerator denominator

def fixedMagnitude (places units : Nat) : List Char :=
  let shown := paddedDigits (places + 1) units
  let whole := shown.take (shown.length - places)
  if places = 0 then whole else whole ++ '.' :: shown.drop (shown.length - places)

/-- A number with exactly `places` decimal places. -/
def fixed (places : Nat) (x : Float) : String :=
  match Binary.ofFloat? x with
  | some number =>
    String.ofList (signed number.negative (fixedMagnitude places (number.inPlaces places)))
  | none => Layout.plain.write x

/-- The nearest number with at most `places` decimal places. -/
def roundTo (places : Nat) (x : Float) : Float :=
  match Binary.ofFloat? x with
  | some number =>
    let magnitude := Float.ofScientific (number.inPlaces places) true places
    if number.negative then -magnitude else magnitude
  | none => x

end Settlement.Decimal
