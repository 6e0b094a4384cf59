/-!
Hexadecimal digits.
-/
namespace Settlement.Text

/-- A number in hexadecimal, padded with zeros to a least width. -/
def hex (width number : Nat) : List Char :=
  let shown := Nat.toDigits 16 number
  List.replicate (width - shown.length) '0' ++ shown

/-- The value of a digit of either case. -/
def hexValue? (c : Char) : Option Nat :=
  if '0' ≤ c ∧ c ≤ '9' then some (c.toNat - '0'.toNat)
  else if 'a' ≤ c ∧ c ≤ 'f' then some (c.toNat - 'a'.toNat + 10)
  else if 'A' ≤ c ∧ c ≤ 'F' then some (c.toNat - 'A'.toNat + 10)
  else none

end Settlement.Text
