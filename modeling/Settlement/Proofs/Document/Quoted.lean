import Mathlib.Tactic.IntervalCases
import Settlement.Document.Reader
import Settlement.Document.Writer
/-!
Texts in quotes are read back unit by unit, whether or not their halves stand alone.
-/
namespace Settlement.Document.Reader

open Text (charOf hex hexValue?)

theorem hexValue?_digitChar {digit : Nat} (small : digit < 16) :
    hexValue? digit.digitChar = some digit := by
  interval_cases digit <;> decide

theorem hex_one {number : Nat} (small : number < 16) : hex 1 number = [number.digitChar] := by
  rw [hex, Nat.toDigits_of_lt_base small]
  rfl

/-- Padded digits but for the last are those of the rest. -/
theorem hex_succ {width : Nat} (positive : 0 < width) (number : Nat) :
    hex (width + 1) number = hex width (number / 16) ++ [(number % 16).digitChar] := by
  by_cases small : number < 16
  · have rest : number / 16 = 0 := Nat.div_eq_of_lt small
    obtain ⟨more, rfl⟩ : ∃ more, width = more + 1 := ⟨width - 1, by omega⟩
    rw [rest, Nat.mod_eq_of_lt small, hex, hex, Nat.toDigits_of_lt_base small, Nat.toDigits_zero]
    simp [List.replicate_succ']
  · have digits := Nat.toDigits_of_base_le (by decide : 1 < 16) (not_lt.mp small)
    rw [hex, hex, digits, List.length_append, List.length_singleton, Nat.add_sub_add_right,
      List.append_assoc]

/-- Four digits tell a unit. -/
theorem exists_hex {number : Nat} (small : number < 0x10000) :
    ∃ a b c d, hex 4 number = [a, b, c, d] ∧ unit? a b c d = some (.ofNat number) := by
  have digits : hex 4 number = [(number / 16 / 16 / 16).digitChar,
      (number / 16 / 16 % 16).digitChar, (number / 16 % 16).digitChar,
      (number % 16).digitChar] := by
    rw [hex_succ (by decide), hex_succ (by decide), hex_succ (by decide), hex_one (by omega)]
    rfl
  refine ⟨_, _, _, _, digits, ?_⟩
  have last (row : Nat) : hexValue? (row % 16).digitChar = some (row % 16) :=
    hexValue?_digitChar (Nat.mod_lt row (by decide))
  have first := hexValue?_digitChar (by omega : number / 16 / 16 / 16 < 16)
  have value : 16 * (16 * (16 * (16 * 0 + number / 16 / 16 / 16) + number / 16 / 16 % 16) +
      number / 16 % 16) + number % 16 = number := by omega
  simp only [unit?, List.foldlM_cons, List.foldlM_nil, first, last, Option.map_some,
    Option.bind_eq_bind, Option.bind_some, Option.pure_def, Option.map_eq_map, value]

theorem toNat_charOf {point : Nat}
    (valid : point < 0xd800 ∨ (0xe000 ≤ point ∧ point < 0x110000)) :
    (charOf point).toNat = point := by
  have isValid : point.isValidChar := by
    unfold Nat.isValidChar
    omega
  rw [charOf, if_pos valid, Char.ofNat, dif_pos isValid]
  rfl

/-- A unit that stands for a known character is that of the character. -/
theorem toNat_of_charOf_eq {point : Nat} {c : Char} (same : charOf point = c)
    (known : c ≠ '\ufffd') : point = c.toNat := by
  by_cases valid : point < 0xd800 ∨ (0xe000 ≤ point ∧ point < 0x110000)
  · rw [← same, toNat_charOf valid]
  · rw [charOf, if_neg valid] at same
    exact absurd same.symm known

theorem unitsOf_toNat (unit : UInt16) : Text.unitsOf unit.toNat = [unit] := by
  have small : unit.toNat < 0x10000 := unit.toNat_lt
  rw [Text.unitsOf, if_pos small, UInt16.ofNat_toNat]

variable {unit : UInt16} {rest : List Char}

/-- An escape of one character is read as the unit of that character. -/
theorem textUnits_simple {mark c : Char} (known : simpleEscape? mark = some c)
    (same : charOf unit.toNat = c) (listed : c ≠ '\ufffd') :
    textUnits ('\\' :: mark :: rest) =
      (textUnits rest).map fun (units, after) => (unit :: units, after) := by
  have other : mark ≠ 'u' := by
    rintro rfl
    cases known
  rw [textUnits.eq_4 _ _ (by simp [other]), known, Option.bind_eq_bind, Option.bind_some,
    ← toNat_of_charOf_eq same listed, unitsOf_toNat]
  cases textUnits rest <;> rfl

theorem textUnits_hex (unit : UInt16) (rest : List Char) :
    textUnits ('\\' :: 'u' :: (hex 4 unit.toNat ++ rest)) =
      (textUnits rest).map fun (units, after) => (unit :: units, after) := by
  obtain ⟨a, b, c, d, digits, told⟩ := exists_hex unit.toNat_lt
  rw [UInt16.ofNat_toNat] at told
  rw [digits]
  show textUnits ('\\' :: 'u' :: a :: b :: c :: d :: rest) = _
  rw [textUnits, told, Option.bind_eq_bind, Option.bind_some]
  cases textUnits rest <;> rfl

theorem textUnits_plain {c : Char} (visible : 0x20 ≤ c.toNat) (same : charOf unit.toNat = c)
    (listed : c ≠ '\ufffd') (noQuote : c ≠ '"') (noEscape : c ≠ '\\') :
    textUnits (c :: rest) =
      (textUnits rest).map fun (units, after) => (unit :: units, after) := by
  rw [textUnits.eq_5 _ _ noQuote (by simp [noEscape]) (by simp [noEscape])]
  rw [guard, if_pos visible, ← toNat_of_charOf_eq same listed, unitsOf_toNat]
  cases textUnits rest <;> rfl

/-- A unit is read back, whether it is escaped or not. -/
theorem textUnits_escapedUnit (unit : UInt16) (rest : List Char) :
    textUnits (escapedUnit unit ++ rest) =
      (textUnits rest).map fun (units, after) => (unit :: units, after) := by
  unfold escapedUnit
  dsimp only
  split_ifs with quote escape line back tab bell page visible
  · exact textUnits_simple rfl quote (by decide)
  · exact textUnits_simple rfl escape (by decide)
  · exact textUnits_simple rfl line (by decide)
  · exact textUnits_simple rfl back (by decide)
  · exact textUnits_simple rfl tab (by decide)
  · exact textUnits_simple rfl bell (by decide)
  · exact textUnits_simple rfl page (by decide)
  · have shown := toNat_charOf (.inl (by omega : unit.toNat < 0xd800))
    refine textUnits_plain (by omega) rfl (fun unknown => ?_) quote escape
    rw [unknown] at shown
    have small : '\ufffd'.toNat < 0x7f := by omega
    exact absurd small (by decide)
  · exact textUnits_hex unit rest

/-- What stands in quotes is read back. -/
theorem textBody_units (value : Text) (rest : List Char) :
    textBody (value.units.flatMap escapedUnit ++ '"' :: rest) = some (value, rest) := by
  have units (row : List UInt16) :
      textUnits (row.flatMap escapedUnit ++ '"' :: rest) = some (row, rest) := by
    induction row with
    | nil => rfl
    | cons unit others ih =>
      rw [List.flatMap_cons, List.append_assoc, textUnits_escapedUnit, ih, Option.map_some]
  rw [textBody, units, Option.map_some]

end Settlement.Document.Reader
