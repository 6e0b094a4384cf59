import Settlement.Document.Reader
import Settlement.Document.Writer
import Settlement.Proofs.Decimal.ReadBack
/-!
Numbers in documents are read back, whatever follows them there.
-/
namespace Settlement

/-- A number that has not too many digits, if it is whole. -/
def Number.Short : Number → Prop
  | .whole value => (Decimal.digits value.natAbs).length ≤ Decimal.mostDigits
  | .real _ => True

instance : DecidablePred Number.Short
  | .whole _ => inferInstanceAs (Decidable (_ ≤ _))
  | .real _ => inferInstanceAs (Decidable True)

namespace Document.Reader

open Decimal (IsRow EndsRow Written IsWhole natural signed withSign)

/-- What comes next is no part of a number. -/
def EndsNumber (rest : List Char) : Prop :=
  ∀ c, rest.head? = some c → c.isDigit = false ∧ c ≠ '.' ∧ c ≠ 'e' ∧ c ≠ 'E'

variable {rest : List Char}

theorem EndsNumber.endsRow (ends : EndsNumber rest) : EndsRow rest := fun c next => (ends c next).1

theorem splitWhole?_row {whole : List Char} (row : IsRow whole) (isWhole : IsWhole whole)
    (ends : EndsRow rest) : splitWhole? (whole ++ rest) = some (whole, rest) := by
  cases isWhole with
  | zero => rfl
  | @leading c cs nonzero =>
    have digit : c.isDigit = true := row c List.mem_cons_self
    rw [List.cons_append, splitWhole?.eq_2 _ _ nonzero, if_pos digit,
      ← List.cons_append, Decimal.span_row row ends]

theorem takeFraction_of_ends (ends : EndsNumber rest) : takeFraction rest = ([], rest) := by
  unfold takeFraction
  split
  · exact absurd rfl (ends '.' rfl).2.1
  · rfl

theorem takeExponent_of_ends (ends : EndsNumber rest) : takeExponent rest = (none, rest) := by
  unfold takeExponent
  split
  · rename_i mark others
    have apart := ends mark rfl
    simp [apart.2.2.1, apart.2.2.2]
  · rfl

variable (written : Written)

theorem takeFraction_fractionChars (ends : EndsNumber rest) :
    takeFraction (written.fractionChars ++ (written.exponentChars ++ rest)) =
      (written.fraction, written.exponentChars ++ rest) := by
  have endsRow := written.endsRow_exponentChars ends.endsRow
  unfold Written.fractionChars
  split
  · rename_i empty
    rw [empty, List.nil_append]
    unfold Written.exponentChars
    split
    · exact takeFraction_of_ends ends
    · rfl
  · rename_i filled
    have row := written.fraction_row
    cases fraction : written.fraction with
    | nil => exact absurd fraction filled
    | cons c cs =>
      rw [fraction] at row
      have digit : c.isDigit = true := row c List.mem_cons_self
      rw [List.cons_append, List.cons_append, takeFraction, if_pos digit, ← List.cons_append,
        Decimal.span_row row endsRow]

theorem takeExponent_exponentChars (ends : EndsNumber rest) :
    takeExponent (written.exponentChars ++ rest) = (written.power?, rest) := by
  unfold Written.exponentChars Written.power?
  cases shape : written.exponent with
  | none => exact takeExponent_of_ends ends
  | some exponent =>
    obtain ⟨negative, shown⟩ := exponent
    obtain ⟨row, filled⟩ := written.exponent_row negative shown shape
    have shownFilled : shown.isEmpty = false := by simpa using filled
    cases negative <;>
      · simp only [List.cons_append, takeExponent, Bool.false_eq_true, if_false, if_true,
          Decimal.splitSign, Decimal.span_row row ends.endsRow, shownFilled]
        rfl

/-- A real is read whole. -/
theorem magnitude_chars (negative : Bool) (ends : EndsNumber rest) :
    magnitude negative (written.chars ++ rest) =
      .ok (.real (withSign negative written.magnitude), rest) := by
  have endsRow : EndsRow (written.fractionChars ++ (written.exponentChars ++ rest)) :=
    written.endsRow_fractionChars (written.endsRow_exponentChars ends.endsRow)
  have real : (written.fraction.isEmpty && written.power?.isNone) = false := by
    rcases written.real with filled | given
    · simp [filled]
    · simp [Written.power?, Option.isSome_iff_ne_none.mpr given]
  rw [Written.chars, List.append_assoc, List.append_assoc, magnitude,
    splitWhole?_row written.whole_row written.isWhole endsRow]
  simp only [orMalformed, bind, Except.bind, takeFraction_fractionChars written ends,
    takeExponent_exponentChars written ends, real, Bool.false_eq_true, if_false]
  rfl

/-- A whole number is read if it has not too many digits. -/
theorem magnitude_digits (negative : Bool) (number : Nat) (ends : EndsNumber rest) :
    magnitude negative (Decimal.digits number ++ rest) =
      (if Decimal.mostDigits < (Decimal.digits number).length then
        .error (.tooManyDigits (Decimal.digits number).length)
      else .ok (.whole (if negative then -number else number), rest)) := by
  rw [magnitude, splitWhole?_row (Decimal.isRow_digits number) (Decimal.isWhole_digits number)
    ends.endsRow]
  simp only [orMalformed, bind, Except.bind, takeFraction_of_ends ends, takeExponent_of_ends ends,
    List.isEmpty_nil, Option.isNone_none, Bool.and_self, if_true, wholeOfDigits]
  by_cases many : Decimal.mostDigits < (Decimal.digits number).length
  · rw [if_pos many, if_pos many]
  · rw [if_neg many, if_neg many, Decimal.natural_digits]
    rfl

/-- What starts with a digit, after a sign if there is one, is a number. -/
theorem scalar_signed (negative : Bool) {c : Char} (cs : List Char) (digit : c.isDigit = true) :
    scalar (signed negative (c :: cs)) =
      (magnitude negative (c :: cs)).map fun (value, rest) => (number value, rest) := by
  have apart {other : Char} (letter : other.isDigit = false) : ¬c = other := by
    rintro rfl
    rw [digit] at letter
    cases letter
  have mapped (reading : Except Fault (Number × List Char)) :
      (do let (value, rest) ← reading; return (number value, rest)) =
        reading.map fun (value, rest) => (number value, rest) := by
    cases reading <;> rfl
  rw [← mapped]
  cases negative with
  | true =>
    rw [signed, if_pos rfl, scalar.eq_def]
    split <;> simp_all
  | false =>
    rw [signed, if_neg (by decide), scalar.eq_def]
    split <;> simp_all

theorem exists_cons_of_row {cs : List Char} (row : IsRow cs) (filled : cs ≠ []) :
    ∃ c others, cs = c :: others ∧ c.isDigit = true := by
  cases cs with
  | nil => exact absurd rfl filled
  | cons c others => exact ⟨c, others, rfl, row c List.mem_cons_self⟩

/-- A row of digits with a sign, and more after it, is read as what the number without the sign is
read as. -/
theorem scalar_of_magnitude {negative : Bool} {row cs : List Char} {value : Number}
    (digits : IsRow row) (filled : row ≠ [])
    (read : magnitude negative (row ++ cs) = .ok (value, rest)) :
    scalar (signed negative (row ++ cs)) = .ok (number value, rest) := by
  obtain ⟨c, others, rfl, digit⟩ := exists_cons_of_row digits filled
  rw [List.cons_append] at read ⊢
  rw [scalar_signed negative _ digit, read]
  rfl

theorem signed_append (negative : Bool) (cs more : List Char) :
    signed negative cs ++ more = signed negative (cs ++ more) := by
  cases negative <;> rfl

theorem write_special {x : Float} (special : Decimal.Binary.ofFloat? x = none) :
    (x = 0.0 / 0.0 ∧ Decimal.Layout.document.write x = "NaN") ∨
      (x = 1.0 / 0.0 ∧ Decimal.Layout.document.write x = "Infinity") ∨
      (x = -1.0 / 0.0 ∧ Decimal.Layout.document.write x = "-Infinity") := by
  rcases Binary64.special_of_ofFloat?_eq_none special with rfl | rfl | rfl
  · exact .inl ⟨rfl, by decide +kernel⟩
  · exact .inr (.inl ⟨rfl, by decide +kernel⟩)
  · exact .inr (.inr ⟨rfl, by decide +kernel⟩)

/-- How numbers begin. -/
def startsNumber (c : Char) : Bool := c.isDigit || c = '-' || c = 'N' || c = 'I'

theorem exists_cons_numberChars (indent : Option Nat) (value : Number) :
    ∃ c cs, numberChars (.full indent) value = c :: cs ∧ startsNumber c = true := by
  have signs (negative : Bool) {row : List Char} (digits : IsRow row) (filled : row ≠ [])
      (more : List Char) : ∃ c cs, signed negative (row ++ more) = c :: cs ∧
        startsNumber c = true := by
    obtain ⟨c, others, rfl, digit⟩ := exists_cons_of_row digits filled
    cases negative with
    | true => exact ⟨'-', _, rfl, rfl⟩
    | false => exact ⟨c, _, rfl, by simp [startsNumber, digit]⟩
  cases value with
  | whole value =>
    have starts := signs (decide (value < 0)) (Decimal.isRow_digits value.natAbs)
      (Decimal.digits_ne_nil _) []
    rw [List.append_nil] at starts
    rw [numberChars, Number.wholeText, String.toList_ofList]
    exact starts
  | real x =>
    show ∃ c cs, (Decimal.Layout.document.write x).toList = c :: cs ∧ _
    cases finite : Decimal.Binary.ofFloat? x with
    | some number =>
      obtain ⟨written, _, shown, _⟩ := Decimal.exists_written_of_finite finite
      rw [shown, String.toList_ofList, Written.chars]
      exact signs number.negative written.whole_row written.isWhole.ne_nil _
    | none =>
      rcases write_special finite with ⟨_, shown⟩ | ⟨_, shown⟩ | ⟨_, shown⟩
      · exact ⟨'N', _, congrArg String.toList shown, rfl⟩
      · exact ⟨'I', _, congrArg String.toList shown, rfl⟩
      · exact ⟨'-', _, congrArg String.toList shown, rfl⟩

/-- A number in a document is read back. -/
theorem scalar_numberChars {value : Number} (short : value.Short) (indent : Option Nat)
    (ends : EndsNumber rest) :
    scalar (numberChars (.full indent) value ++ rest) = .ok (number value, rest) := by
  cases value with
  | whole value =>
    have few : ¬Decimal.mostDigits < (Decimal.digits value.natAbs).length := not_lt.mpr short
    have read := magnitude_digits (decide (value < 0)) value.natAbs ends
    rw [if_neg few] at read
    have sign : (if decide (value < 0) = true then -(value.natAbs : Int) else value.natAbs) =
        value := by
      by_cases negative : value < 0
      · rw [if_pos (decide_eq_true negative)]
        omega
      · rw [if_neg (by simpa using negative)]
        omega
    rw [sign] at read
    rw [numberChars, Number.wholeText, String.toList_ofList, signed_append]
    exact scalar_of_magnitude (Decimal.isRow_digits _) (Decimal.digits_ne_nil _) read
  | real x =>
    show scalar ((Decimal.Layout.document.write x).toList ++ rest) = _
    cases finite : Decimal.Binary.ofFloat? x with
    | some number =>
      obtain ⟨written, _, shown, same⟩ := Decimal.exists_written_of_finite finite
      have read := magnitude_chars written number.negative ends
      rw [same, Written.chars, List.append_assoc] at read
      rw [shown, String.toList_ofList, signed_append, Written.chars, List.append_assoc]
      exact scalar_of_magnitude written.whole_row written.isWhole.ne_nil read
    | none =>
      rcases write_special finite with ⟨rfl, shown⟩ | ⟨rfl, shown⟩ | ⟨rfl, shown⟩
      all_goals
        rw [shown]
        rfl

end Document.Reader

end Settlement
