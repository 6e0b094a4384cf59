import Mathlib
import Settlement.Decimal.Layout
import Settlement.Decimal.Reading
/-!
Written numbers. A real is written as digits with a fraction, an exponent or both, whatever its
layout. What it is read as can be told from these parts, and so can its exact value, which is that
of the digits it is written from.
-/
namespace Settlement.Decimal

/-! Rows of digits. -/

/-- A row of digits, and nothing else. -/
def IsRow (cs : List Char) : Prop := ∀ c ∈ cs, c.isDigit = true

/-- No digit comes next. -/
def EndsRow (rest : List Char) : Prop := ∀ c, rest.head? = some c → c.isDigit = false

/-- How a whole part begins: it is a lone zero, or does not start with one. -/
inductive IsWhole : List Char → Prop where
  | zero : IsWhole ['0']
  | leading {c : Char} {cs : List Char} (nonzero : c ≠ '0') : IsWhole (c :: cs)

theorem IsWhole.ne_nil {cs : List Char} (isWhole : IsWhole cs) : cs ≠ [] := by
  cases isWhole <;> simp

theorem endsRow_nil : EndsRow [] := fun c next => by cases next

theorem IsRow.append {a b : List Char} (first : IsRow a) (second : IsRow b) : IsRow (a ++ b) :=
  List.forall_mem_append.mpr ⟨first, second⟩

theorem isRow_replicate (count : Nat) : IsRow (List.replicate count '0') := by
  intro c member
  rw [List.eq_of_mem_replicate member]
  rfl

theorem IsRow.sublist {a b : List Char} (row : IsRow b) (part : a.Sublist b) : IsRow a :=
  fun c member => row c (part.subset member)

/-- A row is split off whole. -/
theorem span_row {cs rest : List Char} (row : IsRow cs) (ends : EndsRow rest) :
    (cs ++ rest).span Char.isDigit = (cs, rest) := by
  have stays : rest.takeWhile Char.isDigit = [] ∧ rest.dropWhile Char.isDigit = rest := by
    cases rest with
    | nil => exact ⟨rfl, rfl⟩
    | cons c others => simp [ends c rfl]
  rw [List.span_eq_takeWhile_dropWhile, List.takeWhile_append_of_pos row,
    List.dropWhile_append_of_pos row, stays.1, stays.2, List.append_nil]

theorem isRow_digits (number : Nat) : IsRow (digits number) :=
  fun _ member => Nat.isDigit_of_mem_toDigits (by decide) (by decide) member

theorem digits_ne_nil (number : Nat) : digits number ≠ [] := Nat.toDigits_ne_nil

/-- The digits of a number are read as that number. -/
theorem natural_digits (number : Nat) : natural (digits number) = number :=
  Nat.ofDigitChars_ten_toDigits

theorem natural_append (first second : List Char) :
    natural (first ++ second) = 10 ^ second.length * natural first + natural second := by
  show Nat.ofDigitChars 10 (first ++ second) 0 = _
  rw [Nat.ofDigitChars_append, Nat.ofDigitChars_eq_ofDigitChars_zero]
  rfl

theorem natural_replicate (count : Nat) : natural (List.replicate count '0') = 0 := by
  show Nat.ofDigitChars 10 (List.replicate count '0') 0 = 0
  rw [Nat.ofDigitChars_replicate_zero, mul_zero]

theorem natural_paddedDigits (width number : Nat) :
    natural (paddedDigits width number) = number := by
  rw [paddedDigits, natural_append, natural_replicate, natural_digits, mul_zero, zero_add]

theorem toNat_of_isDigit {c : Char} (digit : c.isDigit = true) : 48 ≤ c.toNat ∧ c.toNat ≤ 57 := by
  simpa [Char.isDigit, UInt32.le_iff_toNat_le] using digit

theorem natural_lt {cs : List Char} (row : IsRow cs) : natural cs < 10 ^ cs.length := by
  induction cs using List.reverseRecOn with
  | nil => exact Nat.one_pos
  | append_singleton others c ih =>
    have first := ih (row.sublist (List.sublist_append_left _ _))
    have last := toNat_of_isDigit (row c (by simp))
    have value : natural [c] = c.toNat - 48 := Nat.zero_add _
    rw [natural_append, value, List.length_append, pow_add]
    simp only [List.length_singleton, pow_one]
    omega

theorem digits_of_ten_le {number : Nat} (large : 10 ≤ number) :
    digits number = digits (number / 10) ++ [(number % 10).digitChar] :=
  Nat.toDigits_of_base_le (by decide) large

/-- Digits do not start with a zero, unless the number is zero. -/
theorem isWhole_digits (number : Nat) : IsWhole (digits number) := by
  induction number using Nat.strongRecOn with
  | ind number ih =>
    by_cases small : number < 10
    · rw [digits, Nat.toDigits_of_lt_base small]
      interval_cases number
      · exact .zero
      all_goals exact .leading (by decide)
    · have large : 10 ≤ number := not_lt.mp small
      have head := ih (number / 10) (Nat.div_lt_self (by omega) (by decide))
      have value := natural_digits (number / 10)
      rw [digits_of_ten_le large]
      generalize digits (number / 10) = shown at head value
      cases head with
      | zero =>
        have none : 0 = number / 10 := value
        omega
      | leading nonzero => exact .leading nonzero

/-! The parts of a real. -/

/-- A real as it is written: with a fraction, an exponent or both. -/
structure Written where
  whole : List Char
  fraction : List Char
  /-- Whether the exponent is negative, and its digits. -/
  exponent : Option (Bool × List Char)
  whole_row : IsRow whole
  isWhole : IsWhole whole
  fraction_row : IsRow fraction
  exponent_row : ∀ negative shown, exponent = some (negative, shown) → IsRow shown ∧ shown ≠ []
  real : fraction ≠ [] ∨ exponent ≠ none

namespace Written

variable (written : Written)

def fractionChars : List Char := if written.fraction = [] then [] else '.' :: written.fraction

def exponentChars : List Char :=
  match written.exponent with
  | none => []
  | some (negative, shown) => 'e' :: (if negative then '-' else '+') :: shown

def chars : List Char := written.whole ++ (written.fractionChars ++ written.exponentChars)

def power? : Option Int :=
  written.exponent.map fun (negative, shown) =>
    if negative then -(natural shown : Int) else natural shown

/-- The digits of both parts as one number. -/
def coefficient : Nat := natural (written.whole ++ written.fraction)

/-- The power of ten of the last of them. -/
def power : Int := written.power?.getD 0 - written.fraction.length

/-- The number nearest to what is written. -/
def magnitude : Float := nearest written.coefficient written.power

/-- What is written has a value, and is no longer than some number of digits. -/
structure Shows (value : ℚ) (most : Nat) : Prop where
  value : written.coefficient * 10 ^ written.power = value
  few : (written.whole ++ written.fraction).length ≤ most

variable {written} in
theorem Shows.log2_coefficient_lt {value : ℚ} {most : Nat} (shows : written.Shows value most)
    (small : most ≤ 60) : written.coefficient.log2 < 200 := by
  have less : written.coefficient < 2 ^ 200 := by
    calc written.coefficient < 10 ^ (written.whole ++ written.fraction).length :=
          natural_lt (written.whole_row.append written.fraction_row)
      _ ≤ 10 ^ 60 := Nat.pow_le_pow_right (by decide) (shows.few.trans small)
      _ ≤ 2 ^ 200 := by decide +kernel
  rcases Nat.eq_zero_or_pos written.coefficient with none | positive
  · rw [none]
    decide
  · exact (Nat.log2_lt positive.ne').mpr less

theorem endsRow_exponentChars {rest : List Char} (ends : EndsRow rest) :
    EndsRow (written.exponentChars ++ rest) := by
  unfold exponentChars
  split
  · exact ends
  · intro c next
    obtain rfl : 'e' = c := Option.some.inj next
    rfl

theorem endsRow_fractionChars {rest : List Char} (ends : EndsRow rest) :
    EndsRow (written.fractionChars ++ rest) := by
  unfold fractionChars
  split
  · exact ends
  · intro c next
    obtain rfl : '.' = c := Option.some.inj next
    rfl

theorem exponent?_exponentChars :
    exponent? written.exponentChars = some (written.power?.getD 0) := by
  unfold exponentChars power?
  cases shape : written.exponent with
  | none => rfl
  | some exponent =>
    obtain ⟨negative, shown⟩ := exponent
    obtain ⟨row, filled⟩ := written.exponent_row negative shown shape
    have digits : shown.all Char.isDigit = true := List.all_eq_true.mpr row
    cases negative <;> simp [exponent?, splitSign, digits, filled]

/-- What is written without a sign is read as the nearest number. -/
theorem unsigned?_chars : unsigned? written.chars = some written.magnitude := by
  have endsExponent : EndsRow written.exponentChars := by
    simpa using written.endsRow_exponentChars endsRow_nil
  have ends : EndsRow (written.fractionChars ++ written.exponentChars) :=
    written.endsRow_fractionChars endsExponent
  have fraction : splitFraction (written.fractionChars ++ written.exponentChars) =
      (written.fraction, written.exponentChars) := by
    unfold fractionChars
    split
    · rename_i empty
      rw [empty, List.nil_append]
      unfold exponentChars
      split <;> rfl
    · exact span_row written.fraction_row endsExponent
  have filled : written.whole.isEmpty = false := by
    simpa using written.isWhole.ne_nil
  rw [unsigned?, chars, span_row written.whole_row ends]
  simp only [fraction, filled, Bool.false_and, Bool.false_eq_true, if_false,
    exponent?_exponentChars, Option.map_some]
  rfl

/-- The characters that a number is written with. -/
def isPlain (c : Char) : Bool := c.isDigit || c = '.' || c = 'e' || c = '+' || c = '-'

theorem isPlain_of_isDigit {c : Char} (digit : c.isDigit = true) : isPlain c = true := by
  simp [isPlain, digit]

/-- These characters are read as they are. -/
theorem kept_of_isPlain {c : Char} (isPlain : isPlain c = true) :
    Text.plain c = c ∧ Text.isAsciiBlank c = false ∧ c ≠ '_' := by
  simp only [Written.isPlain, Bool.or_eq_true, decide_eq_true_iff] at isPlain
  rcases isPlain with (((digit | rfl) | rfl) | rfl) | rfl
  · obtain ⟨low, high⟩ := toNat_of_isDigit digit
    refine ⟨if_pos (by omega), ?_, ?_⟩
    · have blank : c ≠ ' ' := by
        rintro rfl
        cases digit
      have high : ¬c.toNat ≤ 0x0d := by omega
      simp [Text.isAsciiBlank, blank, high]
    · rintro rfl
      cases digit
  all_goals decide

theorem ungrouped?_eq_self {cs : List Char} (flag : Bool) (single : ∀ c ∈ cs, c ≠ '_') :
    ungrouped? flag cs = some cs := by
  induction cs generalizing flag with
  | nil => rfl
  | cons c rest ih =>
    rw [List.forall_mem_cons] at single
    rw [ungrouped?.eq_def]
    split
    · rename_i same
      cases same
    · rename_i same
      cases same
      exact absurd rfl single.1
    · rename_i same
      cases same
      rw [if_neg single.1, ih _ single.2, Option.map_some]

theorem isPlain_chars : ∀ c ∈ written.chars, isPlain c = true := by
  have rows {cs : List Char} (row : IsRow cs) : ∀ c ∈ cs, isPlain c = true :=
    fun c member => isPlain_of_isDigit (row c member)
  have fraction : ∀ c ∈ written.fractionChars, isPlain c = true := by
    unfold fractionChars
    split
    · simp
    · exact List.forall_mem_cons.mpr ⟨rfl, rows written.fraction_row⟩
  have exponent : ∀ c ∈ written.exponentChars, isPlain c = true := by
    unfold exponentChars
    split
    · simp
    · rename_i negative shown shape
      refine List.forall_mem_cons.mpr ⟨rfl, List.forall_mem_cons.mpr ⟨?_, ?_⟩⟩
      · cases negative <;> rfl
      · exact rows (written.exponent_row negative shown shape).1
  exact List.forall_mem_append.mpr
    ⟨rows written.whole_row, List.forall_mem_append.mpr ⟨fraction, exponent⟩⟩

theorem splitSign_chars (negative : Bool) :
    splitSign (signed negative written.chars) = (negative, written.chars) := by
  cases negative with
  | true => rfl
  | false =>
    have row := written.whole_row
    have filled := written.isWhole.ne_nil
    unfold signed chars
    cases whole : written.whole with
    | nil => exact absurd whole filled
    | cons c cs =>
      have digit : c.isDigit = true := row c (by simp [whole])
      rw [if_neg (by decide), List.cons_append, splitSign.eq_3]
      · rintro rest ⟨rfl, -⟩
        cases digit
      · rintro rest ⟨rfl, -⟩
        cases digit

/-- What is written is read as the nearest number, with its sign. -/
theorem read?_signed (negative : Bool) :
    read? (String.ofList (signed negative written.chars)) =
      some (withSign negative written.magnitude) := by
  have plain : ∀ c ∈ signed negative written.chars, isPlain c = true := by
    cases negative with
    | true => exact List.forall_mem_cons.mpr ⟨rfl, written.isPlain_chars⟩
    | false => exact written.isPlain_chars
  generalize shown : signed negative written.chars = cs at plain
  have ascii : cs.map Text.plain = cs :=
    (List.map_congr_left fun c member => (kept_of_isPlain (plain c member)).1).trans
      (List.map_id cs)
  have trimmed : Text.trim cs = cs := by
    have filled {row : List Char} (part : ∀ c ∈ row, c ∈ cs) :
        row.dropWhile Text.isAsciiBlank = row := by
      cases row with
      | nil => rfl
      | cons c others =>
        have kept := (kept_of_isPlain (plain c (part c List.mem_cons_self))).2.1
        rw [List.dropWhile_cons, if_neg (by simp [kept])]
    rw [Text.trim, filled fun _ => id, filled fun _ => List.mem_reverse.mp, List.reverse_reverse]
  have ungrouped : ungrouped? false cs = some cs :=
    ungrouped?_eq_self false fun c member => (kept_of_isPlain (plain c member)).2.2
  rw [read?, String.toList_ofList, ascii, trimmed, ungrouped, ← shown]
  simp [splitSign_chars, unsigned?_chars]

end Written

/-! Layouts. -/

theorem isRow_paddedDigits (width number : Nat) : IsRow (paddedDigits width number) :=
  (isRow_replicate _).append (isRow_digits number)

theorem paddedDigits_ne_nil (width number : Nat) : paddedDigits width number ≠ [] := by
  simp [paddedDigits, digits_ne_nil]

/-- Two parts with a point between them. -/
theorem exists_written_parts {whole fraction : List Char} (row : IsRow (whole ++ fraction))
    (isWhole : IsWhole whole) (filled : fraction ≠ []) :
    ∃ written : Written, written.chars = whole ++ '.' :: fraction ∧
      written.Shows (natural (whole ++ fraction) * 10 ^ (-fraction.length : Int))
        (whole ++ fraction).length := by
  obtain ⟨first, second⟩ := List.forall_mem_append.mp row
  refine ⟨⟨whole, fraction, none, first, isWhole, second, by simp, .inl filled⟩, ?_, ?_, le_rfl⟩
  · simp [Written.chars, Written.fractionChars, Written.exponentChars, filled]
  · rw [Written.coefficient, Written.power, Written.power?, Option.map_none, Option.getD_none,
      zero_sub]

section pointed

variable {c : Char} {cs : List Char} (row : IsRow (c :: cs))
include row

/-- The point stands before all digits. -/
theorem exists_written_before {place : Int} (before : place ≤ 0) :
    ∃ written : Written,
      written.chars = '0' :: '.' :: (List.replicate (-place).toNat '0' ++ (c :: cs)) ∧
      written.Shows (natural (c :: cs) * 10 ^ (place - (c :: cs).length))
        ((c :: cs).length + place.natAbs + 1) := by
  obtain ⟨written, shown, value, few⟩ := @exists_written_parts ['0']
    (List.replicate (-place).toNat '0' ++ (c :: cs))
    ((isRow_replicate 1).append ((isRow_replicate _).append row)) .zero (by simp)
  refine ⟨written, shown, value.trans ?_, few.trans ?_⟩
  · rw [← List.append_assoc, natural_append, natural_append, natural_replicate,
      List.length_append, List.length_replicate]
    congr 2
    · exact Nat.zero_add _
    · push_cast
      omega
  · simp only [List.length_append, List.length_replicate, List.length_singleton]
    omega

/-- The point stands among the digits. -/
theorem exists_written_among (nonzero : c ≠ '0') {count : Nat}
    (within : count + 1 < (c :: cs).length) :
    ∃ written : Written,
      written.chars = (c :: cs).take (count + 1) ++ '.' :: (c :: cs).drop (count + 1) ∧
      written.Shows (natural (c :: cs) * 10 ^ ((count + 1 : Int) - (c :: cs).length))
        (c :: cs).length := by
  have filled : (c :: cs).drop (count + 1) ≠ [] := by simpa using within
  have parts : (c :: cs).take (count + 1) ++ (c :: cs).drop (count + 1) = c :: cs :=
    List.take_append_drop _ _
  obtain ⟨written, shown, value, few⟩ := @exists_written_parts ((c :: cs).take (count + 1)) _
    (parts.symm ▸ row) (.leading nonzero) filled
  rw [parts] at value few
  refine ⟨written, shown, value.trans ?_, few⟩
  rw [List.length_drop]
  congr 2
  omega

/-- The point stands behind all digits. -/
theorem exists_written_behind (nonzero : c ≠ '0') {count : Nat}
    (beyond : (c :: cs).length ≤ count + 1) :
    ∃ written : Written,
      written.chars = (c :: cs) ++ List.replicate (count + 1 - (c :: cs).length) '0' ++
        '.' :: ['0'] ∧
      written.Shows (natural (c :: cs) * 10 ^ ((count + 1 : Int) - (c :: cs).length))
        (count + 2) := by
  obtain ⟨written, shown, value, few⟩ := @exists_written_parts
    ((c :: cs) ++ List.replicate (count + 1 - (c :: cs).length) '0') ['0']
    ((row.append (isRow_replicate _)).append (isRow_replicate 1)) (.leading nonzero) (by simp)
  refine ⟨written, shown, value.trans ?_, few.trans ?_⟩
  · have power : (count : Int) + 1 - (c :: cs).length =
        -([('0' : Char)].length : Int) + (count + 1 - (c :: cs).length + 1 : Nat) := by
      rw [List.length_singleton]
      omega
    rw [List.append_assoc, ← List.replicate_succ', natural_append, natural_replicate,
      List.length_replicate, power, zpow_add₀ (by norm_num), zpow_natCast]
    push_cast
    ring
  · simp only [List.length_append, List.length_replicate, List.length_singleton]
    omega

/-- Digits that do not start with a zero, with a point among them or beside them. -/
theorem exists_written_pointed (nonzero : c ≠ '0') (place : Int) :
    ∃ written : Written, written.chars = pointed (c :: cs) place ∧
      written.Shows (natural (c :: cs) * 10 ^ (place - (c :: cs).length))
        ((c :: cs).length + place.natAbs + 1) := by
  unfold pointed
  split
  · rename_i before
    exact exists_written_before row before
  · rename_i inside
    obtain ⟨count, rfl⟩ : ∃ count : Nat, place = count + 1 := ⟨place.toNat - 1, by omega⟩
    have counted : ((count : Int) + 1).toNat = count + 1 := by omega
    rw [counted]
    dsimp only
    rcases Nat.lt_or_ge (count + 1) (c :: cs).length with within | beyond
    · have filled : (c :: cs).drop (count + 1) ≠ [] := by simpa using within
      have padding : count + 1 - (c :: cs).length = 0 := by omega
      obtain ⟨written, shown, value, few⟩ := exists_written_among row nonzero within
      rw [padding, List.replicate_zero, List.append_nil, if_neg (by simpa using filled)]
      exact ⟨written, shown, value, few.trans (by omega)⟩
    · have none : (c :: cs).drop (count + 1) = [] := List.drop_eq_nil_of_le beyond
      have all : (c :: cs).take (count + 1) = c :: cs := List.take_of_length_le beyond
      obtain ⟨written, shown, value, few⟩ := exists_written_behind row nonzero beyond
      rw [none, all]
      exact ⟨written, shown, value, few.trans (by omega)⟩

end pointed

theorem exists_written_exponential {c : Char} {cs : List Char} (row : IsRow (c :: cs))
    (nonzero : c ≠ '0') (width : Nat) (leading : Int) :
    ∃ written : Written, written.chars = exponential width (c :: cs) leading ∧
      written.Shows (natural (c :: cs) * 10 ^ (leading + 1 - (c :: cs).length))
        (c :: cs).length := by
  have whole : IsRow [c] := row.sublist (by simp)
  have fraction : IsRow cs := row.sublist (by simp)
  have shown : ∀ negative shown,
      some (decide (leading < 0), paddedDigits width leading.natAbs) = some (negative, shown) →
        IsRow shown ∧ shown ≠ [] := by
    rintro _ _ ⟨rfl, rfl⟩
    exact ⟨isRow_paddedDigits _ _, paddedDigits_ne_nil _ _⟩
  refine ⟨⟨[c], cs, some (decide (leading < 0), paddedDigits width leading.natAbs), whole,
    .leading nonzero, fraction, shown, .inr (by simp)⟩, ?_, ?_, le_rfl⟩
  · simp [Written.chars, Written.fractionChars, Written.exponentChars, exponential]
  · have power : (if decide (leading < 0) = true then
        -(natural (paddedDigits width leading.natAbs) : Int)
        else natural (paddedDigits width leading.natAbs)) = leading := by
      rw [natural_paddedDigits]
      by_cases negative : leading < 0
      · rw [if_pos (decide_eq_true negative)]
        omega
      · rw [if_neg (by simpa using negative)]
        omega
    rw [Written.coefficient, Written.power]
    dsimp only [Written.power?, Option.map_some, Option.getD_some]
    rw [power]
    congr 2
    rw [List.length_cons]
    omega

/-- Digits without the zeros at their end. -/
theorem exists_significant {number : Nat} (positive : number ≠ 0) :
    ∃ c cs zeros, ((digits number).reverse.dropWhile (· = '0')).reverse = c :: cs ∧
      digits number = (c :: cs) ++ List.replicate zeros '0' ∧ IsRow (c :: cs) ∧ c ≠ '0' := by
  obtain ⟨c, cs, shown, nonzero⟩ : ∃ c cs, digits number = c :: cs ∧ c ≠ '0' := by
    have value := natural_digits number
    have head := isWhole_digits number
    generalize digits number = shown at head value
    cases head with
    | zero => exact absurd value.symm positive
    | leading nonzero => exact ⟨_, _, rfl, nonzero⟩
  have row := isRow_digits number
  rw [shown] at row ⊢
  have parts : (c :: cs).rdropWhile (· = '0') ++ (c :: cs).rtakeWhile (· = '0') = c :: cs := by
    rw [List.rdropWhile, List.rtakeWhile, ← List.reverse_append, List.takeWhile_append_dropWhile,
      List.reverse_reverse]
  have zeros := List.eq_replicate_length.mpr fun other member =>
    of_decide_eq_true (List.mem_rtakeWhile_imp (p := (· = '0')) (l := c :: cs) (x := other) member)
  cases kept : (c :: cs).rdropWhile (· = '0') with
  | nil =>
    rw [List.rdropWhile_eq_nil_iff] at kept
    exact absurd (by simpa using kept c List.mem_cons_self) nonzero
  | cons first others =>
    rw [kept] at parts
    have same : first = c := (List.cons.inj parts).1
    exact ⟨first, others, _, kept, by rw [← zeros, parts],
      row.sublist (parts ▸ List.sublist_append_left _ _), same ▸ nonzero⟩

/-- Whatever the layout, a real is written with a fraction or an exponent, and has its value. -/
theorem Layout.exists_written (layout : Layout) (number : Scaled) :
    ∃ written : Written, written.chars = layout.magnitude number ∧
      written.Shows (number.coefficient * 10 ^ number.power)
        ((digits number.coefficient).length + layout.least.natAbs + layout.limit.natAbs + 1) := by
  unfold magnitude
  dsimp only
  split
  · rename_i none
    obtain ⟨written, shown, value, few⟩ := @exists_written_parts ['0'] ['0'] (isRow_replicate 2)
      .zero (by simp)
    have filled := List.length_pos_iff.mpr (digits_ne_nil number.coefficient)
    refine ⟨written, shown, value.trans ?_, few.trans ?_⟩
    · have nothing : natural (['0'] ++ ['0']) = 0 := rfl
      rw [nothing, none, Nat.cast_zero, zero_mul, zero_mul]
    · rw [List.length_append, List.length_singleton]
      omega
  · rename_i positive
    obtain ⟨c, cs, zeros, shown, parts, row, nonzero⟩ := exists_significant positive
    have length : (digits number.coefficient).length = (c :: cs).length + zeros := by
      rw [parts, List.length_append, List.length_replicate]
    have value : (natural (c :: cs) * 10 ^
        (number.power + (digits number.coefficient).length - 1 + 1 - (c :: cs).length) : ℚ) =
          number.coefficient * 10 ^ number.power := by
      have whole : number.coefficient = 10 ^ zeros * natural (c :: cs) := by
        rw [← natural_digits number.coefficient, parts, natural_append, natural_replicate,
          List.length_replicate, add_zero]
      have power : number.power + (digits number.coefficient).length - 1 + 1 - (c :: cs).length =
          number.power + (zeros : Nat) := by
        rw [length]
        push_cast
        ring
      rw [power, zpow_add₀ (by norm_num), zpow_natCast, whole]
      push_cast
      ring
    rw [shown, ← value]
    split
    · obtain ⟨written, shown, value, few⟩ := exists_written_pointed row nonzero
        (number.power + (digits number.coefficient).length - 1 + 1)
      exact ⟨written, shown, value, few.trans (by omega)⟩
    · obtain ⟨written, shown, value, few⟩ := exists_written_exponential row nonzero
        layout.exponentWidth (number.power + (digits number.coefficient).length - 1)
      exact ⟨written, shown, value, few.trans (by omega)⟩

end Settlement.Decimal
