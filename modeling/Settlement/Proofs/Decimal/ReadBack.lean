import Settlement.Proofs.Decimal.Shortest
import Settlement.Proofs.Decimal.Written
/-!
Written reals are read back: what a number is written as is read as that number, of whatever size
or kind it is.
-/
namespace Settlement.Decimal

open Binary64 (IsCanonical IsNear)
open Float.Model (UnpackedFloat)
open Float.Model.UnpackedFloat

variable {x : Float} {number : Binary}

/-! The parts of a number. -/

def sign (negative : Bool) : Sign := if negative then .negative else .positive

theorem ofBitVec_unpackSign (bits : BitVec 64) :
    Sign.ofBitVec (@unpackSign .binary64 bits) = sign (decide (bits.toNat / 2 ^ 63 = 1)) := by
  have bound := bits.isLt
  have first : (@unpackSign .binary64 bits).toNat = bits.toNat / 2 ^ 63 := by
    rw [unpackSign, BitVec.toNat_cast, BitVec.extractLsb_toNat, Nat.shiftRight_eq_div_pow]
    show bits.toNat / 2 ^ 63 % 2 = _
    omega
  by_cases negative : bits.toNat / 2 ^ 63 = 1
  · have apart : ¬@unpackSign .binary64 bits = 0#1 := by
      intro same
      rw [same, negative] at first
      cases first
    rw [decide_eq_true negative, Sign.ofBitVec, if_neg apart]
    rfl
  · have same : @unpackSign .binary64 bits = 0#1 := by
      apply BitVec.eq_of_toNat_eq
      rw [first, BitVec.toNat_zero]
      omega
    rw [decide_eq_false negative, same]
    rfl

/-- What the bits of a finite number say. -/
theorem unpack_of_ofFloat? (finite : Binary.ofFloat? x = some number) :
    (number.significand = 0 ∧ x.toModel.unpack = .zero (sign number.negative)) ∨
      ∃ canonical : IsCanonical number.significand number.exponent, number.exponent ≤ 971 ∧
        x.toModel.unpack = .finite (sign number.negative) number.significand number.exponent
          canonical.positive := by
  show _ ∧ unpack .binary64 x.toModel.toBits.toBitVec = _ ∨
    ∃ canonical : IsCanonical _ _, _ ∧ unpack .binary64 x.toModel.toBits.toBitVec = _
  obtain ⟨bits, made⟩ : ∃ bits : BitVec 64, bits = x.toModel.toBits.toBitVec := ⟨_, rfl⟩
  have exponent : (@unpackExponent .binary64 bits).toNat = bits.toNat / 2 ^ 52 % 2 ^ 11 := by
    simp [unpackExponent, Nat.shiftRight_eq_div_pow]
  have mantissa : (@unpackMantissa .binary64 bits).toNat = bits.toNat % 2 ^ 52 := by
    simp [unpackMantissa]
  have read : (if bits.toNat / 2 ^ 52 % 2 ^ 11 = 2047 then none
      else if bits.toNat / 2 ^ 52 % 2 ^ 11 = 0 then
        some (Binary.mk (decide (bits.toNat / 2 ^ 63 = 1)) (bits.toNat % 2 ^ 52) (-1074))
      else some ⟨decide (bits.toNat / 2 ^ 63 = 1), 2 ^ 52 + bits.toNat % 2 ^ 52,
        ((bits.toNat / 2 ^ 52 % 2 ^ 11 : Nat) : Int) - 1075⟩) = some number := made ▸ finite
  rw [← made]
  split_ifs at read with full least
  · have inner : @unpackExponent .binary64 bits = 0#11 := by
      apply BitVec.eq_of_toNat_eq
      rw [exponent, least, BitVec.toNat_zero]
    cases read
    dsimp only
    rw [← ofBitVec_unpackSign]
    by_cases none : bits.toNat % 2 ^ 52 = 0
    · refine .inl ⟨none, Binary64.unpack_nothing inner ?_⟩
      apply BitVec.eq_of_toNat_eq
      rw [mantissa, none, BitVec.toNat_zero]
    · refine .inr ⟨⟨by omega, by omega, le_rfl, .inl rfl⟩, by decide, ?_⟩
      refine (Binary64.unpack_subnormal inner ?_).trans (Binary64.finite_congr rfl mantissa rfl)
      rw [mantissa]
      omega
  · cases read
    dsimp only
    rw [← ofBitVec_unpackSign]
    refine .inr ⟨⟨by omega, by omega, by omega, .inr (by omega)⟩, by omega, ?_⟩
    refine (Binary64.unpack_normal ⟨?_, ?_⟩).trans
      (Binary64.finite_congr rfl (mantissa ▸ rfl) (exponent ▸ rfl))
    · intro same
      rw [same] at exponent
      exact least exponent.symm
    · intro same
      rw [same] at exponent
      exact full exponent.symm

/-! The nearest number. -/

variable {coefficient : Nat} {power : Int} {mantissa : Nat} {exponent : Int}

private theorem two_pow_lt : 2 ^ 1075 < 10 ^ 331 ∧ 2 ^ 1024 < 10 ^ 310 := by decide +kernel

/-- What is near a number is read as it. -/
theorem nearest_eq (canonical : IsCanonical mantissa exponent) (bounded : exponent ≤ 971)
    (unpacked : x.toModel.unpack = .finite .positive mantissa exponent canonical.positive)
    (positive : 0 < coefficient) (bits : coefficient.log2 < 2200)
    (near : IsNear mantissa exponent (coefficient * 10 ^ power)) :
    nearest coefficient power = x := by
  obtain ⟨low, high⟩ := Binary64.bounds_of_isNear canonical bounded near
  obtain ⟨least, most⟩ := digitCount_bounds positive bits
  obtain ⟨count, counted⟩ : ∃ count, digitCount coefficient = count + 1 := by
    refine Nat.exists_eq_add_one.mpr (Nat.pos_of_ne_zero fun none => ?_)
    rw [none, pow_zero] at most
    omega
  rw [counted] at least most
  rw [Nat.add_sub_cancel] at least
  have scale : (0 : ℚ) < 10 ^ power := zpow_pos (by norm_num) _
  have above : -330 ≤ (count + 1 : Nat) + power := by
    by_contra! less
    have below : (coefficient * 10 ^ power : ℚ) < 10 ^ (-331 : Int) := by
      calc (coefficient * 10 ^ power : ℚ) < 10 ^ (count + 1) * 10 ^ power :=
            mul_lt_mul_of_pos_right (by exact_mod_cast most) scale
        _ = 10 ^ ((count + 1 : Nat) + power) := by
            rw [zpow_add₀ (by norm_num), zpow_natCast]
        _ ≤ 10 ^ (-331 : Int) := zpow_le_zpow_right₀ (by norm_num) (by omega)
    have small : (10 : ℚ) ^ (-331 : Int) < 2 ^ (-1075 : Int) := by
      rw [zpow_neg, zpow_neg, zpow_ofNat, zpow_ofNat]
      exact inv_strictAnti₀ (by positivity) (by exact_mod_cast two_pow_lt.1)
    exact absurd (low.trans_lt (below.trans small)) (lt_irrefl _)
  have below : (count + 1 : Nat) + power ≤ 310 := by
    by_contra! more
    have above : (10 : ℚ) ^ (310 : Int) ≤ coefficient * 10 ^ power := by
      calc (10 : ℚ) ^ (310 : Int) ≤ 10 ^ (count + power) :=
            zpow_le_zpow_right₀ (by norm_num) (by omega)
        _ = 10 ^ count * 10 ^ power := by
            rw [zpow_add₀ (by norm_num), zpow_natCast]
        _ ≤ coefficient * 10 ^ power :=
            mul_le_mul_of_nonneg_right (by exact_mod_cast least) scale.le
    have large : (2 : ℚ) ^ (1024 : Int) < 10 ^ (310 : Int) := by
      rw [zpow_ofNat, zpow_ofNat]
      exact_mod_cast two_pow_lt.2
    exact absurd (above.trans_lt (high.trans large)) (lt_irrefl _)
  unfold nearest
  dsimp only
  rw [counted, if_neg (by omega), if_neg (by omega)]
  exact Binary64.ofScientific_eq canonical bounded unpacked positive near

/-- The sign alone is turned. -/
theorem withSign_eq {y : Float} {negative : Bool} (shape : Sign → UnpackedFloat)
    (turned : (shape .positive).neg = shape .negative)
    (unpacked : x.toModel.unpack = shape (sign negative))
    (plain : y.toModel.unpack = shape .positive) : withSign negative y = x := by
  cases negative with
  | false =>
    exact (Binary64.eq_of_unpack plain).symm.trans (Binary64.eq_of_unpack unpacked)
  | true =>
    have negated : x.toModel.unpack = y.toModel.unpack.neg := by
      rw [plain, turned]
      exact unpacked
    exact Binary64.eq_of_unpack negated

/-- A finite number is what the digits of its shortest decimal are read as. -/
theorem withSign_nearest (finite : Binary.ofFloat? x = some number)
    (value : (coefficient * 10 ^ power : ℚ) =
      number.shortest.coefficient * 10 ^ number.shortest.power)
    (bits : coefficient.log2 < 2200) :
    withSign number.negative (nearest coefficient power) = x := by
  obtain ⟨none, unpacked⟩ | ⟨canonical, bounded, unpacked⟩ := unpack_of_ofFloat? finite
  · have shortest : number.shortest = ⟨0, 0⟩ := if_pos none
    have nothing : coefficient = 0 := by
      rw [shortest, Nat.cast_zero, zero_mul] at value
      have zero := (mul_eq_zero.mp value).resolve_right (zpow_ne_zero _ (by norm_num))
      exact_mod_cast zero
    have zero : nearest coefficient power = 0.0 := if_pos (.inl nothing)
    rw [zero]
    exact withSign_eq .zero rfl unpacked rfl
  · obtain ⟨near, positive, _⟩ := number.shortest_isNear canonical bounded
    have plain := Binary64.unpack_pack canonical bounded .positive
    have filled : 0 < coefficient := by
      refine Nat.pos_of_ne_zero fun none => ?_
      rw [none, Nat.cast_zero, zero_mul] at value
      exact absurd value.symm (mul_ne_zero (by exact_mod_cast positive.ne')
        (zpow_ne_zero _ (by norm_num)))
    rw [← value] at near
    have read := @nearest_eq (.ofModel (.pack _)) _ _ _ _ canonical bounded plain filled bits near
    rw [read]
    exact withSign_eq (.finite · _ _ canonical.positive) rfl unpacked plain

theorem length_digits_shortest (finite : Binary.ofFloat? x = some number) :
    (digits number.shortest.coefficient).length ≤ 18 := by
  rw [digits, Nat.length_toDigits_le_iff (by decide) (by decide)]
  obtain ⟨none, _⟩ | ⟨canonical, bounded, _⟩ := unpack_of_ofFloat? finite
  · have shortest : number.shortest = ⟨0, 0⟩ := if_pos none
    rw [shortest]
    decide
  · exact (number.shortest_isNear canonical bounded).2.2

/-- A finite number has the same text in all places, apart from the names of the special values, and
that is read back. -/
theorem exists_written_of_finite (finite : Binary.ofFloat? x = some number) :
    ∃ written : Written, shortest x = String.ofList (signed number.negative written.chars) ∧
      Layout.document.write x = String.ofList (signed number.negative written.chars) ∧
      withSign number.negative written.magnitude = x := by
  obtain ⟨written, same, shows⟩ := Layout.plain.exists_written number.shortest
  refine ⟨written, ?_, ?_, withSign_nearest finite shows.value ?_⟩
  · rw [shortest, Layout.write, finite, same]
  · rw [Layout.write, finite, same]
    rfl
  · have few := length_digits_shortest finite
    have bits := shows.log2_coefficient_lt (by simp only [Layout.plain]; omega)
    omega

/-- The shortest text of a number reads back as the number. -/
theorem read?_shortest (x : Float) : read? (shortest x) = some x := by
  cases finite : Binary.ofFloat? x with
  | some number =>
    obtain ⟨written, shown, _, same⟩ := exists_written_of_finite finite
    rw [shown, written.read?_signed, same]
  | none =>
    rcases Binary64.special_of_ofFloat?_eq_none finite with rfl | rfl | rfl <;> decide +kernel

end Settlement.Decimal
