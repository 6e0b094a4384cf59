import Settlement.Proofs.Binary64
/-!
Signs of binary64 numbers. What is not below zero, among it what is no number, stays so under sums
and products, and so does what a number of at most one leaves of one. Rounding keeps signs.
-/
namespace Settlement.Binary64

open Float.Model (UnpackedFloat)
open Float.Model.UnpackedFloat

/-- Nothing with a minus sign, but for zero. -/
def isUnsigned : UnpackedFloat → Bool
  | .infinity .negative => false
  | .finite .negative .. => false
  | _ => true

section unpacked

variable {u v : UnpackedFloat}

theorem lt_zero_eq : u.lt (.zero .positive) = !isUnsigned u := by
  cases u with
  | infinity sign => cases sign <;> rfl
  | notANumber => rfl
  | zero sign => cases sign <;> rfl
  | finite sign mantissa exponent positive => cases sign <;> rfl

/-- Bits without a minus sign. -/
theorem isUnsigned_unpack {bits : BitVec Float.Model.Format.binary64.numBits}
    (sign : unpackSign bits = Sign.positive.toBitVec) : isUnsigned (unpack .binary64 bits) := by
  have positive : Sign.ofBitVec (unpackSign bits) = .positive := by
    rw [sign]
    rfl
  unfold unpack
  dsimp only
  rw [positive]
  split_ifs <;> rfl

theorem isUnsigned_unpack_pack (unsigned : isUnsigned u) :
    isUnsigned (unpack .binary64 (pack .binary64 u)) := by
  cases u with
  | infinity sign =>
    cases sign with
    | negative => cases unsigned
    | positive => exact isUnsigned_unpack (unpackSign_packComponents _ _ _)
  | notANumber => exact isUnsigned_unpack (unpackSign_packComponents _ _ _)
  | zero sign => cases sign <;> rfl
  | finite sign mantissa exponent positive =>
    cases sign with
    | negative => cases unsigned
    | positive =>
      refine isUnsigned_unpack ?_
      unfold pack
      dsimp only
      split_ifs <;> exact unpackSign_packComponents _ _ _

theorem isUnsigned_roundWithAccuracy (mantissa : Nat) (exponent : Int) (accuracy : Accuracy) :
    isUnsigned (roundWithAccuracy .binary64 .positive mantissa exponent accuracy) := by
  unfold roundWithAccuracy
  dsimp only
  split <;> rfl

theorem isUnsigned_normalize {mantissa : Int} (nonneg : 0 ≤ mantissa) (exponent : Int)
    (sign : Sign) : isUnsigned (UnpackedFloat.normalize .binary64 mantissa exponent sign) := by
  unfold UnpackedFloat.normalize
  split
  · rename_i below
    exact absurd (Int.compare_eq_lt.mp below) (not_lt.mpr nonneg)
  · rfl
  · exact isUnsigned_roundWithAccuracy _ _ _

theorem eq_of_isUnsigned (unsigned : isUnsigned u) :
    u = .notANumber ∨ (∃ sign, u = .zero sign) ∨ u = .infinity .positive ∨
      ∃ mantissa exponent positive, u = .finite .positive mantissa exponent positive := by
  cases u with
  | infinity sign =>
    cases sign with
    | negative => cases unsigned
    | positive => exact .inr (.inr (.inl rfl))
  | notANumber => exact .inl rfl
  | zero sign => exact .inr (.inl ⟨sign, rfl⟩)
  | finite sign mantissa exponent positive =>
    cases sign with
    | negative => cases unsigned
    | positive => exact .inr (.inr (.inr ⟨mantissa, exponent, positive, rfl⟩))

theorem isUnsigned_mul (left : isUnsigned u) (right : isUnsigned v) :
    isUnsigned (mul .binary64 u v) := by
  obtain rfl | ⟨s, rfl⟩ | rfl | ⟨m, e, p, rfl⟩ := eq_of_isUnsigned left <;>
    obtain rfl | ⟨t, rfl⟩ | rfl | ⟨n, f, q, rfl⟩ := eq_of_isUnsigned right <;>
    try rfl
  exact isUnsigned_roundWithAccuracy _ _ _

theorem isUnsigned_add (left : isUnsigned u) (right : isUnsigned v) :
    isUnsigned (add .binary64 u v) := by
  obtain rfl | ⟨s, rfl⟩ | rfl | ⟨m, e, p, rfl⟩ := eq_of_isUnsigned left <;>
    obtain rfl | ⟨t, rfl⟩ | rfl | ⟨n, f, q, rfl⟩ := eq_of_isUnsigned right <;>
    try rfl
  · cases s <;> cases t <;> rfl
  · refine isUnsigned_normalize ?_ _ _
    exact Int.add_nonneg (Int.natCast_nonneg _) (Int.natCast_nonneg _)

theorem mantissa_lt_of_unpack {bits : BitVec Float.Model.Format.binary64.numBits} {sign : Sign}
    {mantissa : Nat} {exponent : Int} {positive : 0 < mantissa}
    (shape : unpack .binary64 bits = .finite sign mantissa exponent positive) :
    mantissa < Nat.pow 2 53 := by
  unfold unpack at shape
  dsimp only at shape
  split_ifs at shape
  · cases shape
    have fits := (unpackMantissa bits).isLt
    exact lt_trans fits (by decide)
  · cases shape
    exact (1#1 ++ unpackMantissa bits).isLt

/-- One, unpacked. -/
def one : UnpackedFloat := .finite .positive (Nat.pow 2 52) (-52) (by decide)

/-- A mantissa fits into its bits, so the number with the greater exponent is the greater one: what
is not above one is not above it either when both are shifted to one place. -/
theorem shifted_le_one {mantissa : Nat} {exponent : Int} (bound : mantissa < Nat.pow 2 53)
    (order : (compare (-52) exponent).then (compare (Nat.pow 2 52) mantissa) ≠ .lt) :
    mantissa <<< (exponent - min (-52) exponent).toNat ≤
      Nat.pow 2 52 <<< (-52 - min (-52) exponent).toNat := by
  rw [Nat.shiftLeft_eq, Nat.shiftLeft_eq]
  rcases lt_trichotomy exponent (-52) with less | rfl | more
  · have shift : (-52 - exponent).toNat = (-53 - exponent).toNat + 1 := by omega
    rw [min_eq_right (le_of_lt less), sub_self, shift, pow_succ]
    rw [Int.toNat_zero, pow_zero, mul_one]
    calc mantissa ≤ Nat.pow 2 52 * 2 := le_of_lt bound
      _ ≤ Nat.pow 2 52 * (2 ^ (-53 - exponent).toNat * 2) :=
        Nat.mul_le_mul_left _ (Nat.le_mul_of_pos_left 2 (Nat.two_pow_pos _))
  · rw [min_self, sub_self, Int.toNat_zero, pow_zero, mul_one, mul_one]
    refine not_lt.mp fun greater => order ?_
    rw [compare_eq_iff_eq.mpr rfl, Ordering.eq_then]
    exact Nat.compare_eq_lt.mpr greater
  · refine absurd ?_ order
    rw [Int.compare_eq_lt.mpr more]
    rfl

/-- What is at most one leaves something of one that is not below zero. -/
theorem isUnsigned_one_sub {bits : BitVec Float.Model.Format.binary64.numBits}
    (most : one.lt (unpack .binary64 bits) = false) :
    isUnsigned (sub .binary64 one (unpack .binary64 bits)) := by
  cases shape : unpack .binary64 bits with
  | notANumber => rfl
  | infinity sign =>
    rw [shape] at most
    cases sign with
    | negative => rfl
    | positive => cases most
  | zero sign => rfl
  | finite sign mantissa exponent positive =>
    cases sign with
    | negative =>
      refine isUnsigned_normalize ?_ _ _
      simp only [Sign.apply, sub_neg_eq_add]
      exact Int.add_nonneg (Int.natCast_nonneg _) (Int.natCast_nonneg _)
    | positive =>
      have bound := mantissa_lt_of_unpack shape
      rw [shape] at most
      have order : (compare (-52) exponent).then (compare (Nat.pow 2 52) mantissa) ≠ .lt := by
        intro less
        have below : one.compare (.finite .positive mantissa exponent positive) = some .lt :=
          congrArg some less
        rw [UnpackedFloat.lt, below] at most
        cases most
      exact isUnsigned_normalize
        (Int.sub_nonneg_of_le (Int.ofNat_le.mpr (shifted_le_one bound order))) _ _

end unpacked

variable {x y : Float}

theorem not_lt_zero_iff : ¬x < 0 ↔ isUnsigned x.toModel.unpack := by
  rw [lt_iff, unpack_zero, lt_zero_eq]
  simp

/-- Of numbers, those that are not below zero are at least zero. -/
theorem not_lt_zero_iff_nonneg (number : x.isNaN = false) : ¬x < 0 ↔ 0 ≤ x := by
  rw [not_lt_zero_iff, le_iff, unpack_zero]
  cases shape : x.toModel.unpack with
  | notANumber => exact absurd (congrArg UnpackedFloat.isNaN shape) (Bool.eq_false_iff.mp number)
  | zero sign => cases sign <;> rfl
  | infinity sign => cases sign <;> rfl
  | finite sign mantissa exponent positive => cases sign <;> rfl

theorem not_mul_lt_zero (left : ¬x < 0) (right : ¬y < 0) : ¬x * y < 0 := by
  rw [not_lt_zero_iff] at left right ⊢
  exact isUnsigned_unpack_pack (isUnsigned_mul left right)

theorem not_add_lt_zero (left : ¬x < 0) (right : ¬y < 0) : ¬x + y < 0 := by
  rw [not_lt_zero_iff] at left right ⊢
  exact isUnsigned_unpack_pack (isUnsigned_add left right)

theorem not_one_sub_lt_zero (most : ¬1 < x) : ¬1 - x < 0 := by
  rw [lt_iff] at most
  rw [not_lt_zero_iff]
  exact isUnsigned_unpack_pack (isUnsigned_one_sub (Bool.eq_false_iff.mpr most))

/-- What is above something that is not below zero is not below zero. -/
theorem not_lt_zero_of_lt (low : ¬x < 0) (above : x < y) : ¬y < 0 := by
  rw [lt_iff] at above
  rw [not_lt_zero_iff] at low ⊢
  generalize x.toModel.unpack = u at low above
  generalize y.toModel.unpack = v at above ⊢
  cases v with
  | notANumber => rfl
  | zero sign => rfl
  | infinity sign =>
    cases sign with
    | positive => rfl
    | negative =>
      obtain rfl | ⟨s, rfl⟩ | rfl | ⟨m, e, p, rfl⟩ := eq_of_isUnsigned low <;> cases above
  | finite sign mantissa exponent positive =>
    cases sign with
    | positive => rfl
    | negative =>
      obtain rfl | ⟨s, rfl⟩ | rfl | ⟨m, e, p, rfl⟩ := eq_of_isUnsigned low <;> cases above

theorem isUnsigned_of_toBits (sign : x.toBits.toNat / Nat.pow 2 63 ≠ 1) :
    isUnsigned x.toModel.unpack := by
  refine isUnsigned_unpack (BitVec.eq_of_toNat_eq ?_)
  have bound : x.toModel.toBits.toNat < 2 ^ 64 := x.toModel.toBits.toNat_lt
  have apart : x.toModel.toBits.toNat / 2 ^ 63 ≠ 1 := sign
  rw [unpackSign, BitVec.toNat_cast, BitVec.extractLsb_toNat, Nat.shiftRight_eq_div_pow]
  show x.toModel.toBits.toNat / 2 ^ 63 % 2 = 0
  omega

theorem value_nonpos_of_negative {number : Decimal.Binary} (negative : number.negative = true) :
    number.value ≤ 0 := by
  rw [Decimal.Binary.value, if_pos negative, Rat.mkRat_eq_div]
  refine div_nonpos_of_nonpos_of_nonneg ?_ (by exact_mod_cast Nat.zero_le _)
  exact_mod_cast mul_nonpos_of_nonpos_of_nonneg (by omega) (by exact_mod_cast Nat.zero_le _)

/-- What is above a whole number that is not below zero is not below zero. -/
theorem not_lt_zero_of_isAbove {whole : Int} (low : 0 ≤ whole) (above : isAbove x whole = true) :
    ¬x < 0 := by
  unfold isAbove at above
  split at above
  · rename_i number read
    have positive : 0 < number.value :=
      lt_of_le_of_lt (by exact_mod_cast low) (of_decide_eq_true above)
    rw [not_lt_zero_iff]
    refine isUnsigned_of_toBits fun sign => ?_
    have negative : number.negative = true := by
      unfold Decimal.Binary.ofFloat? at read
      dsimp only at read
      split_ifs at read
      · cases read
        exact decide_eq_true sign
      · cases read
        exact decide_eq_true sign
    exact not_lt.mpr (value_nonpos_of_negative negative) positive
  · have zero : ¬(0 : Float) < 0 := by decide +kernel
    exact not_lt_zero_of_lt zero (of_decide_eq_true above)

end Settlement.Binary64
