import Settlement.Proofs.Binary64.Rounding
/-!
The binary64 number nearest to a decimal.
-/
namespace Settlement.Binary64

open Float.Model (UnpackedFloat Format totalExponent)
open Float.Model.UnpackedFloat

variable {mantissa : Nat} {exponent : Int}

/-! Packing. -/

theorem finite_congr {sign other : Sign} {m n : Nat} {e f : Int} {left : 0 < m} {right : 0 < n}
    (signs : sign = other) (mantissas : m = n) (exponents : e = f) :
    UnpackedFloat.finite sign m e left = .finite other n f right := by
  subst signs mantissas exponents
  rfl

section bits

variable {bits : BitVec Format.binary64.numBits} {sign : Sign}

/-- The first bit of most mantissas is left out. -/
theorem unpack_normal (inner : unpackExponent bits ≠ 0#11 ∧ unpackExponent bits ≠ -1#11) :
    unpack .binary64 bits = .finite (.ofBitVec (unpackSign bits))
      (2 ^ 52 + (unpackMantissa bits).toNat) ((unpackExponent bits).toNat - 1075)
      (by positivity) := by
  have joined (fraction : BitVec 52) : (1#1 ++ fraction).toNat = 2 ^ 52 + fraction.toNat := by
    rw [BitVec.toNat_append]
    exact (Nat.two_pow_add_eq_or_of_lt fraction.isLt 1).symm
  unfold unpack
  dsimp only
  rw [if_neg inner.2, if_neg inner.1]
  exact finite_congr rfl (joined _) rfl

theorem unpack_subnormal (least : unpackExponent bits = 0#11)
    (positive : 0 < (unpackMantissa bits).toNat) :
    unpack .binary64 bits = .finite (.ofBitVec (unpackSign bits)) (unpackMantissa bits).toNat
      (-1074) positive := by
  have apart : ¬(0#11 = -1#11) := by decide
  have filled : unpackMantissa bits ≠ 0#52 := by
    intro none
    rw [none] at positive
    cases positive
  unfold unpack
  dsimp only
  rw [if_neg (least ▸ apart), if_pos least, dif_neg filled]
  refine finite_congr rfl rfl ?_
  rw [least]
  rfl

theorem unpack_nothing (least : unpackExponent bits = 0#11) (none : unpackMantissa bits = 0#52) :
    unpack .binary64 bits = .zero (.ofBitVec (unpackSign bits)) := by
  have apart : ¬(0#11 = -1#11) := by decide
  unfold unpack
  dsimp only
  rw [if_neg (least ▸ apart), if_pos least, dif_pos none]

end bits

theorem ofBitVec_unpackSign_packComponents (sign : Sign) (biased : BitVec 11)
    (fraction : BitVec 52) :
    Sign.ofBitVec (unpackSign (packComponents .binary64 sign biased fraction)) = sign := by
  rw [unpackSign_packComponents, Sign.ofBitVec_toBitVec]

/-- A mantissa with all its bits is packed without the first. -/
theorem unpack_packComponents_normal (full : 2 ^ 52 ≤ mantissa) (fits : mantissa < 2 ^ 53)
    (least : -1074 ≤ exponent) (bounded : exponent ≤ 971) (sign : Sign) :
    unpack .binary64 (packComponents .binary64 sign
      (BitVec.ofNat 11 (exponent + 1023 + 52).toNat) (BitVec.ofNat 52 mantissa)) =
        .finite sign mantissa exponent (by omega) := by
  have fraction : (BitVec.ofNat 52 mantissa).toNat = mantissa % 2 ^ 52 := BitVec.toNat_ofNat ..
  have biased : (BitVec.ofNat 11 (exponent + 1023 + 52).toNat).toNat =
      (exponent + 1023 + 52).toNat :=
    (BitVec.toNat_ofNat ..).trans (Nat.mod_eq_of_lt (by omega))
  refine (unpack_normal ?_).trans
    (finite_congr (ofBitVec_unpackSign_packComponents ..) ?_ ?_)
  · rw [unpackExponent_packComponents]
    constructor <;> intro same
    · have value : (exponent + 1023 + 52).toNat = 0 := biased.symm.trans (congrArg _ same)
      omega
    · have value : (exponent + 1023 + 52).toNat = 2047 := biased.symm.trans (congrArg _ same)
      omega
  · rw [unpackMantissa_packComponents]
    show 2 ^ 52 + (BitVec.ofNat 52 mantissa).toNat = mantissa
    omega
  · rw [unpackExponent_packComponents]
    show ((BitVec.ofNat 11 (exponent + 1023 + 52).toNat).toNat : Int) - 1075 = exponent
    omega

/-- A shorter mantissa is packed whole, at the least exponent. -/
theorem unpack_packComponents_subnormal (positive : 0 < mantissa) (short : mantissa < 2 ^ 52)
    (sign : Sign) :
    unpack .binary64 (packComponents .binary64 sign 0#11 (BitVec.ofNat 52 mantissa)) =
      .finite sign mantissa (-1074) positive := by
  have stored : (unpackMantissa (packComponents .binary64 sign 0#11
      (BitVec.ofNat 52 mantissa))).toNat = mantissa := by
    rw [unpackMantissa_packComponents]
    exact (BitVec.toNat_ofNat ..).trans (Nat.mod_eq_of_lt short)
  exact (unpack_subnormal (unpackExponent_packComponents ..) (stored.symm ▸ positive)).trans
    (finite_congr (ofBitVec_unpackSign_packComponents ..) stored rfl)

/-- A number in its own form is what its bits say. -/
theorem unpack_pack (canonical : IsCanonical mantissa exponent) (bounded : exponent ≤ 971)
    (sign : Sign) :
    unpack .binary64 (UnpackedFloat.pack .binary64
      (.finite sign mantissa exponent canonical.positive)) =
        .finite sign mantissa exponent canonical.positive := by
  obtain ⟨positive, fits, least, full⟩ := canonical
  unfold UnpackedFloat.pack
  dsimp only
  rw [if_neg (by show ¬2048 ≤ (exponent + 1023 + 52).toNat + 1; omega)]
  split
  · rename_i bits
    have bits : mantissa.log2 = 52 := Nat.add_right_cancel bits
    exact unpack_packComponents_normal ((Nat.le_log2 positive.ne').mp bits.ge) fits least bounded
      sign
  · rename_i bits
    have short : mantissa < 2 ^ 52 := by
      refine not_le.mp fun filled => bits ?_
      have low : 52 ≤ mantissa.log2 := (Nat.le_log2 positive.ne').mpr filled
      have high : mantissa.log2 < 53 := (Nat.log2_lt positive.ne').mpr fits
      show mantissa.log2 + 1 = 53
      omega
    obtain rfl : exponent = -1074 := full.resolve_right (not_le.mpr short)
    exact unpack_packComponents_subnormal positive short sign

/-! Quotients. -/

theorem standsFor_accuracyOfFraction (quotient : Nat) {rest divisor : Nat} (less : rest < divisor) :
    StandsFor (.ofMantissaAndAccuracy quotient (accuracyOfFraction rest divisor))
      (quotient + rest / divisor) := by
  have positive : (0 : ℚ) < divisor := by exact_mod_cast Nat.zero_lt_of_lt less
  have proper : (rest : ℚ) / divisor < 1 := (div_lt_one positive).mpr (by exact_mod_cast less)
  unfold accuracyOfFraction
  split
  · rename_i none
    subst none
    simp [ExtendedMantissa.ofMantissaAndAccuracy, StandsFor]
  · rename_i some
    have more : (0 : ℚ) < rest / divisor :=
      div_pos (by exact_mod_cast Nat.pos_of_ne_zero some) positive
    cases half : compare (2 * rest) divisor with
    | lt =>
      have less : (2 * rest : ℚ) < divisor := by exact_mod_cast Nat.compare_eq_lt.mp half
      have below : (rest : ℚ) / divisor < 1 / 2 := by
        rw [div_lt_div_iff₀ positive two_pos]
        linarith
      exact ⟨by linarith, by linarith⟩
    | eq =>
      have same : (2 * rest : ℚ) = divisor := by exact_mod_cast Nat.compare_eq_eq.mp half
      have middle : (rest : ℚ) / divisor = 1 / 2 := by
        rw [div_eq_div_iff positive.ne' two_ne_zero]
        linarith
      show (quotient : ℚ) + rest / divisor = quotient + 1 / 2
      rw [middle]
    | gt =>
      have more : (divisor : ℚ) < 2 * rest := by exact_mod_cast Nat.compare_eq_gt.mp half
      have above : 1 / 2 < (rest : ℚ) / divisor := by
        rw [div_lt_div_iff₀ two_pos positive]
        linarith
      exact ⟨by linarith, by linarith⟩

section quotient

variable {m n : Nat} {e f : Int}

/-- The first bit of a quotient stands no lower than the difference of the first bits. -/
theorem lt_quotient (positive : 0 < m) (divisor : 0 < n) :
    (2 : ℚ) ^ (totalExponent m e - totalExponent n f - 1) < m * 2 ^ e / (n * 2 ^ f) := by
  have first : (2 : ℚ) ^ m.log2 ≤ m := by exact_mod_cast Nat.log2_self_le positive.ne'
  have last : (n : ℚ) < 2 ^ (n.log2 + 1) := by exact_mod_cast Nat.lt_log2_self
  have scaled : (0 : ℚ) < n * 2 ^ f := mul_pos (by exact_mod_cast divisor) (two_zpow_pos f)
  have exponents : totalExponent m e - totalExponent n f - 1 + (f + (n.log2 + 1 : Nat)) =
      e + (m.log2 : Nat) := by
    simp only [totalExponent]
    omega
  rw [lt_div_iff₀ scaled]
  calc (2 : ℚ) ^ (totalExponent m e - totalExponent n f - 1) * (n * 2 ^ f)
      < 2 ^ (totalExponent m e - totalExponent n f - 1) * (2 ^ (n.log2 + 1) * 2 ^ f) := by
        gcongr
    _ = 2 ^ m.log2 * 2 ^ e := by
        rw [← two_zpow_add, ← two_zpow_add, ← zpow_add₀ (by norm_num), exponents]
    _ ≤ m * 2 ^ e := by gcongr

theorem standsFor_divCore (positive : 0 < m) (divisor : 0 < n) :
    ∃ quotient power accuracy, divCore .binary64 m e n f = (quotient, power, accuracy) ∧
      StandsFor (.ofMantissaAndAccuracy quotient accuracy) (m * 2 ^ e / (n * 2 ^ f) / 2 ^ power) ∧
      power ≤ Format.binary64.targetExponent (totalExponent quotient power) := by
  generalize target : totalExponent m e - totalExponent n f = total
  obtain ⟨power, chosen⟩ : ∃ power, power = min (e - f)
    (Format.binary64.targetExponent total) := ⟨_, rfl⟩
  obtain ⟨shifted, made⟩ : ∃ shifted, shifted = m <<< (e - f - power).toNat := ⟨_, rfl⟩
  have value : (m : ℚ) * 2 ^ e / (n * 2 ^ f) / 2 ^ power = shifted / n := by
    have exponents : e = f + power + (e - f - power).toNat := by omega
    have powers : (2 : ℚ) ^ e = 2 ^ (e - f - power).toNat * (2 ^ f * 2 ^ power) := by
      rw [← zpow_add₀ (by norm_num), ← two_zpow_add, ← exponents]
    have filled : (n : ℚ) ≠ 0 := by exact_mod_cast divisor.ne'
    rw [made, Nat.shiftLeft_eq, powers]
    push_cast
    field_simp
  have parts : (shifted : ℚ) / n = (shifted / n : ℕ) + (shifted % n : ℕ) / n := by
    have whole : (n : ℚ) * (shifted / n : ℕ) + (shifted % n : ℕ) = shifted := by
      exact_mod_cast Nat.div_add_mod shifted n
    have filled : (n : ℚ) ≠ 0 := by exact_mod_cast divisor.ne'
    rw [← whole]
    field_simp
  have standsFor : StandsFor (.ofMantissaAndAccuracy (shifted / n)
      (accuracyOfFraction (shifted % n) n)) (m * 2 ^ e / (n * 2 ^ f) / 2 ^ power) := by
    rw [value, parts]
    exact standsFor_accuracyOfFraction _ (Nat.mod_lt _ divisor)
  refine ⟨shifted / n, power, accuracyOfFraction (shifted % n) n, ?_, standsFor, ?_⟩
  · rw [divCore, target, ← chosen, made]
  · have first : (2 : ℚ) ^ (total - 1) < m * 2 ^ e / (n * 2 ^ f) :=
      target ▸ lt_quotient positive divisor
    obtain ⟨low, high⟩ := standsFor.bounds
    rw [targetExponent_eq] at chosen ⊢
    rcases Nat.eq_zero_or_pos (shifted / n) with none | some
    · rw [none] at high ⊢
      have less : (2 : ℚ) ^ (total - 1) < 2 ^ power := by
        refine lt_trans first ?_
        simpa using high
      have order := lt_of_two_zpow_lt less
      have last : totalExponent 0 power = 1 + power := rfl
      omega
    · have last := (binade_of_floor some low high).2
      have order := lt_of_two_zpow_lt (lt_trans first last)
      omega

end quotient

section operations

variable {m n : Nat} {e f : Int} {left : 0 < m} {right : 0 < n}

theorem div_eq (canonical : IsCanonical mantissa exponent)
    (near : IsNear mantissa exponent (m * 2 ^ e / (n * 2 ^ f))) :
    UnpackedFloat.div .binary64 (.finite .positive m e left) (.finite .positive n f right) =
      .finite .positive mantissa exponent canonical.positive := by
  obtain ⟨quotient, power, accuracy, divided, standsFor, fine⟩ :=
    @standsFor_divCore m n e f left right
  rw [UnpackedFloat.div, divided]
  exact roundWithAccuracy_eq canonical near standsFor fine .positive

theorem mul_eq (canonical : IsCanonical mantissa exponent)
    (near : IsNear mantissa exponent (m * 2 ^ e * (n * 2 ^ f))) (full : 2 ^ 52 ≤ m * n) :
    UnpackedFloat.mul .binary64 (.finite .positive m e left) (.finite .positive n f right) =
      .finite .positive mantissa exponent canonical.positive := by
  have filled : m * n ≠ 0 := (Nat.mul_pos left right).ne'
  have bits : 52 ≤ (m * n).log2 := (Nat.le_log2 filled).mpr full
  have point : (m * 2 ^ e * (n * 2 ^ f) : ℚ) / 2 ^ (e + f) = (m * n : ℕ) := by
    rw [zpow_add₀ (by norm_num)]
    push_cast
    field_simp
  rw [UnpackedFloat.mul]
  refine roundWithAccuracy_eq canonical near ?_ ?_ .positive
  · exact point
  · rw [targetExponent_eq, totalExponent]
    omega

end operations

theorem eq_of_unpack {x : Float} {shape : UnpackedFloat} (unpacked : x.toModel.unpack = shape) :
    Float.ofModel (Float.Model.pack shape) = x := by
  subst unpacked
  refine Float.toBits_inj.mp (UInt64.toBitVec_inj.mp ?_)
  exact pack_unpack_of_valid x.toModel.valid

/-! Exact numbers. -/

theorem isNear_self (mantissa : Nat) (exponent : Int) :
    IsNear mantissa exponent (mantissa * 2 ^ exponent) := by
  have place : (mantissa * 2 ^ exponent : ℚ) / 2 ^ exponent = mantissa :=
    mul_div_cancel_right₀ _ (two_zpow_pos exponent).ne'
  refine ⟨?_, ?_, ?_⟩
  · rw [place]
    split_ifs <;> linarith
  · rw [place]
    linarith
  · rw [place]
    exact fun _ => ⟨by linarith, by linarith⟩

theorem standsFor_self (mantissa : Nat) (exponent : Int) :
    StandsFor (.ofMantissaAndAccuracy mantissa .exact) (mantissa * 2 ^ exponent / 2 ^ exponent) :=
  mul_div_cancel_right₀ _ (two_zpow_pos exponent).ne'

theorem roundWithAccuracy_self (canonical : IsCanonical mantissa exponent) (sign : Sign) :
    roundWithAccuracy .binary64 sign mantissa exponent .exact =
      .finite sign mantissa exponent canonical.positive :=
  roundWithAccuracy_eq canonical (isNear_self _ _) (standsFor_self _ _)
    canonical.targetExponent.ge sign

/-- A whole number that all bits of a mantissa can hold. -/
def IsExactly (x : Float) (whole : Nat) : Prop :=
  ∃ mantissa exponent positive, x.toModel.unpack = .finite .positive mantissa exponent positive ∧
    2 ^ 52 ≤ mantissa ∧ (mantissa * 2 ^ exponent : ℚ) = whole

theorem round_whole {whole : Nat} (positive : 0 < whole) (fits : whole < 2 ^ 53) :
    ∃ mantissa exponent, ∃ canonical : IsCanonical mantissa exponent, exponent ≤ 0 ∧
      2 ^ 52 ≤ mantissa ∧ (mantissa * 2 ^ exponent : ℚ) = whole ∧
      UnpackedFloat.round .binary64 .positive whole 0 =
        .finite .positive mantissa exponent canonical.positive := by
  have low : 2 ^ whole.log2 ≤ whole := Nat.log2_self_le positive.ne'
  have high : whole < 2 ^ (whole.log2 + 1) := Nat.lt_log2_self
  have bits : whole.log2 < 53 := (Nat.log2_lt positive.ne').mpr fits
  obtain ⟨count, width⟩ : ∃ count, whole.log2 + count = 52 := ⟨52 - whole.log2, by omega⟩
  have target : Format.binary64.targetExponent (totalExponent whole 0) = -count := by
    rw [targetExponent_eq, totalExponent]
    omega
  have filled : 2 ^ 52 ≤ whole <<< count := by
    rw [Nat.shiftLeft_eq, ← width, pow_add]
    exact Nat.mul_le_mul_right _ low
  have canonical : IsCanonical (whole <<< count) (-count) := by
    refine ⟨by omega, ?_, by omega, .inr filled⟩
    have top : 2 ^ 53 = 2 ^ (whole.log2 + 1) * 2 ^ count := by
      rw [← pow_add]
      congr 1
      omega
    rw [Nat.shiftLeft_eq, top]
    exact Nat.mul_lt_mul_of_pos_right high (Nat.two_pow_pos _)
  have value : ((whole <<< count : ℕ) * 2 ^ (-count : ℤ) : ℚ) = whole := by
    rw [Nat.shiftLeft_eq, zpow_neg, zpow_natCast]
    push_cast
    field_simp
  refine ⟨_, _, canonical, by omega, filled, value, ?_⟩
  have shift : (0 - (-count : Int)).toNat = count := by omega
  rw [UnpackedFloat.round, target, decreaseExponent, shift, zero_sub]
  exact roundWithAccuracy_self canonical .positive

theorem isExactly_toFloat {whole : Nat} (positive : 0 < whole) (fits : whole < 2 ^ 53) :
    IsExactly whole.toUInt64.toFloat whole := by
  obtain ⟨mantissa, exponent, canonical, bounded, full, value, rounded⟩ :=
    round_whole positive fits
  refine ⟨mantissa, exponent, canonical.positive, ?_, full, value⟩
  have same : whole.toUInt64.toNat = whole := UInt64.toNat_ofNat_of_lt (by
    rw [UInt64.size]
    omega)
  have above : compare (whole : Int) 0 = .gt := Int.compare_eq_gt.mpr (by omega)
  have made : ofUInt64 .binary64 whole.toUInt64 =
      .finite .positive mantissa exponent canonical.positive := by
    rw [ofUInt64, UnpackedFloat.ofNat, same, UnpackedFloat.ofInt, UnpackedFloat.normalize, above]
    exact rounded
  show unpack .binary64 (UnpackedFloat.pack .binary64 (ofUInt64 .binary64 whole.toUInt64)) = _
  rw [made]
  exact unpack_pack canonical (by omega) .positive

/-- What the bits of a number say, if they say a whole number with a full mantissa. -/
def tells (x : Float) (whole : Nat) : Bool :=
  match x.toModel.unpack with
  | .finite .positive mantissa exponent _ =>
    2 ^ 52 ≤ mantissa && mantissa * 2 ^ exponent.toNat = whole * 2 ^ (-exponent).toNat
  | _ => false

theorem zpow_eq_div {base : ℚ} (nonzero : base ≠ 0) (power : Int) :
    base ^ power = base ^ power.toNat / base ^ (-power).toNat := by
  have parts : power = (power.toNat : Int) - ((-power).toNat : Int) := by omega
  nth_rewrite 1 [parts]
  rw [zpow_sub₀ nonzero, zpow_natCast, zpow_natCast]

theorem isExactly_of_tells {x : Float} {whole : Nat} (told : tells x whole = true) :
    IsExactly x whole := by
  unfold tells at told
  split at told
  · rename_i mantissa exponent positive shape
    rw [Bool.and_eq_true, decide_eq_true_iff, decide_eq_true_iff] at told
    obtain ⟨full, value⟩ := told
    refine ⟨mantissa, exponent, positive, shape, full, ?_⟩
    rw [zpow_eq_div two_ne_zero, mul_div_assoc', div_eq_iff (by positivity)]
    exact_mod_cast value
  · cases told

/-- The first powers of ten are exact. -/
theorem isExactly_powerOfTen {power : Nat} (small : power < 23) :
    IsExactly Float.exactlyRepresentablePowersOfTen[power] (10 ^ power) := by
  have told : ∀ power : Fin 23,
      tells Float.exactlyRepresentablePowersOfTen[power] (10 ^ power.val) = true := by
    decide +kernel
  exact isExactly_of_tells (told ⟨power, small⟩)

/-! Decimals. -/

variable {x y : Float} {m n : Nat}

theorem mul_eq_of_isExactly (canonical : IsCanonical mantissa exponent) {z : Float}
    (unpacked : z.toModel.unpack = .finite .positive mantissa exponent canonical.positive)
    (left : IsExactly x m) (right : IsExactly y n) (near : IsNear mantissa exponent (m * n)) :
    x * y = z := by
  obtain ⟨a, e, ha, shape, full, value⟩ := left
  obtain ⟨b, f, hb, other, more, worth⟩ := right
  rw [← value, ← worth] at near
  have filled : 2 ^ 52 ≤ a * b := full.trans (Nat.le_mul_of_pos_right a hb)
  have product : UnpackedFloat.mul .binary64 x.toModel.unpack y.toModel.unpack =
      z.toModel.unpack := by
    rw [shape, other, unpacked]
    exact mul_eq canonical near filled
  exact eq_of_unpack product.symm

theorem div_eq_of_isExactly (canonical : IsCanonical mantissa exponent) {z : Float}
    (unpacked : z.toModel.unpack = .finite .positive mantissa exponent canonical.positive)
    (left : IsExactly x m) (right : IsExactly y n) (near : IsNear mantissa exponent (m / n)) :
    x / y = z := by
  obtain ⟨a, e, ha, shape, _, value⟩ := left
  obtain ⟨b, f, hb, other, _, worth⟩ := right
  rw [← value, ← worth] at near
  have quotient : UnpackedFloat.div .binary64 x.toModel.unpack y.toModel.unpack =
      z.toModel.unpack := by
    rw [shape, other, unpacked]
    exact div_eq canonical near
  exact eq_of_unpack quotient.symm

/-- What is rounded to a finite number that is not zero is of its magnitude. -/
theorem bounds_of_isNear {value : ℚ} (canonical : IsCanonical mantissa exponent)
    (bounded : exponent ≤ 971) (near : IsNear mantissa exponent value) :
    (2 : ℚ) ^ (-1075 : Int) ≤ value ∧ value < 2 ^ (1024 : Int) := by
  obtain ⟨positive, fits, least, _⟩ := canonical
  obtain ⟨low, high, _⟩ := near
  have scale := two_zpow_pos exponent
  have first : (1 : ℚ) ≤ mantissa := by exact_mod_cast positive
  have last : (mantissa : ℚ) + 1 ≤ 2 ^ 53 := by exact_mod_cast fits
  have placed : value = value / 2 ^ exponent * 2 ^ exponent := by field_simp
  have half : 1 / 2 ≤ value / 2 ^ exponent := by
    split_ifs at low <;> linarith
  have top : value / 2 ^ exponent < 2 ^ 53 := by linarith
  constructor
  · calc (2 : ℚ) ^ (-1075 : Int) ≤ 2 ^ (exponent - 1) :=
          zpow_le_zpow_right₀ (by norm_num) (by omega)
      _ = 1 / 2 * 2 ^ exponent := by
        rw [zpow_sub_one₀ (by norm_num)]
        ring
      _ ≤ value / 2 ^ exponent * 2 ^ exponent := by gcongr
      _ = value := placed.symm
  · calc value = value / 2 ^ exponent * 2 ^ exponent := placed
      _ < 2 ^ 53 * 2 ^ exponent := by gcongr
      _ = 2 ^ (exponent + (53 : Nat)) := (two_zpow_add exponent 53).symm
      _ ≤ 2 ^ (1024 : Int) := zpow_le_zpow_right₀ (by norm_num) (by omega)

section scientific

variable {coefficient : Nat} {power : Int}

theorem power_le_of_isNear (positive : 0 < coefficient)
    (high : (coefficient * 10 ^ power : ℚ) < 2 ^ (1024 : Int)) : power ≤ 1024 := by
  by_contra! large
  have first : (1 : ℚ) ≤ coefficient := by exact_mod_cast positive
  have grows : (2 : ℚ) ^ power ≤ 10 ^ power :=
    zpow_le_zpow_left₀ (by omega) (by norm_num) (by norm_num)
  have less : (2 : ℚ) ^ power < 2 ^ (1024 : Int) := by
    have scaled : (10 : ℚ) ^ power ≤ coefficient * 10 ^ power :=
      le_mul_of_one_le_left (by positivity) first
    exact lt_of_le_of_lt (grows.trans scaled) high
  have order := lt_of_two_zpow_lt less
  omega

theorem le_power_of_isNear (low : (2 : ℚ) ^ (-1075 : Int) ≤ coefficient * 10 ^ power) :
    -(1076 + (coefficient.log2 : Int)) ≤ power := by
  by_contra! small
  have bits : (coefficient : ℚ) < 2 ^ (coefficient.log2 + 1) := by
    exact_mod_cast Nat.lt_log2_self
  have falls : (10 : ℚ) ^ power ≤ 2 ^ power := by
    obtain ⟨count, rfl⟩ : ∃ count : Nat, power = -count := ⟨(-power).toNat, by omega⟩
    rw [zpow_neg, zpow_neg, zpow_natCast, zpow_natCast]
    gcongr
    norm_num
  have less : (2 : ℚ) ^ (-1075 : Int) < 2 ^ (power + (coefficient.log2 + 1 : Nat)) := by
    calc (2 : ℚ) ^ (-1075 : Int) ≤ coefficient * 10 ^ power := low
      _ < 2 ^ (coefficient.log2 + 1) * 10 ^ power := by gcongr
      _ ≤ 2 ^ (coefficient.log2 + 1) * 2 ^ power := by gcongr
      _ = 2 ^ (power + (coefficient.log2 + 1 : Nat)) := (two_zpow_add _ _).symm
  have order := lt_of_two_zpow_lt less
  omega

/-- The exact way to the nearest number. -/
theorem unpacked_ofScientific (canonical : IsCanonical mantissa exponent)
    (bounded : exponent ≤ 971) (positive : 0 < coefficient)
    (near : IsNear mantissa exponent (coefficient * 10 ^ power)) :
    UnpackedFloat.ofScientific .binary64 coefficient power =
      .finite .positive mantissa exponent canonical.positive := by
  obtain ⟨low, high⟩ := bounds_of_isNear canonical bounded near
  have most := power_le_of_isNear positive high
  have least := le_power_of_isNear low
  unfold UnpackedFloat.ofScientific
  rw [dif_neg positive.ne', if_neg (by show ¬power > 2048; omega),
    if_neg (by show ¬power < -(2048 + (coefficient.log2 : Int)); omega)]
  split
  · rename_i nonneg
    have value : ((coefficient <<< 53 : ℕ) * 2 ^ (-(53 : ℕ) : ℤ) *
        ((10 ^ power.toNat : ℕ) * 2 ^ (0 : ℤ)) : ℚ) = coefficient * 10 ^ power := by
      have same : (10 : ℚ) ^ power = 10 ^ power.toNat := by
        rw [← zpow_natCast, Int.toNat_of_nonneg nonneg]
      rw [same, Nat.shiftLeft_eq, zpow_neg, zpow_natCast]
      push_cast
      field_simp
      norm_num
    rw [← value] at near
    refine mul_eq canonical near ?_
    show 2 ^ 52 ≤ coefficient <<< 53 * 10 ^ power.toNat
    have tens : 0 < 10 ^ power.toNat := Nat.pow_pos (by decide)
    rw [Nat.shiftLeft_eq]
    nlinarith
  · rename_i negative
    have value : (coefficient * 2 ^ (0 : ℤ) / ((10 ^ (-power).toNat : ℕ) * 2 ^ (0 : ℤ)) : ℚ) =
        coefficient * 10 ^ power := by
      have same : (10 : ℚ) ^ power = (10 ^ (-power).toNat)⁻¹ := by
        rw [← zpow_natCast, Int.toNat_of_nonneg (by omega), zpow_neg, inv_inv]
      rw [same]
      push_cast
      field_simp
    rw [← value] at near
    exact div_eq canonical near

/-- A power of ten is given by its sign and its magnitude. -/
theorem ten_zpow_eq (power : Int) :
    (10 : ℚ) ^ power = if power < 0 then (10 ^ power.natAbs)⁻¹ else 10 ^ power.natAbs := by
  split
  · rename_i negative
    have turned : power = -(power.natAbs : Int) := by omega
    nth_rewrite 1 [turned]
    rw [zpow_neg, zpow_natCast]
  · rename_i nonneg
    have kept : power = (power.natAbs : Int) := by omega
    nth_rewrite 1 [kept]
    rw [zpow_natCast]

theorem signed_natAbs (power : Int) : (if decide (power < 0) = true then
    Int.negOfNat power.natAbs else Int.ofNat power.natAbs) = power := by
  by_cases negative : power < 0
  · rw [if_pos (decide_eq_true negative), Int.negOfNat_eq]
    show -(power.natAbs : Int) = power
    omega
  · rw [if_neg (by simpa using negative)]
    show (power.natAbs : Int) = power
    omega

/-- A decimal near a number is read as that number. -/
theorem ofScientific_eq (canonical : IsCanonical mantissa exponent)
    (bounded : exponent ≤ 971) {x : Float}
    (unpacked : x.toModel.unpack = .finite .positive mantissa exponent canonical.positive)
    (positive : 0 < coefficient) (near : IsNear mantissa exponent (coefficient * 10 ^ power)) :
    Float.ofScientific coefficient (decide (power < 0)) power.natAbs = x := by
  unfold Float.ofScientific
  split
  · -- Both parts are exact, so that only one operation rounds.
    rename_i small
    have left := isExactly_toFloat positive small.1
    have right := isExactly_powerOfTen (Nat.lt_succ_of_le small.2)
    rw [ten_zpow_eq] at near
    by_cases negative : power < 0
    · rw [if_pos negative, ← div_eq_mul_inv] at near
      rw [decide_eq_true negative]
      exact div_eq_of_isExactly canonical unpacked left right (by rwa [Nat.cast_pow])
    · rw [if_neg negative] at near
      rw [decide_eq_false negative]
      exact mul_eq_of_isExactly canonical unpacked left right (by rwa [Nat.cast_pow])
  · dsimp only
    rw [signed_natAbs]
    exact eq_of_unpack (unpacked.trans (unpacked_ofScientific canonical bounded positive near).symm)

end scientific

end Settlement.Binary64
