import Mathlib
import Settlement.Proofs.World.Within
import Settlement.Scalar.Binary64
/-!
Finite binary64 numbers. Of finite numbers, sums, differences and products are numbers, and so are
quotients unless a zero divides: the operations can overflow, and do nothing worse. `saturating` is
the arithmetic of binary64 numbers in which nothing overflows, and it does not lead out of the
finite ones.
-/
namespace Settlement.Binary64

open Float.Model (UnpackedFloat)
open Float.Model.UnpackedFloat

/-- Neither infinite nor NaN. -/
def IsFinite (x : Float) : Prop := x.isFinite = true

instance : DecidablePred IsFinite := fun x => inferInstanceAs (Decidable (x.isFinite = true))

section unpacked

variable {u v : UnpackedFloat} {x y : Float}

theorem unpackMantissa_pack_eq_zero (number : u ≠ .notANumber)
    (full : unpackExponent (pack .binary64 u) = -1#_) : unpackMantissa (pack .binary64 u) = 0#_ := by
  revert full
  fun_cases pack with
  | case1 => exact absurd rfl number
  | case2 s => simp [packedInfinity]
  | case3 s => simp [packedZero]
  | case4 s m e hm biased overflows => simp [packedInfinity]
  | case5 s m e hm bits biased fits normal =>
    intro full
    exfalso
    rw [unpackExponent_packComponents] at full
    have fits : ¬2048 ≤ biased + 1 := fits
    have same : biased % 2048 = 2047 := congrArg BitVec.toNat full
    omega
  | case6 s m e hm bits biased fits subnormal => simp

theorem isFinite_unpack {bits : BitVec Float.Model.Format.binary64.numBits}
    (apart : unpackExponent bits ≠ -1#_) : (unpack .binary64 bits).isFinite = true := by
  unfold unpack
  dsimp only
  rw [if_neg apart]
  by_cases small : unpackExponent bits = 0#_
  · rw [if_pos small]
    by_cases none : unpackMantissa bits = 0#_
    · rw [dif_pos none]
      rfl
    · rw [dif_neg none]
      rfl
  · rw [if_neg small]
    rfl

theorem isNaN_of_isFinite (finite : u.isFinite = true) : u.isNaN = false := by
  cases u with
  | notANumber => cases finite
  | _ => rfl

theorem isNaN_ofModel_pack (number : u ≠ .notANumber) :
    (Float.ofModel (.pack u)).isNaN = false := by
  show isNaN (unpack .binary64 (pack .binary64 u)) = false
  by_cases full : unpackExponent (pack .binary64 u) = -1#_
  · unfold unpack
    dsimp only
    rw [if_pos full, if_pos (unpackMantissa_pack_eq_zero number full)]
    rfl
  · exact isNaN_of_isFinite (isFinite_unpack full)

theorem zero_or_finite (finite : u.isFinite = true) :
    (∃ sign, u = .zero sign) ∨
      ∃ sign mantissa exponent positive, u = .finite sign mantissa exponent positive := by
  cases u with
  | zero sign => exact .inl ⟨sign, rfl⟩
  | finite sign mantissa exponent positive => exact .inr ⟨sign, mantissa, exponent, positive, rfl⟩
  | infinity sign => cases finite
  | notANumber => cases finite

/-- Rounding gives a number, although it may be one that is packed as an infinite one. -/
theorem roundWithAccuracy_ne (sign : Sign) (mantissa : Nat) (exponent : Int)
    (accuracy : Accuracy) :
    roundWithAccuracy .binary64 sign mantissa exponent accuracy ≠ .notANumber := by
  unfold roundWithAccuracy
  dsimp only
  generalize ExtendedMantissa.mantissa _ = rounded
  by_cases none : rounded = 0
  · rw [dif_pos none]
    exact UnpackedFloat.noConfusion
  · rw [dif_neg none]
    exact UnpackedFloat.noConfusion

theorem normalize_ne (mantissa exponent : Int) (sign : Sign) :
    UnpackedFloat.normalize .binary64 mantissa exponent sign ≠ .notANumber := by
  unfold UnpackedFloat.normalize
  split
  · exact roundWithAccuracy_ne _ _ _ _
  · exact UnpackedFloat.noConfusion
  · exact roundWithAccuracy_ne _ _ _ _

theorem add_ne (left : u.isFinite = true) (right : v.isFinite = true) :
    add .binary64 u v ≠ .notANumber := by
  obtain ⟨s, rfl⟩ | ⟨s, m, e, p, rfl⟩ := zero_or_finite left <;>
    obtain ⟨t, rfl⟩ | ⟨t, n, f, q, rfl⟩ := zero_or_finite right
  · cases s <;> cases t <;> exact UnpackedFloat.noConfusion
  · exact UnpackedFloat.noConfusion
  · exact UnpackedFloat.noConfusion
  · exact normalize_ne _ _ _

theorem sub_ne (left : u.isFinite = true) (right : v.isFinite = true) :
    sub .binary64 u v ≠ .notANumber := by
  obtain ⟨s, rfl⟩ | ⟨s, m, e, p, rfl⟩ := zero_or_finite left <;>
    obtain ⟨t, rfl⟩ | ⟨t, n, f, q, rfl⟩ := zero_or_finite right
  · cases s <;> cases t <;> exact UnpackedFloat.noConfusion
  · exact UnpackedFloat.noConfusion
  · exact UnpackedFloat.noConfusion
  · exact normalize_ne _ _ _

theorem mul_ne (left : u.isFinite = true) (right : v.isFinite = true) :
    mul .binary64 u v ≠ .notANumber := by
  obtain ⟨s, rfl⟩ | ⟨s, m, e, p, rfl⟩ := zero_or_finite left <;>
    obtain ⟨t, rfl⟩ | ⟨t, n, f, q, rfl⟩ := zero_or_finite right
  · exact UnpackedFloat.noConfusion
  · exact UnpackedFloat.noConfusion
  · exact UnpackedFloat.noConfusion
  · exact roundWithAccuracy_ne _ _ _ _

theorem div_ne (left : u.isFinite = true) (right : v.isFinite = true)
    (nonzero : v.beq (.zero .positive) = false) : div .binary64 u v ≠ .notANumber := by
  obtain ⟨t, rfl⟩ | ⟨t, n, f, q, rfl⟩ := zero_or_finite right
  · cases nonzero
  · obtain ⟨s, rfl⟩ | ⟨s, m, e, p, rfl⟩ := zero_or_finite left
    · exact UnpackedFloat.noConfusion
    · exact roundWithAccuracy_ne _ _ _ _

end unpacked

section comparisons

variable {x y z : Float}

theorem le_iff : x ≤ y ↔ x.toModel.unpack.le y.toModel.unpack = true := by
  show decide (x.toModel ≤ y.toModel) = true ↔ _
  rw [decide_eq_true_iff]
  rfl

theorem lt_iff : x < y ↔ x.toModel.unpack.lt y.toModel.unpack = true := by
  show decide (x.toModel < y.toModel) = true ↔ _
  rw [decide_eq_true_iff]
  rfl

theorem beq_eq : (x == y) = x.toModel.unpack.beq y.toModel.unpack := rfl

/-- Only what is no number is not equal to itself. -/
theorem beq_self_or_isNaN (x : Float) : (x == x) = true ∨ x.isNaN = true := by
  rw [beq_eq]
  cases shape : x.toModel.unpack with
  | notANumber => exact .inr (congrArg UnpackedFloat.isNaN shape)
  | zero sign => exact .inl rfl
  | infinity sign => exact .inl (by cases sign <;> rfl)
  | finite sign mantissa exponent positive =>
    exact .inl (by cases sign <;> simp [UnpackedFloat.beq, UnpackedFloat.compare])

theorem unpack_zero : (0 : Float).toModel.unpack = .zero .positive := rfl

theorem finite_iff : IsFinite x ↔ x.toModel.unpack.isFinite = true := Iff.rfl

theorem nonneg_of_not_le (finite : IsFinite x) (positive : ¬x ≤ 0) : 0 ≤ x := by
  rw [le_iff, unpack_zero] at positive ⊢
  obtain ⟨s, same⟩ | ⟨s, m, e, p, same⟩ := zero_or_finite (finite_iff.mp finite)
  · rw [same] at positive
    exact absurd rfl positive
  · rw [same] at positive ⊢
    cases s with
    | negative => exact absurd rfl positive
    | positive => rfl

theorem beq_zero_of_not_le (positive : ¬x ≤ 0) : (x == 0) = false := by
  rw [le_iff, unpack_zero] at positive
  rw [beq_eq, unpack_zero, Bool.eq_false_iff]
  intro equal
  have same : x.toModel.unpack.compare (.zero .positive) = some .eq := eq_of_beq equal
  rw [UnpackedFloat.le, same] at positive
  exact positive rfl

/-- What lies between two finite numbers is finite. -/
theorem IsFinite.of_between (low : IsFinite x) (high : IsFinite z) (above : x < y) (below : y < z) :
    IsFinite y := by
  rw [lt_iff] at above below
  rw [finite_iff] at low high ⊢
  cases shape : y.toModel.unpack with
  | zero sign => rfl
  | finite sign mantissa exponent positive => rfl
  | notANumber =>
    rw [shape] at above
    obtain ⟨s, same⟩ | ⟨s, m, e, p, same⟩ := zero_or_finite low <;>
      · rw [same] at above
        cases above
  | infinity sign =>
    rw [shape] at above below
    cases sign with
    | positive =>
      obtain ⟨s, same⟩ | ⟨s, m, e, p, same⟩ := zero_or_finite high <;>
        · rw [same] at below
          cases below
    | negative =>
      obtain ⟨s, same⟩ | ⟨s, m, e, p, same⟩ := zero_or_finite low <;>
        · rw [same] at above
          cases above

theorem finite_of_ofFloat? {number : Decimal.Binary}
    (read : Decimal.Binary.ofFloat? x = some number) : IsFinite x := by
  have apart : x.toBits.toNat / Nat.pow 2 52 % Nat.pow 2 11 ≠ 2047 := by
    intro full
    unfold Decimal.Binary.ofFloat? at read
    dsimp only at read
    rw [if_pos full] at read
    cases read
  refine isFinite_unpack fun full => apart ?_
  have same : x.toModel.toBits.toNat / 2 ^ 52 % 2 ^ 11 = 2047 := by
    simpa [unpackExponent, Nat.shiftRight_eq_div_pow] using congrArg BitVec.toNat full
  exact same

/-- What is not finite is one of three. -/
theorem special_of_ofFloat?_eq_none (special : Decimal.Binary.ofFloat? x = none) :
    x = 0.0 / 0.0 ∨ x = 1.0 / 0.0 ∨ x = -1.0 / 0.0 := by
  have full : x.toModel.toBits.toNat / Nat.pow 2 52 % Nat.pow 2 11 = 2047 := by
    unfold Decimal.Binary.ofFloat? at special
    dsimp only at special
    split_ifs at special with full
    exact full
  have bound : x.toModel.toBits.toNat < 2 ^ 64 := x.toModel.toBits.toNat_lt
  by_cases fraction : x.toModel.toBits.toNat % Nat.pow 2 52 = 0
  · have parts : x.toModel.toBits.toNat = 0x7ff0000000000000 ∨
        x.toModel.toBits.toNat = 0xfff0000000000000 := by
      simp only [Nat.pow_eq] at full fraction
      omega
    rcases parts with positive | negative
    · exact .inr (.inl (Float.toBits_inj.mp (UInt64.toNat.inj positive)))
    · exact .inr (.inr (Float.toBits_inj.mp (UInt64.toNat.inj negative)))
  · have exponent : @unpackExponent .binary64 x.toModel.toBits.toBitVec = -1#_ := by
      apply BitVec.eq_of_toNat_eq
      simpa [unpackExponent, Nat.shiftRight_eq_div_pow] using full
    have mantissa : @unpackMantissa .binary64 x.toModel.toBits.toBitVec ≠ 0#_ := by
      intro none
      apply fraction
      simpa [unpackMantissa] using congrArg BitVec.toNat none
    have bits := x.toModel.valid.eq_packedNaN exponent mantissa
    exact .inl (Float.toBits_inj.mp (UInt64.toBitVec_inj.mp bits))

end comparisons

/-- The largest finite number. -/
def largest : Float := 1.7976931348623157e308

/-- An infinite number stopped at the largest finite one of its sign. -/
def saturate (x : Float) : Float :=
  if x.isInf then if x < 0 then -largest else largest else x

/-- The result of an operation on two numbers, stopped if it overflows. -/
def saturated (operation : Float → Float → Float) (x y : Float) : Float :=
  if IsFinite x ∧ IsFinite y then saturate (operation x y) else operation x y

/-- A number in the place of what is none. -/
def confine (x : Float) : Float := if x.isFinite then x else if x < 0 then -largest else largest

/-- The arithmetic of binary64 numbers in which no operation on finite numbers overflows: what would
be infinite is the largest finite number instead. A division by zero is no overflow. Powers and
quotients of whole numbers, which are computed outside of this library, are stopped in any case. -/
@[reducible]
def saturating : Scalar Float :=
  { (inferInstance : Scalar Float) with
    add := saturated (· + ·)
    sub := saturated (· - ·)
    mul := saturated (· * ·)
    div x y := if y == 0 then x / y else saturated (· / ·) x y
    power x y := (fun z => if IsFinite x ∧ IsFinite y then confine z else z) <$> power x y
    ratio a b := confine <$> ratio a b }

theorem finite_largest : IsFinite largest := by decide +kernel

theorem finite_neg_largest : IsFinite (-largest) := by decide +kernel

section saturating

variable {x y raw : Float}

theorem finite_saturate (number : x.isNaN = false) : IsFinite (saturate x) := by
  unfold saturate
  split
  · split
    · exact finite_neg_largest
    · exact finite_largest
  · rename_i bounded
    cases shape : x.toModel.unpack with
    | zero sign => exact finite_iff.mpr (by rw [shape]; rfl)
    | finite sign mantissa exponent positive => exact finite_iff.mpr (by rw [shape]; rfl)
    | notANumber => exact absurd (congrArg UnpackedFloat.isNaN shape) (Bool.eq_false_iff.mp number)
    | infinity sign => exact absurd (congrArg UnpackedFloat.isInf shape) bounded

theorem finite_saturated {operation : Float → Float → Float} (left : IsFinite x) (right : IsFinite y)
    (number : (operation x y).isNaN = false) : IsFinite (saturated operation x y) := by
  rw [saturated, if_pos ⟨left, right⟩]
  exact finite_saturate number

theorem finite_confine (x : Float) : IsFinite (confine x) := by
  unfold confine
  split
  · assumption
  · split
    · exact finite_neg_largest
    · exact finite_largest

theorem finite_of_floor {floor : Given Float} (within : floor.Within IsFinite)
    (above : @Given.isLess Float saturating floor (.real raw) = true) :
    IsFinite raw ∨ ∃ low, IsFinite low ∧ low < raw := by
  have whole (value : Int) (above : isAbove raw value = true) :
      IsFinite raw ∨ ∃ low, IsFinite low ∧ low < raw := by
    unfold isAbove at above
    split at above
    · rename_i number read
      exact .inl (finite_of_ofFloat? read)
    · exact .inr ⟨0, rfl, of_decide_eq_true above⟩
  cases floor with
  | truth value => exact whole _ above
  | whole value => exact whole _ above
  | real low => exact .inr ⟨low, within, of_decide_eq_true above⟩
  | other kind => cases above

theorem finite_of_ceiling {ceiling : Given Float} (within : ceiling.Within IsFinite)
    (below : @Given.isLess Float saturating (.real raw) ceiling = true) :
    IsFinite raw ∨ ∃ high, IsFinite high ∧ raw < high := by
  have whole (value : Int) (below : isBelow raw value = true) :
      IsFinite raw ∨ ∃ high, IsFinite high ∧ raw < high := by
    unfold isBelow at below
    split at below
    · rename_i number read
      exact .inl (finite_of_ofFloat? read)
    · exact .inr ⟨0, rfl, of_decide_eq_true below⟩
  cases ceiling with
  | truth value => exact whole _ below
  | whole value => exact whole _ below
  | real high => exact .inr ⟨high, within, of_decide_eq_true below⟩
  | other kind => cases below

theorem gives_ofWhole (value : Int) : Gives IsFinite (ofWhole value) := by
  unfold ofWhole
  simp only [Number.toFloat?]
  by_cases finite : (Float.ofInt value).isFinite = true
  · rw [if_pos finite]
    exact .ok finite
  · rw [if_neg finite]
    exact .error trivial

theorem gives_power (left : IsFinite x) (right : IsFinite y) :
    Gives IsFinite (@Scalar.power Float saturating x y) := by
  refine (gives_any (power x y)).map fun z _ => ?_
  rw [if_pos ⟨left, right⟩]
  exact finite_confine z

theorem gives_ratio (a b : Int) : Gives IsFinite (@Scalar.ratio Float saturating a b) :=
  (gives_any (ratio a b)).map fun z _ => finite_confine z

theorem finite_div (left : IsFinite x) (right : IsFinite y) (nonzero : (y == 0) = false) :
    IsFinite (if y == 0 then x / y else saturated (· / ·) x y) := by
  rw [nonzero, if_neg Bool.false_ne_true]
  exact finite_saturated left right (isNaN_ofModel_pack (div_ne left right nonzero))

/-- Arithmetic without overflow does not lead out of the finite numbers. -/
theorem closed_saturating : @Scalar.Closed Float saturating IsFinite :=
  letI := saturating
  { zero := rfl
    one := rfl
    days := rfl
    add := fun left right => finite_saturated left right (isNaN_ofModel_pack (add_ne left right))
    sub := fun left right => finite_saturated left right (isNaN_ofModel_pack (sub_ne left right))
    mul := fun left right => finite_saturated left right (isNaN_ofModel_pack (mul_ne left right))
    div := finite_div
    ofWhole := gives_ofWhole
    power := gives_power
    ratio := gives_ratio
    between := fun lowest highest above below => by
      obtain finite | ⟨low, left, above⟩ := finite_of_floor lowest above
      · exact finite
      obtain finite | ⟨high, right, below⟩ := finite_of_ceiling highest below
      · exact finite
      exact left.of_between right above below
    isZero_days := rfl
    isZero_of_not_le := beq_zero_of_not_le
    zero_nonneg := of_decide_eq_true rfl
    nonneg_of_not_le := nonneg_of_not_le }

end saturating

end Settlement.Binary64
