import Settlement.Proofs.Binary64.Sign
import Settlement.Proofs.Decimal.ReadBack
/-!
The order of binary64 numbers. Every number has its place among the rationals and the infinities,
and numbers are compared by their places. A value is never rounded past a number, so that a sum is
not less than one of its parts where the other is not negative.
-/
namespace Settlement.Binary64

open Float.Model (UnpackedFloat Format totalExponent)
open Float.Model.UnpackedFloat

/-! Places. -/

def signed : Sign → ℚ → ℚ
  | .positive, value => value
  | .negative, value => -value

/-- The place of a number: its value, between the two infinities. What is no number has none. -/
def place : UnpackedFloat → ℤ ×ₗ ℚ
  | .infinity .positive => toLex (1, 0)
  | .infinity .negative => toLex (-1, 0)
  | .notANumber => toLex (0, 0)
  | .zero _ => toLex (0, 0)
  | .finite sign mantissa exponent _ => toLex (0, signed sign (mantissa * 2 ^ exponent))

/-- A number, in its own form if it is finite. -/
def IsProper : UnpackedFloat → Prop
  | .notANumber => False
  | .finite _ mantissa exponent _ => IsCanonical mantissa exponent
  | _ => True

variable {m n : Nat} {e f : Int}

/-- Of two numbers in their own form the one with the greater exponent is the greater one. -/
theorem IsCanonical.magnitude_lt (left : IsCanonical m e) (right : IsCanonical n f)
    (less : e < f) : (m * 2 ^ e : ℚ) < n * 2 ^ f := by
  have filled : 2 ^ 52 ≤ n := by
    have := left.least
    rcases right.full with lowest | filled
    · omega
    · exact filled
  have scale := two_zpow_pos e
  have step : (2 : ℚ) ^ (e + (1 : Nat)) ≤ 2 ^ f := zpow_le_zpow_right₀ (by norm_num) (by omega)
  have top : (m : ℚ) < 2 ^ 53 := by exact_mod_cast left.fits
  have bottom : (2 : ℚ) ^ 52 ≤ n := by exact_mod_cast filled
  calc (m * 2 ^ e : ℚ) < 2 ^ 53 * 2 ^ e := mul_lt_mul_of_pos_right top scale
    _ = 2 ^ 52 * 2 ^ (e + (1 : Nat)) := by
      rw [two_zpow_add]
      ring
    _ ≤ n * 2 ^ f := mul_le_mul bottom step (two_zpow_pos _).le (by positivity)

theorem IsCanonical.magnitude_pos (canonical : IsCanonical m e) : (0 : ℚ) < m * 2 ^ e :=
  mul_pos (by exact_mod_cast canonical.positive) (two_zpow_pos e)

theorem IsCanonical.compare_eq (left : IsCanonical m e) (right : IsCanonical n f) :
    (compare e f).then (compare m n) = compare (m * 2 ^ e : ℚ) (n * 2 ^ f) := by
  rcases lt_trichotomy e f with less | rfl | more
  · rw [compare_lt_iff_lt.mpr less, compare_lt_iff_lt.mpr (left.magnitude_lt right less)]
    rfl
  · have scale := two_zpow_pos e
    rw [compare_eq_iff_eq.mpr rfl, Ordering.eq_then]
    rcases lt_trichotomy m n with less | rfl | more
    · have less' : (m : ℚ) < n := by exact_mod_cast less
      rw [compare_lt_iff_lt.mpr less,
        compare_lt_iff_lt.mpr (mul_lt_mul_of_pos_right less' scale)]
    · rw [compare_eq_iff_eq.mpr rfl, compare_eq_iff_eq.mpr rfl]
    · have more' : (n : ℚ) < m := by exact_mod_cast more
      rw [compare_gt_iff_gt.mpr more,
        compare_gt_iff_gt.mpr (mul_lt_mul_of_pos_right more' scale)]
  · rw [compare_gt_iff_gt.mpr more, compare_gt_iff_gt.mpr (right.magnitude_lt left more)]
    rfl

theorem compare_neg (a b : ℚ) : compare (-a) (-b) = (compare a b).swap := by
  rw [← Std.OrientedOrd.eq_swap, ← cmp_eq_compare, ← cmp_eq_compare]
  exact strictMono_id.neg.cmp_map_eq a b

theorem toLex_strictMono (height : ℤ) : StrictMono fun value : ℚ => toLex (height, value) :=
  fun _ _ less => Prod.Lex.toLex_lt_toLex.mpr (.inr ⟨rfl, less⟩)

theorem compare_toLex (height : ℤ) (a b : ℚ) :
    compare (toLex (height, a)) (toLex (height, b)) = compare a b := by
  rw [← cmp_eq_compare, ← cmp_eq_compare]
  exact (toLex_strictMono height).cmp_map_eq a b

/-- Numbers are compared by their places. -/
theorem compare_eq_place {u v : UnpackedFloat} (left : IsProper u) (right : IsProper v) :
    u.compare v = some (compare (place u) (place v)) := by
  have less {a b : ℤ ×ₗ ℚ} (below : a < b) : some .lt = some (compare a b) :=
    congrArg some (compare_lt_iff_lt.mpr below).symm
  have more {a b : ℤ ×ₗ ℚ} (above : b < a) : some .gt = some (compare a b) :=
    congrArg some (compare_gt_iff_gt.mpr above).symm
  have lowest (value : ℚ) : toLex ((-1 : ℤ), (0 : ℚ)) < toLex (0, value) :=
    Prod.Lex.toLex_lt_toLex.mpr (.inl neg_one_lt_zero)
  have highest (value : ℚ) : toLex ((0 : ℤ), value) < toLex (1, 0) :=
    Prod.Lex.toLex_lt_toLex.mpr (.inl one_pos)
  have inner {a b : ℚ} (below : a < b) : toLex ((0 : ℤ), a) < toLex (0, b) :=
    toLex_strictMono 0 below
  cases u with
  | notANumber => cases left
  | infinity s =>
    cases v with
    | notANumber => cases right
    | infinity t => cases s <;> cases t <;> rfl
    | zero t => cases s <;> rfl
    | finite t n f q =>
      cases s with
      | negative => exact less (lowest _)
      | positive => exact more (highest _)
  | zero s =>
    cases v with
    | notANumber => cases right
    | infinity t => cases t <;> rfl
    | zero t => rfl
    | finite t n f q =>
      have above := right.magnitude_pos
      cases t with
      | negative => exact more (inner (neg_lt_zero.mpr above))
      | positive => exact less (inner above)
  | finite s m e p =>
    have below := left.magnitude_pos
    cases v with
    | notANumber => cases right
    | infinity t =>
      cases t with
      | negative => cases s <;> exact more (lowest _)
      | positive => cases s <;> exact less (highest _)
    | zero t =>
      cases s with
      | negative => exact less (inner (neg_lt_zero.mpr below))
      | positive => exact more (inner below)
    | finite t n f q =>
      have above := right.magnitude_pos
      have same := IsCanonical.compare_eq left right
      cases s with
      | negative =>
        cases t with
        | negative => simp [UnpackedFloat.compare, place, signed, same, compare_toLex, compare_neg]
        | positive => exact less (inner ((neg_lt_zero.mpr below).trans above))
      | positive =>
        cases t with
        | negative => exact more (inner ((neg_lt_zero.mpr above).trans below))
        | positive => simp [UnpackedFloat.compare, place, signed, same, compare_toLex]

theorem le_iff_place_le {u v : UnpackedFloat} (left : IsProper u) (right : IsProper v) :
    u.le v = true ↔ place u ≤ place v := by
  rw [UnpackedFloat.le, compare_eq_place left right, Option.any_some, Ordering.isLE_iff_ne_gt]
  exact compare_le_iff_le

theorem beq_iff_place_eq {u v : UnpackedFloat} (left : IsProper u) (right : IsProper v) :
    u.beq v = true ↔ place u = place v := by
  rw [UnpackedFloat.beq, compare_eq_place left right, beq_iff_eq, Option.some_inj,
    compare_eq_iff_eq]

variable {x y z : Float}

/-- A number is infinite, zero or a finite one in its own form. -/
theorem shape_of_number (number : x.isNaN = false) :
    (∃ sign, x.toModel.unpack = .infinity sign) ∨ (∃ sign, x.toModel.unpack = .zero sign) ∨
      ∃ sign mantissa exponent, ∃ canonical : IsCanonical mantissa exponent, exponent ≤ 971 ∧
        x.toModel.unpack = .finite sign mantissa exponent canonical.positive := by
  cases read : Decimal.Binary.ofFloat? x with
  | some binary =>
    obtain ⟨_, shape⟩ | ⟨canonical, bounded, shape⟩ := Decimal.unpack_of_ofFloat? read
    · exact .inr (.inl ⟨_, shape⟩)
    · exact .inr (.inr ⟨_, _, _, canonical, bounded, shape⟩)
  | none =>
    obtain rfl | rfl | rfl := special_of_ofFloat?_eq_none read
    · cases number
    · exact .inl ⟨.positive, rfl⟩
    · exact .inl ⟨.negative, rfl⟩

theorem isProper_unpack (number : x.isNaN = false) : IsProper x.toModel.unpack := by
  obtain ⟨sign, shape⟩ | ⟨sign, shape⟩ | ⟨sign, m, e, canonical, _, shape⟩ :=
    shape_of_number number
  · rw [shape]
    trivial
  · rw [shape]
    trivial
  · rw [shape]
    exact canonical

theorem le_iff_of_numbers (left : x.isNaN = false) (right : y.isNaN = false) :
    x ≤ y ↔ place x.toModel.unpack ≤ place y.toModel.unpack := by
  rw [le_iff, le_iff_place_le (isProper_unpack left) (isProper_unpack right)]

/-- Only numbers are compared. -/
theorem numbers_of_compare {order : Ordering}
    (compared : x.toModel.unpack.compare y.toModel.unpack = some order) :
    x.isNaN = false ∧ y.isNaN = false := by
  constructor
  · cases shape : x.toModel.unpack with
    | notANumber =>
      rw [shape] at compared
      cases compared
    | _ => exact congrArg UnpackedFloat.isNaN shape
  · cases other : y.toModel.unpack with
    | notANumber =>
      rw [other] at compared
      cases shape : x.toModel.unpack with
      | infinity sign => rw [shape] at compared; cases sign <;> cases compared
      | finite sign => rw [shape] at compared; cases sign <;> cases compared
      | _ => rw [shape] at compared; cases compared
    | _ => exact congrArg UnpackedFloat.isNaN other

theorem numbers_of_le (less : x ≤ y) : x.isNaN = false ∧ y.isNaN = false := by
  obtain ⟨_, compared, _⟩ := Option.any_eq_true _ _ |>.mp (le_iff.mp less)
  exact numbers_of_compare compared

theorem numbers_of_beq (same : (x == y) = true) : x.isNaN = false ∧ y.isNaN = false := by
  rw [beq_eq] at same
  exact numbers_of_compare (eq_of_beq same)

theorem le_refl_of_number (number : x.isNaN = false) : x ≤ x :=
  (le_iff_of_numbers number number).mpr le_rfl

theorem le_trans_of_le (first : x ≤ y) (second : y ≤ z) : x ≤ z := by
  obtain ⟨left, middle⟩ := numbers_of_le first
  have right := (numbers_of_le second).2
  rw [le_iff_of_numbers left middle] at first
  rw [le_iff_of_numbers middle right] at second
  exact (le_iff_of_numbers left right).mpr (first.trans second)

/-! Rounding. -/

/-- A mantissa is never rounded past a whole number. -/
theorem StandsFor.roundedMantissa_side {extended : ExtendedMantissa} {point : ℚ}
    (standsFor : StandsFor extended point) (number : Nat) :
    (number ≤ point → number ≤ extended.roundedMantissa) ∧
      (point ≤ number → extended.roundedMantissa ≤ number) := by
  have below (mantissa : Nat) (above : (number : ℚ) < mantissa + 1) : number ≤ mantissa :=
    Nat.lt_succ_iff.mp (by exact_mod_cast above)
  have above (mantissa : Nat) (below : (mantissa : ℚ) < number) : mantissa + 1 ≤ number :=
    Nat.succ_le_iff.mpr (by exact_mod_cast below)
  obtain ⟨mantissa, round, sticky⟩ := extended
  cases round <;> cases sticky <;> simp only [StandsFor] at standsFor
  · subst standsFor
    exact ⟨fun low => by exact_mod_cast low, fun high => by exact_mod_cast high⟩
  · constructor
    · exact fun low => below mantissa (by linarith)
    · exact fun high => (Nat.le_succ mantissa).trans (above mantissa (by linarith))
  · show (_ → number ≤ mantissa + mantissa % 2) ∧ (_ → mantissa + mantissa % 2 ≤ number)
    constructor
    · exact fun low => (below mantissa (by linarith)).trans (Nat.le_add_right _ _)
    · intro high
      have := above mantissa (by linarith)
      omega
  · show (_ → number ≤ mantissa + 1) ∧ (_ → mantissa + 1 ≤ number)
    constructor
    · exact fun low => (below mantissa (by linarith)).trans (Nat.le_succ mantissa)
    · exact fun high => above mantissa (by linarith)

/-- A rounded mantissa that has come to take one bit too many loses its last one, which is zero. -/
theorem exists_carried {rounded : Nat} {place : Int} (positive : 0 < rounded)
    (fits : rounded ≤ 2 ^ 53) (least : -1074 ≤ place)
    (full : place = -1074 ∨ 2 ^ 52 ≤ rounded) :
    ∃ mantissa exponent, IsCanonical mantissa exponent ∧ place ≤ exponent ∧
      (mantissa * 2 ^ exponent : ℚ) = rounded * 2 ^ place ∧
      (shiftToTargetExponent .binary64 rounded place .exact).1.mantissa = mantissa ∧
      (shiftToTargetExponent .binary64 rounded place .exact).2 = exponent := by
  rcases fits.lt_or_eq with fits | rfl
  · have canonical : IsCanonical rounded place := ⟨positive, fits, least, full⟩
    refine ⟨rounded, place, canonical, le_rfl, rfl, ?_⟩
    rw [shiftToTargetExponent_eq _ _ _ canonical.targetExponent.ge, canonical.targetExponent,
      sub_self]
    exact ⟨rfl, rfl⟩
  · have again : Format.binary64.targetExponent (totalExponent (2 ^ 53) place) = place + 1 := by
      have bits : (2 ^ 53).log2 = 53 := by decide
      rw [targetExponent_eq, totalExponent, bits]
      omega
    have canonical : IsCanonical (2 ^ 52) (place + 1) :=
      ⟨by decide, by decide, by omega, .inr le_rfl⟩
    refine ⟨2 ^ 52, place + 1, canonical, by omega, ?_, ?_⟩
    · rw [zpow_add_one₀ (by norm_num)]
      push_cast
      ring
    · rw [shiftToTargetExponent_eq _ _ _ (by omega), again, add_sub_cancel_left]
      exact ⟨rfl, rfl⟩

/-- The number is not on the other side of any number than the value. -/
def KeepsSides (mantissa : Nat) (exponent : Int) (value : ℚ) : Prop :=
  ∀ n f, IsCanonical n f → ((n * 2 ^ f : ℚ) ≤ value → (n * 2 ^ f : ℚ) ≤ mantissa * 2 ^ exponent) ∧
    (value ≤ n * 2 ^ f → (mantissa * 2 ^ exponent : ℚ) ≤ n * 2 ^ f)

/-- What keeps the sides of the whole numbers at a place keeps those of all numbers, if the value
fills the place: a number of a lower place is less than either. -/
theorem keepsSides_of_place {mantissa rounded : Nat} {exponent target : Int} {value : ℚ}
    (canonical : IsCanonical mantissa exponent) (above : target ≤ exponent)
    (same : (mantissa * 2 ^ exponent : ℚ) = rounded * 2 ^ target)
    (side : ∀ number : Nat, ((number * 2 ^ target : ℚ) ≤ value → number ≤ rounded) ∧
      (value ≤ number * 2 ^ target → rounded ≤ number))
    (filled : -1074 < target → (2 ^ 52 * 2 ^ target : ℚ) ≤ value) :
    KeepsSides mantissa exponent value := by
  intro n f other
  have scale := two_zpow_pos target
  rcases le_or_gt target f with grid | fine
  · have whole : (n * 2 ^ f : ℚ) = (n * 2 ^ (f - target).toNat : ℕ) * 2 ^ target := by
      rw [two_zpow_of_le grid]
      push_cast
      ring
    rw [whole, same]
    constructor
    · intro low
      exact mul_le_mul_of_nonneg_right (by exact_mod_cast (side _).1 low) scale.le
    · intro high
      exact mul_le_mul_of_nonneg_right (by exact_mod_cast (side _).2 high) scale.le
  · constructor
    · exact fun _ => (other.magnitude_lt canonical (by omega)).le
    · intro high
      have lowest := other.least
      have power : IsCanonical (2 ^ 52) target := ⟨by decide, by decide, by omega, .inr le_rfl⟩
      have less := other.magnitude_lt power fine
      push_cast at less
      exact absurd (less.trans_le (filled (by omega))) (not_lt.mpr high)

theorem exists_roundWithAccuracy {shown : Nat} {power : Int} (positive : 0 < shown)
    (least : -1074 ≤ power)
    (fine : power ≤ Format.binary64.targetExponent (totalExponent shown power)) (sign : Sign) :
    ∃ mantissa exponent, ∃ canonical : IsCanonical mantissa exponent,
      roundWithAccuracy .binary64 sign shown power .exact =
        .finite sign mantissa exponent canonical.positive ∧
      KeepsSides mantissa exponent (shown * 2 ^ power) := by
  obtain ⟨target, chosen⟩ : ∃ target, target =
    Format.binary64.targetExponent (totalExponent shown power) := ⟨_, rfl⟩
  have lowest : target = max (totalExponent shown power - 53) (-1074) := chosen
  obtain ⟨first, last⟩ := binade_of_floor positive (le_refl (shown * 2 ^ power : ℚ))
    (mul_lt_mul_of_pos_right (lt_add_one _) (two_zpow_pos power))
  obtain ⟨rounded, made⟩ : ∃ rounded, rounded =
    (ExtendedMantissa.ofMantissaAndAccuracy shown .exact >>>
      (target - power).toNat).roundedMantissa := ⟨_, rfl⟩
  have side (number : Nat) : ((number * 2 ^ target : ℚ) ≤ shown * 2 ^ power → number ≤ rounded) ∧
      ((shown * 2 ^ power : ℚ) ≤ number * 2 ^ target → rounded ≤ number) := by
    have scale := two_zpow_pos target
    rw [← le_div_iff₀ scale, ← div_le_iff₀ scale, made]
    exact ((standsFor_self shown power).shiftTo (by omega)).roundedMantissa_side number
  have fits : rounded ≤ 2 ^ 53 := by
    refine (side _).2 (last.le.trans ?_)
    rw [Nat.cast_pow, Nat.cast_ofNat, ← two_zpow_add]
    exact zpow_le_zpow_right₀ (by norm_num) (by omega)
  have filled (above : -1074 < target) : (2 ^ 52 * 2 ^ target : ℚ) ≤ shown * 2 ^ power := by
    have exponents : target + (52 : Nat) = totalExponent shown power - 1 := by omega
    rw [← two_zpow_add, exponents]
    exact first
  have full : target = -1074 ∨ 2 ^ 52 ≤ rounded := by
    rcases (by omega : -1074 ≤ target).eq_or_lt with lowest | above
    · exact .inl lowest.symm
    · exact .inr ((side _).1 (by push_cast; exact filled above))
  have some : 0 < rounded := by
    rcases full with lowest | full
    · have unit : (2 : ℚ) ^ target ≤ 2 ^ power := zpow_le_zpow_right₀ (by norm_num) (by omega)
      have one : (1 : ℚ) ≤ shown := by exact_mod_cast positive
      refine (side 1).1 ?_
      rw [Nat.cast_one]
      exact mul_le_mul one unit (two_zpow_pos target).le (by positivity)
    · omega
  obtain ⟨mantissa, exponent, canonical, above, value, shown', exponent'⟩ :=
    exists_carried some fits (by omega) full
  refine ⟨mantissa, exponent, canonical, ?_, keepsSides_of_place canonical above value side filled⟩
  rw [roundWithAccuracy, shiftToTargetExponent_eq _ _ _ fine, ← chosen]
  dsimp only
  rw [← made, dif_neg (by rw [shown']; exact canonical.positive.ne')]
  exact finite_congr rfl shown' exponent'

/-- What is shifted to a lower place is what it was. -/
theorem cast_shiftLeft (m : Nat) {low : Int} (below : low ≤ e) :
    ((m <<< (e - low).toNat : ℕ) * 2 ^ low : ℚ) = m * 2 ^ e := by
  rw [Nat.shiftLeft_eq, two_zpow_of_le below]
  push_cast
  ring

theorem totalExponent_shiftLeft {shown : Nat} (positive : 0 < shown) (power : Int) (count : Nat) :
    totalExponent (shown <<< count) (power - count) = totalExponent shown power := by
  induction count with
  | zero => simp
  | succ count ih =>
    have filled : shown <<< count ≠ 0 := by
      rw [Nat.shiftLeft_eq]
      positivity
    rw [← ih, totalExponent, totalExponent, Nat.shiftLeft_succ, Nat.log2_two_mul filled]
    push_cast
    ring

/-- A value that is no smaller than the smallest number is rounded to a number, and past none. -/
theorem exists_round {shown : Nat} {power : Int} (positive : 0 < shown) (least : -1074 ≤ power)
    (sign : Sign) :
    ∃ mantissa exponent, ∃ canonical : IsCanonical mantissa exponent,
      UnpackedFloat.round .binary64 sign shown power =
        .finite sign mantissa exponent canonical.positive ∧
      KeepsSides mantissa exponent (shown * 2 ^ power) := by
  obtain ⟨target, chosen⟩ : ∃ target, target =
    Format.binary64.targetExponent (totalExponent shown power) := ⟨_, rfl⟩
  have lowest : target = max (totalExponent shown power - 53) (-1074) := chosen
  obtain ⟨count, shift⟩ : ∃ count, count = (power - target).toNat := ⟨_, rfl⟩
  have filled : 0 < shown <<< count := by
    rw [Nat.shiftLeft_eq]
    positivity
  have value : ((shown <<< count : ℕ) * 2 ^ (power - count) : ℚ) = shown * 2 ^ power := by
    have shifted := cast_shiftLeft shown (sub_le_self power (Int.natCast_nonneg count))
    rwa [sub_sub_cancel, Int.toNat_natCast] at shifted
  rw [← value, UnpackedFloat.round, decreaseExponent, ← chosen, ← shift]
  refine exists_roundWithAccuracy filled (by omega) ?_ sign
  rw [totalExponent_shiftLeft positive, ← chosen]
  omega

/-! Sums. -/

theorem unpack_pack_zero (sign : Sign) :
    unpack .binary64 (UnpackedFloat.pack .binary64 (.zero sign)) = .zero sign := by
  cases sign <;> rfl

theorem unpack_pack_infinity (sign : Sign) :
    unpack .binary64 (UnpackedFloat.pack .binary64 (.infinity sign)) = .infinity sign := by
  cases sign <;> rfl

/-- A number that is too large is packed as infinite. -/
theorem unpack_pack_of_large (positive : 0 < m) (large : 971 < e) (sign : Sign) :
    unpack .binary64 (UnpackedFloat.pack .binary64 (.finite sign m e positive)) =
      .infinity sign := by
  have packed : UnpackedFloat.pack .binary64 (.finite sign m e positive) =
      UnpackedFloat.pack .binary64 (.infinity sign) := by
    rw [UnpackedFloat.pack, UnpackedFloat.pack]
    exact if_pos (by show 2048 ≤ (e + 1023 + 52).toNat + 1; omega)
  rw [packed, unpack_pack_infinity]

theorem place_finite_le_pack (left : IsCanonical m e) (right : IsCanonical n f)
    (most : (m * 2 ^ e : ℚ) ≤ n * 2 ^ f) :
    place (.finite .positive m e left.positive) ≤ place (unpack .binary64
      (UnpackedFloat.pack .binary64 (.finite .positive n f right.positive))) := by
  rcases le_or_gt f 971 with bounded | large
  · rw [unpack_pack right bounded]
    exact Prod.Lex.toLex_le_toLex.mpr (.inr ⟨rfl, most⟩)
  · rw [unpack_pack_of_large _ large]
    exact Prod.Lex.toLex_le_toLex.mpr (.inl Int.one_pos)

theorem place_negative_le_pack (left : IsCanonical m e) (bounded : e ≤ 971)
    (right : IsCanonical n f) (most : (n * 2 ^ f : ℚ) ≤ m * 2 ^ e) :
    place (.finite .negative m e left.positive) ≤ place (unpack .binary64
      (UnpackedFloat.pack .binary64 (.finite .negative n f right.positive))) := by
  have within : f ≤ e := not_lt.mp fun less => not_lt.mpr most (left.magnitude_lt right less)
  rw [unpack_pack right (within.trans bounded)]
  exact Prod.Lex.toLex_le_toLex.mpr (.inr ⟨rfl, neg_le_neg most⟩)

theorem place_negative_le_pack_positive (left : IsCanonical m e) (right : IsCanonical n f) :
    place (.finite .negative m e left.positive) ≤ place (unpack .binary64
      (UnpackedFloat.pack .binary64 (.finite .positive n f right.positive))) := by
  have below := left.magnitude_pos
  have above := right.magnitude_pos
  have order : -(m * 2 ^ e : ℚ) ≤ n * 2 ^ f := by linarith
  have first : place (.finite .negative m e left.positive) ≤
      place (.finite .positive n f right.positive) :=
    Prod.Lex.toLex_le_toLex.mpr (.inr ⟨rfl, order⟩)
  exact first.trans (place_finite_le_pack right right le_rfl)

/-- The sum of two numbers is a whole number at the lower of their places, which is rounded. -/
theorem exists_add_eq_normalize (left : IsCanonical m e) (right : IsCanonical n f) (sign : Sign) :
    ∃ total low : Int, -1074 ≤ low ∧ (total * 2 ^ low : ℚ) = signed sign (m * 2 ^ e) + n * 2 ^ f ∧
      UnpackedFloat.add .binary64 (.finite sign m e left.positive)
        (.finite .positive n f right.positive) =
          UnpackedFloat.normalize .binary64 total low .positive := by
  have first := cast_shiftLeft m (min_le_left e f)
  have second := cast_shiftLeft n (min_le_right e f)
  refine ⟨sign.apply (m <<< (e - min e f).toNat : ℕ) +
    Sign.positive.apply (n <<< (f - min e f).toNat : ℕ), min e f,
    le_min left.least right.least, ?_, rfl⟩
  rw [← first, ← second]
  cases sign <;> simp only [Sign.apply, signed, Int.cast_add, Int.cast_neg, Int.cast_natCast] <;>
    ring

theorem place_le_add (left : IsCanonical m e) (bounded : e ≤ 971) (right : IsCanonical n f)
    (sign : Sign) :
    place (.finite sign m e left.positive) ≤ place (unpack .binary64 (UnpackedFloat.pack .binary64
      (UnpackedFloat.add .binary64 (.finite sign m e left.positive)
        (.finite .positive n f right.positive)))) := by
  obtain ⟨total, low, least, value, summed⟩ := exists_add_eq_normalize left right sign
  have above := right.magnitude_pos
  have below := left.magnitude_pos
  have scale := two_zpow_pos low
  rw [summed, UnpackedFloat.normalize]
  split
  · rename_i less
    have less : total < 0 := Int.compare_eq_lt.mp less
    have shown : ((-total).toNat : ℚ) = -total := by exact_mod_cast Int.toNat_of_nonneg (by omega)
    have some : 0 < (-total).toNat := by omega
    obtain ⟨mantissa, exponent, canonical, rounded, sides⟩ := exists_round some least .negative
    rw [rounded]
    have negative : (total * 2 ^ low : ℚ) < 0 :=
      mul_neg_of_neg_of_pos (by exact_mod_cast less) scale
    cases sign with
    | positive =>
      rw [value, signed] at negative
      linarith
    | negative =>
      refine place_negative_le_pack left bounded canonical ((sides m e left).2 ?_)
      rw [signed] at value
      rw [shown]
      linarith
  · rename_i equal
    have equal : total = 0 := Int.compare_eq_eq.mp equal
    rw [unpack_pack_zero]
    cases sign with
    | positive =>
      rw [equal, signed, Int.cast_zero] at value
      linarith
    | negative => exact Prod.Lex.toLex_le_toLex.mpr (.inr ⟨rfl, neg_nonpos.mpr below.le⟩)
  · rename_i more
    have more : 0 < total := Int.compare_eq_gt.mp more
    have shown : (total.toNat : ℚ) = total := by exact_mod_cast Int.toNat_of_nonneg (by omega)
    have some : 0 < total.toNat := by omega
    obtain ⟨mantissa, exponent, canonical, rounded, sides⟩ := exists_round some least .positive
    rw [rounded]
    cases sign with
    | positive =>
      refine place_finite_le_pack left canonical ((sides m e left).1 ?_)
      rw [shown, value, signed]
      linarith
    | negative => exact place_negative_le_pack_positive left canonical

theorem unpack_add (x y : Float) : (x + y).toModel.unpack = unpack .binary64
    (UnpackedFloat.pack .binary64 (UnpackedFloat.add .binary64 x.toModel.unpack
      y.toModel.unpack)) := rfl

theorem isNaN_add (number : x.isNaN = false) (finite : IsFinite y) : (x + y).isNaN = false := by
  refine isNaN_ofModel_pack ?_
  obtain ⟨sign, shape⟩ | ⟨sign, shape⟩ | ⟨sign, m, e, canonical, _, shape⟩ :=
    shape_of_number number
  · obtain ⟨t, other⟩ | ⟨t, n, f, q, other⟩ := zero_or_finite (finite_iff.mp finite) <;>
      · rw [shape, other]
        exact UnpackedFloat.noConfusion
  · exact add_ne (by rw [shape]; rfl) (finite_iff.mp finite)
  · exact add_ne (by rw [shape]; rfl) (finite_iff.mp finite)

/-- To add zero changes nothing, apart from the sign of another zero. -/
theorem add_eq_of_zero {sign : Sign} (zero : y.toModel.unpack = .zero sign) :
    x + y = x ∨ x.toModel.unpack = .zero .negative ∧ (x + y).toModel.unpack = .zero .positive := by
  have sum : x + y = Float.ofModel (Float.Model.pack
      (UnpackedFloat.add .binary64 x.toModel.unpack (.zero sign))) := by
    rw [← zero]
    rfl
  cases shape : x.toModel.unpack with
  | zero other =>
    rw [shape] at sum
    cases other with
    | positive =>
      refine .inl (sum.trans ?_)
      rw [← eq_of_unpack shape]
      cases sign <;> rfl
    | negative =>
      cases sign with
      | positive =>
        refine .inr ⟨rfl, ?_⟩
        rw [sum]
        rfl
      | negative =>
        refine .inl (sum.trans ?_)
        rw [← eq_of_unpack shape]
        rfl
  | _ =>
    rw [shape] at sum
    exact .inl (sum.trans (eq_of_unpack shape))

/-- A sum is not less than one of its parts where the other is not negative. -/
theorem le_add_of_nonneg (number : x.isNaN = false) (finite : IsFinite y) (nonneg : 0 ≤ y) :
    x ≤ x + y := by
  rw [le_iff_of_numbers number (isNaN_add number finite)]
  obtain infinite | ⟨sign, zero⟩ | ⟨sign, n, f, canonical, bounded, shape⟩ :=
    shape_of_number (isNaN_of_isFinite (finite_iff.mp finite))
  · obtain ⟨sign, infinite⟩ := infinite
    rw [finite_iff, infinite] at finite
    cases finite
  · obtain same | ⟨below, above⟩ := add_eq_of_zero (x := x) zero
    · rw [same]
    · rw [below, above]
      exact le_rfl
  · have positive : sign = .positive := by
      rw [le_iff, unpack_zero, shape] at nonneg
      cases sign with
      | positive => rfl
      | negative => cases nonneg
    subst positive
    rw [unpack_add, shape]
    obtain ⟨s, start⟩ | ⟨s, start⟩ | ⟨s, m, e, left, within, start⟩ := shape_of_number number
    · have sum : UnpackedFloat.add .binary64 (.infinity s)
          (.finite .positive n f canonical.positive) = .infinity s := rfl
      rw [start, sum, unpack_pack_infinity]
    · rw [start]
      have above := canonical.magnitude_pos
      have sum : UnpackedFloat.add .binary64 (.zero s)
          (.finite .positive n f canonical.positive) =
            .finite .positive n f canonical.positive := rfl
      rw [sum, unpack_pack canonical bounded]
      exact Prod.Lex.toLex_le_toLex.mpr (.inr ⟨rfl, above.le⟩)
    · rw [start]
      exact place_le_add left within canonical s

/-! Whole numbers, and zero. -/

theorem value_eq (number : Decimal.Binary) : number.value =
    (if number.negative then -number.significand else number.significand : Int) *
      (Nat.pow 2 number.exponent.toNat : ℕ) / (Nat.pow 2 (-number.exponent).toNat : ℕ) := by
  rw [Decimal.Binary.value, Rat.mkRat_eq_div]
  push_cast
  rfl

theorem value_neg_iff (number : Decimal.Binary) :
    number.value < 0 ↔ number.negative = true ∧ number.significand ≠ 0 := by
  have scale : (0 : ℚ) < (Nat.pow 2 number.exponent.toNat : ℕ) := by
    exact_mod_cast Nat.two_pow_pos _
  have unit : (0 : ℚ) < (Nat.pow 2 (-number.exponent).toNat : ℕ) := by
    exact_mod_cast Nat.two_pow_pos _
  rw [value_eq, div_lt_iff₀ unit, zero_mul, ← not_le, mul_nonneg_iff_of_pos_right scale, not_le,
    Int.cast_lt_zero]
  cases number.negative with
  | true =>
    rw [if_pos rfl, neg_lt_zero, Int.natCast_pos, Nat.pos_iff_ne_zero]
    simp
  | false =>
    rw [if_neg Bool.false_ne_true]
    simp

/-- Numbers are compared with zero exactly as they are with each other. -/
theorem isBelow_zero_iff : isBelow x 0 = true ↔ x < 0 := by
  unfold isBelow
  cases read : Decimal.Binary.ofFloat? x with
  | none => exact decide_eq_true_iff
  | some number =>
    show decide (number.value < 0) = true ↔ x < 0
    rw [decide_eq_true_iff, value_neg_iff, lt_iff, unpack_zero]
    obtain ⟨none, shape⟩ | ⟨canonical, _, shape⟩ := Decimal.unpack_of_ofFloat? read
    · rw [shape, none]
      cases number.negative <;> simp [Decimal.sign] <;> rfl
    · rw [shape]
      have filled := canonical.positive.ne'
      cases number.negative <;> simp [Decimal.sign, filled] <;> rfl

theorem unpack_of_beq_zero (zero : (x == 0) = true) : ∃ sign, x.toModel.unpack = .zero sign := by
  rw [beq_eq, unpack_zero] at zero
  have same := eq_of_beq zero
  cases shape : x.toModel.unpack with
  | zero sign => exact ⟨sign, rfl⟩
  | notANumber =>
    rw [shape] at same
    cases same
  | infinity sign =>
    rw [shape] at same
    cases sign <;> cases same
  | finite sign =>
    rw [shape] at same
    cases sign <;> cases same

theorem isUnsigned_ofScientific (whole : Nat) :
    isUnsigned (UnpackedFloat.ofScientific .binary64 whole 0) := by
  unfold UnpackedFloat.ofScientific
  by_cases none : whole = 0
  · rw [dif_pos none]
    rfl
  · rw [dif_neg none, if_neg (by show ¬(0 : Int) > 2048; omega),
      if_neg (by show ¬(0 : Int) < -(2048 + (whole.log2 : Int)); omega), if_pos le_rfl]
    exact isUnsigned_mul rfl rfl

/-- No natural number is taken for one below zero. -/
theorem not_ofNat_lt_zero (whole : Nat) : ¬Float.ofNat whole < 0 := by
  show ¬Float.ofScientific whole false 0 < 0
  unfold Float.ofScientific
  split
  · refine not_mul_lt_zero ?_ ?_
    · exact not_lt_zero_iff.mpr
        (isUnsigned_unpack_pack (isUnsigned_normalize (Int.natCast_nonneg _) _ _))
    · obtain ⟨m, e, positive, shape, _⟩ := isExactly_powerOfTen (by decide : 0 < 23)
      exact not_lt_zero_iff.mpr (congrArg isUnsigned shape)
  · exact not_lt_zero_iff.mpr (isUnsigned_unpack_pack (isUnsigned_ofScientific whole))

end Settlement.Binary64
