import Settlement.Decimal.Shortest
import Settlement.Proofs.Binary64.Nearest
/-!
The shortest decimal of a number. It lies in the rounding interval of the number, so the number is
what is nearest to it; seventeen digits always suffice to find one.
-/
namespace Settlement.Decimal

open Binary64 (IsCanonical IsNear two_zpow_pos zpow_eq_div)

/-! The count of digits. -/

private theorem guess_bounds : ∀ bits < 2200,
    2 ^ (bits + 1) ≤ 10 ^ ((bits + 1) * 30103 / 100000 + 1) ∧
      10 ^ ((bits + 1) * 30103 / 100000 - 1) ≤ 2 ^ bits := by
  decide +kernel

theorem digitCount_bounds {number : Nat} (positive : 0 < number) (bits : number.log2 < 2200) :
    10 ^ (digitCount number - 1) ≤ number ∧ number < 10 ^ digitCount number := by
  obtain ⟨above, below⟩ := guess_bounds number.log2 bits
  have low : 2 ^ number.log2 ≤ number := Nat.log2_self_le positive.ne'
  have high : number < 2 ^ (number.log2 + 1) := Nat.lt_log2_self
  unfold digitCount
  dsimp only
  split
  · rename_i less
    exact ⟨below.trans low, less⟩
  · rename_i more
    exact ⟨not_lt.mp more, high.trans_le above⟩

private theorem two_pow_1074_le : 2 ^ 1074 ≤ 10 ^ 324 := by decide +kernel

private theorem two_pow_1024_mul_le : 2 ^ 1024 * 10 ^ 324 ≤ 2 ^ 2200 := by decide +kernel

/-! The rounding interval. -/

variable {number : Binary}

/-- The magnitude of a number. -/
def Binary.size (number : Binary) : ℚ := number.significand * 2 ^ number.exponent

theorem Binary.scaled_eq (number : Binary) (power : Nat) :
    ((number.scaled power).1 / (number.scaled power).2 : ℚ) = number.size * 10 ^ power := by
  have none : (-(power : Int)).toNat = 0 := by omega
  rw [scaled, size, zpow_eq_div two_ne_zero, Int.toNat_natCast, none]
  simp only [Nat.pow_eq]
  push_cast
  field_simp

section canonical

variable (canonical : IsCanonical number.significand number.exponent)
include canonical

theorem Binary.size_bounds (bounded : number.exponent ≤ 971) :
    (2 : ℚ) ^ (-1074 : Int) ≤ number.size ∧ number.size < 2 ^ (1024 : Int) := by
  have scale := two_zpow_pos number.exponent
  have first : (1 : ℚ) ≤ number.significand := by exact_mod_cast canonical.positive
  have last : (number.significand : ℚ) < 2 ^ 53 := by exact_mod_cast canonical.fits
  have least := canonical.least
  constructor
  · calc (2 : ℚ) ^ (-1074 : Int) ≤ 2 ^ number.exponent :=
          zpow_le_zpow_right₀ (by norm_num) least
      _ ≤ number.significand * 2 ^ number.exponent := le_mul_of_one_le_left scale.le first
  · calc number.size < 2 ^ 53 * 2 ^ number.exponent := mul_lt_mul_of_pos_right last scale
      _ = 2 ^ (number.exponent + (53 : Nat)) := (Binary64.two_zpow_add _ _).symm
      _ ≤ 2 ^ (1024 : Int) := zpow_le_zpow_right₀ (by norm_num) (by omega)

/-- Enough digits before the point for the smallest number to have one, and few enough for their
count to be guessed from the bits of the largest. -/
theorem Binary.floor_bounds (bounded : number.exponent ≤ 971) {whole : Nat}
    (made : whole = (number.scaled 324).1 / (number.scaled 324).2) :
    0 < whole ∧ whole.log2 < 2200 ∧
      whole ≤ number.size * 10 ^ 324 ∧ number.size * 10 ^ 324 < whole + 1 := by
  obtain ⟨low, high⟩ := size_bounds canonical bounded
  obtain ⟨scale, scaled⟩ : ∃ scale : ℚ, scale = 10 ^ 324 := ⟨_, rfl⟩
  rw [← scaled]
  have positive : 0 < scale := by
    rw [scaled]
    positivity
  have value : ((number.scaled 324).1 / (number.scaled 324).2 : ℚ) = number.size * scale :=
    scaled ▸ number.scaled_eq 324
  have floor : whole = ⌊number.size * scale⌋₊ := by
    rw [← value, made, Nat.floor_div_eq_div]
  have first : (1 : ℚ) ≤ 2 ^ (-1074 : Int) * scale := by
    rw [zpow_neg, zpow_ofNat, ← div_eq_inv_mul, le_div_iff₀ (by positivity), one_mul, scaled]
    exact_mod_cast two_pow_1074_le
  have large : 1 ≤ number.size * scale := first.trans (by gcongr)
  have below : (whole : ℚ) ≤ number.size * scale := floor ▸ Nat.floor_le (by linarith)
  have filled : 0 < whole := floor ▸ Nat.floor_pos.mpr large
  refine ⟨filled, ?_, below, floor ▸ Nat.lt_floor_add_one _⟩
  have less : (whole : ℚ) < 2 ^ 2200 := by
    calc (whole : ℚ) ≤ number.size * scale := below
      _ < 2 ^ (1024 : Int) * scale := by gcongr
      _ ≤ 2 ^ 2200 := by
        rw [zpow_ofNat, scaled]
        exact_mod_cast two_pow_1024_mul_le
  rw [Nat.log2_lt filled.ne']
  exact_mod_cast less

/-- The power of the leading digit is what it is said to be. -/
theorem Binary.leadingPower_bounds (bounded : number.exponent ≤ 971) :
    10 ^ number.leadingPower ≤ number.size ∧ number.size < 10 ^ (number.leadingPower + 1) := by
  obtain ⟨whole, made⟩ : ∃ whole, whole = (number.scaled 324).1 / (number.scaled 324).2 :=
    ⟨_, rfl⟩
  have lead : number.leadingPower = (digitCount whole : Int) - 325 := made ▸ rfl
  obtain ⟨filled, bits, below, above⟩ := floor_bounds canonical bounded made
  have positive : (0 : ℚ) < 10 ^ 324 := by positivity
  obtain ⟨least, most⟩ := digitCount_bounds filled bits
  obtain ⟨count, counted⟩ : ∃ count, digitCount whole = count + 1 := by
    refine ⟨digitCount whole - 1, (Nat.sub_add_cancel (Nat.one_le_iff_ne_zero.mpr ?_)).symm⟩
    intro none
    rw [none, pow_zero] at most
    omega
  rw [counted] at least most lead
  have least : (10 : ℚ) ^ count ≤ whole := by exact_mod_cast least
  have most : (whole : ℚ) + 1 ≤ 10 ^ (count + 1) := by exact_mod_cast most
  have down : (10 : ℚ) ^ number.leadingPower = 10 ^ count / 10 ^ 324 := by
    have exponents : number.leadingPower = count - (324 : Nat) := by omega
    rw [exponents, zpow_sub₀ (by norm_num), zpow_natCast, zpow_natCast]
  have up : (10 : ℚ) ^ (number.leadingPower + 1) = 10 ^ (count + 1) / 10 ^ 324 := by
    rw [zpow_add_one₀ (by norm_num), down, pow_succ _ count, div_mul_eq_mul_div]
  rw [down, up, div_le_iff₀ positive, lt_div_iff₀ positive]
  exact ⟨least.trans below, above.trans_le most⟩

end canonical

/-! Grids. -/

/-- The points of a grid, and the unit that the rounding interval is given in, as whole numbers. -/
def Binary.step (number : Binary) (power : Int) : Nat :=
  Nat.pow 10 power.toNat * Nat.pow 2 (2 - number.exponent).toNat

def Binary.unit (number : Binary) (power : Int) : Nat :=
  Nat.pow 2 (number.exponent - 2).toNat * Nat.pow 10 (-power).toNat

theorem Binary.step_div_unit (number : Binary) (power : Int) :
    (number.step power / number.unit power : ℚ) = 10 ^ power / 2 ^ (number.exponent - 2) := by
  have negated : -(number.exponent - 2) = 2 - number.exponent := by omega
  have tens := zpow_eq_div (by norm_num : (10 : ℚ) ≠ 0) power
  rw [step, unit, zpow_eq_div two_ne_zero, tens, negated]
  simp only [Nat.pow_eq]
  push_cast
  field_simp

variable {interval : Interval} {unit step point coefficient : Nat}

/-- What lies between the middle and a point of the interval belongs to it. -/
theorem Interval.holds_between {nearer : Nat} (holds : interval.holds unit point = true)
    (order : interval.low < interval.middle ∧ interval.middle < interval.high) (positive : 0 < unit)
    (between : (point ≤ nearer ∧ nearer ≤ interval.middle * unit) ∨
      (interval.middle * unit ≤ nearer ∧ nearer ≤ point)) :
    interval.holds unit nearer = true := by
  have low : interval.low * unit < interval.middle * unit :=
    Nat.mul_lt_mul_of_pos_right order.1 positive
  have high : interval.middle * unit < interval.high * unit :=
    Nat.mul_lt_mul_of_pos_right order.2 positive
  unfold Interval.holds at holds ⊢
  split at holds
  · rename_i closed
    rw [if_pos closed]
    simp only [Bool.and_eq_true, decide_eq_true_iff] at holds ⊢
    omega
  · rename_i closed
    rw [if_neg closed]
    simp only [Bool.and_eq_true, decide_eq_true_iff] at holds ⊢
    omega

/-- One of two neighbours that may or may not hold: the nearer one of those that do. -/
private def chosen? (lower upper : Bool) (below : Nat) (less more : Prop) [Decidable less]
    [Decidable more] : Option Nat :=
  if lower && upper then
    if less then some below
    else if more then some (below + 1)
    else some (below + below % 2)
  else if lower then some below
  else if upper then some (below + 1)
  else none

private theorem holds_of_chosen? {lower upper : Bool} {below : Nat} {less more : Prop}
    [Decidable less] [Decidable more] {holds : Nat → Prop} (first : lower = true → holds below)
    (second : upper = true → holds (below + 1))
    (found : chosen? lower upper below less more = some coefficient) : holds coefficient := by
  unfold chosen? at found
  cases lower <;> cases upper <;> simp only [Bool.and_self, Bool.and_true, Bool.and_false,
    Bool.false_eq_true, if_true, if_false] at found
  · cases found
  · cases found
    exact second rfl
  · cases found
    exact first rfl
  · split at found
    · cases found
      exact first rfl
    · split at found
      · cases found
        exact second rfl
      · cases found
        rcases Nat.mod_two_eq_zero_or_one below with even | odd
        · rw [even]
          exact first rfl
        · rw [odd]
          exact second rfl

private theorem exists_chosen? {lower upper : Bool} (either : lower = true ∨ upper = true)
    (below : Nat) (less more : Prop) [Decidable less] [Decidable more] :
    ∃ coefficient, chosen? lower upper below less more = some coefficient := by
  unfold chosen?
  rcases either with rfl | rfl <;> split_ifs <;> simp_all

section grid

variable {power : Int}

/-- What is found on a grid is in the interval. -/
theorem Binary.holds_of_onGrid? (found : number.onGrid? power = some coefficient) :
    number.interval.holds (number.unit power) (coefficient * number.step power) = true :=
  @holds_of_chosen? _ _ _ _ _ _ _ _ (fun coefficient =>
    number.interval.holds (number.unit power) (coefficient * number.step power) = true) id id found

theorem Binary.interval_order (positive : 0 < number.significand) :
    number.interval.low < number.interval.middle ∧
      number.interval.middle < number.interval.high := by
  unfold interval
  dsimp only
  constructor
  · split <;> omega
  · omega

theorem Binary.unit_pos (number : Binary) (power : Int) : 0 < number.unit power :=
  Nat.mul_pos (Nat.pow_pos (by decide)) (Nat.pow_pos (by decide))

theorem Binary.step_pos (number : Binary) (power : Int) : 0 < number.step power :=
  Nat.mul_pos (Nat.pow_pos (by decide)) (Nat.pow_pos (by decide))

/-- A grid with a point in the interval has one next to the number that is. -/
theorem Binary.exists_onGrid? (positive : 0 < number.significand)
    (holds : number.interval.holds (number.unit power) (coefficient * number.step power) = true) :
    ∃ found, number.onGrid? power = some found := by
  refine exists_chosen? ?_ _ _ _
  have between {nearer : Nat} := @Interval.holds_between number.interval (number.unit power)
    (coefficient * number.step power) nearer holds (interval_order positive)
    (number.unit_pos power)
  have step := number.step_pos power
  obtain ⟨below, made⟩ : ∃ below, below =
    number.interval.middle * number.unit power / number.step power := ⟨_, rfl⟩
  have floor : below * number.step power ≤ number.interval.middle * number.unit power :=
    made ▸ Nat.div_mul_le_self _ _
  have next : number.interval.middle * number.unit power < (below + 1) * number.step power := by
    rw [made, mul_comm (_ + 1)]
    exact Nat.lt_mul_div_succ _ step
  rcases Nat.lt_or_ge below coefficient with after | before
  · exact .inr (between (.inr ⟨made ▸ next.le, made ▸ Nat.mul_le_mul_right _ after⟩))
  · exact .inl (between (.inl ⟨made ▸ Nat.mul_le_mul_right _ before, made ▸ floor⟩))

/-- A grid that is finer than the interval is wide has a point in it. -/
theorem Interval.exists_holds (positive : 0 < step)
    (wide : interval.low * unit + step < interval.high * unit) :
    ∃ coefficient, interval.holds unit (coefficient * step) = true := by
  obtain ⟨last, made⟩ : ∃ last, last = (interval.high * unit - 1) / step := ⟨_, rfl⟩
  have floor : last * step ≤ interval.high * unit - 1 := made ▸ Nat.div_mul_le_self _ _
  have next : interval.high * unit - 1 < (last + 1) * step := by
    rw [made, mul_comm (_ + 1)]
    exact Nat.lt_mul_div_succ _ positive
  rw [Nat.succ_mul] at next
  refine ⟨last, ?_⟩
  unfold holds
  split
  · simp only [Bool.and_eq_true, decide_eq_true_iff]
    omega
  · simp only [Bool.and_eq_true, decide_eq_true_iff]
    omega

theorem Binary.exists_width (canonical : IsCanonical number.significand number.exponent) :
    ∃ width, number.interval.high = number.interval.low + width ∧
      4 * number.significand < width * 10 ^ 16 := by
  have positive := canonical.positive
  have fits := canonical.fits
  by_cases narrow : number.significand = Nat.pow 2 52 ∧ -1074 < number.exponent
  · refine ⟨3, ?_, ?_⟩
    · simp only [interval, decide_eq_true narrow, if_true]
      omega
    · rw [narrow.1]
      decide
  · refine ⟨4, ?_, by omega⟩
    simp only [interval, decide_eq_false narrow, Bool.false_eq_true, if_false]
    omega

/-- Seventeen digits are enough. -/
theorem Binary.exists_finest (canonical : IsCanonical number.significand number.exponent)
    (bounded : number.exponent ≤ 971) :
    ∃ found, number.onGrid? (number.leadingPower - 16) = some found := by
  obtain ⟨low, _⟩ := leadingPower_bounds canonical bounded
  obtain ⟨width, wide, most⟩ := exists_width canonical
  obtain ⟨power, finest⟩ : ∃ power, power = number.leadingPower - 16 := ⟨_, rfl⟩
  have scale := two_zpow_pos (number.exponent - 2)
  have unit : (0 : ℚ) < number.unit power := by exact_mod_cast number.unit_pos power
  have quarters : number.size = 4 * number.significand * 2 ^ (number.exponent - 2) := by
    rw [size, zpow_sub₀ (by norm_num)]
    ring
  have spaced : (10 : ℚ) ^ power * 10 ^ 16 ≤
      4 * number.significand * 2 ^ (number.exponent - 2) := by
    rw [← quarters]
    refine le_trans (le_of_eq ?_) low
    rw [finest, zpow_sub₀ (by norm_num)]
    field_simp
  have fine : (number.step power : ℚ) < width * number.unit power := by
    rw [← div_lt_iff₀ unit, step_div_unit, div_lt_iff₀ scale]
    have most : (4 * number.significand : ℚ) < width * 10 ^ 16 := by exact_mod_cast most
    nlinarith
  have fine : number.step power < width * number.unit power := by exact_mod_cast fine
  obtain ⟨coefficient, holds⟩ := Interval.exists_holds (number.step_pos power)
    (by rw [wide, Nat.add_mul]; omega : number.interval.low * number.unit power +
      number.step power < number.interval.high * number.unit power)
  exact finest ▸ exists_onGrid? canonical.positive holds

theorem Binary.searchGrids_found {leading : Int} {finer tried later : Nat}
    (first : tried ≤ later) (last : later < tried + finer)
    (found : ∃ coefficient, number.onGrid? (leading - later) = some coefficient) :
    number.onGrid? (number.searchGrids leading finer tried).power =
        some (number.searchGrids leading finer tried).coefficient ∧
      leading - (tried + finer) < (number.searchGrids leading finer tried).power := by
  induction finer generalizing tried with
  | zero => omega
  | succ finer ih =>
    rw [searchGrids]
    cases grid : number.onGrid? (leading - tried) with
    | some coefficient =>
      refine ⟨grid, ?_⟩
      dsimp only
      omega
    | none =>
      have after : tried ≠ later := by
        rintro rfl
        obtain ⟨coefficient, found⟩ := found
        rw [grid] at found
        cases found
      obtain ⟨some, low⟩ := ih (by omega : tried + 1 ≤ later) (by omega)
      refine ⟨some, ?_⟩
      dsimp only
      omega

theorem Binary.low_cast (positive : 0 < number.significand) :
    (number.interval.low : ℚ) = 4 * number.significand -
      if number.significand = 2 ^ 52 ∧ -1074 < number.exponent then 1 else 2 := by
  simp only [interval, decide_eq_true_iff, Nat.pow_eq]
  split_ifs
  · rw [Nat.cast_sub (by omega)]
    push_cast
    rfl
  · rw [Nat.cast_sub (by omega)]
    push_cast
    rfl

/-- What an interval holds lies between its ends, and on neither of them if they are open. -/
theorem Interval.bounds_of_holds {interval : Interval} {unit point : Nat} (positive : 0 < unit)
    (holds : interval.holds unit point = true) :
    (interval.low : ℚ) ≤ point / unit ∧ (point / unit : ℚ) ≤ interval.high ∧
      (interval.closed = false →
        (interval.low : ℚ) < point / unit ∧ (point / unit : ℚ) < interval.high) := by
  have positive : (0 : ℚ) < unit := by exact_mod_cast positive
  rw [le_div_iff₀ positive, div_le_iff₀ positive, lt_div_iff₀ positive, div_lt_iff₀ positive]
  unfold Interval.holds at holds
  split at holds
  · rename_i closed
    rw [Bool.and_eq_true, decide_eq_true_iff, decide_eq_true_iff] at holds
    rw [closed]
    exact ⟨by exact_mod_cast holds.1, by exact_mod_cast holds.2, nofun⟩
  · rw [Bool.and_eq_true, decide_eq_true_iff, decide_eq_true_iff] at holds
    have above : (interval.low * unit : ℚ) < point := by exact_mod_cast holds.1
    have below : (point : ℚ) < interval.high * unit := by exact_mod_cast holds.2
    exact ⟨above.le, below.le, fun _ => ⟨above, below⟩⟩

/-- What the interval holds is near the number. -/
theorem Binary.isNear_of_holds (positive : 0 < number.significand)
    (holds : number.interval.holds (number.unit power) (coefficient * number.step power) = true) :
    IsNear number.significand number.exponent (coefficient * 10 ^ power) := by
  have quarter : (coefficient * 10 ^ power : ℚ) / 2 ^ number.exponent =
      (coefficient * number.step power : ℕ) / number.unit power / 4 := by
    push_cast
    rw [mul_div_assoc (coefficient : ℚ) (number.step power : ℚ), step_div_unit,
      zpow_sub₀ (by norm_num)]
    ring
  have top : (number.interval.high : ℚ) = 4 * number.significand + 2 := by
    simp only [interval]
    push_cast
    rfl
  obtain ⟨low, high, strict⟩ := Interval.bounds_of_holds (number.unit_pos power) holds
  rw [low_cast positive] at low strict
  rw [top] at high strict
  refine ⟨?_, ?_, fun isOdd => ?_⟩
  · rw [quarter]
    split_ifs at low ⊢ <;> linarith
  · rw [quarter]
    linarith
  · have apart : ¬(number.significand = 2 ^ 52 ∧ -1074 < number.exponent) := by
      rintro ⟨same, _⟩
      rw [same] at isOdd
      omega
    have opened : number.interval.closed = false := by
      show decide (number.significand % 2 = 0) = false
      rw [isOdd]
      rfl
    obtain ⟨above, below⟩ := strict opened
    rw [if_neg apart] at above
    rw [quarter]
    exact ⟨by linarith, by linarith⟩

end grid

/-- The shortest decimal of a number is near it, and has at most eighteen digits. -/
theorem Binary.shortest_isNear (canonical : IsCanonical number.significand number.exponent)
    (bounded : number.exponent ≤ 971) :
    IsNear number.significand number.exponent
        (number.shortest.coefficient * 10 ^ number.shortest.power) ∧
      0 < number.shortest.coefficient ∧ number.shortest.coefficient < 10 ^ 18 := by
  have positive := canonical.positive
  have searched : number.shortest = number.searchGrids number.leadingPower 17 0 :=
    if_neg positive.ne'
  obtain ⟨found, least⟩ := @searchGrids_found number number.leadingPower 17 0 16 (by omega)
    (by omega) (exists_finest canonical bounded)
  rw [← searched] at found least
  have near := isNear_of_holds positive (holds_of_onGrid? found)
  obtain ⟨_, high⟩ := leadingPower_bounds canonical bounded
  have scale := two_zpow_pos number.exponent
  have low := (Binary64.bounds_of_isNear canonical bounded near).1
  have tens : (0 : ℚ) < 10 ^ number.shortest.power := zpow_pos (by norm_num) _
  refine ⟨near, Nat.pos_of_ne_zero fun none => ?_, ?_⟩
  · rw [none, Nat.cast_zero, zero_mul] at low
    exact absurd low (not_le.mpr (two_zpow_pos _))
  · have first : (1 : ℚ) ≤ number.significand := by exact_mod_cast positive
    have near := near.high
    rw [div_le_iff₀ scale] at near
    have less : (number.shortest.coefficient * 10 ^ number.shortest.power : ℚ) <
        10 ^ 18 * 10 ^ number.shortest.power := by
      calc (number.shortest.coefficient * 10 ^ number.shortest.power : ℚ)
          ≤ (number.significand + 1 / 2) * 2 ^ number.exponent := near
        _ ≤ 2 * number.significand * 2 ^ number.exponent := by
          gcongr
          linarith
        _ = 2 * number.size := mul_assoc _ _ _
        _ < 2 * 10 ^ (number.leadingPower + 1) := by gcongr
        _ ≤ 2 * 10 ^ (number.shortest.power + 17) :=
          mul_le_mul_of_nonneg_left (zpow_le_zpow_right₀ (by norm_num) (by omega)) (by norm_num)
        _ ≤ 10 ^ 18 * 10 ^ number.shortest.power := by
          rw [zpow_add₀ (by norm_num)]
          norm_num
          linarith
    exact_mod_cast lt_of_mul_lt_mul_right less tens.le

end Settlement.Decimal
