import Settlement.Proofs.Binary64
/-!
Rounding to binary64. A point that lies in the rounding interval of a number is rounded to it,
whatever bits it is given by, as long as these are as fine as the number's own. The point may lie
just below a power of two, where numbers are twice as dense: then it is first rounded there.
-/
namespace Settlement.Binary64

open Float.Model
open Float.Model.UnpackedFloat

/-! Mantissas with residual bits. -/

/-- The point that a mantissa stands for together with its residual bits, as far as they tell. -/
def StandsFor (extended : ExtendedMantissa) (point : ℚ) : Prop :=
  match extended with
  | ⟨mantissa, false, false⟩ => point = mantissa
  | ⟨mantissa, false, true⟩ => mantissa < point ∧ point < mantissa + 1 / 2
  | ⟨mantissa, true, false⟩ => point = mantissa + 1 / 2
  | ⟨mantissa, true, true⟩ => mantissa + 1 / 2 < point ∧ point < mantissa + 1

variable {extended : ExtendedMantissa} {point : ℚ}

theorem StandsFor.floor (standsFor : StandsFor extended point) :
    extended.mantissa ≤ point ∧ point < extended.mantissa + 1 := by
  obtain ⟨mantissa, round, sticky⟩ := extended
  cases round <;> cases sticky <;> simp only [StandsFor] at standsFor <;>
    constructor <;> linarith

/-- What is shifted out goes into the residual bits. -/
theorem StandsFor.shiftRightOne (standsFor : StandsFor extended point) :
    StandsFor extended.shiftRightOne (point / 2) := by
  obtain ⟨mantissa, round, sticky⟩ := extended
  have parts : (mantissa : ℚ) = 2 * (mantissa / 2 : ℕ) + (mantissa % 2 : ℕ) := by
    exact_mod_cast (Nat.div_add_mod mantissa 2).symm
  rcases Nat.mod_two_eq_zero_or_one mantissa with parity | parity <;>
    rw [parity] at parts <;> push_cast at parts <;> cases round <;> cases sticky <;>
    simp [StandsFor, ExtendedMantissa.shiftRightOne, parity] at standsFor ⊢
  all_goals first | linarith | exact ⟨by linarith, by linarith⟩

theorem StandsFor.shiftRight (standsFor : StandsFor extended point) (count : Nat) :
    StandsFor (extended >>> count) (point / 2 ^ count) := by
  show StandsFor (count.repeat ExtendedMantissa.shiftRightOne extended) _
  induction count with
  | zero => simpa [Nat.repeat] using standsFor
  | succ count ih =>
    rw [Nat.repeat, pow_succ, ← div_div]
    exact ih.shiftRightOne

/-- A point that is nearest to a number, or as near to it as to a neighbour if that number is
even. -/
structure RoundsTo (point : ℚ) (number : Nat) : Prop where
  low : number - 1 / 2 ≤ point
  high : point ≤ number + 1 / 2
  odd : number % 2 = 1 → number - 1 / 2 < point ∧ point < number + 1 / 2

theorem StandsFor.roundedMantissa {number : Nat} (standsFor : StandsFor extended point)
    (rounds : RoundsTo point number) : extended.roundedMantissa = number := by
  obtain ⟨low, high, odd⟩ := rounds
  have near (other : Nat) (above : (number : ℚ) < other + 1) (below : (other : ℚ) < number + 1) :
      other = number := by
    have above : number < other + 1 := by exact_mod_cast above
    have below : other < number + 1 := by exact_mod_cast below
    omega
  obtain ⟨mantissa, round, sticky⟩ := extended
  cases round <;> cases sticky <;> simp only [StandsFor] at standsFor
  · exact near mantissa (by linarith) (by linarith)
  · exact near mantissa (by linarith) (by linarith)
  · have even : number % 2 ≠ 1 := by
      intro isOdd
      obtain ⟨low, high⟩ := odd isOdd
      have below : mantissa < number := by exact_mod_cast (by linarith : (mantissa : ℚ) < number)
      have above : number < mantissa + 1 := by
        exact_mod_cast (by linarith : (number : ℚ) < mantissa + 1)
      omega
    have below : mantissa ≤ number := by exact_mod_cast (by linarith : (mantissa : ℚ) ≤ number)
    have above : number ≤ mantissa + 1 := by
      exact_mod_cast (by linarith : (number : ℚ) ≤ mantissa + 1)
    show mantissa + mantissa % 2 = number
    omega
  · refine near (mantissa + 1) ?_ ?_ <;> push_cast <;> linarith

/-! Numbers in their own form. -/

/-- The mantissa has all its bits, unless the exponent is the least. -/
structure IsCanonical (mantissa : Nat) (exponent : Int) : Prop where
  positive : 0 < mantissa
  fits : mantissa < 2 ^ 53
  least : -1074 ≤ exponent
  full : exponent = -1074 ∨ 2 ^ 52 ≤ mantissa

/-- The points that are rounded to a number. Those below a power of two lie half as far from it,
except at the least exponent. -/
structure IsNear (mantissa : Nat) (exponent : Int) (value : ℚ) : Prop where
  low : mantissa - (if mantissa = 2 ^ 52 ∧ -1074 < exponent then 1 / 4 else 1 / 2) ≤
    value / 2 ^ exponent
  high : value / 2 ^ exponent ≤ mantissa + 1 / 2
  odd : mantissa % 2 = 1 →
    mantissa - 1 / 2 < value / 2 ^ exponent ∧ value / 2 ^ exponent < mantissa + 1 / 2

variable {mantissa : Nat} {exponent : Int}

theorem targetExponent_eq (total : Int) :
    Format.binary64.targetExponent total = max (total - 53) (-1074) := rfl

theorem IsCanonical.targetExponent (canonical : IsCanonical mantissa exponent) :
    Format.binary64.targetExponent (totalExponent mantissa exponent) = exponent := by
  obtain ⟨positive, fits, least, full⟩ := canonical
  have small : mantissa.log2 < 53 := (Nat.log2_lt positive.ne').mpr fits
  rw [targetExponent_eq, totalExponent]
  rcases full with rfl | full
  · omega
  · have large : 52 ≤ mantissa.log2 := (Nat.le_log2 positive.ne').mpr full
    omega

/-! The place at which a value is rounded. -/

theorem two_zpow_pos (power : Int) : (0 : ℚ) < 2 ^ power := zpow_pos (by norm_num) _

theorem two_zpow_add (power : Int) (count : Nat) :
    (2 : ℚ) ^ (power + count) = 2 ^ count * 2 ^ power := by
  rw [zpow_add₀ (by norm_num), zpow_natCast, mul_comm]

theorem two_zpow_of_le {low high : Int} (below : low ≤ high) :
    (2 : ℚ) ^ high = 2 ^ (high - low).toNat * 2 ^ low := by
  rw [← two_zpow_add]
  congr 1
  omega

theorem lt_of_two_zpow_lt {a b : Int} (less : (2 : ℚ) ^ a < 2 ^ b) : a < b :=
  (zpow_lt_zpow_iff_right₀ (by norm_num)).mp less

variable {value : ℚ} {shown : Nat} {power : Int}

/-- A value lies between the powers of two around its first bit. -/
theorem binade_of_floor (positive : 0 < shown) (low : shown * 2 ^ power ≤ value)
    (high : value < (shown + 1) * 2 ^ power) :
    2 ^ (totalExponent shown power - 1) ≤ value ∧ value < 2 ^ totalExponent shown power := by
  have first : (2 : ℚ) ^ shown.log2 ≤ shown := by exact_mod_cast Nat.log2_self_le positive.ne'
  have last : (shown : ℚ) + 1 ≤ 2 ^ (shown.log2 + 1) := by exact_mod_cast Nat.lt_log2_self
  have scale := two_zpow_pos power
  constructor
  · have same : totalExponent shown power - 1 = power + (shown.log2 : Nat) := by
      rw [totalExponent]
      omega
    rw [same, two_zpow_add]
    exact le_trans (mul_le_mul_of_nonneg_right first scale.le) low
  · have same : totalExponent shown power = power + (shown.log2 + 1 : Nat) := by
      rw [totalExponent]
      omega
    rw [same, two_zpow_add]
    exact lt_of_lt_of_le high (mul_le_mul_of_nonneg_right last scale.le)

/-- A value that fills the mantissa at some place, or stands at the least place of all, is rounded
there. -/
theorem targetExponent_of_place {place : ℚ} (least : -1074 ≤ exponent)
    (full : exponent = -1074 ∨ 2 ^ 52 ≤ place) (fits : place < 2 ^ 53)
    (low : shown * 2 ^ power ≤ place * 2 ^ exponent)
    (high : place * 2 ^ exponent < (shown + 1) * 2 ^ power)
    (fine : power ≤ Format.binary64.targetExponent (totalExponent shown power)) :
    Format.binary64.targetExponent (totalExponent shown power) = exponent := by
  have scale := two_zpow_pos exponent
  rw [targetExponent_eq] at fine ⊢
  have top : (place * 2 ^ exponent : ℚ) < 2 ^ (exponent + (53 : Nat)) := by
    rw [two_zpow_add]
    exact mul_lt_mul_of_pos_right fits scale
  have bottom (filled : (2 : ℚ) ^ 52 ≤ place) :
      (2 : ℚ) ^ (exponent + (52 : Nat)) ≤ place * 2 ^ exponent := by
    rw [two_zpow_add]
    exact mul_le_mul_of_nonneg_right filled scale.le
  rcases Nat.eq_zero_or_pos shown with rfl | positive
  · -- Without any bits the value is below the least place.
    have total : totalExponent 0 power = 1 + power := rfl
    rw [total] at fine ⊢
    rcases full with rfl | filled
    · omega
    · have less : (2 : ℚ) ^ (exponent + (52 : Nat)) < 2 ^ power := by
        refine lt_of_le_of_lt (bottom filled) ?_
        simpa using high
      have := lt_of_two_zpow_lt less
      omega
  · obtain ⟨first, last⟩ := binade_of_floor positive low high
    have upper := lt_of_two_zpow_lt (lt_of_le_of_lt first top)
    rcases full with rfl | filled
    · omega
    · have lower := lt_of_two_zpow_lt (lt_of_le_of_lt (bottom filled) last)
      omega

/-- Near a number, values are rounded at its own place, except for those just below a power of two,
which are rounded at the place below it. -/
theorem target_of_isNear (canonical : IsCanonical mantissa exponent)
    (near : IsNear mantissa exponent value) (low : shown * 2 ^ power ≤ value)
    (high : value < (shown + 1) * 2 ^ power)
    (fine : power ≤ Format.binary64.targetExponent (totalExponent shown power)) :
    (Format.binary64.targetExponent (totalExponent shown power) = exponent ∧
      RoundsTo (value / 2 ^ exponent) mantissa) ∨
    (Format.binary64.targetExponent (totalExponent shown power) = exponent - 1 ∧
      mantissa = 2 ^ 52 ∧ -1074 < exponent ∧ RoundsTo (value / 2 ^ (exponent - 1)) (2 ^ 53)) := by
  obtain ⟨positive, fits, least, full⟩ := canonical
  obtain ⟨nearLow, nearHigh, nearOdd⟩ := near
  have below : (mantissa : ℚ) + 1 ≤ 2 ^ 53 := by exact_mod_cast fits
  have scale := two_zpow_pos exponent
  have placed : value = value / 2 ^ exponent * 2 ^ exponent := by field_simp
  generalize value / 2 ^ exponent = place at nearLow nearHigh nearOdd placed ⊢
  subst placed
  by_cases dense : mantissa = 2 ^ 52 ∧ -1074 < exponent ∧ place < 2 ^ 52
  · obtain ⟨rfl, above, short⟩ := dense
    rw [if_pos ⟨rfl, above⟩] at nearLow
    push_cast at nearLow
    have halved : (2 : ℚ) ^ exponent = 2 * 2 ^ (exponent - 1) := by
      rw [zpow_sub_one₀ (by norm_num)]
      field_simp
    have finer : place * (2 : ℚ) ^ exponent = 2 * place * 2 ^ (exponent - 1) := by
      rw [halved]
      ring
    have same : place * (2 : ℚ) ^ exponent / 2 ^ (exponent - 1) = 2 * place := by
      rw [finer, mul_div_cancel_right₀ _ (two_zpow_pos _).ne']
    rw [finer] at low high
    refine .inr ⟨?_, rfl, above, ?_⟩
    · exact targetExponent_of_place (by omega) (.inr (by linarith)) (by linarith) low high fine
    · rw [same]
      refine ⟨?_, ?_, by norm_num⟩ <;> push_cast <;> linarith
  · have apart : mantissa - 1 / 2 ≤ place := by
      split_ifs at nearLow <;> linarith
    have filled : exponent = -1074 ∨ (2 : ℚ) ^ 52 ≤ place := by
      rcases full with lowest | full
      · exact .inl lowest
      rcases least.eq_or_lt with lowest | above
      · exact .inl lowest.symm
      rcases full.eq_or_lt with first | later
      · exact .inr (not_lt.mp fun short => dense ⟨first.symm, above, short⟩)
      · have later : (2 : ℚ) ^ 52 + 1 ≤ mantissa := by exact_mod_cast later
        exact .inr (by linarith)
    exact .inl ⟨targetExponent_of_place least filled (by linarith) low high fine,
      apart, nearHigh, nearOdd⟩

/-! Rounding. -/

theorem shiftToTargetExponent_eq (shown : Nat) (power : Int) (accuracy : Accuracy)
    (fine : power ≤ Format.binary64.targetExponent (totalExponent shown power)) :
    shiftToTargetExponent .binary64 shown power accuracy =
      (ExtendedMantissa.ofMantissaAndAccuracy shown accuracy >>>
          (Format.binary64.targetExponent (totalExponent shown power) - power).toNat,
        Format.binary64.targetExponent (totalExponent shown power)) := by
  rw [shiftToTargetExponent, shiftToExponent]
  refine Prod.ext rfl ?_
  dsimp only
  omega

/-- A value lies between the mantissa that is shown of it and the next one. -/
theorem StandsFor.bounds {accuracy : Accuracy}
    (standsFor : StandsFor (.ofMantissaAndAccuracy shown accuracy) (value / 2 ^ power)) :
    shown * 2 ^ power ≤ value ∧ value < (shown + 1) * 2 ^ power := by
  have scale := two_zpow_pos power
  have same : (ExtendedMantissa.ofMantissaAndAccuracy shown accuracy).mantissa = shown := by
    unfold ExtendedMantissa.ofMantissaAndAccuracy
    split <;> rfl
  obtain ⟨low, high⟩ := standsFor.floor
  rw [same] at low high
  exact ⟨(le_div_iff₀ scale).mp low, (div_lt_iff₀ scale).mp high⟩

/-- A mantissa that is shifted to a higher place stands for what the value is there. -/
theorem StandsFor.shiftTo {target : Int} (standsFor : StandsFor extended (value / 2 ^ power))
    (fine : power ≤ target) :
    StandsFor (extended >>> (target - power).toNat) (value / 2 ^ target) := by
  rw [two_zpow_of_le fine, mul_comm, ← div_div]
  exact standsFor.shiftRight _

/-- What is near a number is rounded to it. -/
theorem roundWithAccuracy_eq {accuracy : Accuracy} (canonical : IsCanonical mantissa exponent)
    (near : IsNear mantissa exponent value)
    (standsFor : StandsFor (.ofMantissaAndAccuracy shown accuracy) (value / 2 ^ power))
    (fine : power ≤ Format.binary64.targetExponent (totalExponent shown power)) (sign : Sign) :
    roundWithAccuracy .binary64 sign shown power accuracy =
      .finite sign mantissa exponent canonical.positive := by
  obtain ⟨low, high⟩ := standsFor.bounds
  have shifted := standsFor.shiftTo fine
  rw [roundWithAccuracy, shiftToTargetExponent_eq _ _ _ fine]
  dsimp only
  obtain ⟨target, rounds⟩ | ⟨target, rfl, above, rounds⟩ :=
    target_of_isNear canonical near low high fine
  · rw [target] at shifted ⊢
    rw [shifted.roundedMantissa rounds,
      shiftToTargetExponent_eq _ _ _ canonical.targetExponent.ge, canonical.targetExponent,
      sub_self]
    exact dif_neg canonical.positive.ne'
  · rw [target] at shifted ⊢
    have again : Format.binary64.targetExponent (totalExponent (2 ^ 53) (exponent - 1)) =
        exponent := by
      have bits : (2 ^ 53).log2 = 53 := by decide
      rw [targetExponent_eq, totalExponent, bits]
      omega
    rw [shifted.roundedMantissa rounds, shiftToTargetExponent_eq _ _ _ (by omega), again,
      sub_sub_cancel]
    rfl

end Settlement.Binary64
