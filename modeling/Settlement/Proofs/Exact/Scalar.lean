import Mathlib.Analysis.SpecialFunctions.Pow.Real
import Settlement.Economy.Renewal
/-!
Exact arithmetic: economies over the real numbers. A given value that is a number denotes a real,
and the operations on given values denote the operations on reals.
-/
namespace Settlement

/-- Division of reals, whichever way arithmetic is reached. -/
noncomputable instance divReal : Div ℝ := DivInvMonoid.toDiv

/-- The whole part, rounded toward zero. -/
noncomputable def wholePart (x : ℝ) : Int := if x < 0 then ⌈x⌉ else ⌊x⌋

/-- Only zero has no negative powers. Messages show whole parts. -/
noncomputable instance exactScalar : Scalar ℝ where
  toZero := inferInstance
  toOne := inferInstance
  toNatCast := inferInstance
  toAdd := inferInstance
  toSub := inferInstance
  toMul := inferInstance
  toDiv := inferInstance
  toLE := inferInstance
  toLT := inferInstance
  decideLE := inferInstance
  decideLT := inferInstance
  isZero x := decide (x = 0)
  exp2 x := 2 ^ x
  power base exponent :=
    if base = 0 ∧ exponent < 0 then .error .zeroToNegativePower else .ok (base ^ exponent)
  divMod x y := (⌊x / y⌋, x - y * ⌊x / y⌋)
  truncate x := .ok (wholePart x)
  ofWhole value := .ok value
  ratio a b := .ok (a / b)
  isBelow x whole := decide (x < whole)
  isAbove x whole := decide ((whole : ℝ) < x)
  number x := .whole (wholePart x)

namespace Scalar

theorem larger_eq_max (a b : ℝ) : larger a b = max a b := by
  unfold larger
  split
  · rename_i less
    exact (max_eq_right (le_of_lt less)).symm
  · rename_i least
    exact (max_eq_left (not_lt.mp least)).symm

theorem smaller_eq_min (a b : ℝ) : smaller a b = min a b := by
  unfold smaller
  split
  · rename_i less
    exact (min_eq_right (le_of_lt less)).symm
  · rename_i least
    exact (min_eq_left (not_lt.mp least)).symm

theorem sum_eq (numbers : List ℝ) : sum numbers = numbers.sum :=
  (List.sum_eq_foldl).symm

theorem exp2_pos (x : ℝ) : 0 < exp2 x := Real.rpow_pos_of_pos two_pos x

theorem power_eq_ok_iff {base exponent value : ℝ} :
    power base exponent = .ok value ↔ ¬(base = 0 ∧ exponent < 0) ∧ base ^ exponent = value := by
  by_cases undefined : base = 0 ∧ exponent < 0
  · simp [power, undefined]
  · simp [power, undefined]

end Scalar

namespace Given

/-- The value is this number, whatever the form in which it was given. -/
inductive Denotes : Given ℝ → ℝ → Prop where
  | whole {given : Given ℝ} {number : Int} (exact : given.whole? = some number) :
      Denotes given number
  | real (x : ℝ) : Denotes (.real x) x

variable {a b : Given ℝ} {x y : ℝ}

theorem Denotes.operand (denotes : a.Denotes x) (fault : Document.Kind → Fault) :
    a.operand fault = .ok x := by
  cases denotes with
  | whole exact => cases a <;> simp_all [whole?, Given.operand, Scalar.ofWhole]
  | real x => rfl

theorem Denotes.factor (denotes : a.Denotes x) (operation : String) (ofEntry : Bool) :
    a.factor operation ofEntry = .ok x := denotes.operand _

theorem Denotes.isZero (denotes : a.Denotes x) : a.isZero = decide (x = 0) := by
  cases denotes with
  | @whole _ number exact =>
    have same : (number : ℝ) = 0 ↔ number = 0 := Int.cast_eq_zero
    rw [decide_eq_decide.mpr same]
    cases a with
    | truth value => cases value <;> cases exact <;> rfl
    | whole value => cases exact; rfl
    | _ => cases exact
  | real x => rfl

theorem Denotes.less? (left : a.Denotes x) (right : b.Denotes y) :
    Given.less? a b = some (decide (x < y)) := by
  cases left with
  | whole first =>
    cases right with
    | whole second => cases a <;> cases b <;> simp_all [whole?, Given.less?]
    | real y => cases a <;> simp_all [whole?, Given.less?, Scalar.isAbove]
  | real x =>
    cases right with
    | whole second => cases b <;> simp_all [whole?, Given.less?, Scalar.isBelow]
    | real y => rfl

theorem Denotes.isLess (left : a.Denotes x) (right : b.Denotes y) :
    a.isLess b = decide (x < y) := by
  rw [Given.isLess, left.less? right, Option.getD_some]

theorem Denotes.isNegative (denotes : a.Denotes x) : a.isNegative = .ok (decide (x < 0)) := by
  have zero : Given.Denotes (.whole 0) ((0 : Int) : ℝ) := .whole rfl
  rw [Given.isNegative, denotes.less? zero, Int.cast_zero]

theorem Denotes.larger (left : a.Denotes x) (right : b.Denotes y) :
    ∃ larger, a.larger b = .ok larger ∧ larger.Denotes (max x y) := by
  rw [Given.larger, left.less? right]
  by_cases less : x < y
  · exact ⟨b, by simp [less], by rwa [max_eq_right (le_of_lt less)]⟩
  · exact ⟨a, by simp [less], by rwa [max_eq_left (not_lt.mp less)]⟩

/-- Two numbers taken together are the numbers that they were. -/
inductive Pair.Denotes : Pair ℝ → ℝ → ℝ → Prop where
  | wholes (m n : Int) : Pair.Denotes (.wholes m n) m n
  | reals (x y : ℝ) : Pair.Denotes (.reals x y) x y

theorem Denotes.pair (left : a.Denotes x) (right : b.Denotes y) (operation : String) :
    ∃ taken, Given.pair operation a b = .ok taken ∧ taken.Denotes x y := by
  cases left with
  | @whole _ m first =>
    cases right with
    | @whole _ n second =>
      refine ⟨.wholes m n, ?_, .wholes m n⟩
      cases a <;> cases b <;> simp_all [whole?, Given.pair]
    | real y =>
      refine ⟨.reals m y, ?_, .reals m y⟩
      cases a <;> simp_all [whole?, Given.pair, Given.operand, Scalar.ofWhole] <;> rfl
  | real x =>
    cases right with
    | @whole _ n second =>
      refine ⟨.reals x n, ?_, .reals x n⟩
      cases b <;> simp_all [whole?, Given.pair, Given.operand, Scalar.ofWhole] <;> rfl
    | real y => exact ⟨.reals x y, rfl, .reals x y⟩

theorem Denotes.minus (left : a.Denotes x) (right : b.Denotes y) :
    ∃ difference, a.minus b = .ok difference ∧ difference.Denotes (x - y) := by
  obtain ⟨taken, success, denotes⟩ := left.pair right "-"
  cases denotes with
  | wholes m n =>
    refine ⟨.whole (m - n), by rw [Given.minus, success]; rfl, ?_⟩
    rw [← Int.cast_sub]
    exact .whole rfl
  | reals x y => exact ⟨.real (x - y), by rw [Given.minus, success]; rfl, .real _⟩

/-- Only a division by zero fails. -/
theorem Denotes.dividedBy_eq_ok_iff (left : a.Denotes x) (right : b.Denotes y) (value : ℝ) :
    a.dividedBy b = .ok value ↔ y ≠ 0 ∧ x / y = value := by
  obtain ⟨taken, success, denotes⟩ := left.pair right "/"
  simp only [Given.dividedBy, success, bind, Except.bind]
  cases denotes with
  | wholes m n =>
    split
    · simp_all
    · rename_i nonzero same
      cases same
      have divisor : (n : ℝ) ≠ 0 := Int.cast_ne_zero.mpr nonzero
      simp [Scalar.ratio, divisor]
    · simp_all
  | reals x y =>
    by_cases zero : y = 0 <;> simp [Scalar.quotient, Scalar.isZero, zero]

end Given

end Settlement
