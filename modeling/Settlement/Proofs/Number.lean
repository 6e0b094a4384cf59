import Settlement.Proofs.Binary64.Order
/-!
Equality of numbers. Whole numbers are compared as such, reals in their arithmetic, and one with the
other by the exact value. All three are one comparison: every number has its place among the
rationals and the infinities, and the numbers of one place are equal.
-/
namespace Settlement

namespace Binary64

variable {x y : Float}

theorem signed_eq_value (number : Decimal.Binary) :
    signed (Decimal.sign number.negative) (number.significand * 2 ^ number.exponent) =
      number.value := by
  have scale : (2 : ℚ) ^ number.exponent =
      (Nat.pow 2 number.exponent.toNat : ℕ) / (Nat.pow 2 (-number.exponent).toNat : ℕ) := by
    rw [zpow_eq_div two_ne_zero, Nat.pow_eq, Nat.pow_eq]
    push_cast
    rfl
  rw [value_eq, scale, ← mul_div_assoc]
  cases number.negative with
  | true => simp [signed, Decimal.sign, neg_div]
  | false => simp [signed, Decimal.sign]

/-- The place of a finite number is its exact value. -/
theorem place_of_ofFloat? {number : Decimal.Binary}
    (read : Decimal.Binary.ofFloat? x = some number) :
    place x.toModel.unpack = toLex (0, number.value) := by
  rw [← signed_eq_value]
  obtain ⟨none, shape⟩ | ⟨_, _, shape⟩ := Decimal.unpack_of_ofFloat? read
  · rw [shape, none]
    cases number.negative <;> simp [place, signed, Decimal.sign]
  · rw [shape]
    rfl

/-- Reals are equal if they have one place; what is no number equals nothing. -/
theorem beq_iff : (x == y) = true ↔
    x.isNaN = false ∧ y.isNaN = false ∧ place x.toModel.unpack = place y.toModel.unpack := by
  constructor
  · intro same
    obtain ⟨left, right⟩ := numbers_of_beq same
    exact ⟨left, right, (beq_iff_place_eq (isProper_unpack left) (isProper_unpack right)).mp same⟩
  · rintro ⟨left, right, same⟩
    exact (beq_iff_place_eq (isProper_unpack left) (isProper_unpack right)).mpr same

/-- Among the rationals are the places of the finite numbers alone. -/
theorem isFinite_iff_of_place {value : ℚ} (place_eq : place x.toModel.unpack = toLex (0, value)) :
    IsFinite x ↔ x.isNaN = false := by
  constructor
  · exact isNaN_of_isFinite
  · intro number
    rw [finite_iff]
    obtain ⟨sign, shape⟩ | ⟨sign, shape⟩ | ⟨sign, m, e, canonical, _, shape⟩ :=
      shape_of_number number
    · rw [shape] at place_eq
      cases sign <;> cases congrArg (fun point => (ofLex point).1) place_eq
    · rw [shape]
      rfl
    · rw [shape]
      rfl

end Binary64

/-- The place of a quantity among the rationals and the infinities. -/
def Quantity.place : Quantity → ℤ ×ₗ ℚ
  | finite value => toLex (0, value)
  | infinite negative => toLex (if negative then -1 else 1, 0)

theorem Quantity.place_injective {a b : Quantity} (same : a.place = b.place) : a = b := by
  cases a with
  | finite value =>
    cases b with
    | finite other => simpa [place] using same
    | infinite negative => cases negative <;> simp [place] at same
  | infinite negative =>
    cases b with
    | finite other => cases negative <;> simp [place] at same
    | infinite other => cases negative <;> cases other <;> simp [place] at same ⊢

namespace Number

def isNaN : Number → Bool
  | whole _ => false
  | real value => value.isNaN

/-- Whole numbers are compared as such, and reals in their arithmetic. A whole number equals a real
that is finite and has exactly its value. -/
def Equal : Number → Number → Prop
  | whole a, whole b => a = b
  | real x, real y => (x == y) = true
  | whole a, real x | real x, whole a =>
    Binary64.IsFinite x ∧ Binary64.place x.toModel.unpack = toLex (0, (a : ℚ))

/-- The place of a number, whole or real. -/
def place : Number → ℤ ×ₗ ℚ
  | whole value => toLex (0, (value : ℚ))
  | real value => Binary64.place value.toModel.unpack

variable {a b c : Number}

/-- Numbers are equal if they have one place, whichever way they are written. -/
theorem equal_iff : a.Equal b ↔ a.isNaN = false ∧ b.isNaN = false ∧ a.place = b.place := by
  have mixed (value : Int) (x : Float) :
      Binary64.IsFinite x ∧ Binary64.place x.toModel.unpack = toLex (0, (value : ℚ)) ↔
        x.isNaN = false ∧ Binary64.place x.toModel.unpack = toLex (0, (value : ℚ)) :=
    and_congr_left Binary64.isFinite_iff_of_place
  cases a with
  | whole value =>
    cases b with
    | whole other => simp [Equal, isNaN, place]
    | real x => simp [Equal, isNaN, place, mixed, eq_comm]
  | real x =>
    cases b with
    | whole other => simp [Equal, isNaN, place, mixed]
    | real y => exact Binary64.beq_iff

theorem equal_self (number : a.isNaN = false) : a.Equal a :=
  equal_iff.mpr ⟨number, number, rfl⟩

theorem Equal.symm (equal : a.Equal b) : b.Equal a := by
  obtain ⟨left, right, same⟩ := equal_iff.mp equal
  exact equal_iff.mpr ⟨right, left, same.symm⟩

theorem Equal.trans (first : a.Equal b) (second : b.Equal c) : a.Equal c := by
  obtain ⟨left, _, same⟩ := equal_iff.mp first
  obtain ⟨_, right, other⟩ := equal_iff.mp second
  exact equal_iff.mpr ⟨left, right, same.trans other⟩

/-! What numbers stand for. -/

theorem exists_quantity (number : a.isNaN = false) :
    ∃ quantity, a.quantity? = some quantity ∧ quantity.place = a.place := by
  cases a with
  | whole value => exact ⟨_, rfl, rfl⟩
  | real x =>
    cases read : Decimal.Binary.ofFloat? x with
    | some binary =>
      refine ⟨.finite binary.value, ?_, (Binary64.place_of_ofFloat? read).symm⟩
      simp only [quantity?, read]
    | none =>
      obtain rfl | rfl | rfl := Binary64.special_of_ofFloat?_eq_none read
      · cases number
      · exact ⟨.infinite false, rfl, rfl⟩
      · exact ⟨.infinite true, rfl, rfl⟩

theorem quantity?_of_isNaN (nan : a.isNaN = true) : a.quantity? = none := by
  cases a with
  | whole value => cases nan
  | real x =>
    have nan : x.isNaN = true := nan
    cases read : Decimal.Binary.ofFloat? x with
    | some binary =>
      have number := Binary64.isNaN_of_isFinite (Binary64.finite_of_ofFloat? read)
      cases number.symm.trans nan
    | none => simp only [quantity?, read, nan, if_true]

/-- What is compared is whether numbers are equal. -/
theorem same_iff_equal : a.same b = true ↔ a.Equal b := by
  rw [same_eq_true_iff, equal_iff]
  constructor
  · rintro ⟨quantity, left, right⟩
    have number {c : Number} (read : c.quantity? = some quantity) : c.isNaN = false := by
      cases known : c.isNaN with
      | false => rfl
      | true => cases (quantity?_of_isNaN known).symm.trans read
    obtain ⟨_, found, first⟩ := exists_quantity (number left)
    obtain ⟨_, other, second⟩ := exists_quantity (number right)
    cases found.symm.trans left
    cases other.symm.trans right
    exact ⟨number left, number right, first.symm.trans second⟩
  · rintro ⟨left, right, same⟩
    obtain ⟨quantity, found, first⟩ := exists_quantity left
    obtain ⟨other, read, second⟩ := exists_quantity right
    obtain rfl := Quantity.place_injective (first.trans (same.trans second.symm))
    exact ⟨quantity, found, read⟩

end Number

end Settlement
