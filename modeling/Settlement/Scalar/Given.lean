import Settlement.Scalar.Basic
/-!
Values as they were given. Truth values, whole numbers and reals are kept apart, and a value that
is no number is known by its kind alone. Whole numbers are exact until they meet a real.
-/
namespace Settlement

inductive Given (R : Type) where
  | truth (value : Bool)
  | whole (value : Int)
  | real (value : R)
  | other (kind : Document.Kind)

namespace Given

variable {R : Type} [Scalar R]

def kind : Given R → Document.Kind
  | truth _ => .boolean
  | whole _ => .whole
  | real _ => .real
  | other kind => kind

/-- Whole numbers, and the truth values as one and zero. -/
def whole? : Given R → Option Int
  | truth value => some (if value then 1 else 0)
  | whole value => some value
  | _ => none

/-- A number as a real, or the fault of a value that is none. -/
def operand (fault : Document.Kind → Fault) : Given R → Except Fault R
  | truth value => Scalar.ofWhole (if value then 1 else 0)
  | whole value => Scalar.ofWhole value
  | real value => .ok value
  | other kind => .error (fault kind)

/-- A value that is multiplied by a real, which may be the entry of a table. -/
def factor (operation : String) (ofEntry : Bool) (value : Given R) : Except Fault R :=
  value.operand fun
    | .text | .list => .repeatedSequence ofEntry
    | kind => .notOperand operation kind .real

/-- Two operands, as exact as they can be taken together. -/
inductive Pair (R : Type) where
  | wholes (a b : Int)
  | reals (a b : R)

def pair (operation : String) (a b : Given R) : Except Fault (Pair R) :=
  let fault := Fault.notOperand operation a.kind b.kind
  match a, b with
  | other _, _ | _, other _ => .error fault
  | a, b =>
    match a.whole?, b.whole? with
    | some x, some y => .ok (.wholes x y)
    | _, _ => do return .reals (← a.operand fun _ => fault) (← b.operand fun _ => fault)

def minus (a b : Given R) : Except Fault (Given R) := do
  match ← pair "-" a b with
  | .wholes x y => return whole (x - y)
  | .reals x y => return real (x - y)

/-- A sequence times a whole number is again a sequence. -/
def times (a b : Given R) : Except Fault (Given R) :=
  match a, b with
  | other .text, real _ | other .list, real _ => .error (.repeatedSequence false)
  | other .text, whole _ | other .text, truth _ => .ok (other .text)
  | other .list, whole _ | other .list, truth _ => .ok (other .list)
  | a, b => do
    match ← pair "*" a b with
    | .wholes x y => return whole (x * y)
    | .reals x y => return real (x * y)

/-- The quotient, rounded once. -/
def dividedBy (a b : Given R) : Except Fault R := do
  match ← pair "/" a b with
  | .wholes _ 0 => .error (.divisionByZero true)
  | .wholes x y => Scalar.ratio x y
  | .reals x y => Scalar.quotient x y

/-- Whether one number is less than another, exactly; nothing if one is no number. -/
def less? : Given R → Given R → Option Bool
  | real x, real y => some (decide (x < y))
  | real x, b => b.whole?.map (Scalar.isBelow x)
  | a, real y => a.whole?.map (Scalar.isAbove y)
  | a, b => do return decide ((← a.whole?) < (← b.whole?))

def isLess (a b : Given R) : Bool := (less? a b).getD false

/-- The first number unless the second is greater. -/
def larger (a b : Given R) : Except Fault (Given R) :=
  match less? a b with
  | some true => .ok b
  | some false => .ok a
  | none => .error (.notOrdered ">" b.kind a.kind)

def isNegative (value : Given R) : Except Fault Bool :=
  match less? value (whole 0) with
  | some answer => .ok answer
  | none => .error (.notOrdered "<" value.kind .whole)

def isZero : Given R → Bool
  | truth value => !value
  | whole value => value == 0
  | real value => Scalar.isZero value
  | other _ => false

/-- How often something is to be done: a whole number. -/
def count (value : Given R) : Except Fault Int :=
  match value.whole? with
  | some count => .ok count
  | none => .error (.notWhole value.kind)

/-- The whole part of a number, and zero where there is none. -/
def wholePart : Given R → Int
  | real value => (Scalar.truncate value).toOption.getD 0
  | value => value.whole?.getD 0

/-- The number that messages show. -/
def number : Given R → Number
  | real value => Scalar.number value
  | value => .whole (value.whole?.getD 0)

@[simp]
theorem isNegative_whole (value : Int) :
    (whole value : Given R).isNegative = .ok (decide (value < 0)) := rfl

omit [Scalar R] in
theorem count_eq_ok_iff {given : Given R} {count : Int} :
    given.count = .ok count ↔ given.whole? = some count := by
  unfold Given.count
  cases given.whole? <;> simp

end Given

end Settlement
