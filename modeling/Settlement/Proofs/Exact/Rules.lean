import Settlement.Economy.Tick
import Settlement.Proofs.Exact.Scalar
/-!
The parameters of a tick as real numbers, and which of them are admissible.
-/
namespace Settlement

structure ExactRules where
  valueSmoothing : ℝ
  valueFloor : Table Good ℝ
  valueCeiling : Table Good ℝ
  laborSmoothing : ℝ
  ratioFloor : ℝ
  floorDivisor : ℝ
  exponent : ℝ
  birthRate : ℝ
  deathRate : ℝ
  clamped : Bool

/-- Every parameter is a number, and this one. -/
structure Rules.Denotes (rules : Rules ℝ) (exact : ExactRules) : Prop where
  valueSmoothing : rules.values.smoothing.Denotes exact.valueSmoothing
  bounds : ∃ bounds, rules.values.bounds = .ok bounds ∧ ∀ good : Good,
    bounds[good].floor.Denotes exact.valueFloor[good] ∧
      bounds[good].ceiling.Denotes exact.valueCeiling[good]
  ceilings : rules.values.ceilings = .ok exact.valueCeiling
  laborSmoothing : rules.labor.smoothing.Denotes exact.laborSmoothing
  ratioFloor : rules.labor.ratioFloor.Denotes exact.ratioFloor
  floorDivisor : rules.labor.floorDivisor.Denotes exact.floorDivisor
  exponent : rules.exponent.Denotes exact.exponent
  birthRate : rules.demography.birthRate.Denotes exact.birthRate
  deathRate : rules.demography.deathRate.Denotes exact.deathRate
  clamped : rules.demography.clamped = exact.clamped

/-- The parameters under which no tick fails. -/
structure ExactRules.Safe (rules : ExactRules) : Prop where
  valueSmoothing : rules.valueSmoothing ∈ Set.Icc 0 1
  valueFloor : ∀ good : Good, 0 ≤ rules.valueFloor[good]
  laborSmoothing : rules.laborSmoothing ∈ Set.Icc 0 1
  ratioFloor : 0 < rules.ratioFloor
  floorDivisor : 0 < rules.floorDivisor

/-- The parameters that keep all bounds of an economy. -/
structure ExactRules.Admissible (rules : ExactRules) : Prop where
  valueSmoothing : rules.valueSmoothing ∈ Set.Icc 0 1
  valueFloor : ∀ good : Good, 0 ≤ rules.valueFloor[good]
  valueCeiling : ∀ good : Good, rules.valueFloor[good] < rules.valueCeiling[good]
  laborSmoothing : rules.laborSmoothing ∈ Set.Ico 0 1
  ratioFloor : 0 < rules.ratioFloor
  floorDivisor : 1 ≤ rules.floorDivisor
  clamped : rules.clamped = true

theorem ExactRules.Admissible.safe {rules : ExactRules} (admissible : rules.Admissible) :
    rules.Safe where
  valueSmoothing := admissible.valueSmoothing
  valueFloor := admissible.valueFloor
  laborSmoothing := ⟨admissible.laborSmoothing.1, le_of_lt admissible.laborSmoothing.2⟩
  ratioFloor := admissible.ratioFloor
  floorDivisor := lt_of_lt_of_le one_pos admissible.floorDivisor

/-- Parameters that are given as reals. -/
def Rules.ofExact (exact : ExactRules) : Rules ℝ where
  values := {
    smoothing := .real exact.valueSmoothing
    bounds := .ok (Table.ofFn fun good =>
      ⟨.real exact.valueFloor[good], .real exact.valueCeiling[good]⟩)
    ceilings := .ok exact.valueCeiling }
  labor := {
    smoothing := .real exact.laborSmoothing
    ratioFloor := .real exact.ratioFloor
    floorDivisor := .real exact.floorDivisor }
  exponent := .real exact.exponent
  demography := {
    birthRate := .real exact.birthRate
    deathRate := .real exact.deathRate
    clamped := exact.clamped }

theorem Rules.ofExact_denotes (exact : ExactRules) : (Rules.ofExact exact).Denotes exact where
  valueSmoothing := .real _
  bounds := ⟨_, rfl, fun good => by
    rw [Table.getElem_ofFn]
    exact ⟨.real _, .real _⟩⟩
  ceilings := rfl
  laborSmoothing := .real _
  ratioFloor := .real _
  floorDivisor := .real _
  exponent := .real _
  birthRate := .real _
  deathRate := .real _
  clamped := rfl

/-- The parameters of the design. -/
noncomputable def ExactRules.standard : ExactRules where
  valueSmoothing := 4 / 5
  valueFloor := Table.const (1 / 1000)
  valueCeiling := Table.const 1000
  laborSmoothing := 4 / 5
  ratioFloor := 1 / 100
  floorDivisor := 1000
  exponent := 11 / 10
  birthRate := 1 / 20
  deathRate := 1 / 200
  clamped := true

theorem ExactRules.standard_exponent_nonneg : 0 ≤ ExactRules.standard.exponent := by
  norm_num [standard]

theorem ExactRules.standard_admissible : ExactRules.standard.Admissible where
  valueSmoothing := by norm_num [standard]
  valueFloor good := by norm_num [standard]
  valueCeiling good := by norm_num [standard]
  laborSmoothing := by norm_num [standard]
  ratioFloor := by norm_num [standard]
  floorDivisor := by norm_num [standard]
  clamped := rfl

end Settlement
