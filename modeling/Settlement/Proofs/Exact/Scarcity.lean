import Settlement.Proofs.Exact.Tick
/-!
Scarcity. The more there is of a good, the less it is worth, and the fewer people work to make it.
A good is unpriced where it is too dear as well as where it is too cheap, so this holds only under
a ceiling that no shortage reaches: a raw value is four at most.
-/
namespace Settlement

section values

variable {rules : ExactRules} {good : Good} {previous : Option ℝ} {surplus more demand : ℝ}

/-- No good is scarcer than one that is not there. -/
theorem rawValue_le_four (asked : 0 < demand) (available : -demand ≤ surplus) :
    rawValue surplus demand ≤ 4 := by
  have ratio : -1 ≤ surplus / demand := (le_div_iff₀ asked).mpr (by linarith)
  calc rawValue surplus demand ≤ (2 : ℝ) ^ (2 : ℝ) :=
        Real.rpow_le_rpow_of_exponent_le one_le_two (by linarith)
    _ = 4 := by norm_num

theorem rawValue_antitone (asked : 0 < demand) (grown : surplus ≤ more) :
    rawValue more demand ≤ rawValue surplus demand := by
  have ratio : surplus / demand ≤ more / demand :=
    div_le_div_of_nonneg_right grown (le_of_lt asked)
  exact Real.rpow_le_rpow_of_exponent_le one_le_two (sub_le_sub_left ratio 1)

/-- A larger surplus makes a good worth no more, also where it loses its value. -/
theorem ExactRules.value_antitone (smoothing : rules.valueSmoothing ∈ Set.Icc 0 1)
    (ceiling : 4 < rules.valueCeiling[good]) (old : ∀ value, previous = some value → 0 ≤ value)
    (available : -demand ≤ surplus) (grown : surplus ≤ more) :
    (rules.value good previous more demand).getD 0 ≤
      (rules.value good previous surplus demand).getD 0 := by
  cases cheap : rules.value good previous more demand with
  | none =>
    cases dear : rules.value good previous surplus demand with
    | none => exact le_refl 0
    | some value =>
      exact value_mem (convex_Ici 0) smoothing (fun _ raw => Set.Ioi_subset_Ici_self raw.2) old dear
  | some value =>
    obtain ⟨asked, bounds, rfl⟩ := value_eq_some cheap
    have raw := rawValue_antitone asked grown
    -- What is priced for the larger surplus is above the floor, and so it is for the smaller one.
    have priced : rawValue surplus demand ∈
        Set.Ioo rules.valueFloor[good] rules.valueCeiling[good] :=
      ⟨lt_of_lt_of_le bounds.1 raw, lt_of_le_of_lt (rawValue_le_four asked available) ceiling⟩
    have base : previous.getD (rawValue more demand) ≤ previous.getD (rawValue surplus demand) := by
      cases previous with
      | none => exact raw
      | some value => exact le_refl value
    rw [ExactRules.value, if_pos ⟨asked, priced⟩, Option.getD_some, Option.getD_some]
    exact add_le_add (mul_le_mul_of_nonneg_left base smoothing.1)
      (mul_le_mul_of_nonneg_left raw (sub_nonneg.mpr smoothing.2))

end values

namespace Economy

/-- What a good counts for where industries are weighed; an unpriced one counts for nothing. -/
def worth {R : Type} [Scalar R] (economy : Economy R) (good : Good) : R :=
  economy.values[good].getD 0

/-- Two economies before their workforces move: one good is worth no more in the second, and
otherwise they agree in all that moves workers. -/
structure Cheapens (good : Good) (first second : Economy ℝ) : Prop where
  worth : second.worth good ≤ first.worth good
  values : ∀ other, other ≠ good → second.values[other] = first.values[other]
  shares : second.shares = first.shares
  productivity : second.productivity = first.productivity

section workforce

variable {first second : Economy ℝ} {good : Good} {rules : ExactRules}
  {outputs : OrderedMap Labor (Output ℝ)} {entry : Labor × Output ℝ}

theorem weight_eq (economy : Economy ℝ) (entry : Labor × Output ℝ) :
    economy.weight entry = economy.worth entry.2.good * economy.productivity[entry.1] := rfl

theorem targetShare_eq (safe : rules.Safe) (economy : Economy ℝ) :
    economy.targetShare rules outputs entry =
      max (economy.weight entry / economy.totalWeight rules outputs) (1 / rules.floorDivisor) := by
  have total : 0 < economy.totalWeight rules outputs := totalWeight_pos safe.ratioFloor
  rw [targetShare, ← max_div_div_right (le_of_lt total), div_right_comm, div_self (ne_of_gt total)]

private theorem mean_le_mean {smoothing old least most : ℝ} (part : smoothing ≤ 1)
    (targets : least ≤ most) :
    smoothing * old + (1 - smoothing) * least ≤ smoothing * old + (1 - smoothing) * most :=
  add_le_add_right (mul_le_mul_of_nonneg_left targets (sub_nonneg.mpr part)) _

namespace Cheapens

variable (cheapens : Cheapens good first second)
include cheapens

theorem weight_eq_of_ne (other : entry.2.good ≠ good) :
    second.weight entry = first.weight entry := by
  rw [weight, weight, cheapens.values _ other, cheapens.productivity]

variable (productivity : ∀ labor : Labor, 0 ≤ first.productivity[labor])
include productivity

theorem weight_le : second.weight entry ≤ first.weight entry := by
  by_cases made : entry.2.good = good
  · rw [weight_eq, weight_eq, made, cheapens.productivity]
    exact mul_le_mul_of_nonneg_right cheapens.worth (productivity entry.1)
  · exact le_of_eq (cheapens.weight_eq_of_ne made)

theorem totalWeight_le : second.totalWeight rules outputs ≤ first.totalWeight rules outputs :=
  max_le_max_right _ (List.sum_le_sum fun _ _ => cheapens.weight_le productivity)

variable (worths : ∀ good, 0 ≤ first.worth good)
include worths

theorem le_targetShare (safe : rules.Safe) (other : entry.2.good ≠ good) :
    first.targetShare rules outputs entry ≤ second.targetShare rules outputs entry := by
  have weight : 0 ≤ first.weight entry := mul_nonneg (worths _) (productivity _)
  rw [targetShare_eq safe, targetShare_eq safe, cheapens.weight_eq_of_ne other]
  exact max_le_max_right _ (div_le_div_of_nonneg_left weight (totalWeight_pos safe.ratioFloor)
    (cheapens.totalWeight_le productivity))

theorem le_shares_restaffed (safe : rules.Safe) {labor : Labor}
    (other : ∀ output, outputs.find? labor = some output → output.good ≠ good) :
    (first.restaffed rules outputs).shares[labor] ≤
      (second.restaffed rules outputs).shares[labor] := by
  rw [getElem_shares_restaffed, getElem_shares_restaffed, cheapens.shares]
  cases found : outputs.find? labor with
  | none => exact le_refl _
  | some output =>
    exact mean_le_mean safe.laborSmoothing.2
      (cheapens.le_targetShare productivity worths safe (other output found))

variable (cheap : 0 ≤ second.worth good)
include cheap

/-- The total weight falls by no larger part than the worth of the good. -/
theorem worth_mul_totalWeight_le (floor : 0 ≤ rules.ratioFloor) :
    second.worth good * first.totalWeight rules outputs ≤
      first.worth good * second.totalWeight rules outputs := by
  have termwise (entry : Labor × Output ℝ) :
      second.worth good * first.weight entry ≤ first.worth good * second.weight entry := by
    by_cases made : entry.2.good = good
    · rw [weight_eq, weight_eq, made, cheapens.productivity]
      exact le_of_eq (by ring)
    · rw [cheapens.weight_eq_of_ne made]
      exact mul_le_mul_of_nonneg_right cheapens.worth (mul_nonneg (worths _) (productivity _))
  rw [totalWeight, totalWeight, mul_max_of_nonneg _ _ cheap, mul_max_of_nonneg _ _ (worths good),
    weights, weights, ← List.sum_map_mul_left, ← List.sum_map_mul_left]
  exact max_le_max (List.sum_le_sum fun entry _ => termwise entry)
    (mul_le_mul_of_nonneg_right cheapens.worth floor)

theorem targetShare_le (safe : rules.Safe) (made : entry.2.good = good) :
    second.targetShare rules outputs entry ≤ first.targetShare rules outputs entry := by
  have totals : second.worth good * first.totalWeight rules outputs ≤ _ :=
    cheapens.worth_mul_totalWeight_le productivity worths cheap (le_of_lt safe.ratioFloor)
  rw [targetShare_eq safe, targetShare_eq safe]
  refine max_le_max_right _ ?_
  rw [div_le_div_iff₀ (totalWeight_pos safe.ratioFloor) (totalWeight_pos safe.ratioFloor),
    weight_eq, weight_eq, made, cheapens.productivity, mul_right_comm (second.worth good),
    mul_right_comm (first.worth good)]
  exact mul_le_mul_of_nonneg_right totals (productivity entry.1)

theorem shares_restaffed_le (safe : rules.Safe) {labor : Labor} {output : Output ℝ}
    (found : outputs.find? labor = some output) (made : output.good = good) :
    (second.restaffed rules outputs).shares[labor] ≤
      (first.restaffed rules outputs).shares[labor] := by
  rw [getElem_shares_restaffed, getElem_shares_restaffed, cheapens.shares, found,
    Option.elim_some, Option.elim_some]
  exact mean_le_mean safe.laborSmoothing.2
    (cheapens.targetShare_le productivity worths cheap safe made)

end Cheapens

end workforce

section phases

variable {R : Type} [Scalar R]

/-- The phases in which an economy answers scarcity: demand and supply, values, workforce. -/
def respond (rules : Rules R) (catalog : Catalog R) (economy : Economy R) :
    Outcome (Economy R) :=
  ((economy.withSurplus (economy.totals catalog)).revalue rules.values
    (economy.totals catalog).demand).andThen (employ rules catalog)

/-- The economy with another stock of one good. -/
def stocked (economy : Economy R) (good : Good) (stock : R) : Economy R :=
  { economy with stocks := economy.stocks.set good stock }

end phases

/-- The economy with its values moved. -/
noncomputable def valued (rules : ExactRules) (catalog : Catalog ℝ) (economy : Economy ℝ) :
    Economy ℝ :=
  (economy.withSurplus (economy.totals catalog)).revalued rules (economy.totals catalog).demand

variable {economy : Economy ℝ} {inexact : Rules ℝ} {rules : ExactRules} {catalog : Catalog ℝ}
  {good : Good} {stock : ℝ}

theorem reaches_respond (denotes : inexact.Denotes rules) (safe : rules.Safe) :
    (economy.respond inexact catalog).Reaches
      ((economy.valued rules catalog).restaffed rules catalog.outputs) := by
  refine Outcome.reaches_andThen.mpr ⟨_, (reaches_revalue_iff_eq denotes).mpr rfl, ?_⟩
  exact (reaches_employ_iff_eq denotes).mpr
    ⟨ne_of_gt safe.floorDivisor, fun _ => ne_of_gt (totalWeight_pos safe.ratioFloor), rfl⟩

theorem getElem_values_valued (good : Good) :
    (economy.valued rules catalog).values[good] =
      rules.value good economy.values[good]
        ((economy.totals catalog).supply[good] + economy.stocks[good] -
          (economy.totals catalog).demand[good]) (economy.totals catalog).demand[good] :=
  getElem_values_traded (economy.totals catalog) good

theorem NonNegative.worth_valued (nonneg : economy.NonNegative) (safe : rules.Safe) (good : Good) :
    0 ≤ (economy.valued rules catalog).worth good := by
  have values : ∀ value, (economy.valued rules catalog).values[good] = some value → 0 ≤ value :=
    nonneg.values_traded safe good
  rw [worth]
  cases worth : (economy.valued rules catalog).values[good] with
  | none => exact le_refl 0
  | some value => exact values value worth

theorem NonNegative.stocked (nonneg : economy.NonNegative) (more : economy.stocks[good] ≤ stock) :
    (economy.stocked good stock).NonNegative :=
  { nonneg with
    stocks := fun other => by
      rw [Economy.stocked, Table.getElem_set]
      split
      · exact le_trans (nonneg.stocks good) more
      · exact nonneg.stocks other }

/-- A larger stock of a good makes that good cheaper, and no other. -/
theorem NonNegative.cheapens_valued (nonneg : economy.NonNegative) (safe : rules.Safe)
    (ceiling : 4 < rules.valueCeiling[good]) (more : economy.stocks[good] ≤ stock) :
    Cheapens good (economy.valued rules catalog)
      ((economy.stocked good stock).valued rules catalog) where
  worth := by
    have supply : 0 ≤ (economy.totals catalog).supply[good] :=
      economy.supply_nonneg nonneg.shares nonneg.yields catalog.outputs good
    have present := nonneg.stocks good
    have same : (economy.stocked good stock).totals catalog = economy.totals catalog := rfl
    have stocks : (economy.stocked good stock).stocks[good] = stock := Table.getElem_set_self _ _ _
    rw [Economy.worth, Economy.worth, getElem_values_valued, getElem_values_valued, same, stocks]
    exact ExactRules.value_antitone safe.valueSmoothing ceiling (nonneg.values good)
      (by linarith) (by linarith)
  values other apart := by
    have same : (economy.stocked good stock).totals catalog = economy.totals catalog := rfl
    have stocks : (economy.stocked good stock).stocks[other] = economy.stocks[other] :=
      Table.getElem_set_ne _ _ (Ne.symm apart)
    rw [getElem_values_valued, getElem_values_valued, same, stocks]
    rfl
  shares := rfl
  productivity := rfl

/-- Scarcity feeds back with the right sign. With more of a good in store it is worth no more, the
industries that turn it out get no more workers, all others get no fewer, and no other good changes
its value. -/
theorem scarcity_feedback (denotes : inexact.Denotes rules) (safe : rules.Safe)
    (ceiling : 4 < rules.valueCeiling[good]) (nonneg : economy.NonNegative)
    (more : economy.stocks[good] ≤ stock) :
    ∃ scarce ample, (economy.respond inexact catalog).Reaches scarce ∧
      ((economy.stocked good stock).respond inexact catalog).Reaches ample ∧
      ample.worth good ≤ scarce.worth good ∧
      (∀ labor output, catalog.outputs.find? labor = some output → output.good = good →
        ample.shares[labor] ≤ scarce.shares[labor]) ∧
      (∀ labor, (∀ output, catalog.outputs.find? labor = some output → output.good ≠ good) →
        scarce.shares[labor] ≤ ample.shares[labor]) ∧
      ∀ other, other ≠ good → ample.values[other] = scarce.values[other] := by
  have cheapens : Cheapens good (economy.valued rules catalog) _ :=
    nonneg.cheapens_valued safe ceiling more
  have productivity : ∀ labor : Labor, 0 ≤ (economy.valued rules catalog).productivity[labor] :=
    nonneg.productivity
  have cheap : 0 ≤ ((economy.stocked good stock).valued rules catalog).worth good :=
    (nonneg.stocked more).worth_valued safe good
  refine ⟨_, _, reaches_respond denotes safe, reaches_respond denotes safe, cheapens.worth, ?_, ?_,
    cheapens.values⟩
  · intro labor output found made
    exact cheapens.shares_restaffed_le productivity (nonneg.worth_valued safe) cheap safe found made
  · intro labor other
    exact cheapens.le_shares_restaffed productivity (nonneg.worth_valued safe) safe other

theorem scarcity_feedback_mill :
    ∃ scarce ample, (mill.respond (.ofExact .standard) .mill).Reaches scarce ∧
      ((mill.stocked .flour (6 : Nat)).respond (.ofExact .standard) .mill).Reaches ample ∧
      ample.worth .flour ≤ scarce.worth .flour ∧
      ample.shares[Labor.farmer] ≤ scarce.shares[Labor.farmer] := by
  have stock : mill.stocks[Good.flour] = 4 := Table.getElem_ofFn _ _
  have more : mill.stocks[Good.flour] ≤ ((6 : Nat) : ℝ) := by
    rw [stock]
    norm_num
  have feedback : ∃ scarce ample, (mill.respond (.ofExact .standard) .mill).Reaches scarce ∧ _ :=
    scarcity_feedback (Rules.ofExact_denotes .standard) ExactRules.standard_admissible.safe
      (by norm_num [ExactRules.standard]) (mill_sound.nonNegative ExactRules.standard_admissible)
      more
  obtain ⟨scarce, ample, first, second, worth, makers, _⟩ := feedback
  exact ⟨scarce, ample, first, second, worth, makers .farmer ⟨.flour, 1⟩ rfl rfl⟩

end Economy

end Settlement
