import Mathlib.Analysis.SpecificLimits.Basic
import Settlement.Proofs.Exact.Market
/-!
Values under a lasting scarcity. As long as a good stays as scarce as it is, its value goes from
where it was toward the raw value of that scarcity: every time the smoothing says how much of the
distance is left, and the value never passes what it goes to.
-/
namespace Settlement

/-- What a market finds of all goods. -/
structure Scarcity (R : Type) where
  surplus : Table Good R
  demand : Table Good R

namespace Scarcity

variable {R : Type}

/-- A good is found equally scarce every time. -/
def Lasts (found : List (Scarcity R)) (good : Good) (surplus demand : R) : Prop :=
  ∀ scarcity ∈ found, scarcity.surplus[good] = surplus ∧ scarcity.demand[good] = demand

variable {found : List (Scarcity R)} {scarcity : Scarcity R} {good : Good} {surplus demand : R}

theorem lasts_concat : Lasts (found ++ [scarcity]) good surplus demand ↔
    Lasts found good surplus demand ∧
      scarcity.surplus[good] = surplus ∧ scarcity.demand[good] = demand := by
  rw [Lasts, List.forall_mem_append, List.forall_mem_singleton]
  rfl

end Scarcity

/-- Moves the values once for each scarcity that is found. -/
def Economy.revalueEach {R : Type} [Scalar R] (rule : ValueRule R) (found : List (Scarcity R)) :
    Economy R → Outcome (Economy R) :=
  Outcome.each found fun scarcity economy =>
    { economy with surplus := scarcity.surplus }.revalue rule scarcity.demand

/-- What is left of the way to a target is a part of what was left before, on the same side. -/
structure Approaches (part target before after : ℝ) : Prop where
  distance : |after - target| = part * |before - target|
  above : target ≤ before → target ≤ after
  below : before ≤ target → after ≤ target

theorem Approaches.of_sub_eq {part target before after : ℝ} (nonneg : 0 ≤ part)
    (left : after - target = part * (before - target)) : Approaches part target before after where
  distance := by rw [left, abs_mul, abs_of_nonneg nonneg]
  above beyond := by
    have ahead := mul_nonneg nonneg (sub_nonneg.mpr beyond)
    rw [← left] at ahead
    exact sub_nonneg.mp ahead
  below short := by
    have behind := mul_nonpos_of_nonneg_of_nonpos nonneg (sub_nonpos.mpr short)
    rw [← left] at behind
    exact sub_nonpos.mp behind

/-- No way that is cut by a part of it again and again stays long. -/
theorem exists_pow_mul_lt {part bound : ℝ} (nonneg : 0 ≤ part) (less : part < 1)
    (positive : 0 < bound) (length : ℝ) :
    ∃ least, ∀ count, least ≤ count → part ^ count * length < bound := by
  have vanishes := (tendsto_pow_atTop_nhds_zero_of_lt_one nonneg less).mul_const length
  rw [zero_mul] at vanishes
  exact Filter.eventually_atTop.mp (vanishes.eventually_lt_const positive)

/-- A surplus as large as the demand is neutral. -/
theorem rawValue_balanced {demand : ℝ} (asked : 0 < demand) : rawValue demand demand = 1 := by
  rw [rawValue, div_self (ne_of_gt asked), sub_self]
  exact Real.rpow_zero 2

namespace ExactRules

/-- Where the value of a good has come after some rounds of one scarcity. One that was unpriced
starts from the raw value. -/
noncomputable def valueAfter (rules : ExactRules) (raw : ℝ) (start : Option ℝ) (rounds : ℕ) : ℝ :=
  match start with
  | some value => raw + rules.valueSmoothing ^ rounds * (value - raw)
  | none => raw

variable {rules : ExactRules} {good : Good} {surplus demand : ℝ} {start : Option ℝ}

theorem valueAfter_sub (rules : ExactRules) (raw : ℝ) (start : Option ℝ) (rounds : ℕ) :
    rules.valueAfter raw start rounds - raw =
      rules.valueSmoothing ^ rounds * (start.getD raw - raw) := by
  cases start with
  | some value => exact add_sub_cancel_left _ _
  | none => rw [valueAfter, Option.getD_none, sub_self, mul_zero]

theorem valueAfter_succ_sub (rules : ExactRules) (raw : ℝ) (start : Option ℝ) (rounds : ℕ) :
    rules.valueAfter raw start (rounds + 1) - raw =
      rules.valueSmoothing * (rules.valueAfter raw start rounds - raw) := by
  rw [valueAfter_sub, valueAfter_sub, pow_succ']
  exact mul_assoc _ _ _

/-- Within the bounds the next value keeps a part of the distance to the raw value. -/
theorem value_eq_of_bounds (asked : 0 < demand)
    (bounds : rawValue surplus demand ∈ Set.Ioo rules.valueFloor[good] rules.valueCeiling[good])
    (previous : Option ℝ) :
    rules.value good previous surplus demand = some (rawValue surplus demand +
      rules.valueSmoothing * (previous.getD (rawValue surplus demand) -
        rawValue surplus demand)) := by
  rw [value, if_pos ⟨asked, bounds⟩]
  congr 1
  ring

end ExactRules

namespace Economy

variable {rules : Rules ℝ} {exact : ExactRules} {good : Good} {surplus demand : ℝ}
  {found : List (Scarcity ℝ)} {scarcity : Scarcity ℝ} {economy after : Economy ℝ}

theorem reaches_revalueEach_concat (denotes : rules.Denotes exact) :
    (economy.revalueEach rules.values (found ++ [scarcity])).Reaches after ↔
      ∃ before, (economy.revalueEach rules.values found).Reaches before ∧
        after = { before with surplus := scarcity.surplus }.revalued exact scarcity.demand := by
  simp only [revalueEach, Outcome.reaches_each_concat, reaches_revalue_iff_eq denotes]

/-- Induction on the rounds. The first one takes an unpriced good to the raw value at once; every
later one finds it priced. -/
theorem exists_reaches_revalueEach (denotes : rules.Denotes exact) (asked : 0 < demand)
    (bounds : rawValue surplus demand ∈ Set.Ioo exact.valueFloor[good] exact.valueCeiling[good])
    (lasts : Scarcity.Lasts found good surplus demand) (economy : Economy ℝ) :
    ∃ after, (economy.revalueEach rules.values found).Reaches after ∧
      after.values[good] = if found = [] then economy.values[good] else
        some (exact.valueAfter (rawValue surplus demand) economy.values[good] found.length) := by
  induction found using List.reverseRecOn with
  | nil => exact ⟨economy, Outcome.reaches_each_nil.mpr rfl, rfl⟩
  | append_singleton earlier scarcity ih =>
    obtain ⟨before, same⟩ := Scarcity.lasts_concat.mp lasts
    obtain ⟨middle, reaches, priced⟩ := ih before
    refine ⟨_, (reaches_revalueEach_concat denotes).mpr ⟨middle, reaches, rfl⟩, ?_⟩
    have base : middle.values[good].getD (rawValue surplus demand) =
        exact.valueAfter (rawValue surplus demand) economy.values[good] earlier.length := by
      rw [priced]
      split
      · rename_i first
        rw [first, List.length_nil, ← sub_left_inj, ExactRules.valueAfter_sub, pow_zero, one_mul]
      · rfl
    rw [if_neg (List.concat_ne_nil _ _), List.length_append, List.length_singleton]
    have moved := ExactRules.value_eq_of_bounds asked bounds middle.values[good]
    rw [base, ← ExactRules.valueAfter_succ_sub, add_sub_cancel] at moved
    rw [← moved, ← same.1, ← same.2]
    exact Table.getElem_ofFn _ good

/-- While the demand for a good and its surplus stay the same, its value goes to the raw value of
that scarcity: after any number of rounds the smoothing, taken to that power, is left of the
distance. With a smoothing below one every round brings the value nearer and none takes it to the
other side, and the value of a balanced good comes as near to one as one likes. -/
theorem values_converge_to_scarcity (denotes : rules.Denotes exact) (economy : Economy ℝ)
    (good : Good) :
    (∀ found surplus demand, found ≠ [] → Scarcity.Lasts found good surplus demand → 0 < demand →
      rawValue surplus demand ∈ Set.Ioo exact.valueFloor[good] exact.valueCeiling[good] →
      ∃ after, (economy.revalueEach rules.values found).Reaches after ∧
        after.values[good] = some (match economy.values[good] with
          | some before => rawValue surplus demand +
              exact.valueSmoothing ^ found.length * (before - rawValue surplus demand)
          | none => rawValue surplus demand)) ∧
    (exact.valueSmoothing ∈ Set.Ico 0 1 →
      (∀ scarcity surplus demand before, Scarcity.Lasts [scarcity] good surplus demand →
        0 < demand →
        rawValue surplus demand ∈ Set.Ioo exact.valueFloor[good] exact.valueCeiling[good] →
        economy.values[good] = some before →
        ∃ after next, (economy.revalueEach rules.values [scarcity]).Reaches after ∧
          after.values[good] = some next ∧
          Approaches exact.valueSmoothing (rawValue surplus demand) before next) ∧
      (1 ∈ Set.Ioo exact.valueFloor[good] exact.valueCeiling[good] → ∀ bound > 0, ∃ least,
        ∀ found demand, least ≤ found.length → Scarcity.Lasts found good demand demand →
          0 < demand →
          ∃ after value, (economy.revalueEach rules.values found).Reaches after ∧
            after.values[good] = some value ∧ |value - 1| < bound)) := by
  refine ⟨?_, fun smoothing => ⟨?_, ?_⟩⟩
  · intro found surplus demand nonempty lasts asked bounds
    obtain ⟨after, reaches, priced⟩ := exists_reaches_revalueEach denotes asked bounds lasts economy
    rw [if_neg nonempty] at priced
    exact ⟨after, reaches, priced⟩
  · intro scarcity surplus demand before lasts asked bounds old
    obtain ⟨after, reaches, priced⟩ := exists_reaches_revalueEach denotes asked bounds lasts economy
    rw [if_neg (List.cons_ne_nil _ _), old] at priced
    refine ⟨after, _, reaches, priced, .of_sub_eq smoothing.1 ?_⟩
    rw [ExactRules.valueAfter_sub, List.length_singleton, pow_one, Option.getD_some]
  · intro range bound positive
    obtain ⟨least, short⟩ := exists_pow_mul_lt smoothing.1 smoothing.2 positive
      |economy.values[good].getD 1 - 1|
    refine ⟨least + 1, fun found demand long lasts asked => ?_⟩
    have nonempty : found ≠ [] := List.ne_nil_of_length_pos (by omega)
    have neutral := rawValue_balanced asked
    obtain ⟨after, reaches, priced⟩ :=
      exists_reaches_revalueEach denotes asked (neutral ▸ range) lasts economy
    rw [if_neg nonempty, neutral] at priced
    refine ⟨after, _, reaches, priced, ?_⟩
    rw [ExactRules.valueAfter_sub, abs_mul, abs_of_nonneg (pow_nonneg smoothing.1 _)]
    exact short _ (by omega)

end Economy

/-- A market that finds of every good as much beyond the demand as is asked for. -/
def Scarcity.balanced : Scarcity ℝ := ⟨Table.const 1, Table.const 1⟩

theorem Scarcity.lasts_balanced (count : ℕ) (good : Good) :
    Lasts (List.replicate count balanced) good 1 1 := by
  intro scarcity member
  rw [List.eq_of_mem_replicate member]
  exact ⟨Table.getElem_const _ _, Table.getElem_const _ _⟩

namespace Economy

/-- A settlement in which every good is worth two. -/
noncomputable def twofold : Economy ℝ :=
  .seeded 1 (Table.const 0) (Table.const (some (2 : Nat))) (Table.const 0)

theorem values_converge_to_scarcity_twofold :
    (∃ after, (twofold.revalueEach (Rules.ofExact .standard).values
        [.balanced, .balanced]).Reaches after ∧
      after.values[Good.wheat] = some (1 + (4 / 5) ^ 2 * (2 - 1))) ∧
    ∃ least, ∀ count ≥ least, ∃ after value,
      (twofold.revalueEach (Rules.ofExact .standard).values
        (List.replicate count .balanced)).Reaches after ∧
      after.values[Good.wheat] = some value ∧ |value - 1| < 1 / 1000 := by
  have range : (1 : ℝ) ∈ Set.Ioo ExactRules.standard.valueFloor[Good.wheat]
      ExactRules.standard.valueCeiling[Good.wheat] := by
    norm_num [ExactRules.standard]
  have smoothing : ExactRules.standard.valueSmoothing ∈ Set.Ico 0 1 := by
    norm_num [ExactRules.standard]
  have start : twofold.values[Good.wheat] = some 2 := by
    simp [twofold, seeded]
  obtain ⟨rounds, later⟩ := values_converge_to_scarcity (Rules.ofExact_denotes .standard) twofold
    .wheat
  constructor
  · have bounds : rawValue (1 : ℝ) 1 ∈ Set.Ioo ExactRules.standard.valueFloor[Good.wheat]
        ExactRules.standard.valueCeiling[Good.wheat] := by
      rwa [rawValue_balanced one_pos]
    obtain ⟨after, reaches, priced⟩ := rounds [.balanced, .balanced] 1 1 (List.cons_ne_nil _ _)
      (Scarcity.lasts_balanced 2 _) one_pos bounds
    refine ⟨after, reaches, priced.trans ?_⟩
    rw [start, rawValue_balanced one_pos]
    rfl
  · obtain ⟨least, near⟩ := (later smoothing).2 range (1 / 1000) (by norm_num)
    refine ⟨least, fun count enough => ?_⟩
    exact near _ 1 (by rwa [List.length_replicate]) (Scarcity.lasts_balanced count _) one_pos

end Economy

end Settlement
