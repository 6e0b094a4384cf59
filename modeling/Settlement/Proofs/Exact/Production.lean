import Mathlib.Algebra.BigOperators.Ring.List
import Mathlib.Algebra.Order.BigOperators.Group.List
import Mathlib.Algebra.Order.Field.Basic
import Mathlib.Order.Bounds.Basic
import Settlement.Economy.Tick
import Settlement.Proofs.Catalog
import Settlement.Proofs.Exact.Market
import Settlement.Proofs.Outcome
import Settlement.Proofs.Table
/-!
Production in exact arithmetic. A group takes the same part of each of its inputs, the part that
the scarcest of them allows. As long as the stocks cover what all groups take, no stock is stopped
at zero, and what is left is what was there, less what was taken, with what was made.
-/
namespace Settlement

namespace Catalog.Valid

variable {catalog : Catalog ℝ}

theorem amount_nonneg (valid : catalog.Valid) :
    ∀ group ∈ catalog.orders, ∀ input ∈ group.inputs, 0 ≤ input.2 :=
  fun group member input chosen => not_lt.mp (valid.amounts group member input chosen)

theorem rate_nonneg (valid : catalog.Valid) : ∀ entry ∈ catalog.outputs.entries, 0 ≤ entry.2.rate :=
  fun entry member => not_lt.mp (valid.rates entry member)

end Catalog.Valid

theorem satisfaction_eq (stock demand : ℝ) :
    satisfaction stock demand = if demand ≤ 0 then 1 else min (stock / demand) 1 := by
  rw [satisfaction, Scalar.smaller_eq_min]

theorem satisfaction_mem {stock : ℝ} (stock_nonneg : 0 ≤ stock) (demand : ℝ) :
    satisfaction stock demand ∈ Set.Icc 0 1 := by
  rw [satisfaction_eq]
  split
  · exact ⟨zero_le_one, le_refl 1⟩
  · rename_i asked
    have ratio := div_nonneg stock_nonneg (le_of_lt (not_le.mp asked))
    exact ⟨le_min ratio zero_le_one, min_le_right _ _⟩

/-- To satisfy a demand that far takes no more than there is. -/
theorem mul_satisfaction_le {stock : ℝ} (stock_nonneg : 0 ≤ stock) (demand : ℝ) :
    demand * satisfaction stock demand ≤ stock := by
  rw [satisfaction_eq]
  split
  · rename_i unasked
    rw [mul_one]
    exact le_trans unasked stock_nonneg
  · rename_i asked
    have positive := not_le.mp asked
    calc demand * min (stock / demand) 1 ≤ demand * (stock / demand) :=
          mul_le_mul_of_nonneg_left (min_le_left _ _) (le_of_lt positive)
      _ = stock := mul_div_cancel₀ stock (ne_of_gt positive)

private theorem isLeast_foldl_smaller {α : Type} (f : α → ℝ) (items : List α) (start : ℝ) :
    IsLeast {x | x = start ∨ ∃ item ∈ items, x = f item}
      (items.foldl (fun least item => Scalar.smaller least (f item)) start) := by
  induction items generalizing start with
  | nil => exact ⟨.inl rfl, by rintro x (rfl | ⟨item, member, _⟩); exacts [le_rfl, by cases member]⟩
  | cons item rest ih =>
    obtain ⟨chosen, least⟩ := ih (Scalar.smaller start (f item))
    rw [Scalar.smaller_eq_min] at chosen least
    rw [List.foldl_cons, Scalar.smaller_eq_min]
    constructor
    · rcases chosen with first | ⟨other, member, same⟩
      · rcases min_choice start (f item) with left | right
        · exact .inl (first.trans left)
        · exact .inr ⟨item, by simp, first.trans right⟩
      · exact .inr ⟨other, by simp [member], same⟩
    · rintro x (rfl | ⟨other, member, rfl⟩)
      · exact le_trans (least (.inl rfl)) (min_le_left _ _)
      · rcases List.mem_cons.mp member with rfl | later
        · exact le_trans (least (.inl rfl)) (min_le_right _ _)
        · exact least (.inr ⟨other, later, rfl⟩)

namespace OrderGroup

variable {group : OrderGroup ℝ} {stocks demand : Table Good ℝ}

/-- The satisfaction of a group is the least one of its inputs. -/
theorem satisfaction_isLeast (orders : group.inputs ≠ []) :
    IsLeast {x | ∃ input ∈ group.inputs,
      x = Settlement.satisfaction stocks[input.1] demand[input.1]}
      (group.satisfaction stocks demand) := by
  obtain ⟨labor, inputs⟩ := group
  cases inputs with
  | nil => exact absurd rfl orders
  | cons first rest =>
    have least := isLeast_foldl_smaller
      (fun input : Good × ℝ => Settlement.satisfaction stocks[input.1] demand[input.1]) rest
      (Settlement.satisfaction stocks[first.1] demand[first.1])
    have same : {x | ∃ input ∈ first :: rest,
        x = Settlement.satisfaction stocks[input.1] demand[input.1]} =
        {x | x = Settlement.satisfaction stocks[first.1] demand[first.1] ∨
          ∃ input ∈ rest, x = Settlement.satisfaction stocks[input.1] demand[input.1]} := by
      simp only [List.exists_mem_cons_iff]
    exact same ▸ least

theorem satisfaction_le {input : Good × ℝ} (member : input ∈ group.inputs) :
    group.satisfaction stocks demand ≤ Settlement.satisfaction stocks[input.1] demand[input.1] :=
  (satisfaction_isLeast (List.ne_nil_of_mem member)).2 ⟨input, member, rfl⟩

theorem satisfaction_mem (stocks_nonneg : ∀ good : Good, 0 ≤ stocks[good]) :
    group.satisfaction stocks demand ∈ Set.Icc 0 1 := by
  by_cases orders : group.inputs = []
  · rw [satisfaction, orders]
    exact ⟨zero_le_one, le_refl 1⟩
  · obtain ⟨chosen, _⟩ : IsLeast _ (group.satisfaction stocks demand) :=
      satisfaction_isLeast orders
    obtain ⟨input, _, least⟩ := chosen
    rw [least]
    exact Settlement.satisfaction_mem (stocks_nonneg input.1) _

/-- What a group takes of a good, over all entries of that good. -/
noncomputable def use (group : OrderGroup ℝ) (scale satisfaction : ℝ) (good : Good) : ℝ :=
  ((group.inputs.filter (·.1 = good)).map fun input => used input.2 scale satisfaction).sum

theorem use_eq (group : OrderGroup ℝ) (scale satisfaction : ℝ) (good : Good) :
    group.use scale satisfaction good = group.amount good * scale * satisfaction := by
  simp only [use, used, amount, List.sum_map_mul_right]

theorem used_nonneg {scale satisfaction : ℝ} (amounts : ∀ input ∈ group.inputs, 0 ≤ input.2)
    (scale_nonneg : 0 ≤ scale) (satisfaction_nonneg : 0 ≤ satisfaction) :
    ∀ input ∈ group.inputs, 0 ≤ used input.2 scale satisfaction :=
  fun input member => mul_nonneg (mul_nonneg (amounts input member) scale_nonneg)
    satisfaction_nonneg

private theorem getElem_foldl_take (taken : Good × ℝ → ℝ) {inputs : List (Good × ℝ)}
    (taken_nonneg : ∀ input ∈ inputs, 0 ≤ taken input) {good : Good}
    (stock_nonneg : 0 ≤ stocks[good]) :
    (inputs.foldl (fun stocks input =>
        stocks.modify input.1 fun stock => Scalar.larger 0 (stock - taken input)) stocks)[good] =
      max 0 (stocks[good] - ((inputs.filter (·.1 = good)).map taken).sum) := by
  induction inputs generalizing stocks with
  | nil => simpa using stock_nonneg
  | cons input rest ih =>
    rw [List.forall_mem_cons] at taken_nonneg
    have rest_nonneg : 0 ≤ ((rest.filter (·.1 = good)).map taken).sum := by
      apply List.sum_nonneg
      intro amount member
      obtain ⟨other, chosen, rfl⟩ := List.mem_map.mp member
      exact taken_nonneg.2 other (List.mem_of_mem_filter chosen)
    rw [List.foldl_cons]
    by_cases here : input.1 = good
    · have first : (stocks.modify input.1 fun stock =>
          Scalar.larger 0 (stock - taken input))[good] = max 0 (stocks[good] - taken input) := by
        rw [Table.getElem_modify, if_pos here, Scalar.larger_eq_max]
      rw [ih taken_nonneg.2 (first ▸ le_max_left _ _), first,
        List.filter_cons_of_pos (by simpa using here), List.map_cons, List.sum_cons]
      -- A stock that was stopped at zero stays there, since nothing negative is taken.
      rcases le_total 0 (stocks[good] - taken input) with enough | short
      · rw [max_eq_right enough, sub_sub]
      · rw [max_eq_left short, max_eq_left (by linarith), max_eq_left (by linarith)]
    · have first : (stocks.modify input.1 fun stock =>
          Scalar.larger 0 (stock - taken input))[good] = stocks[good] := by
        rw [Table.getElem_modify, if_neg here]
      rw [ih taken_nonneg.2 (first ▸ stock_nonneg), first,
        List.filter_cons_of_neg (by simpa using here)]

/-- To take the entries of a good one by one is to take them together. -/
theorem getElem_consume {scale satisfaction : ℝ}
    (used_nonneg : ∀ input ∈ group.inputs, 0 ≤ used input.2 scale satisfaction) {good : Good}
    (stock_nonneg : 0 ≤ stocks[good]) :
    (group.consume scale satisfaction stocks)[good] =
      max 0 (stocks[good] - group.use scale satisfaction good) :=
  getElem_foldl_take (fun input => used input.2 scale satisfaction) used_nonneg stock_nonneg

/-- The industry that a group heads, with its output. -/
def producer? (group : OrderGroup ℝ) (outputs : OrderedMap Labor (Output ℝ)) :
    Option (Labor × Output ℝ) :=
  group.labor.bind fun labor => (outputs.find? labor).map (labor, ·)

theorem producer?_eq_some_iff {outputs : OrderedMap Labor (Output ℝ)}
    {industry : Labor × Output ℝ} :
    group.producer? outputs = some industry ↔
      group.labor = some industry.1 ∧ industry ∈ outputs.entries := by
  obtain ⟨labor, output⟩ := industry
  simp only [producer?, Option.bind_eq_some_iff, Option.map_eq_some_iff, Prod.mk.injEq,
    OrderedMap.find?_eq_some_iff]
  constructor
  · intro holds
    obtain ⟨head, heads, _, member, rfl, rfl⟩ := holds
    exact ⟨heads, member⟩
  · intro holds
    obtain ⟨heads, member⟩ := holds
    exact ⟨labor, heads, output, member, rfl, rfl⟩

end OrderGroup

namespace Economy

/-- The economy without what a group takes. -/
noncomputable def consumed (economy : Economy ℝ) (before demand : Table Good ℝ)
    (group : OrderGroup ℝ) : Economy ℝ :=
  { economy with
    stocks := group.consume (economy.scale group.labor) (group.satisfaction before demand)
      economy.stocks }

/-- What an industry makes of its output. -/
noncomputable def made (economy : Economy ℝ) (exponent satisfaction : ℝ)
    (industry : Labor × Output ℝ) : ℝ :=
  satisfaction * industry.2.rate * economy.scale (some industry.1) ^ exponent

/-- The economy with what an industry makes. -/
noncomputable def turnedOut (economy : Economy ℝ) (exponent satisfaction : ℝ)
    (industry : Labor × Output ℝ) : Economy ℝ :=
  { economy with
    yields := economy.yields.set industry.1 (satisfaction * industry.2.rate)
    productivity := economy.productivity.set industry.1 satisfaction
    stocks := economy.stocks.modify industry.2.good
      (· + economy.made exponent satisfaction industry) }

/-- The economy after a group has run. -/
noncomputable def afterGroup (economy : Economy ℝ) (outputs : OrderedMap Labor (Output ℝ))
    (exponent : ℝ) (before demand : Table Good ℝ) (group : OrderGroup ℝ) : Economy ℝ :=
  match group.producer? outputs with
  | none => economy.consumed before demand group
  | some industry =>
    (economy.consumed before demand group).turnedOut exponent (group.satisfaction before demand)
      industry

/-- The economy after all groups of a list have run. -/
noncomputable def afterGroups (economy : Economy ℝ) (outputs : OrderedMap Labor (Output ℝ))
    (exponent : ℝ) (before demand : Table Good ℝ) (orders : List (OrderGroup ℝ)) : Economy ℝ :=
  orders.foldl (fun economy group => economy.afterGroup outputs exponent before demand group)
    economy

/-- A group can run: it orders something, and its head has an output and a workforce that has the
power asked for. -/
def CanRun (economy : Economy ℝ) (outputs : OrderedMap Labor (Output ℝ)) (exponent : ℝ)
    (group : OrderGroup ℝ) : Prop :=
  group.inputs ≠ [] ∧ ∀ labor, group.labor = some labor →
    outputs.contains labor = true ∧ ¬(economy.scale (some labor) = 0 ∧ exponent < 0)

variable {economy after : Economy ℝ} {outputs : OrderedMap Labor (Output ℝ)} {exponent : ℝ}
  {before demand : Table Good ℝ} {group : OrderGroup ℝ} {orders : List (OrderGroup ℝ)}

/-- With a valid catalog only a negative power of nobody's work could stop a group. -/
theorem canRun_of_powers {catalog : Catalog ℝ} (valid : catalog.Valid)
    (powers : ∀ entry ∈ catalog.outputs.entries, economy.scale (some entry.1) = 0 → 0 ≤ exponent) :
    ∀ group ∈ catalog.orders, economy.CanRun catalog.outputs exponent group := by
  intro group member
  refine ⟨valid.inputs group member, fun labor head => ?_⟩
  have present := valid.outputs group member labor head
  refine ⟨present, fun undefined => ?_⟩
  obtain ⟨output, found⟩ := Option.isSome_iff_exists.mp present
  have entry := (OrderedMap.find?_eq_some_iff _ _ _).mp found
  exact not_lt.mpr (powers _ entry undefined.1) undefined.2

theorem reaches_turnOut_iff_eq {given : Given ℝ} (denotes : given.Denotes exponent) {labor : Labor}
    {output : Output ℝ} {satisfaction : ℝ} :
    (economy.turnOut labor output given satisfaction).Reaches after ↔
      ¬(economy.scale (some labor) = 0 ∧ exponent < 0) ∧
        after = economy.turnedOut exponent satisfaction (labor, output) := by
  have effort {recorded : Economy ℝ} {value : ℝ} : recorded.effort labor given = .ok value ↔
      ¬(recorded.scale (some labor) = 0 ∧ exponent < 0) ∧
        recorded.scale (some labor) ^ exponent = value := by
    rw [← Scalar.power_eq_ok_iff, Economy.effort, denotes.operand]
    rfl
  simp only [turnOut, Outcome.reaches_given, effort, Outcome.reaches_done]
  constructor
  · intro holds
    obtain ⟨_, ⟨defined, rfl⟩, rfl⟩ := holds
    exact ⟨defined, rfl⟩
  · intro holds
    obtain ⟨defined, rfl⟩ := holds
    exact ⟨_, ⟨defined, rfl⟩, rfl⟩

theorem reaches_runGroup_iff_eq {given : Given ℝ} (denotes : given.Denotes exponent) :
    (runGroup outputs given before demand group economy).Reaches after ↔
      economy.CanRun outputs exponent group ∧
        after = economy.afterGroup outputs exponent before demand group := by
  obtain ⟨head, inputs⟩ := group
  cases inputs with
  | nil => simp [runGroup, CanRun]
  | cons input rest =>
    cases head with
    | none =>
      simp only [runGroup, CanRun, List.isEmpty_cons, Bool.false_eq_true, if_false,
        Outcome.reaches_done, ne_eq, reduceCtorEq, not_false_eq_true, false_implies, implies_true,
        true_and]
      exact eq_comm
    | some labor =>
      cases found : outputs.find? labor with
      | none => simp [runGroup, CanRun, OrderedMap.contains, found]
      | some output =>
        simp only [runGroup, CanRun, List.isEmpty_cons, Bool.false_eq_true, if_false, found,
          reaches_turnOut_iff_eq denotes, afterGroup, OrderGroup.producer?, Option.bind_some,
          Option.map_some, OrderedMap.contains, Option.isSome_some, ne_eq, reduceCtorEq,
          not_false_eq_true, Option.some.injEq, forall_eq', true_and]
        rfl

/-- A group changes stocks, productivity and yields only. -/
theorem afterGroup_frame : ∃ stocks productivity yields,
    economy.afterGroup outputs exponent before demand group =
      { economy with stocks, productivity, yields } := by
  unfold afterGroup
  split
  · exact ⟨_, economy.productivity, economy.yields, rfl⟩
  · exact ⟨_, _, _, rfl⟩

theorem afterGroups_frame : ∃ stocks productivity yields,
    economy.afterGroups outputs exponent before demand orders =
      { economy with stocks, productivity, yields } := by
  induction orders generalizing economy with
  | nil => exact ⟨economy.stocks, economy.productivity, economy.yields, rfl⟩
  | cons group rest ih =>
    obtain ⟨stocks, productivity, yields, first⟩ := afterGroup_frame
    obtain ⟨stocks, productivity, yields, later⟩ := ih
    refine ⟨stocks, productivity, yields, ?_⟩
    rw [afterGroups, List.foldl_cons]
    exact later.trans (by rw [first])

theorem scale_afterGroup :
    (economy.afterGroup outputs exponent before demand group).scale = economy.scale := by
  obtain ⟨stocks, productivity, yields, frame⟩ := afterGroup_frame
  rw [frame]
  rfl

theorem scale_afterGroups :
    (economy.afterGroups outputs exponent before demand orders).scale = economy.scale := by
  obtain ⟨_, _, _, frame⟩ : ∃ stocks productivity yields,
      economy.afterGroups outputs exponent before demand orders =
        { economy with stocks, productivity, yields } := afterGroups_frame
  rw [frame]
  rfl

theorem reaches_produce_iff_eq {given : Given ℝ} (denotes : given.Denotes exponent)
    {catalog : Catalog ℝ} :
    (economy.produce catalog given demand).Reaches after ↔
      (∀ group ∈ catalog.orders, economy.CanRun catalog.outputs exponent group) ∧
        after = economy.afterGroups catalog.outputs exponent economy.stocks demand
          catalog.orders := by
  have steps : ∀ group ∈ catalog.orders, ∀ state next : Economy ℝ, state.scale = economy.scale →
      ((runGroup catalog.outputs given economy.stocks demand group state).Reaches next ↔
        economy.CanRun catalog.outputs exponent group ∧
          next = state.afterGroup catalog.outputs exponent economy.stocks demand group) := by
    intro group _ state next same
    rw [reaches_runGroup_iff_eq denotes, CanRun, CanRun, same]
  have keeps (state : Economy ℝ) (group : OrderGroup ℝ) (same : state.scale = economy.scale) :
      (state.afterGroup catalog.outputs exponent economy.stocks demand group).scale =
        economy.scale := scale_afterGroup.trans same
  exact Outcome.reaches_each_iff_eq steps keeps rfl

/-- What a group takes of a good. -/
noncomputable def takes (economy : Economy ℝ) (before demand : Table Good ℝ)
    (group : OrderGroup ℝ) (good : Good) : ℝ :=
  group.use (economy.scale group.labor) (group.satisfaction before demand) good

/-- What a group makes of a good. -/
noncomputable def makes (economy : Economy ℝ) (outputs : OrderedMap Labor (Output ℝ))
    (exponent : ℝ) (before demand : Table Good ℝ) (group : OrderGroup ℝ) (good : Good) : ℝ :=
  (group.producer? outputs).elim 0 fun industry =>
    if industry.2.good = good then
      economy.made exponent (group.satisfaction before demand) industry
    else 0

/-- What all groups of a list take of a good. -/
noncomputable def totalTaken (economy : Economy ℝ) (before demand : Table Good ℝ)
    (orders : List (OrderGroup ℝ)) (good : Good) : ℝ :=
  (orders.map fun group => economy.takes before demand group good).sum

/-- What all groups of a list make of a good. -/
noncomputable def totalMade (economy : Economy ℝ) (outputs : OrderedMap Labor (Output ℝ))
    (exponent : ℝ) (before demand : Table Good ℝ) (orders : List (OrderGroup ℝ))
    (good : Good) : ℝ :=
  (orders.map fun group => economy.makes outputs exponent before demand group good).sum

variable {good : Good}

theorem takes_nonneg (scales : ∀ head, 0 ≤ economy.scale head)
    (stocks : ∀ good : Good, 0 ≤ before[good]) (amounts : ∀ input ∈ group.inputs, 0 ≤ input.2) :
    0 ≤ economy.takes before demand group good := by
  rw [takes, OrderGroup.use_eq]
  exact mul_nonneg (mul_nonneg (OrderGroup.amount_nonneg amounts good) (scales group.labor))
    (OrderGroup.satisfaction_mem stocks).1

/-- A group takes no larger part of a good than that good itself allows. -/
theorem takes_le (scales : ∀ head, 0 ≤ economy.scale head)
    (amounts : ∀ input ∈ group.inputs, 0 ≤ input.2) :
    economy.takes before demand group good ≤
      group.amount good * economy.scale group.labor * satisfaction before[good] demand[good] := by
  rw [takes, OrderGroup.use_eq]
  by_cases ordered : ∃ input ∈ group.inputs, input.1 = good
  · obtain ⟨input, member, rfl⟩ := ordered
    exact mul_le_mul_of_nonneg_left (OrderGroup.satisfaction_le member)
      (mul_nonneg (OrderGroup.amount_nonneg amounts _) (scales group.labor))
  · have none : group.amount good = 0 :=
      OrderGroup.amount_eq_zero fun input member same => ordered ⟨input, member, same⟩
    simp [none]

/-- What all groups take is at most the part of their own demand that the good itself allows. -/
theorem totalTaken_le (scales : ∀ head, 0 ≤ economy.scale head)
    (amounts : ∀ group ∈ orders, ∀ input ∈ group.inputs, 0 ≤ input.2) :
    economy.totalTaken before demand orders good ≤
      (economy.demand orders)[good] * satisfaction before[good] demand[good] := by
  rw [getElem_demand, totalTaken, ← List.sum_map_mul_right]
  exact List.sum_le_sum fun group member => takes_le scales (amounts group member)

theorem makes_nonneg (scales : ∀ head, 0 ≤ economy.scale head)
    (stocks : ∀ good : Good, 0 ≤ before[good])
    (rates : ∀ industry ∈ outputs.entries, 0 ≤ industry.2.rate) :
    0 ≤ economy.makes outputs exponent before demand group good := by
  unfold makes
  cases heads : group.producer? outputs with
  | none => exact le_refl 0
  | some industry =>
    have rate := rates industry (OrderGroup.producer?_eq_some_iff.mp heads).2
    have made : 0 ≤ economy.made exponent (group.satisfaction before demand) industry :=
      mul_nonneg (mul_nonneg (OrderGroup.satisfaction_mem stocks).1 rate)
        (Real.rpow_nonneg (scales _) exponent)
    rw [Option.elim_some]
    split
    · exact made
    · exact le_refl 0

theorem getElem_stocks_afterGroup (scales : ∀ head, 0 ≤ economy.scale head)
    (stocks : ∀ good : Good, 0 ≤ before[good]) (amounts : ∀ input ∈ group.inputs, 0 ≤ input.2)
    (stock_nonneg : 0 ≤ economy.stocks[good]) :
    (economy.afterGroup outputs exponent before demand group).stocks[good] =
      max 0 (economy.stocks[good] - economy.takes before demand group good) +
        economy.makes outputs exponent before demand group good := by
  have left : (economy.consumed before demand group).stocks[good] =
      max 0 (economy.stocks[good] - economy.takes before demand group good) :=
    OrderGroup.getElem_consume
      (OrderGroup.used_nonneg amounts (scales _) (OrderGroup.satisfaction_mem stocks).1)
      stock_nonneg
  unfold afterGroup makes
  cases heads : group.producer? outputs with
  | none => rw [Option.elim_none, add_zero, left]
  | some industry =>
    simp only [turnedOut, Table.getElem_modify, left, Option.elim_some]
    split
    · rfl
    · rw [add_zero]

theorem stocks_afterGroups_nonneg (scales : ∀ head, 0 ≤ economy.scale head)
    (stocks : ∀ good : Good, 0 ≤ before[good])
    (amounts : ∀ group ∈ orders, ∀ input ∈ group.inputs, 0 ≤ input.2)
    (rates : ∀ industry ∈ outputs.entries, 0 ≤ industry.2.rate)
    (stock_nonneg : 0 ≤ economy.stocks[good]) :
    0 ≤ (economy.afterGroups outputs exponent before demand orders).stocks[good] := by
  induction orders generalizing economy with
  | nil => exact stock_nonneg
  | cons group rest ih =>
    rw [List.forall_mem_cons] at amounts
    rw [afterGroups, List.foldl_cons]
    refine ih ?_ amounts.2 ?_
    · rwa [scale_afterGroup]
    · rw [getElem_stocks_afterGroup scales stocks amounts.1 stock_nonneg]
      exact add_nonneg (le_max_left _ _) (makes_nonneg scales stocks rates)

theorem totalTaken_nonneg (scales : ∀ head, 0 ≤ economy.scale head)
    (stocks : ∀ good : Good, 0 ≤ before[good])
    (amounts : ∀ group ∈ orders, ∀ input ∈ group.inputs, 0 ≤ input.2) :
    0 ≤ economy.totalTaken before demand orders good := by
  apply List.sum_nonneg
  intro amount member
  obtain ⟨group, chosen, rfl⟩ := List.mem_map.mp member
  exact takes_nonneg scales stocks (amounts group chosen)

theorem totalTaken_cons (rest : List (OrderGroup ℝ)) :
    economy.totalTaken before demand (group :: rest) good =
      economy.takes before demand group good + economy.totalTaken before demand rest good := by
  rw [totalTaken, List.map_cons, List.sum_cons, totalTaken]

theorem totalMade_cons (rest : List (OrderGroup ℝ)) :
    economy.totalMade outputs exponent before demand (group :: rest) good =
      economy.makes outputs exponent before demand group good +
        economy.totalMade outputs exponent before demand rest good := by
  rw [totalMade, List.map_cons, List.sum_cons, totalMade]

/-- What a group did leaves what the others will take and make. -/
theorem totals_afterGroup (rest : List (OrderGroup ℝ)) :
    (economy.afterGroup outputs exponent before demand group).totalTaken before demand rest good =
        economy.totalTaken before demand rest good ∧
      (economy.afterGroup outputs exponent before demand group).totalMade outputs exponent before
          demand rest good = economy.totalMade outputs exponent before demand rest good := by
  have same : (economy.afterGroup outputs exponent before demand group).scale = economy.scale :=
    scale_afterGroup
  constructor
  · simp only [totalTaken, takes, same]
  · simp only [totalMade, makes, made, same]

/-- Where the stock covers what all groups take, it is never stopped at zero. -/
theorem getElem_stocks_afterGroups (scales : ∀ head, 0 ≤ economy.scale head)
    (stocks : ∀ good : Good, 0 ≤ before[good])
    (amounts : ∀ group ∈ orders, ∀ input ∈ group.inputs, 0 ≤ input.2)
    (rates : ∀ industry ∈ outputs.entries, 0 ≤ industry.2.rate)
    (covered : economy.totalTaken before demand orders good ≤ economy.stocks[good]) :
    (economy.afterGroups outputs exponent before demand orders).stocks[good] =
      economy.stocks[good] - economy.totalTaken before demand orders good +
        economy.totalMade outputs exponent before demand orders good := by
  induction orders generalizing economy with
  | nil => simp [afterGroups, totalTaken, totalMade]
  | cons group rest ih =>
    rw [List.forall_mem_cons] at amounts
    rw [totalTaken_cons] at covered
    have now : 0 ≤ economy.takes before demand group good := takes_nonneg scales stocks amounts.1
    have later : 0 ≤ economy.totalTaken before demand rest good :=
      totalTaken_nonneg scales stocks amounts.2
    have supplied : 0 ≤ economy.makes outputs exponent before demand group good :=
      makes_nonneg scales stocks rates
    have stock : (economy.afterGroup outputs exponent before demand group).stocks[good] =
        economy.stocks[good] - economy.takes before demand group good +
          economy.makes outputs exponent before demand group good := by
      rw [getElem_stocks_afterGroup scales stocks amounts.1 (by linarith),
        max_eq_right (by linarith)]
    obtain ⟨taken, added⟩ : _ ∧ (economy.afterGroup outputs exponent before demand group).totalMade
      outputs exponent before demand rest good = _ := totals_afterGroup rest
    have ended := ih (scale_afterGroup ▸ scales) amounts.2 (by rw [taken, stock]; linarith)
    rw [taken, added, stock] at ended
    rw [afterGroups, List.foldl_cons, totalTaken_cons, totalMade_cons]
    refine ended.trans ?_
    ring

/-- What was last recorded of an industry: how far its inputs went round and what a worker made. -/
def record (economy : Economy ℝ) (labor : Labor) : ℝ × ℝ :=
  (economy.productivity[labor], economy.yields[labor])

theorem record_afterGroup_of_ne {labor : Labor} (other : group.labor ≠ some labor) :
    (economy.afterGroup outputs exponent before demand group).record labor =
      economy.record labor := by
  unfold afterGroup
  split
  · rfl
  · rename_i industry heads
    have apart : industry.1 ≠ labor := fun same =>
      other (same ▸ (OrderGroup.producer?_eq_some_iff.mp heads).1)
    simp only [record, turnedOut, Table.getElem_set, if_neg apart, consumed]

theorem record_afterGroup_of_eq {labor : Labor} {output : Output ℝ}
    (head : group.labor = some labor) (found : outputs.find? labor = some output) :
    (economy.afterGroup outputs exponent before demand group).record labor =
      (group.satisfaction before demand, group.satisfaction before demand * output.rate) := by
  have heads : group.producer? outputs = some (labor, output) :=
    OrderGroup.producer?_eq_some_iff.mpr
      ⟨head, (OrderedMap.find?_eq_some_iff _ _ _).mp found⟩
  simp only [afterGroup, heads, record, turnedOut, Table.getElem_set_self]

theorem record_afterGroups_of_not_mem {labor : Labor}
    (idle : some labor ∉ orders.map OrderGroup.labor) :
    (economy.afterGroups outputs exponent before demand orders).record labor =
      economy.record labor := by
  induction orders generalizing economy with
  | nil => rfl
  | cons group rest ih =>
    rw [List.map_cons, List.mem_cons, not_or] at idle
    rw [afterGroups, List.foldl_cons]
    exact (ih idle.2).trans (record_afterGroup_of_ne (Ne.symm idle.1))

/-- An industry records how far the inputs of its group went round. -/
theorem record_afterGroups_of_mem (heads : (orders.map OrderGroup.labor).Nodup)
    (member : group ∈ orders) {labor : Labor} {output : Output ℝ}
    (head : group.labor = some labor) (found : outputs.find? labor = some output) :
    (economy.afterGroups outputs exponent before demand orders).record labor =
      (group.satisfaction before demand, group.satisfaction before demand * output.rate) := by
  induction orders generalizing economy with
  | nil => cases member
  | cons first rest ih =>
    rw [List.map_cons, List.nodup_cons] at heads
    rw [afterGroups, List.foldl_cons]
    rcases List.mem_cons.mp member with rfl | later
    · rw [head] at heads
      exact (record_afterGroups_of_not_mem heads.1).trans (record_afterGroup_of_eq head found)
    · exact ih heads.2 later

end Economy

end Settlement
