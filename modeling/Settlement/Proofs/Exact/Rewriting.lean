import Settlement.Proofs.Exact.Tick
/-!
Recipes that say the same. The inputs of a group may be written in any order, two entries of one
good may be written as one, and industries may be listed in any order. None of this changes what a
group orders of each good, nor which goods it orders, and a tick reads nothing else of it.
-/
namespace Settlement

namespace OrderGroup

/-- What a group orders, however it is written. -/
@[ext]
structure Bill where
  labor : Option Labor
  amount : Good → ℝ
  goods : Finset Good

noncomputable def bill (group : OrderGroup ℝ) : Bill where
  labor := group.labor
  amount := group.amount
  goods := (group.inputs.map Prod.fst).toFinset

/-- A group written in another way. -/
inductive Rewrite : OrderGroup ℝ → OrderGroup ℝ → Prop where
  | permute {head : Option Labor} {inputs others : List (Good × ℝ)}
      (permuted : inputs.Perm others) : Rewrite ⟨head, inputs⟩ ⟨head, others⟩
  | merge (front middle back : List (Good × ℝ)) {head : Option Labor} {good : Good} {a b : ℝ} :
      Rewrite ⟨head, front ++ (good, a) :: middle ++ (good, b) :: back⟩
        ⟨head, front ++ (good, a + b) :: middle ++ back⟩

variable {group other : OrderGroup ℝ}

private theorem amount_eq_sum (good : Good) :
    group.amount good =
      (group.inputs.map fun input => if input.1 = good then input.2 else 0).sum := by
  rw [amount, List.sum_map_ite]
  simp

theorem Rewrite.bill_eq (rewrite : group.Rewrite other) : other.bill = group.bill := by
  cases rewrite with
  | permute permuted =>
    refine Bill.ext rfl (funext fun good => ?_) ?_
    · exact (((permuted.filter _).map _).sum_eq).symm
    · exact List.toFinset_eq_of_perm _ _ (permuted.symm.map Prod.fst)
  | @merge front middle back _ ordered a b =>
    refine Bill.ext rfl (funext fun good => ?_) ?_
    · simp only [bill, amount_eq_sum, List.map_append, List.map_cons, List.sum_append,
        List.sum_cons]
      split <;> ring
    · ext good
      simp only [bill, List.mem_toFinset, List.map_append, List.map_cons, List.mem_append,
        List.mem_cons]
      tauto

theorem Rewrite.amounts (rewrite : group.Rewrite other)
    (amounts : ∀ input ∈ group.inputs, 0 ≤ input.2) : ∀ input ∈ other.inputs, 0 ≤ input.2 := by
  cases rewrite with
  | permute permuted => exact fun input member => amounts input (permuted.mem_iff.mpr member)
  | merge =>
    simp only [List.mem_append, List.mem_cons, or_imp, forall_and, forall_eq] at amounts ⊢
    obtain ⟨⟨front, a, middle⟩, b, back⟩ := amounts
    exact ⟨⟨front, add_nonneg a b, middle⟩, back⟩

section bill

variable (same : other.bill = group.bill)
include same

theorem labor_of_bill : other.labor = group.labor := congrArg Bill.labor same

theorem amount_of_bill (good : Good) : other.amount good = group.amount good :=
  congrFun (congrArg Bill.amount same) good

theorem mem_goods_of_bill (good : Good) :
    good ∈ other.inputs.map Prod.fst ↔ good ∈ group.inputs.map Prod.fst := by
  have goods := Finset.ext_iff.mp (congrArg Bill.goods same) good
  simpa only [bill, List.mem_toFinset] using goods

theorem inputs_eq_nil_of_bill : other.inputs = [] ↔ group.inputs = [] := by
  have empty (one : OrderGroup ℝ) : one.inputs = [] ↔ one.bill.goods = ∅ := by simp [bill]
  rw [empty, empty, same]

theorem satisfaction_of_bill (stocks demand : Table Good ℝ) :
    other.satisfaction stocks demand = group.satisfaction stocks demand := by
  by_cases orders : group.inputs = []
  · rw [satisfaction, (inputs_eq_nil_of_bill same).mpr orders, satisfaction, orders]
  · have ordered {one : OrderGroup ℝ} : {x | ∃ input ∈ one.inputs,
        x = Settlement.satisfaction stocks[input.1] demand[input.1]} =
        {x | ∃ good ∈ one.inputs.map Prod.fst,
          x = Settlement.satisfaction stocks[good] demand[good]} := by
      simp
    have least : IsLeast _ (group.satisfaction stocks demand) := satisfaction_isLeast orders
    have others : IsLeast _ (other.satisfaction stocks demand) :=
      satisfaction_isLeast ((inputs_eq_nil_of_bill same).not.mpr orders)
    rw [ordered] at least others
    simp only [mem_goods_of_bill same] at others
    exact others.unique least

/-- Entries are taken one by one, but that cannot be told from the stocks that are left. -/
theorem consume_of_bill {scale satisfaction : ℝ} {stocks : Table Good ℝ}
    (scale_nonneg : 0 ≤ scale) (satisfaction_nonneg : 0 ≤ satisfaction)
    (amounts : ∀ input ∈ group.inputs, 0 ≤ input.2) (others : ∀ input ∈ other.inputs, 0 ≤ input.2)
    (stocks_nonneg : ∀ good : Good, 0 ≤ stocks[good]) :
    other.consume scale satisfaction stocks = group.consume scale satisfaction stocks := by
  refine Table.ext fun good => ?_
  rw [getElem_consume (used_nonneg others scale_nonneg satisfaction_nonneg) (stocks_nonneg good),
    getElem_consume (used_nonneg amounts scale_nonneg satisfaction_nonneg) (stocks_nonneg good),
    use_eq, use_eq, amount_of_bill same]

end bill

end OrderGroup

namespace Catalog

/-- One group written in another way, or the industries listed in another order. -/
inductive Rewrite : Catalog ℝ → Catalog ℝ → Prop where
  | group (front back : List (OrderGroup ℝ)) {group other : OrderGroup ℝ}
      {outputs : OrderedMap Labor (Output ℝ)} (step : group.Rewrite other) :
      Rewrite ⟨front ++ group :: back, outputs⟩ ⟨front ++ other :: back, outputs⟩
  | outputs {orders : List (OrderGroup ℝ)} {outputs others : OrderedMap Labor (Output ℝ)}
      (permuted : outputs.entries.Perm others.entries) : Rewrite ⟨orders, outputs⟩ ⟨orders, others⟩

/-- Any number of such changes. -/
def Rewritten : Catalog ℝ → Catalog ℝ → Prop := Relation.ReflTransGen Rewrite

/-- The groups order the same, and the industries are the same. -/
structure Alike (catalog other : Catalog ℝ) : Prop where
  bills : other.orders.map OrderGroup.bill = catalog.orders.map OrderGroup.bill
  outputs : other.outputs.entries.Perm catalog.outputs.entries

variable {catalog other : Catalog ℝ}

theorem Rewrite.alike (rewrite : catalog.Rewrite other) : catalog.Alike other := by
  cases rewrite with
  | group _ _ step => exact ⟨by simp [step.bill_eq], .refl _⟩
  | outputs permuted => exact ⟨rfl, permuted.symm⟩

theorem Rewritten.alike (rewritten : catalog.Rewritten other) : catalog.Alike other := by
  induction rewritten with
  | refl => exact ⟨rfl, .refl _⟩
  | tail _ step ih => exact ⟨step.alike.bills.trans ih.bills, step.alike.outputs.trans ih.outputs⟩

theorem Rewrite.amounts (rewrite : catalog.Rewrite other)
    (amounts : ∀ group ∈ catalog.orders, ∀ input ∈ group.inputs, 0 ≤ input.2) :
    ∀ group ∈ other.orders, ∀ input ∈ group.inputs, 0 ≤ input.2 := by
  cases rewrite with
  | group _ _ step =>
    simp only [List.mem_append, List.mem_cons, or_imp, forall_and, forall_eq] at amounts ⊢
    exact ⟨amounts.1, step.amounts amounts.2.1, amounts.2.2⟩
  | outputs _ => exact amounts

theorem Rewritten.amounts (rewritten : catalog.Rewritten other)
    (amounts : ∀ group ∈ catalog.orders, ∀ input ∈ group.inputs, 0 ≤ input.2) :
    ∀ group ∈ other.orders, ∀ input ∈ group.inputs, 0 ≤ input.2 := by
  induction rewritten with
  | refl => exact amounts
  | tail _ step ih => exact step.amounts ih

namespace Alike

variable (alike : catalog.Alike other)
include alike

theorem find?_eq (labor : Labor) : other.outputs.find? labor = catalog.outputs.find? labor := by
  refine Option.ext fun output => ?_
  simp only [OrderedMap.find?_eq_some_iff]
  exact alike.outputs.mem_iff

theorem map_orders {α : Type} (f : OrderGroup.Bill → α) :
    (other.orders.map fun group => f group.bill) = catalog.orders.map fun group => f group.bill := by
  have bills := congrArg (List.map f) alike.bills
  rwa [List.map_map, List.map_map] at bills

theorem counterparts :
    List.Forall₂ (fun group counterpart => counterpart.bill = group.bill) catalog.orders
      other.orders := by
  have bills : List.Forall₂ Eq (other.orders.map OrderGroup.bill)
      (catalog.orders.map OrderGroup.bill) := List.forall₂_eq_eq_eq ▸ alike.bills
  rw [List.forall₂_map_left_iff, List.forall₂_map_right_iff] at bills
  exact bills.flip

theorem exists_counterpart {group : OrderGroup ℝ} (member : group ∈ other.orders) :
    ∃ original ∈ catalog.orders, group.bill = original.bill := by
  have present := List.mem_map_of_mem (f := OrderGroup.bill) member
  rw [alike.bills] at present
  obtain ⟨original, chosen, same⟩ := List.mem_map.mp present
  exact ⟨original, chosen, same.symm⟩

theorem valid (valid : catalog.Valid)
    (amounts : ∀ group ∈ other.orders, ∀ input ∈ group.inputs, 0 ≤ input.2) : other.Valid where
  heads := by
    have heads := alike.map_orders OrderGroup.Bill.labor
    exact heads ▸ valid.heads
  inputs group member := by
    obtain ⟨original, chosen, same⟩ := alike.exists_counterpart member
    exact (OrderGroup.inputs_eq_nil_of_bill same).not.mpr (valid.inputs original chosen)
  amounts group member input chosen := not_lt.mpr (amounts group member input chosen)
  outputs group member labor head := by
    obtain ⟨original, chosen, same⟩ := alike.exists_counterpart member
    have present := valid.outputs original chosen labor
      ((OrderGroup.labor_of_bill same).symm.trans head)
    rwa [OrderedMap.contains, alike.find?_eq]
  groups entry member := by
    have heads := alike.map_orders OrderGroup.Bill.labor
    exact heads ▸ valid.groups entry (alike.outputs.mem_iff.mp member)
  rates entry member := valid.rates entry (alike.outputs.mem_iff.mp member)

end Alike

/-- A valid catalog is valid however it is written. -/
theorem Rewritten.valid (rewritten : catalog.Rewritten other) (valid : catalog.Valid) :
    other.Valid :=
  rewritten.alike.valid valid (rewritten.amounts valid.amount_nonneg)

end Catalog

theorem LaborRule.sum_perm {weights others : List ℝ} (permuted : weights.Perm others) :
    sum weights = sum others := by
  cases weights with
  | nil => rw [permuted.nil_eq]
  | cons weight rest =>
    cases others with
    | nil => exact absurd permuted.eq_nil (List.cons_ne_nil _ _)
    | cons other more =>
      rw [sum, sum, Scalar.sum_eq, Scalar.sum_eq, permuted.sum_eq]
      · exact List.cons_ne_nil _ _
      · exact List.cons_ne_nil _ _

namespace Economy

variable {economy : Economy ℝ} {catalog other : Catalog ℝ}

section alike

variable (alike : catalog.Alike other)
include alike

theorem totals_alike : economy.totals other = economy.totals catalog := by
  have demand : economy.demand other.orders = economy.demand catalog.orders := by
    refine Table.ext fun good => ?_
    rw [getElem_demand, getElem_demand]
    exact congrArg List.sum
      (alike.map_orders fun bill => bill.amount good * economy.scale bill.labor)
  have supply : economy.supply other.outputs = economy.supply catalog.outputs := by
    refine Table.ext fun good => ?_
    rw [getElem_supply, getElem_supply]
    exact ((alike.outputs.filter _).map _).sum_eq
  exact congrArg₂ Totals.mk demand supply

theorem reassigned_alike (smoothing total floor : ℝ) :
    economy.reassigned other.outputs smoothing total floor =
      economy.reassigned catalog.outputs smoothing total floor := by
  have shares : (economy.reassigned other.outputs smoothing total floor).shares =
      (economy.reassigned catalog.outputs smoothing total floor).shares := by
    refine Table.ext fun labor => ?_
    have moved (outputs : OrderedMap Labor (Output ℝ)) := Table.getElem_foldl_modify outputs
      (fun entry share => LaborRule.share smoothing total floor share (economy.weight entry))
      economy.shares labor
    refine (moved other.outputs).trans ?_
    rw [alike.find?_eq]
    exact (moved catalog.outputs).symm
  exact congrArg (fun shares => { economy with shares }) shares

theorem employ_alike (rules : Rules ℝ) : economy.employ rules other = economy.employ rules catalog := by
  have weights : (economy.weights other.outputs).Perm (economy.weights catalog.outputs) :=
    alike.outputs.map economy.weight
  have total : rules.labor.total (economy.weights other.outputs) =
      rules.labor.total (economy.weights catalog.outputs) :=
    congrArg (Given.larger · rules.labor.ratioFloor) (LaborRule.sum_perm weights)
  have empty : (economy.weights other.outputs).isEmpty =
      (economy.weights catalog.outputs).isEmpty := weights.isEmpty_eq
  simp only [employ, reallocate, total, empty, reassigned_alike alike]

theorem staff_alike (rules : Rules ℝ) : economy.staff rules other = economy.staff rules catalog := by
  have employ : employ rules other = employ rules catalog :=
    funext fun economy => employ_alike alike rules
  rw [staff, totals_alike alike, employ, staff]

theorem runGroup_alike {given : Given ℝ} {group counterpart : OrderGroup ℝ}
    (same : counterpart.bill = group.bill) (amounts : ∀ input ∈ group.inputs, 0 ≤ input.2)
    (others : ∀ input ∈ counterpart.inputs, 0 ≤ input.2) {before : Table Good ℝ}
    (scales : ∀ head, 0 ≤ economy.scale head) (old : ∀ good : Good, 0 ≤ before[good])
    (stocks : ∀ good : Good, 0 ≤ economy.stocks[good]) (demand : Table Good ℝ) :
    runGroup other.outputs given before demand counterpart economy =
      runGroup catalog.outputs given before demand group economy := by
  have empty : counterpart.inputs.isEmpty = group.inputs.isEmpty := by
    rw [Bool.eq_iff_iff, List.isEmpty_iff, List.isEmpty_iff,
      OrderGroup.inputs_eq_nil_of_bill same]
  have part : counterpart.satisfaction before demand = group.satisfaction before demand :=
    OrderGroup.satisfaction_of_bill same before demand
  have left : counterpart.consume (economy.scale group.labor) (group.satisfaction before demand)
      economy.stocks = group.consume (economy.scale group.labor) (group.satisfaction before demand)
        economy.stocks :=
    OrderGroup.consume_of_bill same (scales group.labor) (OrderGroup.satisfaction_mem old).1 amounts
      others stocks
  simp only [runGroup, empty, OrderGroup.labor_of_bill same, part, left, alike.find?_eq]

theorem produce_alike {given : Given ℝ} {exponent : ℝ} (denotes : given.Denotes exponent)
    (amounts : ∀ group ∈ catalog.orders, ∀ input ∈ group.inputs, 0 ≤ input.2)
    (others : ∀ group ∈ other.orders, ∀ input ∈ group.inputs, 0 ≤ input.2)
    (rates : ∀ entry ∈ catalog.outputs.entries, 0 ≤ entry.2.rate)
    (scales : ∀ head, 0 ≤ economy.scale head) (stocks : ∀ good : Good, 0 ≤ economy.stocks[good])
    (demand : Table Good ℝ) :
    economy.produce other given demand = economy.produce catalog given demand := by
  let ready (state : Economy ℝ) : Prop :=
    (∀ head, 0 ≤ state.scale head) ∧ ∀ good : Good, 0 ≤ state.stocks[good]
  have bills : List.Forall₂ (fun group counterpart => (∀ input ∈ group.inputs, 0 ≤ input.2) ∧
      (∀ input ∈ counterpart.inputs, 0 ≤ input.2) ∧ counterpart.bill = group.bill)
      catalog.orders other.orders := by
    rw [List.forall₂_and_left]
    refine ⟨amounts, List.Forall₂.flip ?_⟩
    exact (List.forall₂_and_left _ _).mpr ⟨others, alike.counterparts.flip⟩
  have steps : List.Forall₂ (fun group counterpart => ∀ state, ready state →
      runGroup other.outputs given economy.stocks demand counterpart state =
        (runGroup catalog.outputs given economy.stocks demand group state).map id)
      catalog.orders other.orders := by
    refine bills.imp fun group counterpart holds state running => ?_
    obtain ⟨amounts, others, same⟩ := holds
    exact runGroup_alike alike same amounts others running.1 stocks running.2 demand
  have keeps : ∀ group ∈ catalog.orders, ∀ state after, ready state →
      (runGroup catalog.outputs given economy.stocks demand group state).Reaches after →
        ready after := by
    intro group member state after holds ran
    obtain ⟨_, rfl⟩ := (reaches_runGroup_iff_eq denotes).mp ran
    refine ⟨fun head => ?_, fun good => ?_⟩
    · rw [scale_afterGroup]
      exact holds.1 head
    · rw [getElem_stocks_afterGroup holds.1 stocks (amounts group member) (holds.2 good)]
      exact add_nonneg (le_max_left _ _) (makes_nonneg holds.1 stocks rates)
  exact (Outcome.map_each steps keeps (f := id) ⟨scales, stocks⟩).symm

end alike

/-- A tick cannot tell in which way its recipes are written. -/
theorem NonNegative.tick_rewritten {inexact : Rules ℝ} {rules : ExactRules}
    (nonneg : economy.NonNegative) (denotes : inexact.Denotes rules) (safe : rules.Safe)
    (valid : catalog.Valid) (rewritten : catalog.Rewritten other) (decay : Table Good ℝ)
    (replenisher : Replenisher ℝ) (days : Given ℝ) :
    economy.tick inexact other decay replenisher days =
      economy.tick inexact catalog decay replenisher days := by
  have alike := rewritten.alike
  have produced : ∀ staffed, (economy.staff inexact catalog).Reaches staffed →
      staffed.produce other inexact.exponent (economy.totals other).demand =
        staffed.produce catalog inexact.exponent (economy.totals catalog).demand := by
    intro staffed reached
    obtain ⟨_, _, rfl⟩ := (reaches_staff_iff_eq denotes).mp reached
    rw [totals_alike alike]
    exact produce_alike alike denotes.exponent valid.amount_nonneg
      (rewritten.amounts valid.amount_nonneg) valid.rate_nonneg
      (scale_nonneg _ (nonneg.shares_employed safe)) nonneg.stocks _
  have harvested : economy.harvest inexact other decay replenisher =
      economy.harvest inexact catalog decay replenisher := by
    rw [harvest, harvest, staff_alike alike]
    exact congrArg (Outcome.andThen · _) (Outcome.map_andThen (f := id) _ produced).symm
  rw [tick_eq, harvested, tick_eq]

end Economy

end Settlement
