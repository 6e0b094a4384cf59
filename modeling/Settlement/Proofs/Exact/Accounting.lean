import Settlement.Proofs.Exact.Reordering
/-!
The material accounts of production. Where the demand that satisfactions are taken from covers what
the groups ask for, no good is taken beyond its stock, whatever the others make of it meanwhile:
nothing is stopped at zero, and each stock ends at what was there, less what is taken of it, with
what is made of it.
-/
namespace Settlement

namespace OrderGroup

variable {group : OrderGroup ℝ} {stocks demand : Table Good ℝ}

/-- How far the inputs of a group go round is the least that one of them allows. -/
theorem satisfaction_isLeast_ratio (orders : group.inputs ≠ []) :
    IsLeast {x | ∃ input ∈ group.inputs,
      x = if demand[input.1] ≤ 0 then 1 else min (stocks[input.1] / demand[input.1]) 1}
      (group.satisfaction stocks demand) := by
  simp only [← satisfaction_eq]
  exact satisfaction_isLeast orders

/-- What the inputs before an entry and the entry itself take is part of what the group takes. -/
theorem use_add_used_le {scale satisfaction : ℝ} {head : Option Labor}
    {taken rest : List (Good × ℝ)} {input : Good × ℝ}
    (nonneg : ∀ other ∈ taken ++ input :: rest, 0 ≤ used other.2 scale satisfaction) :
    (⟨head, taken⟩ : OrderGroup ℝ).use scale satisfaction input.1 +
        used input.2 scale satisfaction ≤
      (⟨head, taken ++ input :: rest⟩ : OrderGroup ℝ).use scale satisfaction input.1 := by
  have later : 0 ≤ ((rest.filter (·.1 = input.1)).map
      fun other => used other.2 scale satisfaction).sum := by
    apply List.sum_nonneg
    intro amount member
    obtain ⟨other, chosen, rfl⟩ := List.mem_map.mp member
    have present := List.mem_of_mem_filter chosen
    exact nonneg other (List.mem_append_right _ (List.mem_cons_of_mem _ present))
  simp only [use, List.filter_append, List.map_append, List.sum_append]
  rw [List.filter_cons_of_pos (by simp), List.map_cons, List.sum_cons]
  linarith

/-- Groups without a head count for nothing, the others as their heads do. -/
theorem sum_map_head (worth : Labor → ℝ) (groups : List (OrderGroup ℝ)) :
    (groups.map fun group => group.labor.elim 0 worth).sum =
      ((groups.filterMap OrderGroup.labor).map worth).sum := by
  induction groups with
  | nil => rfl
  | cons group rest ih =>
    rw [List.map_cons, List.sum_cons, ih, List.filterMap_cons]
    cases group.labor with
    | none => rw [Option.elim_none, zero_add]
    | some labor => rw [Option.elim_some, List.map_cons, List.sum_cons]

end OrderGroup

namespace Catalog

/-- The group that an industry heads, if it heads one. -/
def group? (catalog : Catalog ℝ) (labor : Labor) : Option (OrderGroup ℝ) :=
  catalog.orders.find? (·.labor = some labor)

/-- How far the inputs of an industry go round. -/
noncomputable def part (catalog : Catalog ℝ) (stocks demand : Table Good ℝ) (labor : Labor) : ℝ :=
  (catalog.group? labor).elim 1 (·.satisfaction stocks demand)

variable {catalog : Catalog ℝ}

/-- No industry heads a second group. -/
theorem Valid.group?_eq (valid : catalog.Valid) {group : OrderGroup ℝ} {labor : Labor}
    (member : group ∈ catalog.orders) (head : group.labor = some labor) :
    catalog.group? labor = some group := by
  have heads := valid.heads
  unfold group?
  generalize catalog.orders = orders at member heads
  induction orders with
  | nil => cases member
  | cons first rest ih =>
    rw [List.map_cons, List.nodup_cons] at heads
    rcases List.mem_cons.mp member with rfl | later
    · exact List.find?_cons_of_pos (by simpa using head)
    · have apart : first.labor ≠ some labor := fun same =>
        heads.1 (same.trans head.symm ▸ List.mem_map_of_mem later)
      rw [List.find?_cons_of_neg (by simpa using apart)]
      exact ih later heads.2

/-- The industries that head groups are the industries that have an output. -/
theorem Valid.heads_perm (valid : catalog.Valid) :
    (catalog.orders.filterMap OrderGroup.labor).Perm (catalog.outputs.entries.map Prod.fst) := by
  have distinct : (catalog.orders.filterMap OrderGroup.labor).Nodup := by
    have heads := valid.heads
    rw [List.Nodup, List.pairwise_map] at heads
    refine List.Pairwise.filterMap OrderGroup.labor ?_ heads
    intro first second apart labor head other another same
    exact apart (head.trans (same ▸ another.symm))
  rw [List.perm_ext_iff_of_nodup distinct catalog.outputs.distinct]
  intro labor
  rw [List.mem_filterMap]
  constructor
  · intro holds
    obtain ⟨group, member, head⟩ := holds
    have present := valid.outputs group member labor head
    rw [OrderedMap.contains, OrderedMap.find?_isSome, decide_eq_true_iff] at present
    exact present
  · intro present
    obtain ⟨entry, member, rfl⟩ := List.mem_map.mp present
    obtain ⟨group, chosen, head⟩ := List.mem_map.mp (valid.groups entry member)
    exact ⟨group, chosen, head⟩

end Catalog

namespace Economy

variable {economy : Economy ℝ} {catalog : Catalog ℝ} {outputs : OrderedMap Labor (Output ℝ)}
  {exponent : ℝ} {demand : Table Good ℝ} {orders others : List (OrderGroup ℝ)} {good : Good}

/-- What an industry makes of a good with the part of its inputs that goes round. -/
noncomputable def industryMakes (economy : Economy ℝ) (catalog : Catalog ℝ) (exponent : ℝ)
    (demand : Table Good ℝ) (good : Good) (labor : Labor) : ℝ :=
  (catalog.outputs.find? labor).elim 0 fun output =>
    if output.good = good then
      economy.made exponent (catalog.part economy.stocks demand labor) (labor, output)
    else 0

/-- A group makes what the industry at its head makes. -/
theorem makes_eq_industryMakes (valid : catalog.Valid) {group : OrderGroup ℝ}
    (member : group ∈ catalog.orders) :
    economy.makes catalog.outputs exponent economy.stocks demand group good =
      group.labor.elim 0 (economy.industryMakes catalog exponent demand good) := by
  unfold makes OrderGroup.producer?
  cases head : group.labor with
  | none => rfl
  | some labor =>
    have part : catalog.part economy.stocks demand labor =
        group.satisfaction economy.stocks demand := by
      rw [Catalog.part, valid.group?_eq member head, Option.elim_some]
    simp only [Option.bind_some, Option.elim_some, industryMakes, part]
    cases catalog.outputs.find? labor <;> rfl

theorem industryMakes_of_mem {entry : Labor × Output ℝ}
    (member : entry ∈ catalog.outputs.entries) :
    economy.industryMakes catalog exponent demand good entry.1 =
      if entry.2.good = good then catalog.part economy.stocks demand entry.1 * entry.2.rate *
        economy.scale (some entry.1) ^ exponent else 0 := by
  have found := (OrderedMap.find?_eq_some_iff catalog.outputs entry.1 entry.2).mpr member
  rw [industryMakes, found, Option.elim_some]
  rfl

/-- What all groups make of a good is what the industries with that output make. -/
theorem totalMade_eq (valid : catalog.Valid) :
    economy.totalMade catalog.outputs exponent economy.stocks demand catalog.orders good =
      ((catalog.outputs.entries.filter (·.2.good = good)).map fun entry =>
        catalog.part economy.stocks demand entry.1 * entry.2.rate *
          economy.scale (some entry.1) ^ exponent).sum := by
  calc economy.totalMade catalog.outputs exponent economy.stocks demand catalog.orders good
      = (catalog.orders.map fun group =>
          group.labor.elim 0 (economy.industryMakes catalog exponent demand good)).sum :=
        congrArg List.sum (List.map_congr_left fun _ => makes_eq_industryMakes valid)
    _ = ((catalog.outputs.entries.map Prod.fst).map
          (economy.industryMakes catalog exponent demand good)).sum := by
        rw [OrderGroup.sum_map_head]
        exact (valid.heads_perm.map _).sum_eq
    _ = (catalog.outputs.entries.map fun entry =>
          if entry.2.good = good then catalog.part economy.stocks demand entry.1 * entry.2.rate *
            economy.scale (some entry.1) ^ exponent else 0).sum := by
        rw [List.map_map]
        exact congrArg List.sum (List.map_congr_left fun _ => industryMakes_of_mem)
    _ = _ := by
        rw [List.sum_map_ite]
        simp

/-- Whichever groups have run and whatever the next one has taken by then, there is as much of its
next input as it takes of it. -/
def NeverRunsShort (economy : Economy ℝ) (catalog : Catalog ℝ) (given : Given ℝ)
    (demand : Table Good ℝ) : Prop :=
  ∀ front group back, catalog.orders = front ++ group :: back →
    ∀ running, (Outcome.each front (runGroup catalog.outputs given economy.stocks demand)
        economy).Reaches running →
      ∀ taken input rest, group.inputs = taken ++ input :: rest →
        OrderGroup.used input.2 (running.scale group.labor)
            (group.satisfaction economy.stocks demand) ≤
          ((⟨group.labor, taken⟩ : OrderGroup ℝ).consume (running.scale group.labor)
            (group.satisfaction economy.stocks demand) running.stocks)[input.1]

theorem totalTaken_append (rest : List (OrderGroup ℝ)) :
    economy.totalTaken economy.stocks demand (orders ++ rest) good =
      economy.totalTaken economy.stocks demand orders good +
        economy.totalTaken economy.stocks demand rest good := by
  rw [totalTaken, List.map_append, List.sum_append, totalTaken, totalTaken]

/-- Groups that ask for no more than the demand take no more than the stock. -/
theorem totalTaken_le_stock (scales : ∀ head, 0 ≤ economy.scale head)
    (stocks : ∀ good : Good, 0 ≤ economy.stocks[good])
    (amounts : ∀ group ∈ orders, ∀ input ∈ group.inputs, 0 ≤ input.2)
    (asked : (economy.demand orders)[good] ≤ demand[good]) :
    economy.totalTaken economy.stocks demand orders good ≤ economy.stocks[good] :=
  calc economy.totalTaken economy.stocks demand orders good
      ≤ (economy.demand orders)[good] * satisfaction economy.stocks[good] demand[good] :=
        totalTaken_le scales amounts
    _ ≤ demand[good] * satisfaction economy.stocks[good] demand[good] :=
        mul_le_mul_of_nonneg_right asked (satisfaction_mem (stocks good) _).1
    _ ≤ economy.stocks[good] := mul_satisfaction_le (stocks good) _

section covered

variable (valid : catalog.Valid) (scales : ∀ head, 0 ≤ economy.scale head)
  (stocks : ∀ good : Good, 0 ≤ economy.stocks[good])
  (covered : ∀ good : Good,
    economy.totalTaken economy.stocks demand catalog.orders good ≤ economy.stocks[good])
include valid scales stocks covered

/-- Where the stocks cover what is taken, groups may run in any order. -/
theorem afterGroups_perm (permuted : orders.Perm catalog.orders) :
    economy.afterGroups catalog.outputs exponent economy.stocks demand orders =
      economy.afterGroups catalog.outputs exponent economy.stocks demand catalog.orders := by
  have left : (economy.afterGroups catalog.outputs exponent economy.stocks demand orders).stocks =
      (economy.afterGroups catalog.outputs exponent economy.stocks demand
        catalog.orders).stocks :=
    Table.ext fun good => getElem_stocks_afterGroups_perm scales stocks valid.rate_nonneg
      (stocks good) permuted valid.amount_nonneg (.inl (covered good))
  have record (labor : Labor) :
      (economy.afterGroups catalog.outputs exponent economy.stocks demand orders).record labor =
        (economy.afterGroups catalog.outputs exponent economy.stocks demand
          catalog.orders).record labor :=
    record_afterGroups_perm valid permuted labor
  have productivity :
      (economy.afterGroups catalog.outputs exponent economy.stocks demand orders).productivity =
        (economy.afterGroups catalog.outputs exponent economy.stocks demand
          catalog.orders).productivity :=
    Table.ext fun labor => congrArg Prod.fst (record labor)
  have yields : (economy.afterGroups catalog.outputs exponent economy.stocks demand orders).yields =
      (economy.afterGroups catalog.outputs exponent economy.stocks demand
        catalog.orders).yields :=
    Table.ext fun labor => congrArg Prod.snd (record labor)
  obtain ⟨_, _, _, one⟩ : ∃ stocks productivity yields,
      economy.afterGroups catalog.outputs exponent economy.stocks demand orders =
        { economy with stocks, productivity, yields } := afterGroups_frame
  obtain ⟨_, _, _, other⟩ : ∃ stocks productivity yields,
      economy.afterGroups catalog.outputs exponent economy.stocks demand catalog.orders =
        { economy with stocks, productivity, yields } := afterGroups_frame
  rw [one, other] at left productivity yields
  rw [one, other]
  cases left
  cases productivity
  cases yields
  rfl

/-- Whichever groups have run, there is as much of a good as the next group takes of it. -/
theorem takes_le_stocks_afterGroups {front back : List (OrderGroup ℝ)} {group : OrderGroup ℝ}
    (split : catalog.orders = front ++ group :: back) :
    economy.takes economy.stocks demand group good ≤
      (economy.afterGroups catalog.outputs exponent economy.stocks demand front).stocks[good] := by
  have amounts : ∀ other ∈ front ++ group :: back, ∀ input ∈ other.inputs, 0 ≤ input.2 :=
    split ▸ valid.amount_nonneg
  rw [List.forall_mem_append, List.forall_mem_cons] at amounts
  have whole := covered good
  rw [split, totalTaken_append, totalTaken_cons] at whole
  have here : 0 ≤ economy.takes economy.stocks demand group good :=
    takes_nonneg scales stocks amounts.2.1
  have later : 0 ≤ economy.totalTaken economy.stocks demand back good :=
    totalTaken_nonneg scales stocks amounts.2.2
  have made : 0 ≤ economy.totalMade catalog.outputs exponent economy.stocks demand front good :=
    totalMade_nonneg scales stocks valid.rate_nonneg
  rw [getElem_stocks_afterGroups scales stocks amounts.1 valid.rate_nonneg (by linarith)]
  linarith

theorem neverRunsShort_of_covered {given : Given ℝ} (denotes : given.Denotes exponent) :
    economy.NeverRunsShort catalog given demand := by
  intro front group back split running ran taken input rest inputs
  have front_ran : (economy.produce (catalog.listed front) given demand).Reaches running := ran
  obtain ⟨_, after⟩ := (reaches_produce_iff_eq denotes).mp front_ran
  have same : running.scale = economy.scale := after ▸ scale_afterGroups
  have enough : economy.takes economy.stocks demand group input.1 ≤ running.stocks[input.1] :=
    after ▸ takes_le_stocks_afterGroups valid scales stocks covered split
  have amounts : ∀ other ∈ group.inputs, 0 ≤ other.2 :=
    valid.amount_nonneg group (by simp [split])
  have here : 0 ≤ economy.takes economy.stocks demand group input.1 :=
    takes_nonneg scales stocks amounts
  have used : ∀ other ∈ group.inputs, 0 ≤ OrderGroup.used other.2 (economy.scale group.labor)
      (group.satisfaction economy.stocks demand) :=
    OrderGroup.used_nonneg amounts (scales _) (OrderGroup.satisfaction_mem stocks).1
  have part : (⟨group.labor, taken⟩ : OrderGroup ℝ).use (economy.scale group.labor)
        (group.satisfaction economy.stocks demand) input.1 +
      OrderGroup.used input.2 (economy.scale group.labor)
        (group.satisfaction economy.stocks demand) ≤
      economy.takes economy.stocks demand group input.1 := by
    have bound : _ ≤ (⟨group.labor, taken ++ input :: rest⟩ : OrderGroup ℝ).use
        (economy.scale group.labor) (group.satisfaction economy.stocks demand) input.1 :=
      OrderGroup.use_add_used_le (inputs ▸ used)
    rwa [← inputs] at bound
  have before : ∀ other ∈ taken, 0 ≤ OrderGroup.used other.2 (economy.scale group.labor)
      (group.satisfaction economy.stocks demand) :=
    fun other member => used other (inputs ▸ List.mem_append_left _ member)
  rw [same, OrderGroup.getElem_consume before (here.trans enough)]
  exact le_max_of_le_right (by linarith)

end covered

/-- Where the demand covers what the groups ask for, production leaves each stock at what was there,
less what the groups take, each its part of what it asks for, with what the industries make. No
stock is stopped at zero, and the groups may be listed in any order. -/
theorem produce_accounts {given : Given ℝ} (denotes : given.Denotes exponent)
    (checked : catalog.check = .ok ()) (stocks : ∀ good : Good, 0 ≤ economy.stocks[good])
    (shares : ∀ labor : Labor, 0 ≤ economy.shares[labor])
    (powers : ∀ entry ∈ catalog.outputs.entries, economy.scale (some entry.1) = 0 → 0 ≤ exponent)
    (asked : ∀ good : Good, (economy.demand catalog.orders)[good] ≤ demand[good]) :
    ∃ produced, (economy.produce catalog given demand).Reaches produced ∧
      (∀ good : Good, produced.stocks[good] = economy.stocks[good] -
          (catalog.orders.map fun group => group.satisfaction economy.stocks demand *
            economy.scale group.labor * group.amount good).sum +
          ((catalog.outputs.entries.filter (·.2.good = good)).map fun entry =>
            catalog.part economy.stocks demand entry.1 * entry.2.rate *
              economy.scale (some entry.1) ^ exponent).sum) ∧
      (∀ group ∈ catalog.orders, IsLeast {x | ∃ input ∈ group.inputs,
          x = if demand[input.1] ≤ 0 then 1
            else min (economy.stocks[input.1] / demand[input.1]) 1}
        (group.satisfaction economy.stocks demand)) ∧
      (∀ good : Good, (catalog.orders.map fun group => group.satisfaction economy.stocks demand *
        economy.scale group.labor * group.amount good).sum ≤ economy.stocks[good]) ∧
      economy.NeverRunsShort catalog given demand ∧
      ∀ orders, orders.Perm catalog.orders →
        (economy.produce (catalog.listed orders) given demand).Reaches produced := by
  have valid := Catalog.check_eq_ok_iff.mp checked
  have scales := scale_nonneg economy shares
  have covered (good : Good) :
      economy.totalTaken economy.stocks demand catalog.orders good ≤ economy.stocks[good] :=
    totalTaken_le_stock scales stocks valid.amount_nonneg (asked good)
  have taken (good : Good) : economy.totalTaken economy.stocks demand catalog.orders good =
      (catalog.orders.map fun group => group.satisfaction economy.stocks demand *
        economy.scale group.labor * group.amount good).sum := by
    refine congrArg List.sum (List.map_congr_left fun group _ => ?_)
    rw [takes, OrderGroup.use_eq]
    ring
  have canRun := canRun_of_powers valid powers
  refine ⟨_, (reaches_produce_iff_eq denotes).mpr ⟨canRun, rfl⟩, fun good => ?_,
    fun group member => OrderGroup.satisfaction_isLeast_ratio (valid.inputs group member),
    fun good => taken good ▸ covered good, neverRunsShort_of_covered valid scales stocks covered
      denotes, fun orders permuted => ?_⟩
  · rw [getElem_stocks_afterGroups scales stocks valid.amount_nonneg valid.rate_nonneg
      (covered good), taken, totalMade_eq valid]
  · exact (reaches_produce_iff_eq denotes).mpr
      ⟨fun group member => canRun group (permuted.mem_iff.mp member),
        (afterGroups_perm valid scales stocks covered permuted).symm⟩

/-- The mill with the demand of its own workers. -/
theorem produce_accounts_mill :
    ∃ produced, (mill.produce .mill (.real ExactRules.standard.exponent)
        (mill.demand Catalog.mill.orders)).Reaches produced ∧
      mill.NeverRunsShort .mill (.real ExactRules.standard.exponent)
        (mill.demand Catalog.mill.orders) := by
  obtain ⟨produced, ran, _, _, _, never, _⟩ := produce_accounts
    (.real ExactRules.standard.exponent) Catalog.check_mill mill_sound.stocks
    (fun labor => (mill_sound.shares labor).1)
    (fun _ _ _ => ExactRules.standard_exponent_nonneg) (fun _ => le_refl _)
  exact ⟨produced, ran, never⟩

end Economy

end Settlement
