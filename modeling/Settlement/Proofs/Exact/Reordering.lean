import Settlement.Proofs.Exact.Bounds
/-!
The order in which a catalog lists its groups. Demand, values, shares and satisfactions are fixed
before any group runs, and each group adds and takes the same whenever it has its turn. The order
shows only in a stock that is stopped at zero and added to: what is made before the stop is taken,
what is made after it stays.
-/
namespace Settlement

/-- The same industries, with the groups listed in another way. -/
def Catalog.listed (catalog : Catalog ℝ) (orders : List (OrderGroup ℝ)) : Catalog ℝ :=
  { catalog with orders }

theorem Catalog.Valid.listed {catalog : Catalog ℝ} (valid : catalog.Valid)
    {orders : List (OrderGroup ℝ)} (permuted : orders.Perm catalog.orders) :
    (catalog.listed orders).Valid where
  heads := (permuted.map OrderGroup.labor).nodup_iff.mpr valid.heads
  inputs group member := valid.inputs group (permuted.mem_iff.mp member)
  amounts group member := valid.amounts group (permuted.mem_iff.mp member)
  outputs group member := valid.outputs group (permuted.mem_iff.mp member)
  groups entry member := (permuted.map OrderGroup.labor).mem_iff.mpr (valid.groups entry member)
  rates := valid.rates

namespace Economy

variable {economy : Economy ℝ} {inexact : Rules ℝ} {rules : ExactRules} {catalog : Catalog ℝ}
  {outputs : OrderedMap Labor (Output ℝ)} {exponent : ℝ} {before demand : Table Good ℝ}
  {orders others : List (OrderGroup ℝ)} {good : Good}

theorem demand_perm (permuted : orders.Perm others) :
    economy.demand orders = economy.demand others := by
  refine Table.ext fun good => ?_
  rw [getElem_demand, getElem_demand]
  exact (permuted.map _).sum_eq

theorem totals_listed (permuted : orders.Perm catalog.orders) :
    economy.totals (catalog.listed orders) = economy.totals catalog :=
  congrArg (Totals.mk · (economy.supply catalog.outputs)) (demand_perm permuted)

theorem totalTaken_perm (permuted : orders.Perm others) :
    economy.totalTaken before demand orders good = economy.totalTaken before demand others good :=
  (permuted.map _).sum_eq

theorem totalMade_perm (permuted : orders.Perm others) :
    economy.totalMade outputs exponent before demand orders good =
      economy.totalMade outputs exponent before demand others good :=
  (permuted.map _).sum_eq

/-- Productivity and yields are recorded industry by industry. -/
theorem record_afterGroups_perm (valid : catalog.Valid) (permuted : orders.Perm catalog.orders)
    (labor : Labor) :
    (economy.afterGroups catalog.outputs exponent before demand orders).record labor =
      (economy.afterGroups catalog.outputs exponent before demand catalog.orders).record labor := by
  by_cases heads : some labor ∈ catalog.orders.map OrderGroup.labor
  · obtain ⟨group, member, head⟩ := List.mem_map.mp heads
    obtain ⟨output, found⟩ := Option.isSome_iff_exists.mp (valid.outputs group member labor head)
    rw [record_afterGroups_of_mem valid.heads member head found]
    exact record_afterGroups_of_mem (valid.listed permuted).heads (permuted.mem_iff.mpr member) head
      found
  · rw [record_afterGroups_of_not_mem heads]
    exact record_afterGroups_of_not_mem fun present =>
      heads ((permuted.map OrderGroup.labor).mem_iff.mp present)

/-- Two stocks between all made first and all taken first differ by no more than what is made, and
by no more than what is taken beyond what there is. -/
private theorem abs_sub_le {stock taken made first second : ℝ} (made_nonneg : 0 ≤ made)
    (one : first ∈ Set.Icc (max 0 (stock + made - taken)) (max 0 (stock - taken) + made))
    (other : second ∈ Set.Icc (max 0 (stock + made - taken)) (max 0 (stock - taken) + made)) :
    |second - first| ≤ min made (max 0 (taken - stock)) := by
  have width : max 0 (stock - taken) + made - max 0 (stock + made - taken) ≤
      min made (max 0 (taken - stock)) := by
    have least := le_max_right 0 (stock + made - taken)
    have none := le_max_left 0 (stock + made - taken)
    rcases le_total taken stock with covered | short
    · rw [max_eq_right (sub_nonneg.mpr covered)]
      exact le_min (by linarith) (le_max_of_le_left (by linarith))
    · rw [max_eq_left (sub_nonpos.mpr short)]
      exact le_min (by linarith) (le_max_of_le_right (by linarith))
  rw [abs_sub_le_iff]
  constructor
  · linarith [one.1, other.2]
  · linarith [one.2, other.1]

section groups

variable (scales : ∀ head, 0 ≤ economy.scale head) (stocks : ∀ good : Good, 0 ≤ before[good])
  (rates : ∀ industry ∈ outputs.entries, 0 ≤ industry.2.rate)
include scales stocks rates

theorem totalMade_nonneg :
    0 ≤ economy.totalMade outputs exponent before demand orders good := by
  apply List.sum_nonneg
  intro amount member
  obtain ⟨group, _, rfl⟩ := List.mem_map.mp member
  exact makes_nonneg scales stocks rates

variable (stock_nonneg : 0 ≤ economy.stocks[good])
include stock_nonneg

/-- In whichever order groups take and make, they leave no less than if all was made before
anything was taken, and no more than if all was taken before anything was made. -/
theorem getElem_stocks_afterGroups_mem
    (amounts : ∀ group ∈ orders, ∀ input ∈ group.inputs, 0 ≤ input.2) :
    (economy.afterGroups outputs exponent before demand orders).stocks[good] ∈ Set.Icc
      (max 0 (economy.stocks[good] + economy.totalMade outputs exponent before demand orders good -
        economy.totalTaken before demand orders good))
      (max 0 (economy.stocks[good] - economy.totalTaken before demand orders good) +
        economy.totalMade outputs exponent before demand orders good) := by
  induction orders generalizing economy with
  | nil => simp [afterGroups, totalTaken, totalMade, stock_nonneg]
  | cons group rest ih =>
    rw [List.forall_mem_cons] at amounts
    have made : 0 ≤ economy.makes outputs exponent before demand group good :=
      makes_nonneg scales stocks rates
    have later : 0 ≤ economy.totalTaken before demand rest good :=
      totalTaken_nonneg scales stocks amounts.2
    have stock : (economy.afterGroup outputs exponent before demand group).stocks[good] =
        max 0 (economy.stocks[good] - economy.takes before demand group good) +
          economy.makes outputs exponent before demand group good :=
      getElem_stocks_afterGroup scales stocks amounts.1 stock_nonneg
    obtain ⟨taken, added⟩ : _ ∧ (economy.afterGroup outputs exponent before demand group).totalMade
      outputs exponent before demand rest good = _ := totals_afterGroup rest
    have ended := ih (scale_afterGroup ▸ scales) (stock ▸ add_nonneg (le_max_left _ _) made)
      amounts.2
    rw [taken, added, stock] at ended
    rw [afterGroups, List.foldl_cons, totalTaken_cons, totalMade_cons]
    constructor
    · refine le_trans (max_le_max_left 0 ?_) ended.1
      have left := le_max_right 0 (economy.stocks[good] - economy.takes before demand group good)
      linarith
    · refine le_trans ended.2 ?_
      rw [← add_assoc]
      refine add_le_add_left (max_le (add_nonneg (le_max_left _ _) made) ?_) _
      let final := economy.stocks[good] -
        (economy.takes before demand group good + economy.totalTaken before demand rest good)
      rcases le_total 0 (economy.stocks[good] - economy.takes before demand group good) with
        enough | short
      · have left : final ≤ max 0 final := le_max_right 0 final
        rw [max_eq_right enough]
        linarith
      · have left : 0 ≤ max 0 final := le_max_left 0 final
        rw [max_eq_left short]
        linarith

theorem getElem_stocks_afterGroups_pair {group other : OrderGroup ℝ}
    (amounts : ∀ chosen ∈ [group, other], ∀ input ∈ chosen.inputs, 0 ≤ input.2) :
    (economy.afterGroups outputs exponent before demand [group, other]).stocks[good] =
      max 0 (max 0 (economy.stocks[good] - economy.takes before demand group good) +
        economy.makes outputs exponent before demand group good -
          economy.takes before demand other good) +
        economy.makes outputs exponent before demand other good := by
  let between := economy.afterGroup outputs exponent before demand group
  have same : between.scale = economy.scale := scale_afterGroup
  have stock : between.stocks[good] =
      max 0 (economy.stocks[good] - economy.takes before demand group good) +
        economy.makes outputs exponent before demand group good :=
    getElem_stocks_afterGroup scales stocks (amounts group (by simp)) stock_nonneg
  have left : 0 ≤ between.stocks[good] :=
    stock ▸ add_nonneg (le_max_left _ _) (makes_nonneg scales stocks rates)
  have ended : (between.afterGroup outputs exponent before demand other).stocks[good] = _ :=
    getElem_stocks_afterGroup (same ▸ scales) stocks (amounts other (by simp)) left
  rw [stock] at ended
  refine ended.trans ?_
  simp only [takes, makes, made, same]

theorem abs_stocks_afterGroups_sub_le (permuted : orders.Perm others)
    (amounts : ∀ group ∈ others, ∀ input ∈ group.inputs, 0 ≤ input.2) :
    |(economy.afterGroups outputs exponent before demand orders).stocks[good] -
        (economy.afterGroups outputs exponent before demand others).stocks[good]| ≤
      min (economy.totalMade outputs exponent before demand others good)
        (max 0 (economy.totalTaken before demand others good - economy.stocks[good])) := by
  have made : 0 ≤ economy.totalMade outputs exponent before demand others good :=
    totalMade_nonneg scales stocks rates
  have one : (economy.afterGroups outputs exponent before demand others).stocks[good] ∈
      Set.Icc _ _ := getElem_stocks_afterGroups_mem scales stocks rates stock_nonneg amounts
  have other : (economy.afterGroups outputs exponent before demand orders).stocks[good] ∈
      Set.Icc _ _ :=
    getElem_stocks_afterGroups_mem scales stocks rates stock_nonneg fun group member =>
      amounts group (permuted.mem_iff.mp member)
  rw [totalTaken_perm permuted, totalMade_perm permuted] at other
  exact abs_sub_le made one other

/-- A stock that covers what is taken, or that nobody makes, is the same in every order. -/
theorem getElem_stocks_afterGroups_perm (permuted : orders.Perm others)
    (amounts : ∀ group ∈ others, ∀ input ∈ group.inputs, 0 ≤ input.2)
    (covered : economy.totalTaken before demand others good ≤ economy.stocks[good] ∨
      economy.totalMade outputs exponent before demand others good = 0) :
    (economy.afterGroups outputs exponent before demand orders).stocks[good] =
      (economy.afterGroups outputs exponent before demand others).stocks[good] := by
  have none : min (economy.totalMade outputs exponent before demand others good)
      (max 0 (economy.totalTaken before demand others good - economy.stocks[good])) ≤ 0 := by
    rcases covered with enough | unmade
    · exact min_le_of_right_le (max_le (le_refl 0) (sub_nonpos.mpr enough))
    · exact min_le_of_left_le (le_of_eq unmade)
  exact sub_eq_zero.mp (abs_nonpos_iff.mp (le_trans
    (abs_stocks_afterGroups_sub_le scales stocks rates stock_nonneg permuted amounts) none))

end groups

theorem employed_listed (permuted : orders.Perm catalog.orders) :
    economy.employed rules (catalog.listed orders) = economy.employed rules catalog := by
  rw [employed, totals_listed permuted]
  rfl

theorem produced_listed_eq (permuted : orders.Perm catalog.orders) :
    economy.produced rules (catalog.listed orders) =
      (economy.employed rules catalog).afterGroups catalog.outputs rules.exponent economy.stocks
        (economy.totals catalog).demand orders := by
  rw [produced, employed_listed permuted, totals_listed permuted]
  rfl

/-- The order of the groups shows in the stocks only. -/
theorem produced_listed (valid : catalog.Valid) (permuted : orders.Perm catalog.orders) :
    economy.produced rules (catalog.listed orders) =
      { economy.produced rules catalog with
        stocks := (economy.produced rules (catalog.listed orders)).stocks } := by
  have record (labor : Labor) :
      (economy.produced rules (catalog.listed orders)).record labor =
        (economy.produced rules catalog).record labor := by
    rw [produced_listed_eq permuted]
    exact record_afterGroups_perm valid permuted labor
  have productivity : (economy.produced rules (catalog.listed orders)).productivity =
      (economy.produced rules catalog).productivity :=
    Table.ext fun labor => congrArg Prod.fst (record labor)
  have yields : (economy.produced rules (catalog.listed orders)).yields =
      (economy.produced rules catalog).yields :=
    Table.ext fun labor => congrArg Prod.snd (record labor)
  obtain ⟨stocks, _, _, frame⟩ := produced_frame rules catalog economy
  obtain ⟨others, _, _, other⟩ := produced_frame rules (catalog.listed orders) economy
  rw [employed_listed permuted] at other
  rw [frame, other] at productivity yields
  rw [frame, other]
  cases productivity
  cases yields
  rfl

variable {decay : Table Good ℝ} {replenisher : Replenisher ℝ} {days : ℝ}

private theorem renewed_frame (produced : Economy ℝ) (stocks : Table Good ℝ) :
    ∃ others, ((Economy.decayed { produced with stocks } decay).replenished
        replenisher).floored.aged rules days =
      { ((produced.decayed decay).replenished replenisher).floored.aged rules days with
        stocks := others } := ⟨_, rfl⟩

theorem ticked_listed (valid : catalog.Valid) (permuted : orders.Perm catalog.orders) :
    ∃ stocks, economy.ticked rules (catalog.listed orders) decay replenisher days =
      { economy.ticked rules catalog decay replenisher days with stocks } := by
  rw [ticked, harvested, produced_listed valid permuted]
  exact renewed_frame _ _

/-- What becomes of a stock after production depends on that stock only. -/
theorem getElem_stocks_ticked_congr {other : Catalog ℝ}
    (same : (economy.produced rules other).stocks[good] =
      (economy.produced rules catalog).stocks[good]) :
    (economy.ticked rules other decay replenisher days).stocks[good] =
      (economy.ticked rules catalog decay replenisher days).stocks[good] := by
  rw [getElem_stocks_ticked, getElem_stocks_ticked, harvested, harvested, replenished, replenished,
    Replenisher.getElem_replenish, Replenisher.getElem_replenish, getElem_stocks_decayed,
    getElem_stocks_decayed, same]

theorem CanTick.listed (ready : economy.CanTick rules catalog)
    (permuted : orders.Perm catalog.orders) :
    economy.CanTick rules (catalog.listed orders) where
  floorDivisor := ready.floorDivisor
  totalWeight := by
    rw [totals_listed permuted]
    exact ready.totalWeight
  groups group member := by
    rw [employed_listed permuted]
    exact ready.groups group (permuted.mem_iff.mp member)

/-- In whichever order a catalog lists its groups, a tick leads to the same economy but for some
stocks: a stock that covers what is taken, or that nobody makes, is the same as well. Any other
leaves production with a difference of no more than what is made, and of no more than what is taken
beyond what there was. -/
theorem tick_listed (denotes : inexact.Denotes rules) (safe : rules.Safe)
    (checked : catalog.check = .ok ()) (nonneg : economy.NonNegative)
    (permuted : orders.Perm catalog.orders) {given : Given ℝ} (length : given.Denotes days)
    {after : Economy ℝ}
    (ticked : (economy.tick inexact catalog decay replenisher given).Reaches after) :
    (catalog.listed orders).check = .ok () ∧
      ∃ stocks staffed first second,
        (economy.tick inexact (catalog.listed orders) decay replenisher given).Reaches
            { after with stocks } ∧
          (economy.staff inexact catalog).Reaches staffed ∧
          (staffed.produce catalog inexact.exponent (economy.totals catalog).demand).Reaches first ∧
          (staffed.produce (catalog.listed orders) inexact.exponent
            (economy.totals catalog).demand).Reaches second ∧
          ∀ good : Good,
            (staffed.totalTaken staffed.stocks (economy.totals catalog).demand catalog.orders good ≤
                  staffed.stocks[good] ∨
                staffed.totalMade catalog.outputs rules.exponent staffed.stocks
                  (economy.totals catalog).demand catalog.orders good = 0 →
              stocks[good] = after.stocks[good]) ∧
            |second.stocks[good] - first.stocks[good]| ≤
              min (staffed.totalMade catalog.outputs rules.exponent staffed.stocks
                  (economy.totals catalog).demand catalog.orders good)
                (max 0 (staffed.totalTaken staffed.stocks (economy.totals catalog).demand
                  catalog.orders good - staffed.stocks[good])) := by
  have valid := Catalog.check_eq_ok_iff.mp checked
  obtain ⟨ready, rfl⟩ := (reaches_tick_iff_eq denotes length).mp ticked
  obtain ⟨stocks, frame⟩ : ∃ stocks,
      economy.ticked rules (catalog.listed orders) decay replenisher days =
        { economy.ticked rules catalog decay replenisher days with stocks } :=
    ticked_listed valid permuted
  have scales := scale_nonneg (economy.employed rules catalog) (nonneg.shares_employed safe)
  refine ⟨Catalog.check_eq_ok_iff.mpr (valid.listed permuted), stocks,
    economy.employed rules catalog, economy.produced rules catalog,
    economy.produced rules (catalog.listed orders), ?_, ?_, ?_, ?_,
    fun good => ⟨fun covered => ?_, ?_⟩⟩
  · exact (reaches_tick_iff_eq denotes length).mpr ⟨ready.listed permuted, frame.symm⟩
  · exact (reaches_staff_iff_eq denotes).mpr ⟨ready.floorDivisor, ready.totalWeight, rfl⟩
  · exact (reaches_produce_iff_eq denotes.exponent).mpr ⟨ready.groups, rfl⟩
  · exact (reaches_produce_iff_eq denotes.exponent).mpr
      ⟨fun group member => ready.groups group (permuted.mem_iff.mp member),
        produced_listed_eq permuted⟩
  · have same : (economy.produced rules (catalog.listed orders)).stocks[good] =
        (economy.produced rules catalog).stocks[good] := by
      rw [produced_listed_eq permuted]
      exact getElem_stocks_afterGroups_perm scales nonneg.stocks valid.rate_nonneg
        (nonneg.stocks good) permuted valid.amount_nonneg covered
    have ended :
        (economy.ticked rules (catalog.listed orders) decay replenisher days).stocks[good] =
          (economy.ticked rules catalog decay replenisher days).stocks[good] :=
      getElem_stocks_ticked_congr same
    rw [frame] at ended
    exact ended
  · rw [produced_listed_eq permuted]
    exact abs_stocks_afterGroups_sub_le scales nonneg.stocks valid.rate_nonneg
      (nonneg.stocks good) permuted valid.amount_nonneg

theorem tick_listed_mill :
    ∃ after stocks,
      (mill.tick (.ofExact .standard) .mill (Table.const 0) .barren (.whole 30)).Reaches after ∧
        (mill.tick (.ofExact .standard) (Catalog.mill.listed Catalog.mill.orders.reverse)
          (Table.const 0) .barren (.whole 30)).Reaches { after with stocks } ∧
        stocks[Good.wheat] = after.stocks[Good.wheat] := by
  have month : (Given.whole 30 : Given ℝ).Denotes ((30 : Int) : ℝ) := .whole rfl
  have denotes := Rules.ofExact_denotes .standard
  have admissible := ExactRules.standard_admissible
  have ready : mill.CanTick .standard .mill :=
    canTick_of_safe admissible.safe ExactRules.standard_exponent_nonneg Catalog.mill_valid
  have ticked : (mill.tick (.ofExact .standard) .mill (Table.const 0) .barren (.whole 30)).Reaches
      _ := (reaches_tick_iff_eq denotes month).mpr ⟨ready, rfl⟩
  obtain ⟨_, stocks, _, _, _, other, _, _, _, same⟩ := tick_listed denotes admissible.safe
    Catalog.check_mill (mill_sound.nonNegative admissible) (List.reverse_perm _) month ticked
  refine ⟨_, stocks, ticked, other, (same .wheat).1 (.inr ?_)⟩
  -- Nobody makes wheat.
  simp [totalMade, makes, Catalog.mill, OrderGroup.producer?, OrderedMap.find?]

end Economy

/-- Parameters under which the workforce moves at once, and every industry wants everybody. -/
noncomputable def ExactRules.restless : ExactRules :=
  { standard with laborSmoothing := 0, floorDivisor := 1 }

theorem ExactRules.restless_admissible : ExactRules.restless.Admissible :=
  { standard_admissible with
    laborSmoothing := ⟨le_refl 0, one_pos⟩
    floorDivisor := le_refl 1 }

def OrderGroup.milling : OrderGroup ℝ := ⟨some .farmer, [(.wheat, 1)]⟩

def OrderGroup.hunting : OrderGroup ℝ := ⟨some .hunter, [(.game, 1)]⟩

/-- Farmers make flour of wheat, and hunters bring wheat for game. -/
def Catalog.barter : Catalog ℝ where
  orders := [.milling, .hunting]
  outputs := ⟨[(.farmer, ⟨.flour, 1⟩), (.hunter, ⟨.wheat, 1⟩)], by decide⟩

theorem Catalog.barter_valid : Catalog.barter.Valid where
  heads := by simp [barter, OrderGroup.milling, OrderGroup.hunting]
  inputs := by simp [barter, OrderGroup.milling, OrderGroup.hunting]
  amounts := by norm_num [barter, OrderGroup.milling, OrderGroup.hunting]
  outputs := by
    simp [barter, OrderGroup.milling, OrderGroup.hunting, OrderedMap.contains, OrderedMap.find?]
  groups := by simp [barter, OrderGroup.milling, OrderGroup.hunting]
  rates := by norm_num [barter]

/-- One person, who spends half of the time in each industry, with just what that takes. -/
noncomputable def Economy.barter : Economy ℝ :=
  seeded 1
    (Table.ofFn fun
      | .wheat => 1 / (2 : Nat)
      | .game => 1 / (2 : Nat)
      | _ => 0)
    (Table.const none) (Table.const (1 / (2 : Nat)))

theorem Economy.barter_sound : barter.Sound .restless where
  population := by norm_num [barter, seeded]
  stocks good := by
    rw [barter, seeded, Table.getElem_ofFn]
    cases good <;> norm_num
  values good value priced := by simp [barter, seeded] at priced
  shares labor := by norm_num [barter, seeded]
  productivity labor := by norm_num [barter, seeded]
  yields labor := by norm_num [barter, seeded]

namespace Economy

theorem amount_milling (good : Good) :
    OrderGroup.milling.amount good = if good = .wheat then 1 else 0 := by
  cases good <;> simp [OrderGroup.milling, OrderGroup.amount]

theorem amount_hunting (good : Good) :
    OrderGroup.hunting.amount good = if good = .game then 1 else 0 := by
  cases good <;> simp [OrderGroup.hunting, OrderGroup.amount]

theorem satisfaction_barter {good : Good} (ordered : good = .wheat ∨ good = .game) :
    satisfaction barter.stocks[good] (barter.totals .barter).demand[good] = 1 := by
  have scale (labor : Labor) : barter.scale (some labor) = 1 / 2 := by
    rw [scale, headcount_eq]
    norm_num [barter, seeded]
  have stock : barter.stocks[good] = 1 / 2 := by
    rw [barter, seeded, Table.getElem_ofFn]
    rcases ordered with rfl | rfl <;> norm_num
  have demand : (barter.totals .barter).demand[good] = 1 / 2 := by
    show (barter.demand [.milling, .hunting])[good] = 1 / 2
    rw [getElem_demand, List.map_cons, List.map_cons, List.map_nil, amount_milling, amount_hunting,
      OrderGroup.milling, OrderGroup.hunting, scale, scale]
    rcases ordered with rfl | rfl <;> simp
  rw [satisfaction_eq, stock, demand]
  norm_num

theorem scale_employed_barter {labor : Labor} {output : Output ℝ}
    (found : Catalog.barter.outputs.find? labor = some output) :
    (barter.employed .restless .barter).scale (some labor) = 1 := by
  have member := (OrderedMap.find?_eq_some_iff _ _ _).mp found
  obtain ⟨least, most⟩ := barter_sound.shares_employed ExactRules.restless_admissible member
  have all : (1 - ExactRules.restless.laborSmoothing) / ExactRules.restless.floorDivisor = 1 := by
    norm_num [ExactRules.restless]
  have share := le_antisymm most (all ▸ least)
  have heads : (barter.employed .restless .barter).headcount = 1 :=
    (headcount_eq barter).trans (max_eq_left zero_le_one)
  rw [scale, share, heads, one_mul]

theorem takes_milling : (barter.employed .restless .barter).takes barter.stocks
    (barter.totals .barter).demand .milling .wheat = 1 := by
  have part : OrderGroup.milling.satisfaction barter.stocks (barter.totals .barter).demand = 1 :=
    satisfaction_barter (.inl rfl)
  have scale : (barter.employed .restless .barter).scale OrderGroup.milling.labor = 1 :=
    scale_employed_barter rfl
  rw [takes, OrderGroup.use_eq, part, scale, amount_milling]
  norm_num

theorem takes_hunting : (barter.employed .restless .barter).takes barter.stocks
    (barter.totals .barter).demand .hunting .wheat = 0 := by
  rw [takes, OrderGroup.use_eq, amount_hunting, if_neg (by decide), zero_mul, zero_mul]

theorem makes_milling : (barter.employed .restless .barter).makes Catalog.barter.outputs
    ExactRules.restless.exponent barter.stocks (barter.totals .barter).demand .milling .wheat =
      0 := by
  have heads : OrderGroup.milling.producer? Catalog.barter.outputs =
      some (.farmer, ⟨.flour, 1⟩) := rfl
  rw [makes, heads]
  rfl

theorem makes_hunting : (barter.employed .restless .barter).makes Catalog.barter.outputs
    ExactRules.restless.exponent barter.stocks (barter.totals .barter).demand .hunting .wheat =
      1 := by
  have heads : OrderGroup.hunting.producer? Catalog.barter.outputs =
      some (.hunter, ⟨.wheat, 1⟩) := rfl
  have part : OrderGroup.hunting.satisfaction barter.stocks (barter.totals .barter).demand = 1 :=
    satisfaction_barter (.inr rfl)
  have scale : (barter.employed .restless .barter).scale (some .hunter) = 1 :=
    scale_employed_barter rfl
  rw [makes, heads, Option.elim_some, if_pos rfl, made, part, scale, Real.one_rpow]
  norm_num

theorem getElem_stocks_produced_barter {group other : OrderGroup ℝ}
    (permuted : [group, other].Perm Catalog.barter.orders) :
    (barter.produced .restless (Catalog.barter.listed [group, other])).stocks[Good.wheat] =
      max 0 (max 0 (1 / 2 - (barter.employed .restless .barter).takes barter.stocks
          (barter.totals .barter).demand group .wheat) +
        (barter.employed .restless .barter).makes Catalog.barter.outputs
          ExactRules.restless.exponent barter.stocks (barter.totals .barter).demand group .wheat -
        (barter.employed .restless .barter).takes barter.stocks (barter.totals .barter).demand
          other .wheat) +
      (barter.employed .restless .barter).makes Catalog.barter.outputs
        ExactRules.restless.exponent barter.stocks (barter.totals .barter).demand other .wheat := by
  have admissible := ExactRules.restless_admissible
  have scales := scale_nonneg (barter.employed .restless .barter)
    ((barter_sound.nonNegative admissible).shares_employed admissible.safe)
  have stock : (barter.employed .restless .barter).stocks[Good.wheat] = 1 / 2 :=
    Table.getElem_ofFn _ _
  rw [produced_listed_eq permuted, getElem_stocks_afterGroups_pair scales barter_sound.stocks
    Catalog.barter_valid.rate_nonneg (barter_sound.stocks .wheat)
    (Catalog.barter_valid.listed permuted).amount_nonneg, stock]

/-- Wheat that is brought after the mill has run is left over, and wheat that is brought before is
milled: the order of the groups matters where one takes what it does not find. -/
theorem barter_depends_on_order :
    Catalog.barter.check = .ok () ∧ [.hunting, .milling].Perm Catalog.barter.orders ∧
      (Catalog.barter.listed [.hunting, .milling]).check = .ok () ∧
      ExactRules.restless.Admissible ∧ barter.Sound .restless ∧
      ∃ first second,
        (barter.tick (.ofExact .restless) .barter (Table.const 0) .barren (.whole 1)).Reaches
            first ∧
          (barter.tick (.ofExact .restless) (Catalog.barter.listed [.hunting, .milling])
            (Table.const 0) .barren (.whole 1)).Reaches second ∧
          first.stocks[Good.wheat] = 1 ∧ second.stocks[Good.wheat] = 1 / 2 := by
  have permuted : [.hunting, .milling].Perm Catalog.barter.orders := .swap _ _ _
  have day : (Given.whole 1 : Given ℝ).Denotes ((1 : Int) : ℝ) := .whole rfl
  have denotes := Rules.ofExact_denotes .restless
  have admissible := ExactRules.restless_admissible
  have ready : barter.CanTick .restless .barter :=
    canTick_of_safe admissible.safe ExactRules.standard_exponent_nonneg Catalog.barter_valid
  have millerFirst : (barter.produced .restless .barter).stocks[Good.wheat] = 1 := by
    have ended := getElem_stocks_produced_barter (.refl Catalog.barter.orders)
    rw [takes_milling, makes_milling, takes_hunting, makes_hunting] at ended
    refine ended.trans ?_
    norm_num
  have hunterFirst : (barter.produced .restless
      (Catalog.barter.listed [.hunting, .milling])).stocks[Good.wheat] = 1 / 2 := by
    rw [getElem_stocks_produced_barter permuted, takes_milling, makes_milling, takes_hunting,
      makes_hunting]
    norm_num
  have kept {catalog : Catalog ℝ} : (barter.ticked .restless catalog (Table.const 0) .barren
      ((1 : Int) : ℝ)).stocks[Good.wheat] =
        max 0 ((barter.produced .restless catalog).stocks[Good.wheat]) := by
    rw [getElem_stocks_ticked, harvested, replenished, Replenisher.getElem_replenish,
      getElem_stocks_decayed, Table.getElem_const, sub_zero, mul_one]
    rfl
  refine ⟨Catalog.check_eq_ok_iff.mpr Catalog.barter_valid, permuted,
    Catalog.check_eq_ok_iff.mpr (Catalog.barter_valid.listed permuted), admissible, barter_sound,
    _, _, (reaches_tick_iff_eq denotes day).mpr ⟨ready, rfl⟩,
    (reaches_tick_iff_eq denotes day).mpr ⟨ready.listed permuted, rfl⟩, ?_, ?_⟩
  · rw [kept, millerFirst]
    norm_num
  · rw [kept, hunterFirst]
    norm_num

end Economy

end Settlement
