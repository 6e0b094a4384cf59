import Settlement.Proofs.Exact.Tick
/-!
What production takes. The part of a good that goes round is fixed by the demand at the start of a
tick, but by then the workforce had not moved. Industries that have grown since may take more than
there is, and the stock is stopped at zero.
-/
namespace Settlement.Economy

variable {economy staffed produced : Economy ℝ} {inexact : Rules ℝ} {rules : ExactRules}
  {catalog : Catalog ℝ}

private theorem mul_satisfaction_le_of_le_max {stock demand later : ℝ} (stock_nonneg : 0 ≤ stock)
    (grown : later ≤ max demand stock) : later * satisfaction stock demand ≤ stock := by
  have allowed := satisfaction_mem stock_nonneg demand
  rcases le_max_iff.mp grown with within | present
  · exact le_trans (mul_le_mul_of_nonneg_right within allowed.1)
      (mul_satisfaction_le stock_nonneg _)
  · exact le_trans (mul_le_mul_of_nonneg_right present allowed.1)
      (mul_le_of_le_one_right stock_nonneg allowed.2)

theorem getElem_demand_mill_wheat (economy : Economy ℝ) :
    (economy.demand Catalog.mill.orders)[Good.wheat] =
      economy.shares[Labor.farmer] * economy.headcount := by
  rw [getElem_demand]
  simp [Catalog.mill, OrderGroup.amount, scale]

theorem getElem_demand_mill_flour (economy : Economy ℝ) :
    (economy.demand Catalog.mill.orders)[Good.flour] = 1 / 2 * economy.headcount := by
  rw [getElem_demand]
  simp [Catalog.mill, OrderGroup.amount, scale]

theorem headcount_mill : mill.headcount = 10 := by
  rw [headcount_eq]
  norm_num [mill, seeded]

theorem demand_mill_wheat : (mill.totals .mill).demand[Good.wheat] = 1 := by
  have share : mill.shares[Labor.farmer] = 1 / 10 := Table.getElem_const _ _
  refine (getElem_demand_mill_wheat mill).trans ?_
  rw [share, headcount_mill]
  norm_num

theorem demand_mill_flour : (mill.totals .mill).demand[Good.flour] = 5 := by
  refine (getElem_demand_mill_flour mill).trans ?_
  rw [headcount_mill]
  norm_num

theorem supply_mill_flour : (mill.totals .mill).supply[Good.flour] = 1 := by
  show (mill.supply Catalog.mill.outputs)[Good.flour] = 1
  rw [getElem_supply]
  norm_num [Catalog.mill, headcount_eq, mill, seeded]

/-- Flour is as scarce as it is wanted, so the mill wants more workers. -/
theorem value_mill_flour :
    (mill.traded .standard (mill.totals .mill)).values[Good.flour] = some 2 := by
  rw [getElem_values_traded, demand_mill_flour, supply_mill_flour]
  have raw : rawValue (1 + (4 : ℝ) - 5) 5 = 2 := by
    norm_num [rawValue, Scalar.exp2]
  have stock : mill.stocks[Good.flour] = 4 := Table.getElem_ofFn _ _
  have old : mill.values[Good.flour] = none := Table.getElem_const _ _
  rw [stock, old, ExactRules.value, raw]
  norm_num [ExactRules.standard]

theorem share_mill_farmer : (mill.employed .standard .mill).shares[Labor.farmer] = 7 / 25 := by
  have weight : (mill.traded .standard (mill.totals .mill)).weight (.farmer, ⟨.flour, 1⟩) = 2 := by
    have productivity :
        (mill.traded .standard (mill.totals .mill)).productivity[Labor.farmer] = 1 :=
      Table.getElem_const _ _
    rw [Economy.weight, value_mill_flour, productivity, Option.getD_some, mul_one]
  have total : (mill.traded .standard (mill.totals .mill)).totalWeight .standard
      Catalog.mill.outputs = 2 := by
    have alone : (mill.traded .standard (mill.totals .mill)).weights Catalog.mill.outputs = [2] :=
      congrArg (fun weight : ℝ => [weight]) weight
    rw [totalWeight, alone]
    norm_num [ExactRules.standard]
  have member : ((.farmer, ⟨.flour, 1⟩) : Labor × Output ℝ) ∈ Catalog.mill.outputs.entries := by
    simp [Catalog.mill]
  have share : (mill.traded .standard (mill.totals .mill)).shares[Labor.farmer] = 1 / 10 :=
    Table.getElem_const _ _
  have moved : ((mill.traded .standard (mill.totals .mill)).restaffed .standard
      Catalog.mill.outputs).shares[Labor.farmer] = _ := getElem_shares_restaffed_of_mem member
  rw [share, targetShare, weight, total] at moved
  rw [employed, moved]
  norm_num [ExactRules.standard]

theorem headcount_employed_mill : (mill.employed .standard .mill).headcount = 10 := headcount_mill

theorem reaches_staff_mill :
    (mill.staff (.ofExact .standard) .mill).Reaches (mill.employed .standard .mill) := by
  have ready : mill.CanTick .standard .mill :=
    canTick_of_safe ExactRules.standard_admissible.safe ExactRules.standard_exponent_nonneg
      Catalog.mill_valid
  exact (reaches_staff_iff_eq (Rules.ofExact_denotes .standard)).mpr
    ⟨ready.floorDivisor, ready.totalWeight, rfl⟩

/-- Production takes at most the part of the demand of that moment which the good allowed at the
start of the tick, and so never more than there is of a good whose demand has not grown beyond
both its old demand and its stock. With the shares that the demand was added up with, it would
never take more than there is. -/
theorem production_takes_le (denotes : inexact.Denotes rules) (safe : rules.Safe)
    (checked : catalog.check = .ok ()) (nonneg : economy.NonNegative)
    (staff : (economy.staff inexact catalog).Reaches staffed) (good : Good) :
    staffed.totalTaken staffed.stocks (economy.totals catalog).demand catalog.orders good ≤
        (staffed.demand catalog.orders)[good] *
          satisfaction staffed.stocks[good] (economy.totals catalog).demand[good] ∧
      ((staffed.demand catalog.orders)[good] ≤
          max (economy.totals catalog).demand[good] staffed.stocks[good] →
        staffed.totalTaken staffed.stocks (economy.totals catalog).demand catalog.orders good ≤
            staffed.stocks[good] ∧
          ∀ produced, (staffed.produce catalog inexact.exponent
              (economy.totals catalog).demand).Reaches produced →
            produced.stocks[good] = staffed.stocks[good] -
              staffed.totalTaken staffed.stocks (economy.totals catalog).demand catalog.orders
                good +
              staffed.totalMade catalog.outputs rules.exponent staffed.stocks
                (economy.totals catalog).demand catalog.orders good) ∧
      economy.totalTaken economy.stocks (economy.totals catalog).demand catalog.orders good ≤
        economy.stocks[good] := by
  have valid := Catalog.check_eq_ok_iff.mp checked
  obtain ⟨_, _, rfl⟩ := (reaches_staff_iff_eq denotes).mp staff
  have shares : ∀ labor : Labor, 0 ≤ (economy.employed rules catalog).shares[labor] :=
    nonneg.shares_employed safe
  have scales := scale_nonneg (economy.employed rules catalog) shares
  have stocks : ∀ good : Good, 0 ≤ (economy.employed rules catalog).stocks[good] := nonneg.stocks
  have bound : (economy.employed rules catalog).totalTaken (economy.employed rules catalog).stocks
      (economy.totals catalog).demand catalog.orders good ≤ _ := totalTaken_le scales valid.amount_nonneg
  refine ⟨bound, ?_, ?_⟩
  · intro grown
    have covered := le_trans bound (mul_satisfaction_le_of_le_max (stocks good) grown)
    refine ⟨covered, ?_⟩
    intro produced ran
    obtain ⟨_, rfl⟩ := (reaches_produce_iff_eq denotes.exponent).mp ran
    exact getElem_stocks_afterGroups scales stocks valid.amount_nonneg valid.rate_nonneg covered
  · have old : economy.totalTaken economy.stocks (economy.totals catalog).demand catalog.orders
        good ≤ _ := totalTaken_le (scale_nonneg economy nonneg.shares) valid.amount_nonneg
    exact le_trans old (mul_satisfaction_le (nonneg.stocks good) _)

theorem production_takes_le_mill :
    ∃ staffed, (mill.staff (.ofExact .standard) .mill).Reaches staffed ∧
      staffed.totalTaken staffed.stocks (mill.totals .mill).demand Catalog.mill.orders .flour ≤
        staffed.stocks[Good.flour] := by
  have grown : ((mill.employed .standard .mill).demand Catalog.mill.orders)[Good.flour] ≤
      max (mill.totals .mill).demand[Good.flour]
        (mill.employed .standard .mill).stocks[Good.flour] := by
    rw [getElem_demand_mill_flour, headcount_employed_mill, demand_mill_flour]
    exact le_max_of_le_left (by norm_num)
  have bounds := production_takes_le (Rules.ofExact_denotes .standard)
    ExactRules.standard_admissible.safe Catalog.check_mill
    (mill_sound.nonNegative ExactRules.standard_admissible) reaches_staff_mill .flour
  exact ⟨_, reaches_staff_mill, (bounds.2.1 grown).1⟩

/-- Production can take more than there is: the mill has grown, but its wheat has not. -/
theorem mill_takes_more_than_there_is :
    Catalog.mill.check = .ok () ∧ ExactRules.standard.Admissible ∧ mill.Sound .standard ∧
      ∃ staffed, (mill.staff (.ofExact .standard) .mill).Reaches staffed ∧
        staffed.stocks[Good.wheat] <
          staffed.totalTaken staffed.stocks (mill.totals .mill).demand Catalog.mill.orders
            .wheat := by
  refine ⟨Catalog.check_mill, ExactRules.standard_admissible,
    mill_sound, _, reaches_staff_mill, ?_⟩
  have stock : (mill.employed .standard .mill).stocks[Good.wheat] = 1 / 2 := Table.getElem_ofFn _ _
  have scale : (mill.employed .standard .mill).scale (some .farmer) = 14 / 5 := by
    rw [Economy.scale, share_mill_farmer, headcount_employed_mill]
    norm_num
  have upkeep : (mill.employed .standard .mill).takes (mill.employed .standard .mill).stocks
      (mill.totals .mill).demand ⟨none, [(.flour, 1 / (2 : Nat))]⟩ .wheat = 0 := by
    rw [takes, OrderGroup.use_eq]
    simp [OrderGroup.amount]
  have farming : (mill.employed .standard .mill).takes (mill.employed .standard .mill).stocks
      (mill.totals .mill).demand ⟨some .farmer, [(.wheat, 1)]⟩ .wheat = 7 / 5 := by
    have part : OrderGroup.satisfaction ⟨some .farmer, [(.wheat, 1)]⟩
        (mill.employed .standard .mill).stocks (mill.totals .mill).demand = 1 / 2 := by
      show satisfaction (mill.employed .standard .mill).stocks[Good.wheat]
        (mill.totals .mill).demand[Good.wheat] = 1 / 2
      rw [satisfaction_eq, stock, demand_mill_wheat]
      norm_num
    rw [takes, OrderGroup.use_eq, part, scale]
    norm_num [OrderGroup.amount]
  rw [stock]
  calc (1 / 2 : ℝ) < 0 + (7 / 5 + 0) := by norm_num
    _ = _ := by rw [← upkeep, ← farming]; rfl

end Settlement.Economy
