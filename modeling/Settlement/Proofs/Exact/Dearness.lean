import Settlement.Proofs.Exact.Scarcity
/-!
What prices make of scarcity. While some of a good is there, less of it never makes it cheaper. A
good of which nothing is there costs the ceiling, but no ceiling stops the price of a small rest. So
a good that is gone is cheaper than its rest was, if the rest was less than the demand over the
ceiling.
-/
namespace Settlement

section price

variable {ceiling demand supply stock more rest : ℝ}

theorem price_eq_div (asked : 0 < demand) (available : 0 < supply + stock) :
    price ceiling demand supply stock = demand / (supply + stock) := by
  simp [price, not_le.mpr asked, available]

theorem price_eq_ceiling (asked : 0 < demand) (gone : supply + stock ≤ 0) :
    price ceiling demand supply stock = ceiling := by
  simp [price, not_le.mpr asked, not_lt.mpr gone]

/-- Only where nothing is there in place of little can the scarcer good be the cheaper one. -/
theorem price_le_price_iff (asked : 0 < demand) (scarcer : supply + stock ≤ more + rest) :
    price ceiling demand more rest ≤ price ceiling demand supply stock ↔
      (supply + stock ≤ 0 → 0 < more + rest → demand ≤ ceiling * (more + rest)) := by
  rcases lt_or_ge 0 (supply + stock) with available | gone
  · have larger := lt_of_lt_of_le available scarcer
    rw [price_eq_div asked larger, price_eq_div asked available]
    exact iff_of_true (div_le_div_of_nonneg_left (le_of_lt asked) available scarcer)
      fun gone => absurd gone (not_le.mpr available)
  · rcases lt_or_ge 0 (more + rest) with left | none
    · rw [price_eq_div asked left, price_eq_ceiling asked gone, div_le_iff₀ left]
      exact ⟨fun covered _ _ => covered, fun covers => covers gone left⟩
    · rw [price_eq_ceiling asked none, price_eq_ceiling asked gone]
      exact iff_of_true (le_refl _) fun _ left => absurd left (not_lt.mpr none)

end price

namespace Economy

/-- What is there of a good: what is supplied and what is in store. -/
def available {R : Type} [Scalar R] (economy : Economy R) (totals : Totals R) (good : Good) : R :=
  totals.supply[good] + economy.stocks[good]

/-- Under the same demand a good that is scarcer is never cheaper, except where nothing of it is
there in place of less than the demand over the ceiling. -/
theorem scarcer_never_cheaper_iff {rule : ValueRule ℝ} {ceilings : Table Good ℝ}
    (readable : rule.ceilings = .ok ceilings) {scarce ample : Economy ℝ} {first second : Totals ℝ}
    {good : Good} (same : second.demand[good] = first.demand[good])
    (asked : 0 < first.demand[good])
    (scarcer : scarce.available first good ≤ ample.available second good) :
    ∃ dear cheap, (scarce.reprice rule first).Reaches dear ∧
      (ample.reprice rule second).Reaches cheap ∧
      (cheap.prices[good] ≤ dear.prices[good] ↔
        (scarce.available first good ≤ 0 → 0 < ample.available second good →
          first.demand[good] ≤ ceilings[good] * ample.available second good)) := by
  refine ⟨scarce.repriced ceilings first, ample.repriced ceilings second,
    reaches_reprice_iff.mpr ⟨ceilings, readable, rfl⟩,
    reaches_reprice_iff.mpr ⟨ceilings, readable, rfl⟩, ?_⟩
  simp only [repriced, Table.getElem_ofFn, same]
  exact price_le_price_iff asked scarcer

section mill

/-- One of every good is asked for, and nothing is supplied. -/
noncomputable def oneOfEach : Totals ℝ := ⟨Table.const 1, Table.const 0⟩

theorem available_stocked (good : Good) (stock : ℝ) :
    (mill.stocked good stock).available oneOfEach good = stock := by
  simp [available, oneOfEach, stocked]

/-- Wood that is gone costs as much as a rest of a thousandth. -/
theorem scarcer_never_cheaper_iff_mill :
    ∃ dear cheap,
      ((mill.stocked .wood 0).reprice (Rules.ofExact .standard).values oneOfEach).Reaches dear ∧
      ((mill.stocked .wood (1 / 1000)).reprice (Rules.ofExact .standard).values oneOfEach).Reaches
        cheap ∧
      cheap.prices[Good.wood] ≤ dear.prices[Good.wood] := by
  have ceilings : (Rules.ofExact .standard).values.ceilings =
      .ok ExactRules.standard.valueCeiling := rfl
  have asked : 0 < oneOfEach.demand[Good.wood] := by simp [oneOfEach]
  have scarcer : (mill.stocked .wood 0).available oneOfEach .wood ≤
      (mill.stocked .wood (1 / 1000)).available oneOfEach .wood := by
    norm_num [available_stocked]
  obtain ⟨dear, cheap, gone, left, cheaper⟩ := scarcer_never_cheaper_iff ceilings rfl asked scarcer
  have demand : oneOfEach.demand[Good.wood] = 1 := Table.getElem_const _ _
  have ceiling : ExactRules.standard.valueCeiling[Good.wood] = 1000 := Table.getElem_const _ _
  refine ⟨dear, cheap, gone, left, cheaper.mpr fun _ _ => ?_⟩
  rw [available_stocked, demand, ceiling]
  norm_num

/-- A rest of half a thousandth costs twice what wood costs when it is gone. -/
theorem gone_is_cheaper_than_rest :
    ∃ gone left, ((mill.stocked .wood 0).reprice (Rules.ofExact .standard).values oneOfEach).Reaches
        gone ∧
      ((mill.stocked .wood (1 / 2000)).reprice (Rules.ofExact .standard).values oneOfEach).Reaches
        left ∧
      gone.prices[Good.wood] = 1000 ∧ left.prices[Good.wood] = 2000 ∧
      ¬left.prices[Good.wood] ≤ gone.prices[Good.wood] := by
  have ceilings : (Rules.ofExact .standard).values.ceilings =
      .ok ExactRules.standard.valueCeiling := rfl
  have priced (stock : ℝ) : ((mill.stocked .wood stock).repriced ExactRules.standard.valueCeiling
      oneOfEach).prices[Good.wood] = price (1000 : ℝ) 1 0 stock := by
    simp [repriced, oneOfEach, stocked, ExactRules.standard]
  have gone : price (1000 : ℝ) 1 0 0 = 1000 := price_eq_ceiling one_pos (by norm_num)
  have left : price (1000 : ℝ) 1 0 (1 / 2000) = 2000 := by
    rw [price_eq_div one_pos (by norm_num)]
    norm_num
  refine ⟨_, _, reaches_reprice_iff.mpr ⟨_, ceilings, rfl⟩,
    reaches_reprice_iff.mpr ⟨_, ceilings, rfl⟩, ?_, ?_, ?_⟩
  · rw [priced, gone]
  · rw [priced, left]
  · rw [priced, priced, gone, left]
    norm_num

end mill

end Economy

end Settlement
