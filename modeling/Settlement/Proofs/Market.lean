import Settlement.Economy.Market
import Settlement.Proofs.Outcome
import Settlement.Proofs.Table
/-!
What the market phases reach. Values move good by good, each by its own surplus and demand.
-/
namespace Settlement.Economy

variable {R : Type} [Scalar R] {economy after : Economy R} {rule : ValueRule R}
  {demand : Table Good R}

/-- Induction on the goods still to be valued; the others already have their final values. -/
private theorem reaches_each_revalueGood {bounds : Table Good (Bounds R)} {goods : List Good}
    (distinct : goods.Nodup) :
    (Outcome.each goods (revalueGood rule bounds demand) economy).Reaches after ↔
      ∃ values : Table Good (Option R),
        (∀ good ∈ goods, rule.next bounds[good] economy.values[good] economy.surplus[good]
          demand[good] = .ok values[good]) ∧
        (∀ good ∉ goods, values[good] = economy.values[good]) ∧
        after = { economy with values } := by
  induction goods generalizing economy with
  | nil =>
    rw [Outcome.reaches_each_nil]
    constructor
    · rintro rfl
      exact ⟨economy.values, by simp, fun _ _ => rfl, rfl⟩
    · intro holds
      obtain ⟨values, _, kept, rfl⟩ := holds
      have same : values = economy.values := Table.ext fun good => kept good (by simp)
      rw [same]
  | cons good rest ih =>
    rw [List.nodup_cons] at distinct
    simp only [Outcome.reaches_each_cons, revalueGood, Outcome.reaches_given, withValue,
      Outcome.reaches_noted]
    constructor
    · intro holds
      obtain ⟨_, ⟨value, success, rfl⟩, last⟩ := holds
      obtain ⟨values, moved, kept, rfl⟩ := (ih distinct.2).mp last
      refine ⟨values, ?_, ?_, rfl⟩
      · intro other member
        rcases List.mem_cons.mp member with rfl | later
        · rw [kept other distinct.1, Table.getElem_set_self, success]
        · have apart : good ≠ other := fun same => distinct.1 (same ▸ later)
          simpa [Table.getElem_set_ne _ _ apart] using moved other later
      · intro other absent
        rw [List.mem_cons, not_or] at absent
        rw [kept other absent.2, Table.getElem_set_ne _ _ (Ne.symm absent.1)]
    · intro holds
      obtain ⟨values, moved, kept, rfl⟩ := holds
      refine ⟨_, ⟨values[good], moved good (by simp), rfl⟩,
        (ih distinct.2).mpr ⟨values, ?_, ?_, rfl⟩⟩
      · intro other later
        have apart : good ≠ other := fun same => distinct.1 (same ▸ later)
        simpa [Table.getElem_set_ne _ _ apart] using moved other (by simp [later])
      · intro other absent
        by_cases same : good = other
        · subst same
          rw [Table.getElem_set_self]
        · rw [Table.getElem_set_ne _ _ same]
          exact kept other (by simp [absent, Ne.symm same])

theorem reaches_revalue_iff :
    (economy.revalue rule demand).Reaches after ↔
      ∃ bounds values, rule.bounds = .ok bounds ∧
        (∀ good : Good, rule.next bounds[good] economy.values[good] economy.surplus[good]
          demand[good] = .ok values[good]) ∧
        after = { economy with values } := by
  have all (good : Good) : good ∈ Good.all := Enumeration.mem_all good
  have distinct : Good.all.Nodup := Enumeration.nodup_all Good
  rw [revalue, Outcome.reaches_given]
  constructor
  · intro holds
    obtain ⟨bounds, success, moves⟩ := holds
    obtain ⟨values, moved, _, rfl⟩ := (reaches_each_revalueGood distinct).mp moves
    exact ⟨bounds, values, success, fun good => moved good (all good), rfl⟩
  · intro holds
    obtain ⟨bounds, values, success, moved, rfl⟩ := holds
    exact ⟨bounds, success, (reaches_each_revalueGood distinct).mpr
      ⟨values, fun good _ => moved good, fun good absent => absurd (all good) absent, rfl⟩⟩

theorem reaches_reprice_iff {totals : Totals R} :
    (economy.reprice rule totals).Reaches after ↔
      ∃ ceilings, rule.ceilings = .ok ceilings ∧ economy.repriced ceilings totals = after := by
  simp [reprice]

end Settlement.Economy
