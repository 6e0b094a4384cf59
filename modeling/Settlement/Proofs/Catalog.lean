import Settlement.Recipe.Catalog
/-!
Which catalogs can be used. The check of a catalog accepts exactly the valid ones.
-/
namespace Settlement

variable {R : Type} [Scalar R]

/-- No two groups have the same head, every group orders something, nothing negative is ordered,
and the industries that head groups are those that have an output. -/
structure Catalog.Valid (catalog : Catalog R) : Prop where
  heads : (catalog.orders.map OrderGroup.labor).Nodup
  inputs : ∀ group ∈ catalog.orders, group.inputs ≠ []
  amounts : ∀ group ∈ catalog.orders, ∀ input ∈ group.inputs, ¬input.2 < 0
  outputs : ∀ group ∈ catalog.orders, ∀ labor, group.labor = some labor →
    catalog.outputs.contains labor = true
  groups : ∀ entry ∈ catalog.outputs.entries, some entry.1 ∈ catalog.orders.map OrderGroup.labor
  rates : ∀ entry ∈ catalog.outputs.entries, ¬entry.2.rate < 0

namespace Catalog

theorem groupDefect?_eq_none_iff {catalog : Catalog R} {seen : List (Option Labor)}
    {group : OrderGroup R} :
    catalog.groupDefect? seen group = none ↔
      group.labor ∉ seen ∧ group.inputs ≠ [] ∧ (∀ input ∈ group.inputs, ¬input.2 < 0) ∧
        ∀ labor, group.labor = some labor → catalog.outputs.contains labor = true := by
  unfold groupDefect?
  by_cases repeated : group.labor ∈ seen
  · simp [repeated]
  by_cases empty : group.inputs = []
  · simp [repeated, empty]
  cases negative : group.inputs.find? fun input => input.2 < 0 with
  | some input =>
    have member := List.mem_of_find?_eq_some negative
    have below : input.2 < 0 := by simpa using List.find?_some negative
    simp only [repeated, if_false, List.isEmpty_iff, empty, reduceCtorEq, false_iff]
    intro holds
    obtain ⟨_, _, amounts, _⟩ := holds
    exact amounts input member below
  | none =>
    have amounts : ∀ input ∈ group.inputs, ¬input.2 < 0 := by
      simpa using List.find?_eq_none.mp negative
    simp only [repeated, if_false, List.isEmpty_iff, empty, ne_eq, not_false_eq_true, true_and,
      and_iff_right amounts]
    cases group.labor with
    | none => simp
    | some labor => simp

theorem ordersDefect?_eq_none_iff {catalog : Catalog R} {seen : List (Option Labor)}
    {orders : List (OrderGroup R)} :
    catalog.ordersDefect? seen orders = none ↔
      (orders.map OrderGroup.labor).Nodup ∧ ∀ group ∈ orders,
        group.labor ∉ seen ∧ group.inputs ≠ [] ∧ (∀ input ∈ group.inputs, ¬input.2 < 0) ∧
          ∀ labor, group.labor = some labor → catalog.outputs.contains labor = true := by
  induction orders generalizing seen with
  | nil => simp [ordersDefect?]
  | cons group rest ih =>
    rw [ordersDefect?, List.map_cons, List.nodup_cons, List.forall_mem_cons,
      ← groupDefect?_eq_none_iff]
    cases defect : catalog.groupDefect? seen group with
    | some reason => simp
    | none =>
      rw [ih]
      simp only [List.mem_cons, not_or, List.mem_map, not_exists, not_and, true_and]
      constructor
      · intro holds
        obtain ⟨distinct, all⟩ := holds
        exact ⟨⟨fun other member => (all other member).1.1, distinct⟩,
          fun other member => ⟨(all other member).1.2, (all other member).2⟩⟩
      · intro holds
        obtain ⟨⟨apart, distinct⟩, all⟩ := holds
        exact ⟨distinct, fun other member =>
          ⟨⟨apart other member, (all other member).1⟩, (all other member).2⟩⟩

theorem outputDefect?_eq_none_iff {catalog : Catalog R} {entry : Labor × Output R} :
    catalog.outputDefect? entry = none ↔
      some entry.1 ∈ catalog.orders.map OrderGroup.labor ∧ ¬entry.2.rate < 0 := by
  unfold outputDefect?
  split
  · simp_all
  · split <;> simp_all

/-- The check accepts exactly the valid catalogs. -/
theorem check_eq_ok_iff {catalog : Catalog R} : catalog.check = .ok () ↔ catalog.Valid := by
  have accepted : catalog.check = .ok () ↔
      catalog.ordersDefect? [] catalog.orders = none ∧
        ∀ entry ∈ catalog.outputs.entries, catalog.outputDefect? entry = none := by
    unfold check firstDefect?
    cases catalog.ordersDefect? [] catalog.orders with
    | some defect => simp
    | none =>
      cases found : catalog.outputs.entries.findSome? fun entry =>
          (catalog.outputDefect? entry).map (some entry.1, ·) with
      | none => simpa [List.findSome?_eq_none_iff] using found
      | some defect =>
        simp only [reduceCtorEq, true_and, false_iff]
        intro all
        rw [List.findSome?_eq_none_iff.mpr] at found
        · cases found
        · intro entry member
          rw [all entry member, Option.map_none]
  rw [accepted, ordersDefect?_eq_none_iff]
  constructor
  · intro holds
    obtain ⟨⟨heads, orders⟩, entries⟩ := holds
    refine ⟨heads, fun group member => (orders group member).2.1,
      fun group member => (orders group member).2.2.1,
      fun group member => (orders group member).2.2.2, ?_, ?_⟩
    · exact fun entry member => (outputDefect?_eq_none_iff.mp (entries entry member)).1
    · exact fun entry member => (outputDefect?_eq_none_iff.mp (entries entry member)).2
  · intro valid
    refine ⟨⟨valid.heads, fun group member => ⟨by simp, valid.inputs group member,
      valid.amounts group member, valid.outputs group member⟩⟩, fun entry member => ?_⟩
    exact outputDefect?_eq_none_iff.mpr ⟨valid.groups entry member, valid.rates entry member⟩

end Catalog

end Settlement
