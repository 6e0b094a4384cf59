import Settlement.Proofs.Binary64.Sign
import Settlement.Proofs.Catalog
import Settlement.Recipe.Record
/-!
Which defect the check of a catalog reports: that of the first group that cannot be used after the
groups before it, and that of an industry only if every group can be used.
-/
namespace Settlement.Catalog

variable {R : Type} [Scalar R]

/-- Why a group cannot be used after others that have some heads: the first reason that applies. -/
inductive GroupDefect (catalog : Catalog R) (heads : List (Option Labor)) (group : OrderGroup R) :
    RecipeDefect → Prop where
  | repeatedGroup (again : group.labor ∈ heads) : GroupDefect catalog heads group .repeatedGroup
  | noInputs (new : group.labor ∉ heads) (empty : group.inputs = []) :
      GroupDefect catalog heads group .noInputs
  | negativeInput {front back : List (Good × R)} {good : Good} {amount : R}
      (new : group.labor ∉ heads) (inputs : group.inputs = front ++ (good, amount) :: back)
      (before : ∀ input ∈ front, ¬input.2 < 0) (negative : amount < 0) :
      GroupDefect catalog heads group (.negativeInput good)
  | noOutput {labor : Labor} (new : group.labor ∉ heads) (nonempty : group.inputs ≠ [])
      (amounts : ∀ input ∈ group.inputs, ¬input.2 < 0) (head : group.labor = some labor)
      (absent : labor ∉ catalog.outputs.keys) : GroupDefect catalog heads group .noOutput

/-- Why an industry cannot be used that has an output: no group has it as its head, or else its
rate is negative. -/
inductive OutputDefect (catalog : Catalog R) (entry : Labor × Output R) : RecipeDefect → Prop where
  | noInputs (headless : some entry.1 ∉ catalog.orders.map OrderGroup.labor) :
      OutputDefect catalog entry .noInputs
  | negativeRate (head : some entry.1 ∈ catalog.orders.map OrderGroup.labor)
      (negative : entry.2.rate < 0) : OutputDefect catalog entry .negativeRate

/-- Every group of a list can be used after those before it. -/
def Usable (catalog : Catalog R) (groups : List (OrderGroup R)) : Prop :=
  ∀ front group back, groups = front ++ group :: back →
    ∀ defect, ¬GroupDefect catalog (front.map OrderGroup.labor) group defect

/-- The first defect of a catalog: its groups come first, in order, and then its industries. -/
inductive FirstDefect (catalog : Catalog R) : Option Labor → RecipeDefect → Prop where
  | group {front back : List (OrderGroup R)} {group : OrderGroup R} {defect : RecipeDefect}
      (orders : catalog.orders = front ++ group :: back) (usable : catalog.Usable front)
      (defective : catalog.GroupDefect (front.map OrderGroup.labor) group defect) :
      FirstDefect catalog group.labor defect
  | output {front back : List (Labor × Output R)} {entry : Labor × Output R}
      {defect : RecipeDefect} (usable : catalog.Usable catalog.orders)
      (outputs : catalog.outputs.entries = front ++ entry :: back)
      (before : ∀ other ∈ front, ∀ defect, ¬catalog.OutputDefect other defect)
      (defective : catalog.OutputDefect entry defect) : FirstDefect catalog (some entry.1) defect

variable {catalog : Catalog R} {heads : List (Option Labor)} {group : OrderGroup R}
  {groups : List (OrderGroup R)} {entry : Labor × Output R} {labor : Option Labor}
  {defect : RecipeDefect}

omit [Scalar R] in
theorem contains_outputs {labor : Labor} :
    catalog.outputs.contains labor = true ↔ labor ∈ catalog.outputs.keys := by
  rw [OrderedMap.contains, OrderedMap.find?_isSome, decide_eq_true_iff]

/-- The check of a group finds what is wrong with it. -/
theorem GroupDefect.of_eq_some (found : catalog.groupDefect? heads group = some defect) :
    catalog.GroupDefect heads group defect := by
  unfold groupDefect? at found
  split at found
  · rename_i again
    cases found
    exact .repeatedGroup again
  rename_i new
  split at found
  · rename_i empty
    cases found
    exact .noInputs new (List.isEmpty_iff.mp empty)
  rename_i nonempty
  split at found
  · rename_i good amount negative
    cases found
    obtain ⟨below, front, back, inputs, before⟩ := List.find?_eq_some_iff_append.mp negative
    refine .negativeInput new inputs (fun input member => ?_) (of_decide_eq_true below)
    simpa using before input member
  rename_i amounts
  split at found
  · rename_i labor head
    split at found
    · cases found
    · rename_i absent
      cases found
      rw [contains_outputs] at absent
      exact .noOutput new (by simpa using nonempty) (by simpa using amounts) head absent
  · cases found

theorem GroupDefect.eq_some (defective : catalog.GroupDefect heads group defect) :
    catalog.groupDefect? heads group = some defect := by
  unfold groupDefect?
  cases defective with
  | repeatedGroup again => rw [if_pos again]
  | noInputs new empty => rw [if_neg new, if_pos (List.isEmpty_iff.mpr empty)]
  | @negativeInput front back good amount new inputs before negative =>
    have first :
        group.inputs.find? (fun input => decide (input.2 < 0)) = some (good, amount) := by
      rw [List.find?_eq_some_iff_append]
      refine ⟨decide_eq_true negative, front, back, inputs, fun input member => ?_⟩
      simpa using before input member
    have nonempty : group.inputs.isEmpty = false := by simp [inputs]
    rw [if_neg new, nonempty, first]
    rfl
  | @noOutput labor new nonempty amounts head absent =>
    have none : group.inputs.find? (fun input => decide (input.2 < 0)) = none := by
      simpa using amounts
    rw [← contains_outputs] at absent
    rw [if_neg new, if_neg (by simpa using nonempty), none, head]
    simp [absent]

theorem groupDefect?_eq_some_iff :
    catalog.groupDefect? heads group = some defect ↔ catalog.GroupDefect heads group defect :=
  ⟨.of_eq_some, GroupDefect.eq_some⟩

theorem groupDefect?_eq_none_iff_forall : catalog.groupDefect? heads group = none ↔
    ∀ defect, ¬catalog.GroupDefect heads group defect := by
  simp only [← groupDefect?_eq_some_iff, Option.eq_none_iff_forall_ne_some, ne_eq]

/-- The order of the heads before a group plays no part. -/
theorem groupDefect?_congr (others : List (Option Labor))
    (same : ∀ labor, labor ∈ heads ↔ labor ∈ others) :
    catalog.groupDefect? heads group = catalog.groupDefect? others group := by
  unfold groupDefect?
  rw [if_congr (same group.labor) rfl rfl]

/-- The groups behind a list are reached only if the list has no defect. -/
theorem ordersDefect?_append (front back : List (OrderGroup R)) :
    catalog.ordersDefect? heads (front ++ back) =
      (catalog.ordersDefect? heads front).or
        (catalog.ordersDefect? ((front.map OrderGroup.labor).reverse ++ heads) back) := by
  induction front generalizing heads with
  | nil => rfl
  | cons group rest ih =>
    rw [List.cons_append, ordersDefect?, ordersDefect?]
    cases catalog.groupDefect? heads group with
    | some defect => rfl
    | none =>
      dsimp only
      rw [ih, List.map_cons, List.reverse_cons, List.append_assoc, List.singleton_append]

theorem ordersDefect?_cons_behind (front back : List (OrderGroup R)) :
    catalog.ordersDefect? [] (front ++ group :: back) =
      (catalog.ordersDefect? [] front).or
        (((catalog.groupDefect? (front.map OrderGroup.labor) group).map (group.labor, ·)).or
          (catalog.ordersDefect? (group.labor :: (front.map OrderGroup.labor).reverse)
            back)) := by
  rw [ordersDefect?_append, List.append_nil, ordersDefect?,
    groupDefect?_congr (front.map OrderGroup.labor) (by simp)]
  cases catalog.groupDefect? (front.map OrderGroup.labor) group <;> simp

theorem usable_concat : catalog.Usable (groups ++ [group]) ↔
    catalog.Usable groups ∧
      ∀ defect, ¬catalog.GroupDefect (groups.map OrderGroup.labor) group defect := by
  constructor
  · intro usable
    refine ⟨fun front other back split => ?_, usable groups group [] rfl⟩
    exact usable front other (back ++ [group]) (by rw [split]; simp)
  · intro holds
    obtain ⟨usable, last⟩ := holds
    intro front other back split
    rcases List.eq_nil_or_concat back with rfl | ⟨behind, final, rfl⟩
    · obtain ⟨rfl, same⟩ := List.append_inj' split rfl
      cases same
      exact last
    · rw [List.concat_eq_append, ← List.cons_append, ← List.append_assoc] at split
      obtain ⟨rfl, -⟩ := List.append_inj' split rfl
      exact usable front other behind rfl

/-- Induction on the groups, the last one first. -/
theorem ordersDefect?_eq_none_iff_usable :
    catalog.ordersDefect? [] groups = none ↔ catalog.Usable groups := by
  induction groups using List.reverseRecOn with
  | nil =>
    refine ⟨fun _ front group back split => ?_, fun _ => rfl⟩
    exact absurd split.symm (by simp)
  | append_singleton front group ih =>
    rw [ordersDefect?_cons_behind, usable_concat, ← ih, ← groupDefect?_eq_none_iff_forall,
      Option.or_eq_none_iff]
    cases catalog.groupDefect? (front.map OrderGroup.labor) group <;> simp [ordersDefect?]

/-- Induction on the groups, the last one first. -/
theorem ordersDefect?_eq_some_iff :
    catalog.ordersDefect? [] groups = some (labor, defect) ↔
      ∃ front group back, groups = front ++ group :: back ∧ catalog.Usable front ∧
        catalog.GroupDefect (front.map OrderGroup.labor) group defect ∧ group.labor = labor := by
  constructor
  · intro found
    induction groups using List.reverseRecOn with
    | nil => cases found
    | append_singleton earlier last ih =>
      rw [ordersDefect?_cons_behind, Option.or_eq_some_iff] at found
      rcases found with before | ⟨none, here⟩
      · obtain ⟨front, group, back, rfl, holds⟩ := ih before
        exact ⟨front, group, back ++ [last], by simp, holds⟩
      · rw [ordersDefect?_eq_none_iff_usable] at none
        cases reason : catalog.groupDefect? (earlier.map OrderGroup.labor) last with
        | none =>
          rw [reason] at here
          cases here
        | some defect =>
          rw [reason] at here
          cases here
          exact ⟨earlier, last, [], rfl, none, groupDefect?_eq_some_iff.mp reason, rfl⟩
  · intro holds
    obtain ⟨front, group, back, rfl, usable, defective, rfl⟩ := holds
    rw [ordersDefect?_cons_behind, ordersDefect?_eq_none_iff_usable.mpr usable,
      groupDefect?_eq_some_iff.mpr defective]
    rfl

theorem outputDefect?_eq_some_iff :
    catalog.outputDefect? entry = some defect ↔ catalog.OutputDefect entry defect := by
  unfold outputDefect?
  constructor
  · intro found
    split at found
    · rename_i headless
      cases found
      exact .noInputs headless
    · rename_i head
      split at found
      · rename_i negative
        cases found
        exact .negativeRate (not_not.mp head) negative
      · cases found
  · intro reason
    cases reason with
    | noInputs headless => rw [if_pos headless]
    | negativeRate head negative => rw [if_neg (not_not.mpr head), if_pos negative]

theorem outputDefect?_eq_none :
    catalog.outputDefect? entry = none ↔ ∀ defect, ¬catalog.OutputDefect entry defect := by
  simp only [← outputDefect?_eq_some_iff, Option.eq_none_iff_forall_ne_some, ne_eq]

theorem outputsDefect?_eq_some_iff :
    (catalog.outputs.entries.findSome? fun entry =>
        (catalog.outputDefect? entry).map (some entry.1, ·)) = some (labor, defect) ↔
      ∃ front entry back, catalog.outputs.entries = front ++ entry :: back ∧
        (∀ other ∈ front, ∀ defect, ¬catalog.OutputDefect other defect) ∧
        catalog.OutputDefect entry defect ∧ some entry.1 = labor := by
  simp only [List.findSome?_eq_some_iff, Option.map_eq_some_iff, Option.map_eq_none_iff,
    outputDefect?_eq_none, outputDefect?_eq_some_iff, Prod.mk.injEq]
  constructor
  · intro holds
    obtain ⟨front, entry, back, split, ⟨reason, defective, rfl, rfl⟩, before⟩ := holds
    exact ⟨front, entry, back, split, before, defective, rfl⟩
  · intro holds
    obtain ⟨front, entry, back, split, before, defective, rfl⟩ := holds
    exact ⟨front, entry, back, split, ⟨defect, defective, rfl, rfl⟩, before⟩

theorem firstDefect?_eq_some_iff :
    catalog.firstDefect? = some (labor, defect) ↔ catalog.FirstDefect labor defect := by
  unfold firstDefect?
  constructor
  · intro found
    split at found
    · rename_i first
      cases found
      obtain ⟨front, group, back, orders, usable, defective, rfl⟩ :=
        ordersDefect?_eq_some_iff.mp first
      exact .group orders usable defective
    · rename_i none
      obtain ⟨front, entry, back, outputs, before, defective, rfl⟩ :=
        outputsDefect?_eq_some_iff.mp found
      exact .output (ordersDefect?_eq_none_iff_usable.mp none) outputs before defective
  · intro first
    cases first with
    | group orders usable defective =>
      rw [ordersDefect?_eq_some_iff.mpr ⟨_, _, _, orders, usable, defective, rfl⟩]
    | output usable outputs before defective =>
      rw [ordersDefect?_eq_none_iff_usable.mpr usable]
      exact outputsDefect?_eq_some_iff.mpr ⟨_, _, _, outputs, before, defective, rfl⟩

theorem check_eq_error_iff {fault : Fault} : catalog.check = .error fault ↔
    ∃ labor defect, fault = .recipe labor defect ∧ catalog.FirstDefect labor defect := by
  simp only [← firstDefect?_eq_some_iff]
  unfold check
  cases catalog.firstDefect? with
  | none => simp
  | some first =>
    obtain ⟨labor, defect⟩ := first
    simp [eq_comm]

/-- The check lets a catalog pass exactly if no two groups have one head, every group orders
something, nothing negative is ordered or made, and the industries that head groups are those that
have an output. Otherwise it reports the first defect, and that is one of an industry only if all
groups can be used. -/
theorem check_is_exact {catalog : Catalog Float}
    (amounts : ∀ group ∈ catalog.orders, ∀ input ∈ group.inputs, input.2.isNaN = false)
    (rates : ∀ entry ∈ catalog.outputs.entries, entry.2.rate.isNaN = false) :
    (catalog.check = .ok () ↔
      (catalog.orders.map OrderGroup.labor).Nodup ∧
      (∀ group ∈ catalog.orders, group.inputs ≠ []) ∧
      (∀ group ∈ catalog.orders, ∀ input ∈ group.inputs, 0 ≤ input.2) ∧
      (∀ labor, some labor ∈ catalog.orders.map OrderGroup.labor ↔
        labor ∈ catalog.outputs.keys) ∧
      ∀ entry ∈ catalog.outputs.entries, 0 ≤ entry.2.rate) ∧
    ∀ fault, catalog.check = .error fault ↔
      ∃ labor defect, fault = .recipe labor defect ∧ catalog.FirstDefect labor defect := by
  refine ⟨?_, fun fault => check_eq_error_iff⟩
  rw [check_eq_ok_iff]
  constructor
  · intro valid
    refine ⟨valid.heads, valid.inputs, ?_, ?_, ?_⟩
    · intro group member input present
      exact (Binary64.not_lt_zero_iff_nonneg (amounts group member input present)).mp
        (valid.amounts group member input present)
    · intro labor
      constructor
      · intro heads
        obtain ⟨group, member, head⟩ := List.mem_map.mp heads
        exact contains_outputs.mp (valid.outputs group member labor head)
      · intro made
        obtain ⟨entry, member, rfl⟩ := List.mem_map.mp made
        exact valid.groups entry member
    · intro entry member
      exact (Binary64.not_lt_zero_iff_nonneg (rates entry member)).mp (valid.rates entry member)
  · intro holds
    obtain ⟨heads, inputs, nonneg, industries, made⟩ := holds
    refine ⟨heads, inputs, ?_, ?_, ?_, ?_⟩
    · intro group member input present
      exact (Binary64.not_lt_zero_iff_nonneg (amounts group member input present)).mpr
        (nonneg group member input present)
    · intro group member labor head
      exact contains_outputs.mpr ((industries labor).mp (List.mem_map.mpr ⟨group, member, head⟩))
    · intro entry member
      exact (industries entry.1).mpr (List.mem_map_of_mem member)
    · intro entry member
      exact (Binary64.not_lt_zero_iff_nonneg (rates entry member)).mpr (made entry member)

/-- A kitchen with four defects: cooks take negative meat and negative fish and have two groups,
the second of which orders nothing. -/
def brokenKitchen : Catalog Float where
  orders := [
    ⟨none, [(.food, 0.5)]⟩,
    ⟨some .cook, [(.flour, 12.0), (.meat, -4.0), (.fish, -1.0)]⟩,
    ⟨some .cook, []⟩]
  outputs := OrderedMap.ofList [(.farmer, ⟨.flour, -2.0⟩), (.cook, ⟨.food, 16.0⟩)]

theorem check_is_exact_brokenKitchen :
    standard.check = .ok () ∧
      brokenKitchen.check = .error (.recipe (some .cook) (.negativeInput .meat)) := by
  constructor
  · refine (check_is_exact (by decide +kernel) (by decide +kernel)).1.mpr ?_
    refine ⟨by decide +kernel, by decide +kernel, by decide +kernel, fun labor => ?_,
      by decide +kernel⟩
    cases labor <;> decide +kernel
  · refine ((check_is_exact (by decide +kernel) (by decide +kernel)).2 _).mpr ?_
    have upkeep : brokenKitchen.Usable [⟨none, [(.food, 0.5)]⟩] := by
      rw [← ordersDefect?_eq_none_iff_usable]
      rfl
    have cook : brokenKitchen.GroupDefect [none]
        ⟨some .cook, [(.flour, 12.0), (.meat, -4.0), (.fish, -1.0)]⟩ (.negativeInput .meat) :=
      @GroupDefect.negativeInput _ _ _ _ _ [(.flour, 12.0)] [(.fish, -1.0)] .meat (-4.0)
        (by decide) rfl (by decide +kernel) (by decide +kernel)
    exact ⟨some .cook, .negativeInput .meat, rfl, .group rfl upkeep cook⟩

end Settlement.Catalog
