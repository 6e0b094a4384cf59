import Settlement.Proofs.Catalog
import Settlement.Proofs.World.Run
/-!
Industries that a catalog leaves out. An economy has a share, a productivity and a yield for every
industry, but no phase reads or writes those of an industry without an output: an economy with
other such entries ticks as the original does, and keeps them. This holds in any arithmetic.
-/
namespace Settlement

variable {R : Type}

namespace Economy

/-- The economy with the entries that another has for the industries without an output. -/
def withIdle (economy : Economy R) (outputs : OrderedMap Labor (Output R)) (other : Economy R) :
    Economy R :=
  { economy with
    shares := Table.withOutside outputs other.shares economy.shares
    productivity := Table.withOutside outputs other.productivity economy.productivity
    yields := Table.withOutside outputs other.yields economy.yields }

theorem withIdle_self (economy : Economy R) (outputs : OrderedMap Labor (Output R)) :
    economy.withIdle outputs economy = economy := by
  simp only [withIdle, Table.withOutside_self]

variable [Scalar R] {economy other : Economy R} {outputs : OrderedMap Labor (Output R)}
  {rules : Rules R} {catalog : Catalog R}

section industries

variable {labor : Labor} (present : outputs.contains labor = true)
include present

theorem scale_withIdle :
    (economy.withIdle outputs other).scale (some labor) = economy.scale (some labor) :=
  congrArg (· * economy.headcount) (Table.getElem_withOutside_of_contains present _ _)

theorem mirrors_turnOut_withIdle (output : Output R) (exponent : Given R) (satisfaction : R) :
    Outcome.Mirrors (·.withIdle outputs other)
      (economy.turnOut labor output exponent satisfaction)
      ((economy.withIdle outputs other).turnOut labor output exponent satisfaction) := by
  let recorded : Economy R :=
    { economy with
      yields := economy.yields.set labor (satisfaction * output.rate)
      productivity := economy.productivity.set labor satisfaction }
  have effort : (recorded.withIdle outputs other).effort labor exponent =
      recorded.effort labor exponent := by
    rw [Economy.effort, scale_withIdle present, Economy.effort]
  have turned : (economy.withIdle outputs other).turnOut labor output exponent satisfaction =
      .given (recorded.effort labor exponent) (recorded.withIdle outputs other) fun effort =>
        .done { recorded.withIdle outputs other with
          stocks := economy.stocks.modify output.good
            (· + satisfaction * output.rate * effort) } := by
    rw [← effort]
    simp only [turnOut, withIdle, Table.withOutside_set present]
    rfl
  rw [turned]
  exact Outcome.mirrors_given _ fun _ => Outcome.mirrors_done _ _

end industries

theorem weight_withIdle {entry : Labor × Output R} (member : entry ∈ outputs.entries) :
    (economy.withIdle outputs other).weight entry = economy.weight entry :=
  congrArg (economy.values[entry.2.good].getD 0 * ·)
    (Table.getElem_withOutside_of_contains (OrderedMap.contains_of_mem member) _ _)

theorem supply_withIdle :
    (economy.withIdle outputs other).supply outputs = economy.supply outputs := by
  refine List.foldl_ext _ _ _ fun supply entry member => ?_
  have present := OrderedMap.contains_of_mem member
  simp only [addSupply, withIdle, Table.getElem_withOutside_of_contains present]
  rfl

theorem weights_withIdle :
    (economy.withIdle outputs other).weights outputs = economy.weights outputs :=
  List.map_congr_left fun _ member => weight_withIdle member

theorem reassigned_withIdle (smoothing total floor : R) :
    (economy.withIdle outputs other).reassigned outputs smoothing total floor =
      (economy.reassigned outputs smoothing total floor).withIdle outputs other := by
  have shares := Table.withOutside_foldl_modify outputs
    (f := fun entry => (LaborRule.share smoothing total floor ·
      ((economy.withIdle outputs other).weight entry)))
    (fun entry member => by rw [weight_withIdle member]) other.shares economy.shares
  exact congrArg (fun shares => { economy.withIdle outputs other with shares }) shares

theorem reallocate_withIdle (rule : LaborRule R) :
    (economy.withIdle outputs other).reallocate rule outputs =
      (economy.reallocate rule outputs).map fun result =>
        (result.1, result.2.withIdle outputs other) := by
  show _ = (fun result : R × Economy R => (result.1, result.2.withIdle outputs other)) <$> _
  simp only [reallocate, weights_withIdle, reassigned_withIdle, map_bind,
    apply_ite (Functor.map _), map_pure]
  rfl

theorem mirrors_employ_withIdle :
    Outcome.Mirrors (·.withIdle catalog.outputs other) (economy.employ rules catalog)
      ((economy.withIdle catalog.outputs other).employ rules catalog) := by
  rw [employ, employ, reallocate_withIdle, Outcome.given_map]
  exact Outcome.mirrors_given _ fun _ => Outcome.mirrors_done _ _

theorem mirrors_trade_withIdle (totals : Totals R) :
    Outcome.Mirrors (·.withIdle outputs other) (economy.trade rules totals)
      ((economy.withIdle outputs other).trade rules totals) := by
  have values : Outcome.Mirrors (·.withIdle outputs other)
      ((economy.withSurplus totals).revalue rules.values totals.demand)
      (((economy.withSurplus totals).withIdle outputs other).revalue rules.values
        totals.demand) := by
    refine Outcome.mirrors_given _ fun bounds => ?_
    refine Outcome.mirrors_each (fun good _ state _ => ?_) (fun _ _ _ _ _ _ => trivial) trivial
    exact Outcome.mirrors_given _ fun value => Outcome.mirrors_noted _ _ _ _
  exact values.andThen fun state _ => Outcome.mirrors_given _ fun _ => Outcome.mirrors_done _ _

/-- Every industry that heads a group of a valid catalog has an output. -/
theorem scale_withIdle_of_mem (valid : catalog.Valid) {group : OrderGroup R}
    (member : group ∈ catalog.orders) :
    (economy.withIdle catalog.outputs other).scale group.labor = economy.scale group.labor := by
  cases head : group.labor with
  | none => rfl
  | some labor => exact scale_withIdle (valid.outputs group member labor head)

theorem demand_withIdle (valid : catalog.Valid) :
    (economy.withIdle catalog.outputs other).demand catalog.orders =
      economy.demand catalog.orders := by
  refine List.foldl_ext _ _ _ fun demand group member => ?_
  rw [addDemand, scale_withIdle_of_mem valid member, addDemand]

theorem totals_withIdle (valid : catalog.Valid) :
    (economy.withIdle catalog.outputs other).totals catalog = economy.totals catalog := by
  rw [totals, demand_withIdle valid, supply_withIdle, totals]

theorem mirrors_runGroup_withIdle (valid : catalog.Valid) (exponent : Given R)
    (before demand : Table Good R) {group : OrderGroup R} (member : group ∈ catalog.orders) :
    Outcome.Mirrors (·.withIdle catalog.outputs other)
      (runGroup catalog.outputs exponent before demand group economy)
      (runGroup catalog.outputs exponent before demand group
        (economy.withIdle catalog.outputs other)) := by
  simp only [runGroup, scale_withIdle_of_mem valid member]
  split
  · exact Outcome.mirrors_failed _ _ _
  cases head : group.labor with
  | none => exact Outcome.mirrors_done _ _
  | some labor =>
    have present := valid.outputs group member labor head
    obtain ⟨output, found⟩ := Option.isSome_iff_exists.mp present
    simp only [found]
    exact mirrors_turnOut_withIdle present output exponent _

theorem mirrors_produce_withIdle (valid : catalog.Valid) (exponent : Given R)
    (demand : Table Good R) :
    Outcome.Mirrors (·.withIdle catalog.outputs other) (economy.produce catalog exponent demand)
      ((economy.withIdle catalog.outputs other).produce catalog exponent demand) := by
  rw [produce, produce]
  refine Outcome.mirrors_each (fun group member state _ => ?_) (fun _ _ _ _ _ _ => trivial) trivial
  exact mirrors_runGroup_withIdle valid exponent economy.stocks demand member

theorem mirrors_renew_withIdle (decay : Table Good R) (replenisher : Replenisher R)
    (days : Given R) :
    Outcome.Mirrors (·.withIdle outputs other) (economy.renew rules decay replenisher days)
      ((economy.withIdle outputs other).renew rules decay replenisher days) := by
  refine Outcome.mirrors_given _ fun population => ?_
  unfold Economy.peopled
  split
  · exact Outcome.mirrors_noted _ _ _ _
  · exact Outcome.mirrors_done _ _

/-- No phase of a tick looks at an industry without an output. -/
theorem mirrors_tick_withIdle (valid : catalog.Valid) (decay : Table Good R)
    (replenisher : Replenisher R) (days : Given R) :
    Outcome.Mirrors (·.withIdle catalog.outputs other)
      (economy.tick rules catalog decay replenisher days)
      ((economy.withIdle catalog.outputs other).tick rules catalog decay replenisher days) := by
  rw [tick, tick, totals_withIdle valid]
  exact (((mirrors_trade_withIdle _).andThen fun _ _ => mirrors_employ_withIdle).andThen
    fun _ _ => mirrors_produce_withIdle valid _ _).andThen
    fun _ _ => mirrors_renew_withIdle decay replenisher days

end Economy

namespace World

/-- The world with other entries for the industries without an output, site by site. -/
def withIdle (world : World R) (others : Name → Economy R) : World R :=
  world.withEconomies
    (fun site => site.economy.withIdle world.catalog.outputs (others site.id)) world.clock

theorem withIdle_withEconomies (world : World R) (economies : Site R → Economy R) (clock : R)
    (others : Name → Economy R) :
    (world.withEconomies economies clock).withIdle others = world.withEconomies
      (fun site => (economies site).withIdle world.catalog.outputs (others site.id)) clock :=
  world.withEconomies_withEconomies _ _ _ _

theorem Indexed.withIdle {world : World R} (indexed : world.Indexed) (others : Name → Economy R) :
    (world.withIdle others).Indexed :=
  indexed.withEconomies _ _

variable [Scalar R] {world reached : World R} {replenisher : Replenisher R}
  {economy other after : Economy R} {lengths : List (Given R)}

theorem mirrors_lap_withIdle (valid : world.catalog.Valid) (days : Given R) :
    Outcome.Mirrors (·.withIdle world.catalog.outputs other) (world.lap replenisher days economy)
      (world.lap replenisher days (economy.withIdle world.catalog.outputs other)) := by
  refine Outcome.mirrors_given _ fun backwards => ?_
  split
  · exact Outcome.mirrors_failed _ _ _
  split
  · exact Outcome.mirrors_done _ _
  · exact Economy.mirrors_tick_withIdle valid _ _ _

theorem mirrors_laps_withIdle (valid : world.catalog.Valid) :
    Outcome.Mirrors (·.withIdle world.catalog.outputs other)
      (world.laps replenisher lengths economy)
      (world.laps replenisher lengths (economy.withIdle world.catalog.outputs other)) :=
  Outcome.mirrors_each (fun days _ _ _ => mirrors_lap_withIdle valid days)
    (fun _ _ _ _ _ _ => trivial) trivial

/-- An economy is its own other: laps keep the entries that they do not look at. -/
theorem withIdle_of_reaches_laps (valid : world.catalog.Valid)
    (laps : (world.laps replenisher lengths economy).Reaches after) :
    after.withIdle world.catalog.outputs economy = after := by
  have mirrors : Outcome.Mirrors (·.withIdle world.catalog.outputs economy)
      (world.laps replenisher lengths economy) _ := mirrors_laps_withIdle valid
  rw [economy.withIdle_self] at mirrors
  obtain ⟨same, ended, image⟩ := mirrors.reaches_iff.mp laps
  obtain rfl := ended.unique laps
  exact image.symm

/-- To change the entries of idle industries before a run is to change them after it. -/
theorem reaches_run_withIdle_iff (valid : world.catalog.Valid) (indexed : world.Indexed)
    (others : Name → Economy R) (lengths : List (Given R)) (after : World R) :
    ((world.withIdle others).run lengths).Reaches after ↔
      ∃ reached, (world.run lengths).Reaches reached ∧ after = reached.withIdle others := by
  have mirrors (site : Site R) : Outcome.Mirrors
      (·.withIdle world.catalog.outputs (others site.id))
      (world.laps site.replenisher lengths site.economy) _ := mirrors_laps_withIdle valid
  have ends (clock : R) : (world.withIdle others).withEconomies (fun site =>
      ((world.withIdle others).laps site.replenisher lengths site.economy).state) clock =
        (world.withEconomies (fun site =>
          (world.laps site.replenisher lengths site.economy).state) clock).withIdle others := by
    rw [withIdle_withEconomies]
    refine (world.withEconomies_withEconomies _ _ _ _).trans ?_
    exact withEconomies_congr (fun site _ => (mirrors site).state) clock
  have completes : (∀ site ∈ (world.withIdle others).sites.values,
      ((world.withIdle others).laps site.replenisher lengths site.economy).completes = true) ↔
        ∀ site ∈ world.sites.values,
          (world.laps site.replenisher lengths site.economy).completes = true := by
    rw [withIdle, values_withEconomies, List.forall_mem_map]
    exact forall₂_congr fun site _ => iff_of_eq (congrArg (· = true) (mirrors site).completes_eq)
  rw [reaches_run_iff (indexed.withIdle others), completes]
  constructor
  · intro holds
    obtain ⟨complete, clock, moved, rfl⟩ := holds
    exact ⟨_, (reaches_run_iff indexed).mpr ⟨complete, clock, moved, rfl⟩, ends clock⟩
  · intro holds
    obtain ⟨reached, ran, rfl⟩ := holds
    obtain ⟨complete, clock, moved, rfl⟩ := (reaches_run_iff indexed).mp ran
    exact ⟨complete, clock, moved, (ends clock).symm⟩

/-- An industry without an output keeps its entries for ever. -/
theorem Indexed.idle_kept (indexed : world.Indexed) (valid : world.catalog.Valid)
    (ran : (world.run lengths).Reaches reached) {site : Site R}
    (member : site ∈ reached.sites.values) :
    ∃ start ∈ world.sites.values, site = { start with economy := site.economy } ∧
      ∀ labor, world.catalog.outputs.find? labor = none →
        site.economy.shares[labor] = start.economy.shares[labor] ∧
          site.economy.productivity[labor] = start.economy.productivity[labor] ∧
          site.economy.yields[labor] = start.economy.yields[labor] := by
  obtain ⟨start, present, laps, same⟩ := indexed.exists_of_mem_reached ran member
  refine ⟨start, present, same, fun labor absent => ?_⟩
  rw [← withIdle_of_reaches_laps valid laps]
  exact ⟨Table.getElem_withOutside_of_find?_eq_none absent _ _,
    Table.getElem_withOutside_of_find?_eq_none absent _ _,
    Table.getElem_withOutside_of_find?_eq_none absent _ _⟩

end World

end Settlement
