import Settlement.Proofs.Reading
import Settlement.Proofs.World.Memory
/-!
Numbers that stay of a kind. Where no operation of the arithmetic leads out of a kind of numbers,
a world whose numbers are of the kind keeps them so through every run. Prices, surpluses and yields
need not be of the kind: no stock, value, share or population is computed from them.
-/
namespace Settlement

variable {R : Type}

/-- A real is of a kind. Whole numbers are apart from reals, and may be any. -/
def Given.Within (admits : R → Prop) : Given R → Prop
  | real value => admits value
  | _ => True

/-- No operation leads out of the kind, as far as the phases of a tick use it. What two to a power
is need not be of the kind: values take it only from between two bounds that are. -/
structure Scalar.Closed [Scalar R] (admits : R → Prop) : Prop where
  zero : admits 0
  one : admits 1
  days : admits daysPerYear
  add {x y : R} : admits x → admits y → admits (x + y)
  sub {x y : R} : admits x → admits y → admits (x - y)
  mul {x y : R} : admits x → admits y → admits (x * y)
  div {x y : R} : admits x → admits y → Scalar.isZero y = false → admits (x / y)
  ofWhole (value : Int) : Gives admits (Scalar.ofWhole value)
  power {x y : R} : admits x → admits y → Gives admits (Scalar.power x y)
  ratio (a b : Int) : Gives admits (Scalar.ratio a b)
  between {floor ceiling : Given R} {raw : R} : floor.Within admits → ceiling.Within admits →
    floor.isLess (.real raw) = true → (Given.real raw).isLess ceiling = true → admits raw
  isZero_days : Scalar.isZero (daysPerYear : R) = false
  isZero_of_not_le {x : R} : ¬x ≤ 0 → Scalar.isZero x = false
  zero_nonneg : (0 : R) ≤ 0
  nonneg_of_not_le {x : R} : admits x → ¬x ≤ 0 → 0 ≤ x

/-- What a tick is governed by is of a kind. -/
structure Rules.Within (admits : R → Prop) (rules : Rules R) : Prop where
  valueSmoothing : rules.values.smoothing.Within admits
  bounds : ∀ bounds, rules.values.bounds = .ok bounds → ∀ good : Good,
    bounds[good].floor.Within admits ∧ bounds[good].ceiling.Within admits
  laborSmoothing : rules.labor.smoothing.Within admits
  ratioFloor : rules.labor.ratioFloor.Within admits
  floorDivisor : rules.labor.floorDivisor.Within admits
  exponent : rules.exponent.Within admits
  birthRate : rules.demography.birthRate.Within admits
  deathRate : rules.demography.deathRate.Within admits

/-- All amounts and rates are of a kind. -/
structure Catalog.Within (admits : R → Prop) (catalog : Catalog R) : Prop where
  amounts : ∀ group ∈ catalog.orders, ∀ input ∈ group.inputs, admits input.2
  rates : ∀ entry ∈ catalog.outputs.entries, admits entry.2.rate

/-- All levels and rates are of a kind. -/
def Replenisher.Within (admits : R → Prop) : Replenisher R → Prop
  | barren => True
  | renewable targets =>
    ∀ entry ∈ targets.entries, admits entry.2.level ∧ admits entry.2.rate

/-- The numbers that later stocks are computed from are of a kind. -/
structure Economy.Within (admits : R → Prop) (economy : Economy R) : Prop where
  population : admits economy.population
  stocks : ∀ good : Good, admits economy.stocks[good]
  values : ∀ good : Good, ∀ value ∈ economy.values[good], admits value
  shares : ∀ labor : Labor, admits economy.shares[labor]
  productivity : ∀ labor : Labor, admits economy.productivity[labor]

/-- All numbers that the stocks of a world are computed from are of a kind. -/
structure World.Within (admits : R → Prop) (world : World R) : Prop where
  rules : world.rules.Within admits
  catalog : world.catalog.Within admits
  decay : ∀ good : Good, admits world.decay[good]
  replenishers : ∀ site ∈ world.sites.values, site.replenisher.Within admits
  economies : ∀ site ∈ world.sites.values, site.economy.Within admits

/-- No stock is negative, and none is no number. -/
def Economy.Stocked [Scalar R] (economy : Economy R) : Prop :=
  ∀ good : Good, 0 ≤ economy.stocks[good]

variable [Scalar R] {admits : R → Prop}

/-! Numbers that are computed from numbers of the kind. -/

theorem Scalar.larger_of_both {x y : R} (left : admits x) (right : admits y) :
    admits (Scalar.larger x y) := by
  unfold Scalar.larger
  split
  · exact right
  · exact left

theorem Scalar.smaller_of_both {x y : R} (left : admits x) (right : admits y) :
    admits (Scalar.smaller x y) := by
  unfold Scalar.smaller
  split
  · exact right
  · exact left

theorem Given.gives_larger {a b : Given R} (left : a.Within admits) (right : b.Within admits) :
    Gives (Given.Within admits) (a.larger b) := by
  unfold Given.larger
  split
  · exact .ok right
  · exact .ok left
  · exact .error trivial

theorem Economy.Within.of_seeded {population : R} {stocks : Table Good R}
    {values : Table Good (Option R)} {shares : Table Labor R} (one : admits 1)
    (people : admits population) (held : ∀ good : Good, admits stocks[good])
    (worth : ∀ good : Good, ∀ value ∈ values[good], admits value)
    (working : ∀ labor : Labor, admits shares[labor]) :
    (seeded population stocks values shares).Within admits where
  population := people
  stocks := held
  values := worth
  shares := working
  productivity labor := by
    rw [seeded, Table.getElem_const]
    exact one

namespace Scalar.Closed

variable (closed : Scalar.Closed admits)
include closed

theorem sum {numbers : List R} (all : ∀ x ∈ numbers, admits x) : admits (Scalar.sum numbers) := by
  have general : ∀ start, admits start → admits (numbers.foldl (· + ·) start) := by
    induction numbers with
    | nil => exact fun _ kept => kept
    | cons x rest ih =>
      rw [List.forall_mem_cons] at all
      exact fun start kept => ih all.2 _ (closed.add kept all.1)
  exact general 0 closed.zero

theorem gives_quotient {x y : R} (left : admits x) (right : admits y) :
    Gives admits (Scalar.quotient x y) := by
  unfold Scalar.quotient
  split
  · exact .error trivial
  · rename_i nonzero
    exact .ok (closed.div left right (Bool.eq_false_iff.mpr nonzero))

variable {a b : Given R}

theorem gives_operand (within : a.Within admits) (fault : Document.Kind → Fault) :
    Gives admits (a.operand fault) := by
  cases a with
  | truth value => exact closed.ofWhole _
  | whole value => exact closed.ofWhole _
  | real value => exact .ok within
  | other kind => exact .error trivial

variable (left : a.Within admits) (right : b.Within admits)
include left right

/-- Operands that are taken as reals are of the kind. -/
theorem gives_pair (operation : String) : Gives
    (fun pair => ∀ x y, pair = .reals x y → admits x ∧ admits y) (Given.pair operation a b) := by
  unfold Given.pair
  dsimp only
  split
  · exact .error trivial
  · exact .error trivial
  · split
    · exact .ok fun _ _ same => by cases same
    · refine (closed.gives_operand left _).bind fun x first => ?_
      refine (closed.gives_operand right _).bind fun y second => .ok fun _ _ same => ?_
      cases same
      exact ⟨first, second⟩

theorem gives_minus : Gives (Given.Within admits) (a.minus b) := by
  refine (closed.gives_pair left right _).bind fun pair kept => ?_
  cases pair with
  | wholes m n => exact .ok trivial
  | reals x y => exact .ok (closed.sub (kept x y rfl).1 (kept x y rfl).2)

theorem gives_dividedBy : Gives admits (a.dividedBy b) := by
  refine (closed.gives_pair left right _).bind fun pair kept => ?_
  cases pair with
  | wholes m n =>
    split
    · exact .error trivial
    · rename_i same
      cases same
      exact closed.ratio _ _
    · rename_i same
      cases same
  | reals x y => exact closed.gives_quotient (kept x y rfl).1 (kept x y rfl).2

end Scalar.Closed

/-! The phases of a tick. -/

section phases

variable (closed : Scalar.Closed admits)
include closed

/-- A value is a mean of numbers of the kind. The raw value is one of them, as it lies between the
bounds, whatever it was computed from. -/
theorem ValueRule.gives_next {rule : ValueRule R} {bounds : Bounds R} {previous : Option R}
    (smoothing : rule.smoothing.Within admits) (floor : bounds.floor.Within admits)
    (ceiling : bounds.ceiling.Within admits) (kept : ∀ value ∈ previous, admits value)
    (surplus demand : R) :
    Gives (fun next => ∀ value ∈ next, admits value) (rule.next bounds previous surplus demand) := by
  unfold next
  dsimp only
  split
  · rename_i priced
    simp only [Bounds.prices, Bool.and_eq_true] at priced
    have raw := closed.between floor ceiling priced.1.2 priced.2
    refine (closed.gives_operand smoothing _).bind fun part mean => .ok ?_
    rintro _ ⟨rfl⟩
    refine closed.add (closed.mul mean ?_) (closed.mul (closed.sub closed.one mean) raw)
    cases previous with
    | none => exact raw
    | some value => exact kept value rfl
  · exact .ok fun value absent => by cases absent

theorem satisfaction_within {stock demand : R} (left : admits stock) (right : admits demand) :
    admits (satisfaction stock demand) := by
  unfold satisfaction
  split
  · exact closed.one
  · rename_i asked
    exact Scalar.smaller_of_both (closed.div left right (closed.isZero_of_not_le asked)) closed.one

namespace OrderGroup

variable {group : OrderGroup R} {stocks demand : Table Good R}
  (held : ∀ good : Good, admits stocks[good])
include held

theorem satisfaction_within (asked : ∀ good : Good, admits demand[good]) :
    admits (group.satisfaction stocks demand) := by
  have scarce (good : Good) : admits (Settlement.satisfaction stocks[good] demand[good]) :=
    Settlement.satisfaction_within closed (held good) (asked good)
  unfold satisfaction
  split
  · exact closed.one
  · exact List.foldlRecOn _ _ (scarce _) fun least kept input _ =>
      Scalar.smaller_of_both kept (scarce input.1)

theorem consume_within {scale satisfaction : R} (amounts : ∀ input ∈ group.inputs, admits input.2)
    (counted : admits scale) (satisfied : admits satisfaction) (good : Good) :
    admits (group.consume scale satisfaction stocks)[good] := by
  refine Table.forall_getElem_foldl Prod.fst
    (fun input stock => Scalar.larger 0 (stock - used input.2 scale satisfaction)) ?_ held good
  intro input chosen stock kept
  exact Scalar.larger_of_both closed.zero
    (closed.sub kept (closed.mul (closed.mul (amounts input chosen) counted) satisfied))

end OrderGroup

theorem Replenisher.replenish_within {replenisher : Replenisher R} {stocks : Table Good R}
    (growing : replenisher.Within admits) (held : ∀ good : Good, admits stocks[good])
    (good : Good) : admits (replenisher.replenish stocks)[good] := by
  cases replenisher with
  | barren => exact held good
  | renewable targets =>
    refine Table.forall_getElem_foldl Prod.fst
      (fun (entry : Good × Target R) => entry.2.regrow) ?_ held good
    intro entry member stock kept
    obtain ⟨level, rate⟩ := growing entry member
    unfold Target.regrow
    split
    · exact closed.add kept (closed.mul (closed.sub level kept) rate)
    · exact kept

namespace Economy.Within

variable {economy after : Economy R} {rules : Rules R} {catalog : Catalog R}
  (within : economy.Within admits)
include within

theorem headcount : admits economy.headcount :=
  Scalar.larger_of_both within.population closed.zero

theorem scale (labor : Option Labor) : admits (economy.scale labor) := by
  cases labor with
  | none => exact within.headcount closed
  | some labor => exact closed.mul (within.shares labor) (within.headcount closed)

theorem demand (listed : catalog.Within admits) (good : Good) :
    admits (economy.demand catalog.orders)[good] := by
  refine List.foldlRecOn catalog.orders economy.addDemand
    (motive := fun demand => ∀ good : Good, admits demand[good])
    (fun good => by rw [Table.getElem_const]; exact closed.zero) ?_ good
  intro demand kept group member
  refine Table.forall_getElem_foldl Prod.fst
    (fun input => (· + input.2 * economy.scale group.labor)) ?_ kept
  intro input chosen asked kept
  exact closed.add kept
    (closed.mul (listed.amounts group member input chosen) (within.scale closed group.labor))

theorem traded (ruled : rules.Within admits) {totals : Totals R}
    (traded : (economy.trade rules totals).Reaches after) : after.Within admits := by
  obtain ⟨bounds, values, _, read, moved, _, rfl⟩ := reaches_trade_iff.mp traded
  refine { within with values := fun good => ?_ }
  obtain ⟨floor, ceiling⟩ := ruled.bounds bounds read good
  exact (rules.values.gives_next closed ruled.valueSmoothing floor ceiling (within.values good)
    _ _).kind_of_eq_ok (moved good)

theorem weight (entry : Labor × Output R) : admits (economy.weight entry) := by
  refine closed.mul ?_ (within.productivity entry.1)
  cases value : economy.values[entry.2.good] with
  | none => exact closed.zero
  | some value => exact within.values _ _ ‹_›

theorem gives_total (ruled : rules.Within admits) :
    Gives (Given.Within admits) (rules.labor.total (economy.weights catalog.outputs)) := by
  refine Given.gives_larger ?_ ruled.ratioFloor
  unfold LaborRule.sum
  split
  · trivial
  · refine closed.sum fun weight member => ?_
    obtain ⟨entry, _, rfl⟩ := List.mem_map.mp member
    exact within.weight closed entry

theorem reassigned {smoothing total floor : R} (smoothed : admits smoothing) (summed : admits total)
    (floored : admits floor) (nonzero : Scalar.isZero total = false) :
    (economy.reassigned catalog.outputs smoothing total floor).Within admits := by
  refine { within with shares := fun labor => ?_ }
  refine Table.forall_getElem_foldl Prod.fst
    (fun entry => (LaborRule.share smoothing total floor · (economy.weight entry))) ?_
    within.shares labor
  intro entry _ share kept
  have target := closed.div (Scalar.larger_of_both (within.weight closed entry) floored) summed
    nonzero
  exact closed.add (closed.mul smoothed kept) (closed.mul (closed.sub closed.one smoothed) target)

theorem gives_reallocate (ruled : rules.Within admits) :
    Gives (fun result => result.2.Within admits)
      (economy.reallocate rules.labor catalog.outputs) := by
  refine (within.gives_total closed ruled).bind fun total summed => ?_
  refine (closed.gives_dividedBy summed ruled.floorDivisor).bind fun floor floored => ?_
  split
  · exact .ok within
  · refine (closed.gives_operand ruled.laborSmoothing _).bind fun smoothing smoothed => ?_
    refine (closed.gives_operand summed _).bind fun total summed => ?_
    split
    · exact .error trivial
    · rename_i nonzero
      exact .ok (within.reassigned closed smoothed summed floored (Bool.eq_false_iff.mpr nonzero))

theorem employed (ruled : rules.Within admits)
    (employed : (economy.employ rules catalog).Reaches after) : after.Within admits := by
  obtain ⟨_, success, rest⟩ := Outcome.reaches_given.mp employed
  rw [← Outcome.reaches_done.mp rest]
  exact (within.gives_reallocate closed ruled).kind_of_eq_ok success

theorem turnedOut {labor : Labor} {output : Output R} {exponent : Given R} {satisfaction : R}
    (rate : admits output.rate) (raised : exponent.Within admits) (satisfied : admits satisfaction)
    (ran : (economy.turnOut labor output exponent satisfaction).Reaches after) :
    after.Within admits := by
  obtain ⟨effort, success, rest⟩ := Outcome.reaches_given.mp ran
  rw [← Outcome.reaches_done.mp rest]
  have worked : Gives admits (economy.effort labor exponent) :=
    (closed.gives_operand raised _).bind fun _ kept =>
      closed.power (within.scale closed (some labor)) kept
  refine { within with
    productivity := fun other => ?_
    stocks := Table.forall_getElem_modify within.stocks output.good (closed.add (within.stocks _)
      (closed.mul (closed.mul satisfied rate) (worked.kind_of_eq_ok success))) }
  rw [Table.getElem_set]
  split
  · exact satisfied
  · exact within.productivity other

theorem ranGroup {exponent : Given R} {before demand : Table Good R} {group : OrderGroup R}
    (listed : catalog.Within admits) (member : group ∈ catalog.orders)
    (raised : exponent.Within admits) (held : ∀ good : Good, admits before[good])
    (asked : ∀ good : Good, admits demand[good])
    (ran : (economy.runGroup catalog.outputs exponent before demand group).Reaches after) :
    after.Within admits := by
  have satisfied : admits (group.satisfaction before demand) :=
    OrderGroup.satisfaction_within closed held asked
  have consumed : Within admits { economy with
      stocks := group.consume (economy.scale group.labor) (group.satisfaction before demand)
        economy.stocks } :=
    { within with
      stocks := OrderGroup.consume_within closed within.stocks (listed.amounts group member)
        (within.scale closed group.labor) satisfied }
  unfold runGroup at ran
  split at ran
  · exact absurd ran Outcome.not_reaches_failed
  · dsimp only at ran
    split at ran
    · rw [← Outcome.reaches_done.mp ran]
      exact consumed
    · rename_i labor head
      split at ran
      · exact absurd ran Outcome.not_reaches_failed
      · rename_i output found
        have listed := listed.rates _ ((OrderedMap.find?_eq_some_iff _ _ _).mp found)
        exact consumed.turnedOut closed listed raised satisfied ran

theorem produced (ruled : rules.Within admits) (listed : catalog.Within admits)
    {demand : Table Good R} (asked : ∀ good : Good, admits demand[good])
    (produced : (economy.produce catalog rules.exponent demand).Reaches after) :
    after.Within admits :=
  produced.each_keeps (fun _ member _ _ kept ran => kept.ranGroup closed listed member
    ruled.exponent within.stocks asked ran) within

theorem floored_stocks (good : Good) :
    admits economy.floored.stocks[good] ∧ 0 ≤ economy.floored.stocks[good] := by
  rw [floored, Table.getElem_map]
  split
  · exact ⟨closed.zero, closed.zero_nonneg⟩
  · rename_i stocked
    exact ⟨within.stocks good, closed.nonneg_of_not_le (within.stocks good) stocked⟩

theorem gives_grown (ruled : rules.Within admits) {days : Given R} (lasts : days.Within admits) :
    Gives admits (economy.grown rules.demography days) := by
  have born : (economy.births rules.demography).Within admits := by
    unfold births
    split
    · exact ruled.birthRate
    · exact closed.zero
  have grows : Gives admits (economy.growth rules.demography) :=
    (closed.gives_minus born ruled.deathRate).bind fun _ kept => closed.gives_operand kept _
  refine (closed.gives_operand lasts _).bind fun days lasts => grows.bind fun growth grows => .ok ?_
  exact closed.add within.population (closed.mul (closed.mul
    (closed.div lasts closed.days closed.isZero_days) within.population) grows)

theorem renewed (ruled : rules.Within admits) {decay : Table Good R}
    (decays : ∀ good : Good, admits decay[good]) {replenisher : Replenisher R}
    (growing : replenisher.Within admits) {days : Given R} (lasts : days.Within admits)
    (renewed : (economy.renew rules decay replenisher days).Reaches after) :
    after.Within admits ∧ after.Stocked := by
  have decayed (good : Good) : admits (economy.decayed decay).stocks[good] := by
    rw [Economy.decayed, Table.getElem_zipWith]
    exact closed.mul (within.stocks good) (closed.sub closed.one (decays good))
  have regrown : ((economy.decayed decay).replenished replenisher).Within admits :=
    { within with stocks := replenisher.replenish_within closed growing decayed }
  have floored := regrown.floored_stocks closed
  have kept : ((economy.decayed decay).replenished replenisher).floored.Within admits :=
    { regrown with stocks := fun good => (floored good).1 }
  obtain ⟨population, success, peopled⟩ := Outcome.reaches_given.mp renewed
  have peoples := (kept.gives_grown closed ruled lasts).kind_of_eq_ok success
  unfold Economy.peopled at peopled
  split at peopled
  · rw [← Outcome.reaches_noted.mp peopled]
    exact ⟨{ kept with population := closed.zero }, fun good => (floored good).2⟩
  · rw [← Outcome.reaches_done.mp peopled]
    exact ⟨{ kept with population := peoples }, fun good => (floored good).2⟩

theorem ticked (ruled : rules.Within admits) (listed : catalog.Within admits)
    {decay : Table Good R} (decays : ∀ good : Good, admits decay[good])
    {replenisher : Replenisher R} (growing : replenisher.Within admits) {days : Given R}
    (lasts : days.Within admits)
    (ticked : (economy.tick rules catalog decay replenisher days).Reaches after) :
    after.Within admits ∧ after.Stocked := by
  simp only [tick, Outcome.reaches_andThen] at ticked
  obtain ⟨_, ⟨_, ⟨_, traded, employed⟩, produced⟩, renewed⟩ := ticked
  have asked := within.demand closed listed
  exact ((((within.traded closed ruled traded).employed closed ruled employed).produced closed
    ruled listed asked produced).renewed closed ruled decays growing lasts renewed)

end Economy.Within

/-! Runs. -/

namespace World.Within

variable {world reached : World R} {lengths : List (Given R)} (within : world.Within admits)
include within

theorem lapped {site : Site R} (member : site ∈ world.sites.values) {days : Given R}
    (lasts : days.Within admits) {economy after : Economy R}
    (kept : economy.Within admits ∧ economy.Stocked)
    (lapped : (world.lap site.replenisher days economy).Reaches after) :
    after.Within admits ∧ after.Stocked := by
  obtain ⟨_, lapped⟩ := reaches_lap_iff.mp lapped
  split at lapped
  · exact lapped ▸ kept
  · exact kept.1.ticked closed within.rules within.catalog within.decay
      (within.replenishers site member) lasts lapped

/-- Through every run the numbers stay of the kind, and no stock becomes negative. -/
theorem stocked_of_reaches_run (indexed : world.Indexed)
    (stocked : ∀ site ∈ world.sites.values, site.economy.Stocked)
    (lasts : ∀ days ∈ lengths, days.Within admits) (ran : (world.run lengths).Reaches reached) :
    ∀ site ∈ reached.sites.values, site.economy.Within admits ∧ site.economy.Stocked := by
  intro site member
  obtain ⟨start, present, laps, _⟩ := indexed.exists_of_mem_reached ran member
  exact laps.each_keeps
    (fun days member _ _ kept lap => within.lapped closed present (lasts days member) kept lap)
    ⟨within.economies start present, stocked start present⟩

end World.Within

end phases

end Settlement
