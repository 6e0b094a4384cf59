import Settlement.Proofs.Exact.Run
import Settlement.Proofs.Simulation.Schedule
import Settlement.Proofs.World.Clock
/-!
The years that a simulation notes. Sites note none: before each tick, the driver notes the year in
whose first day the tick starts, if it is one of the fiftieth. In exact arithmetic each of those
years is noted once, whatever the number of ticks, just where the ticks last a day at least and
fifty years are a number of them.
-/
namespace Settlement

/-- The year that a note says was entered. -/
def Note.year? : Note → Option Int
  | enteredYear year => some year
  | _ => none

namespace Outcome

variable {α σ τ : Type} {first : Outcome σ} {next : σ → Outcome σ} {a b : σ}

/-- The years that were noted, in order. -/
def years (outcome : Outcome σ) : List Int := outcome.notes.toList.filterMap Note.year?

theorem years_noted (state : σ) (notes : List Note) :
    (noted state notes).years = notes.filterMap Note.year? := by
  rw [years, noted]

theorem Reaches.years_andThen (ends : first.Reaches a) :
    (first.andThen next).years = first.years ++ (next a).years := by
  obtain ⟨state, notes, fault⟩ := first
  obtain ⟨rfl, rfl⟩ := ends
  simp [years, andThen]

theorem years_given_eq_nil {reading : Except Fault α} {next : α → Outcome σ}
    (nexts : ∀ value, (next value).years = []) : (given reading a next).years = [] := by
  cases reading with
  | ok value => exact nexts value
  | error fault => rfl

theorem years_andThen_eq_nil (silent : first.years = []) (nexts : ∀ a, (next a).years = []) :
    (first.andThen next).years = [] := by
  obtain ⟨state, notes, fault⟩ := first
  cases fault with
  | none =>
    have silent : notes.toList.filterMap Note.year? = [] := silent
    have last : (next state).notes.toList.filterMap Note.year? = [] := nexts state
    simp [years, andThen, silent, last]
  | some fault => exact silent

theorem years_each_eq_nil {step : α → σ → Outcome σ} {items : List α}
    (steps : ∀ item a, (step item a).years = []) : (each items step a).years = [] := by
  induction items generalizing a with
  | nil => rfl
  | cons item rest ih =>
    rw [each_cons]
    exact years_andThen_eq_nil (steps item a) fun _ => ih

theorem steps_concat (count : Nat) (step : Nat → σ → Outcome σ) (state : σ) :
    steps (count + 1) step state = (steps count step state).andThen (step count) := by
  rw [steps_eq_each, List.range_succ, each, List.foldl_append, steps_eq_each]
  rfl

end Outcome

section silence

variable {R : Type} [Scalar R]

namespace Economy

variable {economy : Economy R}

theorem years_trade (rules : Rules R) (totals : Totals R) :
    (economy.trade rules totals).years = [] := by
  refine Outcome.years_andThen_eq_nil ?_ fun _ => Outcome.years_given_eq_nil fun _ => rfl
  refine Outcome.years_given_eq_nil fun bounds => Outcome.years_each_eq_nil fun good economy => ?_
  refine Outcome.years_given_eq_nil fun value => ?_
  rw [withValue, Outcome.years_noted]
  split <;> rfl

theorem years_runGroup {outputs : OrderedMap Labor (Output R)} {exponent : Given R}
    {before demand : Table Good R} {group : OrderGroup R} :
    (runGroup outputs exponent before demand group economy).years = [] := by
  unfold runGroup
  split
  · rfl
  · dsimp only
    split
    · rfl
    · split
      · rfl
      · exact Outcome.years_given_eq_nil fun _ => rfl

theorem years_growPopulation {demography : Demography R} {days : Given R} :
    (economy.growPopulation demography days).years = [] := by
  refine Outcome.years_given_eq_nil fun population => ?_
  unfold peopled
  split <;> rfl

/-- An economy notes no years. -/
theorem years_tick {rules : Rules R} {catalog : Catalog R} {decay : Table Good R}
    {replenisher : Replenisher R} {days : Given R} :
    (economy.tick rules catalog decay replenisher days).years = [] := by
  refine Outcome.years_andThen_eq_nil ?_ fun _ => years_growPopulation
  refine Outcome.years_andThen_eq_nil ?_ fun _ =>
    Outcome.years_each_eq_nil fun _ _ => years_runGroup
  exact Outcome.years_andThen_eq_nil (years_trade rules _)
    fun _ => Outcome.years_given_eq_nil fun _ => rfl

end Economy

theorem World.years_tick {world : World R} {days : Given R} : (world.tick days).years = [] := by
  refine Outcome.years_andThen_eq_nil ?_ fun _ => Outcome.years_given_eq_nil fun _ => rfl
  refine Outcome.years_each_eq_nil fun id world => Outcome.years_given_eq_nil fun backwards => ?_
  split
  · rfl
  · split
    · rfl
    · exact Outcome.years_given_eq_nil fun site => Economy.years_tick

/-- A simulation without observers. -/
def World.simulated (period : Given R) (interval : Interval) (count : Nat) (world : World R) :
    Outcome (Observed R Unit) :=
  Observed.simulate period interval [] (.whole count) ⟨world, ()⟩

variable {world last : World R} {period : Given R} {interval : Interval} {count : Nat}

/-- Without observers, a step notes the year and ticks the world. -/
theorem Observed.step_eq (index : Nat) (observed : Observed R Unit) :
    step period interval [] index observed =
      (observed.world.noteYear.andThen (World.tick period)).map fun world => ⟨world, ()⟩ := by
  have still (observed : Observed R Unit) :
      (if interval.isDue index then observed.observe [] index else .done observed) =
        .done observed := by
    split <;> rfl
  simp only [step, still, Outcome.andThen_done]

/-- Induction on the ticks. -/
theorem World.years_steps {year : Nat → Option Int}
    (ticked : (ticks count period world).Reaches last)
    (told : ∀ index < count, ∀ before, (ticks index period world).Reaches before →
      before.noteworthyYear = .ok (year index)) :
    let ran := Outcome.steps count (Observed.step period interval []) ⟨world, ()⟩
    ran.Reaches ⟨last, ()⟩ ∧ ran.years = (List.range count).filterMap year := by
  induction count generalizing last with
  | zero =>
    obtain rfl := Outcome.reaches_done.mp ticked
    exact ⟨Outcome.reaches_done.mpr rfl, rfl⟩
  | succ count ih =>
    obtain ⟨middle, first, later⟩ := reaches_ticks_succ.mp ticked
    obtain ⟨reached, noted⟩ := ih first fun index within => told index (Nat.lt_succ_of_lt within)
    have entered := told count (Nat.lt_succ_self count) middle first
    have begun : middle.noteYear = .noted middle ((year count).toList.map Note.enteredYear) := by
      rw [noteYear, entered, Outcome.given_ok]
    have ends : middle.noteYear.Reaches middle := by
      rw [begun]
      exact Outcome.reaches_noted.mpr rfl
    have step : Observed.step period interval [] count ⟨middle, ()⟩ =
        (middle.noteYear.andThen (World.tick period)).map fun world => ⟨world, ()⟩ :=
      Observed.step_eq _ _
    rw [Outcome.steps_concat]
    constructor
    · refine Outcome.reaches_andThen.mpr ⟨_, reached, ?_⟩
      rw [step]
      exact Outcome.reaches_map.mpr ⟨last, Outcome.reaches_andThen.mpr ⟨_, ends, later⟩, rfl⟩
    · rw [reached.years_andThen, noted, step, List.range_succ, List.filterMap_append]
      congr 1
      show (middle.noteYear.andThen (World.tick period)).years = _
      rw [ends.years_andThen, years_tick, begun, Outcome.years_noted, List.append_nil]
      cases chosen : year count <;> simp [Note.year?, chosen]

/-- Before the first step and after the last no year is noted. -/
theorem World.years_simulated {year : Nat → Option Int}
    (whole : ∃ years, yearsOf (.whole count) period = .ok years)
    (ticked : (ticks count period world).Reaches last)
    (told : ∀ index < count, ∀ before, (ticks index period world).Reaches before →
      before.noteworthyYear = .ok (year index)) :
    (world.simulated period interval count).Reaches ⟨last, ()⟩ ∧
      (world.simulated period interval count).years = (List.range count).filterMap year := by
  obtain ⟨years, total⟩ := whole
  obtain ⟨reached, noted⟩ := @years_steps _ _ _ _ _ interval _ _ ticked told
  let start : Observed R Unit := ⟨world, ()⟩
  let opening := Outcome.noted start [.simulating count (Scalar.number years) world.sites.size]
  let ran := opening.andThen fun observed => observed.run period interval [] count
  have simulated : world.simulated period interval count = ran.andThen fun observed =>
      .noted observed [.finished (Scalar.number (observed.world.clock / daysPerYear))] := by
    rw [World.simulated, Observed.simulate, total]
    rfl
  have opened : opening.Reaches start := Outcome.reaches_noted.mpr rfl
  have ends : ran.Reaches ⟨last, ()⟩ := Outcome.reaches_andThen.mpr ⟨start, opened, reached⟩
  have same : ran.years = (List.range count).filterMap year := opened.years_andThen.trans noted
  rw [simulated]
  refine ⟨Outcome.reaches_andThen.mpr ⟨_, ends, Outcome.reaches_noted.mpr rfl⟩, ?_⟩
  rw [ends.years_andThen, same, Outcome.years_noted]
  exact List.append_nil _

end silence

section exact

variable {world last : World ℝ} {period : Given ℝ} {length : ℝ} {interval : Interval} {count : Nat}

theorem daysPerYear_eq : (daysPerYear : ℝ) = 360 := by norm_num [daysPerYear]

/-- The year in whose first day a moment lies, if it is one of the fiftieth. -/
noncomputable def yearBegun (clock : ℝ) : Option Int :=
  let year := ⌊clock / daysPerYear⌋
  if year % noteworthyYears = 0 ∧ ⌊clock - daysPerYear * year⌋ = 0 then some year else none

theorem yearBegun_eq_some_iff {clock : ℝ} {year : Int} :
    yearBegun clock = some year ↔
      50 ∣ year ∧ 360 * (year : ℝ) ≤ clock ∧ clock < 360 * (year : ℝ) + 1 := by
  unfold yearBegun
  simp only [daysPerYear_eq, Option.ite_none_right_eq_some, Option.some.injEq, noteworthyYears,
    ← Int.dvd_iff_emod_eq_zero, Int.floor_eq_zero_iff, Set.mem_Ico]
  constructor
  · rintro ⟨⟨fiftieth, first, later⟩, rfl⟩
    exact ⟨fiftieth, by linarith, by linarith⟩
  · intro holds
    obtain ⟨fiftieth, first, later⟩ := holds
    have same : ⌊clock / 360⌋ = year := by
      rw [Int.floor_eq_iff, le_div_iff₀ (by norm_num), div_lt_iff₀ (by norm_num)]
      constructor <;> linarith
    rw [same]
    exact ⟨⟨fiftieth, by linarith, by linarith⟩, rfl⟩

/-- After the first day of a year nothing is noted until the next. -/
theorem yearBegun_eq_none {clock : ℝ} {year : Int} (after : 360 * (year : ℝ) + 1 ≤ clock)
    (before : clock < 360 * (year + 1 : ℝ)) : yearBegun clock = none := by
  cases begun : yearBegun clock with
  | none => rfl
  | some other =>
    obtain ⟨_, first, later⟩ := yearBegun_eq_some_iff.mp begun
    have above : (year : ℝ) < other := by linarith
    have below : (other : ℝ) < (year + 1 : Int) := by
      push_cast
      linarith
    have above : year < other := by exact_mod_cast above
    have below : other < year + 1 := by exact_mod_cast below
    omega

theorem wholePart_of_nonneg {x : ℝ} (nonneg : 0 ≤ x) : wholePart x = ⌊x⌋ :=
  if_neg (not_lt.mpr nonneg)

/-- In exact arithmetic the year that a tick starts in can always be told. -/
theorem World.noteworthyYear_eq (forwards : 0 ≤ world.clock) :
    world.noteworthyYear = .ok (yearBegun world.clock) := by
  have days : (0 : ℝ) < daysPerYear := by norm_num [daysPerYear]
  have year : 0 ≤ ⌊world.clock / daysPerYear⌋ := Int.floor_nonneg.mpr (div_nonneg forwards days.le)
  have day : 0 ≤ world.clock - daysPerYear * ⌊world.clock / daysPerYear⌋ := by
    have least := Int.floor_le (world.clock / daysPerYear)
    rw [le_div_iff₀ days] at least
    linarith
  have first : wholePart ((⌊world.clock / daysPerYear⌋ : Int) : ℝ) =
      ⌊world.clock / daysPerYear⌋ := by
    rw [wholePart_of_nonneg (by exact_mod_cast year), Int.floor_intCast]
  have second := wholePart_of_nonneg day
  simp only [noteworthyYear, Scalar.divMod, Scalar.truncate, bind, Except.bind, pure, Except.pure,
    first, second, yearBegun]
  split_ifs <;> simp_all

/-- Over ticks of one length the clock shows multiples of it. -/
theorem World.clock_ticks (starts : world.clock = 0) (denotes : period.Denotes length)
    (ticked : (ticks count period world).Reaches last) : last.clock = count * length := by
  induction count generalizing last with
  | zero =>
    obtain rfl := Outcome.reaches_done.mp ticked
    rw [starts, Nat.cast_zero, zero_mul]
  | succ count ih =>
    obtain ⟨middle, before, tick⟩ := reaches_ticks_succ.mp ticked
    obtain ⟨days, read, moved⟩ := clock_of_reaches_tick tick
    obtain rfl : length = days := Except.ok.inj ((denotes.operand _).symm.trans read)
    rw [moved, ih before]
    push_cast
    ring

theorem exists_times {given : Given ℝ} {x : ℝ} (denotes : given.Denotes x) (whole : Int) :
    ∃ product, (Given.whole whole).times given = .ok product ∧ product.Denotes (whole * x) := by
  cases denotes with
  | @whole _ number exact =>
    refine ⟨.whole (whole * number), ?_, ?_⟩
    · cases given with
      | truth value =>
        cases exact
        rfl
      | whole value =>
        cases exact
        rfl
      | real value => cases exact
      | other kind => cases exact
    · rw [← Int.cast_mul]
      exact .whole rfl
  | real x => exact ⟨.real (whole * x), rfl, .real _⟩

theorem yearsOf_eq (denotes : period.Denotes length) (count : Nat) :
    yearsOf (.whole count) period = .ok ((count : Int) * length / daysPerYear) := by
  obtain ⟨product, success, number⟩ := exists_times denotes count
  rw [yearsOf, success]
  show (do return (← product.operand (.notOperand "/" · .real)) / daysPerYear) = _
  rw [number.operand]
  rfl

/-- Every fiftieth year that is entered before some ticks are over is noted once, and no other. -/
structure EachOnce (length : ℝ) (count : Nat) (years : List Int) : Prop where
  once : ∀ year : Int, 50 ∣ year → 0 ≤ year → 360 * (year : ℝ) < count * length →
    years.count year = 1
  only : ∀ year ∈ years, 50 ∣ year ∧ 0 ≤ year ∧ 360 * (year : ℝ) < count * length

/-- The years of ticks of one length. -/
noncomputable def yearsBegun (length : ℝ) (count : Nat) : List Int :=
  (List.range count).filterMap fun index : Nat => yearBegun (index * length)

theorem yearsBegun_succ (length : ℝ) (count : Nat) :
    yearsBegun length (count + 1) =
      yearsBegun length count ++ (yearBegun (count * length)).toList := by
  rw [yearsBegun, List.range_succ, List.filterMap_append, yearsBegun]
  cases begun : yearBegun (count * length) <;> simp [begun]

theorem mem_yearsBegun {year : Int} : year ∈ yearsBegun length count ↔
    50 ∣ year ∧ ∃ index < count, 360 * (year : ℝ) ≤ index * length ∧
      index * length < 360 * (year : ℝ) + 1 := by
  simp only [yearsBegun, List.mem_filterMap, List.mem_range, yearBegun_eq_some_iff]
  constructor
  · rintro ⟨index, within, fiftieth, first, later⟩
    exact ⟨fiftieth, index, within, first, later⟩
  · rintro ⟨fiftieth, index, within, first, later⟩
    exact ⟨index, within, fiftieth, first, later⟩

/-- No other year is noted, however long the ticks are. -/
theorem only_of_mem_yearsBegun (positive : 0 < length) {year : Int}
    (member : year ∈ yearsBegun length count) :
    50 ∣ year ∧ 0 ≤ year ∧ 360 * (year : ℝ) < count * length := by
  obtain ⟨fiftieth, index, within, first, later⟩ := mem_yearsBegun.mp member
  have passed : (0 : ℝ) ≤ index * length := mul_nonneg (Nat.cast_nonneg _) positive.le
  have before : (index * length : ℝ) < count * length :=
    mul_lt_mul_of_pos_right (by exact_mod_cast within) positive
  refine ⟨fiftieth, ?_, first.trans_lt before⟩
  have above : (-1 : ℝ) < year := by linarith
  have above : -1 < year := by exact_mod_cast above
  omega

/-- A year is noted as often as a tick starts in its first day. -/
theorem count_yearsBegun {year : Int} (fiftieth : 50 ∣ year) :
    (yearsBegun length count).count year = Set.ncard {index : ℕ | index < count ∧
      360 * (year : ℝ) ≤ index * length ∧ index * length < 360 * (year : ℝ) + 1} := by
  have indices : {index : ℕ | index < count ∧ 360 * (year : ℝ) ≤ index * length ∧
      index * length < 360 * (year : ℝ) + 1} =
        (Finset.range count).filter fun index : Nat => yearBegun (index * length) = some year := by
    ext index
    simp [yearBegun_eq_some_iff, fiftieth]
  rw [indices, Set.ncard_coe_finset, yearsBegun, List.count_filterMap,
    List.countP_eq_length_filter]
  simp only [beq_eq_decide]
  rfl

/-- Ticks of a day at least, a number of which are fifty years, start once on the first day of each
fiftieth year. -/
theorem eachOnce_yearsBegun (least : 1 ≤ length) {times : ℕ} (fifty : times * length = 18000)
    (count : Nat) : EachOnce length count (yearsBegun length count) := by
  have positive : 0 < length := one_pos.trans_le least
  refine ⟨fun year fiftieth nonneg entered => ?_, fun year => only_of_mem_yearsBegun positive⟩
  obtain ⟨k, rfl⟩ := fiftieth
  obtain ⟨k, rfl⟩ := Int.eq_ofNat_of_zero_le (by omega : 0 ≤ k)
  have start : 360 * ((50 * (k : Int) : Int) : ℝ) = (times * k : ℕ) * length := by
    push_cast
    linear_combination -(k : ℝ) * fifty
  rw [count_yearsBegun (dvd_mul_right _ _), Set.ncard_eq_one]
  refine ⟨times * k, Set.ext fun index => ?_⟩
  rw [start] at entered ⊢
  simp only [Set.mem_ofPred_eq, Set.mem_singleton_iff]
  constructor
  · intro holds
    obtain ⟨_, first, later⟩ := holds
    have next : (index * length : ℝ) < (times * k + 1 : ℕ) * length := by
      push_cast at later ⊢
      linarith
    have above : times * k ≤ index := by exact_mod_cast le_of_mul_le_mul_right first positive
    have below : index < times * k + 1 := by exact_mod_cast lt_of_mul_lt_mul_right next positive.le
    omega
  · rintro rfl
    exact ⟨by exact_mod_cast lt_of_mul_lt_mul_right entered positive.le, le_rfl, lt_add_one _⟩

theorem one_le_of_eachOnce (positive : 0 < length)
    (law : EachOnce length 2 (yearsBegun length 2)) : 1 ≤ length := by
  by_contra less
  rw [not_le] at less
  have once := law.once 0 (dvd_zero _) le_rfl (by push_cast; linarith)
  rw [count_yearsBegun (dvd_zero _), Set.ncard_eq_one] at once
  obtain ⟨only, indices⟩ := once
  have first : 0 ∈ ({only} : Set ℕ) := by
    rw [← indices]
    norm_num
  have second : 1 ∈ ({only} : Set ℕ) := by
    rw [← indices]
    refine ⟨by norm_num, ?_, ?_⟩ <;> push_cast <;> linarith
  rw [Set.mem_singleton_iff] at first second
  omega

/-- The year fifty is noted by a tick that starts with it. -/
theorem exists_fifty_of_eachOnce (positive : 0 < length)
    (law : ∀ count, EachOnce length count (yearsBegun length count)) :
    ∃ times : ℕ, times * length = 18000 := by
  have most := Nat.floor_le (div_nonneg (by norm_num : (0 : ℝ) ≤ 18000) positive.le)
  have next := Nat.lt_floor_add_one (18000 / length)
  rw [le_div_iff₀ positive] at most
  rw [div_lt_iff₀ positive] at next
  have once := (law (⌊18000 / length⌋₊ + 1)).once 50 (dvd_refl _) (by norm_num) (by
    push_cast
    linarith)
  have noted := List.count_pos_iff.mp (once ▸ Nat.one_pos)
  obtain ⟨_, index, within, first, _⟩ := mem_yearsBegun.mp noted
  have last : (index * length : ℝ) ≤ ⌊18000 / length⌋₊ * length :=
    mul_le_mul_of_nonneg_right (by exact_mod_cast Nat.lt_succ_iff.mp within) positive.le
  refine ⟨index, le_antisymm (last.trans most) ?_⟩
  push_cast at first
  linarith

theorem years_simulated_eq (starts : world.clock = 0) (denotes : period.Denotes length)
    (positive : 0 < length) (ticked : (World.ticks count period world).Reaches last) :
    (world.simulated period interval count).Reaches ⟨last, ()⟩ ∧
      (world.simulated period interval count).years = yearsBegun length count := by
  refine World.years_simulated ⟨_, yearsOf_eq denotes count⟩ ticked fun index _ before earlier => ?_
  have clock := World.clock_ticks starts denotes earlier
  rw [World.noteworthyYear_eq, clock]
  rw [clock]
  exact mul_nonneg (Nat.cast_nonneg _) positive.le

/-- What years a simulation of a world notes from its beginning on, in exact arithmetic, wherever
its ticks complete. They are fiftieth years that the clock enters, each as often as a tick starts in
its first day. Each of them is noted once, whatever the number of ticks, just where the ticks last a
day at least and fifty years are a number of them. -/
theorem fiftieth_years_noted (starts : world.clock = 0) (denotes : period.Denotes length)
    (positive : 0 < length) :
    (∀ count last, (World.ticks count period world).Reaches last →
      (world.simulated period interval count).Reaches ⟨last, ()⟩ ∧
      (world.simulated period interval count).years = yearsBegun length count ∧
      (∀ year ∈ (world.simulated period interval count).years,
        50 ∣ year ∧ 0 ≤ year ∧ 360 * (year : ℝ) < count * length) ∧
      (∀ year, 50 ∣ year → (world.simulated period interval count).years.count year =
        Set.ncard {index : ℕ | index < count ∧ 360 * (year : ℝ) ≤ index * length ∧
          index * length < 360 * (year : ℝ) + 1}) ∧
      (1 ≤ length → (∃ times : ℕ, times * length = 18000) →
        EachOnce length count (world.simulated period interval count).years)) ∧
    ((∀ count, (World.ticks count period world).completes = true) →
      ((∀ count, EachOnce length count (world.simulated period interval count).years) ↔
        1 ≤ length ∧ ∃ times : ℕ, times * length = 18000)) := by
  constructor
  · intro count last ticked
    obtain ⟨reached, years⟩ := @years_simulated_eq _ _ _ _ interval _ starts denotes positive ticked
    refine ⟨reached, years, ?_, ?_, ?_⟩
    · rw [years]
      exact fun year => only_of_mem_yearsBegun positive
    · rw [years]
      exact fun year => count_yearsBegun
    · rw [years]
      rintro least ⟨times, fifty⟩
      exact eachOnce_yearsBegun least fifty count
  · intro completes
    have years (count : Nat) :
        (world.simulated period interval count).years = yearsBegun length count :=
      (years_simulated_eq starts denotes positive
        (Outcome.completes_iff_reaches_state.mp (completes count))).2
    simp only [years]
    constructor
    · exact fun law => ⟨one_le_of_eachOnce positive (law 2), exists_fifty_of_eachOnce positive law⟩
    · rintro ⟨least, times, fifty⟩ count
      exact eachOnce_yearsBegun least fifty count

end exact

namespace World

/-- The mills get through any number of ticks of any length. -/
theorem completes_ticks_mills {period : Given ℝ} {length : ℝ} (denotes : period.Denotes length)
    (positive : 0 < length) (count : Nat) : (ticks count period mills).completes = true := by
  rw [ticks_eq_run]
  refine Outcome.completes_iff_exists_reaches.mpr (exists_reaches_run (Rules.ofExact_denotes _)
    ExactRules.standard_admissible.safe ExactRules.standard_exponent_nonneg Catalog.mill_valid
    mills_indexed fun given member => ?_)
  rw [List.eq_of_mem_replicate member]
  exact ⟨length, positive.le, denotes⟩

theorem fiftieth_years_noted_mills :
    (Given.whole 90 : Given ℝ).Denotes 90 ∧
      (∀ count, (ticks count (.whole 90) mills).completes = true) ∧
      ∀ count, EachOnce 90 count (mills.simulated (.whole 90) ⟨.whole 1⟩ count).years := by
  have quarter : (Given.whole 90 : Given ℝ).Denotes 90 := by
    have whole : (Given.whole 90 : Given ℝ).Denotes ((90 : Int) : ℝ) := .whole rfl
    norm_num at whole
    exact whole
  have completes := completes_ticks_mills quarter (by norm_num)
  refine ⟨quarter, completes, ?_⟩
  exact ((fiftieth_years_noted rfl quarter (by norm_num)).2 completes).mpr
    ⟨by norm_num, 200, by norm_num⟩

/-- Ticks of half a day note their first year twice; ticks of sixteen thousand days enter the years
fifty and a hundred, and note neither. -/
theorem first_days_met_twice_or_never :
    (ticks 2 (.real (1 / 2)) mills).completes = true ∧
      (mills.simulated (.real (1 / 2)) ⟨.whole 1⟩ 2).years = [0, 0] ∧
      (ticks 3 (.real 16000) mills).completes = true ∧
      (mills.simulated (.real 16000) ⟨.whole 1⟩ 3).years = [0] ∧
      360 * (100 : ℝ) < (3 : ℕ) * 16000 := by
  have half := completes_ticks_mills (.real (1 / 2)) (by norm_num) 2
  have long := completes_ticks_mills (.real 16000) (by norm_num) 3
  have noted {length : ℝ} (positive : 0 < length) {count : Nat}
      (completes : (ticks count (.real length) mills).completes = true) :
      (mills.simulated (.real length) ⟨.whole 1⟩ count).years = yearsBegun length count :=
    (years_simulated_eq rfl (.real length) positive
      (Outcome.completes_iff_reaches_state.mp completes)).2
  have start : yearBegun 0 = some 0 :=
    yearBegun_eq_some_iff.mpr ⟨dvd_zero _, by norm_num, by norm_num⟩
  refine ⟨half, ?_, long, ?_, by norm_num⟩
  · have soon : yearBegun (1 / 2) = some 0 :=
      yearBegun_eq_some_iff.mpr ⟨dvd_zero _, by norm_num, by norm_num⟩
    rw [noted (by norm_num) half, yearsBegun_succ, yearsBegun_succ, Nat.cast_zero, zero_mul,
      Nat.cast_one, one_mul, start, soon]
    rfl
  · have first : yearBegun 16000 = none := @yearBegun_eq_none _ 44 (by norm_num) (by norm_num)
    have second : yearBegun ((2 : ℕ) * 16000) = none :=
      @yearBegun_eq_none _ 88 (by norm_num) (by norm_num)
    rw [noted (by norm_num) long, yearsBegun_succ, yearsBegun_succ, yearsBegun_succ, Nat.cast_zero,
      zero_mul, Nat.cast_one, one_mul, start, first, second]
    rfl

end World

end Settlement
