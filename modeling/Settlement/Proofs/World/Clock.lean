import Settlement.Proofs.Binary64.Order
import Settlement.Proofs.World.Finite
/-!
The clock of a world. A tick of no length changes nothing, and one that would go back changes
nothing where there is a site. So whatever ticks are attempted, those that fail included, the clock
of a world with a site does not go back. The sites alone guard it: without any it does go back.
-/
namespace Settlement

namespace World

section attempts

variable {R : Type} [Scalar R] {world : World R} {days : Given R}

/-- What a world is after some ticks were attempted, whether or not they failed. -/
def attempt (lengths : List (Given R)) (world : World R) : World R :=
  lengths.foldl (fun world days => (world.tick days).state) world

/-- A tick of no length leaves everything to the clock. -/
theorem tick_of_zero (forwards : days.isNegative = .ok false) (zero : days.isZero = true) :
    world.tick days = advanceClock days world := by
  have still (id : Name) : tickSite days id world = .done world := by
    rw [tickSite, forwards, Outcome.given_ok, if_neg Bool.false_ne_true, if_pos zero]
  have sites (ids : List Name) : Outcome.each ids (tickSite days) world = .done world := by
    induction ids with
    | nil => rfl
    | cons id rest ih => rw [Outcome.each_cons, still, Outcome.done_andThen, ih]
  rw [tick, sites, Outcome.done_andThen]

/-- The first site refuses a tick that would go back. -/
theorem tick_of_backwards (backwards : days.isNegative = .ok true)
    (inhabited : world.siteIds ≠ []) :
    world.tick days = .failed world (.backwards days.number) := by
  obtain ⟨id, rest, ids⟩ := List.exists_cons_of_ne_nil inhabited
  have refused : tickSite days id world = .failed world (.backwards days.number) := by
    rw [tickSite, backwards, Outcome.given_ok, if_pos rfl]
  rw [tick, ids, Outcome.each_cons, refused, Outcome.failed_andThen, Outcome.failed_andThen]

/-- Whatever becomes of its sites, there are some if there were, and catalog and clock stay. -/
structure Stays (world reached : World R) : Prop where
  inhabited : world.siteIds ≠ [] → reached.siteIds ≠ []
  catalog : reached.catalog = world.catalog
  clock : reached.clock = world.clock

omit [Scalar R] in
theorem siteIds_putEconomy_ne_nil (world : World R) (site : Site R) (economy : Economy R) :
    (world.putEconomy site economy).siteIds ≠ [] := by
  intro none
  have keys : (world.putEconomy site economy).sites.keys = [] := by
    simpa [siteIds, OrderedMap.values, OrderedMap.keys] using none
  rw [putEconomy, OrderedMap.keys_insert] at keys
  split at keys
  · rename_i present
    rw [keys] at present
    cases present
  · exact List.append_ne_nil_of_right_ne_nil _ (List.cons_ne_nil _ _) keys

theorem stays_tickSites (world : World R) (days : Given R) (ids : List Name) :
    world.Stays (Outcome.each ids (tickSite days) world).state := by
  refine Outcome.state_each_keeps world.Stays (fun id _ reached stays => ?_) ⟨id, rfl, rfl⟩
  obtain same | ⟨site, _, put⟩ := state_tickSite_eq_or days id reached
  · rwa [same]
  · rw [put]
    exact ⟨fun _ => siteIds_putEconomy_ne_nil _ _ _, stays.catalog, stays.clock⟩

/-- Whether or not a tick fails, it moves the clock by its length or leaves it. -/
theorem exists_stays_tick (world : World R) (days : Given R) :
    ∃ reached, world.Stays reached ∧ ((world.tick days).state = reached ∨
      ∃ length, days.operand (.notOperand "+=" .real) = .ok length ∧
        (world.tick days).state = { reached with clock := world.clock + length }) := by
  have stays := world.stays_tickSites days world.siteIds
  refine ⟨_, stays, ?_⟩
  unfold tick
  cases complete : (Outcome.each world.siteIds (tickSite days) world).completes with
  | false => exact .inl (congrArg Outcome.state (Outcome.andThen_of_not_completes complete _))
  | true =>
    rw [Outcome.state_andThen complete, advanceClock, ← stays.clock]
    cases days.operand (.notOperand "+=" .real) with
    | error fault => exact .inl rfl
    | ok length => exact .inr ⟨length, rfl, rfl⟩

/-- A tick that completes moves the clock by its length. -/
theorem clock_of_reaches_tick {after : World R} (ticked : (world.tick days).Reaches after) :
    ∃ length, days.operand (.notOperand "+=" .real) = .ok length ∧
      after.clock = world.clock + length := by
  obtain ⟨reached, sites, moves⟩ := Outcome.reaches_andThen.mp ticked
  obtain ⟨length, read, moved⟩ := Outcome.reaches_given.mp moves
  obtain rfl := Outcome.reaches_done.mp moved
  have stays := world.stays_tickSites days world.siteIds
  rw [sites.state_eq] at stays
  exact ⟨length, read, congrArg (· + length) stays.clock⟩

theorem catalog_tick (world : World R) (days : Given R) :
    (world.tick days).state.catalog = world.catalog := by
  obtain ⟨reached, stays, same | ⟨length, _, moved⟩⟩ := world.exists_stays_tick days
  · exact same ▸ stays.catalog
  · rw [moved]
    exact stays.catalog

theorem siteIds_tick_ne_nil (inhabited : world.siteIds ≠ []) (days : Given R) :
    (world.tick days).state.siteIds ≠ [] := by
  obtain ⟨reached, stays, same | ⟨length, _, moved⟩⟩ := world.exists_stays_tick days
  · exact same ▸ stays.inhabited inhabited
  · rw [moved]
    exact stays.inhabited inhabited

theorem siteIds_attempt_ne_nil (inhabited : world.siteIds ≠ []) (lengths : List (Given R)) :
    (world.attempt lengths).siteIds ≠ [] := by
  induction lengths generalizing world with
  | nil => exact inhabited
  | cons days rest ih => exact ih (siteIds_tick_ne_nil inhabited days)

end attempts

section binary64

open Binary64 (IsFinite)

variable {world : World Float} {days : Given Float} {length : Float} {fault : Document.Kind → Fault}

theorem forwards_of_zero (zero : days.isZero = true) : days.isNegative = .ok false := by
  cases days with
  | truth value =>
    cases value with
    | false => rfl
    | true => cases zero
  | whole value =>
    obtain rfl : value = 0 := eq_of_beq zero
    rfl
  | real value =>
    obtain ⟨sign, shape⟩ := Binary64.unpack_of_beq_zero zero
    have apart : ¬value < 0 := by
      rw [Binary64.not_lt_zero_iff, shape]
      rfl
    exact congrArg Except.ok (Bool.eq_false_iff.mpr fun below =>
      apart (Binary64.isBelow_zero_iff.mp below))
  | other kind => cases zero

theorem exists_length_of_zero (zero : days.isZero = true) (fault : Document.Kind → Fault) :
    ∃ length sign, days.operand fault = .ok length ∧ length.toModel.unpack = .zero sign := by
  cases days with
  | truth value =>
    cases value with
    | false => exact ⟨0, .positive, rfl, rfl⟩
    | true => cases zero
  | whole value =>
    obtain rfl : value = 0 := eq_of_beq zero
    exact ⟨0, .positive, rfl, rfl⟩
  | real value =>
    obtain ⟨sign, shape⟩ := Binary64.unpack_of_beq_zero zero
    exact ⟨value, sign, rfl, shape⟩
  | other kind => cases zero

/-- A length that is not negative is none either as a real. -/
theorem nonneg_of_forwards (within : days.Within IsFinite) (forwards : days.isNegative ≠ .ok true)
    (read : days.operand fault = .ok length) : IsFinite length ∧ 0 ≤ length := by
  have nonneg {x : Float} (finite : IsFinite x) (apart : ¬x < 0) : IsFinite x ∧ 0 ≤ x :=
    ⟨finite, (Binary64.not_lt_zero_iff_nonneg
      (Binary64.isNaN_of_isFinite (Binary64.finite_iff.mp finite))).mp apart⟩
  have whole {value : Int} (low : 0 ≤ value) (read : Scalar.ofWhole value = .ok length) :
      IsFinite length ∧ 0 ≤ length := by
    obtain ⟨count, rfl⟩ := Int.eq_ofNat_of_zero_le low
    have read : Binary64.ofWhole count = .ok length := read
    simp only [Binary64.ofWhole, Number.toFloat?] at read
    by_cases finite : (Float.ofInt count).isFinite = true
    · rw [if_pos finite] at read
      cases read
      exact nonneg finite (Binary64.not_ofNat_lt_zero count)
    · rw [if_neg finite] at read
      cases read
  cases days with
  | truth value =>
    refine whole ?_ read
    cases value <;> decide
  | whole value =>
    refine whole (not_lt.mp fun below => forwards ?_) read
    rw [Given.isNegative_whole, decide_eq_true below]
  | real value =>
    cases read
    refine nonneg within fun below => forwards ?_
    exact congrArg Except.ok (Binary64.isBelow_zero_iff.mpr below)
  | other kind => cases read

/-- No attempted tick takes the clock back. -/
theorem clock_le_tick (number : world.clock.isNaN = false) (within : days.Within IsFinite)
    (guarded : world.siteIds = [] → days.isNegative ≠ .ok true) :
    world.clock ≤ (world.tick days).state.clock := by
  by_cases backwards : days.isNegative = .ok true
  · rw [tick_of_backwards backwards fun none => guarded none backwards]
    exact Binary64.le_refl_of_number number
  · obtain ⟨reached, stays, same | ⟨length, read, moved⟩⟩ := world.exists_stays_tick days
    · rw [same, stays.clock]
      exact Binary64.le_refl_of_number number
    · obtain ⟨finite, nonneg⟩ := nonneg_of_forwards within backwards read
      rw [moved]
      exact Binary64.le_add_of_nonneg number finite nonneg

theorem clock_le_attempt {lengths : List (Given Float)} (number : world.clock.isNaN = false)
    (within : ∀ days ∈ lengths, days.Within IsFinite)
    (guarded : world.siteIds = [] → ∀ days ∈ lengths, days.isNegative ≠ .ok true) :
    world.clock ≤ (world.attempt lengths).clock := by
  induction lengths generalizing world with
  | nil => exact Binary64.le_refl_of_number number
  | cons days rest ih =>
    have first := clock_le_tick number (within days (by simp))
      fun none => guarded none days (by simp)
    refine Binary64.le_trans_of_le first (ih (Binary64.numbers_of_le first).2
      (fun other member => within other (by simp [member])) fun none other member => ?_)
    exact guarded (by_contra fun some => siteIds_tick_ne_nil some days none) other
      (by simp [member])

/-- Whatever a world consists of, a tick of no length changes nothing in it, except that the other
zero may become zero as its clock. Where there is a site, one of a negative length fails and changes
nothing. So the clock does not go back over any ticks that are attempted, whether they fail or not;
without any site, only if none of them is of a negative length. -/
theorem clock_never_goes_back (world : World Float) :
    (∀ days : Given Float, days.isZero = true →
      ∃ clock, world.tick days = .done { world with clock } ∧
        (clock = world.clock ∨ world.clock = -0.0 ∧ clock = 0.0)) ∧
    (world.siteIds ≠ [] → ∀ days : Given Float, days.isNegative = .ok true →
      world.tick days = .failed world (.backwards days.number)) ∧
    ∀ before more : List (Given Float), world.clock.isNaN = false →
      (∀ days ∈ before ++ more, days.Within IsFinite) →
      (world.siteIds = [] → ∀ days ∈ before ++ more, days.isNegative ≠ .ok true) →
      (world.attempt before).clock ≤ (world.attempt (before ++ more)).clock := by
  refine ⟨fun days zero => ?_, fun inhabited days backwards => ?_,
    fun before more number within guarded => ?_⟩
  · obtain ⟨length, sign, read, shape⟩ := exists_length_of_zero zero (.notOperand "+=" .real)
    refine ⟨world.clock + length, ?_, ?_⟩
    · rw [tick_of_zero (forwards_of_zero zero) zero, advanceClock, read, Outcome.given_ok]
    · obtain same | ⟨start, sum⟩ := Binary64.add_eq_of_zero (x := world.clock) shape
      · exact .inl same
      · exact .inr ⟨(Binary64.eq_of_unpack start).symm, (Binary64.eq_of_unpack sum).symm⟩
  · exact tick_of_backwards backwards inhabited
  · have first : world.clock ≤ (world.attempt before).clock :=
      clock_le_attempt number (fun days member => within days (by simp [member]))
        fun none days member => guarded none days (by simp [member])
    have onwards : world.attempt (before ++ more) = (world.attempt before).attempt more :=
      List.foldl_append
    rw [onwards]
    refine clock_le_attempt (Binary64.numbers_of_le first).2
      (fun days member => within days (by simp [member])) fun none days member => ?_
    exact guarded (by_contra fun some => siteIds_attempt_ne_nil some before none) days
      (by simp [member])

theorem clock_never_goes_back_orchard :
    (∃ clock, orchard.tick (.real (-0.0)) = .done { orchard with clock } ∧
      (clock = orchard.clock ∨ orchard.clock = -0.0 ∧ clock = 0.0)) ∧
    orchard.tick (.whole (-1)) = .failed orchard (.backwards (.whole (-1))) ∧
    (orchard.attempt [.real 90.0]).clock ≤
      (orchard.attempt ([.real 90.0] ++ [.whole (-1), .other .text, .truth true])).clock := by
  obtain ⟨still, refused, onwards⟩ := clock_never_goes_back orchard
  have inhabited : orchard.siteIds ≠ [] := List.cons_ne_nil _ _
  refine ⟨still _ (by decide +kernel), refused inhabited _ rfl, onwards _ _ rfl ?_ ?_⟩
  · intro days member
    simp only [List.cons_append, List.nil_append, List.mem_cons, List.not_mem_nil, or_false]
      at member
    rcases member with rfl | rfl | rfl | rfl
    · rfl
    all_goals trivial
  · exact fun none => absurd none inhabited

/-- The configuration of a world without sites. -/
def unsettled : Document := .object [("num_sites", .whole 0)]

/-- Whether a tick of some length completes and takes the clock back. -/
def goesBack (days : Given Float) (world : World Float) : Bool :=
  let ticked := world.tick days
  ticked.completes && decide (ticked.state.clock < world.clock)

/-- No site refuses a tick that would go back in a world that has none, and its clock goes back. -/
theorem unsettled_goes_back : ∃ config world,
    Config.read (unsettled.write (.full none)) = .ok config ∧
    (config.buildWorld .none).outcome.1 = .ok world ∧
    (world.tick (.real (-1.0))).completes = true ∧
    (world.tick (.real (-1.0))).state.clock < world.clock := by
  have goes : ((Config.read (unsettled.write (.full none))).toOption.any fun config =>
      (config.buildWorld .none).outcome.1.toOption.any (goesBack (.real (-1.0)))) = true := by
    decide +kernel
  simp only [Option.any_eq_true] at goes
  obtain ⟨config, read, world, built, back⟩ := goes
  obtain ⟨completes, back⟩ := Bool.and_eq_true_iff.mp back
  exact ⟨config, world, eq_ok_of_toOption_eq_some read, eq_ok_of_toOption_eq_some built, completes,
    of_decide_eq_true back⟩

end binary64

end World

end Settlement
