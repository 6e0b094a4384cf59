import Settlement.Proofs.Stopping
import Settlement.Proofs.World.Frame
import Settlement.Proofs.World.Interrupted
/-!
Ticks that a fault stops. The fault strikes at one site: those before it have had their whole tick,
those behind it have had none of it, and the site itself keeps its people, because they are counted
last. What production refuses is the first group that orders nothing.
-/
namespace Settlement

namespace Economy

section population

variable {R : Type} [Scalar R] {economy after : Economy R} {rules : Rules R} {catalog : Catalog R}
  {decay : Table Good R} {replenisher : Replenisher R} {days : Given R} {fault : Fault}

/-- People are counted last, so a tick that a fault stops has not moved them. -/
theorem population_of_stops_tick
    (stops : (economy.tick rules catalog decay replenisher days).Stops fault after) :
    after.population = economy.population := by
  let kept (reached : Economy R) : Prop := reached.population = economy.population
  have traded : kept (economy.trade rules (economy.totals catalog)).state := by
    obtain ⟨_, _, _, _, frame⟩ : ∃ surplus marginalSurplus values prices,
      (economy.trade rules (economy.totals catalog)).state = _ := trade_frame
    simp only [kept, frame]
  have staffed : kept ((economy.trade rules (economy.totals catalog)).andThen
      (employ rules catalog)).state := by
    refine Outcome.state_andThen_keeps kept traded fun moved held => ?_
    obtain ⟨_, frame⟩ : ∃ shares, (employ rules catalog moved).state = _ := employ_frame
    simpa only [kept, frame] using held
  have produced : kept (((economy.trade rules (economy.totals catalog)).andThen
      (employ rules catalog)).andThen fun staffed =>
        staffed.produce catalog rules.exponent (economy.totals catalog).demand).state := by
    refine Outcome.state_andThen_keeps kept staffed fun moved held => ?_
    obtain ⟨_, _, _, frame⟩ : ∃ stocks productivity yields,
      (moved.produce catalog rules.exponent (economy.totals catalog).demand).state = _ :=
        produce_frame
    simpa only [kept, frame] using held
  rw [tick, Outcome.stops_andThen] at stops
  rcases stops with early | ⟨reached, before, late⟩
  · exact early.state_eq ▸ produced
  · have held : reached.population = economy.population := before.state_eq ▸ produced
    rcases Outcome.stops_given.mp late with ⟨_, rfl⟩ | ⟨population, _, peopled⟩
    · exact held
    · unfold Economy.peopled at peopled
      split at peopled
      · exact absurd peopled Outcome.not_stops_noted
      · exact absurd peopled Outcome.not_stops_done

/-- A tick that goes through has read its length. -/
theorem exists_operand_of_reaches_tick
    (ticked : (economy.tick rules catalog decay replenisher days).Reaches after)
    (fault : Document.Kind → Fault) : ∃ length, days.operand fault = .ok length := by
  obtain ⟨produced, _, renewed⟩ := Outcome.reaches_andThen.mp ticked
  obtain ⟨population, grown, _⟩ := Outcome.reaches_given.mp renewed
  unfold Economy.grown at grown
  cases days with
  | other kind => cases grown
  | real value => exact ⟨value, rfl⟩
  | truth value | whole value =>
    simp only [Given.operand] at grown ⊢
    cases read : (Scalar.ofWhole _ : Except Fault R) with
    | ok length => exact ⟨length, rfl⟩
    | error fault =>
      rw [read] at grown
      cases grown

end population

section production

variable {economy after : Economy Float} {catalog : Catalog Float} {exponent : Given Float}
  {demand : Table Good Float}

/-- No arithmetic finds fault with a recipe. -/
private abbrev IsArithmetic (reading : Except Fault Float) : Prop :=
  Reads (fun _ => True) (fun fault => fault.category ≠ .recipe) reading

private theorem isArithmetic_power (base exponent : Float) :
    IsArithmetic (Scalar.power base exponent) := by
  have choice {condition : Prop} [Decidable condition] {first second : Except Fault Float}
      (yes : IsArithmetic first) (no : IsArithmetic second) :
      IsArithmetic (if condition then first else second) := by
    split
    · exact yes
    · exact no
  have finite : IsArithmetic (Binary64.finitePower base exponent) :=
    choice (choice (.error nofun) reads_ok) (choice (.error nofun) reads_ok)
  show IsArithmetic (Binary64.power base exponent)
  exact choice reads_ok (choice reads_ok (choice reads_ok (choice reads_ok (choice reads_ok
    (choice (choice (.error nofun) reads_ok) finite)))))

private theorem isArithmetic_operand (value : Given Float) (operation : String) :
    IsArithmetic (value.operand (.notOperand operation .real)) := by
  have ofWhole (value : Int) : IsArithmetic (Scalar.ofWhole value) := by
    show IsArithmetic (Binary64.ofWhole value)
    unfold Binary64.ofWhole
    split
    · exact reads_ok
    · exact .error nofun
  cases value with
  | truth value => exact ofWhole _
  | whole value => exact ofWhole value
  | real value => exact reads_ok
  | other kind => exact .error nofun

private theorem isArithmetic_effort (labor : Labor) :
    IsArithmetic (economy.effort labor exponent) := by
  unfold effort
  exact (isArithmetic_operand exponent _).bind fun _ _ => isArithmetic_power _ _

/-- Production finds fault with a recipe only where a group orders nothing, and it comes to the
first such group. -/
theorem exists_group_of_stops_produce {labor : Option Labor} {defect : RecipeDefect}
    (stops : (economy.produce catalog exponent demand).Stops (.recipe labor defect) after) :
    defect = .noInputs ∧ ∃ groups group rest, catalog.orders = groups ++ group :: rest ∧
      (∀ earlier ∈ groups, earlier.inputs ≠ []) ∧ group.inputs = [] ∧ group.labor = labor := by
  obtain ⟨groups, group, rest, running, split, before, stops⟩ := stops.exists_item
  have earlier : ∀ earlier ∈ groups, earlier.inputs ≠ [] := by
    intro earlier member none
    obtain ⟨first, second, ran⟩ := before.exists_step member
    simp [runGroup, none] at ran
  unfold runGroup at stops
  split at stops
  · rename_i empty
    obtain ⟨same, _⟩ := Outcome.stops_failed.mp stops
    obtain ⟨head, rfl⟩ := Fault.recipe.inj same
    exact ⟨rfl, groups, group, rest, split, earlier, List.isEmpty_iff.mp empty, head⟩
  · dsimp only at stops
    split at stops
    · exact absurd stops Outcome.not_stops_done
    · split at stops
      · cases (Outcome.stops_failed.mp stops).1
      · rcases Outcome.stops_given.mp stops with ⟨failed, _⟩ | ⟨_, _, done⟩
        · exact absurd rfl ((isArithmetic_effort _).fits_of_eq_error failed)
        · exact absurd done Outcome.not_stops_done

end production

end Economy

namespace World

variable {R : Type} [Scalar R]

/-- What a tick of some days does to the economy of a site. -/
def economyTick (world : World R) (days : Given R) (site : Site R) : Outcome (Economy R) :=
  site.economy.tick world.rules world.catalog world.decay site.replenisher days

/-- The entry of a site with what a tick made of its economy, whether or not a fault stopped it. -/
def tickedEntry (world : World R) (days : Given R) (entry : Name.Key × Site R) :
    Name.Key × Site R :=
  (entry.1, { entry.2 with economy := (world.economyTick days entry.2).state })

/-- A fault struck at a site. The sites before it have ticked, those behind it have not, and what
is no economy is as it was. -/
structure StruckAt (world after : World R) (days : Given R) (fault : Fault)
    (front : List (Name.Key × Site R)) (entry : Name.Key × Site R)
    (back : List (Name.Key × Site R)) : Prop where
  sites : world.sites.entries = front ++ entry :: back
  completed : ∀ earlier ∈ front, (world.economyTick days earlier.2).completes = true
  stopped : (world.economyTick days entry.2).fault = some fault
  frame : after = { world with sites := after.sites }
  entries : after.sites.entries =
    front.map (world.tickedEntry days) ++ world.tickedEntry days entry :: back
  population : (world.economyTick days entry.2).state.population = entry.2.economy.population

variable {world after : World R} {days : Given R} {fault : Fault}

theorem tickSite_eq_economyTick (forwards : days.isNegative = .ok false)
    (moves : days.isZero = false) {site : Site R}
    (found : world.sites.find? site.id.key = some site) :
    tickSite days site.id world = (world.economyTick days site).map (world.putEconomy site) := by
  rw [tickSite_eq days found, lap, forwards, Outcome.given_ok, moves]
  rfl

/-- Induction on the sites that are still to tick. -/
private theorem exists_struckAt_of_stops_each (forwards : days.isNegative = .ok false)
    (moves : days.isZero = false) {front back : List (Name.Key × Site R)}
    (indexed : world.Indexed) (sites : world.sites.entries = front ++ back)
    (stops : (Outcome.each (back.map fun entry => entry.2.id) (tickSite days) world).Stops
      fault after) :
    ∃ done entry rest, back = done ++ entry :: rest ∧
      (∀ earlier ∈ done, (world.economyTick days earlier.2).completes = true) ∧
      (world.economyTick days entry.2).fault = some fault ∧
      after = { world with sites := after.sites } ∧
      after.sites.entries = front ++ (done.map (world.tickedEntry days) ++
        world.tickedEntry days entry :: rest) := by
  induction back generalizing world front with
  | nil => exact absurd stops Outcome.not_stops_done
  | cons entry rest ih =>
    have found := indexed.find?_id (by simp [sites] : entry ∈ world.sites.entries)
    have placed (economy : Economy R) : (world.putEconomy entry.2 economy).sites.entries =
        (front ++ [(entry.1, { entry.2 with economy })]) ++ rest := by
      simpa using putEconomy_entries indexed sites economy
    rw [List.map_cons, Outcome.each_cons, tickSite_eq_economyTick forwards moves found,
      Outcome.stops_andThen] at stops
    rcases stops with here | ⟨_, reaches, later⟩
    · obtain ⟨economy, stopped, rfl⟩ := Outcome.stops_map.mp here
      refine ⟨[], entry, rest, rfl, by simp, stopped.1, rfl, ?_⟩
      rw [placed, List.append_assoc, tickedEntry, stopped.state_eq]
      rfl
    · obtain ⟨economy, ticked, rfl⟩ := Outcome.reaches_map.mp reaches
      obtain ⟨done, struck, behind, split, complete, stopped, frame, entries⟩ :=
        ih (indexed.putEconomy economy) (placed economy) later
      refine ⟨entry :: done, struck, behind, by rw [split, List.cons_append], ?_, stopped, frame,
        ?_⟩
      · rw [List.forall_mem_cons, Outcome.completes_iff_exists_reaches]
        exact ⟨⟨economy, ticked⟩, complete⟩
      · have ended : (entry.1, { entry.2 with economy }) = world.tickedEntry days entry := by
          rw [tickedEntry, ticked.state_eq]
        rw [entries, List.append_assoc, ended]
        rfl

private theorem exists_operand_of_reaches_tickSite (moves : days.isZero = false) {id : Name}
    (ticked : (tickSite days id world).Reaches after) (fault : Document.Kind → Fault) :
    ∃ length, days.operand fault = .ok length := by
  obtain ⟨backwards, _, ticked⟩ := Outcome.reaches_given.mp ticked
  cases backwards with
  | true => exact absurd ticked Outcome.not_reaches_failed
  | false =>
    rw [moves, if_neg Bool.false_ne_true, if_neg Bool.false_ne_true] at ticked
    obtain ⟨site, _, ticked⟩ := Outcome.reaches_given.mp ticked
    obtain ⟨economy, ticked, _⟩ := Outcome.reaches_map.mp ticked
    exact Economy.exists_operand_of_reaches_tick ticked fault

/-- A tick that a fault stops is struck at one of its sites. Only where there are no sites can the
clock be the first to refuse the length of the tick. -/
theorem Indexed.exists_struckAt (indexed : world.Indexed) (forwards : days.isNegative = .ok false)
    (moves : days.isZero = false) (stops : (world.tick days).Stops fault after) :
    (world.sites.entries = [] ∧ after = world) ∨
      ∃ front entry back, world.StruckAt after days fault front entry back := by
  have ids : world.siteIds = world.sites.entries.map fun entry => entry.2.id := by
    simp [siteIds, OrderedMap.values, Function.comp_def]
  rw [tick, ids, Outcome.stops_andThen] at stops
  rcases stops with struck | ⟨ticked, reaches, clock⟩
  · obtain ⟨front, entry, back, split, complete, stopped, frame, entries⟩ :=
      exists_struckAt_of_stops_each forwards moves indexed (List.nil_append _).symm struck
    exact .inr ⟨front, entry, back, split, complete, stopped, frame, entries,
      Economy.population_of_stops_tick ⟨stopped, rfl⟩⟩
  · rcases Outcome.stops_given.mp clock with ⟨failed, rfl⟩ | ⟨_, _, done⟩
    · cases sites : world.sites.entries with
      | nil =>
        rw [sites] at reaches
        exact .inl ⟨rfl, (Outcome.reaches_each_nil.mp reaches).symm⟩
      | cons entry rest =>
        rw [sites, List.map_cons] at reaches
        obtain ⟨first, second, step⟩ := reaches.exists_step List.mem_cons_self
        obtain ⟨length, read⟩ :=
          exists_operand_of_reaches_tickSite moves step (.notOperand "+=" .real)
        rw [read] at failed
        cases failed
    · exact absurd done Outcome.not_stops_done

end World

end Settlement
