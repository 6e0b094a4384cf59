import Settlement.Proofs.Reading
import Settlement.Proofs.World.Run
/-!
What the phases of a tick write. Those after the market leave values and prices alone, also where a
fault stops them, so what a tick does to values is what the market does.
-/
namespace Settlement

variable {R : Type}

/-- Every good that is priced has a value of a kind. -/
def Economy.Valued (kind : R → Prop) (economy : Economy R) : Prop :=
  ∀ (good : Good) value, economy.values[good] = some value → kind value

/-- Every good that is priced at a site has a value of a kind. -/
def World.Valued (kind : R → Prop) (world : World R) : Prop :=
  ∀ site ∈ world.sites.values, site.economy.Valued kind

theorem Economy.Valued.of_values {kind : R → Prop} {economy after : Economy R}
    (valued : economy.Valued kind) (same : after.values = economy.values) : after.Valued kind := by
  intro good value priced
  rw [same] at priced
  exact valued good value priced

/-- The rule gives only values of a kind to goods that had such values, or none. -/
def ValueRule.KeepsKind [Scalar R] (kind : R → Prop) (rule : ValueRule R) : Prop :=
  ∀ bounds, rule.bounds = .ok bounds → ∀ (good : Good) previous surplus demand,
    (∀ old, previous = some old → kind old) →
      Gives (fun value => ∀ new, value = some new → kind new)
        (rule.next bounds[good] previous surplus demand)

namespace Economy

variable [Scalar R] {economy : Economy R} {rules : Rules R} {catalog : Catalog R}

theorem trade_frame {totals : Totals R} : ∃ surplus marginalSurplus values prices,
    (economy.trade rules totals).state =
      { economy with surplus, marginalSurplus, values, prices } := by
  let kept (after : Economy R) : Prop := ∃ surplus marginalSurplus values prices,
    after = { economy with surplus, marginalSurplus, values, prices }
  have start : kept (economy.withSurplus totals) := ⟨_, _, _, _, rfl⟩
  refine Outcome.state_andThen_keeps kept ?_ ?_
  · refine Outcome.state_given_keeps kept start fun bounds _ => ?_
    refine Outcome.state_each_keeps kept ?_ start
    intro good _ running held
    refine Outcome.state_given_keeps kept held fun value _ => ?_
    obtain ⟨_, _, _, _, rfl⟩ := held
    exact ⟨_, _, _, _, rfl⟩
  · intro valued held
    refine Outcome.state_given_keeps kept held fun ceilings _ => ?_
    obtain ⟨_, _, _, _, rfl⟩ := held
    exact ⟨_, _, _, _, rfl⟩

theorem employ_frame : ∃ shares, (employ rules catalog economy).state = { economy with shares } := by
  let kept (after : Economy R) : Prop := ∃ shares, after = { economy with shares }
  have start : kept economy := ⟨economy.shares, rfl⟩
  have reallocates : Gives (fun moved : R × Economy R => kept moved.2)
      (economy.reallocate rules.labor catalog.outputs) := by
    refine (gives_any _).bind fun total _ => (gives_any _).bind fun floor _ => ?_
    split
    · exact .ok start
    · refine (gives_any _).bind fun smoothing _ => (gives_any _).bind fun total _ => ?_
      split
      · exact .error trivial
      · exact .ok ⟨_, rfl⟩
  refine Outcome.state_given_keeps kept start fun moved success => ?_
  exact reallocates.kind_of_eq_ok success

theorem runGroup_frame {outputs : OrderedMap Labor (Output R)} {exponent : Given R}
    {before demand : Table Good R} {group : OrderGroup R} :
    ∃ stocks productivity yields, (runGroup outputs exponent before demand group economy).state =
      { economy with stocks, productivity, yields } := by
  let kept (after : Economy R) : Prop :=
    ∃ stocks productivity yields, after = { economy with stocks, productivity, yields }
  unfold runGroup
  split
  · exact ⟨_, _, _, rfl⟩
  · dsimp only
    split
    · exact ⟨_, _, _, rfl⟩
    · split
      · exact ⟨_, _, _, rfl⟩
      · exact Outcome.state_given_keeps kept ⟨_, _, _, rfl⟩ fun _ _ => ⟨_, _, _, rfl⟩

theorem produce_frame {exponent : Given R} {demand : Table Good R} :
    ∃ stocks productivity yields, (economy.produce catalog exponent demand).state =
      { economy with stocks, productivity, yields } := by
  let kept (running : Economy R) : Prop :=
    ∃ stocks productivity yields, running = { economy with stocks, productivity, yields }
  have start : kept economy := ⟨_, _, _, rfl⟩
  refine Outcome.state_each_keeps kept ?_ start
  intro group _ running held
  obtain ⟨_, _, _, rfl⟩ := held
  obtain ⟨stocks, productivity, yields, frame⟩ : ∃ stocks productivity yields,
      (runGroup catalog.outputs exponent economy.stocks demand group _).state = _ := runGroup_frame
  exact ⟨stocks, productivity, yields, frame⟩

theorem renew_frame {decay : Table Good R} {replenisher : Replenisher R} {days : Given R} :
    ∃ population stocks, (renew rules decay replenisher days economy).state =
      { economy with population, stocks } := by
  unfold renew growPopulation
  generalize grown _ rules.demography days = reading
  cases reading with
  | error fault => exact ⟨_, _, rfl⟩
  | ok population =>
    rw [Outcome.given_ok]
    unfold peopled
    split
    · exact ⟨_, _, rfl⟩
    · exact ⟨_, _, rfl⟩

variable {kind : R → Prop}

/-- A tick leaves no values of another kind, also where a fault stops it. -/
theorem Valued.tick (valued : economy.Valued kind) (gives : rules.values.KeepsKind kind)
    (decay : Table Good R) (replenisher : Replenisher R) (days : Given R) :
    (economy.tick rules catalog decay replenisher days).state.Valued kind := by
  have traded : (economy.trade rules (economy.totals catalog)).state.Valued kind := by
    refine Outcome.state_andThen_keeps _ ?_ ?_
    · refine Outcome.state_given_keeps _ valued fun bounds read => ?_
      refine Outcome.state_each_keeps _ ?_ valued
      intro good _ running held
      refine Outcome.state_given_keeps _ held fun value success other new priced => ?_
      have given := (gives bounds read good _ _ _ (held good)).kind_of_eq_ok success
      rw [withValue, Outcome.noted, Table.getElem_set] at priced
      split at priced
      · exact given new priced
      · exact held other new priced
    · intro moved held
      exact Outcome.state_given_keeps _ held fun _ _ => held
  refine Outcome.state_andThen_keeps _ ?_ ?_
  · refine Outcome.state_andThen_keeps _ ?_ ?_
    · refine Outcome.state_andThen_keeps _ traded fun moved held => ?_
      obtain ⟨shares, frame⟩ : ∃ shares, (employ rules catalog moved).state = _ := employ_frame
      exact held.of_values (by rw [frame])
    · intro staffed held
      obtain ⟨stocks, productivity, yields, frame⟩ : ∃ stocks productivity yields,
        (staffed.produce catalog rules.exponent (economy.totals catalog).demand).state = _ :=
          produce_frame
      exact held.of_values (by rw [frame])
  · intro produced held
    obtain ⟨population, stocks, frame⟩ : ∃ population stocks,
      (renew rules decay replenisher days produced).state = _ := renew_frame
    exact held.of_values (by rw [frame])

end Economy

namespace World

variable [Scalar R] {kind : R → Prop} {world : World R}

theorem Valued.tickSite (valued : world.Valued kind) (gives : world.rules.values.KeepsKind kind)
    (days : Given R) (id : Name) : (World.tickSite days id world).state.Valued kind := by
  obtain same | ⟨site, found, put⟩ := state_tickSite_eq_or days id world
  · rwa [same]
  · rw [put]
    intro other member
    obtain ⟨entry, present, rfl⟩ := List.mem_map.mp member
    rcases OrderedMap.eq_or_mem_of_mem_place present with new | old
    · rw [new]
      exact (valued site (mem_values_of_site found)).tick gives _ _ _
    · exact valued entry.2 (List.mem_map_of_mem old)

theorem rules_tickSite (days : Given R) (id : Name) (world : World R) :
    (World.tickSite days id world).state.rules = world.rules := by
  obtain same | ⟨site, _, put⟩ := state_tickSite_eq_or days id world
  · rw [same]
  · rw [put]
    rfl

theorem rules_tick (days : Given R) (world : World R) :
    (world.tick days).state.rules = world.rules := by
  let kept (after : World R) : Prop := after.rules = world.rules
  refine Outcome.state_andThen_keeps kept ?_ fun moved held => ?_
  · refine Outcome.state_each_keeps kept (fun id _ running held => ?_) rfl
    exact (rules_tickSite days id running).trans held
  · exact Outcome.state_given_keeps kept held fun _ _ => held

/-- A tick of a world leaves no values of another kind, also where a fault stops it. -/
theorem Valued.tick (valued : world.Valued kind) (gives : world.rules.values.KeepsKind kind)
    (days : Given R) : (world.tick days).state.Valued kind := by
  let kept (after : World R) : Prop := after.rules = world.rules ∧ after.Valued kind
  have ticked : kept (Outcome.each world.siteIds (World.tickSite days) world).state := by
    refine Outcome.state_each_keeps kept ?_ ⟨rfl, valued⟩
    intro id _ running held
    exact ⟨(rules_tickSite days id running).trans held.1,
      held.2.tickSite (held.1 ▸ gives) days id⟩
  refine Outcome.state_andThen_keeps _ ticked.2 fun moved held => ?_
  exact Outcome.state_given_keeps _ held fun _ _ => held

end World

end Settlement
