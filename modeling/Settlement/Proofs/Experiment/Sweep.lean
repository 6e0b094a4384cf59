import Settlement.Proofs.Catalog.RoundTrip
import Settlement.Proofs.Config.RoundTrip
import Settlement.Proofs.Config.Seeding
import Settlement.Proofs.Experiment
import Settlement.Proofs.OrderedMap
import Settlement.Proofs.Simulation
import Settlement.Proofs.World.Clock
/-!
Sweeps over the values of one parameter. Results stand under labels, which are texts, so that of the
values that are shown alike only the last leaves a result. Each result is that of its own run: it
is built from the base with the two parameters of the sweep set, and from nothing else.
-/
namespace Settlement

namespace Config

theorem oblivious_buildWorld (config : Config) (draws : Draws) (recipes : Option (Catalog Float)) :
    (config.buildWorld draws recipes).Oblivious := by
  have reads {α β : Type} {reading : Except Fault α} {next : α → Attempt β}
      (nexts : ∀ value, (next value).Oblivious) :
      ((liftM reading : Attempt α) >>= next).Oblivious :=
    (Attempt.oblivious_lift reading).bind nexts
  have ends (world : World Float) (note : Note) :
      (do Attempt.note note; return world : Attempt (World Float)).Oblivious :=
    (Attempt.oblivious_note note).bind fun _ => Attempt.oblivious_pure world
  have given : (recipes.elim (liftM config.catalog) pure : Attempt (Catalog Float)).Oblivious := by
    cases recipes with
    | none => exact Attempt.oblivious_lift _
    | some catalog => exact Attempt.oblivious_pure catalog
  unfold buildWorld
  refine reads fun _ => ?_
  cases recipes <;>
  · refine given.bind fun catalog => reads fun _ => ?_
    refine (Attempt.oblivious_note _).bind fun _ => reads fun decay => ?_
    refine reads fun _ => reads fun stocks => reads fun labors => reads fun values => ?_
    refine reads fun count => ?_
    dsimp only
    split
    · exact ends _ _
    · exact reads fun seeding => ends _ _

end Config

/-- Lists that are related item by item are split side by side. -/
theorem exists_split_of_forall₂ {α β : Type} {relation : α → β → Prop} {items : List α}
    {front back : List β} {other : β}
    (related : List.Forall₂ relation items (front ++ other :: back)) :
    ∃ before item after, items = before ++ item :: after ∧ relation item other ∧
      List.Forall₂ relation after back := by
  obtain ⟨item, after, holds, behind, split⟩ :=
    List.forall₂_cons_right_iff.mp (List.forall₂_drop_append _ _ _ related)
  have whole : items = items.take front.length ++ item :: after := by
    rw [← split, List.take_append_drop]
  exact ⟨_, item, after, whole, holds, behind⟩

/-- Whatever becomes of a world in a simulation, it keeps its catalog. -/
theorem Observed.catalog_simulate {R μ : Type} [Scalar R] (period : Given R) (interval : Interval)
    (observers : List (Observer R μ)) (ticks : Given R) (observed : Observed R μ) :
    (observed.simulate period interval observers ticks).state.world.catalog =
      observed.world.catalog := by
  let kept (after : Observed R μ) : Prop := after.world.catalog = observed.world.catalog
  have ticked (running : Observed R μ) (held : kept running) :
      kept { running with world := (running.world.tick period).state } :=
    (running.world.catalog_tick period).trans held
  exact Observed.state_simulate_keeps ticked (fun _ _ held => held) ticks rfl

/-- Among the items of a list that go by one name there is a last one. -/
theorem exists_last_of_mem {α β : Type} (named : α → β) {items : List α} {item : α}
    (member : item ∈ items) :
    ∃ front last back, items = front ++ last :: back ∧ named last = named item ∧
      ∀ later ∈ back, named later ≠ named last := by
  induction items generalizing item with
  | nil => cases member
  | cons first rest ih =>
    by_cases behind : ∃ other ∈ rest, named other = named item
    · obtain ⟨other, present, same⟩ := behind
      obtain ⟨front, last, back, rfl, again, apart⟩ := ih present
      exact ⟨first :: front, last, back, rfl, again.trans same, apart⟩
    · obtain rfl : item = first := (List.mem_cons.mp member).resolve_right fun later =>
        behind ⟨item, later, rfl⟩
      exact ⟨[], item, rest, rfl, rfl, fun other present same => behind ⟨other, present, same⟩⟩

namespace Experiment

variable {draws : Draws} {base : Config} {name : Text} {values : Document}
  {ticks : Option (Given Float)} {results : OrderedMap Text Experiment} {parameter : Parameter}
  {list : List Document}

theorem oblivious_run (draws : Draws) (config : Config) (record : Bool)
    (ticks : Option (Given Float)) : (run draws config record ticks).Oblivious := by
  refine (config.oblivious_buildWorld draws none).bind fun world => ?_
  refine (Attempt.oblivious_ofOutcome _).bind fun observed => ?_
  exact (Attempt.oblivious_lift _).bind fun _ => Attempt.oblivious_pure _

/-- The experiment of one value of a sweep, under its label. -/
def IsRow (draws : Draws) (base : Config) (parameter : Parameter) (ticks : Option (Given Float))
    (value : Document) (row : Text × Experiment) : Prop :=
  row.1 = sweepLabel parameter value ∧
    (run draws (sweepConfig base parameter value) false ticks).outcome.1 = .ok row.2

/-- A sweep comes to its end where every value's experiment does. -/
theorem outcome_sweep_eq_ok_iff :
    (sweep draws base name values ticks).outcome.1 = .ok results ↔
      ∃ parameter list rows, Parameter.ofName? name.string = some parameter ∧
        values.elements = .ok list ∧ List.Forall₂ (IsRow draws base parameter ticks) list rows ∧
        results = .ofList rows := by
  unfold sweep
  cases known : Parameter.ofName? name.string with
  | none =>
    constructor
    · intro wrong
      cases wrong
    · rintro ⟨_, _, _, ⟨⟩, _⟩
  | some parameter =>
    let attempt (value : Document) : Attempt (Text × Experiment) := do
      return (sweepLabel parameter value,
        ← run draws (sweepConfig base parameter value) false ticks)
    have oblivious (value : Document) : (attempt value).Oblivious :=
      (oblivious_run _ _ _ _).bind fun _ => Attempt.oblivious_pure _
    have row (value : Document) (row : Text × Experiment) :
        (attempt value).outcome.1 = .ok row ↔ IsRow draws base parameter ticks value row := by
      obtain ⟨label, experiment⟩ := row
      simp only [attempt, Attempt.outcome, Attempt.run_bind_eq_ok_iff, Attempt.run_pure_eq_ok_iff,
        Prod.mk.injEq, IsRow]
      constructor
      · rintro ⟨_, ran, rfl, rfl⟩
        exact ⟨rfl, ran⟩
      · rintro ⟨rfl, ran⟩
        exact ⟨experiment, ran, rfl, rfl⟩
    show (((liftM values.elements : Attempt (List Document)) >>= fun list =>
      list.mapM attempt >>= fun rows => pure (OrderedMap.ofList rows)).run #[]).1 = _ ↔ _
    simp only [Attempt.run_bind_eq_ok_iff, Attempt.run_liftM_eq_ok_iff, Attempt.run_pure_eq_ok_iff,
      Attempt.run_mapM_eq_ok_iff oblivious, row]
    constructor
    · rintro ⟨list, elements, rows, each, rfl⟩
      exact ⟨parameter, list, rows, rfl, elements, each, rfl⟩
    · rintro ⟨_, list, rows, ⟨⟩, elements, each, rfl⟩
      exact ⟨list, elements, rows, each, rfl⟩

/-- The parameters of a configuration of a sweep. -/
theorem get_sweepConfig (base : Config) (parameter other : Parameter) (value : Document) :
    (sweepConfig base parameter value).get other =
      if other = .experimentName then .text ("sweep_" ++ sweepLabel parameter value)
      else if other = parameter then value else base.get other := by
  simp only [sweepConfig, Config.get, Config.set, Table.getElem_set, eq_comm]

/-- What a sweep returns under a label is the experiment of the last value with that label. -/
theorem mem_entries_sweep_iff {rows : List (Text × Experiment)} {label : Text}
    {experiment : Experiment}
    (each : List.Forall₂ (IsRow draws base parameter ticks) list rows) :
    (label, experiment) ∈ (OrderedMap.ofList rows).entries ↔
      ∃ front value back, list = front ++ value :: back ∧
        (∀ later ∈ back, sweepLabel parameter later ≠ label) ∧
        IsRow draws base parameter ticks value (label, experiment) := by
  rw [OrderedMap.mem_entries_ofList]
  constructor
  · rintro ⟨front, back, rfl, absent⟩
    obtain ⟨before, value, after, rfl, row, behind⟩ := exists_split_of_forall₂ each
    refine ⟨before, value, after, rfl, fun later member same => absent ?_, row⟩
    obtain ⟨other, present, named, _⟩ := exists_of_forall₂ behind member
    exact List.mem_map.mpr ⟨other, present, named.trans same⟩
  · rintro ⟨front, value, back, rfl, apart, label, ran⟩
    obtain ⟨before, row, after, rfl, ⟨named, same⟩, behind⟩ := exists_split_of_forall₂ each.flip
    have row_eq : row = (_, experiment) := Prod.ext (named.trans label.symm)
      (Except.ok.inj (same.symm.trans ran))
    subst row_eq
    refine ⟨before, after, rfl, fun member => ?_⟩
    obtain ⟨other, present, again⟩ := List.mem_map.mp member
    obtain ⟨later, behind, named, _⟩ := exists_of_forall₂ behind present
    exact apart later behind (named.symm.trans again)

theorem keys_sweep {rows : List (Text × Experiment)}
    (each : List.Forall₂ (IsRow draws base parameter ticks) list rows) :
    (OrderedMap.ofList rows).keys = (list.map (sweepLabel parameter)).eraseDups := by
  have labels : List.Forall₂ (· = ·) (rows.map Prod.fst) (list.map (sweepLabel parameter)) := by
    rw [List.forall₂_map_left_iff, List.forall₂_map_right_iff]
    exact (each.imp fun _ _ row => row.1).flip
  rw [List.forall₂_eq_eq_eq] at labels
  rw [OrderedMap.keys_ofList, labels]

/-- The world of an experiment has the catalog of the experiment's configuration. -/
theorem catalog_of_outcome_run {config : Config} {record : Bool} {experiment : Experiment}
    (ran : (run draws config record ticks).outcome.1 = .ok experiment) :
    experiment.config = config ∧ config.catalog = .ok experiment.world.catalog := by
  obtain ⟨world, observed, ticksRun, built, simulated, _, rfl⟩ := outcome_run_eq_ok_iff.mp ran
  obtain ⟨plan, provides, _, _, _, sites, _, rfl⟩ := Config.outcome_buildWorld_eq_ok_iff.mp built
  obtain ⟨schedule, _, simulated⟩ := Outcome.reaches_given.mp simulated
  have kept := Observed.catalog_simulate config.period schedule.interval
    (if record then [Recorder.observe] else []) schedule.ticks
    ⟨⟨config.rules, plan.catalog, plan.decay, 0.0, sites⟩, .fresh none⟩
  rw [simulated.state_eq] at kept
  exact ⟨rfl, kept ▸ provides.catalog⟩

/-- An experiment of a sweep: its parameters are those of the base, but for the one that is swept
and for its name, and its world has the catalog that its own recipes make. -/
structure Varies (base : Config) (parameter : Parameter) (experiment : Experiment) : Prop where
  others : ∀ other, other ≠ parameter → other ≠ .experimentName →
    experiment.config.get other = base.get other
  catalog : experiment.config.catalog = .ok experiment.world.catalog

theorem config_of_isRow {value : Document} {row : Text × Experiment}
    (isRow : IsRow draws base parameter ticks value row) :
    row.2.config = sweepConfig base parameter value ∧ Varies base parameter row.2 := by
  obtain ⟨config, catalog⟩ := catalog_of_outcome_run isRow.2
  refine ⟨config, fun other apart unnamed => ?_, config ▸ catalog⟩
  rw [config, get_sweepConfig, if_neg unnamed, if_neg apart]

/-- There is an experiment under every label, that of the last value with the label. -/
theorem exists_entry_sweep {rows : List (Text × Experiment)}
    (each : List.Forall₂ (IsRow draws base parameter ticks) list rows)
    {front last back} (split : list = front ++ last :: back)
    (apart : ∀ later ∈ back, sweepLabel parameter later ≠ sweepLabel parameter last) :
    ∃ entry ∈ (OrderedMap.ofList rows).entries, IsRow draws base parameter ticks last entry := by
  obtain ⟨row, _, isRow⟩ := exists_of_forall₂ each (by simp [split] : last ∈ list)
  exact ⟨row, (mem_entries_sweep_iff each).mpr ⟨front, last, back, split, isRow.1 ▸ apart, isRow⟩,
    isRow⟩

/-- An experiment with a value of the swept parameter is returned just if no other value with its
label comes behind it. -/
theorem exists_entry_value_iff {rows : List (Text × Experiment)}
    (each : List.Forall₂ (IsRow draws base parameter ticks) list rows)
    (unnamed : parameter ≠ .experimentName) {value : Document} :
    (∃ entry ∈ (OrderedMap.ofList rows).entries, entry.2.config.get parameter = value) ↔
      ∃ front back, list = front ++ value :: back ∧ ∀ later ∈ back,
        sweepLabel parameter later = sweepLabel parameter value → later = value := by
  have swept (given : Document) : (sweepConfig base parameter given).get parameter = given := by
    rw [get_sweepConfig, if_neg unnamed, if_pos rfl]
  constructor
  · rintro ⟨entry, present, rfl⟩
    obtain ⟨front, last, back, split, apart, isRow⟩ := (mem_entries_sweep_iff each).mp present
    rw [(config_of_isRow isRow).1, swept]
    exact ⟨front, back, split, fun later behind same =>
      absurd (same.trans isRow.1.symm) (apart later behind)⟩
  · rintro ⟨front, back, rfl, same⟩
    obtain ⟨middle, last, after, split, labelled, apart⟩ :=
      exists_last_of_mem (sweepLabel parameter) (List.mem_cons_self : value ∈ value :: back)
    have whole : front ++ value :: back = (front ++ middle) ++ last :: after := by
      rw [split, List.append_assoc]
    have equal : last = value := by
      have member : last ∈ value :: back := by simp [split]
      exact (List.mem_cons.mp member).elim id fun later => same last later labelled
    subst equal
    obtain ⟨entry, present, isRow⟩ := exists_entry_sweep each whole apart
    exact ⟨entry, present, (config_of_isRow isRow).1 ▸ swept last⟩

/-- Experiments that are swept by name are named after the labels of the values. -/
theorem exists_entry_name_iff {rows : List (Text × Experiment)}
    (each : List.Forall₂ (IsRow draws base .experimentName ticks) list rows) {value : Document} :
    (∃ entry ∈ (OrderedMap.ofList rows).entries, entry.2.config.get .experimentName = value) ↔
      ∃ other ∈ list, value = .text ("sweep_" ++ sweepLabel .experimentName other) := by
  constructor
  · rintro ⟨entry, present, rfl⟩
    obtain ⟨front, last, back, split, _, isRow⟩ := (mem_entries_sweep_iff each).mp present
    rw [(config_of_isRow isRow).1, get_sweepConfig, if_pos rfl]
    exact ⟨last, by simp [split], rfl⟩
  · rintro ⟨other, member, rfl⟩
    obtain ⟨front, last, back, split, labelled, apart⟩ := exists_last_of_mem _ member
    obtain ⟨entry, present, isRow⟩ := exists_entry_sweep each split apart
    refine ⟨entry, present, ?_⟩
    rw [(config_of_isRow isRow).1, get_sweepConfig, if_pos rfl, labelled]

/-- The document of a configuration, overlaid with the two fields of a sweep, reads as a new one. -/
theorem exists_ofDocument_overlay (held : Config.Held) (parameter : Parameter) (value : Document) :
    ∃ fields, held.toDocument = .object fields ∧
      Config.Held.ofDocument (.object (Document.setField (Parameter.name .experimentName)
        (.text ("sweep_" ++ sweepLabel parameter value))
        (Document.setField parameter.name value fields))) =
          .ok (.fresh (sweepConfig held.config parameter value)) := by
  refine ⟨_, held.toDocument_eq, ?_⟩
  rw [Config.setField_fields, Config.setField_fields, Config.Held.ofDocument,
    Config.ofDocument_object, Config.ofFields_fields]
  rfl

/-- A sweep that comes to its end returns, under the label of each value, the experiment of the last
value with that label. Its parameters are those of the base, but for the one that is swept and for
its name, and what the base had built is not taken over. So the experiment of a value is returned
exactly if no other value with its label comes behind it, and experiments that are swept by name are
named after their labels instead. -/
theorem sweep_runs_last_of_each_label
    (swept : (sweep draws base name values ticks).outcome.1 = .ok results) :
    ∃ parameter list, Parameter.ofName? name.string = some parameter ∧
      values.elements = .ok list ∧
      results.keys = (list.map (sweepLabel parameter)).eraseDups ∧
      (∀ entry, entry ∈ results.entries ↔ ∃ front value back, list = front ++ value :: back ∧
        (∀ later ∈ back, sweepLabel parameter later ≠ entry.1) ∧
        entry.1 = sweepLabel parameter value ∧
        (run draws (sweepConfig base parameter value) false ticks).outcome.1 = .ok entry.2) ∧
      (∀ entry ∈ results.entries, Varies base parameter entry.2) ∧
      (parameter ≠ .experimentName → ∀ value,
        ((∃ entry ∈ results.entries, entry.2.config.get parameter = value) ↔
          ∃ front back, list = front ++ value :: back ∧ ∀ later ∈ back,
            sweepLabel parameter later = sweepLabel parameter value → later = value)) ∧
      (parameter = .experimentName → ∀ value,
        ((∃ entry ∈ results.entries, entry.2.config.get parameter = value) ↔
          ∃ other ∈ list, value = .text ("sweep_" ++ sweepLabel parameter other))) ∧
      (∀ held : Config.Held, held.config = base → ∀ value, ∃ fields,
        held.toDocument = .object fields ∧
        Config.Held.ofDocument (.object (Document.setField (Parameter.name .experimentName)
          (.text ("sweep_" ++ sweepLabel parameter value))
          (Document.setField parameter.name value fields))) =
            .ok (.fresh (sweepConfig base parameter value))) := by
  obtain ⟨parameter, list, rows, known, elements, each, rfl⟩ := outcome_sweep_eq_ok_iff.mp swept
  refine ⟨parameter, list, known, elements, keys_sweep each, ?_, ?_, ?_, ?_, ?_⟩
  · exact fun entry => mem_entries_sweep_iff each
  · intro entry member
    obtain ⟨_, _, _, _, _, isRow⟩ := (mem_entries_sweep_iff each).mp member
    exact (config_of_isRow isRow).2
  · exact fun unnamed value => exists_entry_value_iff each unnamed
  · rintro rfl value
    exact exists_entry_name_iff each
  · rintro held rfl value
    exact exists_ofDocument_overlay held parameter value

/-- A sweep over the rate at which the people of two villages die. -/
def deathSweep : Except Fault (OrderedMap Text Experiment) :=
  (sweep .none .villages "death_rate" (.list [.whole 0, .whole 1]) (some (.whole 1))).outcome.1

theorem sweep_runs_last_of_each_label_villages : ∃ results, deathSweep = .ok results ∧
    ∃ entry ∈ results.entries, entry.2.config.get .deathRate = .whole 1 ∧
      Varies .villages .deathRate entry.2 := by
  have completes : deathSweep.toOption.isSome = true := by decide +kernel
  obtain ⟨results, swept⟩ := exists_eq_ok_of_isSome completes
  obtain ⟨parameter, list, known, elements, _, _, varies, found, _, _⟩ :=
    sweep_runs_last_of_each_label swept
  cases known
  cases elements
  obtain ⟨entry, member, value⟩ :=
    (found (by decide) (.whole 1)).mpr ⟨[.whole 0], [], rfl, List.forall_mem_nil _⟩
  exact ⟨results, swept, entry, member, value, varies entry member⟩

/-- A sweep over a parameter of a world without sites. -/
def bareSweep (name : Text) (values : List Document) : Except Fault (OrderedMap Text Experiment) :=
  let bare := Config.withSettings [(.numSites, .whole 0)]
  (sweep .none bare name (.list values) (some (.whole 1))).outcome.1

/-- A sweep over the names of experiments gives none of them to an experiment, and of two values
that are shown alike it loses the first. -/
theorem swept_values_are_lost :
    (∃ results, bareSweep "experiment_name" [.text "winter"] = .ok results ∧
      ∀ entry ∈ results.entries, entry.2.config.get .experimentName ≠ .text "winter") ∧
    (∃ results, bareSweep "clamp_population" [.boolean false, .text "False"] = .ok results ∧
      ∀ entry ∈ results.entries, entry.2.config.get .clampPopulation ≠ .boolean false) := by
  have first : (bareSweep "experiment_name" [.text "winter"]).toOption.isSome = true := by
    decide +kernel
  have second : (bareSweep "clamp_population" [.boolean false, .text "False"]).toOption.isSome =
      true := by decide +kernel
  obtain ⟨named, ran⟩ := exists_eq_ok_of_isSome first
  obtain ⟨clamped, again⟩ := exists_eq_ok_of_isSome second
  refine ⟨⟨named, ran, fun entry member => ?_⟩, clamped, again, fun entry member => ?_⟩
  · obtain ⟨_, _, _, known, elements, each, rfl⟩ := outcome_sweep_eq_ok_iff.mp ran
    cases known
    cases elements
    intro same
    obtain ⟨other, only, equal⟩ := (exists_entry_name_iff each).mp ⟨entry, member, same⟩
    obtain rfl := List.mem_singleton.mp only
    exact absurd (Document.text.inj equal) (by decide)
  · obtain ⟨_, _, _, known, elements, each, rfl⟩ := outcome_sweep_eq_ok_iff.mp again
    cases known
    cases elements
    intro same
    obtain ⟨front, back, split, alone⟩ :=
      (exists_entry_value_iff each (by decide)).mp ⟨entry, member, same⟩
    cases front with
    | nil =>
      obtain rfl := (List.cons.inj split).2
      cases alone _ (List.mem_singleton_self _) (by decide)
    | cons head rest =>
      have only : Document.boolean false ∈ [Document.text "False"] := by
        simp [(List.cons.inj split).2]
      cases List.mem_singleton.mp only

end Experiment

end Settlement
