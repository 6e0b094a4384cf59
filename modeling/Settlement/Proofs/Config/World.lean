import Settlement.Config.World
import Settlement.Proofs.Attempt
import Settlement.Proofs.World.Run
/-!
Worlds that configurations build. Whatever documents the parameters hold, to build a world fails
only as the reading of documents does; in a world that is built the clock stands at zero, and every
site stands under the key of its id.
-/
namespace Settlement

/-! Recipes and what grows back. -/

theorem OrderGroup.isReading_ofDocument (document : Document) :
    IsReading (OrderGroup.ofDocument document) := by
  have inputs (labor : Option Labor) : IsReading (do
      let inputs ← ((← document.optional "inputs").getD (.object [])).amounts Good.ofName
      return (⟨labor, inputs⟩ : OrderGroup Float)) :=
    (document.isReading_optional _).bind fun _ _ =>
      (Document.isReading_amounts _ Good.isReading_ofName).bind fun _ _ => reads_ok
  have named (labor : Document) : IsReading (some <$> labor.labor) :=
    labor.isReading_labor.map fun _ _ => trivial
  refine (document.isReading_optional _).bind fun labor _ => ?_
  dsimp only
  split
  · exact inputs none
  · exact (named _).bind fun labor _ => inputs labor

theorem Output.isReading_ofDocument (document : Document) :
    IsReading (Output.ofDocument document) :=
  (document.isReading_required _).bind fun _ _ => (Document.isReading_good _).bind fun _ _ =>
    (document.isReading_required _).bind fun _ _ => (Document.isReading_amount _).bind fun _ _ =>
      reads_ok

theorem Catalog.isReading_ofDocument (document : Document) :
    IsReading (Catalog.ofDocument document) :=
  (document.isReading_optional _).bind fun _ _ => (Document.isReading_elements _).bind fun _ _ =>
    (reads_mapM OrderGroup.isReading_ofDocument).bind fun _ _ =>
      (document.isReading_optional _).bind fun _ _ => (Document.isReading_fields _).bind fun _ _ =>
        (reads_mapM fun _ => (Labor.isReading_ofName _).bind fun _ _ =>
          (Output.isReading_ofDocument _).bind fun _ _ => reads_ok).bind fun _ _ => reads_ok

theorem Catalog.isReading_check (catalog : Catalog Float) : IsReading catalog.check := by
  unfold check
  split
  · exact .error rfl
  · exact reads_ok

theorem Replenisher.isReading_ofDocument (document : Document) :
    IsReading (Replenisher.ofDocument document) :=
  document.isReading_fields.bind fun _ _ =>
    (reads_mapM fun field => (Good.isReading_ofName _).bind fun _ _ =>
      (field.2.isReading_atPosition 0).bind fun _ _ => (Document.isReading_amount _).bind fun _ _ =>
        (field.2.isReading_atPosition 1).bind fun _ _ =>
          (Document.isReading_amount _).bind fun _ _ => reads_ok).bind fun _ _ => reads_ok

/-! Seeds. -/

namespace Seed

theorem isReading_checkText (value : Text) : IsReading (checkText value) := by
  have hexadecimal (digits : List Char) : IsReading (checkHexadecimal value digits) := by
    unfold checkHexadecimal
    dsimp only
    split
    · exact reads_ok
    · exact .error rfl
  have decimal : IsReading (checkDecimal value) := by
    unfold checkDecimal
    split
    · split
      · exact .error rfl
      · split
        · exact reads_ok
        · exact .error rfl
    · exact .error rfl
  unfold checkText
  split
  · exact hexadecimal _
  · split
    · exact decimal
    · exact .error rfl
  · exact .error rfl

mutual

theorem isReading_checkPart (part : Document) : IsReading (checkPart part) := by
  cases part with
  | null => exact .error rfl
  | boolean value => exact reads_ok
  | number value =>
    cases value with
    | whole value =>
      unfold checkPart
      split
      · exact .error rfl
      · exact reads_ok
    | real value => exact .error rfl
  | text value => exact isReading_checkText value
  | list items => exact isReading_checkParts items
  | object fields => exact reads_forM fun _ => isReading_checkText _

theorem isReading_checkParts (items : List Document) : IsReading (checkParts items) := by
  cases items with
  | nil => exact reads_ok
  | cons item rest => exact (isReading_checkPart item).bind fun _ _ => isReading_checkParts rest

end

theorem isReading_check (seed : Document) : IsReading (check seed) := by
  unfold check
  split
  · exact reads_ok
  · exact isReading_checkPart _
  · exact isReading_checkPart _
  · exact isReading_checkParts _
  · exact .error rfl

end Seed

namespace Config

variable (config : Config)

theorem isReading_catalog : IsReading config.catalog := by
  unfold catalog
  split
  · exact reads_ok
  · exact Catalog.isReading_ofDocument _

theorem isReading_replenisher : IsReading config.replenisher := by
  unfold replenisher
  split
  · exact reads_ok
  · exact Replenisher.isReading_ofDocument _

theorem isReading_totalTicks : IsReading config.totalTicks :=
  (Given.isReading_factor _ _ _).bind fun _ _ =>
    (Given.isReading_operand _ fun _ => rfl).bind fun _ _ =>
      (isReading_quotient _ _).bind fun _ _ => isReading_truncate _

theorem isReading_decay : IsReading config.decay :=
  (Document.isReading_fields _).bind fun _ _ => reads_foldlM
    (fun _ _ => (Good.isReading_ofName _).bind fun _ _ =>
      (Document.isReading_entry _).bind fun _ _ => reads_ok) _

theorem isReading_checkPeriod : IsReading config.checkPeriod := by
  unfold checkPeriod
  dsimp only
  split
  · split
    · exact .error rfl
    · exact reads_ok
  · split
    · exact .error rfl
    · exact reads_ok
  · exact .error rfl

theorem isReading_spread : IsReading config.spread := by
  unfold spread
  dsimp only
  split
  · split
    · exact (isReading_toFloat _).map fun _ _ => trivial
    · exact reads_ok
  · exact .error rfl

theorem isReading_population (isSpread : Bool) : IsReading (config.population isSpread) := by
  unfold population
  dsimp only
  split
  · exact Given.isReading_factor _ _ _
  · exact Document.isReading_amount _

theorem isReading_seeding (stocks values : List (Good × Float)) (labors : List (Labor × Float)) :
    IsReading (config.seeding stocks values labors) :=
  config.isReading_spread.bind fun _ _ => (config.isReading_population _).bind fun _ _ =>
    (Document.isReading_table _ Labor).bind fun _ _ =>
      config.isReading_replenisher.bind fun _ _ => reads_ok

/-- A world that is built starts at time zero, with every site under the key of its id. -/
theorem yields_buildWorld (draws : Draws) :
    (config.buildWorld draws).Yields fun world => world.clock = 0.0 ∧ world.Indexed := by
  have reads {α β : Type} {reading : Except Fault α} {next : α → Attempt β} {kind : β → Prop}
      (first : IsReading reading) (nexts : ∀ value, (next value).Yields kind) :
      ((liftM reading : Attempt α) >>= next).Yields kind :=
    (Attempt.yields_lift first).bind fun value _ => nexts value
  unfold buildWorld
  refine reads config.isReading_checkPeriod fun _ => ?_
  dsimp only
  refine reads config.isReading_catalog fun catalog => ?_
  refine reads catalog.isReading_check fun _ => ?_
  refine (Attempt.yields_note _).bind fun _ _ => ?_
  refine reads config.isReading_decay fun decay => ?_
  refine reads (Seed.isReading_check _) fun _ => ?_
  refine reads (Document.isReading_amounts _ Good.isReading_ofName) fun stocks => ?_
  refine reads (Document.isReading_amounts _ Labor.isReading_ofName) fun labors => ?_
  refine reads (Document.isReading_amounts _ Good.isReading_ofName) fun values => ?_
  refine reads (Given.isReading_count _) fun count => ?_
  have ends (world : World Float) (start : world.clock = 0.0) (indexed : world.Indexed)
      (note : Note) : (do Attempt.note note; return world : Attempt (World Float)).Yields
        fun world => world.clock = 0.0 ∧ world.Indexed :=
    (Attempt.yields_note note).bind fun _ _ => Attempt.yields_pure ⟨start, indexed⟩
  split
  · exact ends _ rfl (by simp [World.Indexed, OrderedMap.empty]) _
  · exact reads (config.isReading_seeding stocks values labors) fun _ =>
      ends _ rfl (.of_seeding rfl) _

end Config

end Settlement
