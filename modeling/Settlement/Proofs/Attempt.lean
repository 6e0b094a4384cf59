import Settlement.Attempt
import Settlement.Proofs.Outcome
import Settlement.Proofs.Reading
/-!
How attempts end. What was noted before plays no part in it, so that an attempt that is put
together from readings ends as readings do.
-/
namespace Settlement.Attempt

variable {α β : Type}

/-- Whatever was noted before, the attempt gives a value of some kind, or fails as readings of
documents do. -/
def Yields (kind : α → Prop) (attempt : Attempt α) : Prop :=
  ∀ notes, Reads kind (fun fault => fault.isOfReading = true) (attempt.run notes).1

variable {kind : α → Prop} {other : β → Prop}

theorem Yields.outcome {attempt : Attempt α} (yields : attempt.Yields kind) :
    Reads kind (fun fault => fault.isOfReading = true) attempt.outcome.1 := yields #[]

theorem yields_pure {value : α} (kept : kind value) : (pure value : Attempt α).Yields kind :=
  fun _ => .ok kept

theorem yields_lift {reading : Except Fault α} (reads : IsReading reading) :
    (liftM reading : Attempt α).Yields fun _ => True := fun _ => reads

theorem yields_note (note : Note) : (Attempt.note note).Yields fun _ => True :=
  fun _ => reads_ok

/-- Two attempts in a row end as the first does, if it fails, and else as the second does. -/
theorem Yields.bind {first : Attempt α} {next : α → Attempt β} (yields : first.Yields kind)
    (nexts : ∀ value, kind value → (next value).Yields other) : (first >>= next).Yields other := by
  intro notes
  show Reads other _ ((ExceptT.bindCont next (first.run notes).1).run (first.run notes).2).1
  have ends := yields notes
  cases ran : first.run notes with
  | mk result later =>
    rw [ran] at ends
    cases ends with
    | ok kept => exact nexts _ kept later
    | error fits => exact .error fits

/-! When an attempt gives a value. -/

variable {σ : Type} {notes : Array Note}

/-- Two attempts in a row give what the second gives on the value of the first. -/
theorem run_bind_eq_ok_iff {first : Attempt α} {next : α → Attempt β} {value : β} :
    ((first >>= next).run notes).1 = .ok value ↔
      ∃ middle, (first.run notes).1 = .ok middle ∧
        ((next middle).run (first.run notes).2).1 = .ok value := by
  show ((ExceptT.bindCont next (first.run notes).1).run (first.run notes).2).1 = _ ↔ _
  cases first.run notes with
  | mk result later =>
    cases result with
    | ok middle =>
      simp only [Except.ok.injEq, exists_eq_left']
      rfl
    | error fault =>
      constructor
      · intro wrong
        cases wrong
      · intro holds
        obtain ⟨_, wrong, _⟩ := holds
        cases wrong

theorem run_ofOutcome_eq_ok_iff {outcome : Outcome σ} {state : σ} :
    ((ofOutcome outcome).run notes).1 = .ok state ↔ outcome.Reaches state := by
  obtain ⟨reached, noted, fault⟩ := outcome
  cases fault with
  | none =>
    show Except.ok reached = .ok state ↔ _
    simp [Outcome.Reaches]
  | some fault =>
    show Except.error fault = .ok state ↔ _
    simp [Outcome.Reaches]

theorem run_liftM_eq_ok_iff {reading : Except Fault α} {value : α} :
    ((liftM reading : Attempt α).run notes).1 = .ok value ↔ reading = .ok value := Iff.rfl

theorem run_pure_eq_ok_iff {made value : α} :
    ((pure made : Attempt α).run notes).1 = .ok value ↔ made = value := by
  show Except.ok made = .ok value ↔ _
  rw [Except.ok.injEq]

theorem run_note_eq_ok (note : Note) : ((Attempt.note note).run notes).1 = .ok () := rfl

theorem run_ite_eq_ok_iff {condition : Prop} [Decidable condition] {first other : Attempt α}
    {value : α} : ((if condition then first else other).run notes).1 = .ok value ↔
      if condition then (first.run notes).1 = .ok value else (other.run notes).1 = .ok value := by
  split <;> rfl

/-! Attempts one after the other, each for itself. -/

/-- What was noted before plays no part in how the attempt ends. -/
def Oblivious (attempt : Attempt α) : Prop := ∀ notes, (attempt.run notes).1 = attempt.outcome.1

theorem oblivious_pure (value : α) : (pure value : Attempt α).Oblivious := fun _ => rfl

theorem oblivious_lift (reading : Except Fault α) : (liftM reading : Attempt α).Oblivious :=
  fun _ => rfl

theorem oblivious_note (note : Note) : (Attempt.note note).Oblivious := fun _ => rfl

theorem oblivious_ofOutcome {σ : Type} (outcome : Outcome σ) : (ofOutcome outcome).Oblivious := by
  obtain ⟨state, notes, fault⟩ := outcome
  cases fault <;> exact fun _ => rfl

theorem Oblivious.bind {first : Attempt α} {next : α → Attempt β} (oblivious : first.Oblivious)
    (nexts : ∀ value, (next value).Oblivious) : (first >>= next).Oblivious := by
  intro notes
  show ((ExceptT.bindCont next (first.run notes).1).run (first.run notes).2).1 =
    ((ExceptT.bindCont next (first.run #[]).1).run (first.run #[]).2).1
  have same : (first.run notes).1 = (first.run #[]).1 := oblivious notes
  rw [same]
  cases (first.run #[]).1 with
  | ok value => exact (nexts value _).trans (nexts value _).symm
  | error fault => rfl

/-- All of a list is attempted successfully exactly if every item is. -/
theorem run_mapM_eq_ok_iff {attempt : α → Attempt β} {items : List α} {values : List β}
    (oblivious : ∀ item, (attempt item).Oblivious) {notes : Array Note} :
    ((items.mapM attempt).run notes).1 = .ok values ↔
      List.Forall₂ (fun item value => (attempt item).outcome.1 = .ok value) items values := by
  induction items generalizing values notes with
  | nil =>
    rw [List.mapM_nil, run_pure_eq_ok_iff, List.forall₂_nil_left_iff, eq_comm]
  | cons item rest ih =>
    simp only [List.mapM_cons, run_bind_eq_ok_iff, run_pure_eq_ok_iff, ih,
      List.forall₂_cons_left_iff, oblivious item notes]
    constructor
    · rintro ⟨value, success, others, all, rfl⟩
      exact ⟨value, others, success, all, rfl⟩
    · rintro ⟨value, others, success, all, rfl⟩
      exact ⟨value, success, others, all, rfl⟩

end Settlement.Attempt
