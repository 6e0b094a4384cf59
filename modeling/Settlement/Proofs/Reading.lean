import Mathlib.Data.List.Forall2
import Settlement.Document.Grid
/-!
Readings of documents. A reading that fails does so by a fault of a kind that documents give rise
to: no reading runs into a text that is no document, and none compares a text with numbers.
-/
namespace Settlement

/-- The faults that a document can give rise to where it is read. -/
def Fault.isOfReading (fault : Fault) : Bool :=
  match fault.category with
  | .comparison | .malformed => false
  | _ => true

variable {α β ι : Type}

/-- A reading gives a value of some kind, or fails by a fault of some kind. -/
inductive Reads (kind : α → Prop) (fits : Fault → Prop) : Except Fault α → Prop where
  | ok {value : α} (kept : kind value) : Reads kind fits (.ok value)
  | error {fault : Fault} (fit : fits fault) : Reads kind fits (.error fault)

/-- A reading fails as readings of documents do, if it does. -/
abbrev IsReading (reading : Except Fault α) : Prop :=
  Reads (fun _ => True) (fun fault => fault.isOfReading = true) reading

/-- What a computation gives is of a kind, if it gives anything. -/
abbrev Gives (kind : α → Prop) (computation : Except Fault α) : Prop :=
  Reads kind (fun _ => True) computation

section reads

variable {kind : α → Prop} {other : β → Prop} {fits : Fault → Prop} {reading : Except Fault α}

theorem reads_ok {value : α} : Reads (fun _ => True) fits (.ok value) := .ok trivial

theorem gives_any (computation : Except Fault α) : Gives (fun _ => True) computation := by
  cases computation with
  | ok value => exact reads_ok
  | error fault => exact .error trivial

theorem Reads.bind {next : α → Except Fault β} (reads : Reads kind fits reading)
    (nexts : ∀ value, kind value → Reads other fits (next value)) :
    Reads other fits (reading >>= next) := by
  cases reads with
  | ok kept => exact nexts _ kept
  | error fit => exact .error fit

theorem Reads.map {f : α → β} (reads : Reads kind fits reading)
    (keeps : ∀ value, kind value → other (f value)) : Reads other fits (f <$> reading) := by
  cases reads with
  | ok kept => exact .ok (keeps _ kept)
  | error fit => exact .error fit

theorem Reads.fits_of_eq_error {fault : Fault} (reads : Reads kind fits reading)
    (failed : reading = .error fault) : fits fault := by
  subst failed
  cases reads with
  | error fit => exact fit

theorem Reads.kind_of_eq_ok {value : α} (reads : Reads kind fits reading)
    (success : reading = .ok value) : kind value := by
  subst success
  cases reads with
  | ok kept => exact kept

theorem reads_mapM {f : α → Except Fault β} {items : List α}
    (each : ∀ item, Reads (fun _ => True) fits (f item)) :
    Reads (fun _ => True) fits (items.mapM f) := by
  induction items with
  | nil => exact reads_ok
  | cons item rest ih =>
    rw [List.mapM_cons]
    exact (each item).bind fun _ _ => ih.bind fun _ _ => reads_ok

/-- What holds of a value is kept, if each step keeps it. -/
theorem reads_foldlM_of_mem {f : α → ι → Except Fault α} {items : List ι}
    (each : ∀ item ∈ items, ∀ value, kind value → Reads kind fits (f value item)) {start : α}
    (first : kind start) : Reads kind fits (items.foldlM f start) := by
  induction items generalizing start with
  | nil => exact .ok first
  | cons item rest ih =>
    rw [List.forall_mem_cons] at each
    rw [List.foldlM_cons]
    exact (each.1 start first).bind fun value kept => ih each.2 kept

theorem reads_foldlM {f : β → α → Except Fault β} {items : List α}
    (each : ∀ value item, Reads (fun _ => True) fits (f value item)) (start : β) :
    Reads (fun _ => True) fits (items.foldlM f start) :=
  reads_foldlM_of_mem (fun item _ value _ => each value item) trivial

theorem reads_forM {f : α → Except Fault Unit} {items : List α}
    (each : ∀ item, Reads (fun _ => True) fits (f item)) :
    Reads (fun _ => True) fits (items.forM f) := by
  induction items with
  | nil => exact reads_ok
  | cons item rest ih => exact (each item).bind fun _ _ => ih

end reads

/-! When a reading gives a value. -/

theorem eq_ok_of_toOption_eq_some {reading : Except Fault α} {value : α}
    (found : reading.toOption = some value) : reading = .ok value := by
  cases reading with
  | ok other => exact congrArg Except.ok (Option.some.inj found)
  | error fault => cases found

theorem exists_eq_ok_of_isSome {reading : Except Fault α}
    (success : reading.toOption.isSome = true) : ∃ value, reading = .ok value := by
  cases reading with
  | error fault => cases success
  | ok value => exact ⟨value, rfl⟩

theorem bind_eq_ok_iff {first : Except Fault α} {next : α → Except Fault β}
    {value : β} : (first >>= next) = .ok value ↔
      ∃ middle, first = .ok middle ∧ next middle = .ok value := by
  cases first with
  | error fault => simp [bind, Except.bind]
  | ok middle => simp [bind, Except.bind]

/-- All of a list is read exactly if every item is. -/
theorem mapM_eq_ok_iff {read : α → Except Fault β} {items : List α}
    {values : List β} : items.mapM read = .ok values ↔
      List.Forall₂ (fun item value => read item = .ok value) items values := by
  induction items generalizing values with
  | nil =>
    rw [List.forall₂_nil_left_iff]
    constructor
    · intro success
      cases success
      rfl
    · intro empty
      rw [empty]
      rfl
  | cons item rest ih =>
    simp only [List.mapM_cons, bind_eq_ok_iff, ih, List.forall₂_cons_left_iff]
    constructor
    · intro holds
      obtain ⟨value, success, others, all, same⟩ := holds
      cases same
      exact ⟨value, others, success, all, rfl⟩
    · intro holds
      obtain ⟨value, others, success, all, rfl⟩ := holds
      exact ⟨value, success, others, all, rfl⟩

/-! Numbers. -/

theorem isReading_toFloat (value : Number) : IsReading value.toFloat := by
  unfold Number.toFloat
  split
  · exact reads_ok
  · exact .error rfl

theorem isReading_ofWhole (value : Int) :
    IsReading (Scalar.ofWhole value : Except Fault Float) := by
  show IsReading (Binary64.ofWhole value)
  unfold Binary64.ofWhole
  split
  · exact reads_ok
  · exact .error rfl

theorem isReading_truncate (value : Float) : IsReading (Scalar.truncate value) := by
  show IsReading (Binary64.truncate value)
  unfold Binary64.truncate
  split
  · exact reads_ok
  · split <;> exact .error rfl

theorem isReading_quotient (a b : Float) : IsReading (Scalar.quotient a b) := by
  unfold Scalar.quotient
  split
  · exact .error rfl
  · exact reads_ok

namespace Given

variable (value : Given Float)

theorem isReading_operand {fault : Document.Kind → Fault}
    (fits : ∀ kind, (fault kind).isOfReading = true) : IsReading (value.operand fault) := by
  cases value with
  | truth value => exact isReading_ofWhole _
  | whole value => exact isReading_ofWhole _
  | real value => exact reads_ok
  | other kind => exact .error (fits kind)

theorem isReading_factor (operation : String) (ofEntry : Bool) :
    IsReading (value.factor operation ofEntry) :=
  value.isReading_operand fun kind => by cases kind <;> rfl

theorem isReading_count : IsReading value.count := by
  unfold count
  split
  · exact reads_ok
  · exact .error rfl

end Given

/-! Names, parts and amounts. -/

theorem Good.isReading_ofName (written : Text) : IsReading (Good.ofName written) := by
  unfold Good.ofName
  split
  · exact reads_ok
  · exact .error rfl

theorem Labor.isReading_ofName (written : Text) : IsReading (Labor.ofName written) := by
  unfold Labor.ofName
  split
  · exact reads_ok
  · exact .error rfl

namespace Document

variable (document : Document)

theorem isReading_good : IsReading document.good := by
  unfold good
  split
  · exact Good.isReading_ofName _
  · exact .error rfl

theorem isReading_labor : IsReading document.labor := by
  unfold labor
  split
  · exact Labor.isReading_ofName _
  · exact .error rfl

theorem isReading_fields : IsReading document.fields := by
  unfold fields
  split
  · exact reads_ok
  · exact .error rfl

theorem isReading_optional (name : Text) : IsReading (document.optional name) := by
  unfold optional
  split
  · exact reads_ok
  · exact .error rfl

theorem isReading_required (name : Text) : IsReading (document.required name) := by
  unfold required
  split
  · split
    · exact reads_ok
    · exact .error rfl
  all_goals exact .error rfl

theorem isReading_atPosition (position : Nat) : IsReading (document.atPosition position) := by
  unfold atPosition
  split
  · split
    · exact reads_ok
    · exact .error rfl
  · split
    · exact reads_ok
    · exact .error rfl
  all_goals exact .error rfl

theorem isReading_elements : IsReading document.elements := by
  unfold elements
  split
  · exact reads_ok
  · exact reads_ok
  · exact reads_ok
  · exact .error rfl

theorem isReading_amount : IsReading document.amount := by
  unfold amount
  split
  · split
    · exact reads_ok
    · exact .error rfl
  · split
    · exact isReading_toFloat _
    · exact .error rfl

theorem isReading_amounts {name : Text → Except Fault ι}
    (names : ∀ written, IsReading (name written)) : IsReading (document.amounts name) := by
  refine document.isReading_fields.bind fun fields _ => reads_mapM fun field => ?_
  exact (names _).bind fun _ _ => (isReading_amount _).bind fun _ _ => reads_ok

/-! Tables. -/

theorem isReading_entry : IsReading document.entry := by
  unfold entry
  split
  · exact reads_ok
  · exact .error rfl
  · exact isReading_amount _

theorem isReading_textEntry : IsReading document.textEntry := by
  unfold textEntry
  dsimp only
  split
  · exact reads_ok
  · exact .error rfl

private theorem isReading_numbers (grid : Grid) : IsReading grid.numbers := by
  rw [Grid.numbers]
  by_cases text : grid.isText = true
  · rw [if_pos text]
    exact reads_mapM isReading_textEntry
  · rw [if_neg text]
    exact reads_mapM isReading_entry

private theorem isReading_grid : IsReading (Grid.ofDocument document) := by
  unfold Grid.ofDocument
  dsimp only
  split
  · exact reads_ok
  · split <;> exact .error rfl

theorem isReading_table (ι : Type) [Enumeration ι] : IsReading (document.table ι) := by
  refine document.isReading_grid.bind fun grid _ => ?_
  unfold Grid.table
  dsimp only
  split
  · refine (isReading_numbers grid).bind fun values _ => ?_
    split <;> exact reads_ok
  · exact .error rfl

end Document

end Settlement
