import Settlement.Proofs.Binary64.Sign
import Settlement.Proofs.Decimal.ReadBack
import Settlement.Proofs.Recorder.Figures
import Settlement.Proofs.Recorder.Recording
import Settlement.Proofs.World.Frame
/-!
Histories as text. No good is ever worth less than zero, if none is at the start, so what marks the
unpriced ones is the value of no other, and a history can be read back from its text.
-/
namespace Settlement

/-! Values are not negative. -/

/-- No number below zero. -/
def Given.NotNegative : Given Float → Prop
  | .real value => ¬value < 0
  | value => ∀ whole, value.whole? = some whole → 0 ≤ whole

/-- No number below zero or above one. -/
def Given.IsPart : Given Float → Prop
  | .real value => ¬value < 0 ∧ ¬1 < value
  | value => ∀ whole, value.whole? = some whole → 0 ≤ whole ∧ whole ≤ 1

theorem Given.IsPart.operand {value : Given Float} (isPart : value.IsPart)
    {fault : Document.Kind → Fault} {part : Float} (read : value.operand fault = .ok part) :
    ¬part < 0 ∧ ¬1 < part := by
  have wholes (whole : Int) (bounds : 0 ≤ whole ∧ whole ≤ 1)
      (read : (Scalar.ofWhole whole : Except Fault Float) = .ok part) : ¬part < 0 ∧ ¬1 < part := by
    obtain rfl | rfl : whole = 0 ∨ whole = 1 := by omega
    · obtain rfl : (0.0 : Float) = part := by
        have zero : (Scalar.ofWhole 0 : Except Fault Float) = .ok 0.0 := by rfl
        exact Except.ok.inj (zero.symm.trans read)
      decide +kernel
    · obtain rfl : (1.0 : Float) = part := by
        have one : (Scalar.ofWhole 1 : Except Fault Float) = .ok 1.0 := by rfl
        exact Except.ok.inj (one.symm.trans read)
      decide +kernel
  cases value with
  | truth value => exact wholes _ (isPart _ rfl) read
  | whole value => exact wholes _ (isPart _ rfl) read
  | real value => exact Except.ok.inj read ▸ isPart
  | other kind => cases read

theorem Given.NotNegative.of_isLess {floor : Given Float} (low : floor.NotNegative) {raw : Float}
    (above : floor.isLess (.real raw) = true) : ¬raw < 0 := by
  cases floor with
  | truth value => exact Binary64.not_lt_zero_of_isAbove (low _ rfl) above
  | whole value => exact Binary64.not_lt_zero_of_isAbove (low _ rfl) above
  | real value => exact Binary64.not_lt_zero_of_lt low (of_decide_eq_true above)
  | other kind => cases above

/-- A smoothing that is no number below zero or above one, and floors that are none below zero. -/
structure ValueRule.Admissible (rule : ValueRule Float) : Prop where
  smoothing : rule.smoothing.IsPart
  floor : ∀ bounds, rule.bounds = .ok bounds → ∀ good : Good, bounds[good].floor.NotNegative

theorem ValueRule.Admissible.gives {rule : ValueRule Float} (admissible : rule.Admissible) :
    rule.KeepsKind fun value => ¬value < 0 := by
  intro bounds read good previous surplus demand held
  unfold ValueRule.next
  dsimp only
  split
  · rename_i priced
    have raw : ¬rawValue surplus demand < 0 := by
      rw [Bounds.prices, Bool.and_eq_true, Bool.and_eq_true] at priced
      exact (admissible.floor bounds read good).of_isLess priced.1.2
    have base : ¬previous.getD (rawValue surplus demand) < 0 := by
      cases previous with
      | none => exact raw
      | some old => exact held old rfl
    cases success : rule.smoothing.factor "*" previous.isNone with
    | error fault => exact .error trivial
    | ok part =>
      obtain ⟨low, high⟩ := admissible.smoothing.operand success
      refine .ok fun new made => ?_
      obtain rfl := Option.some.inj made
      exact Binary64.not_add_lt_zero (Binary64.not_mul_lt_zero low base)
        (Binary64.not_mul_lt_zero (Binary64.not_one_sub_lt_zero high) raw)
  · exact .ok fun new made => by cases made

theorem Binary64.beq_unpriced {x : Float} (low : ¬x < 0) : (x == Csv.unpriced) = false := by
  have mark : Csv.unpriced.toModel.unpack = .finite .negative (Nat.pow 2 52) (-52) (by decide) :=
    rfl
  rw [Binary64.not_lt_zero_iff] at low
  rw [Binary64.beq_eq, mark]
  obtain same | ⟨s, same⟩ | same | ⟨m, e, p, same⟩ := Binary64.eq_of_isUnsigned low <;>
    · rw [same]
      rfl

/-! Texts. -/

namespace Recorder

variable {start world : World Float} {chosen : Option Document} {recorder : Recorder Float}
  {taken : List (Snapshot Float)}

/-- The key of the site that is written: of a given one, or of the first that was looked at. -/
def writtenKey (site : Option Name) (taken : List (Snapshot Float)) : Option Name.Key :=
  match site with
  | some id => some id.key
  | none => taken.head?.map (·.site.key)

theorem Recording.csvHistory_eq (recording : Recording start chosen world recorder taken)
    {site : Option Name} {key : Name.Key} (named : writtenKey site taken = some key)
    (recorded : Recording.ofSite key taken ≠ []) :
    recorder.csvHistory site = .ok (Recording.ofSite key taken).toArray := by
  have found := recording.find?_history key
  rw [if_neg recorded] at found
  cases site with
  | some id =>
    obtain rfl : id.key = key := Option.some.inj named
    rw [csvHistory, snapshots, found]
  | none =>
    have first : recorder.history.keys.head? = some key := recording.head?_history.trans named
    rw [csvHistory, OrderedMap.values]
    rw [OrderedMap.keys] at first
    cases entries : recorder.history.entries with
    | nil => simp [entries] at first
    | cons entry others =>
      have same : entry.1 = key := by simpa [entries] using first
      have member : (key, entry.2) ∈ recorder.history.entries := by simp [entries, ← same]
      have kept := (OrderedMap.find?_eq_some_iff _ _ _).mpr member
      rw [found] at kept
      exact congrArg Except.ok (Option.some.inj kept.symm)

/-- No good has ever a value below zero, in the world and in what was seen of it. -/
theorem Recording.valued (recording : Recording start chosen world recorder taken)
    (valued : start.Valued fun value => ¬value < 0) (admissible : start.rules.values.Admissible) :
    world.rules = start.rules ∧ world.Valued (fun value => ¬value < 0) ∧
      ∀ snapshot ∈ taken, snapshot.Unmarked := by
  induction recording with
  | begins => exact ⟨rfl, valued, by simp⟩
  | ticks before days ih =>
    obtain ⟨rules, held, unmarked⟩ := ih
    have gives := admissible.gives
    rw [← rules] at gives
    exact ⟨(World.rules_tick _ _).trans rules, held.tick gives days, unmarked⟩
  | ticksSite before days id ih =>
    obtain ⟨rules, held, unmarked⟩ := ih
    have gives := admissible.gives
    rw [← rules] at gives
    exact ⟨(World.rules_tickSite _ _ _).trans rules, held.tickSite gives days id, unmarked⟩
  | looks before tick found ih =>
    obtain ⟨rules, held, unmarked⟩ := ih
    refine ⟨rules, held, fun snapshot member => ?_⟩
    rcases List.mem_append.mp member with earlier | new
    · exact unmarked snapshot earlier
    · obtain rfl := List.mem_singleton.mp new
      intro good value priced
      exact Binary64.beq_unpriced (held _ (World.mem_values_of_site found) good value priced)

/-- The snapshots that a recorder has to write of a site, or of the first that was looked at: they
were taken in some run of a world with admissible parameters, in which every good was worth
something at the start, if it was priced. -/
def IsHistory (recorder : Recorder Float) (site : Option Name)
    (history : List (Snapshot Float)) : Prop :=
  ∃ start chosen world taken key, start.Valued (0 < ·) ∧ start.rules.values.Admissible ∧
    Recording start chosen world recorder taken ∧ writtenKey site taken = some key ∧
    history = Recording.ofSite key taken ∧ history ≠ []

/-- A row that says what a snapshot holds: below every label the quantity that it names, and the
mark for the values of the unpriced goods alone. -/
structure Tells (snapshot : Snapshot Float) (row : List String) : Prop where
  length : row.length = csvHeading.length
  cells : ∀ column : Column, column.cell? row = some (Decimal.shortest (snapshot.quantity column))
  marked_iff : ∀ good : Good,
    (((Column.value good).cell? row).bind Decimal.read?).any (· == Csv.unpriced) = true ↔
      snapshot.values[good] = none

theorem tells_csvRow {snapshot : Snapshot Float} (unmarked : snapshot.Unmarked) :
    Tells snapshot (snapshot.csvRow.map Decimal.shortest) := by
  have cells (column : Column) : column.cell? (snapshot.csvRow.map Decimal.shortest) =
      some (Decimal.shortest (snapshot.quantity column)) := by
    rw [snapshot.csvRow_eq, List.map_map]
    exact column.cell?_map _
  refine ⟨?_, cells, fun good => ?_⟩
  · rw [snapshot.csvRow_eq, Column.csvHeading_eq, List.length_map, List.length_map,
      List.length_map]
  · rw [cells, Option.bind_some, Decimal.read?_shortest, Option.any_some]
    cases priced : snapshot.values[good] with
    | none =>
      have same : (Csv.unpriced == Csv.unpriced) = true := by decide +kernel
      simp [Snapshot.quantity, priced, same]
    | some value => simp [Snapshot.quantity, priced, unmarked good value priced]

/-- What every item is read back as, all of them together are. -/
theorem mapM_map_eq_some {α β γ : Type} {f : α → β} {read : β → Option γ} {told : α → γ}
    {items : List α} (each : ∀ item ∈ items, read (f item) = some (told item)) :
    (items.map f).mapM read = some (items.map told) := by
  induction items with
  | nil => rfl
  | cons item others ih =>
    rw [List.forall_mem_cons] at each
    rw [List.map_cons, List.mapM_cons, each.1, ih each.2]
    rfl

theorem ofCells?_csvRow {snapshot : Snapshot Float} (unmarked : snapshot.Unmarked) :
    Figures.ofCells? (snapshot.csvRow.map Decimal.shortest) =
      some (Figures.ofSnapshot snapshot) := by
  have numbers : (snapshot.csvRow.map Decimal.shortest).mapM Decimal.read? =
      some (snapshot.csvRow.map id) := mapM_map_eq_some fun x _ => Decimal.read?_shortest x
  rw [Figures.ofCells?, numbers, List.map_id, Option.map_some, Figures.ofNumbers_csvRow unmarked]

theorem csvRows_ne_nil {snapshots : List (Snapshot Float)} :
    ∀ row ∈ csvRows snapshots, row ≠ [] := by
  intro row member empty
  rcases List.mem_cons.mp member with rfl | later
  · cases empty
  · obtain ⟨snapshot, _, rfl⟩ := List.mem_map.mp later
    cases empty

theorem ofCsv?_write {snapshots : List (Snapshot Float)}
    (unmarked : ∀ snapshot ∈ snapshots, snapshot.Unmarked) :
    Figures.ofCsv? (Csv.write (csvRows snapshots)) = some (snapshots.map Figures.ofSnapshot) := by
  rw [Figures.ofCsv?, Csv.read_write csvRows_ne_nil, csvRows]
  dsimp only
  rw [if_pos rfl]
  exact mapM_map_eq_some fun snapshot member => ofCells?_csvRow (unmarked snapshot member)

theorem IsHistory.writeCsv_eq {site : Option Name} {history : List (Snapshot Float)}
    (recorded : IsHistory recorder site history) :
    recorder.writeCsv site = .ok (history.length, Csv.write (csvRows history)) ∧
      ∀ snapshot ∈ history, snapshot.Unmarked := by
  obtain ⟨start, chosen, world, taken, key, valued, admissible, recording, named, rfl, filled⟩ :=
    recorded
  have start : start.Valued fun value => ¬value < 0 := by
    intro site member good value priced
    have zero : ¬(0 : Float) < 0 := by decide +kernel
    exact Binary64.not_lt_zero_of_lt zero (valued site member good value priced)
  refine ⟨?_, fun snapshot member => ?_⟩
  · rw [writeCsv, recording.csvHistory_eq named filled]
    simp [bind, Except.bind, pure, Except.pure]
  · exact (recording.valued start admissible).2.2 snapshot (List.mem_of_mem_filter member)

/-- The text of a history says all that it holds. Below the heading stands one row for every
snapshot of the site, in the order in which they were taken, that tells what the labels name. The
figures of all snapshots can be read off the text, so that no other history has it. -/
theorem csv_lossless {site : Option Name} {history : List (Snapshot Float)}
    (recorded : IsHistory recorder site history) :
    ∃ text rows, recorder.writeCsv site = .ok (history.length, text) ∧
      Csv.read text = csvHeading :: rows ∧
      csvHeading.length = 1 + 4 * Good.all.length + 2 * Labor.all.length ∧
      List.Forall₂ Tells history rows ∧
      Figures.ofCsv? text = some (history.map Figures.ofSnapshot) ∧
      ∀ (recorder : Recorder Float) (site : Option Name) (other : List (Snapshot Float)) written,
        IsHistory recorder site other → recorder.writeCsv site = .ok (written, text) →
          other.map Figures.ofSnapshot = history.map Figures.ofSnapshot := by
  obtain ⟨writes, unmarked⟩ := recorded.writeCsv_eq
  have recovered := ofCsv?_write unmarked
  refine ⟨_, _, writes, Csv.read_write csvRows_ne_nil, ?_, ?_, recovered, ?_⟩
  · rw [Column.csvHeading_eq, List.length_map, Column.length_all]
  · rw [List.forall₂_map_right_iff, List.forall₂_same]
    exact fun snapshot member => tells_csvRow (unmarked snapshot member)
  · intro recorder site other written recorded same
    obtain ⟨writes, unmarked⟩ := recorded.writeCsv_eq
    have texts : Csv.write (csvRows other) = Csv.write (csvRows history) := by
      rw [writes] at same
      exact (Prod.mk.inj (Except.ok.inj same)).2
    have others := ofCsv?_write unmarked
    rw [texts, recovered] at others
    exact (Option.some.inj others).symm

/-- A field, whose wheat is worth something until the first tick. -/
def wheatField : World Float where
  rules := {
    values := {
      smoothing := .real 0.8
      bounds := .ok (Table.const ⟨.real 0.001, .real 1000.0⟩)
      ceilings := .ok (Table.const 1000.0) }
    labor := { smoothing := .real 0.8, ratioFloor := .real 0.01, floorDivisor := .real 1000.0 }
    exponent := .whole 0
    demography := { birthRate := .real 0.05, deathRate := .real 0.005, clamped := true } }
  catalog := ⟨[], ⟨[(.farmer, ⟨.wheat, 2.5⟩)], List.nodup_singleton _⟩⟩
  decay := Table.const 0.1
  clock := 0.0
  sites := ⟨[(.text "field", ⟨.ofText "field", .text "Field",
    .seeded 5.0 (Table.const 1.0) ((Table.const none).set .wheat (some 2.5)) (Table.const 0.5),
    .renewable ⟨[(.wheat, ⟨50.0, 0.1⟩)], List.nodup_singleton _⟩⟩)], List.nodup_singleton _⟩

theorem wheatField_valued : wheatField.Valued (0 < ·) := by
  intro site member good value priced
  obtain rfl := List.mem_singleton.mp member
  have priced : ((Table.const none).set .wheat (some 2.5) : Table Good (Option Float))[good] =
      some value := priced
  rw [Table.getElem_set] at priced
  split at priced
  · obtain rfl := Option.some.inj priced
    decide +kernel
  · rw [Table.getElem_const] at priced
    cases priced

theorem wheatField_admissible : wheatField.rules.values.Admissible where
  smoothing := by
    show ¬(0.8 : Float) < 0 ∧ ¬1 < (0.8 : Float)
    decide +kernel
  floor bounds read good := by
    obtain rfl := Except.ok.inj read
    rw [Table.getElem_const]
    show ¬(0.001 : Float) < 0
    decide +kernel

/-- A recorder that has looked at the field before and after a tick. -/
def wheatRecorder : Recorder Float :=
  let first := ((fresh none).observeAt (.whole 0) wheatField).state
  (first.observeAt (.whole 1) (wheatField.tick (.real 90.0)).state).state

theorem csv_lossless_wheatField :
    ∃ history text rows, IsHistory wheatRecorder none history ∧
      wheatRecorder.writeCsv none = .ok (2, text) ∧
      Csv.read text = csvHeading :: rows ∧ List.Forall₂ Tells history rows := by
  have begun : Recording wheatField none wheatField (fresh none) [] := .begins
  obtain ⟨early, looked⟩ := begun.observeAt (.whole 0)
  obtain ⟨late, again⟩ := (looked.ticks (.real 90.0)).observeAt (.whole 1)
  have recording : Recording wheatField none _ wheatRecorder ([] ++ early ++ late) := again
  let history := Recording.ofSite (.text "field") ([] ++ early ++ late)
  have found : wheatRecorder.history.find? (.text "field") =
      if history = [] then none else some history.toArray := recording.find?_history _
  have named : writtenKey none ([] ++ early ++ late) = some (.text "field") := by
    have first : wheatRecorder.history.keys.head? = some (.text "field") := by decide +kernel
    exact recording.head?_history.symm.trans first
  have kept : (wheatRecorder.history.find? (.text "field")).any (·.size = 2) = true := by
    decide +kernel
  have filled : history ≠ [] := by
    intro none
    rw [found, if_pos none] at kept
    cases kept
  rw [found, if_neg filled, Option.any_some, decide_eq_true_iff, List.size_toArray] at kept
  have recorded : IsHistory wheatRecorder none history :=
    ⟨wheatField, none, _, _, _, wheatField_valued, wheatField_admissible, recording, named, rfl,
      filled⟩
  obtain ⟨text, rows, writes, reads, _, tells, _⟩ := csv_lossless recorded
  rw [kept] at writes
  exact ⟨history, text, rows, recorded, writes, reads, tells⟩

end Recorder

end Settlement
