import Settlement.Proofs.Document.RoundTrip
import Settlement.Proofs.Reading
/-!
What the reader gives, whatever text it is given: whole numbers of not too many digits, and objects
with no two fields of one name.
-/
namespace Settlement.Document

open Reader Decimal

/-! Numbers. -/

theorem gives_orMalformed {α : Type} {kind : α → Prop} {given : Option α}
    (kept : ∀ value, given = some value → kind value) : Gives kind (orMalformed given) := by
  cases given with
  | some value => exact .ok (kept value rfl)
  | none => exact .error trivial

theorem isRow_of_splitWhole? {cs whole rest : List Char}
    (split : splitWhole? cs = some (whole, rest)) : IsRow whole := by
  unfold splitWhole? at split
  split at split
  · obtain ⟨rfl, _⟩ := Prod.mk.inj (Option.some.inj split)
    exact isRow_replicate 1
  · split at split
    · rw [List.span_eq_takeWhile_dropWhile] at split
      obtain ⟨rfl, _⟩ := Prod.mk.inj (Option.some.inj split)
      exact fun c member => List.mem_takeWhile_imp member
    · cases split
  · cases split

theorem gives_wholeOfDigits {row : List Char} (isRow : IsRow row) :
    Gives (fun value => (digits value).length ≤ mostDigits) (wholeOfDigits row) := by
  unfold wholeOfDigits
  by_cases many : mostDigits < row.length
  · rw [if_pos many]
    exact .error trivial
  · rw [if_neg many]
    refine .ok ?_
    rw [digits, Nat.length_toDigits_le_iff (by decide) (by decide)]
    exact (natural_lt isRow).trans_le (Nat.pow_le_pow_right (by decide) (not_lt.mp many))

theorem gives_magnitude (negative : Bool) (cs : List Char) :
    Gives (fun read => read.1.Short) (magnitude negative cs) := by
  have parts : Gives (fun parts => IsRow parts.1) (orMalformed (splitWhole? cs)) :=
    gives_orMalformed fun parts split => isRow_of_splitWhole? split
  refine parts.bind fun parts isRow => ?_
  dsimp only
  split
  · have whole : Gives (fun value : Int => (digits value.natAbs).length ≤ mostDigits)
        (do let value ← wholeOfDigits parts.1; pure (value : Int)) :=
      (gives_wholeOfDigits isRow).bind fun value few => .ok few
    refine whole.bind fun value few => .ok ?_
    have same : (if negative = true then -value else value).natAbs = value.natAbs := by
      split <;> omega
    rw [Number.Short, same]
    exact few
  · exact .ok trivial

theorem gives_word {rest : String} {value : Document} (cs : List Char)
    (wellFormed : WellFormed value) : Gives (fun read => WellFormed read.1) (word rest value cs) := by
  refine gives_orMalformed fun read found => ?_
  obtain ⟨_, _, rfl⟩ := Option.map_eq_some_iff.mp found
  exact wellFormed

theorem gives_scalar (cs : List Char) : Gives (fun read => WellFormed read.1) (scalar cs) := by
  unfold scalar
  split
  · exact gives_word _ .null
  · exact gives_word _ .boolean
  · exact gives_word _ .boolean
  · exact gives_word _ (.number trivial)
  · exact gives_word _ (.number trivial)
  · exact gives_word _ (.number trivial)
  · exact (gives_magnitude _ _).bind fun _ short => .ok (.number short)
  · exact (gives_magnitude _ _).bind fun _ short => .ok (.number short)

/-! Documents. -/

/-- The fields of a well-formed object. -/
structure AreFields (fields : List (Text × Document)) : Prop where
  distinct : (fields.map Prod.fst).Nodup
  each : ∀ field ∈ fields, WellFormed field.2

theorem areFields_nil : AreFields [] := ⟨List.nodup_nil, List.forall_mem_nil _⟩

theorem mem_map_setField {name other : Text} {value : Document} {fields : List (Text × Document)}
    (member : other ∈ (setField name value fields).map Prod.fst) :
    other = name ∨ other ∈ fields.map Prod.fst := by
  induction fields with
  | nil => simpa [setField] using member
  | cons field others ih =>
    unfold setField at member
    split at member
    · exact .inr member
    · rw [List.map_cons, List.mem_cons] at member ⊢
      rcases member with first | later
      · exact .inr (.inl first)
      · exact (ih later).imp_right .inr

/-- Setting a field keeps the names apart. -/
theorem AreFields.setField {fields : List (Text × Document)} (areFields : AreFields fields)
    (name : Text) {value : Document} (wellFormed : WellFormed value) :
    AreFields (setField name value fields) := by
  induction fields with
  | nil => exact ⟨List.nodup_singleton _, List.forall_mem_singleton.mpr wellFormed⟩
  | cons field others ih =>
    obtain ⟨distinct, each⟩ := areFields
    rw [List.map_cons, List.nodup_cons] at distinct
    rw [List.forall_mem_cons] at each
    unfold Document.setField
    split
    · exact ⟨List.nodup_cons.mpr distinct, List.forall_mem_cons.mpr ⟨wellFormed, each.2⟩⟩
    · rename_i apart
      have later := ih ⟨distinct.2, each.2⟩
      refine ⟨List.nodup_cons.mpr ⟨fun member => ?_, later.distinct⟩,
        List.forall_mem_cons.mpr ⟨each.1, later.each⟩⟩
      exact (mem_map_setField member).elim apart distinct.1

/-- What each part of the reader gives with some fuel. -/
structure ReadsWell (fuel : Nat) : Prop where
  value (cs : List Char) : Gives (fun read => WellFormed read.1) (Reader.value fuel cs)
  items (cs : List Char) :
    Gives (fun read => ∀ item ∈ read.1, WellFormed item) (Reader.items fuel cs)
  members {before : List (Text × Document)} (areFields : AreFields before) (cs : List Char) :
    Gives (fun read => AreFields read.1) (Reader.members fuel before cs)

variable {fuel : Nat}

theorem ReadsWell.value_succ (reads : ReadsWell fuel) (cs : List Char) :
    Gives (fun read => WellFormed read.1) (Reader.value (fuel + 1) cs) := by
  rw [Reader.value.eq_def]
  dsimp only
  split
  · exact (gives_any _).bind fun _ _ => .ok .text
  · split
    · exact .ok (.list (List.forall_mem_nil _))
    · exact (reads.items _).bind fun _ each => .ok (.list each)
  · split
    · exact .ok (.object List.nodup_nil (List.forall_mem_nil _))
    · exact (reads.members areFields_nil _).bind fun _ read => .ok (.object read.distinct read.each)
  · exact gives_scalar cs

theorem ReadsWell.items_succ (reads : ReadsWell fuel) (cs : List Char) :
    Gives (fun read => ∀ item ∈ read.1, WellFormed item) (Reader.items (fuel + 1) cs) := by
  rw [Reader.items]
  refine (reads.value cs).bind fun read wellFormed => ?_
  dsimp only
  split
  · exact .ok (List.forall_mem_singleton.mpr wellFormed)
  · exact (reads.items _).bind fun _ each => .ok (List.forall_mem_cons.mpr ⟨wellFormed, each⟩)
  · exact .error trivial

theorem ReadsWell.members_succ (reads : ReadsWell fuel) {before : List (Text × Document)}
    (areFields : AreFields before) (cs : List Char) :
    Gives (fun read => AreFields read.1) (Reader.members (fuel + 1) before cs) := by
  rw [Reader.members.eq_def]
  dsimp only
  split
  · refine (gives_any _).bind fun named _ => ?_
    split
    · refine (reads.value _).bind fun read wellFormed => ?_
      have areFields := areFields.setField named.1 wellFormed
      split
      · exact .ok areFields
      · exact reads.members areFields _
      · exact .error trivial
    · exact .error trivial
  · exact .error trivial

/-- Induction on the fuel. -/
theorem readsWell (fuel : Nat) : ReadsWell fuel := by
  induction fuel with
  | zero =>
    exact ⟨fun _ => .error trivial, fun _ => .error trivial, fun _ _ => .error trivial⟩
  | succ fuel ih => exact ⟨ih.value_succ, ih.items_succ, ih.members_succ⟩

/-- Whatever is read is well-formed. -/
theorem gives_read (source : Text) : Gives WellFormed (read source) := by
  refine ((readsWell _).value _).bind fun read wellFormed => ?_
  dsimp only
  split
  · exact .ok wellFormed
  · exact .error trivial

/-! Whole numbers. -/

theorem mem_wholesOfItems {value : Int} {items : List Document} :
    value ∈ wholesOfItems items ↔ ∃ item ∈ items, value ∈ item.wholes := by
  induction items with
  | nil => simp [wholesOfItems]
  | cons item items ih => simp [wholesOfItems, ih]

theorem mem_wholesOfFields {value : Int} {fields : List (Text × Document)} :
    value ∈ wholesOfFields fields ↔ ∃ field ∈ fields, value ∈ field.2.wholes := by
  induction fields with
  | nil => simp [wholesOfFields]
  | cons field fields ih => simp [wholesOfFields, ih]

theorem WellFormed.distinct {document : Document} (wellFormed : WellFormed document) :
    Distinct document := by
  induction wellFormed with
  | null => exact .null
  | boolean => exact .boolean
  | number => exact .number
  | text => exact .text
  | list _ ih => exact .list ih
  | object distinct _ ih => exact .object distinct ih

theorem WellFormed.short_wholes {document : Document} (wellFormed : WellFormed document) :
    ∀ value ∈ document.wholes, (Number.whole value).Short := by
  intro value member
  induction wellFormed with
  | @number stated short =>
    cases stated with
    | whole =>
      obtain rfl := List.mem_singleton.mp member
      exact short
    | real => cases member
  | list _ ih =>
    obtain ⟨item, present, member⟩ := mem_wholesOfItems.mp member
    exact ih item present member
  | object _ _ ih =>
    obtain ⟨field, present, member⟩ := mem_wholesOfFields.mp member
    exact ih field present member
  | _ => cases member

/-- The parts of a document have only whole numbers of the document itself. -/
theorem Distinct.wellFormed {document : Document} (distinct : Distinct document)
    (short : ∀ value ∈ document.wholes, (Number.whole value).Short) : WellFormed document := by
  induction distinct with
  | null => exact .null
  | boolean => exact .boolean
  | @number stated =>
    cases stated with
    | whole value => exact .number (short value (List.mem_singleton_self value))
    | real => exact .number trivial
  | text => exact .text
  | list _ ih =>
    exact .list fun item present => ih item present fun value member =>
      short value (mem_wholesOfItems.mpr ⟨item, present, member⟩)
  | object distinct _ ih =>
    exact .object distinct fun field present => ih field present fun value member =>
      short value (mem_wholesOfFields.mpr ⟨field, present, member⟩)

end Settlement.Document
