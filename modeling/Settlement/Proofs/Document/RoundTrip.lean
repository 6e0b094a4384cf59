import Settlement.Proofs.Document.Numerals
import Settlement.Proofs.Document.Quoted
/-!
Documents are read back from their text, on one line or at any indent, if no object has two fields
of one name and no whole number is too long.
-/
namespace Settlement.Document

open Reader

/-- A document in which no object has two fields of one name. -/
inductive Distinct : Document → Prop where
  | null : Distinct null
  | boolean {value : Bool} : Distinct (boolean value)
  | number {value : Number} : Distinct (number value)
  | text {value : Text} : Distinct (text value)
  | list {items : List Document} (each : ∀ item ∈ items, Distinct item) : Distinct (list items)
  | object {fields : List (Text × Document)} (distinct : (fields.map Prod.fst).Nodup)
      (each : ∀ field ∈ fields, Distinct field.2) : Distinct (object fields)

/-- A document that can be written and read: no object has two fields of one name, and no whole
number has too many digits. -/
inductive WellFormed : Document → Prop where
  | null : WellFormed null
  | boolean {value : Bool} : WellFormed (boolean value)
  | number {value : Number} (short : value.Short) : WellFormed (number value)
  | text {value : Text} : WellFormed (text value)
  | list {items : List Document} (each : ∀ item ∈ items, WellFormed item) : WellFormed (list items)
  | object {fields : List (Text × Document)} (distinct : (fields.map Prod.fst).Nodup)
      (each : ∀ field ∈ fields, WellFormed field.2) : WellFormed (object fields)

/-! What stands between documents. -/

variable {indent : Option Nat} {level : Nat} {rest : List Char}

theorem skipGaps_gap (cs : List Char) :
    skipGaps ((Style.full indent).gap level ++ cs) = skipGaps cs := by
  unfold Style.gap Style.full skipGaps
  split
  · rw [List.cons_append, List.dropWhile_cons, if_pos (by decide)]
    refine List.dropWhile_append_of_pos fun c member => ?_
    rw [List.eq_of_mem_replicate member]
    rfl
  · rfl

/-- A text that starts with a document. -/
def Opens (cs : List Char) : Prop :=
  ∃ c others, cs = c :: others ∧ isGap c = false ∧ c ≠ ']' ∧ c ≠ '}'

theorem Opens.skipGaps_eq {cs : List Char} (opens : Opens cs) : skipGaps cs = cs := by
  obtain ⟨c, others, rfl, noGap, _⟩ := opens
  rw [skipGaps, List.dropWhile_cons, if_neg (by simp [noGap])]

theorem opens_textThen (value : Text) (rest : List Char) : Opens (textThen value rest) :=
  ⟨'"', _, rfl, by decide, by decide, by decide⟩

theorem opens_charsThen (document : Document) :
    Opens (charsThen (.full indent) level document rest) := by
  cases document with
  | null => exact ⟨'n', _, rfl, by decide, by decide, by decide⟩
  | boolean value =>
    cases value with
    | true => exact ⟨'t', _, rfl, by decide, by decide, by decide⟩
    | false => exact ⟨'f', _, rfl, by decide, by decide, by decide⟩
  | number value =>
    obtain ⟨c, cs, shown, starts⟩ := exists_cons_numberChars indent value
    refine ⟨c, cs ++ rest, by rw [charsThen, shown, List.cons_append], ?_⟩
    refine ⟨Bool.eq_false_iff.mpr ?_, ?_, ?_⟩
    · intro gap
      simp only [isGap, Bool.or_eq_true, decide_eq_true_iff] at gap
      rcases gap with ((rfl | rfl) | rfl) | rfl <;> cases starts
    · rintro rfl
      cases starts
    · rintro rfl
      cases starts
  | text value => exact opens_textThen value rest
  | list items =>
    cases items with
    | nil => exact ⟨'[', _, rfl, by decide, by decide, by decide⟩
    | cons item items => exact ⟨'[', _, rfl, by decide, by decide, by decide⟩
  | object fields =>
    cases fields with
    | nil => exact ⟨'{', _, rfl, by decide, by decide, by decide⟩
    | cons field fields => exact ⟨'{', _, rfl, by decide, by decide, by decide⟩

theorem exists_between (cs : List Char) :
    ∃ more, (Style.full indent).between level ++ cs = ',' :: more ∧ skipGaps more = skipGaps cs := by
  unfold Style.between
  split
  · exact ⟨_, rfl, skipGaps_gap cs⟩
  · exact ⟨_, rfl, rfl⟩

theorem Opens.skipGaps_between {cs : List Char} (opens : Opens cs) :
    ∃ more, skipGaps ((Style.full indent).between level ++ cs) = ',' :: more ∧
      skipGaps more = cs := by
  obtain ⟨more, same, skipped⟩ := @exists_between indent level cs
  refine ⟨more, ?_, skipped.trans opens.skipGaps_eq⟩
  rw [same]
  rfl

theorem length_between (cs : List Char) :
    cs.length < ((Style.full indent).between level ++ cs).length := by
  have filled : 0 < ((Style.full indent).between level).length := by
    unfold Style.between
    split <;> simp
  rw [List.length_append]
  omega

theorem endsNumber_gap {c : Char} (closing : c = ']' ∨ c = '}') :
    EndsNumber ((Style.full indent).gap level ++ c :: rest) := by
  unfold Style.gap
  intro next follows
  split at follows
  · obtain rfl : '\n' = next := Option.some.inj follows
    decide
  · obtain rfl : c = next := Option.some.inj follows
    rcases closing with rfl | rfl <;> decide

theorem endsNumber_between (cs : List Char) :
    EndsNumber ((Style.full indent).between level ++ cs) := by
  obtain ⟨more, same, _⟩ := @exists_between indent level cs
  rw [same]
  rintro next ⟨rfl⟩
  decide

/-! Steps of the reader. -/

section steps

variable {fuel : Nat} {cs after more : List Char} {item : Document}

theorem value_list {body : List Char} (opened : skipGaps cs = body) (opens : Opens body) :
    value (fuel + 1) ('[' :: cs) =
      (items fuel body).map fun (items, rest) => (list items, rest) := by
  obtain ⟨c, others, rfl, _, noEnd, _⟩ := opens
  simp only [value, opened]
  split
  · rename_i same
    exact absurd (List.cons.inj same).1 noEnd
  · cases items fuel (c :: others) <;> rfl

theorem value_object {body : List Char} (opened : skipGaps cs = body) (opens : Opens body) :
    value (fuel + 1) ('{' :: cs) =
      (members fuel [] body).map fun (fields, rest) => (object fields, rest) := by
  obtain ⟨c, others, rfl, _, _, noEnd⟩ := opens
  simp only [value, opened]
  split
  · rename_i same
    exact absurd (List.cons.inj same).1 noEnd
  · cases members fuel [] (c :: others) <;> rfl

theorem items_last (read : value fuel cs = .ok (item, after))
    (closes : skipGaps after = ']' :: rest) :
    items (fuel + 1) cs = .ok ([item], rest) := by
  simp only [items, read, bind, Except.bind, closes]
  rfl

theorem items_more (read : value fuel cs = .ok (item, after))
    (follows : skipGaps after = ',' :: more) :
    items (fuel + 1) cs = (items fuel (skipGaps more)).map
      fun (others, rest) => (item :: others, rest) := by
  simp only [items, read, bind, Except.bind, follows]
  cases items fuel (skipGaps more) <;> rfl

variable {name : Text} {before : List (Text × Document)}

theorem members_last (read : value fuel (skipGaps cs) = .ok (item, after))
    (closes : skipGaps after = '}' :: rest) :
    members (fuel + 1) before (textThen name (':' :: cs)) =
      .ok (setField name item before, rest) := by
  have told := textBody_units name (':' :: cs)
  have colon : skipGaps (':' :: cs) = ':' :: cs := rfl
  simp only [members, textThen, List.cons_append, told, orMalformed, bind, Except.bind, colon, read,
    closes]
  rfl

theorem members_more (read : value fuel (skipGaps cs) = .ok (item, after))
    (follows : skipGaps after = ',' :: more) :
    members (fuel + 1) before (textThen name (':' :: cs)) =
      members fuel (setField name item before) (skipGaps more) := by
  have told := textBody_units name (':' :: cs)
  have colon : skipGaps (':' :: cs) = ':' :: cs := rfl
  simp only [members, textThen, List.cons_append, told, orMalformed, bind, Except.bind, colon, read,
    follows]

end steps

/-! Documents. -/

/-- The document is read back at a level, whatever follows it there, with enough fuel. -/
def IsRead (indent : Option Nat) (document : Document) : Prop :=
  ∀ level rest, rest.length < (charsThen (.full indent) level document rest).length ∧
    ∀ fuel, EndsNumber rest →
      2 * (charsThen (.full indent) level document rest).length < fuel →
      value fuel (charsThen (.full indent) level document rest) = .ok (document, rest)

/-- Induction on the items that are still to be read. -/
theorem items_itemsThen {fuel : Nat} {item : Document} {others : List Document}
    {closing : List Char} (first : IsRead indent item)
    (each : ∀ item ∈ others, IsRead indent item) (closes : skipGaps closing = ']' :: rest)
    (ends : EndsNumber closing)
    (fuelled : 2 * (charsThen (.full indent) level item
      (itemsThen (.full indent) level others closing)).length + 1 < fuel) :
    items fuel (charsThen (.full indent) level item
      (itemsThen (.full indent) level others closing)) = .ok (item :: others, rest) := by
  obtain ⟨fuel, rfl⟩ := Nat.exists_eq_add_one.mpr (by omega : 0 < fuel)
  induction others generalizing item fuel with
  | nil =>
    rw [itemsThen] at fuelled ⊢
    exact items_last ((first level closing).2 fuel ends (by omega)) closes
  | cons other others ih =>
    rw [List.forall_mem_cons] at each
    rw [itemsThen] at fuelled ⊢
    generalize made : charsThen (.full indent) level other
      (itemsThen (.full indent) level others closing) = following at fuelled ⊢
    have opens : Opens following := made ▸ opens_charsThen other
    obtain ⟨shorter, read⟩ := first level ((Style.full indent).between level ++ following)
    have lengths := @length_between indent level following
    obtain ⟨fuel, rfl⟩ := Nat.exists_eq_add_one.mpr (by omega : 0 < fuel)
    have later : items (fuel + 1) following = .ok (other :: others, rest) :=
      made ▸ ih each.1 each.2 fuel (by rw [made]; omega)
    obtain ⟨more, goes, skipped⟩ := @Opens.skipGaps_between indent level following opens
    rw [items_more (read (fuel + 1) (endsNumber_between _) (by omega)) goes, skipped, later]
    rfl

theorem setField_of_not_mem {name : Text} {document : Document} {before : List (Text × Document)}
    (absent : name ∉ before.map Prod.fst) :
    setField name document before = before ++ [(name, document)] := by
  induction before with
  | nil => rfl
  | cons field others ih =>
    rw [List.map_cons, List.mem_cons, not_or] at absent
    rw [setField, if_neg fun same => absent.1 same.symm, ih absent.2, List.cons_append]

theorem not_mem_of_nodup {field : Text × Document} {before others : List (Text × Document)}
    (distinct : ((before ++ field :: others).map Prod.fst).Nodup) :
    field.1 ∉ before.map Prod.fst := by
  rw [List.map_append, List.map_cons, List.nodup_append] at distinct
  exact fun member => distinct.2.2 _ member _ List.mem_cons_self rfl

theorem length_textThen (value : Text) (rest : List Char) :
    rest.length < (textThen value rest).length := by
  rw [textThen, List.cons_append, List.length_cons, List.length_append, List.length_cons]
  omega

theorem IsRead.spaced {fuel : Nat} {document : Document}
    (isRead : IsRead indent document) (ends : EndsNumber rest)
    (fuelled : 2 * (charsThen (.full indent) level document rest).length < fuel) :
    value fuel (skipGaps (' ' :: charsThen (.full indent) level document rest)) =
      .ok (document, rest) := by
  have gap : skipGaps (' ' :: charsThen (.full indent) level document rest) =
      charsThen (.full indent) level document rest := (opens_charsThen document).skipGaps_eq
  rw [gap]
  exact (isRead level rest).2 fuel ends fuelled

/-- Induction on the fields that are still to be read. -/
theorem members_fieldsThen {fuel : Nat} {field : Text × Document}
    {before others : List (Text × Document)} {closing : List Char}
    (first : IsRead indent field.2) (each : ∀ field ∈ others, IsRead indent field.2)
    (distinct : ((before ++ field :: others).map Prod.fst).Nodup)
    (closes : skipGaps closing = '}' :: rest) (ends : EndsNumber closing)
    (fuelled : 2 * (textThen field.1 (':' :: ' ' :: charsThen (.full indent) level field.2
      (fieldsThen (.full indent) level others closing))).length + 1 < fuel) :
    members fuel before (textThen field.1 (':' :: ' ' ::
      charsThen (.full indent) level field.2 (fieldsThen (.full indent) level others closing))) =
      .ok (before ++ field :: others, rest) := by
  obtain ⟨fuel, rfl⟩ := Nat.exists_eq_add_one.mpr (by omega : 0 < fuel)
  have absent := not_mem_of_nodup distinct
  induction others generalizing field before fuel with
  | nil =>
    rw [fieldsThen] at fuelled ⊢
    have names := length_textThen field.1
      (':' :: ' ' :: charsThen (.full indent) level field.2 closing)
    simp only [List.length_cons] at names
    rw [members_last (first.spaced ends (by omega)) closes, setField_of_not_mem absent]
  | cons other others ih =>
    rw [List.forall_mem_cons] at each
    rw [fieldsThen] at fuelled ⊢
    generalize made : textThen other.1 (':' :: ' ' :: charsThen (.full indent) level other.2
      (fieldsThen (.full indent) level others closing)) = following at fuelled ⊢
    have opens : Opens following := made ▸ opens_textThen _ _
    generalize between : (Style.full indent).between level ++ following = next at fuelled ⊢
    have lengths : following.length < next.length := between ▸ length_between following
    have names := length_textThen field.1
      (':' :: ' ' :: charsThen (.full indent) level field.2 next)
    simp only [List.length_cons] at names
    obtain ⟨shorter, _⟩ := first level next
    obtain ⟨fuel, rfl⟩ := Nat.exists_eq_add_one.mpr (by omega : 0 < fuel)
    have regrouped : before ++ field :: other :: others =
        (before ++ [(field.1, field.2)]) ++ other :: others := by simp
    rw [regrouped] at distinct ⊢
    have later : members (fuel + 1) (before ++ [(field.1, field.2)]) following =
        .ok (before ++ [(field.1, field.2)] ++ other :: others, rest) :=
      made ▸ ih each.1 each.2 distinct fuel (by rw [made]; omega)
        (not_mem_of_nodup distinct)
    obtain ⟨more, goes, skipped⟩ := @Opens.skipGaps_between indent level following opens
    rw [between] at goes
    have read : value (fuel + 1)
        (skipGaps (' ' :: charsThen (.full indent) level field.2 next)) = .ok (field.2, next) :=
      first.spaced (between ▸ endsNumber_between following) (by omega)
    rw [members_more read goes, skipped, setField_of_not_mem absent, later]

theorem length_itemsThen {items : List Document} {closing : List Char}
    (each : ∀ item ∈ items, IsRead indent item) :
    closing.length ≤ (itemsThen (.full indent) level items closing).length := by
  induction items with
  | nil => exact le_refl _
  | cons item others ih =>
    rw [List.forall_mem_cons] at each
    have lengths := (each.1 level (itemsThen (.full indent) level others closing)).1
    have later := ih each.2
    rw [itemsThen, List.length_append]
    omega

theorem length_fieldsThen {fields : List (Text × Document)} {closing : List Char}
    (each : ∀ field ∈ fields, IsRead indent field.2) :
    closing.length ≤ (fieldsThen (.full indent) level fields closing).length := by
  induction fields with
  | nil => exact le_refl _
  | cons field others ih =>
    rw [List.forall_mem_cons] at each
    have lengths := (each.1 level (fieldsThen (.full indent) level others closing)).1
    have later := ih each.2
    have names := length_textThen field.1 (':' :: ' ' :: charsThen (.full indent) level field.2
      (fieldsThen (.full indent) level others closing))
    simp only [List.length_cons] at names
    rw [fieldsThen, List.length_append]
    omega

/-- A document that is written in the same way at all levels. -/
theorem isRead_of_chars {document : Document} {cs : List Char}
    (written : ∀ level rest, charsThen (.full indent) level document rest = cs ++ rest)
    (filled : cs ≠ []) (read : ∀ fuel rest, EndsNumber rest →
      value (fuel + 1) (cs ++ rest) = .ok (document, rest)) :
    IsRead indent document := by
  intro level rest
  rw [written, List.length_append]
  have positive := List.length_pos_of_ne_nil filled
  refine ⟨by omega, fun fuel ends fuelled => ?_⟩
  obtain ⟨fuel, rfl⟩ := Nat.exists_eq_add_one.mpr (by omega : 0 < fuel)
  exact read fuel rest ends

theorem value_of_startsNumber {fuel : Nat} {c : Char} (cs : List Char)
    (starts : startsNumber c = true) : value (fuel + 1) (c :: cs) = scalar (c :: cs) := by
  rw [value.eq_def]
  dsimp only
  split
  all_goals
    first
    | rfl
    | rename_i same
      cases same
      cases starts

theorem isRead_number {number : Number} (short : number.Short) :
    IsRead indent (.number number) := by
  obtain ⟨c, cs, shown, starts⟩ := exists_cons_numberChars indent number
  refine isRead_of_chars (fun _ _ => rfl) (by simp [shown]) fun fuel rest ends => ?_
  rw [← scalar_numberChars short indent ends, shown, List.cons_append,
    value_of_startsNumber _ starts]

theorem isRead_text (value : Text) : IsRead indent (.text value) := by
  have written (level : Nat) (rest : List Char) :
      charsThen (.full indent) level (.text value) rest =
        ('"' :: value.units.flatMap escapedUnit ++ ['"']) ++ rest := by
    simp [charsThen, textThen]
  refine isRead_of_chars written (by simp) fun fuel rest _ => ?_
  have told := textBody_units value rest
  rw [List.cons_append, List.cons_append, List.append_assoc, List.singleton_append]
  simp only [Reader.value, told, orMalformed, bind, Except.bind]
  rfl

theorem isRead_list {items : List Document}
    (each : ∀ item ∈ items, IsRead indent item) :
    IsRead indent (.list items) := by
  intro level rest
  cases items with
  | nil =>
    refine ⟨by simp [charsThen], fun fuel _ fuelled => ?_⟩
    obtain ⟨fuel, rfl⟩ := Nat.exists_eq_add_one.mpr (by omega : 0 < fuel)
    rfl
  | cons item others =>
    rw [List.forall_mem_cons] at each
    have lengths := @length_itemsThen indent (level + 1) others
      ((Style.full indent).gap level ++ ']' :: rest) each.2
    rw [charsThen]
    generalize made : charsThen (.full indent) (level + 1) item _ = body
    have opens : Opens body := made ▸ opens_charsThen item
    have shorter := (each.1 (level + 1) (itemsThen (.full indent) (level + 1) others
      ((Style.full indent).gap level ++ ']' :: rest))).1
    rw [made] at shorter
    simp only [List.length_append, List.length_cons] at lengths
    rw [List.cons_append, List.length_cons, List.length_append]
    refine ⟨by omega, fun fuel _ fuelled => ?_⟩
    obtain ⟨fuel, rfl⟩ := Nat.exists_eq_add_one.mpr (by omega : 0 < fuel)
    have later : Reader.items fuel body = .ok (item :: others, rest) :=
      made ▸ items_itemsThen each.1 each.2 (skipGaps_gap _) (endsNumber_gap (.inl rfl))
        (by rw [made]; omega)
    rw [value_list ((skipGaps_gap body).trans opens.skipGaps_eq) opens, later]
    rfl

theorem isRead_object {fields : List (Text × Document)}
    (distinct : (fields.map Prod.fst).Nodup)
    (each : ∀ field ∈ fields, IsRead indent field.2) :
    IsRead indent (.object fields) := by
  intro level rest
  cases fields with
  | nil =>
    refine ⟨by simp [charsThen], fun fuel _ fuelled => ?_⟩
    obtain ⟨fuel, rfl⟩ := Nat.exists_eq_add_one.mpr (by omega : 0 < fuel)
    rfl
  | cons field others =>
    rw [List.forall_mem_cons] at each
    have lengths := @length_fieldsThen indent (level + 1) others
      ((Style.full indent).gap level ++ '}' :: rest) each.2
    have shorter := (each.1 (level + 1) (fieldsThen (.full indent) (level + 1) others
      ((Style.full indent).gap level ++ '}' :: rest))).1
    rw [charsThen]
    generalize made : textThen field.1 _ = body
    have names := length_textThen field.1 (':' :: ' ' :: charsThen (.full indent) (level + 1)
      field.2 (fieldsThen (.full indent) (level + 1) others
        ((Style.full indent).gap level ++ '}' :: rest)))
    rw [made] at names
    have opens : Opens body := made ▸ opens_textThen _ _
    simp only [List.length_append, List.length_cons] at lengths names
    rw [List.cons_append, List.length_cons, List.length_append]
    refine ⟨by omega, fun fuel _ fuelled => ?_⟩
    obtain ⟨fuel, rfl⟩ := Nat.exists_eq_add_one.mpr (by omega : 0 < fuel)
    have later : members fuel [] body = .ok (field :: others, rest) :=
      made ▸ members_fieldsThen each.1 each.2 distinct (skipGaps_gap _) (endsNumber_gap (.inr rfl))
        (by rw [made]; omega)
    rw [value_object ((skipGaps_gap body).trans opens.skipGaps_eq) opens, later]
    rfl

/-- Every well-formed document is read back. -/
theorem WellFormed.isRead {document : Document}
    (wellFormed : WellFormed document) : IsRead indent document := by
  induction wellFormed with
  | null =>
    exact @isRead_of_chars _ _ ['n', 'u', 'l', 'l'] (fun _ _ => rfl) (by simp) fun _ _ _ => rfl
  | @boolean value =>
    cases value with
    | true =>
      exact @isRead_of_chars _ _ ['t', 'r', 'u', 'e'] (fun _ _ => rfl) (by simp) fun _ _ _ => rfl
    | false =>
      exact @isRead_of_chars _ _ ['f', 'a', 'l', 's', 'e'] (fun _ _ => rfl) (by simp)
        fun _ _ _ => rfl
  | number short => exact isRead_number short
  | text => exact isRead_text _
  | list _ ih => exact isRead_list ih
  | object distinct _ ih => exact isRead_object distinct ih

theorem flatMap_spelled (source : String) :
    (Text.ofString source).points.flatMap spelled = source.toList := by
  rw [Text.points_ofString]
  induction source.toList with
  | nil => rfl
  | cons c others ih =>
    have kept : spelled c.toNat = [c] := by
      rw [spelled]
      simp only [Text.charOf_toNat, if_true]
    rw [List.map_cons, List.flatMap_cons, kept, ih, List.singleton_append]

/-- What is written is read back, at any indent. -/
theorem read_write {document : Document} (wellFormed : WellFormed document)
    (indent : Option Nat) : read (document.write (.full indent)) = .ok document := by
  have whole := flatMap_spelled (document.write (.full indent))
  have opens : Opens (charsThen (.full indent) 0 document []) := opens_charsThen document
  have ends : EndsNumber [] := fun c next => by cases next
  rw [read, whole, write, String.toList_ofList, opens.skipGaps_eq]
  dsimp only
  rw [(wellFormed.isRead 0 []).2 _ ends (Nat.lt_succ_self _)]
  rfl

end Settlement.Document
