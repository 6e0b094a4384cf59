import Mathlib
import Settlement.Document.Same
import Settlement.Proofs.Number
/-!
Equality of documents. Numbers and truth values are equal by their exact value, lists item by item,
and objects field by field in whatever order these come. Of documents without NaN, in which no
object has two fields of one name, this is an equivalence, and comparing two of them decides it.
-/
namespace Settlement.Document

/-- A document without NaN, in which no object has two fields of one name. -/
inductive Definite : Document → Prop where
  | null : Definite null
  | boolean {value : Bool} : Definite (boolean value)
  | number {value : Number} (known : value.isNaN = false) : Definite (number value)
  | text {value : Text} : Definite (text value)
  | list {items : List Document} (each : ∀ item ∈ items, Definite item) : Definite (list items)
  | object {fields : List (Text × Document)} (distinct : (fields.map Prod.fst).Nodup)
      (each : ∀ field ∈ fields, Definite field.2) : Definite (object fields)

/-- Documents that are equal; truth values count as one and zero. -/
inductive Equal : Document → Document → Prop where
  | null : Equal null null
  | text {value : Text} : Equal (text value) (text value)
  | number {a b : Document} {x y : Number} (left : a.number? = some x) (right : b.number? = some y)
      (equal : x.Equal y) : Equal a b
  | list {as bs : List Document} (length : as.length = bs.length)
      (each : ∀ (i : Nat) (a b : Document), as[i]? = some a → bs[i]? = some b → Equal a b) :
      Equal (list as) (list bs)
  | object {as bs : List (Text × Document)}
      (names : ∀ name, name ∈ as.map Prod.fst ↔ name ∈ bs.map Prod.fst)
      (each : ∀ (name : Text) (a b : Document), (name, a) ∈ as → (name, b) ∈ bs → Equal a b) :
      Equal (object as) (object bs)

variable {a b c : Document}

/-! Equality is an equivalence. -/

theorem Equal.symm (equal : Equal a b) : Equal b a := by
  induction equal with
  | null => exact .null
  | text => exact .text
  | number left right equal => exact .number right left equal.symm
  | list length _ ih => exact .list length.symm fun i b a right left => ih i a b left right
  | object names _ ih =>
    exact .object (fun name => (names name).symm) fun name b a right left => ih name a b left right

theorem eq_of_mem_fields {fields : List (Text × Document)}
    (distinct : (fields.map Prod.fst).Nodup) {name : Text} {a b : Document}
    (first : (name, a) ∈ fields) (second : (name, b) ∈ fields) : a = b :=
  congrArg Prod.snd (List.inj_on_of_nodup_map distinct first second rfl)

theorem Definite.equal_self (definite : Definite a) : Equal a a := by
  induction definite with
  | null => exact .null
  | boolean => exact .number rfl rfl rfl
  | number known => exact .number rfl rfl (Number.equal_self known)
  | text => exact .text
  | list _ ih =>
    refine .list rfl fun i a b first second => ?_
    cases first.symm.trans second
    exact ih a (List.mem_of_getElem? first)
  | object distinct _ ih =>
    refine .object (fun _ => Iff.rfl) fun name a b first second => ?_
    obtain rfl := eq_of_mem_fields distinct first second
    exact ih (name, a) first

/-! What a document of each kind is equal to. -/

theorem equal_null_iff : Equal null b ↔ b = null := by
  constructor
  · intro equal
    cases equal with
    | null => rfl
    | number left => cases left
  · rintro rfl
    exact .null

theorem equal_text_iff {value : Text} : Equal (text value) b ↔ b = text value := by
  constructor
  · intro equal
    cases equal with
    | text => rfl
    | number left => cases left
  · rintro rfl
    exact .text

theorem equal_number_iff {x : Number} (left : a.number? = some x) :
    Equal a b ↔ ∃ y, b.number? = some y ∧ x.Equal y := by
  constructor
  · intro equal
    cases equal with
    | number again right equal =>
      cases left.symm.trans again
      exact ⟨_, right, equal⟩
    | _ => cases left
  · rintro ⟨y, right, equal⟩
    exact .number left right equal

theorem equal_list_iff {as : List Document} : Equal (list as) b ↔
    ∃ bs, b = list bs ∧ as.length = bs.length ∧
      ∀ (i : Nat) (a b : Document), as[i]? = some a → bs[i]? = some b → Equal a b := by
  constructor
  · intro equal
    cases equal with
    | list length each => exact ⟨_, rfl, length, each⟩
    | number left => cases left
  · rintro ⟨bs, rfl, length, each⟩
    exact .list length each

theorem equal_object_iff {as : List (Text × Document)} : Equal (object as) b ↔
    ∃ bs, b = object bs ∧ (∀ name, name ∈ as.map Prod.fst ↔ name ∈ bs.map Prod.fst) ∧
      ∀ (name : Text) (a b : Document), (name, a) ∈ as → (name, b) ∈ bs → Equal a b := by
  constructor
  · intro equal
    cases equal with
    | object names each => exact ⟨_, rfl, names, each⟩
    | number left => cases left
  · rintro ⟨bs, rfl, names, each⟩
    exact .object names each

/-- Induction on the first equality. -/
theorem Equal.trans (first : Equal a b) (second : Equal b c) : Equal a c := by
  induction first generalizing c with
  | null => exact second
  | text => exact second
  | number left right equal =>
    obtain ⟨z, other, again⟩ := (equal_number_iff right).mp second
    exact .number left other (equal.trans again)
  | @list as bs length _ ih =>
    obtain ⟨cs, rfl, others, each⟩ := equal_list_iff.mp second
    refine .list (length.trans others) fun i a c left right => ?_
    obtain ⟨present, _⟩ := List.getElem?_eq_some_iff.mp left
    have middle := List.getElem?_eq_getElem (length ▸ present)
    exact ih i a _ left middle (each i _ c middle right)
  | object names _ ih =>
    obtain ⟨cs, rfl, others, each⟩ := equal_object_iff.mp second
    refine .object (fun label => (names label).trans (others label)) fun label a c left right => ?_
    obtain ⟨⟨_, b⟩, middle, rfl⟩ :=
      List.mem_map.mp ((names label).mp (List.mem_map_of_mem left))
    exact ih _ a b left middle (each _ b c middle right)

/-! What is compared. -/

theorem same_null_iff : null.same b = true ↔ b = null := by
  cases b <;> simp [same]

theorem same_text_iff {value : Text} : (text value).same b = true ↔ b = text value := by
  cases b with
  | text other => rw [same, beq_iff_eq, text.injEq, eq_comm]
  | _ => simp [same]

theorem same_number_iff {x : Number} (left : a.number? = some x) :
    a.same b = true ↔ ∃ y, b.number? = some y ∧ x.same y = true := by
  cases a with
  | boolean | number =>
    cases left
    rw [same, Option.any_eq_true]
  | _ => cases left

theorem same_list_iff {as : List Document} :
    (list as).same b = true ↔ ∃ bs, b = list bs ∧ sameItems as bs = true := by
  cases b <;> simp [same]

theorem same_object_iff {as : List (Text × Document)} : (object as).same b = true ↔
    ∃ bs, b = object bs ∧ as.length = bs.length ∧ sameFields as bs = true := by
  cases b <;> simp [same]

theorem sameItems_iff {as bs : List Document} : sameItems as bs = true ↔
    as.length = bs.length ∧
      ∀ (i : Nat) (a b : Document), as[i]? = some a → bs[i]? = some b → a.same b = true := by
  induction as generalizing bs with
  | nil => cases bs <;> simp [sameItems]
  | cons first others ih =>
    cases bs with
    | nil => simp [sameItems]
    | cons other rest =>
      rw [sameItems, Bool.and_eq_true, ih, List.length_cons, List.length_cons,
        Nat.add_right_cancel_iff]
      constructor
      · rintro ⟨same, length, each⟩
        refine ⟨length, fun i a b left right => ?_⟩
        cases i with
        | zero =>
          cases left
          cases right
          exact same
        | succ i => exact each i a b left right
      · rintro ⟨length, each⟩
        exact ⟨each 0 _ _ rfl rfl, length, fun i a b left right => each (i + 1) a b left right⟩

theorem sameFields_iff {as fields : List (Text × Document)} : sameFields as fields = true ↔
    ∀ field ∈ as, ∃ b, fields.lookup field.1 = some b ∧ field.2.same b = true := by
  induction as with
  | nil => simp [sameFields]
  | cons field others ih =>
    rw [sameFields, Bool.and_eq_true, ih, List.forall_mem_cons]
    refine and_congr_left fun _ => ?_
    cases fields.lookup field.1 <;> simp

/-! Comparing decides equality. -/

section objects

variable {as bs : List (Text × Document)} (distinct : (as.map Prod.fst).Nodup)
include distinct

theorem lookup_eq_some_iff {name : Text} {value : Document} :
    as.lookup name = some value ↔ (name, value) ∈ as := by
  have mem {value : Document} (found : as.lookup name = some value) : (name, value) ∈ as := by
    obtain ⟨before, after, rfl, _⟩ := List.lookup_eq_some_iff.mp found
    exact List.mem_append_right _ List.mem_cons_self
  refine ⟨mem, fun member => ?_⟩
  cases found : as.lookup name with
  | some other => rw [eq_of_mem_fields distinct (mem found) member]
  | none =>
    have absent := List.lookup_eq_none_iff.mp found (name, value) member
    simp at absent

/-- As many fields with none but names of the other object are the names of the other object. -/
theorem perm_names (length : as.length = bs.length)
    (each : ∀ field ∈ as, field.1 ∈ bs.map Prod.fst) :
    (as.map Prod.fst).Perm (bs.map Prod.fst) := by
  refine (distinct.subperm fun name member => ?_).perm_of_length_le ?_
  · obtain ⟨field, present, rfl⟩ := List.mem_map.mp member
    exact each field present
  · rw [List.length_map, List.length_map, length]

/-- Objects are compared by the fields of the first and the number of fields. -/
theorem sameObjects_iff (apart : (bs.map Prod.fst).Nodup) :
    as.length = bs.length ∧ sameFields as bs = true ↔
      (∀ name, name ∈ as.map Prod.fst ↔ name ∈ bs.map Prod.fst) ∧
        ∀ (name : Text) (a b : Document), (name, a) ∈ as → (name, b) ∈ bs → a.same b = true := by
  rw [sameFields_iff]
  constructor
  · rintro ⟨length, each⟩
    have names := perm_names distinct length fun field member => by
      obtain ⟨b, found, _⟩ := each field member
      exact List.mem_map.mpr ⟨(field.1, b), (lookup_eq_some_iff apart).mp found, rfl⟩
    refine ⟨fun name => names.mem_iff, fun name a b left right => ?_⟩
    obtain ⟨_, found, same⟩ := each (name, a) left
    cases ((lookup_eq_some_iff apart).mpr right).symm.trans found
    exact same
  · rintro ⟨names, each⟩
    have perm := (List.perm_ext_iff_of_nodup distinct apart).mpr names
    refine ⟨by simpa using perm.length_eq, fun field member => ?_⟩
    obtain ⟨⟨_, b⟩, present, rfl⟩ :=
      List.mem_map.mp ((names field.1).mp (List.mem_map_of_mem member))
    exact ⟨b, (lookup_eq_some_iff apart).mpr present, each _ field.2 b member present⟩

end objects

theorem same_iff_equal_of_number {x : Number} (left : a.number? = some x) :
    a.same b = true ↔ Equal a b := by
  simp only [same_number_iff left, equal_number_iff left, Number.same_iff_equal]

/-- Induction on the first document. -/
theorem Definite.same_iff_equal (left : Definite a) (right : Definite b) :
    a.same b = true ↔ Equal a b := by
  induction left generalizing b with
  | null => rw [same_null_iff, equal_null_iff]
  | boolean => exact same_iff_equal_of_number rfl
  | number => exact same_iff_equal_of_number rfl
  | text => rw [same_text_iff, equal_text_iff]
  | list _ ih =>
    rw [same_list_iff, equal_list_iff]
    refine exists_congr fun bs => and_congr_right fun made => ?_
    subst made
    cases right with
    | list others =>
      rw [sameItems_iff]
      refine and_congr_right fun _ => ?_
      refine forall_congr' fun i => forall₂_congr fun a b => forall₂_congr fun left right => ?_
      exact ih a (List.mem_of_getElem? left) (others b (List.mem_of_getElem? right))
  | object distinct _ ih =>
    rw [same_object_iff, equal_object_iff]
    refine exists_congr fun bs => and_congr_right fun made => ?_
    subst made
    cases right with
    | object apart others =>
      rw [sameObjects_iff distinct apart]
      refine and_congr_right fun _ => ?_
      refine forall_congr' fun name => forall₂_congr fun a b => forall₂_congr fun left right => ?_
      exact ih (name, a) left (others (name, b) right)

theorem Definite.same_self (definite : Definite a) : a.same a = true :=
  (definite.same_iff_equal definite).mpr definite.equal_self

theorem Definite.same_comm (left : Definite a) (right : Definite b) : a.same b = b.same a := by
  rw [Bool.eq_iff_iff, left.same_iff_equal right, right.same_iff_equal left]
  exact ⟨Equal.symm, Equal.symm⟩

/-- Among definite documents, being the same is an equivalence. -/
theorem same_equivalence :
    Equivalence fun a b : { document // Definite document } => a.1.same b.1 = true where
  refl a := a.2.same_self
  symm {a b} same := (a.2.same_comm b.2).symm.trans same
  trans {a b c} first second := (a.2.same_iff_equal c.2).mpr
    (((a.2.same_iff_equal b.2).mp first).trans ((b.2.same_iff_equal c.2).mp second))

end Settlement.Document
