import Mathlib.Algebra.BigOperators.Group.List.Basic
import Settlement.OrderedMap
import Settlement.Table
/-!
Tables that are changed entry by entry, and maps whose values are changed under their keys.
-/
namespace Settlement

namespace Table

variable {ι : Type} [Enumeration ι] [DecidableEq ι] {α β M : Type}

instance [DecidableEq α] : DecidableEq (Table ι α) := fun a b =>
  decidable_of_iff (∀ i ∈ Enumeration.all ι, a[i] = b[i])
    ⟨fun same => ext fun i => same i (Enumeration.mem_all i), fun same i _ => congrArg (·[i]) same⟩

omit [DecidableEq ι] in
theorem toList_eq (table : Table ι α) : table.toList = (Enumeration.all ι).map (table[·]) := by
  refine List.ext_getElem (by simp [toList, Enumeration.all]) fun k first second => ?_
  have bound : k < Enumeration.count ι := by simpa [toList] using first
  have index := Enumeration.index_members (ι := ι) ⟨k, bound⟩
  simp only [Fin.getElem_fin] at index
  simp [toList, Enumeration.all, getElem_eq, index]

theorem getElem_modify (table : Table ι α) (i j : ι) (f : α → α) :
    (table.modify i f)[j] = if i = j then f table[j] else table[j] := by
  rw [modify, getElem_set]
  split
  · rename_i same
    rw [same]
  · rfl

/-- What holds of all entries holds of them still, if it holds of what an entry is changed to. -/
theorem forall_getElem_modify {property : α → Prop} {table : Table ι α} {f : α → α}
    (all : ∀ i : ι, property table[i]) (i : ι) (changed : property (f table[i])) (j : ι) :
    property (table.modify i f)[j] := by
  rw [getElem_modify]
  split
  · rename_i same
    exact same ▸ changed
  · exact all j

/-- What holds of all entries holds of them still after changes that keep it. -/
theorem forall_getElem_foldl {property : α → Prop} (key : β → ι) (f : β → α → α) {items : List β}
    (keeps : ∀ item ∈ items, ∀ entry, property entry → property (f item entry))
    {table : Table ι α} (all : ∀ i : ι, property table[i]) (i : ι) :
    property (items.foldl (fun table item => table.modify (key item) (f item)) table)[i] := by
  refine List.foldlRecOn items _ (motive := fun table => ∀ i : ι, property table[i]) all ?_ i
  intro table kept item member
  exact forall_getElem_modify kept (key item) (keeps item member _ (kept _))

/-- Additions to entries add up, entry by entry. -/
theorem getElem_foldl_add [AddMonoid M] (key : α → ι) (term : α → M) (items : List α)
    (table : Table ι M) (i : ι) :
    (items.foldl (fun table item => table.modify (key item) (· + term item)) table)[i] =
      table[i] + ((items.filter (key · = i)).map term).sum := by
  induction items generalizing table with
  | nil => simp
  | cons item rest ih =>
    rw [List.foldl_cons, ih, getElem_modify]
    by_cases here : key item = i
    · simp [here, add_assoc]
    · simp [here]

private theorem getElem_foldl_modify_of_not_mem (f : ι × β → α → α) {entries : List (ι × β)}
    (table : Table ι α) {i : ι} (absent : i ∉ entries.map Prod.fst) :
    (entries.foldl (fun table entry => table.modify entry.1 (f entry)) table)[i] = table[i] := by
  induction entries generalizing table with
  | nil => rfl
  | cons entry rest ih =>
    rw [List.map_cons, List.mem_cons, not_or] at absent
    rw [List.foldl_cons, ih _ absent.2, getElem_modify, if_neg (Ne.symm absent.1)]

private theorem getElem_foldl_modify_of_nodup (f : ι × β → α → α) {entries : List (ι × β)}
    (distinct : (entries.map Prod.fst).Nodup) (table : Table ι α) (i : ι) :
    (entries.foldl (fun table entry => table.modify entry.1 (f entry)) table)[i] =
      (entries.find? (·.1 = i)).elim table[i] fun entry => f entry table[i] := by
  induction entries generalizing table with
  | nil => rfl
  | cons entry rest ih =>
    rw [List.map_cons, List.nodup_cons] at distinct
    rw [List.foldl_cons]
    by_cases here : entry.1 = i
    · subst here
      rw [getElem_foldl_modify_of_not_mem f _ distinct.1, getElem_modify, if_pos rfl,
        List.find?_cons_of_pos (by simp), Option.elim_some]
    · rw [ih distinct.2, getElem_modify, if_neg here, List.find?_cons_of_neg (by simpa using here)]

/-- Changes under the keys of a map reach each entry once. -/
theorem getElem_foldl_modify (map : OrderedMap ι β) (f : ι × β → α → α) (table : Table ι α)
    (i : ι) :
    (map.entries.foldl (fun table entry => table.modify entry.1 (f entry)) table)[i] =
      (map.find? i).elim table[i] fun value => f (i, value) table[i] := by
  rw [getElem_foldl_modify_of_nodup f map.distinct, OrderedMap.find?]
  cases found : map.entries.find? (·.1 = i) with
  | none => rfl
  | some entry =>
    have same : entry.1 = i := by simpa using List.find?_some found
    obtain ⟨key, value⟩ := entry
    exact same ▸ rfl

/-- The table with the entries of another for all that is no key of a map. -/
def withOutside (map : OrderedMap ι β) (other table : Table ι α) : Table ι α :=
  ofFn fun i => if map.contains i then table[i] else other[i]

theorem getElem_withOutside_of_contains {map : OrderedMap ι β} {i : ι}
    (present : map.contains i = true) (other table : Table ι α) :
    (withOutside map other table)[i] = table[i] := by
  rw [withOutside, getElem_ofFn, if_pos present]

theorem getElem_withOutside_of_find?_eq_none {map : OrderedMap ι β} {i : ι}
    (absent : map.find? i = none) (other table : Table ι α) :
    (withOutside map other table)[i] = other[i] := by
  rw [withOutside, getElem_ofFn, OrderedMap.contains, absent]
  rfl

theorem withOutside_self (map : OrderedMap ι β) (table : Table ι α) :
    withOutside map table table = table :=
  ext fun i => by rw [withOutside, getElem_ofFn, ite_self]

theorem withOutside_set {map : OrderedMap ι β} {i : ι} (present : map.contains i = true)
    (other table : Table ι α) (value : α) :
    (withOutside map other table).set i value = withOutside map other (table.set i value) := by
  refine ext fun j => ?_
  rw [withOutside, withOutside, getElem_set, getElem_ofFn, getElem_ofFn, getElem_set]
  split
  · rename_i same
    rw [if_pos (same ▸ present)]
  · rfl

/-- Changes under the keys of a map leave alone what stands outside of it. -/
theorem withOutside_foldl_modify (map : OrderedMap ι β) {f g : ι × β → α → α}
    (same : ∀ entry ∈ map.entries, f entry = g entry) (other table : Table ι α) :
    map.entries.foldl (fun table entry => table.modify entry.1 (f entry))
        (withOutside map other table) =
      withOutside map other
        (map.entries.foldl (fun table entry => table.modify entry.1 (g entry)) table) := by
  refine ext fun i => ?_
  cases found : map.find? i with
  | none =>
    rw [getElem_foldl_modify, found, Option.elim_none,
      getElem_withOutside_of_find?_eq_none found, getElem_withOutside_of_find?_eq_none found]
  | some value =>
    have present : map.contains i = true := by rw [OrderedMap.contains, found, Option.isSome_some]
    rw [getElem_withOutside_of_contains present, getElem_foldl_modify, getElem_foldl_modify, found,
      Option.elim_some, Option.elim_some, getElem_withOutside_of_contains present,
      same _ ((OrderedMap.find?_eq_some_iff _ _ _).mp found)]

end Table

namespace OrderedMap

variable {κ α β γ : Type}

theorem ext_entries {a b : OrderedMap κ α} (same : a.entries = b.entries) : a = b := by
  cases a
  cases b
  cases same
  rfl

/-- The same keys with other values. -/
def mapValues (f : α → β) (map : OrderedMap κ α) : OrderedMap κ β where
  entries := map.entries.map fun entry => (entry.1, f entry.2)
  distinct := by
    rw [List.map_map]
    exact map.distinct

/-- The same keys with other values, which may depend on the keys. -/
def mapEntries (f : κ → α → β) (map : OrderedMap κ α) : OrderedMap κ β where
  entries := map.entries.map fun entry => (entry.1, f entry.1 entry.2)
  distinct := by
    rw [List.map_map]
    exact map.distinct

theorem values_mapValues (f : α → β) (map : OrderedMap κ α) :
    (map.mapValues f).values = map.values.map f := by
  simp [values, mapValues, Function.comp_def]

theorem mapValues_mapValues (f : α → β) (g : β → γ) (map : OrderedMap κ α) :
    (map.mapValues f).mapValues g = map.mapValues (g ∘ f) := by
  simp [mapValues, Function.comp_def]

variable [DecidableEq κ]

theorem find?_mapValues (f : α → β) (map : OrderedMap κ α) (key : κ) :
    (map.mapValues f).find? key = (map.find? key).map f := by
  simp only [find?, mapValues, List.find?_map, Option.map_map, Function.comp_def]

theorem contains_of_mem {map : OrderedMap κ α} {entry : κ × α} (member : entry ∈ map.entries) :
    map.contains entry.1 = true := by
  rw [contains, (find?_eq_some_iff _ _ _).mpr member, Option.isSome_some]

theorem mapValues_insert (f : α → β) (map : OrderedMap κ α) (key : κ) (value : α) :
    (map.insert key value).mapValues f = (map.mapValues f).insert key (f value) := by
  have placed (entries : List (κ × α)) :
      (place key value entries).map (fun entry => (entry.1, f entry.2)) =
        place key (f value) (entries.map fun entry => (entry.1, f entry.2)) := by
    induction entries with
    | nil => rfl
    | cons entry rest ih =>
      rw [List.map_cons, place, place]
      split
      · rfl
      · rw [List.map_cons, ih]
  exact ext_entries (placed map.entries)

theorem eq_or_mem_of_mem_place {key : κ} {value : α} {entries : List (κ × α)} {entry : κ × α}
    (member : entry ∈ place key value entries) : entry = (key, value) ∨ entry ∈ entries := by
  induction entries with
  | nil => simpa [place] using member
  | cons first rest ih =>
    rw [place] at member
    split at member
    · rename_i same
      subst same
      exact (List.mem_cons.mp member).imp_right (List.mem_cons_of_mem first)
    · rcases List.mem_cons.mp member with here | later
      · exact .inr (here ▸ List.mem_cons_self)
      · exact (ih later).imp_right (List.mem_cons_of_mem first)

/-- What holds of all entries of a list holds of the map that they make. -/
theorem forall_mem_ofList {property : κ × α → Prop} {entries : List (κ × α)}
    (all : ∀ entry ∈ entries, property entry) :
    ∀ entry ∈ (ofList entries).entries, property entry := by
  have general : ∀ map : OrderedMap κ α, (∀ entry ∈ map.entries, property entry) →
      ∀ entry ∈ (entries.foldl (fun map entry => map.insert entry.1 entry.2) map).entries,
        property entry := by
    induction entries with
    | nil => exact fun map kept => kept
    | cons first rest ih =>
      rw [List.forall_mem_cons] at all
      intro map kept
      apply ih all.2
      intro entry member
      rcases eq_or_mem_of_mem_place member with new | old
      · exact new ▸ all.1
      · exact kept entry old
  exact general empty (by simp [empty])

/-- A key that is present keeps its place. -/
theorem place_append {front back : List (κ × α)} {key : κ} (old value : α)
    (absent : key ∉ front.map Prod.fst) :
    place key value (front ++ (key, old) :: back) = front ++ (key, value) :: back := by
  induction front with
  | nil => simp [place]
  | cons entry rest ih =>
    rw [List.map_cons, List.mem_cons, not_or] at absent
    rw [List.cons_append, place, if_neg (Ne.symm absent.1), ih absent.2, List.cons_append]

/-- A key that is present stands at one place. -/
theorem exists_entries_eq {map : OrderedMap κ α} {key : κ} {value : α}
    (found : map.find? key = some value) :
    ∃ front back, map.entries = front ++ (key, value) :: back ∧ key ∉ front.map Prod.fst := by
  obtain ⟨front, back, split⟩ := List.append_of_mem ((find?_eq_some_iff map key value).mp found)
  refine ⟨front, back, split, fun member => ?_⟩
  have distinct := map.distinct
  rw [split, List.map_append, List.nodup_append] at distinct
  exact distinct.2.2 key member key (by simp) rfl

/-- To insert what is there changes nothing. -/
theorem insert_self {map : OrderedMap κ α} {key : κ} {value : α}
    (found : map.find? key = some value) : map.insert key value = map := by
  obtain ⟨front, back, split, absent⟩ := exists_entries_eq found
  apply ext_entries
  show place key value map.entries = map.entries
  rw [split, place_append value value absent]

theorem find?_eq_none_iff {map : OrderedMap κ α} {key : κ} :
    map.find? key = none ↔ key ∉ map.entries.map Prod.fst := by
  rw [← Option.not_isSome_iff_eq_none, find?_isSome, decide_eq_true_iff]
  rfl

/-- A key that is not there is added at the end. -/
theorem entries_insert_of_absent {map : OrderedMap κ α} {key : κ}
    (absent : map.find? key = none) (value : α) :
    (map.insert key value).entries = map.entries ++ [(key, value)] := by
  rw [find?_eq_none_iff] at absent
  show place key value map.entries = _
  generalize map.entries = entries at absent
  induction entries with
  | nil => rfl
  | cons entry rest ih =>
    rw [List.map_cons, List.mem_cons, not_or] at absent
    rw [place, if_neg (Ne.symm absent.1), ih absent.2, List.cons_append]

/-- Under a key that is there, the value is replaced. -/
theorem entries_insert_of_present {map : OrderedMap κ α} {key : κ} {old : α}
    (found : map.find? key = some old) (value : α) :
    (map.insert key value).entries =
      map.entries.map fun entry => if entry.1 = key then (key, value) else entry := by
  obtain ⟨front, back, split, absent⟩ := exists_entries_eq found
  have distinct := map.distinct
  rw [split, List.map_append, List.map_cons, List.nodup_append, List.nodup_cons] at distinct
  have keep {entries : List (κ × α)} (other : key ∉ entries.map Prod.fst) :
      entries.map (fun entry => if entry.1 = key then (key, value) else entry) = entries := by
    refine (List.map_congr_left fun entry member => if_neg fun same => other ?_).trans
      (List.map_id entries)
    exact same ▸ List.mem_map_of_mem member
  show place key value map.entries = _
  rw [split, place_append old value absent, List.map_append, List.map_cons, keep absent,
    keep distinct.2.1.1, if_pos rfl]

end OrderedMap

end Settlement
