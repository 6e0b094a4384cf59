/-!
Maps that keep the order in which their keys were first inserted. Look-ups see the last value
inserted under a key.
-/
namespace Settlement

structure OrderedMap (κ α : Type) where
  entries : List (κ × α)
  distinct : (entries.map Prod.fst).Nodup

namespace OrderedMap

variable {κ α β : Type} [DecidableEq κ]

def empty : OrderedMap κ α := ⟨[], List.nodup_nil⟩

def keys (map : OrderedMap κ α) : List κ := map.entries.map Prod.fst

def values (map : OrderedMap κ α) : List α := map.entries.map Prod.snd

def size (map : OrderedMap κ α) : Nat := map.entries.length

def find? (map : OrderedMap κ α) (key : κ) : Option α :=
  (map.entries.find? (·.1 = key)).map Prod.snd

def contains (map : OrderedMap κ α) (key : κ) : Bool := (map.find? key).isSome

/-- Replaces the value of a key in its place, or adds the key at the end. -/
def place (key : κ) (value : α) : List (κ × α) → List (κ × α)
  | [] => [(key, value)]
  | (found, old) :: rest =>
    if found = key then (found, value) :: rest else (found, old) :: place key value rest

theorem keys_place (key : κ) (value : α) (entries : List (κ × α)) :
    (place key value entries).map Prod.fst =
      if key ∈ entries.map Prod.fst then entries.map Prod.fst
      else entries.map Prod.fst ++ [key] := by
  induction entries with
  | nil => simp [place]
  | cons entry rest step =>
    obtain ⟨found, old⟩ := entry
    by_cases same : found = key
    · simp [place, same]
    · have other : ¬key = found := fun h => same h.symm
      simp only [place, same, if_false, List.map_cons, step, List.mem_cons, other, false_or]
      split <;> simp

def insert (map : OrderedMap κ α) (key : κ) (value : α) : OrderedMap κ α where
  entries := place key value map.entries
  distinct := by
    rw [keys_place]
    split
    · exact map.distinct
    · rename_i absent
      refine List.nodup_append.2 ⟨map.distinct, by simp, ?_⟩
      intro a member b single same
      simp only [List.mem_singleton] at single
      exact absent (single ▸ same ▸ member)

def erase (map : OrderedMap κ α) (key : κ) : OrderedMap κ α where
  entries := map.entries.filter (·.1 ≠ key)
  distinct := map.distinct.sublist (List.filter_sublist.map Prod.fst)

/-- Later entries of a key replace earlier ones in their place. -/
def ofList (entries : List (κ × α)) : OrderedMap κ α :=
  entries.foldl (fun map entry => map.insert entry.1 entry.2) empty

theorem find?_empty (key : κ) : (empty : OrderedMap κ α).find? key = none := rfl

theorem keys_insert (map : OrderedMap κ α) (key : κ) (value : α) :
    (map.insert key value).keys = if key ∈ map.keys then map.keys else map.keys ++ [key] :=
  keys_place key value map.entries

private theorem find?_place (key wanted : κ) (value : α) (entries : List (κ × α)) :
    ((place key value entries).find? (·.1 = wanted)).map Prod.snd =
      if key = wanted then some value else (entries.find? (·.1 = wanted)).map Prod.snd := by
  induction entries with
  | nil => by_cases same : key = wanted <;> simp [place, same]
  | cons entry rest step =>
    obtain ⟨found, old⟩ := entry
    by_cases here : found = key
    · subst here
      by_cases same : found = wanted <;> simp [place, same]
    · by_cases same : found = wanted
      · subst same
        have other : ¬key = found := fun h => here h.symm
        simp [place, here, other]
      · simp [place, here, same, step]

theorem find?_insert (map : OrderedMap κ α) (key wanted : κ) (value : α) :
    (map.insert key value).find? wanted = if key = wanted then some value else map.find? wanted :=
  find?_place key wanted value map.entries

private theorem find?_of_mem {entries : List (κ × α)} (distinct : (entries.map Prod.fst).Nodup)
    {key : κ} {value : α} (member : (key, value) ∈ entries) :
    entries.find? (·.1 = key) = some (key, value) := by
  induction entries with
  | nil => cases member
  | cons entry rest step =>
    rw [List.map_cons, List.nodup_cons] at distinct
    rcases List.mem_cons.1 member with rfl | later
    · simp
    · have other : ¬entry.1 = key := fun same =>
        distinct.1 (same ▸ List.mem_map_of_mem (f := Prod.fst) later)
      rw [List.find?_cons_of_neg (by simpa using other), step distinct.2 later]

/-- A look-up sees exactly the entries. -/
theorem find?_eq_some_iff (map : OrderedMap κ α) (key : κ) (value : α) :
    map.find? key = some value ↔ (key, value) ∈ map.entries := by
  constructor
  · intro found
    obtain ⟨entry, here, rfl⟩ := Option.map_eq_some_iff.1 found
    have same : entry.1 = key := by simpa using List.find?_some here
    exact same ▸ List.mem_of_find?_eq_some here
  · intro member
    rw [find?, find?_of_mem map.distinct member, Option.map_some]

theorem find?_isSome (map : OrderedMap κ α) (key : κ) :
    (map.find? key).isSome = decide (key ∈ map.keys) := by
  rw [Bool.eq_iff_iff, decide_eq_true_iff]
  simp [find?, keys]

theorem find?_erase (map : OrderedMap κ α) (key wanted : κ) :
    (map.erase key).find? wanted = if key = wanted then none else map.find? wanted := by
  unfold find? erase
  rw [List.find?_filter]
  by_cases same : key = wanted
  · subst same
    rw [if_pos rfl, List.find?_eq_none.2]
    · rfl
    · simp
  · rw [if_neg same]
    congr 2
    funext entry
    by_cases here : entry.1 = wanted
    · have other : ¬wanted = key := fun h => same h.symm
      simp [here, other]
    · simp [here]

end OrderedMap

end Settlement
