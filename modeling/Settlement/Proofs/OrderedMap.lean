import Mathlib.Data.List.Induction
import Settlement.Proofs.Table
/-!
Maps that are made from lists. A key stands where the list first has it, under the value that the
list has for it last.
-/
namespace Settlement.OrderedMap

variable {κ α : Type} [DecidableEq κ]

theorem ofList_concat (entries : List (κ × α)) (entry : κ × α) :
    ofList (entries ++ [entry]) = (ofList entries).insert entry.1 entry.2 := by
  rw [ofList, List.foldl_append]
  rfl

theorem keys_ofList (entries : List (κ × α)) :
    (ofList entries).keys = (entries.map Prod.fst).eraseDups := by
  induction entries using List.reverseRecOn with
  | nil => rfl
  | append_singleton earlier entry ih =>
    rw [ofList_concat, keys_insert, ih, List.map_append, List.map_singleton, List.eraseDups_append]
    by_cases present : entry.1 ∈ earlier.map Prod.fst
    · rw [if_pos (List.mem_eraseDups.mpr present)]
      simp [List.removeAll, present]
    · rw [if_neg (fun member => present (List.mem_eraseDups.mp member))]
      simp [List.removeAll, present, List.eraseDups_cons]

/-- The entries of the map are the last ones of their keys. -/
theorem mem_entries_ofList {entries : List (κ × α)} {key : κ} {value : α} :
    (key, value) ∈ (ofList entries).entries ↔
      ∃ front back, entries = front ++ (key, value) :: back ∧ key ∉ back.map Prod.fst := by
  rw [← find?_eq_some_iff]
  induction entries using List.reverseRecOn with
  | nil => simp [ofList, find?_empty]
  | append_singleton earlier entry ih =>
    obtain ⟨last, new⟩ := entry
    rw [ofList_concat, find?_insert]
    constructor
    · intro found
      split at found
      · rename_i same
        subst same
        cases found
        exact ⟨earlier, [], rfl, List.not_mem_nil⟩
      · rename_i other
        obtain ⟨front, back, rfl, absent⟩ := ih.mp found
        refine ⟨front, back ++ [(last, new)], by simp, ?_⟩
        simp [absent, Ne.symm other]
    · intro holds
      obtain ⟨front, back, split, absent⟩ := holds
      rcases List.eq_nil_or_concat back with rfl | ⟨behind, final, rfl⟩
      · obtain ⟨rfl, same⟩ := List.append_inj' split rfl
        cases same
        rw [if_pos rfl]
      · rw [List.concat_eq_append, ← List.cons_append, ← List.append_assoc] at split
        obtain ⟨rfl, same⟩ := List.append_inj' split rfl
        cases same
        rw [List.concat_eq_append, List.map_append, List.mem_append, not_or] at absent
        have other : ¬last = key := fun same => absent.2 (by simp [same])
        rw [if_neg other]
        exact ih.mpr ⟨front, behind, rfl, absent.1⟩

theorem entries_ofList_of_nodup {entries : List (κ × α)}
    (distinct : (entries.map Prod.fst).Nodup) : (ofList entries).entries = entries := by
  induction entries using List.reverseRecOn with
  | nil => rfl
  | append_singleton earlier entry ih =>
    rw [List.map_append, List.map_singleton, List.nodup_append] at distinct
    have same := ih distinct.1
    have absent : (ofList earlier).find? entry.1 = none := by
      rw [find?_eq_none_iff, same]
      intro member
      exact distinct.2.2 _ member _ (List.mem_singleton_self _) rfl
    rw [ofList_concat, entries_insert_of_absent absent, same]

theorem ofList_entries (map : OrderedMap κ α) : ofList map.entries = map :=
  ext_entries (entries_ofList_of_nodup map.distinct)

/-- Only a list that has a key twice makes a map with other entries. -/
theorem entries_ofList_eq_iff {entries : List (κ × α)} :
    (ofList entries).entries = entries ↔ (entries.map Prod.fst).Nodup := by
  constructor
  · intro same
    rw [← same]
    exact (ofList entries).distinct
  · exact entries_ofList_of_nodup

end Settlement.OrderedMap
