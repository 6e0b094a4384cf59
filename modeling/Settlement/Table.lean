/-!
Tables with one entry for every member of a closed kind.
-/
namespace Settlement

/-- A kind with finitely many members in a fixed order. -/
class Enumeration (ι : Type) where
  count : Nat
  members : Vector ι count
  index : ι → Fin count
  members_index : ∀ i, members[index i] = i
  index_members : ∀ k : Fin count, index members[k] = k

namespace Enumeration

/-- The members in order. -/
def all (ι : Type) [Enumeration ι] : List ι := (members (ι := ι)).toList

theorem mem_all {ι : Type} [Enumeration ι] (i : ι) : i ∈ all ι := by
  have here := members_index i
  exact here ▸ by simp [all]

theorem index_injective {ι : Type} [Enumeration ι] {i j : ι} (same : index i = index j) :
    i = j := by
  have left := members_index i
  have right := members_index j
  simp only [same] at left
  exact left.symm.trans right

theorem nodup_all (ι : Type) [Enumeration ι] : (all ι).Nodup := by
  rw [List.nodup_iff_pairwise_ne, List.pairwise_iff_getElem]
  intro i j hi hj less same
  simp only [all, Vector.length_toList] at hi hj
  have left := index_members (ι := ι) ⟨i, hi⟩
  have right := index_members (ι := ι) ⟨j, hj⟩
  simp only [all, Vector.getElem_toList] at same
  simp only [Fin.getElem_fin] at left right
  rw [same, right] at left
  exact absurd (Fin.mk.inj left) (Nat.ne_of_gt less)

end Enumeration

/-- One entry for every member of a kind. -/
structure Table (ι : Type) [Enumeration ι] (α : Type) where
  slots : Vector α (Enumeration.count ι)

namespace Table

variable {ι : Type} [Enumeration ι] {α β γ : Type}

instance : GetElem (Table ι α) ι α (fun _ _ => True) where
  getElem table i _ := table.slots[Enumeration.index i]

def ofFn (f : ι → α) : Table ι α := ⟨Enumeration.members.map f⟩

def const (value : α) : Table ι α := ofFn fun _ => value

def set (table : Table ι α) (i : ι) (value : α) : Table ι α :=
  ⟨table.slots.set (Enumeration.index i) value⟩

def modify (table : Table ι α) (i : ι) (f : α → α) : Table ι α := table.set i (f table[i])

def map (f : α → β) (table : Table ι α) : Table ι β := ⟨table.slots.map f⟩

def zipWith (f : α → β → γ) (a : Table ι α) (b : Table ι β) : Table ι γ :=
  ⟨a.slots.zipWith f b.slots⟩

def toList (table : Table ι α) : List α := table.slots.toList

/-- Sets several entries, one after the other. -/
def setAll (table : Table ι α) (entries : List (ι × α)) : Table ι α :=
  entries.foldl (fun table entry => table.set entry.1 entry.2) table

theorem getElem_eq (table : Table ι α) (i : ι) : table[i] = table.slots[Enumeration.index i] := rfl

@[ext]
theorem ext {a b : Table ι α} (same : ∀ i : ι, a[i] = b[i]) : a = b := by
  obtain ⟨a⟩ := a
  obtain ⟨b⟩ := b
  congr 1
  apply Vector.ext
  intro k bound
  have here := same (Enumeration.members (ι := ι))[k]
  simp only [getElem_eq] at here
  have back := Enumeration.index_members (ι := ι) ⟨k, bound⟩
  simp only [Fin.getElem_fin] at back here
  simpa [back] using here

@[simp]
theorem getElem_ofFn (f : ι → α) (i : ι) : (ofFn f)[i] = f i := by
  have here := Enumeration.members_index i
  simp only [Fin.getElem_fin] at here
  simp [getElem_eq, ofFn, here]

@[simp]
theorem getElem_const (value : α) (i : ι) : (const value : Table ι α)[i] = value :=
  getElem_ofFn _ i

@[simp]
theorem getElem_set_self (table : Table ι α) (i : ι) (value : α) :
    (table.set i value)[i] = value := by
  simp [getElem_eq, set]

theorem getElem_set_ne (table : Table ι α) {i j : ι} (value : α) (other : i ≠ j) :
    (table.set i value)[j] = table[j] := by
  have apart : (Enumeration.index i).val ≠ (Enumeration.index j).val :=
    fun same => other (Enumeration.index_injective (Fin.ext same))
  simp [getElem_eq, set, Vector.getElem_set_ne, apart]

theorem getElem_set [DecidableEq ι] (table : Table ι α) (i j : ι) (value : α) :
    (table.set i value)[j] = if i = j then value else table[j] := by
  by_cases same : i = j
  · subst same; simp
  · simp [same, getElem_set_ne]

@[simp]
theorem getElem_map (f : α → β) (table : Table ι α) (i : ι) : (table.map f)[i] = f table[i] := by
  simp [getElem_eq, map]

@[simp]
theorem getElem_zipWith (f : α → β → γ) (a : Table ι α) (b : Table ι β) (i : ι) :
    (zipWith f a b)[i] = f a[i] b[i] := by
  simp [getElem_eq, zipWith]

end Table

end Settlement
