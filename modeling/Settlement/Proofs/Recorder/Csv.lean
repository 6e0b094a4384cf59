import Settlement.Recorder.Csv
/-!
Comma-separated lines are read back. A cell ends where a comma or a line end stands outside of
quotes, and a cell that holds one of these, or a quote, stands in quotes.
-/
namespace Settlement.Csv

/-- Characters that stand in a cell only inside of quotes. -/
def isSpecial (c : Char) : Bool := c = ',' || c = '"' || c = '\r' || c = '\n'

/-- The progress with more characters in the cell. -/
def Progress.addAll (cs : List Char) (before : Progress) : Progress :=
  { before with cs := cs.reverse ++ before.cs }

theorem Progress.addAll_cons (c : Char) (cs : List Char) (before : Progress) :
    before.addAll (c :: cs) = (before.add c).addAll cs := by
  simp [addAll, add]

variable {before : Progress} {c : Char} {rest : List Char}

theorem readOn_quoted (other : c ≠ '"') :
    readOn true before (c :: rest) = readOn true (before.add c) rest := by
  rw [readOn.eq_def]
  split <;> simp_all

theorem readOn_opening : readOn false before ('"' :: rest) = readOn true before rest := by
  simp [readOn]

theorem readOn_closing (apart : rest.head? ≠ some '"') :
    readOn true before ('"' :: rest) = readOn false before rest := by
  cases rest with
  | nil => rfl
  | cons next others =>
    have other : next ≠ '"' := by simpa using apart
    exact readOn.eq_3 _ _ (by simpa using other)

theorem readOn_plain (plain : isSpecial c = false) :
    readOn false before (c :: rest) = readOn false (before.add c) rest := by
  simp only [isSpecial, Bool.or_eq_false_iff, decide_eq_false_iff_not] at plain
  rw [readOn.eq_def]
  split <;> simp_all

theorem readOn_plainAll {cs : List Char} (plain : ∀ c ∈ cs, isSpecial c = false) :
    readOn false before (cs ++ rest) = readOn false (before.addAll cs) rest := by
  induction cs generalizing before with
  | nil => rfl
  | cons c cs ih =>
    rw [List.forall_mem_cons] at plain
    rw [List.cons_append, readOn_plain plain.1, ih plain.2, Progress.addAll_cons]

theorem readOn_doubled (cs : List Char) :
    readOn true before (cs.flatMap (fun c => if c = '"' then ['"', '"'] else [c]) ++ rest) =
      readOn true (before.addAll cs) rest := by
  induction cs generalizing before with
  | nil => rfl
  | cons c cs ih =>
    rw [List.flatMap_cons, Progress.addAll_cons, ← ih]
    by_cases quote : c = '"'
    · subst quote
      rfl
    · rw [if_neg quote]
      exact readOn_quoted quote

/-- A cell is read whole, if no quote follows it. -/
theorem readOn_cell {text : String} (apart : rest.head? ≠ some '"') :
    readOn false before (cell text ++ rest) = readOn false (before.addAll text.toList) rest := by
  unfold cell
  dsimp only
  split
  · rw [List.cons_append, List.cons_append, List.append_assoc]
    rw [readOn_opening, readOn_doubled]
    exact readOn_closing apart
  · rename_i plain
    refine readOn_plainAll fun c member => ?_
    simpa [isSpecial] using fun special => plain (List.any_eq_true.mpr ⟨c, member, special⟩)

variable {rows : List (List String)} {cells : List String}

private theorem endCell_addAll (text : String) :
    (Progress.addAll text.toList ⟨rows, cells, []⟩).endCell = ⟨rows, text :: cells, []⟩ := by
  simp [Progress.endCell, Progress.addAll]

/-- Induction on the cells after the one that is being read. -/
private theorem readOn_cells (text : String) (others : List String) :
    readOn false (Progress.addAll text.toList ⟨rows, cells, []⟩)
        (others.flatMap (fun text => ',' :: cell text) ++ lineEnd ++ rest) =
      readOn false ⟨(cells.reverse ++ text :: others) :: rows, [], []⟩ rest := by
  induction others generalizing text cells with
  | nil =>
    show readOn false (Progress.endRow _) rest = _
    rw [Progress.endRow, endCell_addAll]
    simp
  | cons other more ih =>
    have apart : (more.flatMap (fun text => ',' :: cell text) ++ lineEnd ++ rest).head? ≠
        some '"' := by
      cases more <;> simp [lineEnd]
    rw [List.flatMap_cons, List.append_assoc, List.append_assoc, List.cons_append]
    show readOn false (Progress.endCell _) _ = _
    rw [endCell_addAll, ← List.append_assoc (more.flatMap _), readOn_cell apart, ih]
    simp

/-- A line is read as one row. -/
theorem readOn_line {row : List String} (filled : row ≠ []) :
    readOn false ⟨rows, [], []⟩ (line row ++ rest) = readOn false ⟨row :: rows, [], []⟩ rest := by
  cases row with
  | nil => exact absurd rfl filled
  | cons first others =>
    have apart : (others.flatMap (fun text => ',' :: cell text) ++ lineEnd ++ rest).head? ≠
        some '"' := by
      cases others <;> simp [lineEnd]
    rw [line, List.append_assoc, List.append_assoc, ← List.append_assoc (others.flatMap _),
      readOn_cell apart, readOn_cells]
    rfl

/-- What is written is read back. -/
theorem read_write {table : List (List String)} (filled : ∀ row ∈ table, row ≠ []) :
    read (write table) = table := by
  have general (rows : List (List String)) :
      readOn false ⟨rows, [], []⟩ (table.flatMap line) = rows.reverse ++ table := by
    induction table generalizing rows with
    | nil => simp [readOn]
    | cons row more ih =>
      rw [List.forall_mem_cons] at filled
      rw [List.flatMap_cons, readOn_line filled.1, ih filled.2]
      simp
  rw [read, write, String.toList_ofList]
  exact general []

end Settlement.Csv
