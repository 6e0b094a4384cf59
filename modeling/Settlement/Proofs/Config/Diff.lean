import Settlement.Proofs.Config.RoundTrip
import Settlement.Proofs.Document.Same
/-!
Differences of configurations. Laid over what the first configuration is written as, they make it
equal to the second, and none of them can be left out. A parameter is among them exactly if the two
configurations hold documents for it that are not equal.
-/
namespace Settlement.Config

/-- What is read from the configuration as it is written, with what the second one of each
difference holds laid over it. -/
def patched (config : Config) (differences : List (Parameter × Document × Document)) :
    Except Fault Config :=
  ofDocument (.object (differences.foldl
    (fun fields entry => Document.setField entry.1.name entry.2.2 fields) config.fields))

/-- The parameters in which two configurations differ. -/
def differing (a b : Config) : List Parameter :=
  Parameter.all.filter fun parameter => !(a.get parameter).same (b.get parameter)

variable {a b : Config} {parameter : Parameter}

theorem mem_differing_iff :
    parameter ∈ differing a b ↔ (a.get parameter).same (b.get parameter) = false := by
  rw [differing, List.mem_filter, Bool.not_eq_true']
  exact and_iff_right (Enumeration.mem_all parameter)

theorem nodup_differing (a b : Config) : (differing a b).Nodup :=
  (Enumeration.nodup_all Parameter).filter _

theorem diff_eq (a b : Config) : a.diff b =
    (differing a b).map fun parameter => (parameter, a.get parameter, b.get parameter) := by
  rw [diff, differing, ← List.filterMap_eq_filter, List.map_filterMap]
  refine List.filterMap_congr fun parameter _ => ?_
  cases same : (a.get parameter).same (b.get parameter) <;> simp [Option.guard, same]

theorem mem_diff_iff {left right : Document} : (parameter, left, right) ∈ a.diff b ↔
    left = a.get parameter ∧ right = b.get parameter ∧
      (a.get parameter).same (b.get parameter) = false := by
  rw [diff_eq, List.mem_map]
  constructor
  · rintro ⟨other, member, made⟩
    cases made
    exact ⟨rfl, rfl, mem_differing_iff.mp member⟩
  · rintro ⟨rfl, rfl, apart⟩
    exact ⟨parameter, mem_differing_iff.mpr apart, rfl⟩

/-- Some of the differences are those in some of the parameters. -/
theorem filter_diff_eq (kept : Parameter → Bool) :
    ((a.diff b).filter fun entry => kept entry.1) = ((differing a b).filter kept).map
      fun parameter => (parameter, a.get parameter, b.get parameter) := by
  rw [diff_eq, List.filter_map]
  rfl

theorem filter_diff_eq_singleton {entry : Parameter × Document × Document}
    (member : entry ∈ a.diff b) : ((a.diff b).filter fun other => other.1 = entry.1) = [entry] := by
  obtain ⟨parameter, left, right⟩ := entry
  obtain ⟨rfl, rfl, apart⟩ := mem_diff_iff.mp member
  have alone : (differing a b).filter (fun other => decide (other = parameter)) = [parameter] := by
    rw [List.filter_eq, List.count_eq_one_of_mem (nodup_differing a b) (mem_differing_iff.mpr apart)]
    rfl
  rw [filter_diff_eq (fun other => decide (other = parameter)), alone]
  rfl

/-! Differences laid over. -/

/-- Induction on the differences, of which each sets one parameter. -/
theorem exists_patched {differences : List (Parameter × Document × Document)} (config : Config)
    (holds : ∀ entry ∈ differences, entry.2.2 = b.get entry.1) :
    ∃ reached, config.patched differences = .ok reached ∧ ∀ parameter, reached.get parameter =
      if parameter ∈ differences.map Prod.fst then b.get parameter else config.get parameter := by
  induction differences generalizing config with
  | nil => exact ⟨config, config.ofDocument_toDocument, fun parameter => rfl⟩
  | cons entry others ih =>
    rw [List.forall_mem_cons] at holds
    obtain ⟨reached, read, kept⟩ := ih (config.set entry.1 entry.2.2) holds.2
    refine ⟨reached, ?_, fun parameter => ?_⟩
    · rw [patched, List.foldl_cons, setField_fields]
      exact read
    · rw [kept, List.map_cons]
      by_cases same : entry.1 = parameter
      · subst same
        simp [get_set_self, holds.1]
      · have tail : parameter ∈ entry.1 :: others.map Prod.fst ↔
            parameter ∈ others.map Prod.fst :=
          List.mem_cons.trans (or_iff_right (Ne.symm same))
        rw [get_set_ne config same, if_congr tail rfl rfl]

/-- Where some of the differences are laid over, the others are left. -/
theorem differing_of_laid {reached : Config} {laid : Parameter → Bool}
    (definite : ∀ parameter, (b.get parameter).Definite)
    (holds : ∀ parameter, reached.get parameter =
      if parameter ∈ differing a b ∧ laid parameter = true then b.get parameter
      else a.get parameter) :
    differing reached b = (differing a b).filter fun parameter => !laid parameter := by
  rw [differing, differing, List.filter_filter]
  refine List.filter_congr fun parameter _ => ?_
  rw [holds]
  split
  · rename_i done
    rw [(definite parameter).same_self, done.2]
    rfl
  · rename_i kept
    rw [mem_differing_iff, not_and, Bool.not_eq_true] at kept
    cases same : (a.get parameter).same (b.get parameter) with
    | false =>
      rw [kept same]
      rfl
    | true => rw [Bool.not_true, Bool.and_false]

/-- What is left of the differences once some of them are laid over. -/
theorem exists_patched_filter (definite : ∀ parameter, (b.get parameter).Definite)
    (laid : Parameter → Bool) :
    ∃ reached, a.patched ((a.diff b).filter fun entry => laid entry.1) = .ok reached ∧
      reached.diff b = (a.diff b).filter fun entry => !laid entry.1 := by
  obtain ⟨reached, read, holds⟩ := exists_patched (b := b) a fun entry member =>
    (mem_diff_iff.mp (List.mem_of_mem_filter member)).2.1
  have overlaid (parameter : Parameter) :
      parameter ∈ ((a.diff b).filter fun entry => laid entry.1).map Prod.fst ↔
        parameter ∈ differing a b ∧ laid parameter = true := by
    simp [filter_diff_eq]
  replace holds (parameter : Parameter) :=
    (holds parameter).trans (if_congr (overlaid parameter) rfl rfl)
  refine ⟨reached, read, ?_⟩
  rw [filter_diff_eq (fun parameter => !laid parameter), diff_eq, differing_of_laid definite holds]
  refine List.map_congr_left fun parameter member => ?_
  have out : laid parameter ≠ true := by simpa using (List.mem_filter.mp member).2
  rw [holds, if_neg fun done => out done.2]

theorem diff_eq_nil_iff : a.diff b = [] ↔
    ∀ parameter, (a.get parameter).same (b.get parameter) = true := by
  rw [diff_eq, List.map_eq_nil_iff, List.eq_nil_iff_forall_not_mem]
  refine forall_congr' fun parameter => ?_
  rw [mem_differing_iff, Bool.not_eq_false]

/-! What is read. -/

theorem definite_standard (parameter : Parameter) : (standard.get parameter).Definite := by
  rw [get, standard, Table.getElem_ofFn]
  have empty : Document.Definite (.object []) := .object List.nodup_nil (List.forall_mem_nil _)
  cases parameter
  case experimentName => exact .text
  case randomSeed | replenishment | recipes => exact .null
  case clampPopulation => exact .boolean
  case initialStocks | initialLabors | decayRates => exact empty
  case initialValues =>
    refine .object (by decide) (List.forall_mem_cons.mpr ⟨.number (by decide +kernel), ?_⟩)
    exact List.forall_mem_singleton.mpr (.number (by decide +kernel))
  all_goals exact .number (by decide +kernel)

theorem definite_of_ofDocument {document : Document} (definite : document.Definite)
    (read : ofDocument document = .ok a) (parameter : Parameter) : (a.get parameter).Definite := by
  cases definite with
  | object _ each => exact (gives_ofFields definite_standard each).kind_of_eq_ok read parameter
  | _ => cases read

/-! All differences, and all but one. -/

/-- The differences of two configurations that are read from definite documents are a complete and
a minimal patch. All laid over the first, they leave no difference from the second; all but one,
they leave that one. They are the parameters that hold documents which are not equal, and seen from
the second configuration they are the same with their two sides exchanged. -/
theorem diff_is_minimal_patch {first second : Document} (left : first.Definite)
    (right : second.Definite) (read : ofDocument first = .ok a) (other : ofDocument second = .ok b) :
    (∃ c, a.patched (a.diff b) = .ok c ∧ c.diff b = []) ∧
    (∀ entry ∈ a.diff b, ∃ c,
      a.patched ((a.diff b).filter fun other => other.1 ≠ entry.1) = .ok c ∧
        c.diff b = [entry]) ∧
    (∀ parameter x y, (parameter, x, y) ∈ a.diff b ↔
      x = a.get parameter ∧ y = b.get parameter ∧ ¬x.Equal y) ∧
    (a.diff b = [] ↔ ∀ parameter, (a.get parameter).Equal (b.get parameter)) ∧
    b.diff a = (a.diff b).map fun (parameter, x, y) => (parameter, y, x) := by
  have before := definite_of_ofDocument left read
  have after := definite_of_ofDocument right other
  have equal (parameter : Parameter) := (before parameter).same_iff_equal (after parameter)
  refine ⟨?_, fun entry member => ?_, fun parameter x y => ?_, ?_, ?_⟩
  · obtain ⟨c, patched, left⟩ := exists_patched_filter (a := a) after fun _ => true
    rw [List.filter_true] at patched
    exact ⟨c, patched, left.trans (List.filter_false _)⟩
  · obtain ⟨c, patched, left⟩ := exists_patched_filter (a := a) after
      fun parameter => decide (parameter ≠ entry.1)
    refine ⟨c, patched, left.trans ?_⟩
    simpa using filter_diff_eq_singleton member
  · rw [mem_diff_iff]
    refine and_congr_right fun here => and_congr_right fun there => ?_
    rw [here, there, ← equal parameter, Bool.not_eq_true]
  · rw [diff_eq_nil_iff]
    exact forall_congr' equal
  · have exchanged : differing b a = differing a b := by
      refine List.filter_congr fun parameter _ => ?_
      rw [(after parameter).same_comm (before parameter)]
    rw [diff_eq, diff_eq, exchanged, List.map_map]
    rfl

/-- A hamlet on record: truth values, whole numbers and reals in each other's places. -/
def hamlet : Document := .object [
  ("num_sites", .boolean true), ("random_seed", .whole 9007199254740993),
  ("initial_stocks", .object [("food", .whole 1), ("wood", .list [.real (-0.0), .boolean false])]),
  ("value_ceiling", .real (1.0 / 0.0)), ("_note", .null)]

/-- The same hamlet with its fields in another order, under the nearest real of its seed, and with
another rate at which its people die. -/
def rewrittenHamlet : Document := .object [
  ("death_rate", .real 0.01), ("value_ceiling", .real (1.0 / 0.0)),
  ("initial_stocks", .object [("wood", .list [.whole 0, .real 0.0]), ("food", .boolean true)]),
  ("random_seed", .real 9007199254740992.0), ("num_sites", .real 1.0)]

theorem definite_hamlet : hamlet.Definite := by
  refine .object (by decide +kernel) ?_
  simp only [List.forall_mem_cons, List.not_mem_nil, false_imp_iff, implies_true, and_true]
  refine ⟨.boolean, .number rfl, .object (by decide +kernel) ?_, .number rfl, .null⟩
  simp only [List.forall_mem_cons, List.not_mem_nil, false_imp_iff, implies_true, and_true]
  refine ⟨.number rfl, .list ?_⟩
  simp only [List.forall_mem_cons, List.not_mem_nil, false_imp_iff, implies_true, and_true]
  exact ⟨.number rfl, .boolean⟩

theorem definite_rewrittenHamlet : rewrittenHamlet.Definite := by
  refine .object (by decide +kernel) ?_
  simp only [List.forall_mem_cons, List.not_mem_nil, false_imp_iff, implies_true, and_true]
  refine ⟨.number rfl, .number rfl, .object (by decide +kernel) ?_, .number rfl, .number rfl⟩
  simp only [List.forall_mem_cons, List.not_mem_nil, false_imp_iff, implies_true, and_true]
  refine ⟨.list ?_, .boolean⟩
  simp only [List.forall_mem_cons, List.not_mem_nil, false_imp_iff, implies_true, and_true]
  exact ⟨.number rfl, .number rfl⟩

theorem diff_is_minimal_patch_hamlet :
    ∃ a b, hamlet.Definite ∧ rewrittenHamlet.Definite ∧ ofDocument hamlet = .ok a ∧
      ofDocument rewrittenHamlet = .ok b ∧
      (∃ c, a.patched (a.diff b) = .ok c ∧ c.diff b = []) ∧
      ∃ seed rate, seed.1 = .randomSeed ∧ rate.1 = .deathRate ∧ a.diff b = [seed, rate] ∧
        ¬seed.2.1.Equal seed.2.2 ∧
        b.diff a = [(seed.1, seed.2.2, seed.2.1), (rate.1, rate.2.2, rate.2.1)] ∧
        ∃ c, a.patched [rate] = .ok c ∧ c.diff b = [seed] := by
  have compared : ((ofDocument hamlet).toOption.bind fun a =>
      (ofDocument rewrittenHamlet).toOption.map fun b => (a.diff b).map Prod.fst) =
        some [.randomSeed, .deathRate] := by
    decide +kernel
  obtain ⟨a, first, found⟩ := Option.bind_eq_some_iff.mp compared
  obtain ⟨b, second, names⟩ := Option.map_eq_some_iff.mp found
  have read := eq_ok_of_toOption_eq_some first
  have other := eq_ok_of_toOption_eq_some second
  obtain ⟨complete, minimal, entries, _, exchanged⟩ :=
    diff_is_minimal_patch definite_hamlet definite_rewrittenHamlet read other
  obtain ⟨seed, others, whole, isSeed, rest⟩ := List.map_eq_cons_iff.mp names
  obtain ⟨rate, nothing, split, isRate, none⟩ := List.map_eq_cons_iff.mp rest
  obtain rfl := List.map_eq_nil_iff.mp none
  subst split
  have member : seed ∈ a.diff b := whole ▸ List.mem_cons_self
  have apart := ((entries _ _ _).mp member).2.2
  have left := minimal seed member
  rw [whole] at exchanged
  rw [whole, List.filter_cons_of_neg (by simp), List.filter_cons_of_pos (by simp [isSeed, isRate]),
    List.filter_nil] at left
  exact ⟨a, b, definite_hamlet, definite_rewrittenHamlet, read, other, complete, seed, rate, isSeed,
    isRate, whole, apart, exchanged, left⟩

end Settlement.Config
