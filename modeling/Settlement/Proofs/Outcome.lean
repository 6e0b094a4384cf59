import Mathlib.Data.List.Forall2
import Mathlib.Data.List.Induction
import Settlement.Outcome
/-!
Outcomes that no fault stopped. `Reaches` tells the state in which such an outcome ends; every
way to put outcomes together is characterised by what it reaches. `Mirrors` compares two outcomes:
the one ends in the image of the state in which the other ends.
-/
namespace Settlement.Outcome

variable {α β σ τ υ ω : Type}

/-- No fault stopped the computation, and it ended in this state. -/
def Reaches (outcome : Outcome σ) (state : σ) : Prop :=
  outcome.fault = none ∧ outcome.state = state

theorem Reaches.state_eq {outcome : Outcome σ} {state : σ} (ends : outcome.Reaches state) :
    outcome.state = state := ends.2

theorem Reaches.unique {outcome : Outcome σ} {a b : σ} (first : outcome.Reaches a)
    (second : outcome.Reaches b) : a = b :=
  first.2.symm.trans second.2

theorem completes_iff_exists_reaches {outcome : Outcome σ} :
    outcome.completes = true ↔ ∃ state, outcome.Reaches state := by
  simp [completes, Reaches]

theorem completes_iff_reaches_state {outcome : Outcome σ} :
    outcome.completes = true ↔ outcome.Reaches outcome.state := by
  simp [completes, Reaches]

@[simp]
theorem reaches_done {a b : σ} : (done a).Reaches b ↔ a = b := by
  simp [Reaches, done]

@[simp]
theorem reaches_noted {a b : σ} {notes : List Note} : (noted a notes).Reaches b ↔ a = b := by
  simp [Reaches, noted]

@[simp]
theorem not_reaches_failed {a b : σ} {fault : Fault} : ¬(failed a fault).Reaches b := by
  simp [Reaches, failed]

@[simp]
theorem reaches_map {outcome : Outcome σ} {f : σ → τ} {b : τ} :
    (outcome.map f).Reaches b ↔ ∃ a, outcome.Reaches a ∧ f a = b := by
  simp [Reaches, map, and_assoc]

@[simp]
theorem reaches_given {reading : Except Fault α} {state b : σ} {next : α → Outcome σ} :
    (given reading state next).Reaches b ↔
      ∃ value, reading = .ok value ∧ (next value).Reaches b := by
  cases reading with
  | ok value => simp
  | error fault => simp

@[simp]
theorem reaches_andThen {first : Outcome σ} {next : σ → Outcome σ} {c : σ} :
    (first.andThen next).Reaches c ↔ ∃ b, first.Reaches b ∧ (next b).Reaches c := by
  obtain ⟨state, notes, fault⟩ := first
  cases fault with
  | none => simp [Reaches, andThen]
  | some fault => simp [Reaches, andThen]

@[simp]
theorem reaches_noteFault {outcome : Outcome σ} {note : Note} {b : σ} :
    (outcome.noteFault note).Reaches b ↔ outcome.Reaches b := by
  unfold noteFault
  split <;> rfl

theorem andThen_assoc (first : Outcome σ) (second third : σ → Outcome σ) :
    (first.andThen second).andThen third =
      first.andThen fun state => (second state).andThen third := by
  obtain ⟨state, notes, fault⟩ := first
  cases fault with
  | none =>
    simp only [andThen]
    generalize second state = middle
    obtain ⟨state, more, stop⟩ := middle
    cases stop <;> simp [Array.append_assoc]
  | some fault => rfl

theorem completes_andThen (first : Outcome σ) (next : σ → Outcome σ) :
    (first.andThen next).completes = true ↔
      first.completes = true ∧ (next first.state).completes = true := by
  obtain ⟨state, notes, fault⟩ := first
  cases fault with
  | none => simp [completes, andThen]
  | some fault => simp [completes, andThen]

theorem state_andThen {first : Outcome σ} (complete : first.completes = true)
    (next : σ → Outcome σ) : (first.andThen next).state = (next first.state).state := by
  obtain ⟨state, notes, fault⟩ := first
  cases fault with
  | none => rfl
  | some fault => cases complete

theorem andThen_done (outcome : Outcome σ) : outcome.andThen done = outcome := by
  obtain ⟨state, notes, fault⟩ := outcome
  cases fault <;> simp [andThen, done]

private theorem foldl_andThen (step : α → σ → Outcome σ) (items : List α) (outcome : Outcome σ) :
    items.foldl (fun outcome item => outcome.andThen (step item)) outcome =
      outcome.andThen (each items step) := by
  induction items generalizing outcome with
  | nil => exact (andThen_done outcome).symm
  | cons item rest ih =>
    have unfolded (state : σ) :
        each (item :: rest) step state = (step item state).andThen (each rest step) := by
      rw [each, List.foldl_cons, done_andThen, ih]
    rw [List.foldl_cons, ih, andThen_assoc]
    exact congrArg outcome.andThen (funext fun state => (unfolded state).symm)

theorem each_cons (item : α) (rest : List α) (step : α → σ → Outcome σ) (state : σ) :
    each (item :: rest) step state = (step item state).andThen (each rest step) := by
  rw [each, List.foldl_cons, done_andThen, foldl_andThen]

theorem each_append (items more : List α) (step : α → σ → Outcome σ) (state : σ) :
    each (items ++ more) step state = (each items step state).andThen (each more step) := by
  rw [each, List.foldl_append, foldl_andThen, each]

theorem reaches_each_nil {step : α → σ → Outcome σ} {a b : σ} :
    (each [] step a).Reaches b ↔ a = b := by
  rw [each_nil, reaches_done]

theorem reaches_each_cons {item : α} {rest : List α} {step : α → σ → Outcome σ} {a c : σ} :
    (each (item :: rest) step a).Reaches c ↔
      ∃ b, (step item a).Reaches b ∧ (each rest step b).Reaches c := by
  rw [each_cons, reaches_andThen]

theorem each_singleton (item : α) (step : α → σ → Outcome σ) (state : σ) :
    each [item] step state = step item state := by
  rw [each, List.foldl_cons, List.foldl_nil, done_andThen]

theorem reaches_each_concat {items : List α} {item : α} {step : α → σ → Outcome σ} {a c : σ} :
    (each (items ++ [item]) step a).Reaches c ↔
      ∃ b, (each items step a).Reaches b ∧ (step item b).Reaches c := by
  rw [each, List.foldl_append, List.foldl_cons, List.foldl_nil, reaches_andThen]
  rfl

theorem reaches_each_append {items more : List α} {step : α → σ → Outcome σ} {a c : σ} :
    (each (items ++ more) step a).Reaches c ↔
      ∃ b, (each items step a).Reaches b ∧ (each more step b).Reaches c := by
  rw [each_append, reaches_andThen]

/-- Where one kind of step leads, so does another that leads wherever it does. -/
theorem Reaches.each_imp {first second : α → σ → Outcome σ} {items : List α}
    (imp : ∀ item ∈ items, ∀ a b, (first item a).Reaches b → (second item a).Reaches b) {a b : σ}
    (ends : (each items first a).Reaches b) : (each items second a).Reaches b := by
  induction items generalizing a with
  | nil => exact ends
  | cons item rest ih =>
    obtain ⟨m, step, last⟩ := reaches_each_cons.mp ends
    exact reaches_each_cons.mpr ⟨m, imp item (by simp) a m step,
      ih (fun other member => imp other (by simp [member])) last⟩

/-- Where every step goes on and keeps a property, all steps together do. -/
theorem exists_reaches_each {property : σ → Prop} {step : α → σ → Outcome σ} {items : List α}
    (keeps : ∀ item ∈ items, ∀ a, property a → ∃ b, (step item a).Reaches b ∧ property b)
    {a : σ} (start : property a) : ∃ b, (each items step a).Reaches b ∧ property b := by
  induction items generalizing a with
  | nil => exact ⟨a, by simp, start⟩
  | cons item rest ih =>
    obtain ⟨m, first, kept⟩ := keeps item (by simp) a start
    obtain ⟨b, last, final⟩ := ih (fun other member => keeps other (by simp [member])) kept
    exact ⟨b, reaches_each_cons.mpr ⟨m, first, last⟩, final⟩

/-- What every step that goes on takes from one count to the next, all steps together take to their
number. -/
theorem Reaches.each_counts {motive : Nat → σ → Prop} {step : α → σ → Outcome σ} {items : List α}
    (counts : ∀ item ∈ items, ∀ count a b, motive count a → (step item a).Reaches b →
      motive (count + 1) b)
    {a b : σ} (ends : (each items step a).Reaches b) (start : motive 0 a) :
    motive items.length b := by
  induction items using List.reverseRecOn generalizing b with
  | nil =>
    rw [reaches_each_nil] at ends
    exact ends ▸ start
  | append_singleton earlier item ih =>
    obtain ⟨m, first, last⟩ := reaches_each_concat.mp ends
    have counted := ih (fun other member => counts other (List.mem_append_left _ member)) first
    rw [List.length_append]
    exact counts item (by simp) _ m b counted last

/-- What every step that goes on keeps, all steps together keep. -/
theorem Reaches.each_keeps {property : σ → Prop} {step : α → σ → Outcome σ} {items : List α}
    (keeps : ∀ item ∈ items, ∀ a b, property a → (step item a).Reaches b → property b)
    {a b : σ} (ends : (each items step a).Reaches b) (start : property a) : property b :=
  Reaches.each_counts (fun item member _ => keeps item member) ends start

/-- A number of equal steps begins with one of them. -/
theorem steps_succ (count : Nat) (step : σ → Outcome σ) (state : σ) :
    steps (count + 1) (fun _ => step) state = (step state).andThen (steps count fun _ => step) := by
  rw [steps_eq_each, List.range_succ_eq_map, each_cons]
  congr 1
  funext next
  rw [steps_eq_each, each, List.foldl_map, each]

section state

@[simp]
theorem state_noteFault (outcome : Outcome σ) (note : Note) :
    (outcome.noteFault note).state = outcome.state := by
  unfold noteFault
  split <;> rfl

@[simp]
theorem completes_noteFault (outcome : Outcome σ) (note : Note) :
    (outcome.noteFault note).completes = outcome.completes := by
  unfold noteFault
  split <;> rfl

variable (property : σ → Prop)

theorem state_andThen_keeps {outcome : Outcome σ} {next : σ → Outcome σ}
    (start : property outcome.state) (keeps : ∀ a, property a → property (next a).state) :
    property (outcome.andThen next).state := by
  cases complete : outcome.completes with
  | true =>
    rw [state_andThen complete]
    exact keeps _ start
  | false =>
    rw [andThen_of_not_completes complete]
    exact start

theorem state_given_keeps {reading : Except Fault α} {a : σ} {next : α → Outcome σ}
    (start : property a) (keeps : ∀ value, reading = .ok value → property (next value).state) :
    property (given reading a next).state := by
  cases reading with
  | ok value => exact keeps value rfl
  | error fault => exact start

/-- What every step keeps, also one that fails, all steps together keep. -/
theorem state_each_keeps {step : α → σ → Outcome σ} {items : List α}
    (keeps : ∀ item ∈ items, ∀ a, property a → property (step item a).state) {a : σ}
    (start : property a) : property (each items step a).state := by
  induction items generalizing a with
  | nil => exact start
  | cons item rest ih =>
    rw [each_cons]
    exact state_andThen_keeps property (keeps item (by simp) a start)
      fun b kept => ih (fun other member => keeps other (by simp [member])) kept

end state

/-- Where every step is a function on the states that an invariant admits, so are all steps. -/
theorem reaches_each_iff_eq {invariant : σ → Prop} {allowed : α → Prop} {f : σ → α → σ}
    {step : α → σ → Outcome σ} {items : List α}
    (steps : ∀ item ∈ items, ∀ a b, invariant a →
      ((step item a).Reaches b ↔ allowed item ∧ b = f a item))
    (keeps : ∀ a item, invariant a → invariant (f a item)) {a c : σ} (start : invariant a) :
    (each items step a).Reaches c ↔ (∀ item ∈ items, allowed item) ∧ c = items.foldl f a := by
  induction items generalizing a with
  | nil => simp [eq_comm]
  | cons item rest ih =>
    have later := ih (fun other member => steps other (by simp [member])) (keeps a item start)
    simp only [reaches_each_cons, steps item (by simp) a _ start, List.forall_mem_cons,
      List.foldl_cons]
    constructor
    · intro holds
      obtain ⟨b, ⟨admitted, rfl⟩, last⟩ := holds
      obtain ⟨others, ended⟩ := later.mp last
      exact ⟨⟨admitted, others⟩, ended⟩
    · intro holds
      obtain ⟨⟨admitted, others⟩, ended⟩ := holds
      exact ⟨f a item, ⟨admitted, rfl⟩, later.mpr ⟨others, ended⟩⟩

/-- One outcome mirrors another: it ends in the image of the same state, and by the same fault if
by any. What they note may differ. -/
structure Mirrors (f : σ → τ) (original : Outcome σ) (image : Outcome τ) : Prop where
  state : image.state = f original.state
  fault : image.fault = original.fault

section mirrors

variable {f : σ → τ} {original : Outcome σ} {image : Outcome τ}

theorem Mirrors.reaches_iff (mirrors : Mirrors f original image) {b : τ} :
    image.Reaches b ↔ ∃ a, original.Reaches a ∧ b = f a := by
  simp [Reaches, mirrors.state, mirrors.fault, and_assoc, eq_comm]

theorem Mirrors.completes_eq (mirrors : Mirrors f original image) :
    image.completes = original.completes :=
  congrArg Option.isNone mirrors.fault

theorem mirrors_done (f : σ → τ) (state : σ) : Mirrors f (done state) (done (f state)) := ⟨rfl, rfl⟩

theorem mirrors_failed (f : σ → τ) (state : σ) (fault : Fault) :
    Mirrors f (failed state fault) (failed (f state) fault) := ⟨rfl, rfl⟩

theorem mirrors_noted (f : σ → τ) (state : σ) (notes others : List Note) :
    Mirrors f (noted state notes) (noted (f state) others) := ⟨rfl, rfl⟩

theorem given_map (g : α → β) (reading : Except Fault α) (state : σ) (next : β → Outcome σ) :
    given (reading.map g) state next = given reading state fun value => next (g value) := by
  cases reading <;> rfl

theorem mirrors_given {state : σ} {next : α → Outcome σ} {other : α → Outcome τ}
    (reading : Except Fault α) (nexts : ∀ value, Mirrors f (next value) (other value)) :
    Mirrors f (given reading state next) (given reading (f state) other) := by
  cases reading with
  | ok value => exact nexts value
  | error fault => exact mirrors_failed f state fault

theorem Mirrors.map {g : υ → ω} (mirrors : Mirrors f original image) {enlarge : σ → υ}
    {other : τ → ω} (square : ∀ state, other (f state) = g (enlarge state)) :
    Mirrors g (original.map enlarge) (image.map other) where
  state := (congrArg other mirrors.state).trans (square original.state)
  fault := mirrors.fault

theorem Mirrors.andThen (mirrors : Mirrors f original image) {next : σ → Outcome σ}
    {other : τ → Outcome τ}
    (nexts : ∀ state, original.Reaches state → Mirrors f (next state) (other (f state))) :
    Mirrors f (original.andThen next) (image.andThen other) := by
  obtain ⟨state, notes, fault⟩ := original
  obtain ⟨reached, others, stop⟩ := image
  obtain ⟨rfl, rfl⟩ : reached = f state ∧ stop = fault := ⟨mirrors.state, mirrors.fault⟩
  cases stop with
  | none => exact ⟨(nexts state ⟨rfl, rfl⟩).state, (nexts state ⟨rfl, rfl⟩).fault⟩
  | some fault => exact ⟨rfl, rfl⟩

theorem each_map (g : α → β) (items : List α) (step : β → σ → Outcome σ) :
    each (items.map g) step = each items fun item => step (g item) := by
  funext state
  rw [each, List.foldl_map, each]

/-- Where every step mirrors its original on the states that an invariant admits, all steps do. -/
theorem mirrors_each {invariant : σ → Prop} {step : α → σ → Outcome σ} {other : α → τ → Outcome τ}
    {items : List α}
    (steps : ∀ item ∈ items, ∀ a, invariant a → Mirrors f (step item a) (other item (f a)))
    (keeps : ∀ item ∈ items, ∀ a b, invariant a → (step item a).Reaches b → invariant b)
    {start : σ} (holds : invariant start) :
    Mirrors f (each items step start) (each items other (f start)) := by
  induction items generalizing start with
  | nil => exact mirrors_done f start
  | cons item rest ih =>
    rw [each_cons, each_cons]
    refine (steps item (by simp) start holds).andThen fun reached reaches => ?_
    exact ih (fun next member => steps next (by simp [member]))
      (fun next member => keeps next (by simp [member])) (keeps item (by simp) _ _ holds reaches)

end mirrors

section commutes

variable {f : σ → τ}

theorem map_map (outcome : Outcome σ) (f : σ → τ) (g : τ → υ) :
    (outcome.map f).map g = outcome.map fun state => g (f state) := rfl

theorem map_given (reading : Except Fault α) (state : σ) (next : α → Outcome σ) (f : σ → τ) :
    (given reading state next).map f = given reading (f state) fun value => (next value).map f := by
  cases reading <;> rfl

theorem map_andThen (first : Outcome σ) {next : σ → Outcome σ} {other : τ → Outcome τ}
    (nexts : ∀ state, first.Reaches state → other (f state) = (next state).map f) :
    (first.andThen next).map f = (first.map f).andThen other := by
  obtain ⟨state, notes, fault⟩ := first
  cases fault with
  | none =>
    have same := nexts state ⟨rfl, rfl⟩
    simp only [map, andThen, same]
  | some fault => rfl

/-- Where steps for two lists of items agree on the states that an invariant admits, all steps
agree. -/
theorem map_each {invariant : σ → Prop} {step : α → σ → Outcome σ} {other : β → τ → Outcome τ}
    {items : List α} {others : List β}
    (steps : List.Forall₂ (fun item counterpart =>
      ∀ a, invariant a → other counterpart (f a) = (step item a).map f) items others)
    (keeps : ∀ item ∈ items, ∀ a b, invariant a → (step item a).Reaches b → invariant b)
    {start : σ} (holds : invariant start) :
    (each items step start).map f = each others other (f start) := by
  induction steps generalizing start with
  | nil => rfl
  | @cons item counterpart rest _ agree _ ih =>
    rw [each_cons, each_cons, agree start holds]
    refine map_andThen _ fun reached reaches => ?_
    exact (ih (fun next member => keeps next (by simp [member]))
      (keeps item (by simp) _ _ holds reaches)).symm

end commutes

end Settlement.Outcome
