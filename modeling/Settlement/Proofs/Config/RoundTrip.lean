import Settlement.Config.Held
import Settlement.Proofs.Document.Limits
/-!
Configurations are written and read back, whatever documents their parameters hold, unless a whole
number has too many digits: it has no text then, and its digits are not read.
-/
namespace Settlement

open Document Document.Reader

namespace Parameter

theorem isPublicName_name (parameter : Parameter) :
    Config.isPublicName (parameter.name : Text) = true := by
  rw [Config.isPublicName, Text.chars_ofString]
  cases parameter <;> decide

theorem nodup_names : (all.map fun parameter => (parameter.name : Text)).Nodup := by
  decide +kernel

end Parameter

namespace Config

variable {config : Config}

theorem setNamed_name (parameter : Parameter) (value : Document) (config : Config) :
    config.setNamed (parameter.name, value) = .ok (config.set parameter value) := by
  rw [setNamed, Text.string_ofString, Parameter.ofName?_name]

/-- Induction on the parameters that are still to be set. -/
private theorem foldlM_setNamed (parameters : List Parameter) (start : Config) :
    ∃ reached, (parameters.map fun parameter => ((parameter.name : Text),
        config.get parameter)).foldlM setNamed start = .ok reached ∧
      ∀ parameter, reached.get parameter =
        if parameter ∈ parameters then config.get parameter else start.get parameter := by
  induction parameters generalizing start with
  | nil => exact ⟨start, rfl, fun parameter => by simp⟩
  | cons first others ih =>
    obtain ⟨reached, set, holds⟩ := ih (start.set first (config.get first))
    refine ⟨reached, ?_, fun parameter => ?_⟩
    · rw [List.map_cons, List.foldlM_cons, setNamed_name]
      exact set
    · have kept : (start.set first (config.get first)).get parameter =
          if first = parameter then config.get first else start.get parameter :=
        Table.getElem_set _ _ _ _
      rw [holds, kept]
      by_cases same : first = parameter
      · subst same
        simp
      · simp [same, Ne.symm same]

/-- A configuration is what its parameters make it. -/
theorem ofFields_fields (config : Config) : ofFields config.fields = .ok config := by
  have allPublic : (config.fields.filter fun field => isPublicName field.1) = config.fields := by
    rw [List.filter_eq_self]
    intro field member
    obtain ⟨parameter, _, rfl⟩ := List.mem_map.mp member
    exact parameter.isPublicName_name
  obtain ⟨reached, set, holds⟩ := @foldlM_setNamed config Parameter.all standard
  have same : reached.settings = config.settings := Table.ext fun parameter => by
    have member : parameter ∈ Parameter.all := Enumeration.mem_all parameter
    exact (holds parameter).trans (if_pos member)
  rw [ofFields, allPublic, fields, set]
  exact congrArg (Except.ok ∘ Config.mk) same

theorem ofDocument_object (fields : List (Text × Document)) :
    ofDocument (.object fields) = ofFields fields := rfl

theorem ofDocument_toDocument (config : Config) : ofDocument config.toDocument = .ok config := by
  rw [toDocument, ofDocument_object, ofFields_fields]

theorem Held.toDocument_eq (held : Held) : held.toDocument = held.config.toDocument := by
  have allPublic : (held.config.fields.map fun field => (field.1, Entry.setting field.2)).filter
      (fun entry => isPublicName entry.1) =
        held.config.fields.map fun field => (field.1, Entry.setting field.2) := by
    rw [List.filter_eq_self]
    intro entry member
    obtain ⟨_, present, rfl⟩ := List.mem_map.mp member
    obtain ⟨parameter, _, rfl⟩ := List.mem_map.mp present
    exact parameter.isPublicName_name
  have hidden : isPublicName catalogName = false := by
    rw [isPublicName, catalogName, Text.chars_ofString]
    decide
  rw [Held.toDocument, Held.entries, List.filter_append, allPublic]
  simp [hidden, Entry.setting?, Config.toDocument]

theorem get_set_self (config : Config) (parameter : Parameter) (value : Document) :
    (config.set parameter value).get parameter = value := Table.getElem_set_self _ _ _

theorem get_set_ne (config : Config) {parameter other : Parameter} (apart : parameter ≠ other)
    (value : Document) : (config.set parameter value).get other = config.get other :=
  Table.getElem_set_ne _ _ apart

/-- To set a field of what a configuration is written as is to set the parameter. -/
theorem setField_fields (config : Config) (parameter : Parameter) (value : Document) :
    Document.setField parameter.name value config.fields = (config.set parameter value).fields := by
  -- Induction on the parameters whose fields are still to come; the one that is set is among them.
  have general (parameters : List Parameter)
      (distinct : (parameters.map fun parameter => (parameter.name : Text)).Nodup)
      (member : parameter ∈ parameters) :
      Document.setField parameter.name value (parameters.map fun other =>
        ((other.name : Text), config.get other)) = parameters.map fun other =>
          ((other.name : Text), (config.set parameter value).get other) := by
    induction parameters with
    | nil => cases member
    | cons first rest ih =>
      rw [List.map_cons, List.nodup_cons] at distinct
      rw [List.map_cons, List.map_cons, Document.setField]
      by_cases same : (first.name : Text) = parameter.name
      · have behind : parameter ∉ rest := fun later =>
          distinct.1 (same ▸ List.mem_map_of_mem later)
        obtain rfl : parameter = first := (List.mem_cons.mp member).resolve_right behind
        rw [if_pos rfl, get_set_self]
        congr 1
        refine List.map_congr_left fun other present => ?_
        have apart : parameter ≠ other := fun equal => behind (equal ▸ present)
        rw [get_set_ne config apart]
      · have apart : parameter ≠ first := fun equal => same (equal ▸ rfl)
        rw [if_neg same, get_set_ne config apart,
          ih distinct.2 ((List.mem_cons.mp member).resolve_left apart)]
  exact general _ Parameter.nodup_names (Enumeration.mem_all parameter)

theorem forall_get_set {property : Document → Prop} {parameter : Parameter} {value : Document}
    (each : ∀ parameter, property (config.get parameter)) (holds : property value) :
    ∀ other, property ((config.set parameter value).get other) := by
  intro other
  rw [get, set, Table.getElem_set]
  split
  · exact holds
  · exact each other

/-! What is read. -/

/-- The values of all parameters can be written and read. -/
def IsWellFormed (config : Config) : Prop := ∀ parameter, (config.get parameter).WellFormed

theorem isWellFormed_standard : standard.IsWellFormed := by
  intro parameter
  rw [get, standard, Table.getElem_ofFn]
  have empty : WellFormed (.object []) := .object List.nodup_nil (List.forall_mem_nil _)
  cases parameter
  case experimentName => exact .text
  case randomSeed | replenishment | recipes => exact .null
  case clampPopulation => exact .boolean
  case initialStocks | initialLabors | decayRates => exact empty
  case initialValues =>
    refine .object (by decide) (List.forall_mem_cons.mpr ⟨.number (by decide +kernel), ?_⟩)
    exact List.forall_mem_singleton.mpr (.number (by decide +kernel))
  all_goals exact .number (by decide +kernel)

/-- Parameters hold what is standard or what a field gives. -/
theorem gives_ofFields {property : Document → Prop} {fields : List (Text × Document)}
    (given : ∀ parameter, property (standard.get parameter))
    (each : ∀ field ∈ fields, property field.2) :
    Gives (fun config => ∀ parameter, property (config.get parameter)) (ofFields fields) := by
  refine reads_foldlM_of_mem (fun field member config holds => ?_) given
  have value := each field (List.mem_of_mem_filter member)
  unfold setNamed
  split
  · exact .ok (forall_get_set holds value)
  · exact .error trivial

/-- Whatever text a configuration is read from, its values can be written and read. -/
theorem Held.gives_read (source : Text) :
    Gives (fun held : Held => held.config.IsWellFormed) (Held.read source) := by
  refine (Document.gives_read source).bind fun document wellFormed => ?_
  refine @Reads.map _ _ IsWellFormed _ _ _ _ ?_ fun config wellFormed => wellFormed
  cases wellFormed with
  | object _ each => exact gives_ofFields isWellFormed_standard each
  | _ => exact .error trivial

/-! What is written and read. -/

theorem IsWellFormed.toDocument (wellFormed : config.IsWellFormed) :
    WellFormed config.toDocument := by
  refine .object ?_ fun field member => ?_
  · rw [fields, List.map_map]
    exact Parameter.nodup_names
  · obtain ⟨parameter, _, rfl⟩ := List.mem_map.mp member
    exact wellFormed parameter

theorem get_of_toDocument_eq {other : Config} (same : config.toDocument = other.toDocument)
    (parameter : Parameter) : config.get parameter = other.get parameter := by
  have fields := List.map_inj_left.mp (Document.object.inj same) parameter
    (Enumeration.mem_all parameter)
  exact (Prod.mk.inj fields).2

namespace Held

variable {held : Held} {indent : Option Nat}

/-- It has a text, and what is read from that has the same documents, and so the same texts. -/
def RoundTrips (held : Held) (indent : Option Nat) : Prop :=
  ∃ text again, held.write indent = .ok text ∧ Held.read text = .ok again ∧
    again.toDocument = held.toDocument ∧ ∀ other, again.write other = held.write other

theorem write_of_isWellFormed (wellFormed : held.config.IsWellFormed) (indent : Option Nat) :
    held.write indent = .ok (held.config.toDocument.write (.full indent)) := by
  have noneLong : held.config.toDocument.wholes.any isLong = false := by
    rw [List.any_eq_false]
    intro value member
    have few : (Decimal.digits value.natAbs).length ≤ Decimal.mostDigits :=
      wellFormed.toDocument.short_wholes value member
    simpa [isLong] using few
  rw [write, toDocument_eq, if_neg (by simp [noneLong])]

theorem write_congr {other : Held} (same : held.toDocument = other.toDocument) :
    held.write indent = other.write indent := by
  rw [write, write, same]

theorem read_write (wellFormed : held.config.IsWellFormed) (indent : Option Nat) :
    Held.read (held.config.toDocument.write (.full indent)) = .ok (.fresh held.config) := by
  rw [Held.read, Document.read_write wellFormed.toDocument]
  simp only [bind, Except.bind, Held.ofDocument, ofDocument_toDocument]
  rfl

theorem roundTrips_of_isWellFormed (wellFormed : held.config.IsWellFormed)
    (indent : Option Nat) : held.RoundTrips indent := by
  have same : (Held.fresh held.config).toDocument = held.toDocument :=
    (toDocument_eq _).trans held.toDocument_eq.symm
  exact ⟨_, _, write_of_isWellFormed wellFormed indent, read_write wellFormed indent, same,
    fun _ => write_congr same⟩

/-- Only what is well-formed can be read back. -/
theorem RoundTrips.isWellFormed (roundTrips : held.RoundTrips indent) :
    held.config.IsWellFormed := by
  obtain ⟨text, again, _, read, same, _⟩ := roundTrips
  have wellFormed : again.config.IsWellFormed := (gives_read text).kind_of_eq_ok read
  rw [toDocument_eq, toDocument_eq] at same
  intro parameter
  rw [← get_of_toDocument_eq same]
  exact wellFormed parameter

theorem roundTrips_iff_isWellFormed : held.RoundTrips indent ↔ held.config.IsWellFormed :=
  ⟨RoundTrips.isWellFormed, fun wellFormed => roundTrips_of_isWellFormed wellFormed indent⟩

/-- What a text gives is written and read back, at any indent. -/
theorem roundTrips_of_read {source : Text} (read : Held.read source = .ok held)
    (indent : Option Nat) : held.RoundTrips indent :=
  roundTrips_iff_isWellFormed.mpr ((gives_read source).kind_of_eq_ok read)

/-! Single settings. -/

end Held

end Config

end Settlement
