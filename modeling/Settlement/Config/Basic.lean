import Settlement.Document.Reader
import Settlement.Document.Reading
import Settlement.Document.Same
import Settlement.Document.Writer
/-!
Configurations: every parameter of an experiment holds a document. A configuration is read from
an object and written as one, and two configurations differ parameter by parameter.
-/
namespace Settlement

inductive Parameter where
  | experimentName | randomSeed
  | numSites | initialPopulation | populationJitter | initialStocks | defaultLaborShare
  | initialLabors | initialValues
  | tickPeriod | historyYears | snapshotInterval
  | valueSmoothing | valueFloor | valueCeiling
  | laborSmoothing | laborRatioFloor | laborFloorDivisor
  | scaleExponent
  | decayRates | replenishment
  | naturalBirthRate | deathRate | clampPopulation
  | recipes
  deriving DecidableEq, Repr

namespace Parameter

instance : Enumeration Parameter where
  count := 25
  members := #v[experimentName, randomSeed, numSites, initialPopulation, populationJitter,
    initialStocks, defaultLaborShare, initialLabors, initialValues, tickPeriod, historyYears,
    snapshotInterval, valueSmoothing, valueFloor, valueCeiling, laborSmoothing, laborRatioFloor,
    laborFloorDivisor, scaleExponent, decayRates, replenishment, naturalBirthRate, deathRate,
    clampPopulation, recipes]
  index
    | experimentName => 0 | randomSeed => 1 | numSites => 2 | initialPopulation => 3
    | populationJitter => 4 | initialStocks => 5 | defaultLaborShare => 6 | initialLabors => 7
    | initialValues => 8 | tickPeriod => 9 | historyYears => 10 | snapshotInterval => 11
    | valueSmoothing => 12 | valueFloor => 13 | valueCeiling => 14 | laborSmoothing => 15
    | laborRatioFloor => 16 | laborFloorDivisor => 17 | scaleExponent => 18 | decayRates => 19
    | replenishment => 20 | naturalBirthRate => 21 | deathRate => 22 | clampPopulation => 23
    | recipes => 24
  members_index parameter := by cases parameter <;> rfl
  index_members := by decide

def all : List Parameter := Enumeration.all Parameter

def name : Parameter → String
  | experimentName => "experiment_name"
  | randomSeed => "random_seed"
  | numSites => "num_sites"
  | initialPopulation => "initial_population"
  | populationJitter => "population_jitter"
  | initialStocks => "initial_stocks"
  | defaultLaborShare => "default_labor_share"
  | initialLabors => "initial_labors"
  | initialValues => "initial_values"
  | tickPeriod => "tick_period"
  | historyYears => "history_years"
  | snapshotInterval => "snapshot_interval"
  | valueSmoothing => "value_smoothing"
  | valueFloor => "value_floor"
  | valueCeiling => "value_ceiling"
  | laborSmoothing => "labor_smoothing"
  | laborRatioFloor => "labor_ratio_floor"
  | laborFloorDivisor => "labor_floor_divisor"
  | scaleExponent => "scale_exponent"
  | decayRates => "decay_rates"
  | replenishment => "replenishment"
  | naturalBirthRate => "natural_birth_rate"
  | deathRate => "death_rate"
  | clampPopulation => "clamp_population"
  | recipes => "recipes"

def ofName? (written : String) : Option Parameter := all.find? (·.name = written)

/-- Every name is read back. -/
theorem ofName?_name (parameter : Parameter) : ofName? parameter.name = some parameter := by
  cases parameter <;> decide +kernel

/-- What a parameter holds unless it is given. -/
def standard : Parameter → Document
  | experimentName => .text "default"
  | randomSeed => .null
  | numSites => .whole 1
  | initialPopulation => .real 32.0
  | populationJitter => .real 0.0
  | initialStocks => .object []
  | defaultLaborShare => .real 0.01
  | initialLabors => .object []
  | initialValues => .object [("logs", .real 0.25), ("rock", .real 0.25)]
  | tickPeriod => .real 90.0
  | historyYears => .real 500.0
  | snapshotInterval => .whole 5
  | valueSmoothing => .real 0.8
  | valueFloor => .real 0.001
  | valueCeiling => .real 1000.0
  | laborSmoothing => .real 0.8
  | laborRatioFloor => .real 0.01
  | laborFloorDivisor => .real 1000.0
  | scaleExponent => .real 1.1
  | decayRates => .object []
  | replenishment => .null
  | naturalBirthRate => .real 0.05
  | deathRate => .real 0.005
  | clampPopulation => .boolean true
  | recipes => .null

end Parameter

structure Config where
  settings : Table Parameter Document

namespace Config

def get (config : Config) (parameter : Parameter) : Document := config.settings[parameter]

def set (config : Config) (parameter : Parameter) (value : Document) : Config :=
  ⟨config.settings.set parameter value⟩

def standard : Config := ⟨Table.ofFn Parameter.standard⟩

/-- The standard configuration with some parameters set. -/
def withSettings (settings : List (Parameter × Document)) : Config :=
  ⟨standard.settings.setAll settings⟩

def fields (config : Config) : List (Text × Document) :=
  Parameter.all.map fun parameter => (parameter.name, config.get parameter)

def toDocument (config : Config) : Document := .object config.fields

/-- The name of the configuration itself, which is no parameter. -/
def ownName : Text := "self"

/-- Sets one named parameter; there are no others. -/
def setNamed (config : Config) (field : Text × Document) : Except Fault Config :=
  match Parameter.ofName? field.1.string with
  | some parameter => .ok (config.set parameter field.2)
  | none =>
    .error (if field.1 = ownName then .reservedField field.1 else .unknownField field.1)

/-- Names that start with an underscore are not public. -/
def isPublicName (name : Text) : Bool := name.chars.head? != some '_'

/-- The parameters with public names are set, and no others read. -/
def ofFields (fields : List (Text × Document)) : Except Fault Config :=
  (fields.filter fun field => isPublicName field.1).foldlM setNamed standard

def ofDocument (document : Document) : Except Fault Config := do
  ofFields (← document.fields)

def read (source : Text) : Except Fault Config := do ofDocument (← Document.read source)

/-- The parameters in which two configurations differ, with what each holds. -/
def diff (a b : Config) : List (Parameter × Document × Document) :=
  Parameter.all.filterMap fun parameter =>
    if (a.get parameter).same (b.get parameter) then none
    else some (parameter, a.get parameter, b.get parameter)

end Config

end Settlement
