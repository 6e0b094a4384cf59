import Settlement.Document.Display
import Settlement.Good
import Settlement.Labor
/-!
Everything that can go wrong, by cause. A fault has a category, by which callers react, and a
message.
-/
namespace Settlement

/-- What makes an industry unable to run. -/
inductive RecipeDefect where
  | repeatedGroup
  | noInputs
  | negativeInput (good : Good)
  | noOutput
  | negativeRate
  deriving DecidableEq, Repr

def RecipeDefect.reason : RecipeDefect → String
  | repeatedGroup => "has more than one order group"
  | noInputs => "requires at least one input order"
  | negativeInput good => "orders a negative quantity of " ++ good.name
  | noOutput => "has orders but no output good"
  | negativeRate => "has a negative production rate"

/-- The word for a kind of document in messages. -/
def Document.Kind.word : Document.Kind → String
  | null => "NoneType"
  | boolean => "bool"
  | whole => "int"
  | real => "float"
  | text => "str"
  | list => "list"
  | object => "dict"

inductive Fault where
  /- Nothing of that name. -/
  | unknownGood (name : Text)
  | unknownLabor (name : Text)
  | unknownPreset (name : Text) (available : List String)
  | unknownParameter (name : Text)
  | unknownSite (id : Text)
  | unknownSession (id : Text)
  | unrecordedSite (id : Text)
  | missingField (name : Text)
  | missingPosition (position : Nat)
  | noOutput (labor : Labor)
  /- Values out of range. -/
  | recipe (labor : Option Labor) (defect : RecipeDefect)
  | siteExists (id : Text)
  | backwards (length : Number)
  | periodNotPositive (period : Document)
  | nothingRecorded
  | negativeSeed
  | unrecognizedSeed
  | unreadableNumber (text : Text)
  | wholeOfNaN
  | invalidWhole (base : Nat) (text : Text)
  | tooManyDigits (count : Nat)
  | wholeTooLong
  | unreadableEntry (text : Text)
  | listAsNumber
  | unevenLists (sizes : List Nat)
  | tooManyLevels (most : Nat)
  | sizeMismatch (given wanted : List Nat)
  | notAligned (left right : List Nat)
  | ambiguousTruth
  /- Documents of the wrong kind. -/
  | unknownField (name : Text)
  | reservedField (name : Text)
  | lacksMember (kind : Document.Kind) (member : String)
  | lacksSeries (member : Text)
  | notMember (kind : Document.Kind)
  | notIterable (kind : Document.Kind)
  | notSubscriptable (kind : Document.Kind)
  | notListPosition
  | notTextPosition
  | notNumber (kind : Document.Kind)
  | notWhole (kind : Document.Kind)
  | notFigure (kind : Document.Kind)
  | notOrdered (relation : String) (left right : Document.Kind)
  | notOperand (operation : String) (left right : Document.Kind)
  /-- A list or text times a real, which may be the entry of a table. -/
  | repeatedSequence (ofEntry : Bool)
  /-- A text as the floor or the ceiling of numbers. -/
  | textBound (isFloor : Bool)
  | notSeed (seed : Document)
  | realInSeed
  | noLength (kind : Document.Kind)
  | notKey (kind : Document.Kind)
  /- Positions out of range. -/
  | beyondList
  | beyondText
  /- Arithmetic. -/
  | divisionByZero (whole : Bool)
  | zeroToNegativePower
  | powerTooLarge
  | turnedPowerTooLarge
  | wholeTooLarge
  | quotientTooLarge
  | wholeOfInfinity
  /- Sources that hold no document. -/
  | notSource (kind : Document.Kind)
  | malformed

namespace Fault

inductive Category where
  | missing | value | recipe | type | comparison | member | position | zeroDivision | overflow
  | malformed
  deriving DecidableEq, Repr

def category : Fault → Category
  | unknownGood _ | unknownLabor _ | unknownPreset _ _ | unknownParameter _ | unknownSite _
  | unknownSession _ | unrecordedSite _ | missingField _ | missingPosition _ | noOutput _ =>
    .missing
  | recipe _ _ => .recipe
  | siteExists _ | backwards _ | periodNotPositive _ | nothingRecorded | negativeSeed
  | unrecognizedSeed | unreadableNumber _ | wholeOfNaN | invalidWhole _ _ | tooManyDigits _
  | wholeTooLong | unreadableEntry _ | listAsNumber | unevenLists _ | tooManyLevels _ | sizeMismatch _ _
  | notAligned _ _ | ambiguousTruth =>
    .value
  | lacksMember _ _ | lacksSeries _ => .member
  | unknownField _ | reservedField _ | notIterable _ | notSubscriptable _ | notListPosition
  | notTextPosition | notNumber _ | notWhole _ | notOrdered _ _ _ | notOperand _ _ _
  | repeatedSequence _ | notSeed _ | realInSeed | noLength _ | notKey _ | notMember _
  | notSource _ => .type
  | textBound _ => .comparison
  | notFigure .text => .value
  | notFigure _ => .type
  | beyondList | beyondText => .position
  | divisionByZero _ | zeroToNegativePower => .zeroDivision
  | powerTooLarge | turnedPowerTooLarge | wholeTooLarge | quotientTooLarge | wholeOfInfinity =>
    .overflow
  | malformed => .malformed

def inQuotes (text : Text) : Text := "'" ++ text ++ "'"

private def objectOf (kind : Document.Kind) : Text := inQuotes kind.word ++ " object "

private def digitsOf (number : Nat) : String := (Number.whole number).shown

/-- The sizes of nested lists; a single one is followed by a comma. -/
private def sizesText (between : String) : List Nat → String
  | [size] => "(" ++ digitsOf size ++ ",)"
  | sizes => "(" ++ between.intercalate (sizes.map digitsOf) ++ ")"

def message : Fault → Text
  | unknownGood name => "Unknown good: " ++ inQuotes name
  | unknownLabor name => "Unknown labor: " ++ inQuotes name
  | unknownPreset name available =>
    "Unknown preset: " ++ inQuotes name ++ ". Available: "
      ++ (Document.list (available.map (.text <| .ofString ·))).quoted
  | unknownParameter name => "Unknown config parameter: " ++ inQuotes name
  | unknownSite id => "Site " ++ inQuotes id ++ " not found"
  | unknownSession id => "Session " ++ inQuotes id ++ " not found"
  | unrecordedSite id => "No snapshots recorded for site " ++ inQuotes id
  | missingField name => name
  | missingPosition position => digitsOf position
  | noOutput labor => labor.name
  | recipe labor defect =>
    "Industry " ++ inQuotes (Labor.groupName labor) ++ " " ++ defect.reason
  | siteExists id => "Site " ++ inQuotes id ++ " already exists"
  | backwards length => "Cannot tick backwards in time (dt=" ++ length.shown ++ ")"
  | periodNotPositive period => "tick_period must be positive (got " ++ period.shown ++ ")"
  | nothingRecorded => "Nothing recorded yet"
  | negativeSeed => "expected non-negative integer"
  | unrecognizedSeed => "unrecognized seed string"
  | unreadableNumber text => "could not convert string to float: " ++ text.quoted
  | wholeOfNaN => "cannot convert float NaN to integer"
  | invalidWhole base text =>
    "invalid literal for int() with base " ++ digitsOf base ++ ": "
      ++ String.ofList (text.quoted.toList.take 200)
  | tooManyDigits digits =>
    "Exceeds the limit (4300 digits) for integer string conversion: value has " ++ digitsOf digits
      ++ " digits; use sys.set_int_max_str_digits() to increase the limit"
  | wholeTooLong =>
    "Exceeds the limit (4300 digits) for integer string conversion; use "
      ++ "sys.set_int_max_str_digits() to increase the limit"
  | unreadableEntry text =>
    "could not convert string to float: np.str_(" ++ text.quoted ++ ")"
  | listAsNumber => "setting an array element with a sequence."
  | unevenLists sizes =>
    "setting an array element with a sequence. The requested array has an inhomogeneous shape"
      ++ " after " ++ digitsOf sizes.length ++ " dimensions. The detected shape was "
      ++ sizesText ", " sizes ++ " + inhomogeneous part."
  | tooManyLevels most =>
    "setting an array element with a sequence. The requested array would exceed the maximum"
      ++ " number of dimension of " ++ digitsOf most ++ "."
  | sizeMismatch given wanted =>
    "could not broadcast input array from shape " ++ sizesText "," given ++ " into shape "
      ++ sizesText "," wanted
  | notAligned left right =>
    "operands could not be broadcast together with shapes " ++ sizesText "," left ++ " "
      ++ sizesText "," right ++ " "
  | ambiguousTruth =>
    "The truth value of an array with more than one element is ambiguous. Use a.any() or a.all()"
  | unknownField name =>
    "EconomyConfig.__init__() got an unexpected keyword argument " ++ inQuotes name
  | reservedField name =>
    "EconomyConfig.__init__() got multiple values for argument " ++ inQuotes name
  | lacksMember kind member => objectOf kind ++ "has no attribute " ++ inQuotes member
  | lacksSeries member => "'EconomySnapshot' object has no attribute " ++ inQuotes member
  | notMember kind => "attribute name must be string, not " ++ inQuotes kind.word
  | notIterable kind => objectOf kind ++ "is not iterable"
  | notSubscriptable kind => objectOf kind ++ "is not subscriptable"
  | notListPosition => "list indices must be integers or slices, not str"
  | notTextPosition => "string indices must be integers, not 'str'"
  | notNumber kind =>
    "float() argument must be a string or a real number, not " ++ inQuotes kind.word
  | notWhole kind => objectOf kind ++ "cannot be interpreted as an integer"
  | notFigure .text => "Unknown format code 'f' for object of type 'str'"
  | notFigure kind => "unsupported format string passed to " ++ kind.word ++ ".__format__"
  | notOrdered relation left right =>
    inQuotes relation ++ " not supported between instances of " ++ inQuotes left.word
      ++ " and " ++ inQuotes right.word
  | notOperand operation left right =>
    "unsupported operand type(s) for " ++ operation ++ ": " ++ inQuotes left.word
      ++ " and " ++ inQuotes right.word
  | repeatedSequence false => "can't multiply sequence by non-int of type 'float'"
  | repeatedSequence true => "can't multiply sequence by non-int of type 'numpy.float64'"
  | textBound isFloor =>
    "ufunc " ++ inQuotes (if isFloor then "greater" else "less")
      ++ " did not contain a loop with signature matching types"
      ++ " (<class 'numpy.dtypes.Float64DType'>, <class 'numpy.dtypes.StrDType'>) -> None"
  | notSeed seed =>
    "SeedSequence expects int or sequence of ints for entropy not " ++ seed.shown
  | realInSeed => "seed must be integer"
  | noLength kind => "object of type " ++ inQuotes kind.word ++ " has no len()"
  | notKey kind => "unhashable type: " ++ inQuotes kind.word
  | beyondList => "list index out of range"
  | beyondText => "string index out of range"
  | divisionByZero true => "division by zero"
  | divisionByZero false => "float division by zero"
  | zeroToNegativePower => "0.0 cannot be raised to a negative power"
  | powerTooLarge => "(34, 'Numerical result out of range')"
  | turnedPowerTooLarge => "complex exponentiation"
  | wholeTooLarge => "int too large to convert to float"
  | quotientTooLarge => "integer division result too large for a float"
  | wholeOfInfinity => "cannot convert float infinity to integer"
  | notSource kind => "the JSON object must be str, bytes or bytearray, not " ++ kind.word
  | malformed => "malformed document"

end Fault

end Settlement
