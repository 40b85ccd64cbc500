import PartitionPruning.DataType.Basic
import PartitionPruning.Numeral.Whole

/-!
# Faults

Everything that can go wrong, by cause. `Fault.message` is the text that a cause is reported with; a
cause that speaks for itself has none.
-/

namespace PartitionPruning

/-- A cause of failure. -/
inductive Fault where
  -- Metadata
  /-- A name does not end in a number in brackets. -/
  | bracketForm (text pattern : String)
  /-- A text is no pattern. -/
  | patternForm
  /-- A name starts as that of a decimal type but is not one. -/
  | decimalForm (text : String)
  /-- No type has this name. -/
  | unknownType (name : String)
  /-- A numeral has more digits than are read. -/
  | numeralTooLong
  /-- Metadata lack a part or hold one of the wrong kind. -/
  | malformedMetadata
  /-- A partition field applies a transform to a type that it does not accept. -/
  | transformMismatch (transform : String) (source : DataType) (field : String)
  -- Schemas and rows
  /-- No column has this id. -/
  | noFieldWithId (id : Whole)
  /-- No column has this name. -/
  | noFieldWithName (name : String) (caseSensitive : Bool)
  /-- No value of a row has this id. -/
  | noAccessor (shown : String)
  /-- Two columns have the same full name. -/
  | repeatedName (name : String) (first second : Int)
  /-- Something that is not a type was to be visited. -/
  | notAType (shown : String)
  /-- A record has no such position. -/
  | noPosition
  /-- A list, a text or a byte sequence has no such index. -/
  | noIndex
  /-- A value without positions was indexed. -/
  | notIndexed
  -- Values
  /-- Two values of different kinds have no order. -/
  | notOrdered
  /-- An operation on decimals is not defined. -/
  | undefinedDecimal
  /-- A decimal leaves the range of the arithmetic. -/
  | decimalOverflow
  /-- A value cannot be a member of a set. -/
  | notHashable
  /-- A value has no beginning to test. -/
  | noBeginning
  /-- A text was tested for a beginning of bytes, or the other way round. -/
  | beginningMismatch
  /-- A value lacks a property that the operation reads. -/
  | lacksProperty
  /-- A value of another kind was expected. -/
  | wrongKind
  /-- A text cannot be read as what it should be. -/
  | unreadable
  -- Literals
  /-- No literal can hold this value. -/
  | invalidLiteral (shown : String)
  /-- A literal was given a value of another kind. -/
  | wrongLiteral (shown kind : String)
  /-- A literal cannot be a floating-point value that is not a number. -/
  | literalNotANumber
  /-- A value does not fit into the bytes it is packed into. -/
  | notPackable
  /-- A number leaves the range of floating point, or an infinity that of the integers. -/
  | outOfRange
  /-- A mark for a value beyond a range cannot be converted. -/
  | markerConversion (marker : String)
  /-- Literals of a class are never converted to this type. -/
  | noConversion (literal : String) (type : DataType)
  /-- This literal cannot be converted to this type. -/
  | failedConversion (shown : String) (type : DataType)
  /-- A byte sequence has not the length of the type. -/
  | lengthMismatch (type : DataType) (expected actual : Nat)
  /-- A timestamp without offset was expected. -/
  | unexpectedOffset (text : String)
  /-- A timestamp with offset was expected. -/
  | missingOffset (text : String)
  /-- The text is no timestamp without offset. -/
  | timestampForm (text : String)
  /-- The text is no timestamp with offset. -/
  | zonedTimestampForm (text : String)
  -- Filters
  /-- The text is no filter. -/
  | filterForm
  /-- A filter is nested deeper than the calls that read it may be. -/
  | nestedTooDeep
  /-- A conjunction or a disjunction lacks an operand. -/
  | missingOperand
  /-- A predicate that is bound already was to be bound. -/
  | alreadyBound (predicate : String)
  /-- A predicate that is not bound was to be evaluated. -/
  | notBound (predicate : String)
  /-- Something that is not an expression was to be visited. -/
  | notAnExpression (shown : String)
  -- Transforms
  /-- Values of this type are not hashed into buckets. -/
  | cannotBucket (source : DataType)
  /-- Values of this type are not cut to units of time. -/
  | cannotApply (unit : String) (source : DataType)
  /-- Values of this type are not truncated. -/
  | cannotTruncate (source : DataType)
  /-- The transform is only known by its name. -/
  | unsupportedTransform (name : String)
  /-- A bound of a range of numbers is not a number. -/
  | notNumeric (literal : String)
  /-- A day or a moment lies outside the calendar. -/
  | outOfCalendar
  /-- A width is zero. -/
  | divisionByZero
  /-- The value has no size in bytes. -/
  | unsupportedValue (shown : String)
  -- Settings
  /-- A setting is both a value and a group of settings. -/
  | conflictingSettings (name : String)
  /-- The settings are not a group of settings. -/
  | settingsForm
  /-- A settings file holds a character that none may hold. -/
  | forbiddenCharacter
  /-- A key of a settings file is too long or goes over several lines. -/
  | settingsKey
  /-- A line of a text in a settings file starts with a mark between documents. -/
  | documentMark
  /-- A setting should be an integer. -/
  | settingNotInteger (name shown : String)
  /-- A setting should be a truth value. -/
  | settingNotBoolean (name shown : String)
  /-- A pool without workers was asked for. -/
  | noWorkers
  -- Frozen maps
  /-- A key of a frozen map was assigned. -/
  | frozenAssignment
  /-- A frozen map was updated. -/
  | frozenUpdate
  /-- A map has no such key. -/
  | noKey
  deriving DecidableEq

namespace Fault

def message : Fault → Option String
  | bracketForm text pattern =>
    some ("Could not match " ++ text ++ ", expected format " ++ pattern ++ "[22]")
  | decimalForm text => some ("Could not parse " ++ text ++ " into a DecimalType")
  | unknownType name => some ("Unknown type: " ++ name)
  | transformMismatch transform source field =>
    some ("Cannot apply " ++ transform ++ " to source column of type " ++ source.render ++ ": " ++ field)
  | noFieldWithId id => some ("Could not find field with id: " ++ id.render)
  | noFieldWithName name caseSensitive =>
    some ("Could not find field with name " ++ name ++ ", case_sensitive=" ++ renderBool caseSensitive)
  | noAccessor shown => some ("Could not find accessor for field with id: " ++ shown)
  | repeatedName name first second =>
    some ("Invalid schema, multiple fields for name " ++ name ++ ": " ++ toString first ++ " and " ++
      toString second)
  | notAType shown => some ("Cannot visit non-type: " ++ shown)
  | invalidLiteral shown => some ("Invalid literal value: " ++ shown)
  | wrongLiteral shown kind => some ("Invalid literal value: " ++ shown ++ " (not a " ++ kind ++ ")")
  | literalNotANumber => some "Cannot create expression literal from NaN."
  | markerConversion marker => some ("Cannot change the type of " ++ marker)
  | noConversion literal type => some ("Cannot convert " ++ literal ++ " into " ++ type.render)
  | failedConversion shown type => some ("Could not convert " ++ shown ++ " into a " ++ type.render)
  | lengthMismatch type expected actual =>
    some ("Cannot convert BinaryLiteral into " ++ type.render ++ ", different length: " ++
      toString expected ++ " <> " ++ toString actual)
  | unexpectedOffset text => some ("Zone offset provided, but not expected: " ++ text)
  | missingOffset text => some ("Missing zone offset: " ++ text ++ " (must be ISO-8601)")
  | timestampForm text =>
    some ("Invalid timestamp without zone: " ++ text ++ " (must be ISO-8601)")
  | zonedTimestampForm text =>
    some ("Invalid timestamp with zone: " ++ text ++ " (must be ISO-8601)")
  | alreadyBound predicate => some ("Found already bound predicate: " ++ predicate)
  | notBound predicate => some ("Not a bound predicate: " ++ predicate)
  | notAnExpression shown => some ("Cannot visit unsupported expression: " ++ shown)
  | cannotBucket source => some ("Cannot bucket values of type: " ++ source.render)
  | cannotApply unit source =>
    some ("Cannot apply " ++ unit ++ " transform for type: " ++ source.render)
  | cannotTruncate source => some ("Cannot truncate for type: " ++ source.render)
  | unsupportedTransform name => some ("Cannot apply unsupported transform: " ++ name)
  | notNumeric literal =>
    some ("Expected a numeric literal, got: <class 'pyresidual.expressions.literals." ++ literal ++ "'>")
  | unsupportedValue shown => some ("Unsupported value: " ++ shown)
  | conflictingSettings name =>
    some ("Incompatible configurations for table properties: " ++ name)
  | settingNotInteger name shown =>
    some (name ++ " should be an integer or left unset. Current value: " ++ shown)
  | settingNotBoolean name shown =>
    some (name ++ " should be a boolean or left unset. Current value: " ++ shown)
  | frozenAssignment => some "FrozenDict does not support assignment"
  | frozenUpdate => some "FrozenDict does not support .update()"
  | patternForm | numeralTooLong | malformedMetadata | noPosition | noIndex | notIndexed | notOrdered
  | undefinedDecimal | decimalOverflow | notHashable | noBeginning | beginningMismatch
  | lacksProperty | wrongKind | unreadable | notPackable | outOfRange | filterForm | nestedTooDeep
  | missingOperand | outOfCalendar | divisionByZero | settingsForm | forbiddenCharacter | settingsKey
  | documentMark | noWorkers | noKey => none

end Fault

end PartitionPruning
