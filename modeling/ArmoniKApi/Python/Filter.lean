import ArmoniKApi.Library.Separator
import ArmoniKApi.Proto.Filters

/-!
# The Python filters

`armonik.common.filter.filter`: the class `Filter`, its seven leaf classes, and
the overloaded operators that combine filters and turn them into messages.

Python is dynamically typed, and the code relies on it: the attribute `value`
of a filter is a scalar for a leaf and a list of lists of filters for a
combination, and nothing checks which.  So a filter is modelled with an
arbitrary Python object as its value (`PyValue`), and every operation that
Python may refuse returns a `PyResult`.  That combinations really are lists of
lists of leaves is proved in `FilterAlgebra.lean`, not built into the types.

An operation keeps the name of its method: `FilterOf.and` is `__and__`,
`FilterOf.invert` is `__invert__`, `FilterOf.toMessage` is `to_message`.

The file is the code, and there is nothing in it to prove.  It is written after the methods in
their order, with the exceptions where the source raises them, because the claims about
filters are about which exception is raised as much as about which message is built.

Three habits of the source show in the definitions:

* `__invert__`, `__and__` and `__or__` work on the value, whatever it is, and Python finds out
  on the way that something is no filter or has no elements.  `iterate`, `concat`, `truth` and
  `PyValue.invert` are these accidents, each with the exception that Python raises.
* An operator that a class does not declare is an object of the base class (`eq_special`), and
  `to_message` of it calls itself without an end.  The model says `recursionError` there.
* Messages of exceptions are built from `field_name`, which may raise as well and then hides
  the exception that was to be raised.

What protobuf does with a value when it is put into a message is in the last section.  The
tables of fields are in `Python.FilterFields`, and the meaning of a message is a truth value
under an assignment to its basic conditions.
-/

namespace ArmoniKApi.Python

open Proto (Timestamp Duration FilterStringOperator FilterStatusOperator FilterDateOperator
  FilterNumberOperator FilterBooleanOperator FilterArrayOperator FilterDurationOperator)

/-! ## Filters and their values -/

/-- A message class.  The code only compares message classes with `==`. -/
abbrev MessageType := String

/-- The class of a filter object. -/
inductive FilterClass
  | filter
  | string
  | status
  | date
  | number
  | boolean
  | array
  | duration
  deriving DecidableEq, Repr

/-- A filter operator: an `int` (`SimpleOperator`), or one of the two objects
that stand for `==` and `!=` in a class that does not declare them. -/
inductive Operator
  | simple (number : Int)
  | eqSpecial
  | neSpecial
  deriving DecidableEq, Repr

/-- The field message of a filter: an enum value wrapped under a oneof arm, or
a key of the options map. -/
inductive FieldMessage
  | enum (arm name : String) (number : Int)
  | generic (arm key : String)
  deriving DecidableEq, Repr

/-- The arms of the `value_condition` oneof, by their Python attribute names. -/
inductive InnerAttr
  | filter_string
  | filter_number
  | filter_boolean
  | filter_status
  | filter_date
  | filter_array
  | filter_duration
  deriving DecidableEq, Repr

/-- The attributes of a `Filter` object, over the type of its value. -/
structure FilterOf (V : Type) where
  cls : FilterClass
  field : Option FieldMessage
  disjunctionMessageType : MessageType
  conjunctionMessageType : MessageType
  messageType : MessageType
  innerMessageType : Option MessageType
  operator : Option Operator
  value : V

/-- The Python objects that the filter code handles.  A `datetime` is its
number of microseconds since the epoch, a `timedelta` its length in
microseconds.  Of an object of a type that no filter asks for (a `float`, a
`tuple`, an array) only the name of its class matters, and what `not` makes of
it: nothing, if the object refuses to be a boolean. -/
inductive PyValue
  | none
  | bool (b : Bool)
  | int (n : Int)
  | str (s : String)
  | datetime (micros : Int)
  | timestamp (t : Timestamp)
  | timedelta (micros : Int)
  | duration (d : Duration)
  | list (items : List PyValue)
  | filter (f : FilterOf PyValue)
  | other (className : String) (truth : Option Bool)

/-- A `Filter` object, whose value may be any Python object. -/
abbrev Filter := FilterOf PyValue

/-! ## Exceptions -/

/-- The messages of `FilterError`, with what the code interpolates in them. -/
inductive FilterMessage
  /-- "Cannot apply operator to a filter combination" -/
  | operatorOnCombination
  /-- "Cannot apply operator to an already defined filter" -/
  | operatorOnDefined
  /-- "Empty filter" -/
  | emptyFilter
  /-- "Cannot invert filter without a value or operator" -/
  | cannotInvertEmpty
  /-- "Could not invert because of an error in subfilter inversion : …" -/
  | couldNotInvert (cause : FilterMessage)
  /-- "… operator … for field … has no inverted equivalent" -/
  | noInvertedEquivalent (cls : FilterClass) (operator : Option Operator)
      (field : Option FieldMessage)
  /-- "Expected value type … for field …, got … instead" -/
  | expectedValueType (expected fieldName got : String)
  /-- "Operator … is not available for …" -/
  | operatorNotAvailable (operatorStr : String) (cls : FilterClass)
  /-- "Cannot use an empty filter in combination with others. …" -/
  | emptyInCombination
  /-- "Filters cannot be transformed into booleans. …" -/
  | noBoolean
  /-- "Field … is not available as a filter" -/
  | notAvailable (field : String)
  deriving DecidableEq, Repr

/-- The exceptions that the modelled code raises or lets through. -/
inductive PyError
  /-- `FilterError`, with the filter it is about. -/
  | filterError (filter : Option Filter) (message : FilterMessage)
  /-- `ValueError` of `_check_compatible`, of an unknown field, of a number out of
  range, or of an array that is asked for its truth value. -/
  | valueError
  | typeError
  | attributeError
  | indexError
  | recursionError
  | runtimeError (message : String)
  | rpcError

/-- What a Python call returns or raises. -/
abbrev PyResult := Except PyError

/-! ## Class attributes -/

namespace FilterClass

/-- `eq_`.  A class that declares none has the special one of `Filter`. -/
def eq_ : FilterClass → Option Operator
  | .filter | .array => some .eqSpecial
  | .string => some (.simple FilterStringOperator.equal.number)
  | .status => some (.simple FilterStatusOperator.equal.number)
  | .date => some (.simple FilterDateOperator.equal.number)
  | .number => some (.simple FilterNumberOperator.equal.number)
  | .boolean => some (.simple FilterBooleanOperator.is.number)
  | .duration => some (.simple FilterDurationOperator.equal.number)

/-- `ne_`.  A class that declares none, as `BooleanFilter`, has the special one of
`Filter`. -/
def ne_ : FilterClass → Option Operator
  | .filter | .boolean | .array => some .neSpecial
  | .string => some (.simple FilterStringOperator.notEqual.number)
  | .status => some (.simple FilterStatusOperator.notEqual.number)
  | .date => some (.simple FilterDateOperator.notEqual.number)
  | .number => some (.simple FilterNumberOperator.notEqual.number)
  | .duration => some (.simple FilterDurationOperator.notEqual.number)

/-- `lt_`. -/
def lt_ : FilterClass → Option Operator
  | .date => some (.simple FilterDateOperator.before.number)
  | .number => some (.simple FilterNumberOperator.lessThan.number)
  | .duration => some (.simple FilterDurationOperator.shorterThan.number)
  | _ => none

/-- `le_`. -/
def le_ : FilterClass → Option Operator
  | .date => some (.simple FilterDateOperator.beforeOrEqual.number)
  | .number => some (.simple FilterNumberOperator.lessThanOrEqual.number)
  | .duration => some (.simple FilterDurationOperator.shorterThanOrEqual.number)
  | _ => none

/-- `gt_`. -/
def gt_ : FilterClass → Option Operator
  | .date => some (.simple FilterDateOperator.after.number)
  | .number => some (.simple FilterNumberOperator.greaterThan.number)
  | .duration => some (.simple FilterDurationOperator.longerThan.number)
  | _ => none

/-- `ge_`. -/
def ge_ : FilterClass → Option Operator
  | .date => some (.simple FilterDateOperator.afterOrEqual.number)
  | .number => some (.simple FilterNumberOperator.greaterThanOrEqual.number)
  | .duration => some (.simple FilterDurationOperator.longerThanOrEqual.number)
  | _ => none

/-- `contains_`. -/
def contains_ : FilterClass → Option Operator
  | .string => some (.simple FilterStringOperator.contains.number)
  | .array => some (.simple FilterArrayOperator.contains.number)
  | _ => none

/-- `notcontains_`. -/
def notcontains_ : FilterClass → Option Operator
  | .string => some (.simple FilterStringOperator.notContains.number)
  | .array => some (.simple FilterArrayOperator.notContains.number)
  | _ => none

/-- `inner_message_type_attr_`. -/
def innerMessageTypeAttr : FilterClass → Option InnerAttr
  | .filter => none
  | .string => some .filter_string
  | .status => some .filter_status
  | .date => some .filter_date
  | .number => some .filter_number
  | .boolean => some .filter_boolean
  | .array => some .filter_array
  | .duration => some .filter_duration

end FilterClass

/-! ## What Python does with the values -/

namespace PyValue

/-- The objects that a `for` loop over the value visits. -/
def iterate : PyValue → PyResult (List PyValue)
  | .list items => return items
  | .str s => return s.toList.map fun char => .str (String.singleton char)
  | _ => throw .typeError

/-- `a + b` on the values of two combinations, or on two of their conjunctions.
Neither is ever a filter, for which `+` would be `Filter.__add__`. -/
def concat : PyValue → PyValue → PyResult PyValue
  | .list items, .list others => return .list (items ++ others)
  | .str s, .str t => return .str (s ++ t)
  | .int m, .int n => return .int (m + n)
  | _, _ => throw .typeError

/-- The truth value that `not` takes.  Messages are always true, and a filter
refuses to be a boolean. -/
def truth : PyValue → PyResult Bool
  | .none => return false
  | .bool b => return b
  | .int n => return n ≠ 0
  | .str s => return s ≠ ""
  | .timedelta micros => return micros ≠ 0
  | .list items => return !items.isEmpty
  | .datetime _ | .timestamp _ | .duration _ => return true
  | .filter f => throw (.filterError (some f) .noBoolean)
  | .other _ (some truth) => return truth
  | .other _ Option.none => throw .valueError

/-- `__class__.__name__`. -/
def className : PyValue → String
  | .none => "NoneType"
  | .bool _ => "bool"
  | .int _ => "int"
  | .str _ => "str"
  | .datetime _ => "datetime"
  | .timestamp _ => "Timestamp"
  | .timedelta _ => "timedelta"
  | .duration _ => "Duration"
  | .list _ => "list"
  | .filter _ => "Filter"
  | .other className _ => className

end PyValue

/-- `datetime_to_timestamp`. -/
def datetimeToTimestamp (micros : Int) : Timestamp :=
  ⟨micros / 1000000, micros % 1000000 * 1000⟩

/-- `timedelta_to_duration`: seconds and nanoseconds of the same sign. -/
def timedeltaToDuration (micros : Int) : Duration :=
  ⟨micros.tdiv 1000000, micros.tmod 1000000 * 1000⟩

/-- How the text format writes a character of a string.  Of the characters that
have no letter of their own, those of ASCII that cannot be printed are written as
octal numbers. -/
def escapeChar (c : Char) : List Char :=
  if c = '\n' then ['\\', 'n']
  else if c = '\r' then ['\\', 'r']
  else if c = '\t' then ['\\', 't']
  else if c = '"' ∨ c = '\'' ∨ c = '\\' then ['\\', c]
  else if c.toNat < 32 ∨ c.toNat = 127 then
    ['\\', Nat.digitChar (c.toNat / 64), Nat.digitChar (c.toNat / 8 % 8),
      Nat.digitChar (c.toNat % 8)]
  else [c]

/-- A string in the text format. -/
def escapeText (s : String) : String := String.ofList (s.toList.flatMap escapeChar)

/-- The text format of a field message.  A field with its default value is not
printed. -/
def FieldMessage.text : FieldMessage → String
  | .enum arm name number =>
      arm ++ " \x7b\n" ++ (if number = 0 then "" else "  field: " ++ name ++ "\n") ++ "\x7d\n"
  | .generic arm key =>
      arm ++ " \x7b\n" ++
        (if key = "" then "" else "  field: \"" ++ escapeText key ++ "\"\n") ++ "\x7d\n"

namespace FilterOf

/-- `str(self.field)`. -/
def fieldText (self : Filter) : String :=
  match self.field with
  | some field => field.text
  | none => "None"

/-- The property `field_name`: the second line of the text format of the field,
after the mark that ends the prefix of the enum name.  Of the letters that
`lower` knows, only those of ASCII are lowered here. -/
def fieldName (self : Filter) : PyResult String :=
  match ((self.fieldText.toList.filter fun c => c ≠ ' ').splitOn '\n')[1]? with
  | none => throw .indexError
  | some line =>
      match (Separator.split "ENUM_FIELD_".toList line)[1]? with
      | none => throw .indexError
      | some name => return (String.ofList name).toLower

/-- The `FilterError` of `_sanitize_value`.  Its message needs `field_name`,
which may raise first. -/
def wrongValueType (self : Filter) (filter : Option Filter) (expected : String)
    (value : PyValue) : PyResult PyValue := do
  let fieldName ← self.fieldName
  throw (.filterError filter (.expectedValueType expected fieldName value.className))

/-- `_sanitize_value`, with the overrides of `DateFilter` and `DurationFilter`.
A `bool` is an `int` for `isinstance`. -/
def sanitizeValue (self : Filter) (value : PyValue) : PyResult PyValue :=
  match self.cls, value with
  | .filter, value | .status, value => return value
  | .string, .str s | .array, .str s => return .str s
  | .string, value | .array, value => self.wrongValueType none "str" value
  | .number, .int n => return .int n
  | .number, .bool b => return .bool b
  | .number, value => self.wrongValueType none "int" value
  | .boolean, .bool b => return .bool b
  | .boolean, value => self.wrongValueType none "bool" value
  | .date, .datetime micros => return .timestamp (datetimeToTimestamp micros)
  | .date, .timestamp t => return .timestamp t
  | .date, value => self.wrongValueType (some self) "datetime' or 'Timestamp" value
  | .duration, .timedelta micros => return .duration (timedeltaToDuration micros)
  | .duration, .duration d => return .duration d
  | .duration, value => self.wrongValueType (some self) "timedelta' or 'Duration" value

/-! ## Combining filters -/

/-- `_disjunction`: a combination with the message types of `self`. -/
def disjunction (self : Filter) (filters : PyValue) : Filter where
  cls := .filter
  field := none
  disjunctionMessageType := self.disjunctionMessageType
  conjunctionMessageType := self.conjunctionMessageType
  messageType := self.disjunctionMessageType
  innerMessageType := none
  operator := none
  value := filters

/-- `_check_compatible`.  That `other` is a filter is what its type says. -/
def checkCompatible (self other : Filter) : PyResult Unit :=
  if self.disjunctionMessageType = other.disjunctionMessageType ∧
      self.conjunctionMessageType = other.conjunctionMessageType then
    return ()
  else
    throw .valueError

/-- `_is_empty`. -/
def isEmpty (self : Filter) : Bool :=
  match self.value with
  | .none | .list [] | .list (.list [] :: _) => true
  | _ => false

/-- `_is_disjunction`. -/
def isDisjunction (self : Filter) : Bool :=
  self.messageType = self.disjunctionMessageType

/-- `to_disjunction`. -/
def toDisjunction (self : Filter) : PyResult Filter :=
  if self.isEmpty then
    throw (.filterError (some self) .emptyFilter)
  else
    match self.operator with
    | some (.simple _) => return self.disjunction (.list [.list [.filter self]])
    | _ => return self

/-- `__and__`: every conjunction of `self` with every conjunction of `other`,
the latter in the outer loop. -/
protected def and (self other : Filter) : PyResult Filter := do
  self.checkCompatible other
  let right ← (← other.toDisjunction).value.iterate
  let products ← right.mapM fun c2 => do
    let left ← (← self.toDisjunction).value.iterate
    left.mapM fun c1 => c1.concat c2
  return self.disjunction (.list products.flatten)

/-- `__or__`. -/
protected def or (self other : Filter) : PyResult Filter := do
  self.checkCompatible other
  let left ← self.toDisjunction
  let right ← other.toDisjunction
  return self.disjunction (← left.value.concat right.value)

/-- `_change_operation` with `override`: a filter of the same class with another
operator and value. -/
def withOperation (self : Filter) (value : PyValue) (operator : Option Operator)
    (operatorStr : String) : PyResult Filter := do
  if operator = none ∨ self.isDisjunction then
    throw (.filterError (some self) (.operatorNotAvailable operatorStr self.cls))
  let sanitized ← self.sanitizeValue value
  return { self with operator := operator, value := sanitized }

/-- `__invert__` on a filter that has an operator. -/
def invertOperation (self : Filter) : PyResult Filter :=
  if self.operator = self.cls.eq_ then self.withOperation self.value self.cls.ne_ "!="
  else if self.operator = self.cls.ne_ then self.withOperation self.value self.cls.eq_ "=="
  else if self.operator = self.cls.lt_ then self.withOperation self.value self.cls.ge_ ">="
  else if self.operator = self.cls.le_ then self.withOperation self.value self.cls.gt_ ">"
  else if self.operator = self.cls.gt_ then self.withOperation self.value self.cls.le_ "<="
  else if self.operator = self.cls.ge_ then self.withOperation self.value self.cls.lt_ "<"
  else if self.operator = self.cls.contains_ then
    self.withOperation self.value self.cls.notcontains_ "not_contains"
  else if self.operator = self.cls.notcontains_ then
    self.withOperation self.value self.cls.contains_ "contains"
  else
    throw (.filterError (some self)
      (.noInvertedEquivalent self.cls self.operator self.field))

/-- `BooleanFilter.__invert__`. -/
def invertBoolean (self : Filter) : PyResult Filter := do
  let truth ← self.value.truth
  self.withOperation (.bool !truth) self.cls.eq_ "=="

/-- The `except FilterError` clause of `__invert__`. -/
def rewrapError (self : Filter) : PyError → PyError
  | .filterError _ message => .filterError (some self) (.couldNotInvert message)
  | error => error

end FilterOf

/-! ## Negation

`__invert__` goes down the nested lists of a combination, and each function
below follows one level of them. -/

mutual

/-- `~` on any Python object; `~n` is `-n - 1` on an `int`. -/
def PyValue.invert : PyValue → PyResult PyValue
  | .filter f => do return .filter (← f.invert)
  | .int n => return .int (-n - 1)
  | .bool b => return .int (-(if b then 1 else 0) - 1)
  | _ => throw .typeError

/-- `Filter.__invert__`. -/
def FilterOf.invert : FilterOf PyValue → PyResult Filter
  | ⟨cls, field, disjunctionMessageType, conjunctionMessageType, messageType,
      innerMessageType, operator, value⟩ =>
    let self : Filter := ⟨cls, field, disjunctionMessageType, conjunctionMessageType, messageType,
      innerMessageType, operator, value⟩
    if cls = .boolean then
      self.invertBoolean
    else if operator = none then
      if self.isEmpty then
        throw (.filterError (some self) .cannotInvertEmpty)
      else
        (invertValue self value).mapError self.rewrapError
    else
      self.invertOperation

/-- The negation of the value of a combination. -/
def invertValue (self : Filter) : PyValue → PyResult Filter
  | .list conjs => invertConjs self conjs
  | .str s => if s = "" then throw .indexError else throw .typeError
  | _ => throw .typeError

/-- The negated first conjunction starts the accumulator `new_filter`. -/
def invertConjs (self : Filter) : List PyValue → PyResult Filter
  | [] => throw .indexError
  | conj :: rest => do
      let first ← invertConj conj
      invertRest self (self.disjunction (.list first)) rest

/-- `[[~c] for c in conj]`. -/
def invertConj : PyValue → PyResult (List PyValue)
  | .list items => invertItems items
  | .str s => if s = "" then return [] else throw .typeError
  | _ => throw .typeError

/-- The negated items, each in a list of its own. -/
def invertItems : List PyValue → PyResult (List PyValue)
  | [] => return []
  | item :: rest => do
      let inverted ← item.invert
      return .list [inverted] :: (← invertItems rest)

/-- The loop `for conj in self.value[1:]`, over the accumulator `new_filter`. -/
def invertRest (self newFilter : Filter) : List PyValue → PyResult Filter
  | [] => return newFilter
  | conj :: rest => do
      let negated ← invertConj conj
      invertRest self (← newFilter.and (self.disjunction (.list negated))) rest

end

namespace FilterOf

/-- `__mul__`. -/
protected def mul (self other : Filter) : PyResult Filter := self.and other

/-- `__add__`. -/
protected def add (self other : Filter) : PyResult Filter := self.or other

/-- `__neg__`. -/
protected def neg (self : Filter) : PyResult Filter := self.invert

/-- `__xor__`. -/
protected def xor (self other : Filter) : PyResult Filter := do
  let left ← self.and (← other.invert)
  let right ← (← self.invert).and other
  left.or right

end FilterOf

/-! ## Comparisons -/

namespace FilterOf

/-- `_change_operation` without `override`, on a filter that is already defined. -/
def changeDefined (self : Filter) (value : PyValue) (operator : Option Operator) :
    PyResult Filter :=
  match value with
  | .bool b =>
      if operator = self.cls.eq_ ∧ self.cls.eq_ ≠ none then
        if b then return self else self.invert
      else if operator = self.cls.ne_ ∧ self.cls.ne_ ≠ none then
        if b then self.invert else return self
      else
        reassigned
  | _ => reassigned
where
  reassigned : PyResult Filter :=
    if self.isDisjunction then
      throw (.filterError (some self) .operatorOnCombination)
    else
      throw (.filterError (some self) .operatorOnDefined)

/-- `_change_operation` without `override`. -/
def changeOperation (self : Filter) (value : PyValue) (operator : Option Operator)
    (operatorStr : String) : PyResult Filter :=
  match self.value with
  | .none => self.withOperation value operator operatorStr
  | _ => self.changeDefined value operator

/-- `__eq__`. -/
protected def eq (self : Filter) (value : PyValue) : PyResult Filter :=
  self.changeOperation value self.cls.eq_ "=="

/-- `__ne__`, with the override of `BooleanFilter`. -/
protected def ne (self : Filter) (value : PyValue) : PyResult Filter := do
  if self.cls = .boolean then
    self.withOperation (.bool !(← value.truth)) self.cls.eq_ "!="
  else
    self.changeOperation value self.cls.ne_ "!="

/-- `__lt__`. -/
protected def lt (self : Filter) (value : PyValue) : PyResult Filter :=
  self.changeOperation value self.cls.lt_ "<"

/-- `__le__`. -/
protected def le (self : Filter) (value : PyValue) : PyResult Filter :=
  self.changeOperation value self.cls.le_ "<="

/-- `__gt__`. -/
protected def gt (self : Filter) (value : PyValue) : PyResult Filter :=
  self.changeOperation value self.cls.gt_ ">"

/-- `__ge__`. -/
protected def ge (self : Filter) (value : PyValue) : PyResult Filter :=
  self.changeOperation value self.cls.ge_ ">="

/-- `contains`. -/
def contains (self : Filter) (value : PyValue) : PyResult Filter :=
  self.changeOperation value self.cls.contains_ "contains"

/-- `StringFilter.startswith`. -/
def startswith (self : Filter) (value : PyValue) : PyResult Filter :=
  self.changeOperation value (some (.simple FilterStringOperator.startsWith.number)) "startswith"

/-- `StringFilter.endswith`. -/
def endswith (self : Filter) (value : PyValue) : PyResult Filter :=
  self.changeOperation value (some (.simple FilterStringOperator.endsWith.number)) "endswith"

end FilterOf

/-! ## The fields of a result -/

namespace ResultFilter

/-- A field of `Result` before a comparison makes a leaf of it. -/
def fieldFilter (cls : FilterClass) (innerMessageType : MessageType) (name : String)
    (number : Int) : Filter where
  cls := cls
  field := some (.enum "result_raw_field" name number)
  disjunctionMessageType := "results.Filters"
  conjunctionMessageType := "results.FiltersAnd"
  messageType := "results.FilterField"
  innerMessageType := some innerMessageType
  operator := none
  value := .none

/-- `Result.result_id`. -/
def resultId : Filter :=
  fieldFilter .string "FilterString" "RESULT_RAW_ENUM_FIELD_RESULT_ID"
    Proto.ResultRawEnumField.resultId.number

/-- `Result.status`. -/
def status : Filter :=
  fieldFilter .status "results.FilterStatus" "RESULT_RAW_ENUM_FIELD_STATUS"
    Proto.ResultRawEnumField.status.number

/-- `Result.name`. -/
def name : Filter :=
  fieldFilter .string "FilterString" "RESULT_RAW_ENUM_FIELD_NAME"
    Proto.ResultRawEnumField.name.number

end ResultFilter

/-! ## Messages -/

/-- A `FilterString`, `FilterNumber`, … message. -/
structure InnerMessage where
  messageType : MessageType
  value : PyValue
  operator : Int

/-- A `FilterField` message: one field/operator/value condition. -/
structure BasicMessage where
  messageType : MessageType
  field : Option FieldMessage
  attr : InnerAttr
  inner : InnerMessage

/-- A `FiltersAnd` message. -/
structure ConjunctionMessage where
  messageType : MessageType
  and : List BasicMessage

/-- A `Filters` message. -/
structure DisjunctionMessage where
  messageType : MessageType
  or : List ConjunctionMessage

/-- The truth value of a message under an assignment to its basic conditions. -/
def DisjunctionMessage.holds (v : BasicMessage → Bool) (message : DisjunctionMessage) : Bool :=
  message.or.any fun conj => conj.and.all v

/-- The number fits an `int32` field. -/
def inInt32 (n : Int) : Bool := -2147483648 ≤ n ∧ n < 2147483648

/-- The number fits an `int64` field. -/
def inInt64 (n : Int) : Bool := -9223372036854775808 ≤ n ∧ n < 9223372036854775808

/-- How protobuf stores a value in the `value` field of an inner message: `None`
leaves the default, another type is refused, and a number has to fit.  The
labels that protobuf takes in place of an enum number are not modelled. -/
def innerValue : InnerAttr → PyValue → PyResult PyValue
  | .filter_string, .none | .filter_array, .none => return .str ""
  | .filter_string, .str s | .filter_array, .str s => return .str s
  | .filter_number, .none | .filter_status, .none => return .int 0
  | .filter_number, .bool b => return .int (if b then 1 else 0)
  | .filter_status, .bool b => return .int (if b then 1 else 0)
  | .filter_number, .int n => if inInt64 n then return .int n else throw .valueError
  | .filter_status, .int n => if inInt32 n then return .int n else throw .valueError
  | .filter_boolean, .none => return .bool false
  | .filter_boolean, .bool b => return .bool b
  | .filter_boolean, .int n => return .bool (n ≠ 0)
  | .filter_date, .none | .filter_duration, .none => return .none
  | .filter_date, .timestamp t => return .timestamp t
  | .filter_duration, .duration d => return .duration d
  | _, _ => throw .typeError

/-- How protobuf stores an operator. -/
def innerOperator : Option Operator → PyResult Int
  | none => return 0
  | some (.simple n) => if inInt32 n then return n else throw .valueError
  | some .eqSpecial | some .neSpecial => throw .typeError

namespace FilterOf

/-- `to_basic_message`. -/
def toBasicMessage (self : Filter) : PyResult BasicMessage :=
  match self.cls.innerMessageTypeAttr with
  | none => throw (.filterError (some self) .emptyInCombination)
  | some attr =>
      match self.innerMessageType with
      | none => throw .typeError
      | some innerMessageType => do
          let value ← innerValue attr self.value
          let operator ← innerOperator self.operator
          return ⟨self.messageType, self.field, attr, ⟨innerMessageType, value, operator⟩⟩

/-- `f.to_basic_message()` on any Python object. -/
def itemMessage : PyValue → PyResult BasicMessage
  | .filter f => f.toBasicMessage
  | _ => throw .attributeError

/-- `to_conjunction_message`. -/
def toConjunctionMessage (self : Filter) (conj : PyValue) : PyResult ConjunctionMessage := do
  let items ← conj.iterate
  return ⟨self.conjunctionMessageType, ← items.mapM itemMessage⟩

/-- `to_message` of a filter that is a disjunction. -/
def disjunctionToMessage (self : Filter) : PyResult DisjunctionMessage :=
  match self.value with
  | .none => return ⟨self.disjunctionMessageType, []⟩
  | value => do
      let conjs ← value.iterate
      return ⟨self.disjunctionMessageType, ← conjs.mapM self.toConjunctionMessage⟩

/-- `to_message`.  A filter that is no disjunction calls `to_message` on its
`to_disjunction`; when that is the filter itself, the calls never end. -/
def toMessage (self : Filter) : PyResult DisjunctionMessage :=
  if self.isDisjunction then
    self.disjunctionToMessage
  else do
    let wrapped ← self.toDisjunction
    if wrapped.isDisjunction then
      wrapped.disjunctionToMessage
    else
      throw .recursionError

end FilterOf

end ArmoniKApi.Python
