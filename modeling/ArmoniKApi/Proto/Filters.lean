import ArmoniKApi.Proto.Enums

/-!
# The filter messages of the listing services

The five listing services (tasks, sessions, results, partitions, applications)
declare the same message shape: `Filters` is a list of `FiltersAnd`, which is a
list of `FilterField`, which holds a field and one value condition.  They
differ in the field message and in the arms of the `value_condition` oneof, so
the shape is written once over these two types.

A message-typed field and a oneof may be absent, hence `Option`; an enum field
holds its number.

```text
Filters        or of
  FiltersAnd     and of
    FilterField    field            one of the fields of the service, or none
                   valueCondition   one arm of the oneof, or none
      condition      value          a scalar, or a message that may be absent
                     operator       a number
```

The arms of `value_condition` are not the same for the five services.  Tasks and sessions have
all seven kinds of conditions, and an application can only be asked for texts.  Each service
therefore has its own inductive type of arms, in its namespace, and the nested shape is
instantiated with it.

Nothing is said of what a filter means: the control plane is not in the repository.
-/

namespace ArmoniKApi.Proto

/-! ## Conditions on values -/

/-- `google.protobuf.Timestamp`. -/
structure Timestamp where
  seconds : Int
  nanos : Int
  deriving DecidableEq, Repr

/-- `google.protobuf.Duration`. -/
structure Duration where
  seconds : Int
  nanos : Int
  deriving DecidableEq, Repr

/-- A scalar value to compare with, and the number of the operator: the shape
of `FilterString`, `FilterNumber`, `FilterArray`, `FilterBoolean` and of the
`FilterStatus` of each service. -/
structure FilterCondition (V : Type) where
  value : V
  operator : Int
  deriving DecidableEq, Repr

/-- `FilterString`. -/
abbrev FilterString := FilterCondition String

/-- `FilterNumber`. -/
abbrev FilterNumber := FilterCondition Int

/-- `FilterArray`: the value is an element, not an array. -/
abbrev FilterArray := FilterCondition String

/-- `FilterBoolean`. -/
abbrev FilterBoolean := FilterCondition Bool

/-- The `FilterStatus` of a service holds the number of a status. -/
abbrev FilterStatus := FilterCondition Int

/-- The value of a date filter is a message, which may be absent. -/
abbrev FilterDate := FilterCondition (Option Timestamp)

/-- The value of a duration filter is a message too. -/
abbrev FilterDuration := FilterCondition (Option Duration)

/-! ## The nested shape -/

/-- `FilterField`: a condition on a field, both of which may be absent on the wire. -/
structure FilterField (F C : Type) where
  field : Option F
  valueCondition : Option C
  deriving DecidableEq, Repr

/-- `FiltersAnd`: the conditions that must hold together. -/
structure FiltersAnd (F C : Type) where
  and : List (FilterField F C)
  deriving DecidableEq, Repr

/-- `Filters`: the conjunctions of which one must hold. -/
structure Filters (F C : Type) where
  or : List (FiltersAnd F C)
  deriving DecidableEq, Repr

/-- A message that wraps the number of one enum field. -/
structure EnumField where
  field : Int
  deriving DecidableEq, Repr

/-- `TaskOptionGenericField`: a key of the options map. -/
structure TaskOptionGenericField where
  field : String
  deriving DecidableEq, Repr

/-! ## Tasks and sessions -/

namespace Tasks

/-- The oneof `TaskField.field`: a field of the summary, a named option, or a key of the
options map. -/
inductive TaskField.Field
  | taskSummaryField (field : EnumField)
  | taskOptionField (field : EnumField)
  | taskOptionGenericField (field : TaskOptionGenericField)
  deriving DecidableEq, Repr

/-- `tasks.TaskField`. -/
structure TaskField where
  field : Option TaskField.Field
  deriving DecidableEq, Repr

/-- The oneof `tasks.FilterField.value_condition`. -/
inductive ValueCondition
  | filterString (cond : FilterString)
  | filterNumber (cond : FilterNumber)
  | filterBoolean (cond : FilterBoolean)
  | filterStatus (cond : FilterStatus)
  | filterDate (cond : FilterDate)
  | filterArray (cond : FilterArray)
  | filterDuration (cond : FilterDuration)
  deriving DecidableEq, Repr

/-- `tasks.Filters`. -/
abbrev Filters := Proto.Filters TaskField ValueCondition

end Tasks

namespace Sessions

/-- The oneof `SessionField.field`: a field of the session, a named option, or a key of the
options map. -/
inductive SessionField.Field
  | sessionRawField (field : EnumField)
  | taskOptionField (field : EnumField)
  | taskOptionGenericField (field : TaskOptionGenericField)
  deriving DecidableEq, Repr

/-- `sessions.SessionField`. -/
structure SessionField where
  field : Option SessionField.Field
  deriving DecidableEq, Repr

/-- The oneof `sessions.FilterField.value_condition`. -/
inductive ValueCondition
  | filterString (cond : FilterString)
  | filterNumber (cond : FilterNumber)
  | filterBoolean (cond : FilterBoolean)
  | filterStatus (cond : FilterStatus)
  | filterDate (cond : FilterDate)
  | filterArray (cond : FilterArray)
  | filterDuration (cond : FilterDuration)
  deriving DecidableEq, Repr

/-- `sessions.Filters`. -/
abbrev Filters := Proto.Filters SessionField ValueCondition

end Sessions

/-! ## Results, partitions and applications -/

namespace Results

/-- The oneof `ResultField.field`, which has one arm. -/
inductive ResultField.Field
  | resultRawField (field : EnumField)
  deriving DecidableEq, Repr

/-- `results.ResultField`. -/
structure ResultField where
  field : Option ResultField.Field
  deriving DecidableEq, Repr

/-- The oneof `results.FilterField.value_condition`. -/
inductive ValueCondition
  | filterString (cond : FilterString)
  | filterDate (cond : FilterDate)
  | filterArray (cond : FilterArray)
  | filterStatus (cond : FilterStatus)
  | filterNumber (cond : FilterNumber)
  deriving DecidableEq, Repr

/-- `results.FilterField`. -/
abbrev FilterField := Proto.FilterField ResultField ValueCondition

/-- `results.FiltersAnd`. -/
abbrev FiltersAnd := Proto.FiltersAnd ResultField ValueCondition

/-- `results.Filters`, which the event subscriptions carry as well. -/
abbrev Filters := Proto.Filters ResultField ValueCondition

end Results

namespace Partitions

/-- The oneof `PartitionField.field`, which has one arm. -/
inductive PartitionField.Field
  | partitionRawField (field : EnumField)
  deriving DecidableEq, Repr

/-- `partitions.PartitionField`. -/
structure PartitionField where
  field : Option PartitionField.Field
  deriving DecidableEq, Repr

/-- The oneof `partitions.FilterField.value_condition`. -/
inductive ValueCondition
  | filterString (cond : FilterString)
  | filterNumber (cond : FilterNumber)
  | filterBoolean (cond : FilterBoolean)
  | filterArray (cond : FilterArray)
  deriving DecidableEq, Repr

/-- `partitions.Filters`. -/
abbrev Filters := Proto.Filters PartitionField ValueCondition

end Partitions

namespace Applications

/-- The oneof `ApplicationField.field`, which has one arm. -/
inductive ApplicationField.Field
  | applicationField (field : EnumField)
  deriving DecidableEq, Repr

/-- `applications.ApplicationField`. -/
structure ApplicationField where
  field : Option ApplicationField.Field
  deriving DecidableEq, Repr

/-- The oneof `applications.FilterField.value_condition`, which has one arm: all fields of
an application are texts. -/
inductive ValueCondition
  | filterString (cond : FilterString)
  deriving DecidableEq, Repr

/-- `applications.Filters`. -/
abbrev Filters := Proto.Filters ApplicationField ValueCondition

end Applications

end ArmoniKApi.Proto
