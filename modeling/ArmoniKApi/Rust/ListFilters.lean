import ArmoniKApi.Rust.Filters

/-!
# The filters of the listing services of the Rust client

Tasks, sessions, results, partitions and applications each have their own field
and their own set of conditions.  For each service the field and the condition
get a codec with its lemma, and the codec of the filter is `Filter.Or.codec` at
these two; `list_filters_round_trip` puts the five together.

A field whose oneof is not set is read as the default field for tasks and
sessions, and as the unspecified field for the other three.

```text
   service        fields                                        statuses
   tasks          summary, task options, generic task options   TaskStatus
   sessions       raw, task options, generic task options       SessionStatus
   results        raw                                           ResultStatus
   partitions     raw                                           (none)
   applications   raw                                           (none)
```

Each service has a section of the same form: its field with `toV3`, `ofV3` and `codec`, the
wire values that come back (`WellFormed`), the lemma `codec_lawful`, and then the same for its
condition.  The lemmas are by cases on the arm of the oneof, and in each arm rewrite with the
lemma of the enumeration or of the condition that it holds.
-/

namespace ArmoniKApi.Rust

open Codec (Known Present)

/-! ## Tasks -/

namespace Tasks

/-- `tasks::Field`. -/
inductive Field
  | summary (field : SummaryField)
  | option (field : TaskOptionField)
  | optionGeneric (field : String)
  deriving DecidableEq, Repr

namespace Field

instance : Inhabited Field := ⟨.summary default⟩

/-- Each kind of field has its arm of the oneof. -/
def toV3 : Field → Proto.Tasks.TaskField
  | .summary field => ⟨some (.taskSummaryField ⟨field.asI32⟩)⟩
  | .option field => ⟨some (.taskOptionField ⟨field.asI32⟩)⟩
  | .optionGeneric field => ⟨some (.taskOptionGenericField ⟨field⟩)⟩

/-- An unset oneof is the default field. -/
def ofV3 (value : Proto.Tasks.TaskField) : Field :=
  match value.field with
  | some (.taskSummaryField field) => .summary (.ofI32 field.field)
  | some (.taskOptionField field) => .option (.ofI32 field.field)
  | some (.taskOptionGenericField field) => .optionGeneric field.field
  | none => default

/-- To the wire and back. -/
def codec : Codec Field Proto.Tasks.TaskField := ⟨toV3, ofV3⟩

/-- The oneof is set, and a listed field is one of the enumeration. -/
def WellFormed (value : Proto.Tasks.TaskField) : Prop :=
  match value.field with
  | some (.taskSummaryField field) => Known Proto.TaskSummaryEnumField.number field.field
  | some (.taskOptionField field) => Known Proto.TaskOptionEnumField.number field.field
  | some (.taskOptionGenericField _) => True
  | none => False

theorem codec_lawful : codec.Lawful WellFormed where
  decode_encode := by
    intro field
    cases field with
    | summary field => exact congrArg Field.summary (SummaryField.codec_lawful.decode_encode field)
    | option field => exact congrArg Field.option (TaskOptionField.codec_lawful.decode_encode field)
    | optionGeneric field => rfl
  encode_decode := by
    intro ⟨value⟩ hvalue
    match value, hvalue with
    | some (.taskSummaryField ⟨n⟩), hn =>
        have hfield : (SummaryField.ofI32 n).asI32 = n :=
          SummaryField.codec_lawful.encode_decode n hn
        simp only [codec, ofV3, toV3, hfield]
    | some (.taskOptionField ⟨n⟩), hn =>
        have hfield : (TaskOptionField.ofI32 n).asI32 = n :=
          TaskOptionField.codec_lawful.encode_decode n hn
        simp only [codec, ofV3, toV3, hfield]
    | some (.taskOptionGenericField ⟨key⟩), _ => rfl

end Field

/-- `tasks::filter::Condition`. -/
inductive Condition
  | string (cond : FilterString)
  | number (cond : FilterNumber)
  | boolean (cond : FilterBoolean)
  | status (cond : FilterStatus TaskStatus)
  | date (cond : FilterDate)
  | duration (cond : FilterDuration)
  | array (cond : FilterArray)
  deriving DecidableEq, Repr

namespace Condition

instance : Inhabited Condition := ⟨.string default⟩

/-- Each kind of condition has its arm of the oneof. -/
def toV3 : Condition → Proto.Tasks.ValueCondition
  | .string cond => .filterString (FilterString.codec.encode cond)
  | .number cond => .filterNumber (FilterNumber.codec.encode cond)
  | .boolean cond => .filterBoolean (FilterBoolean.codec.encode cond)
  | .status cond => .filterStatus ((FilterStatus.codec TaskStatus.codec).encode cond)
  | .date cond => .filterDate (FilterDate.codec.encode cond)
  | .duration cond => .filterDuration (FilterDuration.codec.encode cond)
  | .array cond => .filterArray (FilterArray.codec.encode cond)

/-- The arms in the other direction. -/
def ofV3 : Proto.Tasks.ValueCondition → Condition
  | .filterString cond => .string (FilterString.codec.decode cond)
  | .filterNumber cond => .number (FilterNumber.codec.decode cond)
  | .filterBoolean cond => .boolean (FilterBoolean.codec.decode cond)
  | .filterStatus cond => .status ((FilterStatus.codec TaskStatus.codec).decode cond)
  | .filterDate cond => .date (FilterDate.codec.decode cond)
  | .filterDuration cond => .duration (FilterDuration.codec.decode cond)
  | .filterArray cond => .array (FilterArray.codec.decode cond)

/-- To the wire and back. -/
def codec : Codec Condition Proto.Tasks.ValueCondition := ⟨toV3, ofV3⟩

/-- The condition is one that comes back: its operator and its status are known, and its
date or duration is there. -/
def WellFormed : Proto.Tasks.ValueCondition → Prop
  | .filterString cond => ScalarWellFormed Proto.FilterStringOperator.number cond
  | .filterNumber cond => ScalarWellFormed Proto.FilterNumberOperator.number cond
  | .filterBoolean cond => ScalarWellFormed Proto.FilterBooleanOperator.number cond
  | .filterStatus cond => StatusWellFormed Proto.TaskStatus.number cond
  | .filterDate cond => MessageWellFormed Proto.FilterDateOperator.number cond
  | .filterDuration cond => MessageWellFormed Proto.FilterDurationOperator.number cond
  | .filterArray cond => ScalarWellFormed Proto.FilterArrayOperator.number cond

theorem codec_lawful : codec.Lawful WellFormed where
  decode_encode := by
    intro cond
    cases cond with
    | string cond => exact congrArg Condition.string (FilterString.codec_lawful.decode_encode cond)
    | number cond => exact congrArg Condition.number (FilterNumber.codec_lawful.decode_encode cond)
    | boolean cond =>
        exact congrArg Condition.boolean
          (FilterBoolean.codec_lawful.decode_encode cond)
    | status cond =>
        exact congrArg Condition.status
          ((FilterStatus.codec_lawful TaskStatus.codec_lawful).decode_encode cond)
    | date cond => exact congrArg Condition.date (FilterDate.codec_lawful.decode_encode cond)
    | duration cond =>
        exact congrArg Condition.duration
          (FilterDuration.codec_lawful.decode_encode cond)
    | array cond => exact congrArg Condition.array (FilterArray.codec_lawful.decode_encode cond)
  encode_decode := by
    intro cond hcond
    cases cond with
    | filterString cond =>
        exact congrArg Proto.Tasks.ValueCondition.filterString
          (FilterString.codec_lawful.encode_decode cond hcond)
    | filterNumber cond =>
        exact congrArg Proto.Tasks.ValueCondition.filterNumber
          (FilterNumber.codec_lawful.encode_decode cond hcond)
    | filterBoolean cond =>
        exact congrArg Proto.Tasks.ValueCondition.filterBoolean
          (FilterBoolean.codec_lawful.encode_decode cond hcond)
    | filterStatus cond =>
        exact congrArg Proto.Tasks.ValueCondition.filterStatus
          ((FilterStatus.codec_lawful TaskStatus.codec_lawful).encode_decode cond hcond)
    | filterDate cond =>
        exact congrArg Proto.Tasks.ValueCondition.filterDate
          (FilterDate.codec_lawful.encode_decode cond hcond)
    | filterDuration cond =>
        exact congrArg Proto.Tasks.ValueCondition.filterDuration
          (FilterDuration.codec_lawful.encode_decode cond hcond)
    | filterArray cond =>
        exact congrArg Proto.Tasks.ValueCondition.filterArray
          (FilterArray.codec_lawful.encode_decode cond hcond)

end Condition

/-- `tasks::filter::Or`. -/
abbrev Filters := Filter.Or Field Condition

/-- The nested filter, over the field and the condition of a task. -/
def Filters.codec : Codec Filters Proto.Tasks.Filters :=
  Filter.Or.codec Field.codec Condition.codec

/-- Nothing is absent in the filter, and every enumeration is known. -/
abbrev Filters.WellFormed : Proto.Tasks.Filters → Prop :=
  Filter.Or.WellFormed Field.WellFormed Condition.WellFormed

end Tasks

/-! ## Sessions -/

namespace Sessions

/-- `sessions::Field`. -/
inductive Field
  | raw (field : RawField)
  | taskOption (field : TaskOptionField)
  | taskOptionGeneric (field : String)
  deriving DecidableEq, Repr

namespace Field

instance : Inhabited Field := ⟨.raw default⟩

/-- Each kind of field has its arm of the oneof. -/
def toV3 : Field → Proto.Sessions.SessionField
  | .raw field => ⟨some (.sessionRawField ⟨field.asI32⟩)⟩
  | .taskOption field => ⟨some (.taskOptionField ⟨field.asI32⟩)⟩
  | .taskOptionGeneric field => ⟨some (.taskOptionGenericField ⟨field⟩)⟩

/-- An unset oneof is the default field. -/
def ofV3 (value : Proto.Sessions.SessionField) : Field :=
  match value.field with
  | some (.sessionRawField field) => .raw (.ofI32 field.field)
  | some (.taskOptionField field) => .taskOption (.ofI32 field.field)
  | some (.taskOptionGenericField field) => .taskOptionGeneric field.field
  | none => default

/-- To the wire and back. -/
def codec : Codec Field Proto.Sessions.SessionField := ⟨toV3, ofV3⟩

/-- The oneof is set, and a listed field is one of the enumeration. -/
def WellFormed (value : Proto.Sessions.SessionField) : Prop :=
  match value.field with
  | some (.sessionRawField field) => Known Proto.SessionRawEnumField.number field.field
  | some (.taskOptionField field) => Known Proto.TaskOptionEnumField.number field.field
  | some (.taskOptionGenericField _) => True
  | none => False

theorem codec_lawful : codec.Lawful WellFormed where
  decode_encode := by
    intro field
    cases field with
    | raw field => exact congrArg Field.raw (RawField.codec_lawful.decode_encode field)
    | taskOption field =>
        exact congrArg Field.taskOption (TaskOptionField.codec_lawful.decode_encode field)
    | taskOptionGeneric field => rfl
  encode_decode := by
    intro ⟨value⟩ hvalue
    match value, hvalue with
    | some (.sessionRawField ⟨n⟩), hn =>
        have hfield : (RawField.ofI32 n).asI32 = n := RawField.codec_lawful.encode_decode n hn
        simp only [codec, ofV3, toV3, hfield]
    | some (.taskOptionField ⟨n⟩), hn =>
        have hfield : (TaskOptionField.ofI32 n).asI32 = n :=
          TaskOptionField.codec_lawful.encode_decode n hn
        simp only [codec, ofV3, toV3, hfield]
    | some (.taskOptionGenericField ⟨key⟩), _ => rfl

end Field

/-- `sessions::filter::Condition`. -/
inductive Condition
  | string (cond : FilterString)
  | number (cond : FilterNumber)
  | boolean (cond : FilterBoolean)
  | status (cond : FilterStatus SessionStatus)
  | date (cond : FilterDate)
  | duration (cond : FilterDuration)
  | array (cond : FilterArray)
  deriving DecidableEq, Repr

namespace Condition

instance : Inhabited Condition := ⟨.string default⟩

/-- Each kind of condition has its arm of the oneof. -/
def toV3 : Condition → Proto.Sessions.ValueCondition
  | .string cond => .filterString (FilterString.codec.encode cond)
  | .number cond => .filterNumber (FilterNumber.codec.encode cond)
  | .boolean cond => .filterBoolean (FilterBoolean.codec.encode cond)
  | .status cond => .filterStatus ((FilterStatus.codec SessionStatus.codec).encode cond)
  | .date cond => .filterDate (FilterDate.codec.encode cond)
  | .duration cond => .filterDuration (FilterDuration.codec.encode cond)
  | .array cond => .filterArray (FilterArray.codec.encode cond)

/-- The arms in the other direction. -/
def ofV3 : Proto.Sessions.ValueCondition → Condition
  | .filterString cond => .string (FilterString.codec.decode cond)
  | .filterNumber cond => .number (FilterNumber.codec.decode cond)
  | .filterBoolean cond => .boolean (FilterBoolean.codec.decode cond)
  | .filterStatus cond => .status ((FilterStatus.codec SessionStatus.codec).decode cond)
  | .filterDate cond => .date (FilterDate.codec.decode cond)
  | .filterDuration cond => .duration (FilterDuration.codec.decode cond)
  | .filterArray cond => .array (FilterArray.codec.decode cond)

/-- To the wire and back. -/
def codec : Codec Condition Proto.Sessions.ValueCondition := ⟨toV3, ofV3⟩

/-- The condition is one that comes back: its operator and its status are known, and its
date or duration is there. -/
def WellFormed : Proto.Sessions.ValueCondition → Prop
  | .filterString cond => ScalarWellFormed Proto.FilterStringOperator.number cond
  | .filterNumber cond => ScalarWellFormed Proto.FilterNumberOperator.number cond
  | .filterBoolean cond => ScalarWellFormed Proto.FilterBooleanOperator.number cond
  | .filterStatus cond => StatusWellFormed Proto.SessionStatus.number cond
  | .filterDate cond => MessageWellFormed Proto.FilterDateOperator.number cond
  | .filterDuration cond => MessageWellFormed Proto.FilterDurationOperator.number cond
  | .filterArray cond => ScalarWellFormed Proto.FilterArrayOperator.number cond

theorem codec_lawful : codec.Lawful WellFormed where
  decode_encode := by
    intro cond
    cases cond with
    | string cond => exact congrArg Condition.string (FilterString.codec_lawful.decode_encode cond)
    | number cond => exact congrArg Condition.number (FilterNumber.codec_lawful.decode_encode cond)
    | boolean cond =>
        exact congrArg Condition.boolean
          (FilterBoolean.codec_lawful.decode_encode cond)
    | status cond =>
        exact congrArg Condition.status
          ((FilterStatus.codec_lawful SessionStatus.codec_lawful).decode_encode cond)
    | date cond => exact congrArg Condition.date (FilterDate.codec_lawful.decode_encode cond)
    | duration cond =>
        exact congrArg Condition.duration
          (FilterDuration.codec_lawful.decode_encode cond)
    | array cond => exact congrArg Condition.array (FilterArray.codec_lawful.decode_encode cond)
  encode_decode := by
    intro cond hcond
    cases cond with
    | filterString cond =>
        exact congrArg Proto.Sessions.ValueCondition.filterString
          (FilterString.codec_lawful.encode_decode cond hcond)
    | filterNumber cond =>
        exact congrArg Proto.Sessions.ValueCondition.filterNumber
          (FilterNumber.codec_lawful.encode_decode cond hcond)
    | filterBoolean cond =>
        exact congrArg Proto.Sessions.ValueCondition.filterBoolean
          (FilterBoolean.codec_lawful.encode_decode cond hcond)
    | filterStatus cond =>
        exact congrArg Proto.Sessions.ValueCondition.filterStatus
          ((FilterStatus.codec_lawful SessionStatus.codec_lawful).encode_decode cond hcond)
    | filterDate cond =>
        exact congrArg Proto.Sessions.ValueCondition.filterDate
          (FilterDate.codec_lawful.encode_decode cond hcond)
    | filterDuration cond =>
        exact congrArg Proto.Sessions.ValueCondition.filterDuration
          (FilterDuration.codec_lawful.encode_decode cond hcond)
    | filterArray cond =>
        exact congrArg Proto.Sessions.ValueCondition.filterArray
          (FilterArray.codec_lawful.encode_decode cond hcond)

end Condition

/-- `sessions::filter::Or`. -/
abbrev Filters := Filter.Or Field Condition

/-- The nested filter, over the field and the condition of a session. -/
def Filters.codec : Codec Filters Proto.Sessions.Filters :=
  Filter.Or.codec Field.codec Condition.codec

/-- Nothing is absent in the filter, and every enumeration is known. -/
abbrev Filters.WellFormed : Proto.Sessions.Filters → Prop :=
  Filter.Or.WellFormed Field.WellFormed Condition.WellFormed

end Sessions

/-! ## Results -/

namespace Results

namespace Field

/-- The one arm of the oneof. -/
def toV3 (value : Field) : Proto.Results.ResultField :=
  ⟨some (.resultRawField ⟨value.asI32⟩)⟩

/-- An unset oneof is the unspecified field, which is not the default field. -/
def ofV3 (value : Proto.Results.ResultField) : Field :=
  match value.field with
  | some (.resultRawField field) => .ofI32 field.field
  | none => .unspecified

/-- To the wire and back, through the message that wraps the number. -/
def messageCodec : Codec Field Proto.Results.ResultField := ⟨toV3, ofV3⟩

/-- The oneof is set, to the number of a field. -/
def WellFormed (value : Proto.Results.ResultField) : Prop :=
  match value.field with
  | some (.resultRawField field) => Known Proto.ResultRawEnumField.number field.field
  | none => False

theorem messageCodec_lawful : messageCodec.Lawful WellFormed where
  decode_encode := codec_lawful.decode_encode
  encode_decode := by
    intro ⟨value⟩ hvalue
    match value, hvalue with
    | some (.resultRawField ⟨n⟩), hn =>
        have hfield : (ofI32 n).asI32 = n := codec_lawful.encode_decode n hn
        simp only [messageCodec, ofV3, toV3, hfield]

end Field

/-- `results::filter::Condition`. -/
inductive Condition
  | string (cond : FilterString)
  | date (cond : FilterDate)
  | array (cond : FilterArray)
  | status (cond : FilterStatus ResultStatus)
  | number (cond : FilterNumber)
  deriving DecidableEq, Repr

namespace Condition

instance : Inhabited Condition := ⟨.string default⟩

/-- Each kind of condition has its arm of the oneof. -/
def toV3 : Condition → Proto.Results.ValueCondition
  | .string cond => .filterString (FilterString.codec.encode cond)
  | .date cond => .filterDate (FilterDate.codec.encode cond)
  | .array cond => .filterArray (FilterArray.codec.encode cond)
  | .status cond => .filterStatus ((FilterStatus.codec ResultStatus.codec).encode cond)
  | .number cond => .filterNumber (FilterNumber.codec.encode cond)

/-- The arms in the other direction. -/
def ofV3 : Proto.Results.ValueCondition → Condition
  | .filterString cond => .string (FilterString.codec.decode cond)
  | .filterDate cond => .date (FilterDate.codec.decode cond)
  | .filterArray cond => .array (FilterArray.codec.decode cond)
  | .filterStatus cond => .status ((FilterStatus.codec ResultStatus.codec).decode cond)
  | .filterNumber cond => .number (FilterNumber.codec.decode cond)

/-- To the wire and back. -/
def codec : Codec Condition Proto.Results.ValueCondition := ⟨toV3, ofV3⟩

/-- The condition is one that comes back: its operator and its status are known, and its
date is there. -/
def WellFormed : Proto.Results.ValueCondition → Prop
  | .filterString cond => ScalarWellFormed Proto.FilterStringOperator.number cond
  | .filterDate cond => MessageWellFormed Proto.FilterDateOperator.number cond
  | .filterArray cond => ScalarWellFormed Proto.FilterArrayOperator.number cond
  | .filterStatus cond => StatusWellFormed Proto.ResultStatus.number cond
  | .filterNumber cond => ScalarWellFormed Proto.FilterNumberOperator.number cond

theorem codec_lawful : codec.Lawful WellFormed where
  decode_encode := by
    intro cond
    cases cond with
    | string cond => exact congrArg Condition.string (FilterString.codec_lawful.decode_encode cond)
    | date cond => exact congrArg Condition.date (FilterDate.codec_lawful.decode_encode cond)
    | array cond => exact congrArg Condition.array (FilterArray.codec_lawful.decode_encode cond)
    | status cond =>
        exact congrArg Condition.status
          ((FilterStatus.codec_lawful ResultStatus.codec_lawful).decode_encode cond)
    | number cond => exact congrArg Condition.number (FilterNumber.codec_lawful.decode_encode cond)
  encode_decode := by
    intro cond hcond
    cases cond with
    | filterString cond =>
        exact congrArg Proto.Results.ValueCondition.filterString
          (FilterString.codec_lawful.encode_decode cond hcond)
    | filterDate cond =>
        exact congrArg Proto.Results.ValueCondition.filterDate
          (FilterDate.codec_lawful.encode_decode cond hcond)
    | filterArray cond =>
        exact congrArg Proto.Results.ValueCondition.filterArray
          (FilterArray.codec_lawful.encode_decode cond hcond)
    | filterStatus cond =>
        exact congrArg Proto.Results.ValueCondition.filterStatus
          ((FilterStatus.codec_lawful ResultStatus.codec_lawful).encode_decode cond hcond)
    | filterNumber cond =>
        exact congrArg Proto.Results.ValueCondition.filterNumber
          (FilterNumber.codec_lawful.encode_decode cond hcond)

end Condition

/-- `results::filter::Or`. -/
abbrev Filters := Filter.Or Field Condition

/-- The nested filter, over the field and the condition of a result. -/
def Filters.codec : Codec Filters Proto.Results.Filters :=
  Filter.Or.codec Field.messageCodec Condition.codec

/-- Nothing is absent in the filter, and every enumeration is known. -/
abbrev Filters.WellFormed : Proto.Results.Filters → Prop :=
  Filter.Or.WellFormed Field.WellFormed Condition.WellFormed

end Results

/-! ## Partitions -/

namespace Partitions

namespace Field

/-- The one arm of the oneof. -/
def toV3 (value : Field) : Proto.Partitions.PartitionField :=
  ⟨some (.partitionRawField ⟨value.asI32⟩)⟩

/-- An unset oneof is the unspecified field. -/
def ofV3 (value : Proto.Partitions.PartitionField) : Field :=
  match value.field with
  | some (.partitionRawField field) => .ofI32 field.field
  | none => .unspecified

/-- To the wire and back, through the message that wraps the number. -/
def messageCodec : Codec Field Proto.Partitions.PartitionField := ⟨toV3, ofV3⟩

/-- The oneof is set, to the number of a field. -/
def WellFormed (value : Proto.Partitions.PartitionField) : Prop :=
  match value.field with
  | some (.partitionRawField field) => Known Proto.PartitionRawEnumField.number field.field
  | none => False

theorem messageCodec_lawful : messageCodec.Lawful WellFormed where
  decode_encode := codec_lawful.decode_encode
  encode_decode := by
    intro ⟨value⟩ hvalue
    match value, hvalue with
    | some (.partitionRawField ⟨n⟩), hn =>
        have hfield : (ofI32 n).asI32 = n := codec_lawful.encode_decode n hn
        simp only [messageCodec, ofV3, toV3, hfield]

end Field

/-- `partitions::filter::Condition`. -/
inductive Condition
  | string (cond : FilterString)
  | number (cond : FilterNumber)
  | boolean (cond : FilterBoolean)
  | array (cond : FilterArray)
  deriving DecidableEq, Repr

namespace Condition

instance : Inhabited Condition := ⟨.string default⟩

/-- Each kind of condition has its arm of the oneof. -/
def toV3 : Condition → Proto.Partitions.ValueCondition
  | .string cond => .filterString (FilterString.codec.encode cond)
  | .number cond => .filterNumber (FilterNumber.codec.encode cond)
  | .boolean cond => .filterBoolean (FilterBoolean.codec.encode cond)
  | .array cond => .filterArray (FilterArray.codec.encode cond)

/-- The arms in the other direction. -/
def ofV3 : Proto.Partitions.ValueCondition → Condition
  | .filterString cond => .string (FilterString.codec.decode cond)
  | .filterNumber cond => .number (FilterNumber.codec.decode cond)
  | .filterBoolean cond => .boolean (FilterBoolean.codec.decode cond)
  | .filterArray cond => .array (FilterArray.codec.decode cond)

/-- To the wire and back. -/
def codec : Codec Condition Proto.Partitions.ValueCondition := ⟨toV3, ofV3⟩

/-- The condition is one that comes back: its operator is known. -/
def WellFormed : Proto.Partitions.ValueCondition → Prop
  | .filterString cond => ScalarWellFormed Proto.FilterStringOperator.number cond
  | .filterNumber cond => ScalarWellFormed Proto.FilterNumberOperator.number cond
  | .filterBoolean cond => ScalarWellFormed Proto.FilterBooleanOperator.number cond
  | .filterArray cond => ScalarWellFormed Proto.FilterArrayOperator.number cond

theorem codec_lawful : codec.Lawful WellFormed where
  decode_encode := by
    intro cond
    cases cond with
    | string cond => exact congrArg Condition.string (FilterString.codec_lawful.decode_encode cond)
    | number cond => exact congrArg Condition.number (FilterNumber.codec_lawful.decode_encode cond)
    | boolean cond =>
        exact congrArg Condition.boolean
          (FilterBoolean.codec_lawful.decode_encode cond)
    | array cond => exact congrArg Condition.array (FilterArray.codec_lawful.decode_encode cond)
  encode_decode := by
    intro cond hcond
    cases cond with
    | filterString cond =>
        exact congrArg Proto.Partitions.ValueCondition.filterString
          (FilterString.codec_lawful.encode_decode cond hcond)
    | filterNumber cond =>
        exact congrArg Proto.Partitions.ValueCondition.filterNumber
          (FilterNumber.codec_lawful.encode_decode cond hcond)
    | filterBoolean cond =>
        exact congrArg Proto.Partitions.ValueCondition.filterBoolean
          (FilterBoolean.codec_lawful.encode_decode cond hcond)
    | filterArray cond =>
        exact congrArg Proto.Partitions.ValueCondition.filterArray
          (FilterArray.codec_lawful.encode_decode cond hcond)

end Condition

/-- `partitions::filter::Or`. -/
abbrev Filters := Filter.Or Field Condition

/-- The nested filter, over the field and the condition of a partition. -/
def Filters.codec : Codec Filters Proto.Partitions.Filters :=
  Filter.Or.codec Field.messageCodec Condition.codec

/-- Nothing is absent in the filter, and every enumeration is known. -/
abbrev Filters.WellFormed : Proto.Partitions.Filters → Prop :=
  Filter.Or.WellFormed Field.WellFormed Condition.WellFormed

end Partitions

/-! ## Applications -/

namespace Applications

namespace Field

/-- The one arm of the oneof. -/
def toV3 (value : Field) : Proto.Applications.ApplicationField :=
  ⟨some (.applicationField ⟨value.asI32⟩)⟩

/-- An unset oneof is the unspecified field. -/
def ofV3 (value : Proto.Applications.ApplicationField) : Field :=
  match value.field with
  | some (.applicationField field) => .ofI32 field.field
  | none => .unspecified

/-- To the wire and back, through the message that wraps the number. -/
def messageCodec : Codec Field Proto.Applications.ApplicationField := ⟨toV3, ofV3⟩

/-- The oneof is set, to the number of a field. -/
def WellFormed (value : Proto.Applications.ApplicationField) : Prop :=
  match value.field with
  | some (.applicationField field) => Known Proto.ApplicationRawEnumField.number field.field
  | none => False

theorem messageCodec_lawful : messageCodec.Lawful WellFormed where
  decode_encode := codec_lawful.decode_encode
  encode_decode := by
    intro ⟨value⟩ hvalue
    match value, hvalue with
    | some (.applicationField ⟨n⟩), hn =>
        have hfield : (ofI32 n).asI32 = n := codec_lawful.encode_decode n hn
        simp only [messageCodec, ofV3, toV3, hfield]

end Field

/-- `applications::filter::Condition`, which compares texts only. -/
inductive Condition
  | string (cond : FilterString)
  deriving DecidableEq, Repr

namespace Condition

instance : Inhabited Condition := ⟨.string default⟩

/-- The one arm of the oneof. -/
def toV3 : Condition → Proto.Applications.ValueCondition
  | .string cond => .filterString (FilterString.codec.encode cond)

/-- The one arm in the other direction. -/
def ofV3 : Proto.Applications.ValueCondition → Condition
  | .filterString cond => .string (FilterString.codec.decode cond)

/-- To the wire and back. -/
def codec : Codec Condition Proto.Applications.ValueCondition := ⟨toV3, ofV3⟩

/-- The operator is known. -/
def WellFormed : Proto.Applications.ValueCondition → Prop
  | .filterString cond => ScalarWellFormed Proto.FilterStringOperator.number cond

theorem codec_lawful : codec.Lawful WellFormed where
  decode_encode := by
    intro cond
    cases cond with
    | string cond => exact congrArg Condition.string (FilterString.codec_lawful.decode_encode cond)
  encode_decode := by
    intro cond hcond
    cases cond with
    | filterString cond =>
        exact congrArg Proto.Applications.ValueCondition.filterString
          (FilterString.codec_lawful.encode_decode cond hcond)

end Condition

/-- `applications::filter::Or`. -/
abbrev Filters := Filter.Or Field Condition

/-- The nested filter, over the field and the condition of an application. -/
def Filters.codec : Codec Filters Proto.Applications.Filters :=
  Filter.Or.codec Field.messageCodec Condition.codec

/-- Nothing is absent in the filter, and every enumeration is known. -/
abbrev Filters.WellFormed : Proto.Applications.Filters → Prop :=
  Filter.Or.WellFormed Field.WellFormed Condition.WellFormed

end Applications

/-! ## The five services -/

/-- Every filter comes back from the wire as it was, and every well-formed wire
filter is written back as it was read. -/
theorem list_filters_round_trip :
    Tasks.Filters.codec.Lawful Tasks.Filters.WellFormed ∧
      Sessions.Filters.codec.Lawful Sessions.Filters.WellFormed ∧
      Results.Filters.codec.Lawful Results.Filters.WellFormed ∧
      Partitions.Filters.codec.Lawful Partitions.Filters.WellFormed ∧
      Applications.Filters.codec.Lawful Applications.Filters.WellFormed :=
  ⟨Filter.Or.codec_lawful Tasks.Field.codec_lawful Tasks.Condition.codec_lawful,
    Filter.Or.codec_lawful Sessions.Field.codec_lawful Sessions.Condition.codec_lawful,
    Filter.Or.codec_lawful Results.Field.messageCodec_lawful Results.Condition.codec_lawful,
    Filter.Or.codec_lawful Partitions.Field.messageCodec_lawful Partitions.Condition.codec_lawful,
    Filter.Or.codec_lawful Applications.Field.messageCodec_lawful
      Applications.Condition.codec_lawful⟩

end ArmoniKApi.Rust
