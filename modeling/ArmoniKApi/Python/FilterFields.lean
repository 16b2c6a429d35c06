import ArmoniKApi.Python.FilterLeaf

/-!
# The fields that can be filtered

`Task.session_id`, `Session.partition_ids`, `Task.options["key"]` and the like
are filters that wait for an operator and a value.  Each object type has a
`FilterWrapper` with a table of its fields, and `__call__` makes a filter of the
class that the table gives for the name.

`Proxy` collects the filters that a service starts from: the fields, the keys of
the options map, and the wrappers themselves, which `Task.options` and
`Task.output` return.  All of them are blank (`Proxy.blank_or_isLeaf`), but for
the boolean fields, which compare with `True` from the start.

The tables are the data of the source, entry by entry, with the names of the enum values and
their numbers; `Service.arms` is the field message that each service puts them into.

```text
FType       class              compares with
STR         StringFilter       texts
NUM         NumberFilter       integers
BOOL        BooleanFilter      booleans, from the start with True
DATE        DateFilter         datetimes
DURATION    DurationFilter     timedeltas
ARRAY       ArrayFilter        an element
STATUS      StatusFilter       the numbers of an enumeration
NA          no filter          raises, since the field cannot be filtered on
```

`IsField` and `IsWrapper` say how a filter came out of a wrapper, and `Proxy` unites them for a
service.  `Proxy.blank_or_isLeaf` is proved once for all tables: what the filter is depends on
the type of the entry alone.
-/

namespace ArmoniKApi.Python

open Proto (TaskSummaryEnumField TaskOptionEnumField SessionRawEnumField ResultRawEnumField
  PartitionRawEnumField ApplicationRawEnumField FilterBooleanOperator)

/-! ## Wrappers -/

/-- The members of `FType` that make a filter. -/
inductive FType
  | num
  | str
  | array
  | duration
  | date
  | status
  | bool
  deriving DecidableEq, Repr

/-- An entry of `_fields`: a type with an enum value, or `FType.NA` with a name. -/
inductive FieldEntry
  | field (ftype : FType) (name : String) (number : Int)
  | na (field : String)
  deriving DecidableEq, Repr

/-- The class of the filters of a type. -/
def FType.cls : FType → FilterClass
  | .num => .number
  | .str => .string
  | .array => .array
  | .duration => .duration
  | .date => .date
  | .status => .status
  | .bool => .boolean

/-- The type of an entry, which `FType.NA` has none of. -/
def FieldEntry.ftype : FieldEntry → Option FType
  | .field ftype _ _ => some ftype
  | .na _ => none

/-- The attributes of a `FilterWrapper`, with the arms of the field message under
which `_build_field` and `__getitem__` put a field. -/
structure FilterWrapper where
  disjunctionMessageType : MessageType
  conjunctionMessageType : MessageType
  basicMessageType : MessageType
  statusType : Option MessageType
  fieldArm : String
  keyArm : Option String
  fields : List (String × FieldEntry)

namespace FilterWrapper

/-- The wrapper is itself a filter. -/
def toFilter (self : FilterWrapper) : Filter where
  cls := .filter
  field := none
  disjunctionMessageType := self.disjunctionMessageType
  conjunctionMessageType := self.conjunctionMessageType
  messageType := self.disjunctionMessageType
  innerMessageType := self.statusType
  operator := none
  value := .none

/-- A new filter on a field. -/
def onField (self : FilterWrapper) (cls : FilterClass) (innerMessageType : Option MessageType)
    (field : FieldMessage) : Filter where
  cls := cls
  field := some field
  disjunctionMessageType := self.disjunctionMessageType
  conjunctionMessageType := self.conjunctionMessageType
  messageType := self.basicMessageType
  innerMessageType := innerMessageType
  operator := none
  value := .none

/-- `_string`. -/
def string (self : FilterWrapper) : FieldMessage → Filter :=
  self.onField .string (some "FilterString")

/-- `_bool`.  The defaults of `BooleanFilter` make it a comparison with `True`. -/
def bool (self : FilterWrapper) (field : FieldMessage) : Filter :=
  { self.onField .boolean (some "FilterBoolean") field with
    operator := some (.simple FilterBooleanOperator.is.number), value := .bool true }

/-- `_array`. -/
def array (self : FilterWrapper) : FieldMessage → Filter :=
  self.onField .array (some "FilterArray")

/-- `_duration`. -/
def duration (self : FilterWrapper) : FieldMessage → Filter :=
  self.onField .duration (some "FilterDuration")

/-- `_date`. -/
def date (self : FilterWrapper) : FieldMessage → Filter :=
  self.onField .date (some "FilterDate")

/-- `_number`. -/
def number (self : FilterWrapper) : FieldMessage → Filter :=
  self.onField .number (some "FilterNumber")

/-- `_status`. -/
def status (self : FilterWrapper) : FieldMessage → Filter :=
  self.onField .status self.statusType

/-- `_vtable`. -/
def vtable (self : FilterWrapper) : FType → FieldMessage → Filter
  | .num => self.number
  | .str => self.string
  | .array => self.array
  | .duration => self.duration
  | .date => self.date
  | .status => self.status
  | .bool => self.bool

/-- `__call__`. -/
def call (self : FilterWrapper) (fieldName : String) : PyResult Filter :=
  match self.fields.lookup fieldName with
  | none => throw .valueError
  | some (.na field) => throw (.filterError none (.notAvailable field))
  | some (.field ftype name number) =>
      return self.vtable ftype (.enum self.fieldArm name number)

/-- `__getitem__`, which the wrappers of task options have. -/
def getItem (self : FilterWrapper) (item : String) : PyResult Filter :=
  match self.keyArm with
  | none => throw .typeError
  | some keyArm => return self.string (.generic keyArm item)

end FilterWrapper

/-! ## The tables -/

/-- `TaskFilter`. -/
def taskFilter : FilterWrapper where
  disjunctionMessageType := "tasks.Filters"
  conjunctionMessageType := "tasks.FiltersAnd"
  basicMessageType := "tasks.FilterField"
  statusType := some "tasks.FilterStatus"
  fieldArm := "task_summary_field"
  keyArm := none
  fields := [
    ("id", .field .str "TASK_SUMMARY_ENUM_FIELD_TASK_ID" TaskSummaryEnumField.taskId.number),
    ("session_id",
      .field .str "TASK_SUMMARY_ENUM_FIELD_SESSION_ID" TaskSummaryEnumField.sessionId.number),
    ("owner_pod_id",
      .field .str "TASK_SUMMARY_ENUM_FIELD_OWNER_POD_ID" TaskSummaryEnumField.ownerPodId.number),
    ("initial_task_id",
      .field .str "TASK_SUMMARY_ENUM_FIELD_INITIAL_TASK_ID"
        TaskSummaryEnumField.initialTaskId.number),
    ("created_by",
      .field .str "TASK_SUMMARY_ENUM_FIELD_CREATED_BY" TaskSummaryEnumField.createdBy.number),
    ("parent_task_ids", .na "parent_task_ids"),
    ("data_dependencies", .na "data_dependencies"),
    ("expected_output_ids", .na "expected_output_ids"),
    ("retry_of_ids", .na "retry_of_ids"),
    ("status", .field .status "TASK_SUMMARY_ENUM_FIELD_STATUS" TaskSummaryEnumField.status.number),
    ("status_message", .na "status_message"),
    ("options", .na "options"),
    ("created_at",
      .field .date "TASK_SUMMARY_ENUM_FIELD_CREATED_AT" TaskSummaryEnumField.createdAt.number),
    ("submitted_at",
      .field .date "TASK_SUMMARY_ENUM_FIELD_SUBMITTED_AT" TaskSummaryEnumField.submittedAt.number),
    ("received_at",
      .field .date "TASK_SUMMARY_ENUM_FIELD_RECEIVED_AT" TaskSummaryEnumField.receivedAt.number),
    ("acquired_at",
      .field .date "TASK_SUMMARY_ENUM_FIELD_ACQUIRED_AT" TaskSummaryEnumField.acquiredAt.number),
    ("fetched_at",
      .field .date "TASK_SUMMARY_ENUM_FIELD_FETCHED_AT" TaskSummaryEnumField.fetchedAt.number),
    ("started_at",
      .field .date "TASK_SUMMARY_ENUM_FIELD_STARTED_AT" TaskSummaryEnumField.startedAt.number),
    ("processed_at",
      .field .date "TASK_SUMMARY_ENUM_FIELD_PROCESSED_AT" TaskSummaryEnumField.processedAt.number),
    ("ended_at",
      .field .date "TASK_SUMMARY_ENUM_FIELD_ENDED_AT" TaskSummaryEnumField.endedAt.number),
    ("pod_ttl", .field .date "TASK_SUMMARY_ENUM_FIELD_POD_TTL" TaskSummaryEnumField.podTtl.number),
    ("creation_to_end_duration",
      .field .duration "TASK_SUMMARY_ENUM_FIELD_CREATION_TO_END_DURATION"
        TaskSummaryEnumField.creationToEndDuration.number),
    ("processing_to_end_duration",
      .field .duration "TASK_SUMMARY_ENUM_FIELD_PROCESSING_TO_END_DURATION"
        TaskSummaryEnumField.processingToEndDuration.number),
    ("received_to_end_duration",
      .field .duration "TASK_SUMMARY_ENUM_FIELD_RECEIVED_TO_END_DURATION"
        TaskSummaryEnumField.receivedToEndDuration.number),
    ("output", .na "output"),
    ("pod_hostname",
      .field .str "TASK_SUMMARY_ENUM_FIELD_POD_HOSTNAME" TaskSummaryEnumField.podHostname.number),
    ("payload_id",
      .field .str "TASK_SUMMARY_ENUM_FIELD_PAYLOAD_ID" TaskSummaryEnumField.payloadId.number)]

/-- `OutputFilter`.  Its `_fields` are empty, and its one field is a property. -/
def outputFilter : FilterWrapper :=
  { taskFilter with fields := [] }

/-- `OutputFilter.error`. -/
def OutputFilter.error : Filter :=
  outputFilter.string (.enum "task_summary_field" "TASK_SUMMARY_ENUM_FIELD_ERROR"
    TaskSummaryEnumField.error.number)

/-- The fields of task options, which tasks and sessions have alike. -/
def optionFields : List (String × FieldEntry) := [
  ("max_duration",
    .field .duration "TASK_OPTION_ENUM_FIELD_MAX_DURATION" TaskOptionEnumField.maxDuration.number),
  ("max_retries",
    .field .num "TASK_OPTION_ENUM_FIELD_MAX_RETRIES" TaskOptionEnumField.maxRetries.number),
  ("priority", .field .num "TASK_OPTION_ENUM_FIELD_PRIORITY" TaskOptionEnumField.priority.number),
  ("partition_id",
    .field .str "TASK_OPTION_ENUM_FIELD_PARTITION_ID" TaskOptionEnumField.partitionId.number),
  ("application_name",
    .field .str "TASK_OPTION_ENUM_FIELD_APPLICATION_NAME"
      TaskOptionEnumField.applicationName.number),
  ("application_namespace",
    .field .str "TASK_OPTION_ENUM_FIELD_APPLICATION_NAMESPACE"
      TaskOptionEnumField.applicationNamespace.number),
  ("application_version",
    .field .str "TASK_OPTION_ENUM_FIELD_APPLICATION_VERSION"
      TaskOptionEnumField.applicationVersion.number),
  ("application_service",
    .field .str "TASK_OPTION_ENUM_FIELD_APPLICATION_SERVICE"
      TaskOptionEnumField.applicationService.number),
  ("engine_type",
    .field .str "TASK_OPTION_ENUM_FIELD_ENGINE_TYPE" TaskOptionEnumField.engineType.number)]

/-- `TaskOptionFilter`: the fields of the options, or any key of the map. -/
def taskOptionFilter : FilterWrapper :=
  { taskFilter with
    fieldArm := "task_option_field"
    keyArm := some "task_option_generic_field"
    fields := optionFields }

/-- `SessionFilter`. -/
def sessionFilter : FilterWrapper where
  disjunctionMessageType := "sessions.Filters"
  conjunctionMessageType := "sessions.FiltersAnd"
  basicMessageType := "sessions.FilterField"
  statusType := some "sessions.FilterStatus"
  fieldArm := "session_raw_field"
  keyArm := none
  fields := [
    ("session_id",
      .field .str "SESSION_RAW_ENUM_FIELD_SESSION_ID" SessionRawEnumField.sessionId.number),
    ("status", .field .status "SESSION_RAW_ENUM_FIELD_STATUS" SessionRawEnumField.status.number),
    ("client_submission",
      .field .bool "SESSION_RAW_ENUM_FIELD_CLIENT_SUBMISSION"
        SessionRawEnumField.clientSubmission.number),
    ("worker_submission",
      .field .bool "SESSION_RAW_ENUM_FIELD_WORKER_SUBMISSION"
        SessionRawEnumField.workerSubmission.number),
    ("partition_ids",
      .field .array "SESSION_RAW_ENUM_FIELD_PARTITION_IDS" SessionRawEnumField.partitionIds.number),
    ("options", .na "options"),
    ("created_at",
      .field .date "SESSION_RAW_ENUM_FIELD_CREATED_AT" SessionRawEnumField.createdAt.number),
    ("cancelled_at",
      .field .date "SESSION_RAW_ENUM_FIELD_CANCELLED_AT" SessionRawEnumField.cancelledAt.number),
    ("closed_at",
      .field .date "SESSION_RAW_ENUM_FIELD_CLOSED_AT" SessionRawEnumField.closedAt.number),
    ("purged_at",
      .field .date "SESSION_RAW_ENUM_FIELD_PURGED_AT" SessionRawEnumField.purgedAt.number),
    ("deleted_at",
      .field .date "SESSION_RAW_ENUM_FIELD_DELETED_AT" SessionRawEnumField.deletedAt.number),
    ("duration",
      .field .duration "SESSION_RAW_ENUM_FIELD_DURATION" SessionRawEnumField.duration.number)]

/-- `SessionTaskOptionFilter`. -/
def sessionTaskOptionFilter : FilterWrapper :=
  { sessionFilter with
    fieldArm := "task_option_field"
    keyArm := some "task_option_generic_field"
    fields := optionFields }

/-- `ResultFilter`. -/
def resultFilter : FilterWrapper where
  disjunctionMessageType := "results.Filters"
  conjunctionMessageType := "results.FiltersAnd"
  basicMessageType := "results.FilterField"
  statusType := some "results.FilterStatus"
  fieldArm := "result_raw_field"
  keyArm := none
  fields := [
    ("session_id",
      .field .str "RESULT_RAW_ENUM_FIELD_SESSION_ID" ResultRawEnumField.sessionId.number),
    ("status", .field .status "RESULT_RAW_ENUM_FIELD_STATUS" ResultRawEnumField.status.number),
    ("name", .field .str "RESULT_RAW_ENUM_FIELD_NAME" ResultRawEnumField.name.number),
    ("created_at",
      .field .date "RESULT_RAW_ENUM_FIELD_CREATED_AT" ResultRawEnumField.createdAt.number),
    ("completed_at",
      .field .date "RESULT_RAW_ENUM_FIELD_COMPLETED_AT" ResultRawEnumField.completedAt.number),
    ("result_id",
      .field .str "RESULT_RAW_ENUM_FIELD_RESULT_ID" ResultRawEnumField.resultId.number),
    ("size", .field .num "RESULT_RAW_ENUM_FIELD_SIZE" ResultRawEnumField.size.number),
    ("created_by",
      .field .str "RESULT_RAW_ENUM_FIELD_CREATED_BY" ResultRawEnumField.createdBy.number),
    ("owner_task_id",
      .field .str "RESULT_RAW_ENUM_FIELD_OWNER_TASK_ID" ResultRawEnumField.ownerTaskId.number),
    ("opaque_id", .na "opaque_id")]

/-- `PartitionFilter`. -/
def partitionFilter : FilterWrapper where
  disjunctionMessageType := "partitions.Filters"
  conjunctionMessageType := "partitions.FiltersAnd"
  basicMessageType := "partitions.FilterField"
  statusType := none
  fieldArm := "partition_raw_field"
  keyArm := none
  fields := [
    ("id", .field .str "PARTITION_RAW_ENUM_FIELD_ID" PartitionRawEnumField.id.number),
    ("priority",
      .field .num "PARTITION_RAW_ENUM_FIELD_PRIORITY" PartitionRawEnumField.priority.number),
    ("preemption_percentage",
      .field .num "PARTITION_RAW_ENUM_FIELD_PREEMPTION_PERCENTAGE"
        PartitionRawEnumField.preemptionPercentage.number),
    ("pod_reserved",
      .field .num "PARTITION_RAW_ENUM_FIELD_POD_RESERVED" PartitionRawEnumField.podReserved.number),
    ("pod_max",
      .field .num "PARTITION_RAW_ENUM_FIELD_POD_MAX" PartitionRawEnumField.podMax.number),
    ("parent_partition_ids",
      .field .array "PARTITION_RAW_ENUM_FIELD_PARENT_PARTITION_IDS"
        PartitionRawEnumField.parentPartitionIds.number),
    ("pod_configuration", .na "pod_configuration")]

/-- `ApplicationFilter`. -/
def applicationFilter : FilterWrapper where
  disjunctionMessageType := "applications.Filters"
  conjunctionMessageType := "applications.FiltersAnd"
  basicMessageType := "applications.FilterField"
  statusType := none
  fieldArm := "application_field"
  keyArm := none
  fields := [
    ("name", .field .str "APPLICATION_RAW_ENUM_FIELD_NAME" ApplicationRawEnumField.name.number),
    ("namespace",
      .field .str "APPLICATION_RAW_ENUM_FIELD_NAMESPACE" ApplicationRawEnumField.namespace.number),
    ("service",
      .field .str "APPLICATION_RAW_ENUM_FIELD_SERVICE" ApplicationRawEnumField.service.number),
    ("version",
      .field .str "APPLICATION_RAW_ENUM_FIELD_VERSION" ApplicationRawEnumField.version.number)]

example : resultFilter.call "result_id" = .ok ResultFilter.resultId := rfl

/-! ## Services -/

/-- The services whose listings take filters. -/
inductive Service
  | tasks
  | sessions
  | results
  | partitions
  | applications
  deriving DecidableEq, Repr

namespace Service

/-- The wrapper of the fields of the service's objects. -/
def main : Service → FilterWrapper
  | tasks => taskFilter
  | sessions => sessionFilter
  | results => resultFilter
  | partitions => partitionFilter
  | applications => applicationFilter

/-- All the wrappers of a service. -/
def wrappers : Service → List FilterWrapper
  | tasks => [taskFilter, taskOptionFilter, outputFilter]
  | sessions => [sessionFilter, sessionTaskOptionFilter]
  | results => [resultFilter]
  | partitions => [partitionFilter]
  | applications => [applicationFilter]

/-- The arms of `value_condition` in the `FilterField` of the service. -/
def arms : Service → List InnerAttr
  | tasks | sessions =>
      [.filter_string, .filter_number, .filter_boolean, .filter_status, .filter_date,
        .filter_array, .filter_duration]
  | results => [.filter_string, .filter_date, .filter_array, .filter_status, .filter_number]
  | partitions => [.filter_string, .filter_number, .filter_boolean, .filter_array]
  | applications => [.filter_string]

end Service

/-- The filters that users find: a field, a key of the options, the field
`Task.output.error`, or a wrapper. -/
inductive Proxy (service : Service) : Filter → Prop
  | field {wrapper : FilterWrapper} {name : String} {f : Filter}
      (hwrapper : wrapper ∈ service.wrappers) (hcall : wrapper.call name = .ok f) : Proxy service f
  | key {wrapper : FilterWrapper} {item : String} {f : Filter}
      (hwrapper : wrapper ∈ service.wrappers) (hitem : wrapper.getItem item = .ok f) :
      Proxy service f
  | error (hservice : service = .tasks) : Proxy service OutputFilter.error
  | wrapper {wrapper : FilterWrapper} (hwrapper : wrapper ∈ service.wrappers) :
      Proxy service wrapper.toFilter

/-! ## Blank filters -/

/-- A field without operator and value. -/
structure IsField (disjunctionType conjunctionType : MessageType) (f : Filter) : Prop where
  cls_ne : f.cls ≠ .filter
  cls_ne_boolean : f.cls ≠ .boolean
  field : f.field.isSome
  disjunctionMessageType : f.disjunctionMessageType = disjunctionType
  conjunctionMessageType : f.conjunctionMessageType = conjunctionType
  messageType_ne : f.messageType ≠ disjunctionType
  innerMessageType : f.innerMessageType.isSome
  operator : f.operator = none
  value : f.value = .none

/-- A wrapper, as a filter. -/
structure IsWrapper (disjunctionType conjunctionType : MessageType) (f : Filter) : Prop where
  cls : f.cls = .filter
  disjunctionMessageType : f.disjunctionMessageType = disjunctionType
  conjunctionMessageType : f.conjunctionMessageType = conjunctionType
  messageType : f.messageType = disjunctionType
  operator : f.operator = none
  value : f.value = .none

/-- The wrappers of a service agree on the message types. -/
structure FilterWrapper.Fits (wrapper : FilterWrapper) (service : Service) : Prop where
  disjunctionMessageType :
    wrapper.disjunctionMessageType = service.main.disjunctionMessageType
  conjunctionMessageType :
    wrapper.conjunctionMessageType = service.main.conjunctionMessageType
  basicMessageType_ne : wrapper.basicMessageType ≠ service.main.disjunctionMessageType
  /-- Status fields have a type, and every type has an arm. -/
  fields : ∀ entry ∈ wrapper.fields, ∀ ftype, entry.2.ftype = some ftype →
    (ftype = .status → wrapper.statusType.isSome) ∧
      ∃ attr ∈ service.arms, ftype.cls.innerMessageTypeAttr = some attr

theorem Service.fits {service : Service} {wrapper : FilterWrapper}
    (hwrapper : wrapper ∈ service.wrappers) : wrapper.Fits service := by
  have hfields : ∀ wrapper ∈ service.wrappers, ∀ entry ∈ wrapper.fields,
      ∀ ftype ∈ entry.2.ftype, (ftype = .status → wrapper.statusType.isSome) ∧
        ∃ attr ∈ service.arms, ftype.cls.innerMessageTypeAttr = some attr := by
    cases service <;> decide
  refine ⟨?_, ?_, ?_, hfields wrapper hwrapper⟩
  all_goals
    revert wrapper
    cases service <;> decide

namespace FilterWrapper

variable {self : FilterWrapper} {service : Service}

theorem vtable_cls (ftype : FType) (field : FieldMessage) :
    (self.vtable ftype field).cls = ftype.cls := by
  cases ftype <;> rfl

theorem isWrapper (h : self.Fits service) :
    IsWrapper service.main.disjunctionMessageType service.main.conjunctionMessageType
      self.toFilter :=
  ⟨rfl, h.disjunctionMessageType, h.conjunctionMessageType, h.disjunctionMessageType, rfl, rfl⟩

theorem onField_isField (h : self.Fits service) {cls : FilterClass} (hcls : cls ≠ .filter)
    (hboolean : cls ≠ .boolean) {innerMessageType : Option MessageType}
    (hinner : innerMessageType.isSome) (field : FieldMessage) :
    IsField service.main.disjunctionMessageType service.main.conjunctionMessageType
      (self.onField cls innerMessageType field) :=
  ⟨hcls, hboolean, rfl, h.disjunctionMessageType, h.conjunctionMessageType,
    h.basicMessageType_ne, hinner, rfl, rfl⟩

theorem bool_isLeaf (h : self.Fits service) (field : FieldMessage) :
    IsLeaf service.main.disjunctionMessageType service.main.conjunctionMessageType
      (self.bool field) :=
  have hcls : (self.bool field).cls ≠ .filter := nofun
  ⟨hcls, rfl, h.disjunctionMessageType, h.conjunctionMessageType, h.basicMessageType_ne, rfl,
    ⟨_, List.mem_cons_self .., rfl⟩, trivial⟩

/-- A filter on a field is blank, or it is the default of a boolean field. -/
theorem vtable_blank_or_isLeaf (h : self.Fits service) {ftype : FType}
    (hstatus : ftype = .status → self.statusType.isSome) (field : FieldMessage) :
    IsField service.main.disjunctionMessageType service.main.conjunctionMessageType
        (self.vtable ftype field) ∨
      IsLeaf service.main.disjunctionMessageType service.main.conjunctionMessageType
        (self.vtable ftype field) := by
  cases ftype with
  | bool => exact .inr (bool_isLeaf h field)
  | status => exact .inl (onField_isField h (by decide) (by decide) (hstatus rfl) field)
  | _ => exact .inl (onField_isField h (by decide) (by decide) rfl field)

/-- What `__call__` returns, it returns for an entry of the table. -/
theorem exists_entry_of_call {name : String} {f : Filter} (hcall : self.call name = .ok f) :
    ∃ ftype enumName number, (name, .field ftype enumName number) ∈ self.fields ∧
      f = self.vtable ftype (.enum self.fieldArm enumName number) := by
  unfold call at hcall
  cases hentry : self.fields.lookup name with
  | none =>
      rw [hentry] at hcall
      cases hcall
  | some entry =>
      rw [hentry] at hcall
      obtain ⟨before, after, hfields, -⟩ := List.lookup_eq_some_iff.mp hentry
      have hmem : (name, entry) ∈ self.fields := by simp [hfields]
      cases entry with
      | na field => cases hcall
      | field ftype enumName number =>
          cases hcall
          exact ⟨ftype, enumName, number, hmem, rfl⟩

end FilterWrapper

namespace Proxy

variable {service : Service} {f : Filter}

/-- A filter on a field that a user finds, or a wrapper. -/
theorem cases (h : Proxy service f) :
    IsField service.main.disjunctionMessageType service.main.conjunctionMessageType f ∨
      IsWrapper service.main.disjunctionMessageType service.main.conjunctionMessageType f ∨
      IsLeaf service.main.disjunctionMessageType service.main.conjunctionMessageType f := by
  cases h with
  | field hwrapper hcall =>
      have hfits := Service.fits hwrapper
      obtain ⟨ftype, enumName, number, hentry, rfl⟩ := FilterWrapper.exists_entry_of_call hcall
      have hstatus := (hfits.fields _ hentry ftype rfl).1
      rcases FilterWrapper.vtable_blank_or_isLeaf hfits hstatus _ with hfield | hleaf
      · exact .inl hfield
      · exact .inr (.inr hleaf)
  | @key wrapper item _ hwrapper hitem =>
      unfold FilterWrapper.getItem at hitem
      split at hitem
      · cases hitem
      · cases hitem
        exact .inl (FilterWrapper.onField_isField (Service.fits hwrapper) (by decide) (by decide)
          rfl _)
  | error hservice =>
      subst hservice
      have hwrapper : outputFilter ∈ Service.tasks.wrappers := by simp [Service.wrappers]
      exact .inl (FilterWrapper.onField_isField (Service.fits hwrapper) (by decide) (by decide)
        rfl _)
  | wrapper hwrapper => exact .inr (.inl (FilterWrapper.isWrapper (Service.fits hwrapper)))

end Proxy

end ArmoniKApi.Python
