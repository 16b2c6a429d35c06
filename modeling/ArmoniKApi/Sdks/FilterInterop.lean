import ArmoniKApi.Python.FilterSchema
import ArmoniKApi.Rust.ListFilters

/-!
# Python filters at a Rust peer

The Python client builds its filter messages from names, and the Rust SDK has a type for each
part of them.  `python_filters_fit_rust` says that they agree on the five listing services: a
message that a Python filter emits is one of the schema, and a Rust peer that reads it and
writes it again changes nothing, just if it knows the statuses that are asked for.

## Strategy

* A schema says which arms, fields and operators the wire messages of a service have.  Reading
  a message with it finds the wire value, if the names in the message are those of the
  schema.
* `GoesByArms`: the codec of the Rust SDK goes by the same arms.  From this there is one lemma for
  each class of filters (`reads_string` and those after it), and `GoesByArms.reads` is their sum.
* `GoesByArms.fitsRust`: every message of a service is read, by going through its disjunction and
  conjunctions.
* The five schemas are written down from the proto files, and for each of them it is checked
  by cases that it covers the fields that the Python client names (`tasksSchema_covers`) and
  that the codec goes by its arms (`tasksSchema_goesByArms`).

A status is a plain number in Python, and nothing stops it from being one that the
enumeration does not have.  This is the one thing that a Rust peer may change.
-/

namespace ArmoniKApi.Sdks

open Codec (Known Present)
open Python (Arms InnerAttr Schema PyValue FilterClass FieldMessage)

/-! ## What the Rust SDK keeps -/

section Keeps

variable {V V' Op E F F' C C' : Type}

theorem condition_keeps_iff {value : Codec V V'} {operator : Codec Op Int}
    {cond : Proto.FilterCondition V'} :
    (Rust.FilterCondition.codec value operator).Keeps cond ↔
      value.Keeps cond.value ∧ operator.Keeps cond.operator :=
  iff_of_eq (Proto.FilterCondition.mk.injEq ..)

variable [Inhabited F] [Inhabited C] {field : Codec F F'} {condition : Codec C C'}

theorem filter_keeps_iff {filters : Proto.Filters F' C'} :
    (Rust.Filter.Or.codec field condition).Keeps filters ↔
      ∀ conj ∈ filters.or, ∀ item ∈ conj.and,
        Present field.Keeps item.field ∧ Present condition.Keeps item.valueCondition := by
  have hitem (item : Proto.FilterField F' C') :
      (Rust.Filter.Field.codec field condition).Keeps item ↔
        Present field.Keeps item.field ∧ Present condition.Keeps item.valueCondition := by
    rw [← Codec.option_keeps_iff, ← Codec.option_keeps_iff]
    exact iff_of_eq (Proto.FilterField.mk.injEq ..)
  have hconj (conj : Proto.FiltersAnd F' C') :
      (Rust.Filter.And.codec field condition).Keeps conj ↔
        ∀ item ∈ conj.and, (Rust.Filter.Field.codec field condition).Keeps item := by
    rw [← Codec.list_keeps_iff]
    exact iff_of_eq (Proto.FiltersAnd.mk.injEq ..)
  have hor : (Rust.Filter.Or.codec field condition).Keeps filters ↔
      ∀ conj ∈ filters.or, (Rust.Filter.And.codec field condition).Keeps conj := by
    rw [← Codec.list_keeps_iff]
    exact iff_of_eq (Proto.Filters.mk.injEq ..)
  simp only [hor, hconj, hitem]

end Keeps

/-! ## The arms of the conditions -/

section Arms

variable {C RC S E : Type}

/-- The codec of the conditions goes by the arms. -/
structure GoesByArms (arms : Arms C) (attrs : List InnerAttr) (codec : Codec RC C)
    (status : Codec S Int) : Prop where
  string : .filter_string ∈ attrs → ∃ arm ∈ arms.string,
    ∀ cond, codec.Keeps (arm cond) ↔ Rust.FilterString.codec.Keeps cond
  number : .filter_number ∈ attrs → ∃ arm ∈ arms.number,
    ∀ cond, codec.Keeps (arm cond) ↔ Rust.FilterNumber.codec.Keeps cond
  boolean : .filter_boolean ∈ attrs → ∃ arm ∈ arms.boolean,
    ∀ cond, codec.Keeps (arm cond) ↔ Rust.FilterBoolean.codec.Keeps cond
  status : .filter_status ∈ attrs → ∃ arm ∈ arms.status,
    ∀ cond, codec.Keeps (arm cond) ↔ (Rust.FilterStatus.codec status).Keeps cond
  date : .filter_date ∈ attrs → ∃ arm ∈ arms.date,
    ∀ cond, codec.Keeps (arm cond) ↔ Rust.FilterDate.codec.Keeps cond
  array : .filter_array ∈ attrs → ∃ arm ∈ arms.array,
    ∀ cond, codec.Keeps (arm cond) ↔ Rust.FilterArray.codec.Keeps cond
  duration : .filter_duration ∈ attrs → ∃ arm ∈ arms.duration,
    ∀ cond, codec.Keeps (arm cond) ↔ Rust.FilterDuration.codec.Keeps cond

theorem known_of_mem_map {number : E → Int} {values : List E} {n : Int}
    (h : n ∈ values.map number) : Known number n := by
  obtain ⟨value, -, rfl⟩ := List.mem_map.mp h
  exact ⟨value, rfl⟩

/-- A value has a condition under an arm, which loses nothing but a status. -/
def ReadsAs (arms : Arms C) (codec : Codec RC C) (status : Codec S Int) (attr : InnerAttr)
    (value : PyValue) (operator : Int) : Prop :=
  ∃ condition, arms.condition attr (value.stored attr) operator = some condition ∧
    (codec.Keeps condition ↔ ∀ n ∈ attr.status? (value.stored attr), status.Keeps n)

section Reads

variable {arms : Arms C} {attrs : List InnerAttr} {codec : Codec RC C} {status : Codec S Int}
  (h : GoesByArms arms attrs codec status) {value : PyValue} {operator : Int}

/-! One lemma for each class.  The codec of the arm keeps the condition as it knows the operators
of the class. -/

include h in
theorem GoesByArms.reads_string (hmem : .filter_string ∈ attrs)
    (hvalue : FilterClass.string.Accepts value)
    (hoperator : operator ∈ FilterClass.string.operators) :
    ReadsAs arms codec status .filter_string value operator := by
  cases value with
  | str v =>
      obtain ⟨arm, harm, hkeeps⟩ := h.string hmem
      refine ⟨_, congrArg (Option.map _) harm, iff_of_true ((hkeeps _).mpr ?_) nofun⟩
      exact Rust.FilterString.codec_lawful.encode_decode _ ⟨trivial, known_of_mem_map hoperator⟩
  | _ => cases hvalue

include h in
theorem GoesByArms.reads_status (hmem : .filter_status ∈ attrs)
    (hvalue : FilterClass.status.Accepts value)
    (hoperator : operator ∈ FilterClass.status.operators) :
    ReadsAs arms codec status .filter_status value operator := by
  obtain ⟨arm, harm, hkeeps⟩ := h.status hmem
  have hkept : Rust.FilterStatusOperator.codec.Keeps operator :=
    Rust.FilterStatusOperator.codec_lawful.encode_decode _ (known_of_mem_map hoperator)
  have hstatus (n : Int) : codec.Keeps (arm ⟨n, operator⟩) ↔ ∀ m ∈ some n, status.Keeps m := by
    simp only [hkeeps, Rust.FilterStatus.codec, condition_keeps_iff, hkept, and_true,
      Option.mem_some_iff, forall_eq']
  cases value with
  | int n => exact ⟨_, congrArg (Option.map _) harm, hstatus n⟩
  | bool b => exact ⟨_, congrArg (Option.map _) harm, hstatus _⟩
  | _ => cases hvalue

include h in
theorem GoesByArms.reads_date (hmem : .filter_date ∈ attrs)
    (hvalue : FilterClass.date.Accepts value)
    (hoperator : operator ∈ FilterClass.date.operators) :
    ReadsAs arms codec status .filter_date value operator := by
  cases value with
  | timestamp v =>
      obtain ⟨arm, harm, hkeeps⟩ := h.date hmem
      refine ⟨_, congrArg (Option.map _) harm, iff_of_true ((hkeeps _).mpr ?_) nofun⟩
      exact Rust.FilterDate.codec_lawful.encode_decode _
        ⟨⟨v, rfl, trivial⟩, known_of_mem_map hoperator⟩
  | _ => cases hvalue

include h in
theorem GoesByArms.reads_number (hmem : .filter_number ∈ attrs)
    (hvalue : FilterClass.number.Accepts value)
    (hoperator : operator ∈ FilterClass.number.operators) :
    ReadsAs arms codec status .filter_number value operator := by
  obtain ⟨arm, harm, hkeeps⟩ := h.number hmem
  have hnumber (n : Int) : codec.Keeps (arm ⟨n, operator⟩) :=
    (hkeeps _).mpr (Rust.FilterNumber.codec_lawful.encode_decode _
      ⟨trivial, known_of_mem_map hoperator⟩)
  cases value with
  | int n => exact ⟨_, congrArg (Option.map _) harm, iff_of_true (hnumber n) nofun⟩
  | bool b => exact ⟨_, congrArg (Option.map _) harm, iff_of_true (hnumber _) nofun⟩
  | _ => cases hvalue

include h in
theorem GoesByArms.reads_boolean (hmem : .filter_boolean ∈ attrs)
    (hvalue : FilterClass.boolean.Accepts value)
    (hoperator : operator ∈ FilterClass.boolean.operators) :
    ReadsAs arms codec status .filter_boolean value operator := by
  cases value with
  | bool v =>
      obtain ⟨arm, harm, hkeeps⟩ := h.boolean hmem
      refine ⟨_, congrArg (Option.map _) harm, iff_of_true ((hkeeps _).mpr ?_) nofun⟩
      exact Rust.FilterBoolean.codec_lawful.encode_decode _ ⟨trivial, known_of_mem_map hoperator⟩
  | _ => cases hvalue

include h in
theorem GoesByArms.reads_array (hmem : .filter_array ∈ attrs)
    (hvalue : FilterClass.array.Accepts value)
    (hoperator : operator ∈ FilterClass.array.operators) :
    ReadsAs arms codec status .filter_array value operator := by
  cases value with
  | str v =>
      obtain ⟨arm, harm, hkeeps⟩ := h.array hmem
      refine ⟨_, congrArg (Option.map _) harm, iff_of_true ((hkeeps _).mpr ?_) nofun⟩
      exact Rust.FilterArray.codec_lawful.encode_decode _ ⟨trivial, known_of_mem_map hoperator⟩
  | _ => cases hvalue

include h in
theorem GoesByArms.reads_duration (hmem : .filter_duration ∈ attrs)
    (hvalue : FilterClass.duration.Accepts value)
    (hoperator : operator ∈ FilterClass.duration.operators) :
    ReadsAs arms codec status .filter_duration value operator := by
  cases value with
  | duration v =>
      obtain ⟨arm, harm, hkeeps⟩ := h.duration hmem
      refine ⟨_, congrArg (Option.map _) harm, iff_of_true ((hkeeps _).mpr ?_) nofun⟩
      exact Rust.FilterDuration.codec_lawful.encode_decode _
        ⟨⟨v, rfl, trivial⟩, known_of_mem_map hoperator⟩
  | _ => cases hvalue

include h in
/-- A status is all that a condition of a filter may lose. -/
theorem GoesByArms.reads :
    arms.Reads attrs codec.Keeps fun attr value => ∀ n ∈ attr.status? value, status.Keeps n := by
  intro cls attr hmem hattr value hvalue operator hoperator
  cases cls with
  -- a filter on no field has no arm
  | filter => cases hattr
  | string =>
      cases hattr
      exact h.reads_string hmem hvalue hoperator
  | status =>
      cases hattr
      exact h.reads_status hmem hvalue hoperator
  | date =>
      cases hattr
      exact h.reads_date hmem hvalue hoperator
  | number =>
      cases hattr
      exact h.reads_number hmem hvalue hoperator
  | boolean =>
      cases hattr
      exact h.reads_boolean hmem hvalue hoperator
  | array =>
      cases hattr
      exact h.reads_array hmem hvalue hoperator
  | duration =>
      cases hattr
      exact h.reads_duration hmem hvalue hoperator

end Reads

end Arms

/-! ## The schemas of the services -/

/-- What `tasks_filters.proto` and `tasks_fields.proto` declare. -/
def tasksSchema : Schema Proto.Tasks.TaskField Proto.Tasks.ValueCondition where
  filters := "tasks.Filters"
  filtersAnd := "tasks.FiltersAnd"
  filterField := "tasks.FilterField"
  filterStatus := some "tasks.FilterStatus"
  field := fun
    | .enum arm _ number =>
        if arm = "task_summary_field" then some ⟨some (.taskSummaryField ⟨number⟩)⟩
        else if arm = "task_option_field" then some ⟨some (.taskOptionField ⟨number⟩)⟩
        else none
    | .generic arm key =>
        if arm = "task_option_generic_field" then some ⟨some (.taskOptionGenericField ⟨key⟩)⟩
        else none
  arms :=
    ⟨some .filterString, some .filterNumber, some .filterBoolean, some .filterStatus,
      some .filterDate, some .filterArray, some .filterDuration⟩

/-- What `sessions_filters.proto` and `sessions_fields.proto` declare. -/
def sessionsSchema : Schema Proto.Sessions.SessionField Proto.Sessions.ValueCondition where
  filters := "sessions.Filters"
  filtersAnd := "sessions.FiltersAnd"
  filterField := "sessions.FilterField"
  filterStatus := some "sessions.FilterStatus"
  field := fun
    | .enum arm _ number =>
        if arm = "session_raw_field" then some ⟨some (.sessionRawField ⟨number⟩)⟩
        else if arm = "task_option_field" then some ⟨some (.taskOptionField ⟨number⟩)⟩
        else none
    | .generic arm key =>
        if arm = "task_option_generic_field" then some ⟨some (.taskOptionGenericField ⟨key⟩)⟩
        else none
  arms :=
    ⟨some .filterString, some .filterNumber, some .filterBoolean, some .filterStatus,
      some .filterDate, some .filterArray, some .filterDuration⟩

/-- What `results_filters.proto` and `results_fields.proto` declare. -/
def resultsSchema : Schema Proto.Results.ResultField Proto.Results.ValueCondition where
  filters := "results.Filters"
  filtersAnd := "results.FiltersAnd"
  filterField := "results.FilterField"
  filterStatus := some "results.FilterStatus"
  field := fun
    | .enum arm _ number =>
        if arm = "result_raw_field" then some ⟨some (.resultRawField ⟨number⟩)⟩
        else none
    | .generic _ _ => none
  arms :=
    ⟨some .filterString, some .filterNumber, none, some .filterStatus, some .filterDate,
      some .filterArray, none⟩

/-- What `partitions_filters.proto` and `partitions_fields.proto` declare. -/
def partitionsSchema : Schema Proto.Partitions.PartitionField Proto.Partitions.ValueCondition where
  filters := "partitions.Filters"
  filtersAnd := "partitions.FiltersAnd"
  filterField := "partitions.FilterField"
  filterStatus := none
  field := fun
    | .enum arm _ number =>
        if arm = "partition_raw_field" then some ⟨some (.partitionRawField ⟨number⟩)⟩
        else none
    | .generic _ _ => none
  arms :=
    ⟨some .filterString, some .filterNumber, some .filterBoolean, none, none,
      some .filterArray, none⟩

/-- What `applications_filters.proto` and `applications_fields.proto` declare. -/
def applicationsSchema :
    Schema Proto.Applications.ApplicationField Proto.Applications.ValueCondition where
  filters := "applications.Filters"
  filtersAnd := "applications.FiltersAnd"
  filterField := "applications.FilterField"
  filterStatus := none
  field := fun
    | .enum arm _ number =>
        if arm = "application_field" then some ⟨some (.applicationField ⟨number⟩)⟩
        else none
    | .generic _ _ => none
  arms :=
    ⟨some .filterString, none, none, none, none, none, none⟩

/-! ## The services -/

theorem tasksSchema_covers :
    tasksSchema.Covers .tasks Rust.Tasks.Field.codec.Keeps where
  filters := rfl
  filtersAnd := rfl
  types := by decide
  fields := by decide
  keys := by
    intro wrapper hwrapper arm harm item
    have hkey : ∀ wrapper ∈ Python.Service.tasks.wrappers, ∀ arm ∈ wrapper.keyArm,
        arm = "task_option_generic_field" := by decide
    rw [hkey wrapper hwrapper arm harm]
    exact ⟨_, rfl, rfl⟩
  error := by decide

theorem tasksSchema_goesByArms :
    GoesByArms tasksSchema.arms Python.Service.tasks.arms Rust.Tasks.Condition.codec
      Rust.TaskStatus.codec where
  string := fun _ =>
    ⟨_, rfl, fun _ => iff_of_eq (Proto.Tasks.ValueCondition.filterString.injEq ..)⟩
  number := fun _ =>
    ⟨_, rfl, fun _ => iff_of_eq (Proto.Tasks.ValueCondition.filterNumber.injEq ..)⟩
  boolean := fun _ =>
    ⟨_, rfl, fun _ => iff_of_eq (Proto.Tasks.ValueCondition.filterBoolean.injEq ..)⟩
  status := fun _ =>
    ⟨_, rfl, fun _ => iff_of_eq (Proto.Tasks.ValueCondition.filterStatus.injEq ..)⟩
  date := fun _ =>
    ⟨_, rfl, fun _ => iff_of_eq (Proto.Tasks.ValueCondition.filterDate.injEq ..)⟩
  array := fun _ =>
    ⟨_, rfl, fun _ => iff_of_eq (Proto.Tasks.ValueCondition.filterArray.injEq ..)⟩
  duration := fun _ =>
    ⟨_, rfl, fun _ => iff_of_eq (Proto.Tasks.ValueCondition.filterDuration.injEq ..)⟩

theorem sessionsSchema_covers :
    sessionsSchema.Covers .sessions Rust.Sessions.Field.codec.Keeps where
  filters := rfl
  filtersAnd := rfl
  types := by decide
  fields := by decide
  keys := by
    intro wrapper hwrapper arm harm item
    have hkey : ∀ wrapper ∈ Python.Service.sessions.wrappers, ∀ arm ∈ wrapper.keyArm,
        arm = "task_option_generic_field" := by decide
    rw [hkey wrapper hwrapper arm harm]
    exact ⟨_, rfl, rfl⟩
  error := nofun

theorem sessionsSchema_goesByArms :
    GoesByArms sessionsSchema.arms Python.Service.sessions.arms Rust.Sessions.Condition.codec
      Rust.SessionStatus.codec where
  string := fun _ =>
    ⟨_, rfl, fun _ => iff_of_eq (Proto.Sessions.ValueCondition.filterString.injEq ..)⟩
  number := fun _ =>
    ⟨_, rfl, fun _ => iff_of_eq (Proto.Sessions.ValueCondition.filterNumber.injEq ..)⟩
  boolean := fun _ =>
    ⟨_, rfl, fun _ => iff_of_eq (Proto.Sessions.ValueCondition.filterBoolean.injEq ..)⟩
  status := fun _ =>
    ⟨_, rfl, fun _ => iff_of_eq (Proto.Sessions.ValueCondition.filterStatus.injEq ..)⟩
  date := fun _ =>
    ⟨_, rfl, fun _ => iff_of_eq (Proto.Sessions.ValueCondition.filterDate.injEq ..)⟩
  array := fun _ =>
    ⟨_, rfl, fun _ => iff_of_eq (Proto.Sessions.ValueCondition.filterArray.injEq ..)⟩
  duration := fun _ =>
    ⟨_, rfl, fun _ => iff_of_eq (Proto.Sessions.ValueCondition.filterDuration.injEq ..)⟩

theorem resultsSchema_covers :
    resultsSchema.Covers .results Rust.Results.Field.messageCodec.Keeps where
  filters := rfl
  filtersAnd := rfl
  types := by decide
  fields := by decide
  keys := by
    intro wrapper hwrapper arm harm
    have hkey : ∀ wrapper ∈ Python.Service.results.wrappers, wrapper.keyArm = none := by decide
    rw [hkey wrapper hwrapper] at harm
    cases harm
  error := nofun

theorem resultsSchema_goesByArms :
    GoesByArms resultsSchema.arms Python.Service.results.arms Rust.Results.Condition.codec
      Rust.ResultStatus.codec where
  string := fun _ =>
    ⟨_, rfl, fun _ => iff_of_eq (Proto.Results.ValueCondition.filterString.injEq ..)⟩
  number := fun _ =>
    ⟨_, rfl, fun _ => iff_of_eq (Proto.Results.ValueCondition.filterNumber.injEq ..)⟩
  boolean := fun h => absurd h (by decide)
  status := fun _ =>
    ⟨_, rfl, fun _ => iff_of_eq (Proto.Results.ValueCondition.filterStatus.injEq ..)⟩
  date := fun _ =>
    ⟨_, rfl, fun _ => iff_of_eq (Proto.Results.ValueCondition.filterDate.injEq ..)⟩
  array := fun _ =>
    ⟨_, rfl, fun _ => iff_of_eq (Proto.Results.ValueCondition.filterArray.injEq ..)⟩
  duration := fun h => absurd h (by decide)

theorem partitionsSchema_covers :
    partitionsSchema.Covers .partitions Rust.Partitions.Field.messageCodec.Keeps where
  filters := rfl
  filtersAnd := rfl
  types := by decide
  fields := by decide
  keys := by
    intro wrapper hwrapper arm harm
    have hkey : ∀ wrapper ∈ Python.Service.partitions.wrappers, wrapper.keyArm = none := by decide
    rw [hkey wrapper hwrapper] at harm
    cases harm
  error := nofun

theorem partitionsSchema_goesByArms :
    GoesByArms partitionsSchema.arms Python.Service.partitions.arms Rust.Partitions.Condition.codec
      (Codec.id Int) where
  string := fun _ =>
    ⟨_, rfl, fun _ => iff_of_eq (Proto.Partitions.ValueCondition.filterString.injEq ..)⟩
  number := fun _ =>
    ⟨_, rfl, fun _ => iff_of_eq (Proto.Partitions.ValueCondition.filterNumber.injEq ..)⟩
  boolean := fun _ =>
    ⟨_, rfl, fun _ => iff_of_eq (Proto.Partitions.ValueCondition.filterBoolean.injEq ..)⟩
  status := fun h => absurd h (by decide)
  date := fun h => absurd h (by decide)
  array := fun _ =>
    ⟨_, rfl, fun _ => iff_of_eq (Proto.Partitions.ValueCondition.filterArray.injEq ..)⟩
  duration := fun h => absurd h (by decide)

theorem applicationsSchema_covers :
    applicationsSchema.Covers .applications Rust.Applications.Field.messageCodec.Keeps where
  filters := rfl
  filtersAnd := rfl
  types := by decide
  fields := by decide
  keys := by
    intro wrapper hwrapper arm harm
    have hkey : ∀ wrapper ∈ Python.Service.applications.wrappers, wrapper.keyArm = none := by decide
    rw [hkey wrapper hwrapper] at harm
    cases harm
  error := nofun

theorem applicationsSchema_goesByArms :
    GoesByArms applicationsSchema.arms Python.Service.applications.arms
      Rust.Applications.Condition.codec (Codec.id Int) where
  string := fun _ =>
    ⟨_, rfl, fun _ => iff_of_eq (Proto.Applications.ValueCondition.filterString.injEq ..)⟩
  number := fun h => absurd h (by decide)
  boolean := fun h => absurd h (by decide)
  status := fun h => absurd h (by decide)
  date := fun h => absurd h (by decide)
  array := fun h => absurd h (by decide)
  duration := fun h => absurd h (by decide)

/-! ## The statuses -/

theorem taskStatus_known :
    ∀ status, Known Proto.TaskStatus.number (Rust.TaskStatus.codec.encode status)
  | .unspecified => ⟨.unspecified, rfl⟩
  | .creating => ⟨.creating, rfl⟩
  | .submitted => ⟨.submitted, rfl⟩
  | .dispatched => ⟨.dispatched, rfl⟩
  | .completed => ⟨.completed, rfl⟩
  | .error => ⟨.error, rfl⟩
  | .timeout => ⟨.timeout, rfl⟩
  | .cancelling => ⟨.cancelling, rfl⟩
  | .cancelled => ⟨.cancelled, rfl⟩
  | .processing => ⟨.processing, rfl⟩
  | .processed => ⟨.processed, rfl⟩
  | .retried => ⟨.retried, rfl⟩
  | .pending => ⟨.pending, rfl⟩
  | .paused => ⟨.paused, rfl⟩

theorem sessionStatus_known :
    ∀ status, Known Proto.SessionStatus.number (Rust.SessionStatus.codec.encode status)
  | .unspecified => ⟨.unspecified, rfl⟩
  | .running => ⟨.running, rfl⟩
  | .cancelled => ⟨.cancelled, rfl⟩
  | .paused => ⟨.paused, rfl⟩
  | .closed => ⟨.closed, rfl⟩
  | .purged => ⟨.purged, rfl⟩
  | .deleted => ⟨.deleted, rfl⟩

theorem resultStatus_known :
    ∀ status, Known Proto.ResultStatus.number (Rust.ResultStatus.codec.encode status)
  | .unspecified => ⟨.unspecified, rfl⟩
  | .created => ⟨.created, rfl⟩
  | .completed => ⟨.completed, rfl⟩
  | .aborted => ⟨.aborted, rfl⟩
  | .deleted => ⟨.deleted, rfl⟩
  | .notFound => ⟨.notfound, rfl⟩

/-! ## The five services -/

/-- A message of a filter is one of the schema, and the codec of a Rust peer keeps it just if
the statuses in it are known. -/
def FitsRust {F C T : Type} (service : Python.Service) (schema : Schema F C)
    (codec : Codec T (Proto.Filters F C)) (known : Int → Prop) : Prop :=
  ∀ repertoire, Python.SoundRepertoire repertoire service →
    ∀ f, Python.Obtained repertoire service f → ∀ message, f.toMessage = .ok message →
      ∃ filters, schema.read message = some filters ∧
        (codec.Keeps filters ↔ ∀ conj ∈ message.or, ∀ item ∈ conj.and,
          ∀ n ∈ item.attr.status? item.inner.value, known n)

theorem GoesByArms.fitsRust {F C RF RC S : Type} [Inhabited RF] [Inhabited RC]
    {service : Python.Service} {schema : Schema F C} {field : Codec RF F} {condition : Codec RC C}
    {status : Codec S Int} {known : Int → Prop}
    (harms : GoesByArms schema.arms service.arms condition status)
    (hcovers : schema.Covers service field.Keeps) (hstatus : ∀ n, status.Keeps n ↔ known n) :
    FitsRust service schema (Rust.Filter.Or.codec field condition) known := by
  intro repertoire hsound f hf message hok
  obtain ⟨filters, hread, hiff⟩ := Schema.exists_filters hsound hcovers harms.reads hf hok
  refine ⟨filters, hread, ?_⟩
  rw [filter_keeps_iff, hiff]
  simp only [hstatus]

/-- `Task.status`. -/
def taskStatus : Python.Filter :=
  Python.taskFilter.status (.enum "task_summary_field" "TASK_SUMMARY_ENUM_FIELD_STATUS"
    Proto.TaskSummaryEnumField.status.number)

/-- The filters of partitions and of applications have no statuses, and are always kept. -/
theorem python_filters_fit_rust :
    FitsRust .tasks tasksSchema Rust.Tasks.Filters.codec (Known Proto.TaskStatus.number) ∧
      FitsRust .sessions sessionsSchema Rust.Sessions.Filters.codec
        (Known Proto.SessionStatus.number) ∧
      FitsRust .results resultsSchema Rust.Results.Filters.codec
        (Known Proto.ResultStatus.number) ∧
      FitsRust .partitions partitionsSchema Rust.Partitions.Filters.codec (fun _ => True) ∧
      FitsRust .applications applicationsSchema Rust.Applications.Filters.codec
        (fun _ => True) := by
  refine ⟨?_, ?_, ?_, ?_, ?_⟩
  · exact tasksSchema_goesByArms.fitsRust tasksSchema_covers fun _ =>
      Codec.keeps_iff_known Rust.TaskStatus.codec_lawful taskStatus_known
  · exact sessionsSchema_goesByArms.fitsRust sessionsSchema_covers fun _ =>
      Codec.keeps_iff_known Rust.SessionStatus.codec_lawful sessionStatus_known
  · exact resultsSchema_goesByArms.fitsRust resultsSchema_covers fun _ =>
      Codec.keeps_iff_known Rust.ResultStatus.codec_lawful resultStatus_known
  · exact partitionsSchema_goesByArms.fitsRust partitionsSchema_covers fun _ =>
      iff_of_true rfl trivial
  · exact applicationsSchema_goesByArms.fitsRust applicationsSchema_covers fun _ =>
      iff_of_true rfl trivial

/-- The one comparison `status == 99`. -/
def asksForStatus (f : Python.Filter) (comparison : Python.Comparison) (value : PyValue) : Prop :=
  f.cls = .status ∧ comparison = .eq ∧ value = .int 99

/-- `Task.status == 99`, of which a Rust peer makes the status that it has for unknown numbers. -/
theorem python_filters_fit_rust_unknownStatus :
    ∃ f message filters, (taskStatus.compare (.int 99) .eq = .ok f) ∧ f.toMessage = .ok message ∧
      tasksSchema.read message = some filters ∧ ¬ Rust.Tasks.Filters.codec.Keeps filters := by
  have hsound : Python.SoundRepertoire asksForStatus .tasks := by
    rintro f comparison value - - ⟨hcls, rfl, rfl⟩ -
    refine ⟨fun harray => ?_, fun n hn => ?_⟩
    · cases hcls.symm.trans harray
    · cases hn
      exact ⟨fun _ => by decide, fun _ => by decide⟩
  have hwrapper : Python.taskFilter ∈ Python.Service.tasks.wrappers := List.mem_cons_self ..
  have hcall : Python.taskFilter.call "status" = .ok taskStatus := rfl
  have hf : taskStatus.compare (.int 99) .eq = .ok _ := rfl
  have htakes : taskStatus.Takes (.int 99) := .inl trivial
  have hobtained : Python.Obtained asksForStatus .tasks _ :=
    .compare (.proxy (.field hwrapper hcall)) htakes ⟨rfl, rfl, rfl⟩ hf
  obtain ⟨filters, hread, hiff⟩ := python_filters_fit_rust.1 _ hsound _ hobtained _ rfl
  refine ⟨_, _, filters, hf, rfl, hread, fun hkept => ?_⟩
  obtain ⟨value, hvalue⟩ := hiff.mp hkept _ (List.mem_cons_self ..) _ (List.mem_cons_self ..) 99 rfl
  cases value <;> cases hvalue

end ArmoniKApi.Sdks
