import ArmoniKApi.Proto.Events
import ArmoniKApi.Rust.ListFilters

/-!
# The event subscription of the Rust client

A subscription names a session, filters on tasks and on results, and the kinds of
events to return; it is answered by messages with one update each.  The kinds are
numbered in one order and the arms of the update in another, so each arm is
encoded and decoded by name.

An update that is not set is the value `Invalid` of the domain, so, unlike the
nested oneofs of the filters, every update goes both ways.

```text
   kind                   number   arm of the update
   NewTask                1        new_task
   TaskStatusUpdate       2        task_status_update
   NewResult              3        new_result
   ResultStatusUpdate     4        result_status_update
   ResultOwnerUpdate      5        result_owner_update
```

A wire message is well formed if its filters are there and its statuses and kinds are known;
`WellFormed` says so for each message in the terms of its parts.  The filters on tasks and
results are those of the listing services (`tasksFilters_lawful`, `resultsFilters_lawful`), so
that nothing about filters is proved here.
-/

namespace ArmoniKApi.Rust

open Codec (Known Present)

namespace Events

/-! ## The kinds of events -/

/-- `EventsEnum`: the kinds of events. -/
inductive EventsEnum
  | unspecified
  | newTask
  | taskStatusUpdate
  | newResult
  | resultStatusUpdate
  | resultOwnerUpdate
  deriving DecidableEq, Repr

namespace EventsEnum

instance : Inhabited EventsEnum := ⟨.unspecified⟩

/-- `as i32`. -/
def asI32 : EventsEnum → Int
  | .unspecified => 0
  | .newTask => 1
  | .taskStatusUpdate => 2
  | .newResult => 3
  | .resultStatusUpdate => 4
  | .resultOwnerUpdate => 5

/-- `From<i32>`.  A number that this version does not know is the default value. -/
def ofI32 : Int → EventsEnum
  | 0 => .unspecified
  | 1 => .newTask
  | 2 => .taskStatusUpdate
  | 3 => .newResult
  | 4 => .resultStatusUpdate
  | 5 => .resultOwnerUpdate
  | _ => default

/-- To the wire with `as i32`, and back with `From<i32>`. -/
def codec : Codec EventsEnum Int := ⟨asI32, ofI32⟩

theorem codec_lawful : codec.Lawful (Known Proto.EventsEnum.number) := by
  apply Codec.lawful_known
  · intro value
    cases value <;> rfl
  · intro value
    cases value <;> rfl

end EventsEnum

/-! ## The updates -/

/-- `events::TaskStatusUpdate`. -/
structure TaskStatusUpdate where
  taskId : String
  status : TaskStatus
  deriving DecidableEq, Repr

namespace TaskStatusUpdate

/-- The number of a status that this version does not know is lost on the way in. -/
def codec : Codec TaskStatusUpdate Proto.EventSubscriptionResponse.TaskStatusUpdate where
  encode value := ⟨value.taskId, TaskStatus.codec.encode value.status⟩
  decode value := ⟨value.taskId, TaskStatus.codec.decode value.status⟩

theorem codec_lawful : codec.Lawful fun value => Known Proto.TaskStatus.number value.status where
  decode_encode := fun value =>
    congrArg (TaskStatusUpdate.mk value.taskId) (TaskStatus.codec_lawful.decode_encode value.status)
  encode_decode := fun value hvalue =>
    congrArg (Proto.EventSubscriptionResponse.TaskStatusUpdate.mk value.taskId)
      (TaskStatus.codec_lawful.encode_decode value.status hvalue)

end TaskStatusUpdate

/-- `events::ResultStatusUpdate`. -/
structure ResultStatusUpdate where
  resultId : String
  status : ResultStatus
  deriving DecidableEq, Repr

namespace ResultStatusUpdate

/-- The number of a status that this version does not know is lost on the way in. -/
def codec : Codec ResultStatusUpdate Proto.EventSubscriptionResponse.ResultStatusUpdate where
  encode value := ⟨value.resultId, ResultStatus.codec.encode value.status⟩
  decode value := ⟨value.resultId, ResultStatus.codec.decode value.status⟩

theorem codec_lawful :
    codec.Lawful fun value => Known Proto.ResultStatus.number value.status where
  decode_encode := fun value =>
    congrArg (ResultStatusUpdate.mk value.resultId)
      (ResultStatus.codec_lawful.decode_encode value.status)
  encode_decode := fun value hvalue =>
    congrArg (Proto.EventSubscriptionResponse.ResultStatusUpdate.mk value.resultId)
      (ResultStatus.codec_lawful.encode_decode value.status hvalue)

end ResultStatusUpdate

/-- `events::ResultOwnerUpdate`. -/
structure ResultOwnerUpdate where
  resultId : String
  previousOwnerId : String
  currentOwnerId : String
  deriving DecidableEq, Repr

namespace ResultOwnerUpdate

/-- Three texts, each moved as it is. -/
def codec : Codec ResultOwnerUpdate Proto.EventSubscriptionResponse.ResultOwnerUpdate where
  encode value := ⟨value.resultId, value.previousOwnerId, value.currentOwnerId⟩
  decode value := ⟨value.resultId, value.previousOwnerId, value.currentOwnerId⟩

theorem codec_lawful : codec.Lawful fun _ => True where
  decode_encode := fun _ => rfl
  encode_decode := fun _ _ => rfl

end ResultOwnerUpdate

/-- `events::NewTask`. -/
structure NewTask where
  taskId : String
  payloadId : String
  originTaskId : String
  status : TaskStatus
  expectedOutputKeys : List String
  dataDependencies : List String
  retryOfIds : List String
  parentTaskIds : List String
  deriving DecidableEq, Repr

namespace NewTask

/-- All fields but the status are moved as they are. -/
def codec : Codec NewTask Proto.EventSubscriptionResponse.NewTask where
  encode value := {
    taskId := value.taskId
    payloadId := value.payloadId
    originTaskId := value.originTaskId
    status := TaskStatus.codec.encode value.status
    expectedOutputKeys := value.expectedOutputKeys
    dataDependencies := value.dataDependencies
    retryOfIds := value.retryOfIds
    parentTaskIds := value.parentTaskIds }
  decode value := {
    taskId := value.taskId
    payloadId := value.payloadId
    originTaskId := value.originTaskId
    status := TaskStatus.codec.decode value.status
    expectedOutputKeys := value.expectedOutputKeys
    dataDependencies := value.dataDependencies
    retryOfIds := value.retryOfIds
    parentTaskIds := value.parentTaskIds }

theorem codec_lawful : codec.Lawful fun value => Known Proto.TaskStatus.number value.status where
  decode_encode := by
    intro value
    have hstatus := TaskStatus.codec_lawful.decode_encode value.status
    simp only [codec, hstatus]
  encode_decode := by
    intro value hvalue
    have hstatus := TaskStatus.codec_lawful.encode_decode value.status hvalue
    simp only [codec, hstatus]

end NewTask

/-- `events::NewResult`. -/
structure NewResult where
  resultId : String
  ownerId : String
  status : ResultStatus
  deriving DecidableEq, Repr

namespace NewResult

/-- All fields but the status are moved as they are. -/
def codec : Codec NewResult Proto.EventSubscriptionResponse.NewResult where
  encode value := ⟨value.resultId, value.ownerId, ResultStatus.codec.encode value.status⟩
  decode value := ⟨value.resultId, value.ownerId, ResultStatus.codec.decode value.status⟩

theorem codec_lawful :
    codec.Lawful fun value => Known Proto.ResultStatus.number value.status where
  decode_encode := fun value =>
    congrArg (NewResult.mk value.resultId value.ownerId)
      (ResultStatus.codec_lawful.decode_encode value.status)
  encode_decode := fun value hvalue =>
    congrArg (Proto.EventSubscriptionResponse.NewResult.mk value.resultId value.ownerId)
      (ResultStatus.codec_lawful.encode_decode value.status hvalue)

end NewResult

/-- `events::Update`.  `Invalid` is an update that is not set. -/
inductive Update
  | invalid
  | taskStatusUpdate (update : TaskStatusUpdate)
  | resultStatusUpdate (update : ResultStatusUpdate)
  | resultOwnerUpdate (update : ResultOwnerUpdate)
  | newTask (update : NewTask)
  | newResult (update : NewResult)
  deriving DecidableEq, Repr

namespace Update

/-- The arm of the oneof, by its name.  There is no default to fall back on: an unset oneof
has a value of its own on the other side. -/
def codec : Codec Update (Option Proto.EventSubscriptionResponse.Update) where
  encode
    | .invalid => none
    | .taskStatusUpdate update => some (.taskStatusUpdate (TaskStatusUpdate.codec.encode update))
    | .resultStatusUpdate update =>
        some (.resultStatusUpdate (ResultStatusUpdate.codec.encode update))
    | .resultOwnerUpdate update =>
        some (.resultOwnerUpdate (ResultOwnerUpdate.codec.encode update))
    | .newTask update => some (.newTask (NewTask.codec.encode update))
    | .newResult update => some (.newResult (NewResult.codec.encode update))
  decode
    | some (.taskStatusUpdate update) => .taskStatusUpdate (TaskStatusUpdate.codec.decode update)
    | some (.resultStatusUpdate update) =>
        .resultStatusUpdate (ResultStatusUpdate.codec.decode update)
    | some (.resultOwnerUpdate update) => .resultOwnerUpdate (ResultOwnerUpdate.codec.decode update)
    | some (.newTask update) => .newTask (NewTask.codec.decode update)
    | some (.newResult update) => .newResult (NewResult.codec.decode update)
    | none => .invalid

/-- The status of the update, if it has one, is known. -/
def WellFormed : Option Proto.EventSubscriptionResponse.Update → Prop
  | some (.taskStatusUpdate update) => Known Proto.TaskStatus.number update.status
  | some (.resultStatusUpdate update) => Known Proto.ResultStatus.number update.status
  | some (.newTask update) => Known Proto.TaskStatus.number update.status
  | some (.newResult update) => Known Proto.ResultStatus.number update.status
  | some (.resultOwnerUpdate _) => True
  | none => True

theorem codec_lawful : codec.Lawful WellFormed where
  decode_encode := by
    intro value
    cases value with
    | invalid => rfl
    | taskStatusUpdate update =>
        exact congrArg Update.taskStatusUpdate (TaskStatusUpdate.codec_lawful.decode_encode update)
    | resultStatusUpdate update =>
        exact congrArg Update.resultStatusUpdate
          (ResultStatusUpdate.codec_lawful.decode_encode update)
    | resultOwnerUpdate update => rfl
    | newTask update => exact congrArg Update.newTask (NewTask.codec_lawful.decode_encode update)
    | newResult update =>
        exact congrArg Update.newResult (NewResult.codec_lawful.decode_encode update)
  encode_decode := by
    intro value hvalue
    match value, hvalue with
    | some (.taskStatusUpdate update), hstatus =>
        exact congrArg (some ∘ Proto.EventSubscriptionResponse.Update.taskStatusUpdate)
          (TaskStatusUpdate.codec_lawful.encode_decode update hstatus)
    | some (.resultStatusUpdate update), hstatus =>
        exact congrArg (some ∘ Proto.EventSubscriptionResponse.Update.resultStatusUpdate)
          (ResultStatusUpdate.codec_lawful.encode_decode update hstatus)
    | some (.resultOwnerUpdate update), _ => rfl
    | some (.newTask update), hstatus =>
        exact congrArg (some ∘ Proto.EventSubscriptionResponse.Update.newTask)
          (NewTask.codec_lawful.encode_decode update hstatus)
    | some (.newResult update), hstatus =>
        exact congrArg (some ∘ Proto.EventSubscriptionResponse.Update.newResult)
          (NewResult.codec_lawful.encode_decode update hstatus)
    | none, _ => rfl

end Update

/-! ## The subscription -/

/-- `subscribe::Request`. -/
structure Request where
  sessionId : String
  taskFilters : Tasks.Filters
  resultFilters : Results.Filters
  returnedEvents : List EventsEnum
  deriving DecidableEq, Repr

namespace Request

/-- A filter that is absent is read as the empty one. -/
def codec : Codec Request Proto.EventSubscriptionRequest where
  encode value := {
    sessionId := value.sessionId
    tasksFilters := some (Tasks.Filters.codec.encode value.taskFilters)
    resultsFilters := some (Results.Filters.codec.encode value.resultFilters)
    returnedEvents := EventsEnum.codec.list.encode value.returnedEvents }
  decode value := {
    sessionId := value.sessionId
    taskFilters := Tasks.Filters.codec.decode (value.tasksFilters.getD ⟨[]⟩)
    resultFilters := Results.Filters.codec.decode (value.resultsFilters.getD ⟨[]⟩)
    returnedEvents := EventsEnum.codec.list.decode value.returnedEvents }

/-- Both filters are there and well formed, and the kinds are known. -/
structure WellFormed (value : Proto.EventSubscriptionRequest) : Prop where
  tasksFilters : Present Tasks.Filters.WellFormed value.tasksFilters
  resultsFilters : Present Results.Filters.WellFormed value.resultsFilters
  returnedEvents : ∀ event ∈ value.returnedEvents, Known Proto.EventsEnum.number event

theorem tasksFilters_lawful : Tasks.Filters.codec.Lawful Tasks.Filters.WellFormed :=
  Filter.Or.codec_lawful Tasks.Field.codec_lawful Tasks.Condition.codec_lawful

theorem resultsFilters_lawful : Results.Filters.codec.Lawful Results.Filters.WellFormed :=
  Filter.Or.codec_lawful Results.Field.messageCodec_lawful Results.Condition.codec_lawful

theorem codec_lawful : codec.Lawful WellFormed where
  decode_encode := by
    intro ⟨sessionId, taskFilters, resultFilters, returnedEvents⟩
    have htasks := tasksFilters_lawful.decode_encode taskFilters
    have hresults := resultsFilters_lawful.decode_encode resultFilters
    have hevents := EventsEnum.codec_lawful.list.decode_encode returnedEvents
    simp only [codec, Option.getD_some, htasks, hresults, hevents]
  encode_decode := by
    rintro ⟨sessionId, -, -, returnedEvents⟩
      ⟨⟨tasks, rfl, htasks⟩, ⟨results, rfl, hresults⟩, hevents⟩
    have htasks := tasksFilters_lawful.encode_decode tasks htasks
    have hresults := resultsFilters_lawful.encode_decode results hresults
    have hevents := EventsEnum.codec_lawful.list.encode_decode returnedEvents hevents
    simp only [codec, Option.getD_some, htasks, hresults, hevents]

end Request

/-- `subscribe::Response`. -/
structure Response where
  sessionId : String
  update : Update
  deriving DecidableEq, Repr

namespace Response

/-- The session and the update. -/
def codec : Codec Response Proto.EventSubscriptionResponse where
  encode value := ⟨value.sessionId, Update.codec.encode value.update⟩
  decode value := ⟨value.sessionId, Update.codec.decode value.update⟩

theorem codec_lawful : codec.Lawful fun value => Update.WellFormed value.update where
  decode_encode := fun value =>
    congrArg (Response.mk value.sessionId) (Update.codec_lawful.decode_encode value.update)
  encode_decode := fun value hvalue =>
    congrArg (Proto.EventSubscriptionResponse.mk value.sessionId)
      (Update.codec_lawful.encode_decode value.update hvalue)

end Response

/-- Every subscription and every response comes back from the wire, and every
well-formed wire message is written back as it was read. -/
theorem event_subscription_kept :
    Request.codec.Lawful Request.WellFormed ∧
      Response.codec.Lawful fun value => Update.WellFormed value.update :=
  ⟨Request.codec_lawful, Response.codec_lawful⟩

end Events

end ArmoniKApi.Rust
