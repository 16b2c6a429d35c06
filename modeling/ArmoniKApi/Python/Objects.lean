import ArmoniKApi.Proto.Tasks
import ArmoniKApi.Python.Filter

/-!
# Tasks in Python

`Task` of `armonik.common.objects` is made of a `TaskDetailed` message
(`from_message`) or of a `TaskSummary` (`from_summary`).  The summary has numbers
in place of the lists of ids, and the text of the error in place of the output.

Given a task and its summary, the two agree on all that they both know, but for
the success of the output: one reads the flag of the message, the other takes a
text for a failure and no text for a success
(`task_constructors_agree_iff`).

## What each constructor reads

```text
   attribute            from_message            from_summary
   lists of ids         the lists               (empty)
   counts               the lengths             the numbers of the summary
   output               flag and error          error alone
   all others           the same field          the same field
```

`toDatetime` and `toTimedelta` are parameters: both constructors call them on the same
messages, and raise what they raise.

## Strategy

The summary of a task is written down as a function of the full message (`summary`), and the
task made of it is the task made of the full message, without its lists and with an output
made of the text (`fromSummary_summary`).  What is left is a comparison of two outputs
(`agree_summarized_iff`).
-/

namespace ArmoniKApi.Python.Objects

open Proto (TaskDetailed TaskSummary TaskStatus Timestamp Duration)

/-! ## The classes -/

/-- `TaskOptions`.  `options` are the items of the dictionary. -/
structure TaskOptions where
  maxDuration : Int
  priority : Int
  maxRetries : Int
  partitionId : Option String
  applicationName : Option String
  applicationVersion : Option String
  applicationNamespace : Option String
  applicationService : Option String
  engineType : Option String
  options : List (String × String)

/-- `Output`, which is a success when it has no error. -/
structure Output where
  error : Option String

/-- The property `success`. -/
def Output.success (self : Output) : Bool := self.error.isNone

/-- The attributes of a `Task`.  A `datetime` is its number of microseconds since
the epoch, a `timedelta` its length in microseconds. -/
structure Task where
  id : Option String
  sessionId : Option String
  ownerPodId : Option String
  initialTaskId : Option String
  createdBy : Option String
  parentTaskIds : Option (List String)
  countParentTaskIds : Option Int
  dataDependencies : Option (List String)
  countDataDependencies : Option Int
  expectedOutputIds : Option (List String)
  countExpectedOutputIds : Option Int
  retryOfIds : Option (List String)
  countRetryOfIds : Option Int
  status : TaskStatus
  statusMessage : Option String
  options : Option TaskOptions
  createdAt : Option Int
  submittedAt : Option Int
  receivedAt : Option Int
  acquiredAt : Option Int
  fetchedAt : Option Int
  startedAt : Option Int
  processedAt : Option Int
  endedAt : Option Int
  podTtl : Option Int
  creationToEndDuration : Int
  processingToEndDuration : Int
  receivedToEndDuration : Int
  output : Option Output
  podHostname : Option String
  payloadId : Option String

/-- `__init__` takes the counts from the lists. -/
def Task.init (self : Task) : Task :=
  { self with
    countParentTaskIds := self.parentTaskIds.map fun ids => ids.length
    countDataDependencies := self.dataDependencies.map fun ids => ids.length
    countExpectedOutputIds := self.expectedOutputIds.map fun ids => ids.length
    countRetryOfIds := self.retryOfIds.map fun ids => ids.length }

/-- `TaskStatus(number)`. -/
def taskStatus (number : Int) : PyResult TaskStatus :=
  match number with
  | 0 => return .unspecified
  | 1 => return .creating
  | 2 => return .submitted
  | 3 => return .dispatched
  | 4 => return .completed
  | 5 => return .error
  | 6 => return .timeout
  | 7 => return .cancelling
  | 8 => return .cancelled
  | 9 => return .processing
  | 10 => return .processed
  | 11 => return .retried
  | 12 => return .pending
  | 13 => return .paused
  | _ => throw .valueError

/-- A message field that is not set is read as the message in which nothing is
set. -/
def detailedOutput (raw : TaskDetailed) : TaskDetailed.Output := raw.output.getD ⟨false, ""⟩

/-! ## The constructors

`toDatetime` and `toTimedelta` are the conversions of the messages `Timestamp`
and `Duration`. -/

section Constructors

variable (toDatetime : Timestamp → PyResult Int) (toTimedelta : Duration → PyResult Int)

/-- `timestamp_to_datetime`. -/
def timestampToDatetime (field : Option Timestamp) : PyResult (Option Int) :=
  let timeStamp := field.getD ⟨0, 0⟩
  if timeStamp.seconds = 0 ∧ timeStamp.nanos = 0 then
    return none
  else do
    return some (← toDatetime timeStamp)

/-- `duration_to_timedelta`. -/
def durationToTimedelta (field : Option Duration) : PyResult Int :=
  toTimedelta (field.getD ⟨0, 0⟩)

/-- `TaskOptions.from_message`. -/
def TaskOptions.fromMessage (field : Option Proto.TaskOptions) : PyResult TaskOptions := do
  let taskOptions := field.getD default
  return {
    maxDuration := ← durationToTimedelta toTimedelta taskOptions.maxDuration
    maxRetries := taskOptions.maxRetries
    priority := taskOptions.priority
    partitionId := some taskOptions.partitionId
    applicationName := some taskOptions.applicationName
    applicationVersion := some taskOptions.applicationVersion
    applicationNamespace := some taskOptions.applicationNamespace
    applicationService := some taskOptions.applicationService
    engineType := some taskOptions.engineType
    options := taskOptions.options }

/-- `Task.from_message`. -/
def Task.fromMessage (taskRaw : TaskDetailed) : PyResult Task := do
  return Task.init {
    id := some taskRaw.id
    sessionId := some taskRaw.sessionId
    ownerPodId := some taskRaw.ownerPodId
    initialTaskId := some taskRaw.initialTaskId
    createdBy := some taskRaw.createdBy
    parentTaskIds := some taskRaw.parentTaskIds
    countParentTaskIds := none
    dataDependencies := some taskRaw.dataDependencies
    countDataDependencies := none
    expectedOutputIds := some taskRaw.expectedOutputIds
    countExpectedOutputIds := none
    retryOfIds := some taskRaw.retryOfIds
    countRetryOfIds := none
    status := ← taskStatus taskRaw.status
    statusMessage := some taskRaw.statusMessage
    options := some (← TaskOptions.fromMessage toTimedelta taskRaw.options)
    createdAt := ← timestampToDatetime toDatetime taskRaw.createdAt
    submittedAt := ← timestampToDatetime toDatetime taskRaw.submittedAt
    receivedAt := ← timestampToDatetime toDatetime taskRaw.receivedAt
    acquiredAt := ← timestampToDatetime toDatetime taskRaw.acquiredAt
    fetchedAt := ← timestampToDatetime toDatetime taskRaw.fetchedAt
    startedAt := ← timestampToDatetime toDatetime taskRaw.startedAt
    processedAt := ← timestampToDatetime toDatetime taskRaw.processedAt
    endedAt := ← timestampToDatetime toDatetime taskRaw.endedAt
    podTtl := ← timestampToDatetime toDatetime taskRaw.podTtl
    creationToEndDuration := ← durationToTimedelta toTimedelta taskRaw.creationToEndDuration
    processingToEndDuration := ← durationToTimedelta toTimedelta taskRaw.processingToEndDuration
    receivedToEndDuration := ← durationToTimedelta toTimedelta taskRaw.receivedToEndDuration
    output := some ⟨if (detailedOutput taskRaw).success then none
      else some (detailedOutput taskRaw).error⟩
    podHostname := some taskRaw.podHostname
    payloadId := some taskRaw.payloadId }

/-- `Task.from_summary`, which sets the counts after `__init__`. -/
def Task.fromSummary (taskRaw : TaskSummary) : PyResult Task := do
  let task := Task.init {
    id := some taskRaw.id
    sessionId := some taskRaw.sessionId
    ownerPodId := some taskRaw.ownerPodId
    initialTaskId := some taskRaw.initialTaskId
    createdBy := some taskRaw.createdBy
    parentTaskIds := none
    countParentTaskIds := none
    dataDependencies := none
    countDataDependencies := none
    expectedOutputIds := none
    countExpectedOutputIds := none
    retryOfIds := none
    countRetryOfIds := none
    status := ← taskStatus taskRaw.status
    statusMessage := some taskRaw.statusMessage
    options := some (← TaskOptions.fromMessage toTimedelta taskRaw.options)
    createdAt := ← timestampToDatetime toDatetime taskRaw.createdAt
    submittedAt := ← timestampToDatetime toDatetime taskRaw.submittedAt
    receivedAt := ← timestampToDatetime toDatetime taskRaw.receivedAt
    acquiredAt := ← timestampToDatetime toDatetime taskRaw.acquiredAt
    fetchedAt := ← timestampToDatetime toDatetime taskRaw.fetchedAt
    startedAt := ← timestampToDatetime toDatetime taskRaw.startedAt
    processedAt := ← timestampToDatetime toDatetime taskRaw.processedAt
    endedAt := ← timestampToDatetime toDatetime taskRaw.endedAt
    podTtl := ← timestampToDatetime toDatetime taskRaw.podTtl
    creationToEndDuration := ← durationToTimedelta toTimedelta taskRaw.creationToEndDuration
    processingToEndDuration := ← durationToTimedelta toTimedelta taskRaw.processingToEndDuration
    receivedToEndDuration := ← durationToTimedelta toTimedelta taskRaw.receivedToEndDuration
    output := some ⟨if taskRaw.error.length > 0 then some taskRaw.error else none⟩
    podHostname := some taskRaw.podHostname
    payloadId := some taskRaw.payloadId }
  return { task with
    countParentTaskIds := some taskRaw.countParentTaskIds
    countDataDependencies := some taskRaw.countDataDependencies
    countExpectedOutputIds := some taskRaw.countExpectedOutputIds
    countRetryOfIds := some taskRaw.countRetryOfIds }

end Constructors

/-! ## A task and its summary -/

/-- The summary that describes the same task: the same values for all fields that
both messages have, the lengths of the lists, and the text of the error. -/
def summary (detailed : TaskDetailed) : TaskSummary where
  id := detailed.id
  sessionId := detailed.sessionId
  ownerPodId := detailed.ownerPodId
  initialTaskId := detailed.initialTaskId
  countParentTaskIds := detailed.parentTaskIds.length
  countDataDependencies := detailed.dataDependencies.length
  countExpectedOutputIds := detailed.expectedOutputIds.length
  countRetryOfIds := detailed.retryOfIds.length
  status := detailed.status
  statusMessage := detailed.statusMessage
  options := detailed.options
  createdAt := detailed.createdAt
  submittedAt := detailed.submittedAt
  receivedAt := detailed.receivedAt
  acquiredAt := detailed.acquiredAt
  fetchedAt := detailed.fetchedAt
  startedAt := detailed.startedAt
  processedAt := detailed.processedAt
  endedAt := detailed.endedAt
  podTtl := detailed.podTtl
  creationToEndDuration := detailed.creationToEndDuration
  processingToEndDuration := detailed.processingToEndDuration
  receivedToEndDuration := detailed.receivedToEndDuration
  payloadId := detailed.payloadId
  createdBy := detailed.createdBy
  error := (detailedOutput detailed).error
  podHostname := detailed.podHostname

namespace Task

variable {toDatetime : Timestamp → PyResult Int} {toTimedelta : Duration → PyResult Int}

/-- The task without what a summary lacks: the lists of ids, and the output. -/
def withoutLists (self : Task) : Task :=
  { self with
    parentTaskIds := none
    dataDependencies := none
    expectedOutputIds := none
    retryOfIds := none
    output := none }

/-- The tasks are equal on every attribute that both messages determine. -/
structure Agree (a b : Task) : Prop where
  attributes : a.withoutLists = b.withoutLists
  success : a.output.map Output.success = b.output.map Output.success

/-- The task without the lists, and with an output made of a text. -/
def summarized (self : Task) (error : String) : Task :=
  { self.withoutLists with output := some ⟨if error.length > 0 then some error else none⟩ }

/-- The task of a summary is the task of the full message, summarized. -/
theorem fromSummary_summary (detailed : TaskDetailed) :
    fromSummary toDatetime toTimedelta (summary detailed) =
      (fun task => task.summarized (detailedOutput detailed).error) <$>
        fromMessage toDatetime toTimedelta detailed := by
  simp only [fromSummary, fromMessage, map_bind, map_pure]
  rfl

/-- A text makes a failure, and no text a success. -/
theorem success_summarized (task : Task) (error : String) :
    (task.summarized error).output.map Output.success = some (decide (error = "")) := by
  rw [summarized, Option.map_some, Output.success, Option.some.injEq]
  split
  · rename_i hlength
    refine (decide_eq_false fun hempty => ?_).symm
    rw [hempty] at hlength
    exact absurd hlength (by decide)
  · rename_i hlength
    refine (decide_eq_true ?_).symm
    rwa [gt_iff_lt, Nat.pos_iff_ne_zero, Decidable.not_not, String.length_eq_zero_iff] at hlength

theorem agree_summarized_iff (task : Task) (error : String) :
    task.Agree (task.summarized error) ↔
      task.output.map Output.success = some (decide (error = "")) := by
  rw [← success_summarized task error]
  exact ⟨Agree.success, fun hsuccess => ⟨rfl, hsuccess⟩⟩

/-- The output of the task of a full message. -/
theorem output_of_fromMessage {detailed : TaskDetailed} {task : Task}
    (hok : fromMessage toDatetime toTimedelta detailed = .ok task) :
    task.output.map Output.success = some (detailedOutput detailed).success := by
  have houtput : (fun task : Task => task.output.map Output.success) <$>
      fromMessage toDatetime toTimedelta detailed =
        (fun _ => some (detailedOutput detailed).success) <$>
          fromMessage toDatetime toTimedelta detailed := by
    simp only [fromMessage, map_bind, map_pure, init, Option.map_some, Output.success]
    cases (detailedOutput detailed).success <;> rfl
  rw [hok] at houtput
  exact Except.ok.inj houtput

end Task

/-- Both constructors return, or raise the same.  The tasks agree just when the
flag for success is set on the outputs without a text, and on these alone. -/
theorem task_constructors_agree_iff (toDatetime : Timestamp → PyResult Int)
    (toTimedelta : Duration → PyResult Int) (detailed : TaskDetailed) :
    (∀ error, Task.fromMessage toDatetime toTimedelta detailed = .error error ↔
      Task.fromSummary toDatetime toTimedelta (summary detailed) = .error error) ∧
    ∀ a b, Task.fromMessage toDatetime toTimedelta detailed = .ok a →
      Task.fromSummary toDatetime toTimedelta (summary detailed) = .ok b →
        (Task.Agree a b ↔
          ((detailedOutput detailed).success = true ↔ (detailedOutput detailed).error = "")) := by
  rw [Task.fromSummary_summary]
  constructor
  · intro error
    cases Task.fromMessage toDatetime toTimedelta detailed with
    | error other => rfl
    | ok task => exact ⟨nofun, nofun⟩
  · intro a b ha hb
    have hsuccess := Task.output_of_fromMessage ha
    rw [ha] at hb
    have hsummarized : b = a.summarized (detailedOutput detailed).error :=
      (Except.ok.inj hb).symm
    rw [hsummarized, Task.agree_summarized_iff, hsuccess, Option.some.injEq, Bool.eq_iff_iff,
      decide_eq_true_iff]

/-- The conversions of the two messages, where nothing is out of range. -/
def microseconds (seconds nanos : Int) : PyResult Int := return seconds * 1000000 + nanos / 1000

/-- A task that has ended, with the given output. -/
def endedTask (success : Bool) (error : String) : TaskDetailed where
  id := "task"
  sessionId := "session"
  ownerPodId := "pod"
  initialTaskId := "task"
  parentTaskIds := []
  dataDependencies := ["input"]
  expectedOutputIds := ["output"]
  retryOfIds := []
  status := if success then 4 else 5
  statusMessage := ""
  options := none
  createdAt := some ⟨1700000000, 0⟩
  submittedAt := none
  receivedAt := none
  acquiredAt := none
  fetchedAt := none
  startedAt := none
  processedAt := none
  endedAt := some ⟨1700000060, 0⟩
  podTtl := none
  creationToEndDuration := some ⟨60, 0⟩
  processingToEndDuration := none
  receivedToEndDuration := none
  payloadId := "payload"
  createdBy := ""
  output := some ⟨success, error⟩
  podHostname := "pod"

/-- A task that has failed with a text. -/
theorem task_constructors_agree_of_text :
    ∃ a b, Task.fromMessage (fun t => microseconds t.seconds t.nanos)
        (fun d => microseconds d.seconds d.nanos) (endedTask false "out of memory") = .ok a ∧
      Task.fromSummary (fun t => microseconds t.seconds t.nanos)
        (fun d => microseconds d.seconds d.nanos) (summary (endedTask false "out of memory")) =
          .ok b ∧ Task.Agree a b := by
  have hagree := (task_constructors_agree_iff (fun t => microseconds t.seconds t.nanos)
    (fun d => microseconds d.seconds d.nanos) (endedTask false "out of memory")).2
  exact ⟨_, _, rfl, rfl, (hagree _ _ rfl rfl).mpr (by decide)⟩

/-- A task that has failed without a text, as every failed task has that is listed
without its error: its summary makes a success of it. -/
theorem task_constructors_disagree :
    ∃ a b, Task.fromMessage (fun t => microseconds t.seconds t.nanos)
        (fun d => microseconds d.seconds d.nanos) (endedTask false "") = .ok a ∧
      Task.fromSummary (fun t => microseconds t.seconds t.nanos)
        (fun d => microseconds d.seconds d.nanos) (summary (endedTask false "")) = .ok b ∧
      a.output.map Output.success = some false ∧ b.output.map Output.success = some true ∧
      ¬ Task.Agree a b := by
  refine ⟨_, _, rfl, rfl, rfl, rfl, fun hagree => ?_⟩
  cases hagree.success

end ArmoniKApi.Python.Objects
