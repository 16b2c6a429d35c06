import ArmoniKApi.Proto.Tasks
import ArmoniKApi.Rust.CreateTasks
import ArmoniKApi.Rust.Enums

/-!
# Tasks in the Rust client

The domain has one `Output` for the two messages about tasks.  `TaskDetailed` has
a message for it, with a flag for success.  `TaskSummary` has only the text of
the error, and the client takes an empty text for a success.

So a `Raw` task comes back from the wire whatever its output is, and a `Summary`
comes back unless its output is an error without a text (`tasks_kept`).

```text
   Output          in Raw                        in Summary
   success         success true,  error ""       error ""
   error "text"    success false, error "text"   error "text"
   error ""        success false, error ""       error ""        read as a success
```

* `Output.decode_encode`: the message for an output keeps it.
* `Output.ofText_text`: the text keeps it, but for an error without a text.
* `Summary.decode_encode`: all other fields of a summary come back, so that this is all that is
  lost.
* `outputsAgree_iff`: for which outputs the two messages tell successes from errors alike.
-/

namespace ArmoniKApi.Rust.Tasks

/-! ## Outputs -/

/-- `tasks::Output`: an error has a text, and a success has none. -/
inductive Output
  | success
  | error (message : String)
  deriving DecidableEq, Repr

namespace Output

instance : Inhabited Output := ⟨.success⟩

/-- Whether the output is a success or an error. -/
def isSuccess : Output → Bool
  | .success => true
  | .error _ => false

/-- A success is written without a text.  A message is read as a success just when its flag
says so, and the text of one that has both is lost. -/
def codec : Codec Output Proto.TaskDetailed.Output where
  encode
    | .success => { success := true, error := "" }
    | .error message => { success := false, error := message }
  decode value := if value.success then .success else .error value.error

theorem decode_encode (value : Output) : codec.decode (codec.encode value) = value := by
  cases value with
  | success => rfl
  | error message => rfl

/-- The field `error` of a summary. -/
def text : Output → String
  | .success => ""
  | .error message => message

/-- The output of a summary. -/
def ofText (error : String) : Output :=
  if error.isEmpty then .success else .error error

/-- An error without a text is read as a success, and nothing else is lost. -/
theorem ofText_text (value : Output) :
    ofText value.text = if value = .error "" then .success else value := by
  cases value with
  | success => rfl
  | error message =>
      simp only [text, ofText, String.isEmpty_iff, Output.error.injEq]

theorem ofText_text_eq_iff (value : Output) : ofText value.text = value ↔ value ≠ .error "" := by
  rw [ofText_text]
  split
  · rename_i hvalue
    subst hvalue
    decide
  · rename_i hvalue
    exact ⟨fun _ => hvalue, fun _ => rfl⟩

end Output

/-! ## Summaries -/

/-- `tasks::Summary`. -/
structure Summary where
  taskId : String
  sessionId : String
  ownerPodId : String
  initialTaskId : String
  countParentTaskIds : Int
  countDataDependencies : Int
  countExpectedOutputIds : Int
  countRetryOfIds : Int
  status : TaskStatus
  statusMessage : String
  options : TaskOptions
  createdAt : Option Proto.Timestamp
  submittedAt : Option Proto.Timestamp
  receivedAt : Option Proto.Timestamp
  acquiredAt : Option Proto.Timestamp
  fetchedAt : Option Proto.Timestamp
  startedAt : Option Proto.Timestamp
  processedAt : Option Proto.Timestamp
  endedAt : Option Proto.Timestamp
  creationToEndDuration : Option Proto.Duration
  processingToEndDuration : Option Proto.Duration
  receivedToEndDuration : Option Proto.Duration
  podTtl : Option Proto.Timestamp
  output : Output
  podHostname : String
  payloadId : String
  createdBy : String
  deriving Repr

/-- `TaskOptions::default`. -/
instance : Inhabited TaskOptions where
  default := {
    options := []
    maxDuration := infiniteDuration
    maxRetries := 1
    priority := 1
    partitionId := ""
    applicationName := ""
    applicationVersion := ""
    applicationNamespace := ""
    applicationService := ""
    engineType := "" }

namespace Summary

/-- Every field is moved as it is, but for three: the status goes by its number, absent
options are the default ones, and of the output there is only a text. -/
def codec : Codec Summary Proto.TaskSummary where
  encode value := {
    id := value.taskId
    sessionId := value.sessionId
    ownerPodId := value.ownerPodId
    initialTaskId := value.initialTaskId
    countParentTaskIds := value.countParentTaskIds
    countDataDependencies := value.countDataDependencies
    countExpectedOutputIds := value.countExpectedOutputIds
    countRetryOfIds := value.countRetryOfIds
    status := value.status.asI32
    statusMessage := value.statusMessage
    options := TaskOptions.codec.option.encode value.options
    createdAt := value.createdAt
    submittedAt := value.submittedAt
    receivedAt := value.receivedAt
    acquiredAt := value.acquiredAt
    fetchedAt := value.fetchedAt
    startedAt := value.startedAt
    processedAt := value.processedAt
    endedAt := value.endedAt
    creationToEndDuration := value.creationToEndDuration
    processingToEndDuration := value.processingToEndDuration
    receivedToEndDuration := value.receivedToEndDuration
    podTtl := value.podTtl
    error := value.output.text
    podHostname := value.podHostname
    payloadId := value.payloadId
    createdBy := value.createdBy }
  decode value := {
    taskId := value.id
    sessionId := value.sessionId
    ownerPodId := value.ownerPodId
    initialTaskId := value.initialTaskId
    countParentTaskIds := value.countParentTaskIds
    countDataDependencies := value.countDataDependencies
    countExpectedOutputIds := value.countExpectedOutputIds
    countRetryOfIds := value.countRetryOfIds
    status := TaskStatus.ofI32 value.status
    statusMessage := value.statusMessage
    options := TaskOptions.codec.option.decode value.options
    createdAt := value.createdAt
    submittedAt := value.submittedAt
    receivedAt := value.receivedAt
    acquiredAt := value.acquiredAt
    fetchedAt := value.fetchedAt
    startedAt := value.startedAt
    processedAt := value.processedAt
    endedAt := value.endedAt
    creationToEndDuration := value.creationToEndDuration
    processingToEndDuration := value.processingToEndDuration
    receivedToEndDuration := value.receivedToEndDuration
    podTtl := value.podTtl
    output := Output.ofText value.error
    podHostname := value.podHostname
    payloadId := value.payloadId
    createdBy := value.createdBy }

/-- All but the output comes back. -/
theorem decode_encode (value : Summary) :
    codec.decode (codec.encode value) =
      { value with output := Output.ofText value.output.text } := by
  have hstatus := TaskStatus.codec_lawful.decode_encode value.status
  calc codec.decode (codec.encode value)
      = { value with
          status := TaskStatus.ofI32 value.status.asI32
          output := Output.ofText value.output.text } := rfl
    _ = _ := congrArg (fun status => { value with
          status := status, output := Output.ofText value.output.text }) hstatus

theorem decode_encode_eq_iff (value : Summary) :
    codec.decode (codec.encode value) = value ↔ value.output ≠ .error "" := by
  rw [decode_encode, ← Output.ofText_text_eq_iff]
  constructor
  · intro h
    exact congrArg output h
  · intro h
    rw [h]

end Summary

/-! ## Raw tasks -/

/-- `tasks::Raw`. -/
structure Raw where
  taskId : String
  sessionId : String
  ownerPodId : String
  initialTaskId : String
  parentTaskIds : List String
  dataDependencies : List String
  expectedOutputIds : List String
  retryOfIds : List String
  status : TaskStatus
  statusMessage : String
  options : TaskOptions
  createdAt : Option Proto.Timestamp
  submittedAt : Option Proto.Timestamp
  receivedAt : Option Proto.Timestamp
  acquiredAt : Option Proto.Timestamp
  fetchedAt : Option Proto.Timestamp
  startedAt : Option Proto.Timestamp
  processedAt : Option Proto.Timestamp
  endedAt : Option Proto.Timestamp
  creationToEndDuration : Option Proto.Duration
  processingToEndDuration : Option Proto.Duration
  receivedToEndDuration : Option Proto.Duration
  podTtl : Option Proto.Timestamp
  output : Output
  podHostname : String
  payloadId : String
  createdBy : String
  deriving Repr

namespace Raw

/-- Every field is moved as it is, but for the status, the options and the output. -/
def codec : Codec Raw Proto.TaskDetailed where
  encode value := {
    id := value.taskId
    sessionId := value.sessionId
    ownerPodId := value.ownerPodId
    initialTaskId := value.initialTaskId
    parentTaskIds := value.parentTaskIds
    dataDependencies := value.dataDependencies
    expectedOutputIds := value.expectedOutputIds
    retryOfIds := value.retryOfIds
    status := value.status.asI32
    statusMessage := value.statusMessage
    options := TaskOptions.codec.option.encode value.options
    createdAt := value.createdAt
    submittedAt := value.submittedAt
    receivedAt := value.receivedAt
    acquiredAt := value.acquiredAt
    fetchedAt := value.fetchedAt
    startedAt := value.startedAt
    processedAt := value.processedAt
    endedAt := value.endedAt
    creationToEndDuration := value.creationToEndDuration
    processingToEndDuration := value.processingToEndDuration
    receivedToEndDuration := value.receivedToEndDuration
    podTtl := value.podTtl
    output := Output.codec.option.encode value.output
    podHostname := value.podHostname
    payloadId := value.payloadId
    createdBy := value.createdBy }
  decode value := {
    taskId := value.id
    sessionId := value.sessionId
    ownerPodId := value.ownerPodId
    initialTaskId := value.initialTaskId
    parentTaskIds := value.parentTaskIds
    dataDependencies := value.dataDependencies
    expectedOutputIds := value.expectedOutputIds
    retryOfIds := value.retryOfIds
    status := TaskStatus.ofI32 value.status
    statusMessage := value.statusMessage
    options := TaskOptions.codec.option.decode value.options
    createdAt := value.createdAt
    submittedAt := value.submittedAt
    receivedAt := value.receivedAt
    acquiredAt := value.acquiredAt
    fetchedAt := value.fetchedAt
    startedAt := value.startedAt
    processedAt := value.processedAt
    endedAt := value.endedAt
    creationToEndDuration := value.creationToEndDuration
    processingToEndDuration := value.processingToEndDuration
    receivedToEndDuration := value.receivedToEndDuration
    podTtl := value.podTtl
    output := Output.codec.option.decode value.output
    podHostname := value.podHostname
    payloadId := value.payloadId
    createdBy := value.createdBy }

theorem decode_encode (value : Raw) : codec.decode (codec.encode value) = value := by
  have hstatus := TaskStatus.codec_lawful.decode_encode value.status
  have houtput := Output.decode_encode value.output
  calc codec.decode (codec.encode value)
      = { value with
          status := TaskStatus.ofI32 value.status.asI32
          output := Output.codec.decode (Output.codec.encode value.output) } := rfl
    _ = { value with status := TaskStatus.ofI32 value.status.asI32 } := by rw [houtput]
    _ = value := congrArg (fun status => { value with status := status }) hstatus

end Raw

/-! ## Both -/

/-- A success or an error is read of the output of a task alike, whether the task
was written in full or as a summary. -/
def OutputsAgree (output : Output) (raw : Raw) (summary : Summary) : Prop :=
  (Raw.codec.decode (Raw.codec.encode { raw with output := output })).output.isSuccess =
    (Summary.codec.decode (Summary.codec.encode { summary with output := output })).output.isSuccess

theorem outputsAgree_iff (output : Output) (raw : Raw) (summary : Summary) :
    OutputsAgree output raw summary ↔ output ≠ .error "" := by
  rw [OutputsAgree, Raw.decode_encode, Summary.decode_encode, Output.ofText_text]
  constructor
  · rintro hagree rfl
    cases hagree
  · intro houtput
    rw [if_neg houtput]

/-- Every raw task comes back.  A summary comes back in all but its output, and
the output, too, unless it is an error without a text: the two messages tell
successes from errors alike for all others. -/
theorem tasks_kept :
    (∀ raw : Raw, Raw.codec.decode (Raw.codec.encode raw) = raw) ∧
    (∀ summary : Summary, Summary.codec.decode (Summary.codec.encode summary) =
      { summary with
        output := if summary.output = .error "" then .success else summary.output }) ∧
    ∀ (output : Output) (raw : Raw) (summary : Summary),
      OutputsAgree output raw summary ↔ output ≠ .error "" := by
  refine ⟨Raw.decode_encode, fun summary => ?_, outputsAgree_iff⟩
  rw [Summary.decode_encode, Output.ofText_text]

/-- A task in which nothing is set but the output. -/
def Summary.ofOutput (output : Output) : Summary where
  taskId := ""
  sessionId := ""
  ownerPodId := ""
  initialTaskId := ""
  countParentTaskIds := 0
  countDataDependencies := 0
  countExpectedOutputIds := 0
  countRetryOfIds := 0
  status := default
  statusMessage := ""
  options := default
  createdAt := none
  submittedAt := none
  receivedAt := none
  acquiredAt := none
  fetchedAt := none
  startedAt := none
  processedAt := none
  endedAt := none
  creationToEndDuration := none
  processingToEndDuration := none
  receivedToEndDuration := none
  podTtl := none
  output := output
  podHostname := ""
  payloadId := ""
  createdBy := ""

/-- A task that has failed without a text is read as a success from its summary,
and as a failure from the full message. -/
theorem summary_loses_error :
    let summary := Summary.ofOutput (.error "")
    Summary.codec.decode (Summary.codec.encode summary) = Summary.ofOutput .success ∧
      Summary.codec.decode (Summary.codec.encode summary) ≠ summary ∧
      ∀ raw, ¬ OutputsAgree (.error "") raw summary := by
  refine ⟨rfl, fun h => ?_, fun raw hagree => ?_⟩
  · exact absurd (congrArg Summary.output h) (by decide)
  · cases hagree

end ArmoniKApi.Rust.Tasks
