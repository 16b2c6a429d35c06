import ArmoniKApi.Library.Fallible
import ArmoniKApi.Proto.CreateTasks
import ArmoniKApi.Python.WaitForResults
import Mathlib.Data.List.Forall2

/-!
# Submitting tasks in Python

`ArmoniKTasks.submit_tasks` of the client and `TaskHandler.submit_tasks` of the
worker cut the definitions into batches, send a request for each and make tasks
of the answers.  They run the same loop, and differ in two places.

* The client gives the options of a definition to the constructor of the message.
  The worker assigns them to a field of the message, which protobuf refuses.
* The client takes the payload id of a task from the answer.  The worker takes
  its own payload id.

`worker_submitTasks_iff` says for which definitions the worker still does what it
is to do.

## The loop

`submitBatches` is the loop of both, with three functions as parameters: `creation` for a
definition, `request` for the creations of a batch, and `task` for an answer.  Each of them
can raise, and then the call ends with what has been sent so far.

The other side is a function of the requests before and the request at hand, so it may
answer the same request differently each time.  All that is asked of it is `Answers`: there
is a task info for each creation, in order, and it repeats what is in the creation.

## Strategy

* `submitBatches_ok` and `submitBatches_eq_ok` are the two directions for the loop: what it
  does when everything can be converted, and what must have been converted if it raises
  nothing.  Both are by induction on the batches.
* `creation_ok_iff` says that the worker converts a definition only if it has no options,
  since the assignment of a message to a field always raises.
* `TaskHandler.conditions_of_returns` and `TaskHandler.submitTasks_returns` put these
  together, one for each direction of `worker_submitTasks_iff`.
-/

namespace ArmoniKApi.Python

open Fallible
open Proto (TaskCreation)
open Proto.SubmitTasksResponse (TaskInfo)

/-! ## Definitions and tasks -/

/-- `TaskOptions`.  The length of `max_duration` is in microseconds, and `options`
are the items of the dictionary. -/
structure TaskOptions where
  maxDuration : Int
  priority : Int
  maxRetries : Int
  partitionId : Option String
  applicationName : Option String
  applicationVersion : Option String
  applicationNamespace : Option String
  applicationService : Option String
  engineType : Option String
  options : List (String × String)

/-- `to_message`.  Numbers that do not fit are refused, and `None` leaves a field
empty. -/
def TaskOptions.toMessage (self : TaskOptions) : PyResult Proto.TaskOptions :=
  if inInt32 self.maxRetries ∧ inInt32 self.priority then
    return {
      options := self.options
      maxDuration := some (timedeltaToDuration self.maxDuration)
      maxRetries := self.maxRetries
      priority := self.priority
      partitionId := self.partitionId.getD ""
      applicationName := self.applicationName.getD ""
      applicationVersion := self.applicationVersion.getD ""
      applicationNamespace := self.applicationNamespace.getD ""
      applicationService := self.applicationService.getD ""
      engineType := self.engineType.getD "" }
  else
    throw .valueError

/-- `options.to_message() if options else None`. -/
def optionsMessage : Option TaskOptions → PyResult (Option Proto.TaskOptions)
  | none => return none
  | some options => do return some (← options.toMessage)

/-- `TaskDefinition`, whose `__post_init__` asks for an expected output. -/
structure TaskDefinition where
  payloadId : String
  expectedOutputIds : List String
  dataDependencies : List String
  options : Option TaskOptions
  expectsOutput : expectedOutputIds ≠ []

/-- The attributes of `Task` that a submission sets. -/
structure Task where
  id : String
  sessionId : String
  expectedOutputIds : List String
  dataDependencies : List String
  payloadId : String
  deriving DecidableEq, Repr

/-! ## The loop over the batches -/

/-- The other side answers a request, given those it has had before. -/
abbrev SubmitTasks (Request : Type) := List Request → Request → PyResult (List TaskInfo)

/-- What has been sent and answered, and what the call comes to. -/
structure Submission (Request : Type) where
  sent : List Request
  taskInfos : List TaskInfo
  outcome : PyResult (List Task)

variable {Request : Type}

/-- The loop, with what is made of a definition, of the creations of a batch, and
of an answer. -/
def submitBatches (creation : TaskDefinition → PyResult TaskCreation)
    (request : List TaskCreation → PyResult Request) (task : TaskInfo → Task)
    (submitTasks : SubmitTasks Request) :
    List Request → List TaskInfo → List Task → List (List TaskDefinition) → Submission Request
  | sent, taskInfos, submitted, [] => ⟨sent, taskInfos, .ok submitted⟩
  | sent, taskInfos, submitted, batch :: rest =>
      match (do request (← batch.mapM creation)) with
      | .error error => ⟨sent, taskInfos, .error error⟩
      | .ok message =>
          match submitTasks sent message with
          | .error error => ⟨sent ++ [message], taskInfos, .error error⟩
          | .ok infos =>
              submitBatches creation request task submitTasks (sent ++ [message])
                (taskInfos ++ infos) (submitted ++ infos.map task) rest

/-! ## The client -/

namespace ArmoniKTasks

/-- The `TaskCreation` that is made of a definition. -/
def creation (t : TaskDefinition) : PyResult TaskCreation := do
  return {
    expectedOutputKeys := t.expectedOutputIds
    payloadId := t.payloadId
    dataDependencies := t.dataDependencies
    taskOptions := ← optionsMessage t.options }

/-- The request that is made of a batch. -/
def request (sessionId : String) (defaultTaskOptions : Option TaskOptions)
    (taskCreations : List TaskCreation) : PyResult Proto.SubmitTasksRequest := do
  return {
    sessionId := sessionId
    taskCreations := taskCreations
    taskOptions := ← optionsMessage defaultTaskOptions }

/-- The `Task` that is made of a task info. -/
def task (sessionId : String) (t : TaskInfo) : Task where
  id := t.taskId
  sessionId := sessionId
  expectedOutputIds := t.expectedOutputIds
  dataDependencies := t.dataDependencies
  payloadId := t.payloadId

/-- `ArmoniKTasks.submit_tasks`. -/
def submitTasks (client : SubmitTasks Proto.SubmitTasksRequest) (sessionId : String)
    (tasks : List TaskDefinition) (defaultTaskOptions : Option TaskOptions) (chunkSize : ℕ) :
    Submission Proto.SubmitTasksRequest :=
  submitBatches creation (request sessionId defaultTaskOptions) (task sessionId) client [] [] []
    (batched tasks chunkSize)

end ArmoniKTasks

/-! ## The worker -/

/-- The attributes of a `TaskHandler` that a submission uses. -/
structure TaskHandler where
  sessionId : String
  token : String
  payloadId : String

namespace TaskHandler

variable (self : TaskHandler)

/-- `message.field = value` for a field that holds a message: protobuf refuses it,
after the value was computed. -/
def assignMessage {M V : Type} (_message : M) (value : PyResult V) : PyResult M := do
  let _ ← value
  throw .attributeError

/-- The `TaskCreation` that is made of a definition, to which the options are assigned
afterwards. -/
def creation (t : TaskDefinition) : PyResult TaskCreation :=
  let taskCreation : TaskCreation := {
    expectedOutputKeys := t.expectedOutputIds
    payloadId := t.payloadId
    dataDependencies := t.dataDependencies
    taskOptions := none }
  match t.options with
  | none => return taskCreation
  | some options => assignMessage taskCreation options.toMessage

/-- The request that is made of a batch, with the session and the token of the handler. -/
def request (defaultTaskOptions : Option TaskOptions) (taskCreations : List TaskCreation) :
    PyResult Proto.Agent.SubmitTasksRequest := do
  return {
    sessionId := self.sessionId
    communicationToken := self.token
    taskCreations := taskCreations
    taskOptions := ← optionsMessage defaultTaskOptions }

/-- The payload id is that of the handler. -/
def task (t : TaskInfo) : Task where
  id := t.taskId
  expectedOutputIds := t.expectedOutputIds
  dataDependencies := t.dataDependencies
  sessionId := self.sessionId
  payloadId := self.payloadId

/-- `TaskHandler.submit_tasks`. -/
def submitTasks (agent : SubmitTasks Proto.Agent.SubmitTasksRequest) (tasks : List TaskDefinition)
    (defaultTaskOptions : Option TaskOptions) (batchSize : ℕ) :
    Submission Proto.Agent.SubmitTasksRequest :=
  submitBatches creation (self.request defaultTaskOptions) self.task agent [] [] []
    (batched tasks batchSize)

end TaskHandler

/-! ## What the loop does -/

/-- The task info repeats what is in the creation. -/
structure Echoes (creation : TaskCreation) (info : TaskInfo) : Prop where
  expectedOutputIds : info.expectedOutputIds = creation.expectedOutputKeys
  dataDependencies : info.dataDependencies = creation.dataDependencies
  payloadId : info.payloadId = creation.payloadId

/-- Every request is answered with a task info for each creation, in order. -/
def Answers (creations : Request → List TaskCreation) (submitTasks : SubmitTasks Request) : Prop :=
  ∀ earlier request, ∃ infos, submitTasks earlier request = .ok infos ∧
    List.Forall₂ Echoes (creations request) infos

section Loop

variable {creation : TaskDefinition → PyResult TaskCreation}
  {request : List TaskCreation → PyResult Request} {task : TaskInfo → Task}
  {submitTasks : SubmitTasks Request} {creations : Request → List TaskCreation}

variable (task) in
/-- When all definitions and all batches can be converted, the creations of all
definitions are sent, and a task is made of the answer to each. -/
theorem submitBatches_ok {created : TaskDefinition → TaskCreation}
    (hanswers : Answers creations submitTasks)
    (hrequest : ∀ batch, ∃ message, request batch = .ok message ∧ creations message = batch)
    {batches : List (List TaskDefinition)}
    (hcreation : ∀ t ∈ batches.flatten, creation t = .ok (created t))
    (sent : List Request) (taskInfos : List TaskInfo) (submitted : List Task) :
    ∃ messages infos,
      submitBatches creation request task submitTasks sent taskInfos submitted batches =
        ⟨sent ++ messages, taskInfos ++ infos, .ok (submitted ++ infos.map task)⟩ ∧
      messages.flatMap creations = batches.flatten.map created ∧
      List.Forall₂ Echoes (batches.flatten.map created) infos := by
  induction batches generalizing sent taskInfos submitted with
  | nil => exact ⟨[], [], by simp [submitBatches], rfl, .nil⟩
  -- the batch is converted, sent and answered, and then the others are
  | cons batch rest ih =>
      rw [List.flatten_cons, List.forall_mem_append] at hcreation
      have hbatch : batch.mapM creation = .ok (batch.map created) := by
        have hmap := mapM_map_eq_ok (g := id) hcreation.1
        rwa [List.map_id] at hmap
      obtain ⟨message, hmessage, hsent⟩ := hrequest (batch.map created)
      obtain ⟨answer, hanswer, hechoes⟩ := hanswers sent message
      obtain ⟨messages, infos, hrun, hall, hrest⟩ := ih hcreation.2 (sent ++ [message])
        (taskInfos ++ answer) (submitted ++ answer.map task)
      refine ⟨message :: messages, answer ++ infos, ?_, ?_, ?_⟩
      · have hconvert : (do request (← batch.mapM creation)) = .ok message := by
          rw [hbatch]
          exact hmessage
        rw [submitBatches, hconvert]
        simp only [hanswer, hrun, List.append_assoc, List.singleton_append, List.map_append]
      · rw [List.flatMap_cons, hsent, hall, List.flatten_cons, List.map_append]
      · rw [hsent] at hechoes
        rw [List.flatten_cons, List.map_append]
        exact List.rel_append hechoes hrest

/-- When the loop raises nothing, all definitions were converted, and a batch if
there was one; and the tasks were made of answers. -/
theorem submitBatches_eq_ok {batches : List (List TaskDefinition)} {sent : List Request}
    {taskInfos : List TaskInfo} {submitted result : List Task}
    (hok : (submitBatches creation request task submitTasks sent taskInfos submitted
      batches).outcome = .ok result) :
    (∀ t ∈ batches.flatten, ∃ taskCreation, creation t = .ok taskCreation) ∧
      (batches ≠ [] → ∃ taskCreations message, request taskCreations = .ok message) ∧
      ∃ infos : List TaskInfo, result = submitted ++ infos.map task := by
  induction batches generalizing sent taskInfos submitted with
  | nil =>
      cases hok
      exact ⟨by simp, fun hne => absurd rfl hne, [], (List.append_nil _).symm⟩
  | cons batch rest ih =>
      rw [submitBatches] at hok
      split at hok
      case h_1 => cases hok
      case h_2 message hconvert =>
        obtain ⟨taskCreations, hbatch, hmessage⟩ := bind_eq_ok hconvert
        split at hok
        case h_1 => cases hok
        case h_2 answer hanswer =>
          obtain ⟨hrest, -, infos, hinfos⟩ := ih hok
          refine ⟨?_, fun _ => ⟨taskCreations, message, hmessage⟩, answer ++ infos, ?_⟩
          · rw [List.flatten_cons, List.forall_mem_append]
            exact ⟨exists_of_mapM_eq_ok hbatch, hrest⟩
          · rw [hinfos, List.map_append, List.append_assoc]

end Loop

/-! ## When the worker submits what it is to submit -/

/-- The numbers of the options fit in their fields. -/
def TaskOptions.Fits (self : TaskOptions) : Prop := inInt32 self.maxRetries ∧ inInt32 self.priority

theorem TaskOptions.toMessage_ok_iff (self : TaskOptions) :
    (∃ message, self.toMessage = .ok message) ↔ self.Fits := by
  unfold TaskOptions.toMessage TaskOptions.Fits
  split
  · rename_i hfits
    exact ⟨fun _ => hfits, fun _ => ⟨_, rfl⟩⟩
  · rename_i hfits
    exact ⟨fun ⟨_, hok⟩ => (by cases hok), fun h => absurd h hfits⟩

theorem optionsMessage_ok_iff (options : Option TaskOptions) :
    (∃ message, optionsMessage options = .ok message) ↔ ∀ given ∈ options, given.Fits := by
  cases options with
  | none => exact ⟨fun _ given hgiven => (by cases hgiven), fun _ => ⟨none, rfl⟩⟩
  | some options =>
      constructor
      · rintro ⟨message, hok⟩ given hgiven
        cases hgiven
        obtain ⟨sent, hsent, -⟩ := bind_eq_ok hok
        exact options.toMessage_ok_iff.mp ⟨sent, hsent⟩
      · intro hfits
        obtain ⟨sent, hsent⟩ := options.toMessage_ok_iff.mpr (hfits options rfl)
        refine ⟨some sent, ?_⟩
        show (do return some (← options.toMessage)) = _
        rw [hsent]
        rfl

/-- The task is that of the definition. -/
structure TaskDefinition.Describes (t : TaskDefinition) (task : Task) : Prop where
  expectedOutputIds : task.expectedOutputIds = t.expectedOutputIds
  dataDependencies : task.dataDependencies = t.dataDependencies
  payloadId : task.payloadId = t.payloadId

/-- The call raises nothing, and returns a task for each definition, in order, with
the ids of the answers. -/
def Submission.Returns (submission : Submission Request) (tasks : List TaskDefinition) : Prop :=
  ∃ submitted, submission.outcome = .ok submitted ∧
    submitted.map Task.id = submission.taskInfos.map TaskInfo.taskId ∧
    List.Forall₂ TaskDefinition.Describes tasks submitted

/-- The creation of a definition without options. -/
def TaskDefinition.plain (t : TaskDefinition) : TaskCreation :=
  ⟨t.expectedOutputIds, t.dataDependencies, t.payloadId, none⟩

theorem flatten_batched {α : Type} (items : List α) (n : ℕ) : (batched items n).flatten = items :=
  flatten_batchedFrom n [] items

theorem batched_ne_nil {α : Type} {items : List α} (hitems : items ≠ []) (n : ℕ) :
    batched items n ≠ [] := by
  intro hnil
  have hflatten := flatten_batched items n
  rw [hnil] at hflatten
  exact hitems hflatten.symm

namespace TaskHandler

variable {self : TaskHandler} {agent : SubmitTasks Proto.Agent.SubmitTasksRequest}
  {tasks : List TaskDefinition} {defaultTaskOptions : Option TaskOptions} {batchSize : ℕ}

theorem creation_ok_iff (t : TaskDefinition) :
    (∃ taskCreation, creation t = .ok taskCreation) ↔ t.options = none := by
  unfold creation
  cases t.options with
  | none => exact ⟨fun _ => rfl, fun _ => ⟨_, rfl⟩⟩
  | some options =>
      refine ⟨fun ⟨taskCreation, hok⟩ => ?_, fun h => (by cases h)⟩
      unfold assignMessage at hok
      obtain ⟨message, -, hok⟩ := bind_eq_ok hok
      cases hok

theorem creation_of_options_none {t : TaskDefinition} (hoptions : t.options = none) :
    creation t = .ok t.plain := by
  unfold creation
  rw [hoptions]
  rfl

/-- What the definitions are like if the worker does what it is to do. -/
theorem conditions_of_returns
    (hreturns : (self.submitTasks agent tasks defaultTaskOptions batchSize).Returns tasks) :
    (∀ t ∈ tasks, t.options = none ∧ t.payloadId = self.payloadId) ∧
      (tasks ≠ [] → ∀ given ∈ defaultTaskOptions, given.Fits) := by
  obtain ⟨submitted, hok, -, hdescribes⟩ := hreturns
  obtain ⟨hcreated, hrequest, infos, hinfos⟩ := submitBatches_eq_ok hok
  rw [flatten_batched] at hcreated
  rw [hinfos, List.nil_append, List.forall₂_map_right_iff] at hdescribes
  have hpayload : List.Forall₂ (fun t info => t.payloadId = self.payloadId ∧
      t.Describes (self.task info)) tasks infos :=
    hdescribes.imp fun _ _ h => ⟨h.payloadId.symm, h⟩
  refine ⟨fun t ht => ⟨(creation_ok_iff t).mp (hcreated t ht), ?_⟩, fun hne => ?_⟩
  · exact ((List.forall₂_and_left ..).mp hpayload).1 t ht
  · obtain ⟨taskCreations, message, hmessage⟩ := hrequest (batched_ne_nil hne batchSize)
    obtain ⟨options, hoptions, -⟩ := bind_eq_ok hmessage
    exact (optionsMessage_ok_iff _).mp ⟨options, hoptions⟩

theorem request_ok (self : TaskHandler) (hfits : ∀ given ∈ defaultTaskOptions, given.Fits)
    (batch : List TaskCreation) :
    ∃ message, self.request defaultTaskOptions batch = .ok message ∧
      message.taskCreations = batch := by
  obtain ⟨options, hoptions⟩ := (optionsMessage_ok_iff _).mpr hfits
  unfold request
  rw [hoptions]
  exact ⟨_, rfl, rfl⟩

/-- When the definitions carry no options and the payload id of the task, the worker
does what it is to do. -/
theorem submitTasks_returns (hagent : Answers (·.taskCreations) agent)
    (hfits : ∀ given ∈ defaultTaskOptions, given.Fits)
    (htasks : ∀ t ∈ tasks, t.options = none ∧ t.payloadId = self.payloadId) :
    (self.submitTasks agent tasks defaultTaskOptions batchSize).Returns tasks ∧
      (self.submitTasks agent tasks defaultTaskOptions batchSize).sent.flatMap
        (·.taskCreations) = tasks.map TaskDefinition.plain := by
  have hcreation : ∀ t ∈ (batched tasks batchSize).flatten, creation t = .ok t.plain := by
    rw [flatten_batched]
    exact fun t ht => creation_of_options_none (htasks t ht).1
  obtain ⟨messages, infos, hrun, hsent, hechoes⟩ :=
    submitBatches_ok self.task hagent (request_ok self hfits) hcreation [] [] []
  rw [flatten_batched] at hsent hechoes
  unfold submitTasks
  rw [hrun]
  refine ⟨⟨infos.map self.task, rfl, by simp [task], ?_⟩, hsent⟩
  rw [List.forall₂_map_left_iff] at hechoes
  rw [List.forall₂_map_right_iff]
  have hpayload : List.Forall₂ (fun t info => (t.options = none ∧ t.payloadId = self.payloadId) ∧
      Echoes t.plain info) tasks infos := (List.forall₂_and_left ..).mpr ⟨htasks, hechoes⟩
  exact hpayload.imp fun t info h =>
    ⟨h.2.expectedOutputIds, h.2.dataDependencies, h.1.2.symm⟩

end TaskHandler

namespace ArmoniKTasks

variable {client : SubmitTasks Proto.SubmitTasksRequest} {tasks : List TaskDefinition}
  {defaultTaskOptions : Option TaskOptions}

theorem creation_of_options_none {t : TaskDefinition} (hoptions : t.options = none) :
    creation t = .ok t.plain := by
  unfold creation
  rw [hoptions]
  rfl

theorem request_ok (sessionId : String) (hfits : ∀ given ∈ defaultTaskOptions, given.Fits)
    (batch : List TaskCreation) :
    ∃ message, request sessionId defaultTaskOptions batch = .ok message ∧
      message.taskCreations = batch := by
  obtain ⟨options, hoptions⟩ := (optionsMessage_ok_iff _).mpr hfits
  unfold request
  rw [hoptions]
  exact ⟨_, rfl, rfl⟩

/-- What the client sends for definitions without options. -/
theorem sent_submitTasks (hclient : Answers (·.taskCreations) client)
    (hfits : ∀ given ∈ defaultTaskOptions, given.Fits)
    (htasks : ∀ t ∈ tasks, t.options = none) (sessionId : String) (chunkSize : ℕ) :
    (submitTasks client sessionId tasks defaultTaskOptions chunkSize).sent.flatMap
      (·.taskCreations) = tasks.map TaskDefinition.plain := by
  have hcreation : ∀ t ∈ (batched tasks chunkSize).flatten, creation t = .ok t.plain := by
    rw [flatten_batched]
    exact fun t ht => creation_of_options_none (htasks t ht)
  obtain ⟨messages, infos, hrun, hsent, -⟩ := submitBatches_ok (task sessionId) hclient
    (request_ok sessionId hfits) hcreation [] [] []
  rw [flatten_batched] at hsent
  unfold submitTasks
  rw [hrun]
  exact hsent

end ArmoniKTasks

/-- The worker returns the tasks of the definitions and sends the creations that
the client sends exactly when there is nothing to submit, or the default options
fit, no definition has options of its own and all have the payload of the task. -/
theorem worker_submitTasks_iff (self : TaskHandler)
    {agent : SubmitTasks Proto.Agent.SubmitTasksRequest}
    (hagent : Answers (·.taskCreations) agent)
    {client : SubmitTasks Proto.SubmitTasksRequest}
    (hclient : Answers (·.taskCreations) client) (sessionId : String)
    (tasks : List TaskDefinition) (defaultTaskOptions : Option TaskOptions)
    (batchSize chunkSize : ℕ) :
    ((self.submitTasks agent tasks defaultTaskOptions batchSize).Returns tasks ∧
      (self.submitTasks agent tasks defaultTaskOptions batchSize).sent.flatMap
          (·.taskCreations) =
        (ArmoniKTasks.submitTasks client sessionId tasks defaultTaskOptions
          chunkSize).sent.flatMap (·.taskCreations)) ↔
      tasks = [] ∨ (∀ given ∈ defaultTaskOptions, given.Fits) ∧
        ∀ t ∈ tasks, t.options = none ∧ t.payloadId = self.payloadId := by
  constructor
  · rintro ⟨hreturns, -⟩
    obtain ⟨htasks, hfits⟩ := TaskHandler.conditions_of_returns hreturns
    by_cases hnil : tasks = []
    · exact Or.inl hnil
    · exact Or.inr ⟨hfits hnil, htasks⟩
  · rintro (rfl | ⟨hfits, htasks⟩)
    · exact ⟨⟨[], rfl, rfl, .nil⟩, rfl⟩
    · obtain ⟨hreturns, hsent⟩ := TaskHandler.submitTasks_returns hagent hfits htasks
      refine ⟨hreturns, hsent.trans ?_⟩
      exact (ArmoniKTasks.sent_submitTasks hclient hfits (fun t ht => (htasks t ht).1) sessionId
        chunkSize).symm

/-! ## Two submissions -/

/-- An agent, or a service, that repeats every creation. -/
def echo (creations : Request → List TaskCreation) : SubmitTasks Request :=
  fun _ request => .ok ((creations request).map fun creation => {
    taskId := creation.payloadId ++ " task"
    expectedOutputIds := creation.expectedOutputKeys
    dataDependencies := creation.dataDependencies
    payloadId := creation.payloadId })

theorem answers_echo (creations : Request → List TaskCreation) :
    Answers creations (echo creations) := by
  intro earlier request
  refine ⟨_, rfl, ?_⟩
  rw [List.forall₂_map_right_iff]
  exact List.forall₂_same.mpr fun _ _ => ⟨rfl, rfl, rfl⟩

/-- A definition for the handler of the payload `"in"`. -/
def sampleDefinition (payloadId output : String) (options : Option TaskOptions) :
    TaskDefinition where
  payloadId := payloadId
  expectedOutputIds := [output]
  dataDependencies := []
  options := options
  expectsOutput := List.cons_ne_nil _ _

/-- A handler. -/
def sampleHandler : TaskHandler := ⟨"session", "token", "in"⟩

/-- Options with three of the numbers set. -/
def sampleOptions : TaskOptions :=
  ⟨60000000, 1, 2, none, none, none, none, none, none, []⟩

/-- Two definitions in two batches. -/
theorem worker_submitTasks_iff_sample :
    (sampleHandler.submitTasks (echo (·.taskCreations))
        [sampleDefinition "in" "a" none, sampleDefinition "in" "b" none]
        (some sampleOptions) 1).Returns
      [sampleDefinition "in" "a" none, sampleDefinition "in" "b" none] := by
  refine ((worker_submitTasks_iff sampleHandler (answers_echo _)
    (answers_echo Proto.SubmitTasksRequest.taskCreations) "session" _ (some sampleOptions) 1
      100).mpr (Or.inr ⟨?_, ?_⟩)).1
  · rintro given ⟨⟩
    exact ⟨by decide, by decide⟩
  · intro t ht
    simp only [List.mem_cons, List.not_mem_nil, or_false] at ht
    rcases ht with rfl | rfl
    · exact ⟨rfl, rfl⟩
    · exact ⟨rfl, rfl⟩

/-- A definition with a payload of its own comes back with the payload of the
handler, and one with options is not submitted at all. -/
theorem worker_submitTasks_loses :
    ¬(sampleHandler.submitTasks (echo (·.taskCreations)) [sampleDefinition "other" "a" none]
        none 100).Returns [sampleDefinition "other" "a" none] ∧
      (sampleHandler.submitTasks (echo (·.taskCreations)) [sampleDefinition "other" "a" none]
        none 100).outcome = .ok [⟨"other task", "session", ["a"], [], "in"⟩] ∧
      (sampleHandler.submitTasks (echo (·.taskCreations))
        [sampleDefinition "in" "a" (some sampleOptions)] none 100).outcome =
          .error .attributeError := by
  refine ⟨?_, rfl, rfl⟩
  intro hreturns
  have hpayload := (TaskHandler.conditions_of_returns hreturns).1 _ List.mem_cons_self
  exact absurd hpayload.2 (by decide)

end ArmoniKApi.Python
