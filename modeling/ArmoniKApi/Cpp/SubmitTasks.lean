import ArmoniKApi.Library.Fallible
import ArmoniKApi.Sdks.ChunkLoops
import ArmoniKApi.Sdks.ResultFiles

/-!
# Submitting tasks in C++, and what failed

`submit_tasks_with_dependencies` makes a request of each payload, sends them, and
separates the creation statuses of the reply: the ids of the tasks that were created,
and an id for each task that was not.

A status with an error has no task info, and `task_info()` of such a status is the
empty message.  The ids of the failed tasks are therefore all empty, and with two
payloads or more nobody can tell which of them failed
(`submitTasksWithDependencies_accounts_iff`).

What the caller gets are two lists of ids without positions, so the question is what can be
told from them.  `Accounted` says it without the code: for each payload there is the id of its
task in the first list, or there is an identifier in the second that belongs to this payload
in every reply with as many payloads.

* `foldl_separate` and `returnedIds_eq` compute the two lists: the second one is as long as
  the number of failures, and empty ids are all that is in it.
* `listed_replicate` compares the reply with the one in which everything failed, and
  `accounted_iff` concludes: a failed payload can be told just if it is alone.
* Before that comes the question whether the requests are sent at all.  A size of 0 cuts a
  payload into chunks without end, unless every payload is empty
  (`submitTasksWithDependencies_ends_iff`).
-/

namespace ArmoniKApi.Cpp

open Proto (TaskRequest TaskOptions TaskInfo CreationStatus)
open Proto.Submitter (CreateLargeTaskRequest CreateTaskReply)
open Loop (Returns)

/-- `payload_data`. -/
structure PayloadData where
  keys : String
  payload : Proto.Bytes
  dependencies : List String

/-- The request that is made of a payload. -/
def PayloadData.request (payload : PayloadData) : TaskRequest where
  expectedOutputKeys := [payload.keys]
  dataDependencies := payload.dependencies
  payload := payload.payload

namespace SubmitterClient

/-! ## The code -/

/-- `create_tasks_async`: what is sent, and the reply or the message of the exception.
The size of the chunks is the one of the service configuration. -/
def createTasksAsync (serviceConfiguration : Except Status Int32)
    (reply : Except Status CreateTaskReply) (sessionId : String) (taskOptions : TaskOptions)
    (taskRequests : List TaskRequest) (turns : ℕ) :
    Option (List CreateLargeTaskRequest × Except String CreateTaskReply) :=
  match serviceConfiguration with
  | .error _ => some ([], .error "Fail to get service configuration")
  | .ok dataChunkMaxSize => do
      let fragments ←
        toRequestStream taskRequests sessionId taskOptions (sizeT dataChunkMaxSize.toInt) turns
      let outcome :=
        match reply with
        | .error status =>
            .error ("Error: " ++ toString status.errorCode ++ ": " ++ status.errorMessage ++
              ". details : " ++ status.errorDetails ++ "\n")
        | .ok reply => .ok reply
      return (fragments.flatten, outcome)

/-- `Status_case() == kTaskInfo`. -/
def isTaskInfo (status : CreationStatus) : Bool :=
  match status.status with
  | some (.taskInfo _) => true
  | _ => false

/-- `task_info()`, the empty message if it is not set. -/
def taskInfo (status : CreationStatus) : TaskInfo :=
  match status.status with
  | some (.taskInfo info) => info
  | _ => ⟨"", [], [], ""⟩

/-- The loop over the creation statuses, with `task_ids` and `failed_task_ids`. -/
def separate (creationStatuses : List CreationStatus) : List String × List String :=
  creationStatuses.foldl (fun ids taskCreated =>
    if isTaskInfo taskCreated then (ids.1 ++ [(taskInfo taskCreated).taskId], ids.2)
    else (ids.1, ids.2 ++ [(taskInfo taskCreated).taskId])) ([], [])

/-- `submit_tasks_with_dependencies`, which does not look at `max_retries`. -/
def submitTasksWithDependencies (serviceConfiguration : Except Status Int32)
    (reply : Except Status CreateTaskReply) (sessionId : String) (taskOptions : TaskOptions)
    (payloadsWithDependencies : List PayloadData) (turns : ℕ) :
    Option (List CreateLargeTaskRequest × Except String (List String × List String)) := do
  let requests := payloadsWithDependencies.map PayloadData.request
  let (sent, createTaskReply) ←
    createTasksAsync serviceConfiguration reply sessionId taskOptions requests turns
  let outcome := createTaskReply.bind fun createTaskReply =>
    match createTaskReply.response with
    | none => .error "Issue with Server !"
    | some (.creationStatusList list) => .ok (separate list.creationStatuses)
    | some (.error error) =>
        .error ("Error while creating tasks ! : Error Message : " ++ error ++ "\n")
  return (sent, outcome)

/-! ## The sizes of chunks -/

/-- For empty payloads the size does not matter. -/
theorem toRequestStream_zero_eq_one {taskRequests : List TaskRequest}
    (hempty : ∀ task ∈ taskRequests, task.payload = []) (sessionId : String)
    (taskOptions : TaskOptions) (turns : ℕ) :
    toRequestStream taskRequests sessionId taskOptions 0 turns =
      toRequestStream taskRequests sessionId taskOptions 1 turns := by
  unfold toRequestStream
  congr 1
  refine Fallible.mapM_congr fun entry hentry => ?_
  have hpayload := hempty entry.1 (List.fst_mem_of_mem_zipIdx hentry)
  simp only [taskChunkStream, hpayload, Chunking.cut_nil _ 0 1]

/-- Chunks of no size are cut from a payload without an end. -/
theorem toRequestStream_zero_eq_none {taskRequests : List TaskRequest} {task : TaskRequest}
    (htask : task ∈ taskRequests) (hpayload : task.payload ≠ []) (sessionId : String)
    (taskOptions : TaskOptions) (turns : ℕ) :
    toRequestStream taskRequests sessionId taskOptions 0 turns = none := by
  obtain ⟨i, hi⟩ := List.mem_iff_getElem?.mp htask
  unfold toRequestStream
  rw [Fallible.mapM_eq_none (List.mk_mem_zipIdx_iff_getElem?.mpr hi)
    (taskChunkStream_zero_eq_none hpayload _ turns)]
  rfl

/-- Else the stream ends, and says the tasks. -/
theorem toRequestStream_read (taskRequests : List TaskRequest) (sessionId : String)
    (taskOptions : TaskOptions) {chunkMaxSize : ℕ} (hsize : 1 ≤ chunkMaxSize) :
    ∃ fragments, Returns (toRequestStream taskRequests sessionId taskOptions chunkMaxSize)
        fragments ∧
      Proto.readStream 1 (fragments.flatten.map CreateLargeTaskRequest.type) =
        some (⟨sessionId, some taskOptions⟩, taskRequests) := by
  obtain ⟨fragments, hreturns, hmessages⟩ :=
    returns_toRequestStream taskRequests sessionId taskOptions hsize
  refine ⟨fragments, hreturns, ?_⟩
  have hstream := Proto.isTaskStream_streamOf
    (⟨sessionId, some taskOptions⟩ : Proto.Submitter.InitRequest)
    (Proto.streamFrames_payloadChunks hsize taskRequests)
  rw [hmessages, List.map_map]
  exact (congrArg (Proto.readStream 1) (List.map_id _)).trans hstream.read

/-! ## What the caller can tell -/

/-- The reply with these statuses. -/
def replyOf (statuses : List CreationStatus.OneOf) : CreateTaskReply :=
  ⟨some (.creationStatusList ⟨statuses.map fun status => ⟨some status⟩⟩)⟩

/-- The ids that are returned for these statuses. -/
def returnedIds (statuses : List CreationStatus.OneOf) : List String × List String :=
  separate (statuses.map fun status => ⟨some status⟩)

/-- The id of the task, if it was created. -/
def createdId : CreationStatus.OneOf → Option String
  | .taskInfo info => some info.taskId
  | .error _ => none

/-- The positions of the payloads that failed. -/
def failedAt (statuses : List CreationStatus.OneOf) : List ℕ :=
  (statuses.zipIdx.filter fun entry => (createdId entry.1).isNone).map Prod.snd

/-- The payload at a position is listed as failed, under an identifier. -/
def Listed (statuses : List CreationStatus.OneOf) (failed : List String) (i : ℕ) (id : String) :
    Prop :=
  (i, id) ∈ (failedAt statuses).zip failed

/-- Every payload is accounted for: its task by the id, or the payload by an identifier
that is never given to another payload of so many. -/
structure Accounted (statuses : List CreationStatus.OneOf) (created failed : List String) :
    Prop where
  created_eq : created = statuses.filterMap createdId
  length_failed : failed.length = (failedAt statuses).length
  identified : ∀ i id, Listed statuses failed i id →
    ∀ others, others.length = statuses.length →
      ∀ j, Listed others (returnedIds others).2 j id → j = i

/-- The loop puts each status on one side, and finds no id in an error. -/
theorem foldl_separate (statuses : List CreationStatus.OneOf) (ids : List String × List String) :
    (statuses.map fun status => (⟨some status⟩ : CreationStatus)).foldl (fun ids taskCreated =>
      if isTaskInfo taskCreated then (ids.1 ++ [(taskInfo taskCreated).taskId], ids.2)
      else (ids.1, ids.2 ++ [(taskInfo taskCreated).taskId])) ids =
    (ids.1 ++ statuses.filterMap createdId,
      ids.2 ++ (statuses.filter fun status => (createdId status).isNone).map fun _ => "") := by
  induction statuses generalizing ids with
  | nil => simp
  | cons status rest ih =>
      rw [List.map_cons, List.foldl_cons, ih]
      cases status with
      | taskInfo info => simp [isTaskInfo, taskInfo, createdId]
      | error error =>
          have hnone : createdId (.error error) = none := rfl
          simp [isTaskInfo, taskInfo, List.filterMap_cons_none hnone, hnone]

/-- The ids of the tasks that were created, and an empty id for each that was not. -/
theorem returnedIds_eq (statuses : List CreationStatus.OneOf) :
    returnedIds statuses =
      (statuses.filterMap createdId, (failedAt statuses).map fun _ => "") := by
  have hfilter : statuses.filter (fun status => (createdId status).isNone) =
      (statuses.zipIdx.filter fun entry => (createdId entry.1).isNone).map Prod.fst := by
    conv_lhs => rw [← List.zipIdx_map_fst 0 statuses, List.filter_map]
    rfl
  rw [returnedIds, separate, foldl_separate, hfilter, failedAt, List.map_map, List.map_map]
  rfl

theorem listed_iff {statuses : List CreationStatus.OneOf} {i : ℕ} {id : String} :
    Listed statuses (returnedIds statuses).2 i id ↔ i ∈ failedAt statuses ∧ id = "" := by
  have hzip := List.zip_map' (l := failedAt statuses) (f := fun i => i) (g := fun _ => "")
  rw [List.map_id'] at hzip
  rw [Listed, returnedIds_eq, hzip, List.mem_map]
  constructor
  · rintro ⟨j, hj, ⟨⟩⟩
    exact ⟨hj, rfl⟩
  · rintro ⟨hi, rfl⟩
    exact ⟨i, hi, rfl⟩

theorem mem_failedAt_iff {statuses : List CreationStatus.OneOf} {i : ℕ} :
    i ∈ failedAt statuses ↔ ∃ error, statuses[i]? = some (.error error) := by
  simp only [failedAt, List.mem_map, List.mem_filter, List.mem_zipIdx_iff_getElem?]
  constructor
  · rintro ⟨⟨status, j⟩, ⟨hstatus, hnone⟩, rfl⟩
    cases status with
    | taskInfo info => cases hnone
    | error error => exact ⟨error, hstatus⟩
  · rintro ⟨error, hstatus⟩
    exact ⟨(.error error, i), ⟨hstatus, rfl⟩, rfl⟩

/-- When all the payloads fail, each of them is listed under the empty identifier. -/
theorem listed_replicate (error : String) {n i : ℕ} (hi : i < n) :
    Listed (List.replicate n (.error error)) (returnedIds (List.replicate n (.error error))).2 i
      "" :=
  listed_iff.mpr ⟨mem_failedAt_iff.mpr ⟨error, List.getElem?_replicate_of_lt hi⟩, rfl⟩

/-- A failed payload is told from the others only if there are no others. -/
theorem accounted_iff (statuses : List CreationStatus.OneOf) :
    Accounted statuses (returnedIds statuses).1 (returnedIds statuses).2 ↔
      (∀ status ∈ statuses, ∃ info, status = .taskInfo info) ∨ statuses.length = 1 := by
  constructor
  · rintro ⟨-, -, hidentified⟩
    by_contra hnot
    rw [not_or] at hnot
    obtain ⟨hfail, hmany⟩ := hnot
    push Not at hfail
    obtain ⟨status, hmem, hstatus⟩ := hfail
    obtain ⟨i, hi⟩ := List.mem_iff_getElem?.mp hmem
    obtain ⟨error, rfl⟩ : ∃ error, status = .error error := by
      cases status with
      | taskInfo info => exact absurd rfl (hstatus info)
      | error error => exact ⟨error, rfl⟩
    have hlisted := listed_iff.mpr ⟨mem_failedAt_iff.mpr ⟨error, hi⟩, rfl⟩
    obtain ⟨hlt, -⟩ := List.getElem?_eq_some_iff.mp hi
    -- in another reply all of them fail
    have hother (j : ℕ) (hj : j < statuses.length) : j = i :=
      hidentified i "" hlisted _ List.length_replicate j (listed_replicate error hj)
    have hzero := hother 0 (by omega)
    have hone := hother 1 (by omega)
    omega
  · intro hcases
    refine ⟨by rw [returnedIds_eq], by rw [returnedIds_eq, List.length_map], ?_⟩
    intro i id hlisted others hlength j hother
    obtain ⟨error, hi⟩ := mem_failedAt_iff.mp (listed_iff.mp hlisted).1
    obtain ⟨_, hj⟩ := mem_failedAt_iff.mp (listed_iff.mp hother).1
    obtain ⟨hltj, -⟩ := List.getElem?_eq_some_iff.mp hj
    obtain ⟨hlti, -⟩ := List.getElem?_eq_some_iff.mp hi
    rcases hcases with hall | hone
    · obtain ⟨info, hinfo⟩ := hall _ (List.mem_of_getElem? hi)
      cases hinfo
    · omega

/-! ## Every payload is accounted for -/

/-- With these statuses the result is decided, and only the stream may not end. -/
theorem submitTasksWithDependencies_eq (chunk : Int32) (statuses : List CreationStatus.OneOf)
    (sessionId : String) (taskOptions : TaskOptions) (payloads : List PayloadData) (turns : ℕ) :
    submitTasksWithDependencies (.ok chunk) (.ok (replyOf statuses)) sessionId taskOptions
        payloads turns =
      (toRequestStream (payloads.map PayloadData.request) sessionId taskOptions
        (sizeT chunk.toInt) turns).bind fun fragments =>
          some (fragments.flatten, .ok (returnedIds statuses)) := by
  unfold submitTasksWithDependencies createTasksAsync
  dsimp only
  cases toRequestStream (payloads.map PayloadData.request) sessionId taskOptions
    (sizeT chunk.toInt) turns <;> rfl

theorem returnedIds_of_returns {chunk : Int32} {statuses : List CreationStatus.OneOf}
    {sessionId : String} {taskOptions : TaskOptions} {payloads : List PayloadData}
    {sent : List CreateLargeTaskRequest} {ids : List String × List String}
    (hreturns : Returns (submitTasksWithDependencies (.ok chunk) (.ok (replyOf statuses))
      sessionId taskOptions payloads) (sent, .ok ids)) : ids = returnedIds statuses := by
  obtain ⟨least, hleast⟩ := hreturns
  have hresult := hleast least (Nat.le_refl least)
  rw [submitTasksWithDependencies_eq, Option.bind_eq_some_iff] at hresult
  obtain ⟨_, -, hsame⟩ := hresult
  exact (Except.ok.inj (congrArg Prod.snd (Option.some.inj hsame))).symm

/-- The requests say the payloads exactly if the size of the chunks is not 0, or there is
nothing to cut. -/
theorem submitTasksWithDependencies_ends_iff (chunk : Int32)
    (statuses : List CreationStatus.OneOf) (sessionId : String) (taskOptions : TaskOptions)
    (payloads : List PayloadData) :
    (∃ result, Returns (submitTasksWithDependencies (.ok chunk) (.ok (replyOf statuses)) sessionId
          taskOptions payloads) result ∧
        Proto.readStream 1 (result.1.map CreateLargeTaskRequest.type) =
            some (⟨sessionId, some taskOptions⟩, payloads.map PayloadData.request) ∧
          result.2 = .ok (returnedIds statuses)) ↔
      (payloads.map PayloadData.payload).flatten = [] ∨ chunk.toInt ≠ 0 := by
  have hempty : (payloads.map PayloadData.payload).flatten = [] ↔
      ∀ task ∈ payloads.map PayloadData.request, task.payload = [] := by
    simp [PayloadData.request]
  -- the rule for loops over a payload, with all payloads as one
  let program (size turns : ℕ) :=
    (toRequestStream (payloads.map PayloadData.request) sessionId taskOptions size turns).bind
      fun fragments => some (fragments.flatten, Except.ok (ε := String) (returnedIds statuses))
  have hprogram : submitTasksWithDependencies (.ok chunk) (.ok (replyOf statuses)) sessionId
      taskOptions payloads = program (sizeT chunk.toInt) :=
    funext (submitTasksWithDependencies_eq chunk statuses sessionId taskOptions payloads)
  rw [hprogram]
  refine ends_iff_of_sizes program ?_ ?_ ?_ chunk
  · intro size hsize
    obtain ⟨fragments, hreturns, hread⟩ :=
      toRequestStream_read (payloads.map PayloadData.request) sessionId taskOptions hsize
    exact ⟨_, hreturns.bind (Loop.returns_pure _), hread, rfl⟩
  · intro hnil
    funext turns
    exact congrArg (Option.bind · _)
      (toRequestStream_zero_eq_one (hempty.mp hnil) sessionId taskOptions turns)
  · intro hsome turns
    obtain ⟨task, htask, hpayload⟩ : ∃ task ∈ payloads.map PayloadData.request,
        task.payload ≠ [] := by
      by_contra hnone
      push Not at hnone
      exact hsome (hempty.mpr hnone)
    exact congrArg (Option.bind · _)
      (toRequestStream_zero_eq_none htask hpayload sessionId taskOptions turns)

/-- Every payload is sent and accounted for exactly if the loop over the payloads ends, and
no payload failed or there is only one. -/
theorem submitTasksWithDependencies_accounts_iff (chunk : Int32) (sessionId : String)
    (taskOptions : TaskOptions) {payloads : List PayloadData}
    {statuses : List CreationStatus.OneOf} (hlength : statuses.length = payloads.length) :
    (∃ sent created failed,
        Returns (submitTasksWithDependencies (.ok chunk) (.ok (replyOf statuses)) sessionId
          taskOptions payloads) (sent, .ok (created, failed)) ∧
        Proto.readStream 1 (sent.map CreateLargeTaskRequest.type) =
          some (⟨sessionId, some taskOptions⟩, payloads.map PayloadData.request) ∧
        Accounted statuses created failed) ↔
      ((payloads.map PayloadData.payload).flatten = [] ∨ chunk.toInt ≠ 0) ∧
        ((∀ status ∈ statuses, ∃ info, status = .taskInfo info) ∨ payloads.length = 1) := by
  rw [← hlength, ← accounted_iff, ← submitTasksWithDependencies_ends_iff chunk statuses sessionId
    taskOptions payloads]
  constructor
  · rintro ⟨sent, created, failed, hreturns, hread, haccounted⟩
    have hids := returnedIds_of_returns hreturns
    refine ⟨⟨(sent, .ok (created, failed)), hreturns, hread, congrArg Except.ok hids⟩, ?_⟩
    rw [← hids]
    exact haccounted
  · rintro ⟨⟨⟨sent, _⟩, hreturns, hread, rfl⟩, haccounted⟩
    exact ⟨sent, _, _, hreturns, hread, haccounted⟩

theorem submitTasksWithDependencies_accounts_created :
    ∃ sent created failed,
      Returns (submitTasksWithDependencies (.ok 2)
          (.ok (replyOf [.taskInfo ⟨"first", [], [], ""⟩, .taskInfo ⟨"second", [], [], ""⟩]))
          "session" default [⟨"a", [1, 2, 3], ["input"]⟩, ⟨"b", [], []⟩])
        (sent, .ok (created, failed)) ∧
      Proto.readStream 1 (sent.map CreateLargeTaskRequest.type) =
        some (⟨"session", some default⟩,
          [⟨"a", [1, 2, 3], ["input"]⟩, ⟨"b", [], []⟩].map PayloadData.request) ∧
      Accounted [.taskInfo ⟨"first", [], [], ""⟩, .taskInfo ⟨"second", [], [], ""⟩]
        created failed :=
  (submitTasksWithDependencies_accounts_iff 2 "session" default rfl).mpr
    ⟨.inr (by decide), .inl (by simp)⟩

/-- Whichever of two payloads failed, the same is returned. -/
theorem submitTasksWithDependencies_loses_failed :
    returnedIds [.taskInfo ⟨"task", [], [], ""⟩, .error "full"] =
        returnedIds [.error "full", .taskInfo ⟨"task", [], [], ""⟩] ∧
      ¬∃ sent created failed,
        Returns (submitTasksWithDependencies (.ok 2)
            (.ok (replyOf [.taskInfo ⟨"task", [], [], ""⟩, .error "full"]))
            "session" default [⟨"a", [1], []⟩, ⟨"b", [2], []⟩])
          (sent, .ok (created, failed)) ∧
        Accounted [.taskInfo ⟨"task", [], [], ""⟩, .error "full"] created failed := by
  refine ⟨by decide, ?_⟩
  rintro ⟨sent, created, failed, hreturns, haccounted⟩
  have hids := returnedIds_of_returns hreturns
  have hiff := accounted_iff [.taskInfo ⟨"task", [], [], ""⟩, .error "full"]
  rw [← hids] at hiff
  rcases hiff.mp haccounted with hall | hone
  · obtain ⟨info, hinfo⟩ := hall (.error "full") (by simp)
    cases hinfo
  · cases hone

end SubmitterClient

end ArmoniKApi.Cpp
