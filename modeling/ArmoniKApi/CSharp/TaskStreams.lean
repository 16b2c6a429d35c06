import ArmoniKApi.Proto.TaskStream

/-!
# Streams of task requests in C#

`SubmitterClientExt.ToRequestStream` and `TaskRequestExtensions.ToRequestStream`
are iterators.  Each looks one task ahead to know the last one, and each has its
own iterator for the messages of a task.  The client sends an empty chunk for an
empty payload, and checks for cancellation between the messages; the worker does
neither.

So the worker sends no chunk at all for an empty payload, and the two streams
are the same exactly when there is none (`streams_agree_iff`).

An iterator that is one task ahead yields the messages of a task when it knows whether another
one follows.  `lookahead` is this loop for both iterators, and `returns_lookahead` runs it once
for all: the messages of the tasks one after the other, with the mark for the last one at the
end.

```text
                      client                    worker
empty payload         one empty chunk           no chunk
cancellation          checked three ways        not checked
token                 none                      on every message
```

The client's checks are numbered within a task and answered by a parameter.  Here all answers
are no (`never`); what happens otherwise is in `CSharp.CancelledStreams`.

`ReadBack` holds whatever the payloads are, since no chunk at all makes up an empty payload as
well.  Agreement message by message does not: the number of messages tells the streams apart
(`same_iff`).
-/

namespace ArmoniKApi.CSharp

open Proto (TaskRequest TaskOptions TaskFrame InitTaskRequest payloadChunks taskFrames streamOf
  readStream)
open Proto.Agent (CreateTaskRequest)
open Proto.Submitter (CreateLargeTaskRequest)
open Chunking (chunks)

variable {M : Type}

/-! ## Looking ahead -/

/-- The loop over the enumerator of the tasks, and the task after it: `stream`
yields the messages of the task at a position, `current` is the task read last
and the list holds those that `MoveNext` has still to find. -/
def lookahead (stream : ℕ → TaskRequest → Bool → ℕ → Option (List M)) (turns : ℕ) :
    ℕ → TaskRequest → List TaskRequest → Option (List M)
  | position, currentRequest, [] => stream position currentRequest true turns
  | position, currentRequest, next :: rest => do
      let yielded ← stream position currentRequest false turns
      let others ← lookahead stream turns (position + 1) next rest
      return yielded ++ others

theorem returns_lookahead {stream : ℕ → TaskRequest → Bool → ℕ → Option (List M)}
    {cut : Proto.Bytes → List Proto.Bytes} {message : TaskFrame → M}
    (hstream : ∀ position task isLast, Loop.Returns (stream position task isLast)
      ((taskFrames cut task isLast).map message))
    (position : ℕ) (current : TaskRequest) (rest : List TaskRequest) :
    Loop.Returns (fun turns => lookahead stream turns position current rest)
      ((Framing.streamFrames cut ((current :: rest).map TaskRequest.item)).map message) := by
  induction rest generalizing position current with
  | nil => exact hstream position current true
  | cons next rest ih =>
      have hcurrent := hstream position current false
      rw [taskFrames, if_neg Bool.false_ne_true, List.append_nil] at hcurrent
      have hothers := (ih (position + 1) next).bind
        (g := fun _ others => some ((Framing.itemFrames cut current.item).map message ++ others))
        (Loop.returns_pure _)
      have hreturns := hcurrent.bind
        (g := fun turns yielded => (lookahead stream turns (position + 1) next rest).bind
          fun others => some (yielded ++ others)) hothers
      rw [← List.map_append] at hreturns
      exact hreturns

/-! ## The client -/

namespace SubmitterClientExt

/-- The variables of the loop over a payload; `checks` counts the checks for
cancellation so far. -/
structure Vars where
  start : ℕ
  checks : ℕ
  yielded : List CreateLargeTaskRequest

/-- One turn of the loop over a payload.  The loop is left by `yield break`
(`error`) or by its condition. -/
def turn (isCancellationRequested : ℕ → Bool) (chunkMaxSize : ℕ) (payload : Proto.Bytes)
    (vars : Vars) :
    Loop.Turn Vars (Except (List CreateLargeTaskRequest) (ℕ × List CreateLargeTaskRequest)) :=
  if vars.start < payload.length then
    if isCancellationRequested vars.checks then .leave (.error vars.yielded)
    else
      .again {
        start := vars.start + min chunkMaxSize (payload.length - vars.start)
        checks := vars.checks + 1
        yielded := vars.yielded ++
          [⟨some (.taskPayload ⟨some (.data (Chunking.slice chunkMaxSize payload vars.start))⟩)⟩] }
  else .leave (.ok (vars.checks, vars.yielded))

/-- `ToRequestStream` of a task.  `isCancellationRequested n` is what the check
number `n` answers. -/
def toRequestStreamOfTask (taskRequest : TaskRequest) (isLast : Bool) (chunkMaxSize : ℕ)
    (isCancellationRequested : ℕ → Bool) (turns : ℕ) : Option (List CreateLargeTaskRequest) := do
  let header : InitTaskRequest :=
    ⟨some (.header ⟨taskRequest.expectedOutputKeys, taskRequest.dataDependencies⟩)⟩
  let yielded : List CreateLargeTaskRequest := [⟨some (.initTask header)⟩]
  if isCancellationRequested 0 then return yielded
  let yielded :=
    if taskRequest.payload.isEmpty then
      yielded ++ [⟨some (.taskPayload ⟨some (.data [])⟩)⟩]
    else yielded
  match ← Loop.run (turn isCancellationRequested chunkMaxSize taskRequest.payload) turns
      ⟨0, 1, yielded⟩ with
  | .error yielded => return yielded
  | .ok (checks, yielded) =>
      if isCancellationRequested checks then return yielded
      let yielded := yielded ++ [⟨some (.taskPayload ⟨some (.dataComplete true)⟩)⟩]
      return if isLast then yielded ++ [⟨some (.initTask ⟨some (.lastTask true)⟩)⟩] else yielded

/-- `ToRequestStream` of the tasks.  `isCancellationRequested i n` is what the
check number `n` answers in the messages of task `i`. -/
def toRequestStream (taskRequests : List TaskRequest) (sessionId : String)
    (taskOptions : Option TaskOptions) (chunkMaxSize : ℕ)
    (isCancellationRequested : ℕ → ℕ → Bool) (turns : ℕ) :
    Option (List CreateLargeTaskRequest) := do
  let init : CreateLargeTaskRequest := ⟨some (.initRequest ⟨sessionId, taskOptions⟩)⟩
  match taskRequests with
  | [] => return [init]
  | currentRequest :: rest =>
      let yielded ← lookahead (fun i task isLast =>
        toRequestStreamOfTask task isLast chunkMaxSize (isCancellationRequested i)) turns 0
        currentRequest rest
      return init :: yielded

/-- No check is answered by a request for cancellation. -/
def never : ℕ → Bool := fun _ => false

/-- The message of a frame. -/
def ofFrame (frame : TaskFrame) : CreateLargeTaskRequest := ⟨some (.ofFrame frame)⟩

/-- Without cancellation the loop yields the chunks, and makes one check for
each. -/
theorem returns_turn {chunkMaxSize : ℕ} (hsize : 1 ≤ chunkMaxSize) (payload : Proto.Bytes)
    (yielded : List CreateLargeTaskRequest) :
    Loop.Returns (fun turns => Loop.run (turn never chunkMaxSize payload) turns ⟨0, 1, yielded⟩)
      (.ok (1 + (chunks chunkMaxSize payload).length,
        yielded ++ (chunks chunkMaxSize payload).map fun chunk => ofFrame (.data chunk))) := by
  -- the chunks that are left to yield, and the checks that are left to make
  let left (vars : Vars) : List Proto.Bytes := chunks chunkMaxSize (payload.drop vars.start)
  apply Loop.returns_run
    (fun vars => vars.checks + (left vars).length = 1 + (chunks chunkMaxSize payload).length ∧
      vars.yielded ++ (left vars).map (fun chunk => ofFrame (.data chunk)) =
        yielded ++ (chunks chunkMaxSize payload).map fun chunk => ofFrame (.data chunk))
    (fun vars => payload.length - vars.start)
  · rintro vars ⟨hchecks, hyielded⟩
    by_cases hstart : vars.start < payload.length
    · have hleft : left vars = Chunking.slice chunkMaxSize payload vars.start :: _ :=
        Chunking.chunks_drop hsize hstart
      rw [hleft] at hchecks hyielded
      refine Or.inl ⟨_, if_pos hstart, ⟨?_, ?_⟩, by dsimp only; omega⟩
      · rw [List.length_cons, ← Nat.add_assoc, Nat.add_right_comm] at hchecks
        exact hchecks
      · rw [← hyielded, List.append_assoc]
        rfl
    · have hleft : left vars = [] := Chunking.chunks_drop_of_le (Nat.le_of_not_lt hstart)
      rw [hleft] at hchecks hyielded
      refine Or.inr ((if_neg hstart).trans ?_)
      rw [← hchecks, ← hyielded, List.map_nil, List.append_nil]
      rfl
  · exact ⟨rfl, rfl⟩

theorem returns_toRequestStreamOfTask (taskRequest : TaskRequest) (isLast : Bool)
    {chunkMaxSize : ℕ} (hsize : 1 ≤ chunkMaxSize) :
    Loop.Returns (toRequestStreamOfTask taskRequest isLast chunkMaxSize never)
      ((taskFrames (payloadChunks chunkMaxSize) taskRequest isLast).map ofFrame) := by
  have hloop := returns_turn hsize taskRequest.payload
    (if taskRequest.payload.isEmpty then
      [ofFrame (.header taskRequest.item.header)] ++ [ofFrame (.data [])]
    else [ofFrame (.header taskRequest.item.header)])
  rw [Proto.map_taskFrames]
  exact hloop.bind (Loop.returns_pure _)

/-- Without cancellation the stream is the frames of the tasks. -/
theorem returns_toRequestStream (taskRequests : List TaskRequest) (sessionId : String)
    (taskOptions : Option TaskOptions) {chunkMaxSize : ℕ} (hsize : 1 ≤ chunkMaxSize) :
    Loop.Returns
      (toRequestStream taskRequests sessionId taskOptions chunkMaxSize fun _ => never)
      ((streamOf ⟨sessionId, taskOptions⟩ (Framing.streamFrames (payloadChunks chunkMaxSize)
        (taskRequests.map TaskRequest.item))).map CreateLargeTaskRequest.mk) := by
  cases taskRequests with
  | nil => exact Loop.returns_pure _
  | cons currentRequest rest =>
      have hlookahead := returns_lookahead
        (fun _ task isLast => returns_toRequestStreamOfTask task isLast hsize) 0 currentRequest rest
      unfold streamOf
      rw [List.map_cons, List.map_map]
      exact hlookahead.bind (Loop.returns_pure _)

end SubmitterClientExt

/-! ## The worker -/

namespace TaskRequestExtensions

/-- `ToRequestStream` of a task. -/
def toRequestStreamOfTask (taskRequest : TaskRequest) (isLast : Bool) (token : String)
    (chunkMaxSize : ℕ) (turns : ℕ) : Option (List CreateTaskRequest) := do
  let header : InitTaskRequest :=
    ⟨some (.header ⟨taskRequest.expectedOutputKeys, taskRequest.dataDependencies⟩)⟩
  let yielded : List CreateTaskRequest := [⟨token, some (.initTask header)⟩]
  let yielded ← Loop.run
    (Chunking.cut (fun chunk => ⟨token, some (.taskPayload ⟨some (.data chunk)⟩)⟩) chunkMaxSize
      taskRequest.payload) turns ⟨0, yielded⟩
  let yielded := yielded ++ [⟨token, some (.taskPayload ⟨some (.dataComplete true)⟩)⟩]
  return if isLast then
      yielded ++ [⟨token, some (.initTask ⟨some (.lastTask true)⟩)⟩]
    else yielded

/-- `ToRequestStream` of the tasks. -/
def toRequestStream (taskRequests : List TaskRequest) (taskOptions : Option TaskOptions)
    (token : String) (chunkMaxSize : ℕ) (turns : ℕ) : Option (List CreateTaskRequest) := do
  let init : CreateTaskRequest :=
    match taskOptions with
    | some taskOptions => ⟨token, some (.initRequest ⟨some taskOptions⟩)⟩
    | none => ⟨token, some (.initRequest ⟨none⟩)⟩
  match taskRequests with
  | [] => return [init]
  | currentRequest :: rest =>
      let yielded ← lookahead (fun _ task isLast =>
        toRequestStreamOfTask task isLast token chunkMaxSize) turns 0 currentRequest rest
      return init :: yielded

/-- The message of a frame. -/
def ofFrame (token : String) (frame : TaskFrame) : CreateTaskRequest :=
  ⟨token, some (.ofFrame frame)⟩

/-- No chunk is sent for an empty payload. -/
theorem returns_toRequestStreamOfTask (taskRequest : TaskRequest) (isLast : Bool)
    (token : String) {chunkMaxSize : ℕ} (hsize : 1 ≤ chunkMaxSize) :
    Loop.Returns (toRequestStreamOfTask taskRequest isLast token chunkMaxSize)
      ((taskFrames (chunks chunkMaxSize) taskRequest isLast).map (ofFrame token)) := by
  have hloop := Chunking.returns_cut (fun chunk => ofFrame token (.data chunk)) hsize
    taskRequest.payload [ofFrame token (.header taskRequest.item.header)]
  have hframes : (taskFrames (chunks chunkMaxSize) taskRequest isLast).map (ofFrame token) =
      let yielded := [ofFrame token (.header taskRequest.item.header)] ++
        (chunks chunkMaxSize taskRequest.payload).map (fun chunk => ofFrame token (.data chunk)) ++
        [ofFrame token .complete]
      if isLast then yielded ++ [ofFrame token .last] else yielded := by
    unfold taskFrames Framing.itemFrames
    cases isLast <;> simp [Function.comp_def] <;> rfl
  rw [hframes]
  exact hloop.bind (Loop.returns_pure _)

theorem returns_toRequestStream (taskRequests : List TaskRequest)
    (taskOptions : Option TaskOptions) (token : String) {chunkMaxSize : ℕ}
    (hsize : 1 ≤ chunkMaxSize) :
    Loop.Returns (toRequestStream taskRequests taskOptions token chunkMaxSize)
      ((streamOf ⟨taskOptions⟩ (Framing.streamFrames (chunks chunkMaxSize)
        (taskRequests.map TaskRequest.item))).map (CreateTaskRequest.mk token)) := by
  cases taskRequests with
  | nil => cases taskOptions <;> exact Loop.returns_pure _
  | cons currentRequest rest =>
      have hlookahead := returns_lookahead
        (fun _ task isLast => returns_toRequestStreamOfTask task isLast token hsize) 0
        currentRequest rest
      unfold streamOf
      rw [List.map_cons, List.map_map]
      cases taskOptions <;> exact hlookahead.bind (Loop.returns_pure _)

end TaskRequestExtensions

/-! ## The two streams -/

/-- The token is on every message of the worker, and both streams are read back to
the tasks. -/
structure ReadBack (taskRequests : List TaskRequest) (sessionId token : String)
    (taskOptions : Option TaskOptions) (client : List CreateLargeTaskRequest)
    (worker : List CreateTaskRequest) : Prop where
  token : ∀ message ∈ worker, message.communicationToken = token
  readClient : readStream 0 (client.map CreateLargeTaskRequest.type) =
    some (⟨sessionId, taskOptions⟩, taskRequests)
  readWorker : readStream 0 (worker.map CreateTaskRequest.type) =
    some (⟨taskOptions⟩, taskRequests)

/-- The two streams are the same message by message but for the session id and the
token, and both are read back. -/
structure Agree (taskRequests : List TaskRequest) (sessionId token : String)
    (taskOptions : Option TaskOptions) (client : List CreateLargeTaskRequest)
    (worker : List CreateTaskRequest) : Prop
    extends ReadBack taskRequests sessionId token taskOptions client worker where
  same : worker.map CreateTaskRequest.withoutToken =
    client.map CreateLargeTaskRequest.withoutSession

/-- A stream of frames is read back when the chunks make up the payloads. -/
theorem readStream_streamOf {I : Type} (init : I) {cut : Proto.Bytes → List Proto.Bytes}
    {size : ℕ} (hflatten : ∀ payload, (cut payload).flatten = payload)
    (hlength : ∀ payload, ∀ chunk ∈ cut payload, chunk.length ≤ size)
    (taskRequests : List TaskRequest) :
    readStream 0 (streamOf init (Framing.streamFrames cut (taskRequests.map TaskRequest.item))) =
      some (init, taskRequests) :=
  (Proto.isTaskStream_streamOf init
    (Framing.streamFrames_grammar cut hflatten (fun _ => Nat.zero_le _) hlength _)).read

theorem same_iff (taskRequests : List TaskRequest) (sessionId token : String)
    (taskOptions : Option TaskOptions) (chunkMaxSize : ℕ) :
    let items := taskRequests.map TaskRequest.item
    let worker := (streamOf ⟨taskOptions⟩ (Framing.streamFrames (chunks chunkMaxSize) items)).map
      (CreateTaskRequest.mk token)
    let client := (streamOf ⟨sessionId, taskOptions⟩
      (Framing.streamFrames (payloadChunks chunkMaxSize) items)).map CreateLargeTaskRequest.mk
    worker.map CreateTaskRequest.withoutToken = client.map CreateLargeTaskRequest.withoutSession ↔
      ∀ task ∈ taskRequests, task.payload ≠ [] := by
  intro items worker client
  have hworker : worker.map CreateTaskRequest.withoutToken =
      streamOf ⟨taskOptions⟩ (Framing.streamFrames (chunks chunkMaxSize) items) := by
    rw [List.map_map]
    exact List.map_id _
  have hclient : client.map CreateLargeTaskRequest.withoutSession =
      streamOf ⟨taskOptions⟩ (Framing.streamFrames (payloadChunks chunkMaxSize) items) := by
    rw [List.map_map]
    exact Proto.map_mapInit_streamOf Proto.Submitter.InitRequest.withoutSession
      ⟨sessionId, taskOptions⟩ _
  rw [hworker, hclient]
  constructor
  -- the client has one frame more for each empty payload
  · intro hsame task htask hempty
    have hlength := congrArg List.length hsame
    simp only [streamOf, List.length_cons, List.length_map, items] at hlength
    rw [Proto.length_streamFrames_payloadChunks] at hlength
    have hcount : taskRequests.countP (fun task => task.payload.isEmpty) = 0 := by omega
    exact List.countP_eq_zero.mp hcount task htask (List.isEmpty_iff.mpr hempty)
  · intro hpayloads
    refine congrArg (streamOf _) (Framing.streamFrames_congr fun item hitem => ?_)
    obtain ⟨task, htask, rfl⟩ := List.mem_map.mp hitem
    exact (Proto.payloadChunks_of_ne_nil chunkMaxSize (hpayloads task htask)).symm

/-- Whatever the payloads, the token is on every message and both streams are read
back: an empty payload is what no chunk at all makes up, too. -/
theorem readBack (taskRequests : List TaskRequest) (sessionId token : String)
    (taskOptions : Option TaskOptions) {chunkMaxSize : ℕ} (hsize : 1 ≤ chunkMaxSize) :
    let items := taskRequests.map TaskRequest.item
    ReadBack taskRequests sessionId token taskOptions
      ((streamOf ⟨sessionId, taskOptions⟩
        (Framing.streamFrames (payloadChunks chunkMaxSize) items)).map CreateLargeTaskRequest.mk)
      ((streamOf ⟨taskOptions⟩ (Framing.streamFrames (chunks chunkMaxSize) items)).map
        (CreateTaskRequest.mk token)) where
  token := by
    intro message hmessage
    obtain ⟨type, -, rfl⟩ := List.mem_map.mp hmessage
    rfl
  readClient := by
    rw [List.map_map]
    exact (congrArg (readStream 0) (List.map_id _)).trans (readStream_streamOf _
      (Proto.flatten_payloadChunks chunkMaxSize) (Proto.length_le_of_mem_payloadChunks hsize)
      taskRequests)
  readWorker := by
    rw [List.map_map]
    exact (congrArg (readStream 0) (List.map_id _)).trans (readStream_streamOf _
      (Chunking.flatten_chunks chunkMaxSize)
      (fun _ _ => Chunking.length_le_of_mem_chunks hsize) taskRequests)

/-- Both streams are produced, with the token on every message of the worker, and
both are read back to the tasks.  They agree message by message exactly when no
payload is empty. -/
theorem streams_agree_iff (taskRequests : List TaskRequest) (sessionId token : String)
    (taskOptions : Option TaskOptions) {chunkMaxSize : ℕ} (hsize : 1 ≤ chunkMaxSize) :
    ∃ client worker,
      Loop.Returns (SubmitterClientExt.toRequestStream taskRequests sessionId taskOptions
        chunkMaxSize fun _ => SubmitterClientExt.never) client ∧
      Loop.Returns (TaskRequestExtensions.toRequestStream taskRequests taskOptions token
        chunkMaxSize) worker ∧
      ReadBack taskRequests sessionId token taskOptions client worker ∧
      (Agree taskRequests sessionId token taskOptions client worker ↔
        ∀ task ∈ taskRequests, task.payload ≠ []) := by
  refine ⟨_, _, SubmitterClientExt.returns_toRequestStream taskRequests sessionId taskOptions hsize,
    TaskRequestExtensions.returns_toRequestStream taskRequests taskOptions token hsize,
    readBack taskRequests sessionId token taskOptions hsize, ?_⟩
  have hsame := same_iff taskRequests sessionId token taskOptions chunkMaxSize
  exact ⟨fun hagree => hsame.mp hagree.same,
    fun hpayloads => ⟨readBack taskRequests sessionId token taskOptions hsize,
      hsame.mpr hpayloads⟩⟩

/-- Two tasks with payloads of two chunks and of one. -/
def twoPayloads : List TaskRequest := [⟨["result"], [], [1, 2]⟩, ⟨[], ["result"], [3]⟩]

theorem streams_agree_of_payload :
    ∃ client worker,
      Loop.Returns (SubmitterClientExt.toRequestStream twoPayloads "session" none 1
        fun _ => SubmitterClientExt.never) client ∧
      Loop.Returns (TaskRequestExtensions.toRequestStream twoPayloads none "token" 1) worker ∧
      Agree twoPayloads "session" "token" none client worker := by
  obtain ⟨client, worker, hclient, hworker, -, hiff⟩ :=
    streams_agree_iff twoPayloads "session" "token" none (Nat.le_refl 1)
  exact ⟨client, worker, hclient, hworker, hiff.mpr (by decide)⟩

/-- For a task with an empty payload the client sends a message more. -/
theorem streams_differ_on_empty_payload :
    ∃ client worker,
      Loop.Returns (SubmitterClientExt.toRequestStream [⟨[], [], []⟩] "session" none 1
        fun _ => SubmitterClientExt.never) client ∧
      Loop.Returns (TaskRequestExtensions.toRequestStream [⟨[], [], []⟩] none "token" 1) worker ∧
      client.length = 5 ∧ worker.length = 4 ∧
      ¬ Agree [⟨[], [], []⟩] "session" "token" none client worker := by
  refine ⟨_, _, SubmitterClientExt.returns_toRequestStream _ _ _ (Nat.le_refl 1),
    TaskRequestExtensions.returns_toRequestStream _ _ _ (Nat.le_refl 1), ?_, ?_, fun hagree => ?_⟩
  · rfl
  · simp [streamOf, Framing.streamFrames, Framing.itemFrames, Chunking.chunks_nil,
      TaskRequest.item]
  · exact (same_iff [⟨[], [], []⟩] "session" "token" none 1).mp hagree.same _
      (List.mem_singleton_self _) rfl

end ArmoniKApi.CSharp
