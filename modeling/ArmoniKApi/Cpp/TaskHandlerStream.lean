import ArmoniKApi.Cpp.SubmitterClient

/-!
# Creating tasks from a C++ worker

`TaskHandler::to_request_stream` is a copy of the client's function with the
agent's messages: the init request has no session, and every message carries
the communication token of the worker.  The two streams are the same otherwise
(`taskHandler_stream_agrees`).

The proof is that of the client with another wrapping of the frames, and agreement is not
shown by comparing the two functions.  Both are shown to be the frames of the same tasks, cut
in the same way; `map_mapInit_streamOf` of `Proto.TaskStream` exchanges the message that starts
the stream, and what the two wrappings add is taken off again.
-/

namespace ArmoniKApi.Cpp

open Proto (TaskRequest TaskOptions TaskFrame InitTaskRequest payloadChunks taskFrames streamOf)
open Proto.Agent (CreateTaskRequest)
open Proto.Submitter (CreateLargeTaskRequest)

namespace TaskHandler

/-! ## The fragments -/

/-- `task_chunk_stream`. -/
def taskChunkStream (taskRequest : TaskRequest) (isLast : Bool) (token : String)
    (chunkMaxSize : ℕ) (turns : ℕ) : Option (List CreateTaskRequest) := do
  let headerTaskRequest : InitTaskRequest :=
    ⟨some (.header ⟨taskRequest.expectedOutputKeys, taskRequest.dataDependencies⟩)⟩
  let requests : List CreateTaskRequest := [⟨token, some (.initTask headerTaskRequest)⟩]
  let requests :=
    if taskRequest.payload.isEmpty then
      requests ++ [⟨token, some (.taskPayload ⟨some (.data [])⟩)⟩]
    else requests
  let requests ← Loop.run
    (Chunking.cut (fun chunk => ⟨token, some (.taskPayload ⟨some (.data chunk)⟩)⟩) chunkMaxSize
      taskRequest.payload) turns ⟨0, requests⟩
  let requests := requests ++ [⟨token, some (.taskPayload ⟨some (.dataComplete true)⟩)⟩]
  return if isLast then
      requests ++ [⟨token, some (.initTask ⟨some (.lastTask true)⟩)⟩]
    else requests

/-- `to_request_stream`. -/
def toRequestStream (taskRequests : List TaskRequest) (taskOptions : TaskOptions)
    (token : String) (chunkMaxSize : ℕ) (turns : ℕ) : Option (List (List CreateTaskRequest)) := do
  let fragments ← taskRequests.zipIdx.mapM fun entry =>
    taskChunkStream entry.1 (entry.2 == taskRequests.length - 1) token chunkMaxSize turns
  return [⟨token, some (.initRequest ⟨some taskOptions⟩)⟩] :: fragments

/-! ## What they say -/

/-- The message of a frame. -/
def ofFrame (token : String) (frame : TaskFrame) : CreateTaskRequest :=
  ⟨token, some (.ofFrame frame)⟩

theorem returns_taskChunkStream (taskRequest : TaskRequest) (isLast : Bool) (token : String)
    {chunkMaxSize : ℕ} (hsize : 1 ≤ chunkMaxSize) :
    Loop.Returns (taskChunkStream taskRequest isLast token chunkMaxSize)
      ((taskFrames (payloadChunks chunkMaxSize) taskRequest isLast).map (ofFrame token)) := by
  have hloop := Chunking.returns_cut (fun chunk => ofFrame token (.data chunk)) hsize
    taskRequest.payload
    (if taskRequest.payload.isEmpty then
      [ofFrame token (.header taskRequest.item.header)] ++ [ofFrame token (.data [])]
    else [ofFrame token (.header taskRequest.item.header)])
  rw [Proto.map_taskFrames]
  exact hloop.bind (Loop.returns_pure _)

/-- The fragments are the frames of the tasks, each with the token. -/
theorem returns_toRequestStream (taskRequests : List TaskRequest) (taskOptions : TaskOptions)
    (token : String) {chunkMaxSize : ℕ} (hsize : 1 ≤ chunkMaxSize) :
    ∃ fragments, Loop.Returns (toRequestStream taskRequests taskOptions token chunkMaxSize)
        fragments ∧
      fragments.flatten =
        (streamOf ⟨some taskOptions⟩ (Framing.streamFrames (payloadChunks chunkMaxSize)
          (taskRequests.map TaskRequest.item))).map (CreateTaskRequest.mk token) := by
  have hfragments := Loop.Returns.mapM
    fun (entry : TaskRequest × ℕ) (_ : entry ∈ taskRequests.zipIdx) =>
      returns_taskChunkStream entry.1 (entry.2 == taskRequests.length - 1) token hsize
  refine ⟨_, hfragments.bind (Loop.returns_pure _), ?_⟩
  exact Proto.flatten_fragments (CreateTaskRequest.mk token) _ (payloadChunks chunkMaxSize)
    taskRequests

/-! ## The two copies -/

/-- Both streams are produced, and are the same message by message but for the
token and the session id; the worker's messages all carry the token. -/
theorem taskHandler_stream_agrees (taskRequests : List TaskRequest) (taskOptions : TaskOptions)
    (sessionId token : String) {chunkMaxSize : ℕ} (hsize : 1 ≤ chunkMaxSize) :
    ∃ worker client,
      Loop.Returns (toRequestStream taskRequests taskOptions token chunkMaxSize) worker ∧
      Loop.Returns
        (SubmitterClient.toRequestStream taskRequests sessionId taskOptions chunkMaxSize) client ∧
      worker.flatten.map CreateTaskRequest.withoutToken =
        client.flatten.map CreateLargeTaskRequest.withoutSession ∧
      ∀ message ∈ worker.flatten, message.communicationToken = token := by
  obtain ⟨worker, hworker, hmessages⟩ :=
    returns_toRequestStream taskRequests taskOptions token hsize
  obtain ⟨client, hclient, htypes⟩ :=
    SubmitterClient.returns_toRequestStream taskRequests sessionId taskOptions hsize
  refine ⟨worker, client, hworker, hclient, ?_, ?_⟩
  · calc worker.flatten.map CreateTaskRequest.withoutToken
        = streamOf ⟨some taskOptions⟩ _ := by
          rw [hmessages, List.map_map]
          exact List.map_id _
      _ = client.flatten.map CreateLargeTaskRequest.withoutSession := by
          rw [htypes, List.map_map]
          exact (Proto.map_mapInit_streamOf Proto.Submitter.InitRequest.withoutSession
            ⟨sessionId, some taskOptions⟩ _).symm
  · intro message hmessage
    rw [hmessages] at hmessage
    obtain ⟨type, -, rfl⟩ := List.mem_map.mp hmessage
    rfl

/-- A payload with a rest, and an empty one. -/
theorem taskHandler_stream_agrees_of_two :
    ∃ worker client,
      Loop.Returns (toRequestStream [⟨["result"], ["input"], [1, 2, 3]⟩, ⟨[], [], []⟩] default
        "token" 2) worker ∧
      Loop.Returns (SubmitterClient.toRequestStream
        [⟨["result"], ["input"], [1, 2, 3]⟩, ⟨[], [], []⟩] "session" default 2) client ∧
      worker.flatten.map CreateTaskRequest.withoutToken =
        client.flatten.map CreateLargeTaskRequest.withoutSession ∧
      ∀ message ∈ worker.flatten, message.communicationToken = "token" :=
  taskHandler_stream_agrees _ _ _ _ (by decide)

end TaskHandler

end ArmoniKApi.Cpp
