import ArmoniKApi.Proto.TaskStream

/-!
# Submitting large payloads in C++

`SubmitterClient::to_request_stream` produces a vector of fragments, each the
result of a future: one for the init request, and one a task for its header, the
chunks of its payload and the marks.  The fragments are written one after the
other.

For a chunk size of 0 the loop over a payload does not end.

The loop over a payload keeps an index of type `size_t` and cuts from there, which is the loop
of `Library.Chunking`; a payload that is empty has a case of its own in the source and gets one
empty chunk.  `returns_taskChunkStream` puts the two together as the frames of one task, and
`returns_toRequestStream` those of all tasks, where the last one is found by its index.  The
grammar and the reader then come from `Proto.TaskStream`.

The size arrives as a number of 32 bits with a sign, and is converted.  A negative one becomes
very large and does no harm, so that 0 is the only size to leave out (`one_le_sizeT_iff`).
-/

namespace ArmoniKApi.Cpp

open Proto (TaskRequest TaskOptions TaskFrame InitTaskRequest IsTaskStream payloadChunks
  taskFrames streamOf)
open Proto.Submitter (CreateLargeTaskRequest)

/-- The size of the chunks, an `int32`, as a `size_t` of 64 bits. -/
def sizeT (n : Int) : ℕ := (n % 18446744073709551616).toNat

/-- Of the numbers of 32 bits only 0 becomes 0. -/
theorem one_le_sizeT_iff {n : Int} (hlower : -2147483648 ≤ n) (hupper : n ≤ 2147483647) :
    1 ≤ sizeT n ↔ n ≠ 0 := by
  unfold sizeT
  omega

namespace SubmitterClient

/-! ## The fragments -/

/-- `task_chunk_stream`. -/
def taskChunkStream (taskRequest : TaskRequest) (isLast : Bool) (chunkMaxSize : ℕ) (turns : ℕ) :
    Option (List CreateLargeTaskRequest) := do
  let headerTaskRequest : InitTaskRequest :=
    ⟨some (.header ⟨taskRequest.expectedOutputKeys, taskRequest.dataDependencies⟩)⟩
  let requests : List CreateLargeTaskRequest := [⟨some (.initTask headerTaskRequest)⟩]
  let requests :=
    if taskRequest.payload.isEmpty then
      requests ++ [⟨some (.taskPayload ⟨some (.data [])⟩)⟩]
    else requests
  let requests ← Loop.run
    (Chunking.cut (fun chunk => ⟨some (.taskPayload ⟨some (.data chunk)⟩)⟩) chunkMaxSize
      taskRequest.payload) turns ⟨0, requests⟩
  let requests := requests ++ [⟨some (.taskPayload ⟨some (.dataComplete true)⟩)⟩]
  return if isLast then requests ++ [⟨some (.initTask ⟨some (.lastTask true)⟩)⟩] else requests

/-- `to_request_stream`. -/
def toRequestStream (taskRequests : List TaskRequest) (sessionId : String)
    (taskOptions : TaskOptions) (chunkMaxSize : ℕ) (turns : ℕ) :
    Option (List (List CreateLargeTaskRequest)) := do
  let fragments ← taskRequests.zipIdx.mapM fun entry =>
    taskChunkStream entry.1 (entry.2 == taskRequests.length - 1) chunkMaxSize turns
  return [⟨some (.initRequest ⟨sessionId, some taskOptions⟩)⟩] :: fragments

/-! ## What they say -/

/-- The message of a frame. -/
def ofFrame (frame : TaskFrame) : CreateLargeTaskRequest := ⟨some (.ofFrame frame)⟩

theorem returns_taskChunkStream (taskRequest : TaskRequest) (isLast : Bool) {chunkMaxSize : ℕ}
    (hsize : 1 ≤ chunkMaxSize) :
    Loop.Returns (taskChunkStream taskRequest isLast chunkMaxSize)
      ((taskFrames (payloadChunks chunkMaxSize) taskRequest isLast).map ofFrame) := by
  have hloop := Chunking.returns_cut (fun chunk => ofFrame (.data chunk)) hsize taskRequest.payload
    (if taskRequest.payload.isEmpty then
      [ofFrame (.header taskRequest.item.header)] ++ [ofFrame (.data [])]
    else [ofFrame (.header taskRequest.item.header)])
  rw [Proto.map_taskFrames]
  exact hloop.bind (Loop.returns_pure _)

/-- The fragments are the frames of the tasks. -/
theorem returns_toRequestStream (taskRequests : List TaskRequest) (sessionId : String)
    (taskOptions : TaskOptions) {chunkMaxSize : ℕ} (hsize : 1 ≤ chunkMaxSize) :
    ∃ fragments, Loop.Returns (toRequestStream taskRequests sessionId taskOptions chunkMaxSize)
        fragments ∧
      fragments.flatten =
        (streamOf ⟨sessionId, some taskOptions⟩ (Framing.streamFrames (payloadChunks chunkMaxSize)
          (taskRequests.map TaskRequest.item))).map CreateLargeTaskRequest.mk := by
  have hfragments := Loop.Returns.mapM
    fun (entry : TaskRequest × ℕ) (_ : entry ∈ taskRequests.zipIdx) =>
      returns_taskChunkStream entry.1 (entry.2 == taskRequests.length - 1) hsize
  refine ⟨_, hfragments.bind (Loop.returns_pure _), ?_⟩
  exact Proto.flatten_fragments CreateLargeTaskRequest.mk _ (payloadChunks chunkMaxSize)
    taskRequests

/-- For every list of tasks and every chunk size but 0 the stream is produced,
follows the grammar with at least one chunk a task, and says the session, the
options and the tasks. -/
theorem toRequestStream_isTaskStream (taskRequests : List TaskRequest) (sessionId : String)
    (taskOptions : TaskOptions) {chunkMaxSize : ℕ} (hsize : 1 ≤ chunkMaxSize) :
    ∃ fragments, Loop.Returns (toRequestStream taskRequests sessionId taskOptions chunkMaxSize)
        fragments ∧
      IsTaskStream 1 chunkMaxSize ⟨sessionId, some taskOptions⟩ taskRequests
        (fragments.flatten.map CreateLargeTaskRequest.type) := by
  obtain ⟨fragments, hreturns, hmessages⟩ :=
    returns_toRequestStream taskRequests sessionId taskOptions hsize
  refine ⟨fragments, hreturns, ?_⟩
  rw [hmessages, List.map_map]
  show IsTaskStream 1 chunkMaxSize _ taskRequests ((streamOf _ _).map id)
  rw [List.map_id]
  exact Proto.isTaskStream_streamOf _ (Proto.streamFrames_payloadChunks hsize taskRequests)

/-- A payload with a rest, and an empty one. -/
theorem toRequestStream_isTaskStream_of_two :
    ∃ fragments, Loop.Returns
        (toRequestStream [⟨["result"], ["input"], [1, 2, 3]⟩, ⟨[], [], []⟩] "session" default 2)
        fragments ∧
      IsTaskStream 1 2 ⟨"session", some default⟩
        [⟨["result"], ["input"], [1, 2, 3]⟩, ⟨[], [], []⟩]
        (fragments.flatten.map CreateLargeTaskRequest.type) :=
  toRequestStream_isTaskStream _ _ _ (by decide)

example : toRequestStream [⟨[], [], [1, 2, 3]⟩, ⟨[], [], []⟩] "session" default 2 3 =
    some [[⟨some (.initRequest ⟨"session", some default⟩)⟩],
      [.header ⟨[], []⟩, .data [1, 2], .data [3], .complete].map ofFrame,
      [.header ⟨[], []⟩, .data [], .complete, .last].map ofFrame] := by
  decide

end SubmitterClient

end ArmoniKApi.Cpp
