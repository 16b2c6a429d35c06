import ArmoniKApi.Library.Chunking
import ArmoniKApi.Library.Framing
import ArmoniKApi.Proto.CreateTasks

/-!
# What a stream of task requests says

The messages of a stream are the frames of its tasks, after an init request.
`IsTaskStream` says that a stream follows the grammar and is read back to the
tasks; it holds of every stream that is written by frames.

This is the abstract side of four senders in two languages.  A sender cuts its payloads in its
own way and loops over its tasks in its own way, and it is right if what it sends is the
stream of its tasks.

* The frames of the library are the messages but for their wrapping: `ofFrame` wraps a frame,
  `frame?` unwraps a message, and `mapM_frame?` takes a whole stream.
* `isTaskStream_streamOf` is the step from the grammar to the messages.  A sender has to show
  that its messages are frames that follow the grammar; the reader comes with the library.
* `payloadChunks` is the way to cut in which an empty payload has one chunk, and
  `payloadChunks_eq` that of a sender with a case of its own for it.  The number of frames
  tells them apart from plain chunks (`length_streamFrames_payloadChunks`).
* `flatten_taskFrames` and `flatten_fragments` are for senders that know the last task by its
  index, `map_taskFrames` for the messages of one task.
-/

namespace ArmoniKApi.Proto

open Framing (Frame Item StreamFrames)

variable {I J : Type}

/-! ## Tasks as items, messages as frames -/

/-- The frames of the library, with the header and the bytes of a task. -/
abbrev TaskFrame := Frame TaskRequestHeader UInt8

namespace TaskRequest

/-- A task as the library has it: a header with some data. -/
def item (task : TaskRequest) : Item TaskRequestHeader UInt8 where
  header := ⟨task.expectedOutputKeys, task.dataDependencies⟩
  data := task.payload

/-- The task that an item stands for. -/
def ofItem (item : Item TaskRequestHeader UInt8) : TaskRequest where
  expectedOutputKeys := item.header.expectedOutputKeys
  dataDependencies := item.header.dataDependencies
  payload := item.data

end TaskRequest

namespace CreateTaskOneOf

/-- The message that a frame is sent as. -/
def ofFrame : TaskFrame → CreateTaskOneOf I
  | .header header => .initTask ⟨some (.header header)⟩
  | .data chunk => .taskPayload ⟨some (.data chunk)⟩
  | .complete => .taskPayload ⟨some (.dataComplete true)⟩
  | .last => .initTask ⟨some (.lastTask true)⟩

/-- The frame that a message is read as: none for an init request, an unset
oneof, and a mark that is not true. -/
def frame? : Option (CreateTaskOneOf I) → Option TaskFrame
  | some (.initTask ⟨some (.header header)⟩) => some (.header header)
  | some (.initTask ⟨some (.lastTask true)⟩) => some .last
  | some (.taskPayload ⟨some (.data chunk)⟩) => some (.data chunk)
  | some (.taskPayload ⟨some (.dataComplete true)⟩) => some .complete
  | _ => none

/-- A `LastTask` message. -/
def isLastTask : Option (CreateTaskOneOf I) → Bool
  | some (.initTask ⟨some (.lastTask _)⟩) => true
  | _ => false

/-- Another message to start the stream. -/
def mapInit (f : I → J) : CreateTaskOneOf I → CreateTaskOneOf J
  | .initRequest request => .initRequest (f request)
  | .initTask request => .initTask request
  | .taskPayload chunk => .taskPayload chunk

@[simp] theorem frame?_ofFrame (frame : TaskFrame) :
    frame? (some (ofFrame (I := I) frame)) = some frame := by
  cases frame <;> rfl

theorem mapInit_ofFrame (f : I → J) (frame : TaskFrame) :
    mapInit f (ofFrame frame) = ofFrame frame := by
  cases frame <;> rfl

theorem isLastTask_ofFrame {frame : TaskFrame} (hframe : frame ≠ .last) :
    isLastTask (some (ofFrame (I := I) frame)) = false := by
  cases frame with
  | last => exact absurd rfl hframe
  | _ => rfl

end CreateTaskOneOf

/-! ## The two services

What is left of a message without the session id of a client, or without the
communication token of a worker. -/

/-- What the agent's init request has, too. -/
def Submitter.InitRequest.withoutSession (request : Submitter.InitRequest) : Agent.InitRequest :=
  ⟨request.taskOptions⟩

/-- What a message of the submitter says apart from the session. -/
def Submitter.CreateLargeTaskRequest.withoutSession
    (message : Submitter.CreateLargeTaskRequest) : Option (CreateTaskOneOf Agent.InitRequest) :=
  message.type.map (CreateTaskOneOf.mapInit Submitter.InitRequest.withoutSession)

/-- What a message of the agent says apart from the token. -/
def Agent.CreateTaskRequest.withoutToken (message : Agent.CreateTaskRequest) :
    Option (CreateTaskOneOf Agent.InitRequest) :=
  message.type

/-! ## Streams -/

/-- The init request and the tasks of a stream, in which every task has at least
`least` chunks. -/
def readStream (least : ℕ) : List (Option (CreateTaskOneOf I)) → Option (I × List TaskRequest)
  | some (.initRequest request) :: rest => do
      let frames ← rest.mapM CreateTaskOneOf.frame?
      let items ← Framing.read least frames
      return (request, items.map TaskRequest.ofItem)
  | _ => none

/-- The messages of frames, after an init request. -/
def streamOf (init : I) (frames : List TaskFrame) : List (Option (CreateTaskOneOf I)) :=
  some (.initRequest init) :: frames.map fun frame => some (.ofFrame frame)

/-- Another message to start the stream leaves the rest as it is. -/
theorem map_mapInit_streamOf (f : I → J) (init : I) (frames : List TaskFrame) :
    (streamOf init frames).map (Option.map (CreateTaskOneOf.mapInit f)) =
      streamOf (f init) frames := by
  unfold streamOf
  rw [List.map_cons, List.map_map]
  refine congrArg (List.cons _) (List.map_congr_left fun frame _ => ?_)
  exact congrArg some (CreateTaskOneOf.mapInit_ofFrame f frame)

/-- A stream that follows the grammar, and says `init` and `tasks`. -/
structure IsTaskStream (least size : ℕ) (init : I) (tasks : List TaskRequest)
    (messages : List (Option (CreateTaskOneOf I))) : Prop where
  framed : ∃ frames, messages = streamOf init frames ∧
    StreamFrames least size (tasks.map TaskRequest.item) frames
  lastTask : tasks ≠ [] → ∃ front,
    messages = front ++ [some (.initTask ⟨some (.lastTask true)⟩)] ∧
      ∀ message ∈ front, CreateTaskOneOf.isLastTask message = false
  read : readStream least messages = some (init, tasks)

theorem mapM_frame? (frames : List TaskFrame) :
    (frames.map fun frame => some (CreateTaskOneOf.ofFrame (I := I) frame)).mapM
      CreateTaskOneOf.frame? = some frames := by
  induction frames with
  | nil => rfl
  | cons frame rest ih => simp [List.mapM_cons, ih]

/-- A stream of frames that follow the grammar. -/
theorem isTaskStream_streamOf {least size : ℕ} (init : I) {tasks : List TaskRequest}
    {frames : List TaskFrame}
    (hframes : StreamFrames least size (tasks.map TaskRequest.item) frames) :
    IsTaskStream least size init tasks (streamOf init frames) where
  framed := ⟨frames, rfl, hframes⟩
  lastTask := by
    intro htasks
    obtain ⟨front, rfl, hfront⟩ := hframes.exists_last (by simpa using htasks)
    refine ⟨streamOf init front, ?_, ?_⟩
    · simp [streamOf, CreateTaskOneOf.ofFrame]
    · intro message hmessage
      rcases List.mem_cons.mp hmessage with rfl | hmessage
      · rfl
      · obtain ⟨frame, hframe, rfl⟩ := List.mem_map.mp hmessage
        exact CreateTaskOneOf.isLastTask_ofFrame fun hlast => hfront (hlast ▸ hframe)
  read := by
    have hitems : (tasks.map TaskRequest.item).map TaskRequest.ofItem = tasks := by
      rw [List.map_map]
      exact List.map_id tasks
    unfold streamOf readStream
    dsimp only
    rw [mapM_frame?, Option.bind_eq_bind, Option.bind_some, Framing.read_streamFrames hframes,
      Option.bind_eq_bind, Option.bind_some, hitems]
    rfl

/-! ## Payloads -/

/-- The chunks of a payload, with an empty one for an empty payload. -/
def payloadChunks (size : ℕ) (payload : Bytes) : List Bytes :=
  if payload.isEmpty then [[]] else Chunking.chunks size payload

theorem flatten_payloadChunks (size : ℕ) (payload : Bytes) :
    (payloadChunks size payload).flatten = payload := by
  unfold payloadChunks
  split
  · rename_i hempty
    rw [List.isEmpty_iff.mp hempty]
    rfl
  · exact Chunking.flatten_chunks size payload

theorem one_le_length_payloadChunks (size : ℕ) (payload : Bytes) :
    1 ≤ (payloadChunks size payload).length := by
  unfold payloadChunks
  split
  · exact Nat.le_refl 1
  · rename_i hempty
    have hne : payload ≠ [] := fun hnil => hempty (List.isEmpty_iff.mpr hnil)
    exact List.length_pos_of_ne_nil (Chunking.chunks_ne_nil hne)

theorem length_le_of_mem_payloadChunks {size : ℕ} (hsize : 1 ≤ size) (payload : Bytes) :
    ∀ chunk ∈ payloadChunks size payload, chunk.length ≤ size := by
  intro chunk hchunk
  unfold payloadChunks at hchunk
  split at hchunk
  · obtain rfl := List.mem_singleton.mp hchunk
    exact Nat.zero_le size
  · exact Chunking.length_le_of_mem_chunks hsize hchunk

/-- What a sender does that first sends an empty chunk if the payload is empty,
and then the chunks of the payload. -/
theorem payloadChunks_eq (size : ℕ) (payload : Bytes) :
    payloadChunks size payload =
      (if payload.isEmpty then [[]] else []) ++ Chunking.chunks size payload := by
  unfold payloadChunks
  split
  · rename_i hempty
    rw [List.isEmpty_iff.mp hempty, Chunking.chunks_nil, List.append_nil]
  · rfl

theorem payloadChunks_of_ne_nil (size : ℕ) {payload : Bytes} (hpayload : payload ≠ []) :
    payloadChunks size payload = Chunking.chunks size payload := by
  rw [payloadChunks, if_neg fun hempty => hpayload (List.isEmpty_iff.mp hempty)]

/-- The empty chunks make a difference, of one frame for each empty payload. -/
theorem length_streamFrames_payloadChunks (size : ℕ) (tasks : List TaskRequest) :
    (Framing.streamFrames (payloadChunks size) (tasks.map TaskRequest.item)).length =
      (Framing.streamFrames (Chunking.chunks size) (tasks.map TaskRequest.item)).length +
        tasks.countP fun task => task.payload.isEmpty := by
  rw [Framing.length_streamFrames, Framing.length_streamFrames, Nat.add_right_comm]
  refine congrArg (· + _) ?_
  induction tasks with
  | nil => rfl
  | cons task rest ih =>
      have htask : (payloadChunks size task.payload).length =
          (Chunking.chunks size task.payload).length + if task.payload.isEmpty then 1 else 0 := by
        rw [payloadChunks_eq, List.length_append, Nat.add_comm]
        split <;> rfl
      have hdata : task.item.data = task.payload := rfl
      rw [List.map_cons, List.map_cons, List.sum_cons, List.map_cons, List.sum_cons, ih,
        List.countP_cons, hdata, htask]
      omega

/-- The frames of a task, with the mark after the last one. -/
def taskFrames (cut : Bytes → List Bytes) (task : TaskRequest) (isLast : Bool) : List TaskFrame :=
  Framing.itemFrames cut task.item ++ if isLast then [.last] else []

/-- What a sender puts together for a task: the header, an empty chunk for an
empty payload, the chunks of the payload, and the marks. -/
theorem map_taskFrames {M : Type} (message : TaskFrame → M) (size : ℕ) (task : TaskRequest)
    (isLast : Bool) :
    (taskFrames (payloadChunks size) task isLast).map message =
      let requests := (if task.payload.isEmpty then
          [message (.header task.item.header)] ++ [message (.data [])]
        else [message (.header task.item.header)]) ++
          (Chunking.chunks size task.payload).map (fun chunk => message (.data chunk)) ++
          [message .complete]
      if isLast then requests ++ [message .last] else requests := by
  have hdata : task.item.data = task.payload := rfl
  unfold taskFrames Framing.itemFrames
  rw [hdata, payloadChunks_eq]
  cases isLast <;> split <;> simp [Function.comp_def]

/-- A sender that compares the index of a task with the last one. -/
theorem flatten_taskFrames (cut : Bytes → List Bytes) (tasks : List TaskRequest) :
    (tasks.zipIdx.map fun entry =>
      taskFrames cut entry.1 (entry.2 == tasks.length - 1)).flatten =
      Framing.streamFrames cut (tasks.map TaskRequest.item) := by
  rw [← Framing.flatten_zipIdx_eq_streamFrames cut (tasks.map TaskRequest.item) 0,
    List.zipIdx_map, List.map_map, List.length_map, Nat.zero_add]
  congr 2
  funext entry
  simp [taskFrames]

/-- The fragments of such a sender: the init request, and the frames of each
task. -/
theorem flatten_fragments {M : Type} (message : Option (CreateTaskOneOf I) → M) (init : I)
    (cut : Bytes → List Bytes) (tasks : List TaskRequest) :
    ([message (some (.initRequest init))] :: tasks.zipIdx.map fun entry =>
      (taskFrames cut entry.1 (entry.2 == tasks.length - 1)).map fun frame =>
        message (some (.ofFrame frame))).flatten =
      (streamOf init (Framing.streamFrames cut (tasks.map TaskRequest.item))).map message := by
  rw [← flatten_taskFrames, streamOf]
  simp [List.map_flatten, Function.comp_def]

/-- Sending an empty chunk for an empty payload makes a stream in which every
task has a chunk. -/
theorem streamFrames_payloadChunks {size : ℕ} (hsize : 1 ≤ size) (tasks : List TaskRequest) :
    StreamFrames 1 size (tasks.map TaskRequest.item)
      (Framing.streamFrames (payloadChunks size) (tasks.map TaskRequest.item)) :=
  Framing.streamFrames_grammar _ (flatten_payloadChunks size)
    (one_le_length_payloadChunks size) (length_le_of_mem_payloadChunks hsize) _

end ArmoniKApi.Proto
