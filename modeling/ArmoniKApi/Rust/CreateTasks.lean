import ArmoniKApi.Library.Codec
import ArmoniKApi.Proto.CreateTasks

/-!
# The creation of tasks in the Rust client

Tasks are created over a stream of messages, each a oneof of a request to start,
a task header or end mark, and a chunk of a payload or its end mark.  The domain
has an enumeration for each oneof: for the submitter the end marks are values
without data, for the agent every value holds the communication token that the
wire message holds beside the oneof.

Every domain value comes back from the wire (`large_task_stream_kept`).  In the
other direction the agent's messages keep their token and their arm as long as
the oneof is set: an unset request becomes `Invalid`, which has no token, and an
unset reply becomes an `Error` (`create_task_stream_kept`).

```text
   to the agent             decoded                   encoded again
   request, oneof set       the arm, with the token   the same
   request, oneof not set   Invalid                   not set, empty token
   reply, oneof set         the arm, with the token   the same
   reply, oneof not set     Error, no token, no text  error, no token, no text
```

## Strategy

A message type has a `codec`, and its lemma is `decode_encode` when only the domain values
come back, or `codec_lawful` when those wire values that are `WellFormed` come back too.
The lemma of a message rewrites with those of its parts.  What is lost of a wire message is
said by a `Kept` with one field for the token and one for the arm; `kept_iff` is by cases on
the oneof.
-/

namespace ArmoniKApi.Rust

/-! ## Task options -/

/-- `INFINITE_DURATION`. -/
def infiniteDuration : Proto.Duration := ⟨315576000000, 0⟩

/-- The map `options` is moved between the two sides: its entries stay as they
are. -/
structure TaskOptions where
  options : List (String × String)
  maxDuration : Proto.Duration
  maxRetries : Int
  priority : Int
  partitionId : String
  applicationName : String
  applicationVersion : String
  applicationNamespace : String
  applicationService : String
  engineType : String
  deriving DecidableEq, Repr

namespace TaskOptions

/-- Every field is moved as it is, but for the duration: it is always written, and read as
the infinite one when it is absent. -/
def codec : Codec TaskOptions Proto.TaskOptions where
  encode value := {
    options := value.options
    maxDuration := some value.maxDuration
    maxRetries := value.maxRetries
    priority := value.priority
    partitionId := value.partitionId
    applicationName := value.applicationName
    applicationVersion := value.applicationVersion
    applicationNamespace := value.applicationNamespace
    applicationService := value.applicationService
    engineType := value.engineType }
  decode value := {
    options := value.options
    maxDuration := value.maxDuration.getD infiniteDuration
    maxRetries := value.maxRetries
    priority := value.priority
    partitionId := value.partitionId
    applicationName := value.applicationName
    applicationVersion := value.applicationVersion
    applicationNamespace := value.applicationNamespace
    applicationService := value.applicationService
    engineType := value.engineType }

theorem codec_lawful :
    codec.Lawful fun options => ∃ duration, options.maxDuration = some duration where
  decode_encode := fun _ => rfl
  encode_decode := by
    rintro options ⟨duration, hduration⟩
    show { options with maxDuration := some (options.maxDuration.getD infiniteDuration) } = options
    rw [hduration, Option.getD_some, ← hduration]

end TaskOptions

/-! ## Headers and chunks -/

/-- `TaskRequestHeader`. -/
structure TaskRequestHeader where
  expectedOutputKeys : List String
  dataDependencies : List String
  deriving DecidableEq, Repr

namespace TaskRequestHeader

/-- Both lists are moved as they are. -/
def codec : Codec TaskRequestHeader Proto.TaskRequestHeader where
  encode value := ⟨value.expectedOutputKeys, value.dataDependencies⟩
  decode value := ⟨value.expectedOutputKeys, value.dataDependencies⟩

theorem codec_lawful : codec.Lawful fun _ => True where
  decode_encode := fun _ => rfl
  encode_decode := fun _ _ => rfl

end TaskRequestHeader

/-- `InitTaskRequest`: the end mark is a value without data, where the wire has a truth
value. -/
inductive InitTaskRequest
  | header (header : TaskRequestHeader)
  | lastTask
  deriving DecidableEq, Repr

namespace InitTaskRequest

instance : Inhabited InitTaskRequest := ⟨.header ⟨[], []⟩⟩

/-- A mark is written as true, and read as the mark whichever truth value it has.  An unset
oneof is the default, an empty header. -/
def codec : Codec InitTaskRequest Proto.InitTaskRequest where
  encode
    | .header task => ⟨some (.header (TaskRequestHeader.codec.encode task))⟩
    | .lastTask => ⟨some (.lastTask true)⟩
  decode value :=
    match value.type with
    | some (.header task) => .header (TaskRequestHeader.codec.decode task)
    | some (.lastTask _) => .lastTask
    | none => default

/-- The oneof is set, and a mark is a mark. -/
inductive WellFormed : Proto.InitTaskRequest → Prop
  | header (header : Proto.TaskRequestHeader) : WellFormed ⟨some (.header header)⟩
  | lastTask : WellFormed ⟨some (.lastTask true)⟩

theorem codec_lawful : codec.Lawful WellFormed where
  decode_encode := fun value => by cases value <;> rfl
  encode_decode := fun _ hvalue => by cases hvalue <;> rfl

end InitTaskRequest

/-- `DataChunk`: the end mark is a value without data. -/
inductive DataChunk
  | data (data : Proto.Bytes)
  | complete
  deriving DecidableEq, Repr

namespace DataChunk

instance : Inhabited DataChunk := ⟨.data []⟩

/-- A mark is written as true, and read as the mark whichever truth value it has.  An unset
oneof is the default, an empty chunk. -/
def codec : Codec DataChunk Proto.DataChunk where
  encode
    | .data bytes => ⟨some (.data bytes)⟩
    | .complete => ⟨some (.dataComplete true)⟩
  decode value :=
    match value.type with
    | some (.data bytes) => .data bytes
    | some (.dataComplete _) => .complete
    | none => default

/-- The oneof is set, and a mark is a mark. -/
inductive WellFormed : Proto.DataChunk → Prop
  | data (data : Proto.Bytes) : WellFormed ⟨some (.data data)⟩
  | complete : WellFormed ⟨some (.dataComplete true)⟩

theorem codec_lawful : codec.Lawful WellFormed where
  decode_encode := fun value => by cases value <;> rfl
  encode_decode := fun _ hvalue => by cases hvalue <;> rfl

end DataChunk

/-! ## The status of a created task

`submitter::create_tasks::Status` and `agent::create_tasks::Status` are the same
enumeration with the same conversions. -/

/-- `create_tasks::Status`. -/
inductive Status
  | taskInfo (taskId : String) (expectedOutputKeys dataDependencies : List String)
      (payloadId : String)
  | error (error : String)
  deriving DecidableEq, Repr

namespace Status

instance : Inhabited Status := ⟨.error ""⟩

/-- An unset oneof is the default, an error without a text. -/
def codec : Codec Status Proto.CreationStatus where
  encode
    | .taskInfo taskId expectedOutputKeys dataDependencies payloadId =>
        ⟨some (.taskInfo ⟨taskId, expectedOutputKeys, dataDependencies, payloadId⟩)⟩
    | .error msg => ⟨some (.error msg)⟩
  decode value :=
    match value.status with
    | some (.taskInfo status) =>
        .taskInfo status.taskId status.expectedOutputKeys status.dataDependencies status.payloadId
    | some (.error msg) => .error msg
    | none => default

theorem codec_lawful : codec.Lawful fun status => ∃ arm, status.status = some arm where
  decode_encode := fun value => by cases value <;> rfl
  encode_decode := by
    rintro ⟨_⟩ ⟨arm, rfl⟩
    cases arm <;> rfl

end Status

/-! ## The stream to the submitter -/

namespace Submitter

/-- `option task_options = option task_options`. -/
structure InitRequest where
  sessionId : String
  taskOptions : Option TaskOptions
  deriving DecidableEq, Repr

namespace InitRequest

/-- The options may be absent on both sides. -/
def codec : Codec InitRequest Proto.Submitter.InitRequest where
  encode value := ⟨value.sessionId, TaskOptions.codec.optional.encode value.taskOptions⟩
  decode value := ⟨value.sessionId, TaskOptions.codec.optional.decode value.taskOptions⟩

theorem decode_encode (value : InitRequest) : codec.decode (codec.encode value) = value :=
  congrArg (InitRequest.mk value.sessionId)
    (TaskOptions.codec_lawful.optional.decode_encode value.taskOptions)

end InitRequest

/-- `create_tasks::LargeRequest`: the oneof of a message, with `Invalid` when it is not
set. -/
inductive LargeRequest
  | invalid
  | initRequest (request : InitRequest)
  | initTaskRequest (request : InitTaskRequest)
  | dataChunk (chunk : DataChunk)
  deriving DecidableEq, Repr

namespace LargeRequest

/-- Each arm by its name.  The unset oneof has a value of its own, so nothing is lost
there. -/
def codec : Codec LargeRequest Proto.Submitter.CreateLargeTaskRequest where
  encode
    | .invalid => ⟨none⟩
    | .initRequest request => ⟨some (.initRequest (InitRequest.codec.encode request))⟩
    | .initTaskRequest request => ⟨some (.initTask (InitTaskRequest.codec.encode request))⟩
    | .dataChunk chunk => ⟨some (.taskPayload (DataChunk.codec.encode chunk))⟩
  decode value :=
    match value.type with
    | some (.initRequest request) => .initRequest (InitRequest.codec.decode request)
    | some (.initTask request) => .initTaskRequest (InitTaskRequest.codec.decode request)
    | some (.taskPayload chunk) => .dataChunk (DataChunk.codec.decode chunk)
    | none => .invalid

theorem decode_encode (value : LargeRequest) : codec.decode (codec.encode value) = value := by
  cases value with
  | invalid => rfl
  | initRequest request => exact congrArg LargeRequest.initRequest request.decode_encode
  | initTaskRequest request =>
      have hrequest := InitTaskRequest.codec_lawful.decode_encode request
      exact congrArg LargeRequest.initTaskRequest hrequest
  | dataChunk chunk =>
      have hchunk := DataChunk.codec_lawful.decode_encode chunk
      exact congrArg LargeRequest.dataChunk hchunk

end LargeRequest

/-- `create_tasks::Response`. -/
inductive Response
  | status (statuses : List Status)
  | error (error : String)
  deriving DecidableEq, Repr

namespace Response

instance : Inhabited Response := ⟨.status []⟩

/-- An unset oneof is the default, an empty list of statuses. -/
def codec : Codec Response Proto.Submitter.CreateTaskReply where
  encode
    | .status statuses => ⟨some (.creationStatusList ⟨Status.codec.list.encode statuses⟩)⟩
    | .error msg => ⟨some (.error msg)⟩
  decode value :=
    match value.response with
    | some (.creationStatusList list) => .status (Status.codec.list.decode list.creationStatuses)
    | some (.error msg) => .error msg
    | none => default

theorem decode_encode (value : Response) : codec.decode (codec.encode value) = value := by
  cases value with
  | status statuses =>
      exact congrArg Response.status (Status.codec_lawful.list.decode_encode statuses)
  | error msg => rfl

end Response

/-- Every stream of elements comes back from the wire, and so does every reply. -/
theorem large_task_stream_kept (stream : List LargeRequest) (reply : Response) :
    (stream.map LargeRequest.codec.encode).map LargeRequest.codec.decode = stream ∧
      Response.codec.decode (Response.codec.encode reply) = reply := by
  refine ⟨?_, reply.decode_encode⟩
  have hid : LargeRequest.codec.decode ∘ LargeRequest.codec.encode = id :=
    funext LargeRequest.decode_encode
  rw [List.map_map, hid, List.map_id]

end Submitter

/-! ## The stream to the agent -/

namespace Agent

/-- `option task_options = option task_options`. -/
structure InitRequest where
  taskOptions : Option TaskOptions
  deriving DecidableEq, Repr

namespace InitRequest

/-- The options may be absent on both sides. -/
def codec : Codec InitRequest Proto.Agent.InitRequest where
  encode value := ⟨TaskOptions.codec.optional.encode value.taskOptions⟩
  decode value := ⟨TaskOptions.codec.optional.decode value.taskOptions⟩

theorem decode_encode (value : InitRequest) : codec.decode (codec.encode value) = value :=
  congrArg InitRequest.mk (TaskOptions.codec_lawful.optional.decode_encode value.taskOptions)

end InitRequest

/-- `agent::create_tasks::Request`.  The token, which the wire has beside the oneof, is in
every value but `Invalid`. -/
inductive Request
  | invalid
  | initRequest (communicationToken : String) (request : InitRequest)
  | initTaskRequest (communicationToken : String) (request : InitTaskRequest)
  | dataChunk (communicationToken : String) (chunk : DataChunk)
  deriving DecidableEq, Repr

namespace Request

/-- Each arm by its name, with the token.  `Invalid` has no token to write, so it is written
with an empty one. -/
def codec : Codec Request Proto.Agent.CreateTaskRequest where
  encode
    | .invalid => ⟨"", none⟩
    | .initRequest token request => ⟨token, some (.initRequest (InitRequest.codec.encode request))⟩
    | .initTaskRequest token request =>
        ⟨token, some (.initTask (InitTaskRequest.codec.encode request))⟩
    | .dataChunk token chunk => ⟨token, some (.taskPayload (DataChunk.codec.encode chunk))⟩
  decode value :=
    match value.type with
    | some (.initRequest request) =>
        .initRequest value.communicationToken (InitRequest.codec.decode request)
    | some (.initTask request) =>
        .initTaskRequest value.communicationToken (InitTaskRequest.codec.decode request)
    | some (.taskPayload chunk) =>
        .dataChunk value.communicationToken (DataChunk.codec.decode chunk)
    -- the token of the message is dropped
    | none => .invalid

theorem decode_encode (value : Request) : codec.decode (codec.encode value) = value := by
  cases value with
  | invalid => rfl
  | initRequest token request =>
      exact congrArg (Request.initRequest token) request.decode_encode
  | initTaskRequest token request =>
      have hrequest := InitTaskRequest.codec_lawful.decode_encode request
      exact congrArg (Request.initTaskRequest token) hrequest
  | dataChunk token chunk =>
      have hchunk := DataChunk.codec_lawful.decode_encode chunk
      exact congrArg (Request.dataChunk token) hchunk

/-- The arm of the oneof that is set. -/
inductive Arm
  | initRequest
  | initTask
  | taskPayload
  deriving DecidableEq, Repr

/-- The arm of a request. -/
def arm (message : Proto.Agent.CreateTaskRequest) : Option Arm :=
  message.type.map fun
    | .initRequest _ => .initRequest
    | .initTask _ => .initTask
    | .taskPayload _ => .taskPayload

/-- Decoding and encoding again keeps the token and the arm. -/
structure Kept (message : Proto.Agent.CreateTaskRequest) : Prop where
  communicationToken :
    (codec.encode (codec.decode message)).communicationToken = message.communicationToken
  arm : arm (codec.encode (codec.decode message)) = arm message

/-- An unset oneof stays unset, and loses the token. -/
theorem kept_iff (message : Proto.Agent.CreateTaskRequest) :
    Kept message ↔ message.type ≠ none ∨ message.communicationToken = "" := by
  obtain ⟨token, type⟩ := message
  cases type with
  | none =>
      constructor
      · intro hkept
        exact Or.inr hkept.communicationToken.symm
      · rintro (hset | htoken)
        · exact absurd rfl hset
        · exact ⟨htoken.symm, rfl⟩
  | some set =>
      refine ⟨fun _ => Or.inl (Option.some_ne_none set), fun _ => ?_⟩
      cases set <;> exact ⟨rfl, rfl⟩

end Request

/-- `agent::create_tasks::Response`, with the token in every value. -/
inductive Response
  | status (communicationToken : String) (statuses : List Status)
  | error (communicationToken : String) (error : String)
  deriving DecidableEq, Repr

namespace Response

instance : Inhabited Response := ⟨.error "" ""⟩

/-- An unset oneof is the default, an error without a text and without a token. -/
def codec : Codec Response Proto.Agent.CreateTaskReply where
  encode
    | .status token statuses =>
        ⟨token, some (.creationStatusList ⟨Status.codec.list.encode statuses⟩)⟩
    | .error token msg => ⟨token, some (.error msg)⟩
  decode value :=
    match value.response with
    | some (.creationStatusList list) =>
        .status value.communicationToken (Status.codec.list.decode list.creationStatuses)
    | some (.error msg) => .error value.communicationToken msg
    | none => default

theorem decode_encode (value : Response) : codec.decode (codec.encode value) = value := by
  cases value with
  | status token statuses =>
      exact congrArg (Response.status token) (Status.codec_lawful.list.decode_encode statuses)
  | error token msg => rfl

/-- The arm of the oneof that is set. -/
inductive Arm
  | creationStatusList
  | error
  deriving DecidableEq, Repr

/-- The arm of a reply. -/
def arm (message : Proto.Agent.CreateTaskReply) : Option Arm :=
  message.response.map fun
    | .creationStatusList _ => .creationStatusList
    | .error _ => .error

/-- Decoding and encoding again keeps the token and the arm. -/
structure Kept (message : Proto.Agent.CreateTaskReply) : Prop where
  communicationToken :
    (codec.encode (codec.decode message)).communicationToken = message.communicationToken
  arm : arm (codec.encode (codec.decode message)) = arm message

/-- An unset oneof comes back as an error. -/
theorem kept_iff (message : Proto.Agent.CreateTaskReply) :
    Kept message ↔ message.response ≠ none := by
  obtain ⟨token, response⟩ := message
  cases response with
  | none =>
      constructor
      · intro hkept
        exact absurd hkept.arm (Option.some_ne_none _)
      · intro hset
        exact absurd rfl hset
  | some set =>
      refine ⟨fun _ => Option.some_ne_none set, fun _ => ?_⟩
      cases set <;> exact ⟨rfl, rfl⟩

end Response

/-- Every request and every reply of the domain comes back from the wire.  A
wire message keeps its token and its arm when its oneof is set; else a request
keeps them when it has no token, and a reply never does.  Whatever its token, an
unset request is `Invalid`, which is sent as an unset request without a token, and
an unset reply is the default error, which has no token and no text. -/
theorem create_task_stream_kept (request : Request) (reply : Response)
    (wireRequest : Proto.Agent.CreateTaskRequest) (wireReply : Proto.Agent.CreateTaskReply) :
    Request.codec.decode (Request.codec.encode request) = request ∧
      Response.codec.decode (Response.codec.encode reply) = reply ∧
      (Request.Kept wireRequest ↔
        wireRequest.type ≠ none ∨ wireRequest.communicationToken = "") ∧
      (Response.Kept wireReply ↔ wireReply.response ≠ none) ∧
      (∀ token, Request.codec.decode ⟨token, none⟩ = .invalid ∧
        Request.codec.encode (Request.codec.decode ⟨token, none⟩) = ⟨"", none⟩) ∧
      (∀ token, Response.codec.decode ⟨token, none⟩ = .error "" "" ∧
        Response.codec.encode (Response.codec.decode ⟨token, none⟩) = ⟨"", some (.error "")⟩) :=
  ⟨request.decode_encode, reply.decode_encode, Request.kept_iff wireRequest,
    Response.kept_iff wireReply, fun _ => ⟨rfl, rfl⟩, fun _ => ⟨rfl, rfl⟩⟩

/-- A request and a reply with a token and nothing else. -/
theorem create_task_stream_drops_token :
    ¬ Request.Kept ⟨"token", none⟩ ∧ ¬ Response.Kept ⟨"token", none⟩ ∧
      Request.codec.encode (Request.codec.decode ⟨"token", none⟩) = ⟨"", none⟩ ∧
      Response.codec.encode (Response.codec.decode ⟨"token", none⟩) = ⟨"", some (.error "")⟩ := by
  refine ⟨fun hkept => ?_, fun hkept => ?_, rfl, rfl⟩
  · exact absurd hkept.communicationToken (by decide)
  · exact absurd hkept.communicationToken (by decide)

end Agent

end ArmoniKApi.Rust
