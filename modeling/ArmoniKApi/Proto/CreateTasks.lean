import ArmoniKApi.Proto.Worker

/-!
# The messages that create tasks

Tasks are created over a stream: an init request, then for each task a header,
the payload in chunks and a mark that the payload is complete, and after the
last task a mark that no task follows.  The submitter takes this stream from a
client (`CreateLargeTaskRequest`), the agent takes it from a worker
(`CreateTaskRequest`), with a communication token on every message.

A oneof that is not set is `none`.  So is a message-typed field that is absent.

The two streams are the same but for two things, and the messages are written so that this can
be seen:

```text
                 submitter                         agent
session          in the init request               nowhere
token            nowhere                           on every message, beside the oneof
oneof            CreateTaskOneOf with its init     CreateTaskOneOf with its init
```

The oneof is therefore one type with the init request as a parameter, and a statement about
both streams is made about what is left of their messages without session and token
(`Proto.TaskStream`).

The names follow the proto files.  Where the submitter and the agent declare messages of the
same name, each has its namespace.
-/

namespace ArmoniKApi.Proto

/-- The contents of a `bytes` field. -/
abbrev Bytes := List UInt8

/-- The options of a message in which nothing is set. -/
instance : Inhabited TaskOptions where
  default := {
    options := []
    maxDuration := none
    maxRetries := 0
    priority := 0
    partitionId := ""
    applicationName := ""
    applicationVersion := ""
    applicationNamespace := ""
    applicationService := ""
    engineType := "" }

/-- A task to create.  The name of the payload is left out: the stream has no
message for it. -/
structure TaskRequest where
  expectedOutputKeys : List String
  dataDependencies : List String
  payload : Bytes
  deriving DecidableEq, Repr

/-- `TaskRequestHeader`: the result ids that a task is to produce, and those that it reads.
It opens the messages of one task, before the chunks of the payload. -/
structure TaskRequestHeader where
  expectedOutputKeys : List String
  dataDependencies : List String
  deriving DecidableEq, Repr

/-- `InitTaskRequest.type`. -/
inductive InitTaskRequest.OneOf
  | header (header : TaskRequestHeader)
  | lastTask (lastTask : Bool)
  deriving DecidableEq, Repr

/-- `InitTaskRequest`: the header of the next task, or the mark that there is none. -/
structure InitTaskRequest where
  type : Option InitTaskRequest.OneOf
  deriving DecidableEq, Repr

/-- `DataChunk.type`. -/
inductive DataChunk.OneOf
  | data (data : Bytes)
  | dataComplete (dataComplete : Bool)
  deriving DecidableEq, Repr

/-- `DataChunk`: a part of a payload, or the mark that the payload is complete. -/
structure DataChunk where
  type : Option DataChunk.OneOf
  deriving DecidableEq, Repr

/-! ## The reply

Both services declare the same `CreateTaskReply`, but for the token that the
agent's carries. -/

/-- `CreationStatus.TaskInfo`: what the service has made of one task request. -/
structure TaskInfo where
  taskId : String
  expectedOutputKeys : List String
  dataDependencies : List String
  payloadId : String
  deriving DecidableEq, Repr

/-- `CreationStatus.Status`. -/
inductive CreationStatus.OneOf
  | taskInfo (taskInfo : TaskInfo)
  | error (error : String)
  deriving DecidableEq, Repr

/-- `CreationStatus`: what has become of one task request, unset when the service says
nothing about it. -/
structure CreationStatus where
  status : Option CreationStatus.OneOf
  deriving DecidableEq, Repr

/-- `CreationStatusList`: one status for each task request of the stream, in its order. -/
structure CreationStatusList where
  creationStatuses : List CreationStatus
  deriving DecidableEq, Repr

/-- `CreateTaskReply.Response`. -/
inductive CreateTaskReply.OneOf
  | creationStatusList (list : CreationStatusList)
  | error (error : String)
  deriving DecidableEq, Repr

/-! ## The requests

The oneofs of the two requests differ in the message that starts a stream. -/

/-- `CreateLargeTaskRequest.type` and `CreateTaskRequest.type`, with an init
request of type `I`. -/
inductive CreateTaskOneOf (I : Type)
  | initRequest (request : I)
  | initTask (request : InitTaskRequest)
  | taskPayload (chunk : DataChunk)
  deriving DecidableEq, Repr

/-! ## Submitting tasks

A list of tasks whose payloads are results can also be submitted in one request,
by a client to the tasks service or by a worker to its agent. -/

/-- `SubmitTasksRequest.TaskCreation`. -/
structure TaskCreation where
  expectedOutputKeys : List String
  dataDependencies : List String
  payloadId : String
  taskOptions : Option TaskOptions
  deriving DecidableEq, Repr

/-- `tasks.SubmitTasksRequest`.  Its options are for all of the creations, each of which may
have its own. -/
structure SubmitTasksRequest where
  sessionId : String
  taskOptions : Option TaskOptions
  taskCreations : List TaskCreation
  deriving DecidableEq, Repr

/-- `SubmitTasksResponse.TaskInfo`. -/
structure SubmitTasksResponse.TaskInfo where
  taskId : String
  expectedOutputIds : List String
  dataDependencies : List String
  payloadId : String
  deriving DecidableEq, Repr

/-! ## The submitter service -/

namespace Submitter

/-- `CreateLargeTaskRequest.InitRequest`. -/
structure InitRequest where
  sessionId : String
  taskOptions : Option TaskOptions
  deriving DecidableEq, Repr

/-- `CreateLargeTaskRequest`, a message of the stream that a client sends.  The session is
named in the init request only. -/
structure CreateLargeTaskRequest where
  type : Option (CreateTaskOneOf InitRequest)
  deriving DecidableEq, Repr

/-- `submitter.CreateTaskReply`: the reply to a whole stream of the submitter. -/
structure CreateTaskReply where
  response : Option CreateTaskReply.OneOf
  deriving DecidableEq, Repr

end Submitter

/-! ## The agent service -/

namespace Agent

/-- `CreateTaskRequest.InitRequest`. -/
structure InitRequest where
  taskOptions : Option TaskOptions
  deriving DecidableEq, Repr

/-- `agent.CreateTaskRequest`, a message of the stream that a worker sends.  The token
stands on each of them, beside the oneof. -/
structure CreateTaskRequest where
  communicationToken : String
  type : Option (CreateTaskOneOf InitRequest)
  deriving DecidableEq, Repr

/-- `agent.CreateTaskReply`: the reply to a whole stream of a worker, with a token beside
the oneof. -/
structure CreateTaskReply where
  communicationToken : String
  response : Option CreateTaskReply.OneOf
  deriving DecidableEq, Repr

/-- `agent.SubmitTasksRequest`, which is the message of the tasks service with a token. -/
structure SubmitTasksRequest where
  sessionId : String
  taskOptions : Option TaskOptions
  taskCreations : List TaskCreation
  communicationToken : String
  deriving DecidableEq, Repr

end Agent

end ArmoniKApi.Proto
