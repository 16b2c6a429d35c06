import ArmoniKApi.Proto.CreateTasks

/-!
# The messages about results

Uploading the data of a result, importing data that is already stored, asking for
the tasks that should produce results, creating results and deleting their data,
and, for a worker, notifying its agent of the files it has written and creating
results through it.

Every message has all the fields of its proto file that a modelled function reads or writes,
under the words of the file.  A repeated field that the file names in the singular keeps its
name.

Pairs come as lists.  `GetOwnerTaskIdResponse` pairs results with tasks, and nothing on the
wire says that a result occurs once, or in which order; a client that makes a map of them has
to live with that, and theorems about it quantify over the list.

The agent has messages of its own for creating results, with a communication token and with
less to say about a result than a `ResultRaw`, so they stand in a namespace apart.
-/

namespace ArmoniKApi.Proto

/-- `ResultRaw`. -/
structure ResultRaw where
  sessionId : String
  name : String
  ownerTaskId : String
  status : Int
  createdAt : Option Timestamp
  completedAt : Option Timestamp
  resultId : String
  size : Int
  createdBy : String
  opaqueId : Bytes
  manualDeletion : Bool
  deriving DecidableEq, Repr

/-- `ResultIdentifier`, in `UploadResultDataRequest` and in
`NotifyResultDataRequest`. -/
structure ResultIdentifier where
  sessionId : String
  resultId : String
  deriving DecidableEq, Repr

/-- `UploadResultDataRequest.type`. -/
inductive UploadResultDataRequest.OneOf
  | id (id : ResultIdentifier)
  | dataChunk (dataChunk : Bytes)
  deriving DecidableEq, Repr

/-- `UploadResultDataRequest`, a message of the stream that uploads the data of a result:
the identifier first, then the chunks. -/
structure UploadResultDataRequest where
  type : Option UploadResultDataRequest.OneOf
  deriving DecidableEq, Repr

/-- `ImportResultsDataRequest.ResultOpaqueId`. -/
structure ResultOpaqueId where
  resultId : String
  opaqueId : Bytes
  deriving DecidableEq, Repr

/-- `ImportResultsDataRequest`: results whose data lie in the object storage already, each
with the id that the storage has for it. -/
structure ImportResultsDataRequest where
  sessionId : String
  results : List ResultOpaqueId
  deriving DecidableEq, Repr

/-- `ImportResultsDataResponse`. -/
structure ImportResultsDataResponse where
  results : List ResultRaw
  deriving DecidableEq, Repr

/-- `GetOwnerTaskIdRequest`.  The field `result_id` is repeated. -/
structure GetOwnerTaskIdRequest where
  sessionId : String
  resultId : List String
  deriving DecidableEq, Repr

/-- `GetOwnerTaskIdResponse.MapResultTask`. -/
structure MapResultTask where
  resultId : String
  taskId : String
  deriving DecidableEq, Repr

/-- `GetOwnerTaskIdResponse`: pairs of a result and the task that owns it, in no promised
order. -/
structure GetOwnerTaskIdResponse where
  resultTask : List MapResultTask
  sessionId : String
  deriving DecidableEq, Repr

/-! ## Creating results -/

/-- `CreateResultsMetaDataRequest.ResultCreate`. -/
structure CreateResultsMetaDataRequest.ResultCreate where
  name : String
  manualDeletion : Bool
  deriving DecidableEq, Repr

/-- `results.CreateResultsMetaDataRequest`, for results whose data come later. -/
structure CreateResultsMetaDataRequest where
  results : List CreateResultsMetaDataRequest.ResultCreate
  sessionId : String
  deriving DecidableEq, Repr

/-- `results.CreateResultsMetaDataResponse`. -/
structure CreateResultsMetaDataResponse where
  results : List ResultRaw
  deriving DecidableEq, Repr

/-- `CreateResultsRequest.ResultCreate`. -/
structure CreateResultsRequest.ResultCreate where
  name : String
  data : Bytes
  manualDeletion : Bool
  deriving DecidableEq, Repr

/-- `results.CreateResultsRequest`, for results with their data. -/
structure CreateResultsRequest where
  results : List CreateResultsRequest.ResultCreate
  sessionId : String
  deriving DecidableEq, Repr

/-- `results.CreateResultsResponse`. -/
structure CreateResultsResponse where
  results : List ResultRaw
  deriving DecidableEq, Repr

/-- `DeleteResultsDataRequest`.  The field `result_id` is repeated. -/
structure DeleteResultsDataRequest where
  sessionId : String
  resultId : List String
  deriving DecidableEq, Repr

/-! ## The agent service -/

/-- `NotifyResultDataRequest`: a worker tells its agent which files of the data folder are
complete.  Each identifier names its own session. -/
structure NotifyResultDataRequest where
  ids : List ResultIdentifier
  communicationToken : String
  deriving DecidableEq, Repr

namespace Agent

/-- `CreateResultsMetaDataRequest.ResultCreate`. -/
structure ResultCreate where
  name : String
  deriving DecidableEq, Repr

/-- `agent.CreateResultsMetaDataRequest`. -/
structure CreateResultsMetaDataRequest where
  results : List ResultCreate
  sessionId : String
  communicationToken : String
  deriving DecidableEq, Repr

/-- `agent.ResultMetaData`: what an agent says of a result, which is less than a `ResultRaw`
says. -/
structure ResultMetaData where
  sessionId : String
  resultId : String
  name : String
  status : Int
  createdAt : Option Timestamp
  deriving DecidableEq, Repr

/-- `agent.CreateResultsMetaDataResponse`. -/
structure CreateResultsMetaDataResponse where
  results : List ResultMetaData
  communicationToken : String
  deriving DecidableEq, Repr

/-- `CreateResultsRequest.ResultCreate`. -/
structure CreateResultsRequest.ResultCreate where
  name : String
  data : Bytes
  deriving DecidableEq, Repr

/-- `agent.CreateResultsRequest`. -/
structure CreateResultsRequest where
  results : List CreateResultsRequest.ResultCreate
  sessionId : String
  communicationToken : String
  deriving DecidableEq, Repr

/-- `agent.CreateResultsResponse`. -/
structure CreateResultsResponse where
  results : List ResultMetaData
  communicationToken : String
  deriving DecidableEq, Repr

end Agent

end ArmoniKApi.Proto
