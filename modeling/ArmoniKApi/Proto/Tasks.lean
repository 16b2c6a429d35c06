import ArmoniKApi.Proto.CreateTasks

/-!
# The messages about tasks

A task is sent in full (`TaskDetailed`), with the ids it refers to and an output
that says whether it succeeded, or as a line of a listing (`TaskSummary`), with
the numbers of these ids and the text of the error alone.

Both messages have the same life: from the control plane to a client, which makes an object of
its own of either.  What the two have to agree on is what both of them say, and the output is
where they differ: in full it is a flag with a text, in a listing it is the text alone, so
that a success can only be told from an error by the text being empty.

The time stamps and durations may be absent, and the lists of ids are lists on the wire; the
counts of a listing are numbers that need not come from any list.
-/

namespace ArmoniKApi.Proto

/-- `TaskDetailed.Output`. -/
structure TaskDetailed.Output where
  success : Bool
  error : String
  deriving DecidableEq, Repr

/-- `TaskDetailed`: a task with the ids of all that belongs to it. -/
structure TaskDetailed where
  id : String
  sessionId : String
  ownerPodId : String
  initialTaskId : String
  parentTaskIds : List String
  dataDependencies : List String
  expectedOutputIds : List String
  retryOfIds : List String
  status : Int
  statusMessage : String
  options : Option TaskOptions
  createdAt : Option Timestamp
  submittedAt : Option Timestamp
  receivedAt : Option Timestamp
  acquiredAt : Option Timestamp
  fetchedAt : Option Timestamp
  startedAt : Option Timestamp
  processedAt : Option Timestamp
  endedAt : Option Timestamp
  podTtl : Option Timestamp
  creationToEndDuration : Option Duration
  processingToEndDuration : Option Duration
  receivedToEndDuration : Option Duration
  payloadId : String
  createdBy : String
  output : Option TaskDetailed.Output
  podHostname : String
  deriving Repr

/-- `TaskSummary`: a task with the numbers of these ids in their place. -/
structure TaskSummary where
  id : String
  sessionId : String
  ownerPodId : String
  initialTaskId : String
  countParentTaskIds : Int
  countDataDependencies : Int
  countExpectedOutputIds : Int
  countRetryOfIds : Int
  status : Int
  statusMessage : String
  options : Option TaskOptions
  createdAt : Option Timestamp
  submittedAt : Option Timestamp
  receivedAt : Option Timestamp
  acquiredAt : Option Timestamp
  fetchedAt : Option Timestamp
  startedAt : Option Timestamp
  processedAt : Option Timestamp
  endedAt : Option Timestamp
  podTtl : Option Timestamp
  creationToEndDuration : Option Duration
  processingToEndDuration : Option Duration
  receivedToEndDuration : Option Duration
  payloadId : String
  createdBy : String
  error : String
  podHostname : String
  deriving Repr

/-! ## Lists of tasks -/

/-- `CancelTasksRequest`. -/
structure CancelTasksRequest where
  taskIds : List String
  deriving DecidableEq, Repr

/-- `CancelTasksResponse`. -/
structure CancelTasksResponse where
  tasks : List TaskSummary
  deriving Repr

/-! ## The results of tasks -/

/-- `GetResultIdsRequest`.  The field `task_id` is repeated. -/
structure GetResultIdsRequest where
  taskId : List String
  deriving DecidableEq, Repr

/-- `GetResultIdsResponse.MapTaskResult`. -/
structure MapTaskResult where
  taskId : String
  resultIds : List String
  deriving DecidableEq, Repr

/-- `GetResultIdsResponse`: pairs of a task and its results, in no promised order. -/
structure GetResultIdsResponse where
  taskResults : List MapTaskResult
  deriving DecidableEq, Repr

end ArmoniKApi.Proto
