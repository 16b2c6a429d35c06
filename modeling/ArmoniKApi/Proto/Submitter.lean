import ArmoniKApi.Proto.CreateTasks

/-!
# The filters, the statuses and the downloads of the submitter service

`TaskFilter` and `SessionFilter`, with which tasks and sessions are listed,
counted, waited for and cancelled.  Both hold a oneof of two lists of statuses.

The replies that say how many tasks have each status, and which status a task or
a result has.

`ResultReply`, of which a stream brings the data of a result in chunks.

The oneof of statuses is declared twice, in both filters, with the same arms: a list to
include, or a list to exclude.  `Statuses.Selects` says which numbers a filter lets through,
which is what is lost when the two arms are taken for each other.

The replies with statuses are lists of pairs.  `Count` keeps its pairs in the order of the
message, and the same status may occur twice in it.

The accessors of a protobuf message do not say whether the field is set: an absent one reads
as its default.  `DataChunk.data` and `DataChunk.dataComplete` behave so, since the C++ client
reads its chunks with them.
-/

namespace ArmoniKApi.Proto

/-- `StatusesRequest`: numbers of statuses. -/
structure StatusesRequest where
  statuses : List Int
  deriving DecidableEq, Repr

/-- `TaskFilter.statuses` and `SessionFilter.statuses`. -/
inductive Statuses
  | included (statuses : StatusesRequest)
  | excluded (statuses : StatusesRequest)
  deriving DecidableEq, Repr

/-- The statuses that a filter lets through. -/
def Statuses.Selects : Statuses → Int → Prop
  | .included request, status => status ∈ request.statuses
  | .excluded request, status => status ∉ request.statuses

/-- `TaskFilter.IdsRequest`. -/
structure IdsRequest where
  ids : List String
  deriving DecidableEq, Repr

/-- `TaskFilter.ids`. -/
inductive TaskFilter.Ids
  | session (ids : IdsRequest)
  | task (ids : IdsRequest)
  deriving DecidableEq, Repr

/-- `TaskFilter`: sessions or tasks by their ids, and the statuses to let through or to
leave out. -/
structure TaskFilter where
  ids : Option TaskFilter.Ids
  statuses : Option Statuses
  deriving DecidableEq, Repr

/-- `SessionFilter`. -/
structure SessionFilter where
  sessions : List String
  statuses : Option Statuses
  deriving DecidableEq, Repr

/-! ## The statuses of tasks and results -/

/-- `StatusCount`: the number of a status, and how many tasks have it. -/
structure StatusCount where
  status : Int
  count : Int
  deriving DecidableEq, Repr

/-- How many tasks have each status. -/
structure Count where
  values : List StatusCount
  deriving DecidableEq, Repr

/-- `GetTaskStatusReply.IdStatus`. -/
structure GetTaskStatusReply.IdStatus where
  taskId : String
  status : Int
  deriving DecidableEq, Repr

/-- `GetTaskStatusReply`: pairs, which a client may take for a map. -/
structure GetTaskStatusReply where
  idStatuses : List GetTaskStatusReply.IdStatus
  deriving DecidableEq, Repr

/-- `GetResultStatusReply.IdStatus`. -/
structure GetResultStatusReply.IdStatus where
  resultId : String
  status : Int
  deriving DecidableEq, Repr

/-- `GetResultStatusReply`. -/
structure GetResultStatusReply where
  idStatuses : List GetResultStatusReply.IdStatus
  deriving DecidableEq, Repr

/-! ## The data of a result -/

/-- `Error`: what happened to a task. -/
structure Error where
  taskStatus : Int
  detail : String
  deriving DecidableEq, Repr

/-- `TaskError`: the task that was to produce a result has failed. -/
structure TaskError where
  taskId : String
  errors : List Error
  deriving DecidableEq, Repr

/-- `ResultReply.type`. -/
inductive ResultReply.OneOf
  | result (result : DataChunk)
  | error (error : TaskError)
  | notCompletedTask (notCompletedTask : String)
  deriving DecidableEq, Repr

/-- `ResultReply`, a message of the stream that downloads a result: a chunk, the error of
its task, or the id of a task that has not ended. -/
structure ResultReply where
  type : Option ResultReply.OneOf
  deriving DecidableEq, Repr

/-- The accessor of `data`, empty when another field is set. -/
def DataChunk.data : DataChunk → Bytes
  | ⟨some (.data data)⟩ => data
  | _ => []

/-- The accessor of `data_complete`, false when another field is set. -/
def DataChunk.dataComplete : DataChunk → Bool
  | ⟨some (.dataComplete dataComplete)⟩ => dataComplete
  | _ => false

end ArmoniKApi.Proto
