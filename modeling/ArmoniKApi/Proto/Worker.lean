import ArmoniKApi.Proto.Filters

/-!
# The worker messages

The request that an agent sends to a worker to process a task.

The map of the options is a list of entries here, since that is what it is on the wire, and
an implementation may list it in any order.  `ProcessRequest` is read by the workers of four
languages, each of which looks at other fields of it.
-/

namespace ArmoniKApi.Proto

/-- `TaskOptions`.  The map `options` is a list of its entries. -/
structure TaskOptions where
  options : List (String × String)
  maxDuration : Option Duration
  maxRetries : Int
  priority : Int
  partitionId : String
  applicationName : String
  applicationVersion : String
  applicationNamespace : String
  applicationService : String
  engineType : String
  deriving DecidableEq, Repr

/-- `Configuration`: the size of the chunks that a worker should send. -/
structure Configuration where
  dataChunkMaxSize : Int
  deriving DecidableEq, Repr

/-- `ProcessRequest`: what an agent gives to its worker for one task.  The data lie in files
of the data folder, under the ids that the request names. -/
structure ProcessRequest where
  communicationToken : String
  sessionId : String
  taskId : String
  taskOptions : TaskOptions
  expectedOutputKeys : List String
  payloadId : String
  dataDependencies : List String
  dataFolder : String
  configuration : Configuration
  deriving DecidableEq, Repr

end ArmoniKApi.Proto
