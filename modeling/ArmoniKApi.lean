import ArmoniKApi.Library.Await
import ArmoniKApi.Library.Batches
import ArmoniKApi.Library.Binary64
import ArmoniKApi.Library.Chunking
import ArmoniKApi.Library.Codec
import ArmoniKApi.Library.Decimal
import ArmoniKApi.Library.Fallible
import ArmoniKApi.Library.Folder
import ArmoniKApi.Library.Framing
import ArmoniKApi.Library.GrpcTarget
import ArmoniKApi.Library.History
import ArmoniKApi.Library.Json
import ArmoniKApi.Library.JsonAscii
import ArmoniKApi.Library.KeyedMap
import ArmoniKApi.Library.Layers
import ArmoniKApi.Library.Loop
import ArmoniKApi.Library.Machine
import ArmoniKApi.Library.MachineInt
import ArmoniKApi.Library.NormalForm
import ArmoniKApi.Library.OStringStream
import ArmoniKApi.Library.Paging
import ArmoniKApi.Library.Parallel
import ArmoniKApi.Library.ReadCache
import ArmoniKApi.Library.RelativePath
import ArmoniKApi.Library.Separator
import ArmoniKApi.Library.Shared
import ArmoniKApi.Library.SlashPath
import ArmoniKApi.Library.UriText
import ArmoniKApi.Proto.CreateTasks
import ArmoniKApi.Proto.Enums
import ArmoniKApi.Proto.Events
import ArmoniKApi.Proto.Filters
import ArmoniKApi.Proto.Results
import ArmoniKApi.Proto.Submitter
import ArmoniKApi.Proto.TaskStream
import ArmoniKApi.Proto.Tasks
import ArmoniKApi.Proto.Worker
import ArmoniKApi.Python.Batched
import ArmoniKApi.Python.BatchedCalls
import ArmoniKApi.Python.Channel
import ArmoniKApi.Python.ClefLogger
import ArmoniKApi.Python.Events
import ArmoniKApi.Python.Filter
import ArmoniKApi.Python.FilterAlgebra
import ArmoniKApi.Python.FilterBool
import ArmoniKApi.Python.FilterEmits
import ArmoniKApi.Python.FilterErrors
import ArmoniKApi.Python.FilterExpr
import ArmoniKApi.Python.FilterFields
import ArmoniKApi.Python.FilterInvert
import ArmoniKApi.Python.FilterLeaf
import ArmoniKApi.Python.FilterSchema
import ArmoniKApi.Python.FixImports
import ArmoniKApi.Python.ImportData
import ArmoniKApi.Python.ImportLines
import ArmoniKApi.Python.ImportTree
import ArmoniKApi.Python.Objects
import ArmoniKApi.Python.SubmitTasks
import ArmoniKApi.Python.TaskCounts
import ArmoniKApi.Python.WaitForResults
import ArmoniKApi.Python.WaitLoop
import ArmoniKApi.Cpp.ChannelArguments
import ArmoniKApi.Cpp.ClefFormatter
import ArmoniKApi.Cpp.Configuration
import ArmoniKApi.Cpp.Endpoints
import ArmoniKApi.Cpp.EventsClient
import ArmoniKApi.Cpp.JsonConfiguration
import ArmoniKApi.Cpp.ListClients
import ArmoniKApi.Cpp.ListPartitions
import ArmoniKApi.Cpp.Listing
import ArmoniKApi.Cpp.ListingRuns
import ArmoniKApi.Cpp.Logger
import ArmoniKApi.Cpp.PathJoin
import ArmoniKApi.Cpp.StringSearch
import ArmoniKApi.Cpp.StringView
import ArmoniKApi.Cpp.SubmitTasks
import ArmoniKApi.Cpp.SubmitterClient
import ArmoniKApi.Cpp.TaskHandler
import ArmoniKApi.Cpp.TaskHandlerCalls
import ArmoniKApi.Cpp.TaskHandlerStream
import ArmoniKApi.Cpp.Timespan
import ArmoniKApi.Rust.ClientConfig
import ArmoniKApi.Rust.Connect
import ArmoniKApi.Rust.CreateTasks
import ArmoniKApi.Rust.Enums
import ArmoniKApi.Rust.Events
import ArmoniKApi.Rust.Filters
import ArmoniKApi.Rust.ImportResults
import ArmoniKApi.Rust.ListFilters
import ArmoniKApi.Rust.MapReplies
import ArmoniKApi.Rust.NotifyResultData
import ArmoniKApi.Rust.Process
import ArmoniKApi.Rust.SubmitterFilters
import ArmoniKApi.Rust.Tasks
import ArmoniKApi.CSharp.CancelledStreams
import ArmoniKApi.CSharp.CountingService
import ArmoniKApi.CSharp.EventsClientExt
import ArmoniKApi.CSharp.LoggerExt
import ArmoniKApi.CSharp.ServiceConfig
import ArmoniKApi.CSharp.TaskStreams
import ArmoniKApi.CSharp.WaitForResults
import ArmoniKApi.CSharp.WorkerStreamWrapper
import ArmoniKApi.Java.EventClient
import ArmoniKApi.Java.FutureWorker
import ArmoniKApi.Java.RetryDuration
import ArmoniKApi.Java.WaitForResults
import ArmoniKApi.Sdks.ChunkLoops
import ArmoniKApi.Sdks.DataDependencies
import ArmoniKApi.Sdks.DownloadResult
import ArmoniKApi.Sdks.FilterInterop
import ArmoniKApi.Sdks.GetOwnerTaskId
import ArmoniKApi.Sdks.ResultFiles
import ArmoniKApi.Sdks.UploadResultData
