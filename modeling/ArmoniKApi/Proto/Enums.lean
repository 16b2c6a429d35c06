import Mathlib.Init

/-!
# The enumerations of the wire format

Every enumeration of `Protos/V1` used by the client libraries, with the number
that each value has on the wire.  An enum field of a message holds a number and
not one of these values: proto3 enumerations are open, so a peer may send a
number that this version does not know.  `number` gives the number of a known
value, and the numbers of an enumeration are exactly the values of `number`.

The numbers are written out value by value, in the order of the proto files, since the files
do not always count: some enumerations leave numbers out, one has a number far from the
others, and one does not list its fields in the order of their numbers.  A definition that
counted would be shorter and could not be compared with the file.

The enumerations of a domain, with their own order and their own numbers, are in the modules
of the client libraries.  Which of the two a client uses, and whether the numbers agree, is
not settled here.
-/

namespace ArmoniKApi.Proto

/-! ## Statuses -/

/-- `task_status.TaskStatus`. -/
inductive TaskStatus
  | unspecified
  | creating
  | submitted
  | dispatched
  | completed
  | error
  | timeout
  | cancelling
  | cancelled
  | processing
  | processed
  | retried
  | pending
  | paused
  deriving DecidableEq, Repr

/-- The number on the wire.  The numbers of the task statuses follow the order of the
file. -/
def TaskStatus.number : TaskStatus → Int
  | .unspecified => 0
  | .creating => 1
  | .submitted => 2
  | .dispatched => 3
  | .completed => 4
  | .error => 5
  | .timeout => 6
  | .cancelling => 7
  | .cancelled => 8
  | .processing => 9
  | .processed => 10
  | .retried => 11
  | .pending => 12
  | .paused => 13

/-- `session_status.SessionStatus`. -/
inductive SessionStatus
  | unspecified
  | running
  | cancelled
  | paused
  | closed
  | purged
  | deleted
  deriving DecidableEq, Repr

/-- The number on the wire. -/
def SessionStatus.number : SessionStatus → Int
  | .unspecified => 0
  | .running => 1
  | .cancelled => 2
  | .paused => 3
  | .closed => 4
  | .purged => 5
  | .deleted => 6

/-- `result_status.ResultStatus`. -/
inductive ResultStatus
  | unspecified
  | created
  | completed
  | aborted
  | deleted
  | notfound
  deriving DecidableEq, Repr

/-- The number on the wire.  `NOTFOUND` stands apart from the others, at 127. -/
def ResultStatus.number : ResultStatus → Int
  | .unspecified => 0
  | .created => 1
  | .completed => 2
  | .aborted => 3
  | .deleted => 4
  | .notfound => 127

/-! ## Filter operators -/

/-- `FilterStringOperator`: how a text is compared. -/
inductive FilterStringOperator
  | equal
  | notEqual
  | contains
  | notContains
  | startsWith
  | endsWith
  deriving DecidableEq, Repr

/-- The number on the wire. -/
def FilterStringOperator.number : FilterStringOperator → Int
  | .equal => 0
  | .notEqual => 1
  | .contains => 2
  | .notContains => 3
  | .startsWith => 4
  | .endsWith => 5

/-- `FilterNumberOperator`: how a number is compared. -/
inductive FilterNumberOperator
  | equal
  | notEqual
  | lessThan
  | lessThanOrEqual
  | greaterThanOrEqual
  | greaterThan
  deriving DecidableEq, Repr

/-- The number on the wire. -/
def FilterNumberOperator.number : FilterNumberOperator → Int
  | .equal => 0
  | .notEqual => 1
  | .lessThan => 2
  | .lessThanOrEqual => 3
  | .greaterThanOrEqual => 4
  | .greaterThan => 5

/-- `FilterDateOperator`: how a date is compared. -/
inductive FilterDateOperator
  | equal
  | notEqual
  | before
  | beforeOrEqual
  | afterOrEqual
  | after
  deriving DecidableEq, Repr

/-- The number on the wire. -/
def FilterDateOperator.number : FilterDateOperator → Int
  | .equal => 0
  | .notEqual => 1
  | .before => 2
  | .beforeOrEqual => 3
  | .afterOrEqual => 4
  | .after => 5

/-- `FilterDurationOperator`: how a duration is compared. -/
inductive FilterDurationOperator
  | equal
  | notEqual
  | shorterThan
  | shorterThanOrEqual
  | longerThanOrEqual
  | longerThan
  deriving DecidableEq, Repr

/-- The number on the wire. -/
def FilterDurationOperator.number : FilterDurationOperator → Int
  | .equal => 0
  | .notEqual => 1
  | .shorterThan => 2
  | .shorterThanOrEqual => 3
  | .longerThanOrEqual => 4
  | .longerThan => 5

/-- `FilterArrayOperator`: whether an array has an element.  There is no equality of
arrays. -/
inductive FilterArrayOperator
  | contains
  | notContains
  deriving DecidableEq, Repr

/-- The number on the wire. -/
def FilterArrayOperator.number : FilterArrayOperator → Int
  | .contains => 0
  | .notContains => 1

/-- `FilterStatusOperator`: whether a status is the one given. -/
inductive FilterStatusOperator
  | equal
  | notEqual
  deriving DecidableEq, Repr

/-- The number on the wire. -/
def FilterStatusOperator.number : FilterStatusOperator → Int
  | .equal => 0
  | .notEqual => 1

/-- `FilterBooleanOperator`, which has one operator: a condition is negated by its value. -/
inductive FilterBooleanOperator
  | is
  deriving DecidableEq, Repr

/-- The number on the wire. -/
def FilterBooleanOperator.number : FilterBooleanOperator → Int
  | .is => 0

/-! ## Fields of the listing services -/

/-- `tasks.TaskSummaryEnumField`, in the order of the proto file. -/
inductive TaskSummaryEnumField
  | unspecified
  | taskId
  | sessionId
  | ownerPodId
  | initialTaskId
  | status
  | createdAt
  | submittedAt
  | startedAt
  | endedAt
  | creationToEndDuration
  | processingToEndDuration
  | receivedToEndDuration
  | podTtl
  | podHostname
  | receivedAt
  | acquiredAt
  | processedAt
  | error
  | fetchedAt
  | payloadId
  | createdBy
  deriving DecidableEq, Repr

/-- The number on the wire.  The file does not list the fields in the order of their
numbers. -/
def TaskSummaryEnumField.number : TaskSummaryEnumField → Int
  | .unspecified => 0
  | .taskId => 16
  | .sessionId => 1
  | .ownerPodId => 9
  | .initialTaskId => 10
  | .status => 2
  | .createdAt => 3
  | .submittedAt => 11
  | .startedAt => 4
  | .endedAt => 5
  | .creationToEndDuration => 6
  | .processingToEndDuration => 7
  | .receivedToEndDuration => 18
  | .podTtl => 12
  | .podHostname => 13
  | .receivedAt => 14
  | .acquiredAt => 15
  | .processedAt => 17
  | .error => 8
  | .fetchedAt => 19
  | .payloadId => 20
  | .createdBy => 21

/-- `TaskOptionEnumField`, which `tasks` and `sessions` declare alike. -/
inductive TaskOptionEnumField
  | unspecified
  | maxDuration
  | maxRetries
  | priority
  | partitionId
  | applicationName
  | applicationVersion
  | applicationNamespace
  | applicationService
  | engineType
  deriving DecidableEq, Repr

/-- The number on the wire. -/
def TaskOptionEnumField.number : TaskOptionEnumField → Int
  | .unspecified => 0
  | .maxDuration => 1
  | .maxRetries => 2
  | .priority => 3
  | .partitionId => 4
  | .applicationName => 5
  | .applicationVersion => 6
  | .applicationNamespace => 7
  | .applicationService => 8
  | .engineType => 9

/-- `sessions.SessionRawEnumField`, in the order of the proto file. -/
inductive SessionRawEnumField
  | unspecified
  | sessionId
  | status
  | partitionIds
  | options
  | createdAt
  | cancelledAt
  | closedAt
  | purgedAt
  | deletedAt
  | duration
  | workerSubmission
  | clientSubmission
  deriving DecidableEq, Repr

/-- The number on the wire. -/
def SessionRawEnumField.number : SessionRawEnumField → Int
  | .unspecified => 0
  | .sessionId => 1
  | .status => 2
  | .partitionIds => 3
  | .options => 4
  | .createdAt => 5
  | .cancelledAt => 6
  | .closedAt => 8
  | .purgedAt => 9
  | .deletedAt => 10
  | .duration => 7
  | .workerSubmission => 11
  | .clientSubmission => 12

/-- `results.ResultRawEnumField`. -/
inductive ResultRawEnumField
  | unspecified
  | sessionId
  | name
  | ownerTaskId
  | status
  | createdAt
  | completedAt
  | resultId
  | size
  | createdBy
  | opaqueId
  | manualDeletion
  deriving DecidableEq, Repr

/-- The number on the wire. -/
def ResultRawEnumField.number : ResultRawEnumField → Int
  | .unspecified => 0
  | .sessionId => 1
  | .name => 2
  | .ownerTaskId => 3
  | .status => 4
  | .createdAt => 5
  | .completedAt => 6
  | .resultId => 7
  | .size => 8
  | .createdBy => 9
  | .opaqueId => 10
  | .manualDeletion => 11

/-- `partitions.PartitionRawEnumField`. -/
inductive PartitionRawEnumField
  | unspecified
  | id
  | parentPartitionIds
  | podReserved
  | podMax
  | preemptionPercentage
  | priority
  deriving DecidableEq, Repr

/-- The number on the wire. -/
def PartitionRawEnumField.number : PartitionRawEnumField → Int
  | .unspecified => 0
  | .id => 1
  | .parentPartitionIds => 2
  | .podReserved => 3
  | .podMax => 4
  | .preemptionPercentage => 5
  | .priority => 6

/-- `applications.ApplicationRawEnumField`. -/
inductive ApplicationRawEnumField
  | unspecified
  | name
  | version
  | namespace
  | service
  deriving DecidableEq, Repr

/-- The number on the wire. -/
def ApplicationRawEnumField.number : ApplicationRawEnumField → Int
  | .unspecified => 0
  | .name => 1
  | .version => 2
  | .namespace => 3
  | .service => 4

/-! ## Events -/

/-- `EventsEnum`: the kinds of events that a subscription asks for. -/
inductive EventsEnum
  | unspecified
  | newTask
  | taskStatusUpdate
  | newResult
  | resultStatusUpdate
  | resultOwnerUpdate
  deriving DecidableEq, Repr

/-- The number on the wire. -/
def EventsEnum.number : EventsEnum → Int
  | .unspecified => 0
  | .newTask => 1
  | .taskStatusUpdate => 2
  | .newResult => 3
  | .resultStatusUpdate => 4
  | .resultOwnerUpdate => 5

end ArmoniKApi.Proto
