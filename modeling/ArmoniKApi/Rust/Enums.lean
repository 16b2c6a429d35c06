import ArmoniKApi.Library.Codec
import ArmoniKApi.Proto.Enums

/-!
# The enumerations of the Rust client

Each enumeration of the domain is encoded as the number of its wire
counterpart, either by its own discriminant (`as i32`) or through the generated
enumeration (`toV3`), and decoded by `From<i32>`, which sends an unknown number
to a fixed value.  The `codec_lawful` of an enumeration says that the numbers of
the wire enumeration and the values of the domain correspond one to one.

For `sessions::RawField` the correspondence of the numbers is not one of the
names: see `RawField.asI32`.

Three things differ from one enumeration to the next, and the definitions keep them apart:

* which way the number is found.  Statuses and fields are cast with `as i32`; the operators of
  the filters, but for `FilterStatusOperator`, go through the generated enumeration;
* what becomes of an unknown number.  Statuses and operators go to the default value, fields
  to `Unspecified`, which need not be the default;
* whether the names correspond.  They do for all but `sessions::RawField`.

The round trip is by cases on the values, and what is known of a number by cases on the
numbers of the wire enumeration.
-/

namespace ArmoniKApi.Rust

/-! ## Statuses -/

/-- `TaskStatus`. -/
inductive TaskStatus
  | unspecified
  | creating
  | submitted
  | dispatched
  | completed
  | error
  | timeout
  | cancelling
  | cancelled
  | processing
  | processed
  | retried
  | pending
  | paused
  deriving DecidableEq, Repr

namespace TaskStatus

instance : Inhabited TaskStatus := ⟨.unspecified⟩

/-- `as i32`. -/
def asI32 : TaskStatus → Int
  | .unspecified => 0
  | .creating => 1
  | .submitted => 2
  | .dispatched => 3
  | .completed => 4
  | .error => 5
  | .timeout => 6
  | .cancelling => 7
  | .cancelled => 8
  | .processing => 9
  | .processed => 10
  | .retried => 11
  | .pending => 12
  | .paused => 13

/-- `From<i32>`.  A number that this version does not know is the default value. -/
def ofI32 : Int → TaskStatus
  | 0 => .unspecified
  | 1 => .creating
  | 2 => .submitted
  | 3 => .dispatched
  | 4 => .completed
  | 5 => .error
  | 6 => .timeout
  | 7 => .cancelling
  | 8 => .cancelled
  | 9 => .processing
  | 10 => .processed
  | 11 => .retried
  | 12 => .pending
  | 13 => .paused
  | _ => default

/-- To the wire with `as i32`, and back with `From<i32>`. -/
def codec : Codec TaskStatus Int := ⟨asI32, ofI32⟩

theorem codec_lawful : codec.Lawful (Codec.Known Proto.TaskStatus.number) := by
  apply Codec.lawful_known
  · intro value
    cases value <;> rfl
  · intro value
    cases value <;> rfl

end TaskStatus

/-- `SessionStatus`. -/
inductive SessionStatus
  | unspecified
  | running
  | cancelled
  | paused
  | closed
  | purged
  | deleted
  deriving DecidableEq, Repr

namespace SessionStatus

instance : Inhabited SessionStatus := ⟨.unspecified⟩

/-- `as i32`. -/
def asI32 : SessionStatus → Int
  | .unspecified => 0
  | .running => 1
  | .cancelled => 2
  | .paused => 3
  | .closed => 4
  | .purged => 5
  | .deleted => 6

/-- `From<i32>`.  A number that this version does not know is the default value. -/
def ofI32 : Int → SessionStatus
  | 0 => .unspecified
  | 1 => .running
  | 2 => .cancelled
  | 3 => .paused
  | 4 => .closed
  | 5 => .purged
  | 6 => .deleted
  | _ => default

/-- To the wire with `as i32`, and back with `From<i32>`. -/
def codec : Codec SessionStatus Int := ⟨asI32, ofI32⟩

theorem codec_lawful : codec.Lawful (Codec.Known Proto.SessionStatus.number) := by
  apply Codec.lawful_known
  · intro value
    cases value <;> rfl
  · intro value
    cases value <;> rfl

end SessionStatus

/-- `ResultStatus`. -/
inductive ResultStatus
  | unspecified
  | created
  | completed
  | aborted
  | deleted
  | notFound
  deriving DecidableEq, Repr

namespace ResultStatus

instance : Inhabited ResultStatus := ⟨.unspecified⟩

/-- `as i32`. -/
def asI32 : ResultStatus → Int
  | .unspecified => 0
  | .created => 1
  | .completed => 2
  | .aborted => 3
  | .deleted => 4
  | .notFound => 127

/-- `From<i32>`.  A number that this version does not know is the default value. -/
def ofI32 : Int → ResultStatus
  | 0 => .unspecified
  | 1 => .created
  | 2 => .completed
  | 3 => .aborted
  | 4 => .deleted
  | 127 => .notFound
  | _ => default

/-- To the wire with `as i32`, and back with `From<i32>`. -/
def codec : Codec ResultStatus Int := ⟨asI32, ofI32⟩

theorem codec_lawful : codec.Lawful (Codec.Known Proto.ResultStatus.number) := by
  apply Codec.lawful_known
  · intro value
    cases value <;> rfl
  · intro value
    cases value <;> rfl

end ResultStatus

/-! ## Filter operators -/

/-- `FilterStringOperator`. -/
inductive FilterStringOperator
  | equal
  | notEqual
  | contains
  | notContains
  | startsWith
  | endsWith
  deriving DecidableEq, Repr

namespace FilterStringOperator

instance : Inhabited FilterStringOperator := ⟨.equal⟩

/-- The enumeration that the build generates from the proto file. -/
def toV3 : FilterStringOperator → Proto.FilterStringOperator
  | .equal => .equal
  | .notEqual => .notEqual
  | .contains => .contains
  | .notContains => .notContains
  | .startsWith => .startsWith
  | .endsWith => .endsWith

/-- `From<i32>`.  A number that this version does not know is the default value. -/
def ofI32 : Int → FilterStringOperator
  | 0 => .equal
  | 1 => .notEqual
  | 2 => .contains
  | 3 => .notContains
  | 4 => .startsWith
  | 5 => .endsWith
  | _ => default

/-- To the wire through the generated enumeration, and back with `From<i32>`. -/
def codec : Codec FilterStringOperator Int := ⟨fun value => value.toV3.number, ofI32⟩

theorem codec_lawful : codec.Lawful (Codec.Known Proto.FilterStringOperator.number) := by
  apply Codec.lawful_known
  · intro value
    cases value <;> rfl
  · intro value
    cases value <;> rfl

end FilterStringOperator

/-- `FilterNumberOperator`. -/
inductive FilterNumberOperator
  | equal
  | notEqual
  | lessThan
  | lessThanOrEqual
  | greaterThanOrEqual
  | greaterThan
  deriving DecidableEq, Repr

namespace FilterNumberOperator

instance : Inhabited FilterNumberOperator := ⟨.equal⟩

/-- The enumeration that the build generates from the proto file. -/
def toV3 : FilterNumberOperator → Proto.FilterNumberOperator
  | .equal => .equal
  | .notEqual => .notEqual
  | .lessThan => .lessThan
  | .lessThanOrEqual => .lessThanOrEqual
  | .greaterThanOrEqual => .greaterThanOrEqual
  | .greaterThan => .greaterThan

/-- `From<i32>`.  A number that this version does not know is the default value. -/
def ofI32 : Int → FilterNumberOperator
  | 0 => .equal
  | 1 => .notEqual
  | 2 => .lessThan
  | 3 => .lessThanOrEqual
  | 4 => .greaterThanOrEqual
  | 5 => .greaterThan
  | _ => default

/-- To the wire through the generated enumeration, and back with `From<i32>`. -/
def codec : Codec FilterNumberOperator Int := ⟨fun value => value.toV3.number, ofI32⟩

theorem codec_lawful : codec.Lawful (Codec.Known Proto.FilterNumberOperator.number) := by
  apply Codec.lawful_known
  · intro value
    cases value <;> rfl
  · intro value
    cases value <;> rfl

end FilterNumberOperator

/-- `FilterArrayOperator`. -/
inductive FilterArrayOperator
  | contains
  | notContains
  deriving DecidableEq, Repr

namespace FilterArrayOperator

instance : Inhabited FilterArrayOperator := ⟨.contains⟩

/-- The enumeration that the build generates from the proto file. -/
def toV3 : FilterArrayOperator → Proto.FilterArrayOperator
  | .contains => .contains
  | .notContains => .notContains

/-- `From<i32>`.  A number that this version does not know is the default value. -/
def ofI32 : Int → FilterArrayOperator
  | 0 => .contains
  | 1 => .notContains
  | _ => default

/-- To the wire through the generated enumeration, and back with `From<i32>`. -/
def codec : Codec FilterArrayOperator Int := ⟨fun value => value.toV3.number, ofI32⟩

theorem codec_lawful : codec.Lawful (Codec.Known Proto.FilterArrayOperator.number) := by
  apply Codec.lawful_known
  · intro value
    cases value <;> rfl
  · intro value
    cases value <;> rfl

end FilterArrayOperator

/-- `FilterBooleanOperator`, with its one value. -/
inductive FilterBooleanOperator
  | is
  deriving DecidableEq, Repr

namespace FilterBooleanOperator

instance : Inhabited FilterBooleanOperator := ⟨.is⟩

/-- The enumeration that the build generates from the proto file. -/
def toV3 : FilterBooleanOperator → Proto.FilterBooleanOperator
  | .is => .is

/-- `From<i32>`, which has nothing to choose from. -/
def ofI32 : Int → FilterBooleanOperator
  | 0 => .is
  | _ => default

/-- To the wire through the generated enumeration, and back with `From<i32>`. -/
def codec : Codec FilterBooleanOperator Int := ⟨fun value => value.toV3.number, ofI32⟩

theorem codec_lawful : codec.Lawful (Codec.Known Proto.FilterBooleanOperator.number) := by
  apply Codec.lawful_known
  · intro value
    rfl
  · intro value
    rfl

end FilterBooleanOperator

/-- `FilterDateOperator`. -/
inductive FilterDateOperator
  | equal
  | notEqual
  | before
  | beforeOrEqual
  | afterOrEqual
  | after
  deriving DecidableEq, Repr

namespace FilterDateOperator

instance : Inhabited FilterDateOperator := ⟨.equal⟩

/-- The enumeration that the build generates from the proto file. -/
def toV3 : FilterDateOperator → Proto.FilterDateOperator
  | .equal => .equal
  | .notEqual => .notEqual
  | .before => .before
  | .beforeOrEqual => .beforeOrEqual
  | .afterOrEqual => .afterOrEqual
  | .after => .after

/-- `From<i32>`.  A number that this version does not know is the default value. -/
def ofI32 : Int → FilterDateOperator
  | 0 => .equal
  | 1 => .notEqual
  | 2 => .before
  | 3 => .beforeOrEqual
  | 4 => .afterOrEqual
  | 5 => .after
  | _ => default

/-- To the wire through the generated enumeration, and back with `From<i32>`. -/
def codec : Codec FilterDateOperator Int := ⟨fun value => value.toV3.number, ofI32⟩

theorem codec_lawful : codec.Lawful (Codec.Known Proto.FilterDateOperator.number) := by
  apply Codec.lawful_known
  · intro value
    cases value <;> rfl
  · intro value
    cases value <;> rfl

end FilterDateOperator

/-- `FilterDurationOperator`. -/
inductive FilterDurationOperator
  | equal
  | notEqual
  | shorterThan
  | shorterThanOrEqual
  | longerThanOrEqual
  | longerThan
  deriving DecidableEq, Repr

namespace FilterDurationOperator

instance : Inhabited FilterDurationOperator := ⟨.equal⟩

/-- The enumeration that the build generates from the proto file. -/
def toV3 : FilterDurationOperator → Proto.FilterDurationOperator
  | .equal => .equal
  | .notEqual => .notEqual
  | .shorterThan => .shorterThan
  | .shorterThanOrEqual => .shorterThanOrEqual
  | .longerThanOrEqual => .longerThanOrEqual
  | .longerThan => .longerThan

/-- `From<i32>`.  A number that this version does not know is the default value. -/
def ofI32 : Int → FilterDurationOperator
  | 0 => .equal
  | 1 => .notEqual
  | 2 => .shorterThan
  | 3 => .shorterThanOrEqual
  | 4 => .longerThanOrEqual
  | 5 => .longerThan
  | _ => default

/-- To the wire through the generated enumeration, and back with `From<i32>`. -/
def codec : Codec FilterDurationOperator Int := ⟨fun value => value.toV3.number, ofI32⟩

theorem codec_lawful : codec.Lawful (Codec.Known Proto.FilterDurationOperator.number) := by
  apply Codec.lawful_known
  · intro value
    cases value <;> rfl
  · intro value
    cases value <;> rfl

end FilterDurationOperator

/-- `FilterStatusOperator`. -/
inductive FilterStatusOperator
  | equal
  | notEqual
  deriving DecidableEq, Repr

namespace FilterStatusOperator

instance : Inhabited FilterStatusOperator := ⟨.equal⟩

/-- `as i32`. -/
def asI32 : FilterStatusOperator → Int
  | .equal => 0
  | .notEqual => 1

/-- `From<i32>`.  A number that this version does not know is the default value. -/
def ofI32 : Int → FilterStatusOperator
  | 0 => .equal
  | 1 => .notEqual
  | _ => default

/-- To the wire with `as i32`, and back with `From<i32>`. -/
def codec : Codec FilterStatusOperator Int := ⟨asI32, ofI32⟩

theorem codec_lawful : codec.Lawful (Codec.Known Proto.FilterStatusOperator.number) := by
  apply Codec.lawful_known
  · intro value
    cases value <;> rfl
  · intro value
    cases value <;> rfl

end FilterStatusOperator

/-! ## Fields -/

/-- `TaskOptionField`, of tasks and of sessions. -/
inductive TaskOptionField
  | unspecified
  | maxDuration
  | maxRetries
  | priority
  | partitionId
  | applicationName
  | applicationVersion
  | applicationNamespace
  | applicationService
  | applicationEngine
  deriving DecidableEq, Repr

namespace TaskOptionField

instance : Inhabited TaskOptionField := ⟨.unspecified⟩

/-- `as i32`. -/
def asI32 : TaskOptionField → Int
  | .unspecified => 0
  | .maxDuration => 1
  | .maxRetries => 2
  | .priority => 3
  | .partitionId => 4
  | .applicationName => 5
  | .applicationVersion => 6
  | .applicationNamespace => 7
  | .applicationService => 8
  | .applicationEngine => 9

/-- `From<i32>`.  A number that this version does not know is `Unspecified`. -/
def ofI32 : Int → TaskOptionField
  | 0 => .unspecified
  | 1 => .maxDuration
  | 2 => .maxRetries
  | 3 => .priority
  | 4 => .partitionId
  | 5 => .applicationName
  | 6 => .applicationVersion
  | 7 => .applicationNamespace
  | 8 => .applicationService
  | 9 => .applicationEngine
  | _ => .unspecified

/-- To the wire with `as i32`, and back with `From<i32>`. -/
def codec : Codec TaskOptionField Int := ⟨asI32, ofI32⟩

theorem codec_lawful : codec.Lawful (Codec.Known Proto.TaskOptionEnumField.number) := by
  apply Codec.lawful_known
  · intro value
    cases value <;> rfl
  · intro value
    cases value <;> rfl

end TaskOptionField

namespace Tasks

/-- `tasks::SummaryField`. -/
inductive SummaryField
  | unspecified
  | taskId
  | sessionId
  | ownerPodId
  | initialTaskId
  | status
  | createdAt
  | submittedAt
  | startedAt
  | endedAt
  | creationToEndDuration
  | processingToEndDuration
  | receivedToEndDuration
  | podTtl
  | podHostname
  | receivedAt
  | acquiredAt
  | processedAt
  | fetchedAt
  | error
  | payloadId
  | createdBy
  deriving DecidableEq, Repr

namespace SummaryField

instance : Inhabited SummaryField := ⟨.taskId⟩

/-- `as i32`. -/
def asI32 : SummaryField → Int
  | .unspecified => 0
  | .taskId => 16
  | .sessionId => 1
  | .ownerPodId => 9
  | .initialTaskId => 10
  | .status => 2
  | .createdAt => 3
  | .submittedAt => 11
  | .startedAt => 4
  | .endedAt => 5
  | .creationToEndDuration => 6
  | .processingToEndDuration => 7
  | .receivedToEndDuration => 18
  | .podTtl => 12
  | .podHostname => 13
  | .receivedAt => 14
  | .acquiredAt => 15
  | .processedAt => 17
  | .fetchedAt => 19
  | .error => 8
  | .payloadId => 20
  | .createdBy => 21

/-- `From<i32>`.  A number that this version does not know is `Unspecified`, which is not
the default value here. -/
def ofI32 : Int → SummaryField
  | 0 => .unspecified
  | 16 => .taskId
  | 1 => .sessionId
  | 9 => .ownerPodId
  | 10 => .initialTaskId
  | 2 => .status
  | 3 => .createdAt
  | 11 => .submittedAt
  | 4 => .startedAt
  | 5 => .endedAt
  | 6 => .creationToEndDuration
  | 7 => .processingToEndDuration
  | 18 => .receivedToEndDuration
  | 12 => .podTtl
  | 13 => .podHostname
  | 14 => .receivedAt
  | 15 => .acquiredAt
  | 17 => .processedAt
  | 19 => .fetchedAt
  | 8 => .error
  | 20 => .payloadId
  | 21 => .createdBy
  | _ => .unspecified

/-- To the wire with `as i32`, and back with `From<i32>`. -/
def codec : Codec SummaryField Int := ⟨asI32, ofI32⟩

theorem codec_lawful : codec.Lawful (Codec.Known Proto.TaskSummaryEnumField.number) := by
  apply Codec.lawful_known
  · intro value
    cases value <;> rfl
  · intro value
    cases value <;> rfl

end SummaryField

end Tasks

namespace Sessions

/-- `sessions::RawField`. -/
inductive RawField
  | unspecified
  | sessionId
  | status
  | clientSubmission
  | workerSubmission
  | partitionIds
  | options
  | createdAt
  | cancelledAt
  | closedAt
  | purgedAt
  | deletedAt
  | duration
  deriving DecidableEq, Repr

namespace RawField

instance : Inhabited RawField := ⟨.sessionId⟩

/-- `as i32`.  Five of these numbers are not those of the wire enumeration:
8 to 12 stand there for `CLOSED_AT`, `PURGED_AT`, `DELETED_AT`,
`WORKER_SUBMISSION` and `CLIENT_SUBMISSION`. -/
def asI32 : RawField → Int
  | .unspecified => 0
  | .sessionId => 1
  | .status => 2
  | .clientSubmission => 8
  | .workerSubmission => 9
  | .partitionIds => 3
  | .options => 4
  | .createdAt => 5
  | .cancelledAt => 6
  | .closedAt => 12
  | .purgedAt => 10
  | .deletedAt => 11
  | .duration => 7

/-- `From<i32>`, by the same numbers as `asI32`. -/
def ofI32 : Int → RawField
  | 0 => .unspecified
  | 1 => .sessionId
  | 2 => .status
  | 8 => .clientSubmission
  | 9 => .workerSubmission
  | 3 => .partitionIds
  | 4 => .options
  | 5 => .createdAt
  | 6 => .cancelledAt
  | 12 => .closedAt
  | 10 => .purgedAt
  | 11 => .deletedAt
  | 7 => .duration
  | _ => .unspecified

/-- To the wire with `as i32`, and back with `From<i32>`. -/
def codec : Codec RawField Int := ⟨asI32, ofI32⟩

theorem codec_lawful : codec.Lawful (Codec.Known Proto.SessionRawEnumField.number) := by
  apply Codec.lawful_known
  · intro value
    cases value <;> rfl
  · intro value
    cases value <;> rfl

end RawField

end Sessions

namespace Results

/-- `results::Field`. -/
inductive Field
  | unspecified
  | sessionId
  | name
  | ownerTaskId
  | status
  | createdAt
  | completedAt
  | resultId
  | size
  | createdBy
  | opaqueId
  | manualDeletion
  deriving DecidableEq, Repr

namespace Field

instance : Inhabited Field := ⟨.resultId⟩

/-- `as i32`. -/
def asI32 : Field → Int
  | .unspecified => 0
  | .sessionId => 1
  | .name => 2
  | .ownerTaskId => 3
  | .status => 4
  | .createdAt => 5
  | .completedAt => 6
  | .resultId => 7
  | .size => 8
  | .createdBy => 9
  | .opaqueId => 10
  | .manualDeletion => 11

/-- `From<i32>`.  A number that this version does not know is `Unspecified`. -/
def ofI32 : Int → Field
  | 0 => .unspecified
  | 1 => .sessionId
  | 2 => .name
  | 3 => .ownerTaskId
  | 4 => .status
  | 5 => .createdAt
  | 6 => .completedAt
  | 7 => .resultId
  | 8 => .size
  | 9 => .createdBy
  | 10 => .opaqueId
  | 11 => .manualDeletion
  | _ => .unspecified

/-- To the wire with `as i32`, and back with `From<i32>`. -/
def codec : Codec Field Int := ⟨asI32, ofI32⟩

theorem codec_lawful : codec.Lawful (Codec.Known Proto.ResultRawEnumField.number) := by
  apply Codec.lawful_known
  · intro value
    cases value <;> rfl
  · intro value
    cases value <;> rfl

end Field

end Results

namespace Partitions

/-- `partitions::Field`. -/
inductive Field
  | unspecified
  | id
  | parentPartitionIds
  | podReserved
  | podMax
  | preemptionPercentage
  | priority
  deriving DecidableEq, Repr

namespace Field

instance : Inhabited Field := ⟨.id⟩

/-- `as i32`. -/
def asI32 : Field → Int
  | .unspecified => 0
  | .id => 1
  | .parentPartitionIds => 2
  | .podReserved => 3
  | .podMax => 4
  | .preemptionPercentage => 5
  | .priority => 6

/-- `From<i32>`.  A number that this version does not know is `Unspecified`. -/
def ofI32 : Int → Field
  | 0 => .unspecified
  | 1 => .id
  | 2 => .parentPartitionIds
  | 3 => .podReserved
  | 4 => .podMax
  | 5 => .preemptionPercentage
  | 6 => .priority
  | _ => .unspecified

/-- To the wire with `as i32`, and back with `From<i32>`. -/
def codec : Codec Field Int := ⟨asI32, ofI32⟩

theorem codec_lawful : codec.Lawful (Codec.Known Proto.PartitionRawEnumField.number) := by
  apply Codec.lawful_known
  · intro value
    cases value <;> rfl
  · intro value
    cases value <;> rfl

end Field

end Partitions

namespace Applications

/-- `applications::Field`. -/
inductive Field
  | unspecified
  | name
  | version
  | namespace
  | service
  deriving DecidableEq, Repr

namespace Field

instance : Inhabited Field := ⟨.name⟩

/-- `as i32`. -/
def asI32 : Field → Int
  | .unspecified => 0
  | .name => 1
  | .version => 2
  | .namespace => 3
  | .service => 4

/-- `From<i32>`.  A number that this version does not know is `Unspecified`. -/
def ofI32 : Int → Field
  | 0 => .unspecified
  | 1 => .name
  | 2 => .version
  | 3 => .namespace
  | 4 => .service
  | _ => .unspecified

/-- To the wire with `as i32`, and back with `From<i32>`. -/
def codec : Codec Field Int := ⟨asI32, ofI32⟩

theorem codec_lawful : codec.Lawful (Codec.Known Proto.ApplicationRawEnumField.number) := by
  apply Codec.lawful_known
  · intro value
    cases value <;> rfl
  · intro value
    cases value <;> rfl

end Field

end Applications

end ArmoniKApi.Rust
