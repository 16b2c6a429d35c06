import ArmoniKApi.Library.Await
import ArmoniKApi.Proto.Filters

/-!
# The event subscription messages

The client libraries wait for results by subscribing to the events of a
session.  A subscription is answered by a stream of `EventSubscriptionResponse`
messages, which ends cleanly or with an error status.

Two of the five kinds of update speak about the status of a result: a status
update and the announcement of a new result.  `report?` reads both as a report
about the result, which is the vocabulary of `Await`: a COMPLETED result is
done, an ABORTED one has failed, and any other status number says nothing.

The clients differ in what they do with a stream, and even in which of the two kinds of update
they look at.  So the module also has the words in which a promise about a wait is stated for
all of them:

* `reports`: what a list of responses says about results, in order;
* `Completes`: one response reports one result COMPLETED;
* `exists_completes_iff`: some response does just if the reports say that the result is done,
  which goes from the messages that a client has received to the verdict of a wait.

A subscription names the results in a filter, and the clients build it each in its own way.
`anyResultId` is what it should come to: one condition `result_id == id` for each id, of which
one has to hold.
-/

namespace ArmoniKApi.Proto

open Await (Report Outcome)

/-! ## Messages -/

/-- `EventSubscriptionRequest`: the session, a filter for the events about tasks and one for
those about results, and the numbers of the kinds to return. -/
structure EventSubscriptionRequest where
  sessionId : String
  tasksFilters : Option Tasks.Filters
  resultsFilters : Option Results.Filters
  returnedEvents : List Int
  deriving DecidableEq, Repr

namespace EventSubscriptionResponse

/-- `EventSubscriptionResponse.TaskStatusUpdate`. -/
structure TaskStatusUpdate where
  taskId : String
  status : Int
  deriving DecidableEq, Repr

/-- `EventSubscriptionResponse.ResultStatusUpdate`, what a waiter for a result looks out
for. -/
structure ResultStatusUpdate where
  resultId : String
  status : Int
  deriving DecidableEq, Repr

/-- `EventSubscriptionResponse.ResultOwnerUpdate`: another task is to produce the result. -/
structure ResultOwnerUpdate where
  resultId : String
  previousOwnerId : String
  currentOwnerId : String
  deriving DecidableEq, Repr

/-- `EventSubscriptionResponse.NewTask`. -/
structure NewTask where
  taskId : String
  payloadId : String
  originTaskId : String
  status : Int
  expectedOutputKeys : List String
  dataDependencies : List String
  retryOfIds : List String
  parentTaskIds : List String
  deriving DecidableEq, Repr

/-- `EventSubscriptionResponse.NewResult`.  It has a status as well, so a waiter may learn
from it that the result is there. -/
structure NewResult where
  resultId : String
  ownerId : String
  status : Int
  deriving DecidableEq, Repr

/-- The oneof `update`. -/
inductive Update
  | taskStatusUpdate (update : TaskStatusUpdate)
  | resultStatusUpdate (update : ResultStatusUpdate)
  | resultOwnerUpdate (update : ResultOwnerUpdate)
  | newTask (update : NewTask)
  | newResult (update : NewResult)
  deriving DecidableEq, Repr

end EventSubscriptionResponse

/-- `EventSubscriptionResponse`: one event of the session. -/
structure EventSubscriptionResponse where
  sessionId : String
  update : Option EventSubscriptionResponse.Update
  deriving DecidableEq, Repr

/-- How the server ends a stream. -/
inductive StreamEnd
  | clean
  | rpcError
  deriving DecidableEq, Repr

/-- One subscription as the server serves it. -/
structure EventStream where
  responses : List EventSubscriptionResponse
  ending : StreamEnd
  deriving DecidableEq, Repr

/-! ## Reports about results -/

/-- What the number of a result status says to a waiter. -/
def statusOutcome (status : Int) : Outcome :=
  if status = ResultStatus.completed.number then .done
  else if status = ResultStatus.aborted.number then .failed
  else .other

@[simp] theorem statusOutcome_eq_done_iff {status : Int} :
    statusOutcome status = .done ↔ status = ResultStatus.completed.number := by
  unfold statusOutcome
  split_ifs <;> simp_all

@[simp] theorem statusOutcome_eq_failed_iff {status : Int} :
    statusOutcome status = .failed ↔ status = ResultStatus.aborted.number := by
  unfold statusOutcome
  split_ifs with hdone haborted
  · simp only [false_iff, hdone]
    decide
  · simpa using haborted
  · simpa using haborted

namespace EventSubscriptionResponse

/-- The report that a response makes about the status of a result. -/
def report? (response : EventSubscriptionResponse) : Option (Report String) :=
  match response.update with
  | some (.resultStatusUpdate update) => some ⟨update.resultId, statusOutcome update.status⟩
  | some (.newResult update) => some ⟨update.resultId, statusOutcome update.status⟩
  | _ => none

/-- The response is a result status update or announces a new result. -/
def IsResultEvent (response : EventSubscriptionResponse) : Prop :=
  response.report?.isSome

instance (response : EventSubscriptionResponse) : Decidable response.IsResultEvent :=
  inferInstanceAs (Decidable (response.report?.isSome = true))

/-- The reports made by a list of responses, in order. -/
def reports (responses : List EventSubscriptionResponse) : List (Report String) :=
  responses.filterMap report?

@[simp] theorem reports_nil : reports [] = [] := rfl

theorem reports_cons_of_some {response : EventSubscriptionResponse} {report : Report String}
    {rest : List EventSubscriptionResponse} (h : response.report? = some report) :
    reports (response :: rest) = report :: reports rest := by
  simp [reports, h]

@[simp] theorem reports_append (first second : List EventSubscriptionResponse) :
    reports (first ++ second) = reports first ++ reports second := by
  simp [reports]

/-- The response reports the result COMPLETED. -/
def Completes (response : EventSubscriptionResponse) (resultId : String) : Prop :=
  response.report? = some ⟨resultId, .done⟩

/-- A response that says of no id in `pending` that it is done completes none of
them. -/
theorem not_completes_of_report {response : EventSubscriptionResponse} {id : String}
    {outcome : Outcome} {pending : Finset String} (hreport : response.report? = some ⟨id, outcome⟩)
    (hother : id ∈ pending → outcome ≠ .done) : ∀ other ∈ pending, ¬ response.Completes other := by
  intro other hpending hcompletes
  obtain ⟨rfl, hdone⟩ := Report.mk.inj (Option.some.inj (hreport.symm.trans hcompletes))
  exact hother hpending hdone

theorem not_completes_of_none {response : EventSubscriptionResponse}
    (hnone : response.report? = none) (id : String) : ¬ response.Completes id := by
  intro hcompletes
  cases hnone.symm.trans hcompletes

theorem exists_completes_iff {responses : List EventSubscriptionResponse} {resultId : String} :
    (∃ response ∈ responses, response.Completes resultId) ↔
      Await.ReportedDone (reports responses) resultId := by
  simp [Completes, reports, Await.ReportedDone]

end EventSubscriptionResponse

/-! ## Subscribing to results -/

/-- The filter on one result id, `result_id == resultId`. -/
def resultIdEquals (resultId : String) : Results.FiltersAnd :=
  ⟨[⟨some ⟨some (.resultRawField ⟨ResultRawEnumField.resultId.number⟩)⟩,
    some (.filterString ⟨resultId, FilterStringOperator.equal.number⟩)⟩]⟩

/-- The filter that selects the events of any of the given results. -/
def anyResultId (resultIds : List String) : Results.Filters :=
  ⟨resultIds.map resultIdEquals⟩

end ArmoniKApi.Proto
