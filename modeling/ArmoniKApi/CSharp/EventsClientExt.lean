import ArmoniKApi.Proto.Events

/-!
# Waiting for results in C#

`EventsClientExt.WaitForResultsAsync` cuts the ids into buckets and waits for
the buckets side by side.  The wait for one bucket subscribes again and again
until every id of the bucket was reported COMPLETED, is ended by an exception
when one of them is reported ABORTED, and gives up at the sixth `RpcException`
that no response headers have separated from the first.

The buckets share nothing but the cancellation token, which is never signalled
here: whatever the parallelism, the wait for a bucket depends only on what its
own subscriptions bring.  A run keeps all that a wait did, up to the moment when
the subscriptions given to it are used up.

A wait has local variables, subscriptions and an end, and the promise speaks about all of
them: which ids were moved at which moment, what was received, and how it ended.  So a run is
not just a result.  `Reading` keeps one attempt, `Run` keeps the attempts in their order, and
both keep every state that the variables went through.

```text
response                       body of the loop
COMPLETED, of the bucket       the id moves to the other set; leave when none is left
ABORTED, of the bucket         throw, with what was found out so far
anything else                  read the next one
```

The order in which a set is enumerated shows in the request and is a parameter.  A bucket that
the limit on the parallelism keeps waiting has no subscriptions yet, so that every schedule of
the buckets is a choice of the subscriptions given to them.
-/

namespace ArmoniKApi.CSharp

open Proto (EventSubscriptionRequest EventSubscriptionResponse EventStream ResultStatus
  ResultRawEnumField FilterStringOperator EventsEnum)

/-! ## State and exceptions -/

/-- The local variables of the wait for one bucket. -/
structure Wait where
  resultsCompleted : List String
  resultsNotFound : Finset String
  retryCount : ℕ

/-- `ResultAbortedException`, with what the wait had found out by then. -/
structure ResultAbortedException where
  message : String
  abortedResultId : String
  completedResultIds : List String
  remainingResultIds : Finset String

/-- What one call of `GetEvents` comes to: an `RpcException` before the headers
have arrived, or a stream. -/
inductive Attempt
  | failsToOpen
  | opened (stream : EventStream)
  deriving DecidableEq, Repr

/-- The answer of the server to one subscription. -/
abbrev Subscription := EventSubscriptionRequest → Attempt

/-- The order in which a set is enumerated. -/
structure Enumeration where
  toList : Finset String → List String
  nodup : ∀ items, (toList items).Nodup
  mem_iff : ∀ items item, item ∈ toList items ↔ item ∈ items

/-! ## The request -/

/-- `ResultsFilter`. -/
def resultsFilter (resultId : String) : Proto.Results.FiltersAnd :=
  ⟨[⟨some ⟨some (.resultRawField ⟨ResultRawEnumField.resultId.number⟩)⟩,
    some (.filterString ⟨resultId, FilterStringOperator.equal.number⟩)⟩]⟩

/-- The request of one attempt: the events about the results of the bucket. -/
def eventSubscriptionRequest (sessionId : String) (results : List String) :
    EventSubscriptionRequest where
  sessionId := sessionId
  tasksFilters := none
  resultsFilters := some ⟨results.map resultsFilter⟩
  returnedEvents := [EventsEnum.resultStatusUpdate.number, EventsEnum.newResult.number]

/-! ## One stream -/

/-- What the body of the loop over the responses does: read the next one, leave
the loop, or throw. -/
inductive Handled
  | next (wait : Wait)
  | stop (wait : Wait)
  | thrown (exception : ResultAbortedException)

/-- The id moves from `resultsNotFound` to `resultsCompleted`. -/
def Wait.complete (wait : Wait) (resultId : String) : Wait :=
  { wait with
    resultsCompleted := wait.resultsCompleted ++ [resultId]
    resultsNotFound := wait.resultsNotFound.erase resultId }

/-- The exception for an aborted result. -/
def Wait.abortedException (wait : Wait) (resultId : String) : ResultAbortedException where
  message := "Result " ++ resultId ++ " has been aborted"
  abortedResultId := resultId
  completedResultIds := wait.resultsCompleted
  remainingResultIds := wait.resultsNotFound

/-- The body of the loop for an event about a result, the same for a status
update and for a new result. -/
def handleStatus (wait : Wait) (resultId : String) (status : Int) : Handled :=
  if resultId ∈ wait.resultsNotFound then
    if status = ResultStatus.completed.number then
      let wait := wait.complete resultId
      if wait.resultsNotFound = ∅ then .stop wait else .next wait
    else if status = ResultStatus.aborted.number then
      .thrown (wait.abortedException resultId)
    else .next wait
  else .next wait

/-- The `switch` on the kind of the update.  Both kinds that are about a result go the same
way. -/
def handle (wait : Wait) (response : EventSubscriptionResponse) : Handled :=
  match response.update with
  | some (.resultStatusUpdate update) => handleStatus wait update.resultId update.status
  | some (.newResult update) => handleStatus wait update.resultId update.status
  | _ => .next wait

/-- How the `try` block is left. -/
inductive Left
  | finished
  | aborted (exception : ResultAbortedException)
  | rpcException

/-- One attempt: the variables after it, the responses it received, and every
state of the variables that it went through. -/
structure Reading where
  left : Left
  wait : Wait
  received : List EventSubscriptionResponse
  trace : List Wait

/-- A response was read, after which the variables were `wait`. -/
def Reading.prepend (response : EventSubscriptionResponse) (wait : Wait) (reading : Reading) :
    Reading :=
  { reading with
    received := response :: reading.received
    trace := wait :: reading.trace }

/-- The loop over the responses of a stream. -/
def readResponses (ending : Proto.StreamEnd) : Wait → List EventSubscriptionResponse → Reading
  | wait, [] =>
      match ending with
      | .clean => ⟨.finished, wait, [], []⟩
      | .rpcError => ⟨.rpcException, wait, [], []⟩
  | wait, response :: rest =>
      match handle wait response with
      | .stop wait => ⟨.finished, wait, [response], [wait]⟩
      | .thrown exception => ⟨.aborted exception, wait, [response], [wait]⟩
      | .next wait => (readResponses ending wait rest).prepend response wait

/-- The `try` block. -/
def readAttempt (wait : Wait) : Attempt → Reading
  | .failsToOpen => ⟨.rpcException, wait, [], []⟩
  | .opened stream =>
      -- the headers have arrived
      let wait := { wait with retryCount := 0 }
      let reading := readResponses stream.ending wait stream.responses
      { reading with trace := wait :: reading.trace }

/-! ## One bucket -/

/-- How the wait for a bucket ends, or that it has not ended. -/
inductive Ending
  | completed
  | aborted (exception : ResultAbortedException)
  | rpcException
  | waiting

/-- A run of the wait for a bucket: its attempts, the responses it received and
the states of its variables, all of them in order. -/
structure Run where
  ending : Ending
  attempts : List Attempt
  received : List EventSubscriptionResponse
  trace : List Wait

/-- An attempt was made, after which the wait went on. -/
def Run.prepend (attempt : Attempt) (received : List EventSubscriptionResponse)
    (trace : List Wait) (run : Run) : Run :=
  { run with
    attempts := attempt :: run.attempts
    received := received ++ run.received
    trace := trace ++ run.trace }

/-- The loop `while (resultsNotFound.Any() …)`. -/
def waitLoop (enumeration : Enumeration) (sessionId : String) : Wait → List Subscription → Run
  | wait, [] =>
      if wait.resultsNotFound = ∅ then ⟨.completed, [], [], []⟩ else ⟨.waiting, [], [], []⟩
  | wait, subscribe :: rest =>
      if wait.resultsNotFound = ∅ then
        ⟨.completed, [], [], []⟩
      else
        let attempt := subscribe
          (eventSubscriptionRequest sessionId (enumeration.toList wait.resultsNotFound))
        let reading := readAttempt wait attempt
        match reading.left with
        -- a stream that ended without an error, or that told enough
        | .finished =>
            (waitLoop enumeration sessionId reading.wait rest).prepend attempt reading.received
              reading.trace
        | .aborted exception => ⟨.aborted exception, [attempt], reading.received, reading.trace⟩
        | .rpcException =>
            let wait := { reading.wait with retryCount := reading.wait.retryCount + 1 }
            let trace := reading.trace ++ [wait]
            if 5 < wait.retryCount then
              ⟨.rpcException, [attempt], reading.received, trace⟩
            else
              (waitLoop enumeration sessionId wait rest).prepend attempt reading.received trace

/-- The variables at the start. -/
def Wait.start (results : List String) : Wait := ⟨[], results.toFinset, 0⟩

/-- The function that is run for one bucket. -/
def waitForBucket (enumeration : Enumeration) (sessionId : String) (results : List String)
    (subscriptions : List Subscription) : Run :=
  let run := waitLoop enumeration sessionId (.start results) subscriptions
  { run with trace := .start results :: run.trace }

/-- `WaitForResultsAsync`: every bucket with its run.  The bucket at position `i`
is served by `subscriptions i`, and has none as long as the limit of the
parallelism has kept it from starting. -/
def waitForResultsAsync (toChunks : List String → ℕ → List (List String))
    (enumeration : Enumeration) (subscriptions : ℕ → List Subscription) (sessionId : String)
    (resultIds : List String) (bucketSize : ℕ) : List (List String × Run) :=
  (toChunks resultIds bucketSize).mapIdx fun i results =>
    (results, waitForBucket enumeration sessionId results (subscriptions i))

end ArmoniKApi.CSharp
