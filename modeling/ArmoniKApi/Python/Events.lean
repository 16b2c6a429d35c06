import ArmoniKApi.Proto.Events
import ArmoniKApi.Python.Filter

/-!
# Waiting for results in Python

`armonik.client.events`: `get_events` hands the events of one stream to a list
of handlers, `_wait_all` subscribes again and again until a bucket of results
is there, and `wait_for_result_availability` does so for every bucket, one
after the other or on a pool of threads.

The server is an arbitrary answer: each subscription of a bucket is answered by
the next stream of a list.  When the list is used up the bucket is still
waiting (`Outcome.blocked`), so a list of streams stands for what has happened
so far in a wait that may go on.

The handler is a closure with a state of its own, so it is a function from a state to a state
and a result here, and `get_events` threads the state through the messages.  That a stream may
break off is in its end, `clean` or with an error, and an `RpcError` is caught by the loop of
`_wait_all` and by nothing else.

```text
stream                       get_events      the loop of _wait_all
the handler asks to stop     returns         is left
ends cleanly                 returns         is left, whether or not ids are missing
breaks off                   raises          subscribes again
ABORTED, of a missing id     raises          the exception goes on to the caller
```

The pool is known by the order in which it completes its waits (`Schedule`), with what a pool
of so many threads can do: a wait is started when fewer than all threads are busy, in order,
and what is started and does not block completes.
-/

namespace ArmoniKApi.Python

open Proto (EventsEnum EventStream EventSubscriptionResponse)
open Proto.EventSubscriptionResponse (Update)

/-! ## Reading one stream -/

/-- An `EventSubscriptionRequest`, with the messages of the filters. -/
structure EventSubscriptionRequest where
  sessionId : String
  returnedEvents : List EventsEnum
  tasksFilters : DisjunctionMessage
  resultsFilters : DisjunctionMessage

/-- A handler gets the session, the type of the event and the event, and returns
whether to stop.  It is a closure: it keeps a state of its own, also when it
raises. -/
abbrev EventHandler (σ : Type) := String → EventsEnum → Update → σ → PyResult Bool × σ

/-- What reading a stream comes to: the state of the handlers, and the messages
that were received. -/
structure Reading (σ : Type) where
  result : PyResult Unit
  state : σ
  received : List EventSubscriptionResponse

/-- `EventTypes.from_string(message.WhichOneof("update"))` together with the
event.  `from_raw_event` copies every field of the update, so the event is
modelled by the update itself; `None` has no method `upper`. -/
def eventOf (message : EventSubscriptionResponse) : PyResult (EventsEnum × Update) :=
  match message.update with
  | none => throw .attributeError
  | some (.taskStatusUpdate update) => return (.taskStatusUpdate, .taskStatusUpdate update)
  | some (.resultStatusUpdate update) => return (.resultStatusUpdate, .resultStatusUpdate update)
  | some (.resultOwnerUpdate update) => return (.resultOwnerUpdate, .resultOwnerUpdate update)
  | some (.newTask update) => return (.newTask, .newTask update)
  | some (.newResult update) => return (.newResult, .newResult update)

/-- `any(event_handler(…) for event_handler in event_handlers)`: the first
handler that returns `True` keeps the following ones from being called. -/
def anyHandler {σ : Type} (sessionId : String) (eventType : EventsEnum) (event : Update) :
    List (EventHandler σ) → σ → PyResult Bool × σ
  | [], state => (.ok false, state)
  | eventHandler :: rest, state =>
      match eventHandler sessionId eventType event state with
      | (.ok false, next) => anyHandler sessionId eventType event rest next
      | stop => stop

/-- The loop `for message in streaming_call`. -/
def readMessages {σ : Type} (sessionId : String) (eventHandlers : List (EventHandler σ))
    (ending : Proto.StreamEnd) : List EventSubscriptionResponse → σ → Reading σ
  | [], state =>
      match ending with
      | .clean => ⟨.ok (), state, []⟩
      | .rpcError => ⟨.error .rpcError, state, []⟩
  | message :: rest, state =>
      match eventOf message with
      | .error error => ⟨.error error, state, [message]⟩
      | .ok (eventType, event) =>
          match anyHandler sessionId eventType event eventHandlers state with
          | (.error error, next) => ⟨.error error, next, [message]⟩
          | (.ok true, next) => ⟨.ok (), next, [message]⟩
          | (.ok false, next) =>
              let reading := readMessages sessionId eventHandlers ending rest next
              { reading with received := message :: reading.received }

/-- The message of an optional filter in the request, empty for `None`. -/
def filterMessage (messageType : MessageType) : Option Filter → PyResult DisjunctionMessage
  | some filter => do (← filter.toDisjunction).toMessage
  | none => return ⟨messageType, []⟩

/-- The request of `get_events`. -/
def eventRequest (sessionId : String) (eventTypes : List EventsEnum)
    (taskFilter resultFilter : Option Filter) : PyResult EventSubscriptionRequest := do
  let tasksFilters ← filterMessage "tasks.Filters" taskFilter
  let resultsFilters ← filterMessage "results.Filters" resultFilter
  return ⟨sessionId, eventTypes, tasksFilters, resultsFilters⟩

/-- `get_events`.  The server answers the request with `stream`. -/
def getEvents {σ : Type} (stream : EventStream) (sessionId : String)
    (eventTypes : List EventsEnum) (eventHandlers : List (EventHandler σ))
    (taskFilter resultFilter : Option Filter) (state : σ) : Reading σ :=
  match eventRequest sessionId eventTypes taskFilter resultFilter with
  | .error error => ⟨.error error, state, []⟩
  | .ok _ => readMessages sessionId eventHandlers stream.ending stream.responses state

/-! ## Waiting for one bucket -/

/-- How a wait ends, or that it has not ended yet. -/
inductive Outcome
  | returned
  | raised (error : PyError)
  | blocked

/-- The outcome of the wait for one bucket, and the messages it received. -/
structure WaitRun where
  outcome : Outcome
  received : List EventSubscriptionResponse

/-- The body of the loop of `_wait_all` that builds the filter. -/
def addResult (filter : Option Filter) (resultId : String) : PyResult (Option Filter) := do
  let condition ← ResultFilter.resultId.eq (.str resultId)
  match filter with
  | none => return some condition
  | some filter => return some (← filter.or condition)

/-- The filter of `_wait_all`: `Result.result_id == …` for every id, joined by `|`. -/
def resultsFilter (results : List String) : PyResult (Option Filter) :=
  results.foldlM addResult none

/-- The text of the `RuntimeError` for an aborted result. -/
def abortedMessage (resultId : String) : String := s!"Result {resultId} has been aborted."

/-- What `handler` does with the result and the status of an event. -/
def handleStatus (resultId : String) (status : Int) (notFound : Finset String) :
    PyResult Bool × Finset String :=
  if resultId ∈ notFound then
    if status = Proto.ResultStatus.completed.number then
      let notFound := notFound.erase resultId
      (.ok (notFound = ∅), notFound)
    else if status = Proto.ResultStatus.aborted.number then
      (.error (.runtimeError (abortedMessage resultId)), notFound)
    else
      (.ok false, notFound)
  else
    (.ok false, notFound)

/-- The closure `handler` of `_wait_all`, whose state is `not_found`.  The events
about tasks have no attribute `result_id`, and the owner update of an awaited
result has no attribute `status`. -/
def handler : EventHandler (Finset String) := fun _ _ event notFound =>
  match event with
  | .resultStatusUpdate update => handleStatus update.resultId update.status notFound
  | .newResult update => handleStatus update.resultId update.status notFound
  | .resultOwnerUpdate update =>
      if update.resultId ∈ notFound then (.error .attributeError, notFound)
      else (.ok false, notFound)
  | .taskStatusUpdate _ | .newTask _ => (.error .attributeError, notFound)

/-- The loop `while not_found`.  An `RpcError` starts the next subscription, a
normal return of `get_events` leaves the loop. -/
def waitLoop (sessionId : String) (filter : Option Filter) (notFound : Finset String) :
    List EventStream → WaitRun
  | [] => if notFound = ∅ then ⟨.returned, []⟩ else ⟨.blocked, []⟩
  | stream :: rest =>
      if notFound = ∅ then
        ⟨.returned, []⟩
      else
        let reading := getEvents stream sessionId [.resultStatusUpdate, .newResult] [handler]
          none filter notFound
        match reading.result with
        | .ok _ => ⟨.returned, reading.received⟩
        | .error .rpcError =>
            let run := waitLoop sessionId filter reading.state rest
            { run with received := reading.received ++ run.received }
        | .error error => ⟨.raised error, reading.received⟩

/-- `_wait_all`, for subscriptions answered by `streams`. -/
def waitAll (streams : List EventStream) (sessionId : String) (results : List String) : WaitRun :=
  if results.length = 0 then
    ⟨.returned, []⟩
  else
    match resultsFilter results with
    | .error error => ⟨.raised error, []⟩
    | .ok filter => waitLoop sessionId filter results.toFinset streams

/-! ## Waiting for all results -/

/-- The argument `result_ids`. -/
inductive ResultIds
  | one (resultId : String)
  | many (resultIds : List String)

/-- `result_ids`, made a list. -/
def ResultIds.toList : ResultIds → List String
  | .one resultId => [resultId]
  | .many resultIds => resultIds

/-- An order in which Python iterates over `set(items)`. -/
structure SetOrder (items : List String) where
  order : List String
  nodup : order.Nodup
  mem_iff : ∀ item, item ∈ order ↔ item ∈ items

/-- `batched`, with the batch that is being filled. -/
def batchedFrom {α : Type} (n : Nat) : List α → List α → List (List α)
  | batch, [] => if 0 < batch.length then [batch] else []
  | batch, c :: rest =>
      if (batch ++ [c]).length = n then (batch ++ [c]) :: batchedFrom n [] rest
      else batchedFrom n (batch ++ [c]) rest

/-- `batched`. -/
def batched {α : Type} (items : List α) (n : Nat) : List (List α) := batchedFrom n [] items

/-- A call of `wait_for_result_availability`: its outcome, and every batch that
was waited for with the messages that its wait received. -/
structure CallRun where
  outcome : Outcome
  received : List (List String × List EventSubscriptionResponse)

/-- The loop over the batches without a pool. -/
def waitBatches (wait : List String → WaitRun) : List (List String) → CallRun
  | [] => ⟨.returned, []⟩
  | batch :: rest =>
      match (wait batch).outcome with
      | .returned =>
          let call := waitBatches wait rest
          { call with received := (batch, (wait batch).received) :: call.received }
      | outcome => ⟨outcome, [(batch, (wait batch).received)]⟩

/-- An order in which a pool of `maxWorkers` threads completes the waits.  The
pool starts the batches in order, one more for each that completes, until every
worker is held up by a wait that does not end. -/
structure Schedule (maxWorkers : Nat) (batches : List (List String))
    (wait : List String → WaitRun) where
  order : List (List String)
  nodup : order.Nodup
  started : ∀ n batch, order[n]? = some batch → batch ∈ batches.take (maxWorkers + n)
  completes : ∀ batch ∈ order, (wait batch).outcome ≠ .blocked
  maximal : ∀ batch ∈ batches.take (maxWorkers + order.length), batch ∉ order →
    (wait batch).outcome = .blocked

/-- The loop over `as_completed(futures)`, which ends when every future has
completed. -/
def collectFutures (wait : List String → WaitRun) (pending : List (List String)) :
    List (List String) → Outcome
  | [] => if pending = [] then .returned else .blocked
  | batch :: rest =>
      match (wait batch).outcome with
      | .raised error => .raised error
      | _ => collectFutures wait (pending.erase batch) rest

/-- The waits on a pool of threads.  When the call raises, the waits that are
still running have received a part of the messages given here. -/
def waitPool (wait : List String → WaitRun) (maxWorkers : Nat) (batches : List (List String))
    (schedule : Schedule maxWorkers batches wait) : CallRun where
  outcome := collectFutures wait batches schedule.order
  received := (batches.take (maxWorkers + schedule.order.length)).map fun batch =>
    (batch, (wait batch).received)

/-- `wait_for_result_availability`.  The subscriptions of a batch are answered
by `streams batch`, and `schedule` is what the pool makes of the waits. -/
def waitForResultAvailability (streams : List String → List EventStream) (resultIds : ResultIds)
    (sessionId : String) (bucketSize parallelism : Nat) (ids : SetOrder resultIds.toList)
    (schedule : Schedule parallelism (batched ids.order bucketSize)
      fun batch => waitAll (streams batch) sessionId batch) : CallRun :=
  if ids.order.length = 0 then
    ⟨.returned, []⟩
  else if 1 < parallelism then
    waitPool (fun batch => waitAll (streams batch) sessionId batch) parallelism
      (batched ids.order bucketSize) schedule
  else
    waitBatches (fun batch => waitAll (streams batch) sessionId batch)
      (batched ids.order bucketSize)

end ArmoniKApi.Python
