import ArmoniKApi.Library.Machine
import ArmoniKApi.Proto.Events

/-!
# Waiting for results in Java

`EventClient.waitForResultsAsync` cuts the ids into chunks and submits one
worker a chunk to a fixed pool of threads.  A worker subscribes as long as ids
are missing, and waits after each subscription on a latch that the callbacks of
the stream count down.  The future it returns is that of all the workers.

The model is a machine whose events are the moves of the workers and the
callbacks of grpc-java, in any order in which they are enabled.  What is assumed
of grpc-java is in `Bucket.step`: an exception thrown by `onNext` cancels the
call, after which only `onError` is called.

A worker is in one of a few places, and so is its last call:

```text
worker      queued -> atCondition -> awaiting -> atCondition -> ... -> done
call        closed -> open -> cancelled, by a throw in `onNext` -> closed -> open -> ...
```

`step` of a bucket lists which moves are enabled in which places; a move that is not enabled
is not possible, and a run is any list of enabled moves.  The pool lets a worker start when a
thread is free and all earlier ones have started, as a fixed pool with a queue does.

The loop of `chunkList` is given as many turns as the list is long, which is enough for a size
of at least 1.  `KeepsPromise` is stated over runs of the whole system with its history of
events, so that it speaks of what was received before the future completed.
-/

namespace ArmoniKApi.Java

open Proto (EventSubscriptionRequest EventSubscriptionResponse ResultStatus ResultRawEnumField
  EventsEnum)

/-! ## The request and the chunks -/

/-- `CreateEventSubscriptionRequest`.  The operator of the `FilterString` that
the loop sets is the default, number 0. -/
def createEventSubscriptionRequest (sessionId : String) (resultIds : List String) :
    EventSubscriptionRequest where
  sessionId := sessionId
  tasksFilters := none
  resultsFilters := some ⟨resultIds.map fun resultId =>
    ⟨[⟨some ⟨some (.resultRawField ⟨ResultRawEnumField.resultId.number⟩)⟩,
      some (.filterString ⟨resultId, 0⟩)⟩]⟩⟩
  returnedEvents := [EventsEnum.resultStatusUpdate.number, EventsEnum.newResult.number]

/-- The loop of `chunkList` from the index `i` on, for at most `fuel` turns. -/
def chunkLoop (list : List String) (chunkSize : ℕ) : ℕ → ℕ → List (List String)
  | 0, _ => []
  | fuel + 1, i =>
      if i < list.length then
        (list.take (min list.length (i + chunkSize))).drop i ::
          chunkLoop list chunkSize fuel (i + chunkSize)
      else []

/-- `chunkList`.  With a chunk size of at least 1 the loop makes no more turns
than the list has items. -/
def chunkList (list : List String) (chunkSize : ℕ) : List (List String) :=
  chunkLoop list chunkSize list.length 0

/-! ## One worker and its stream -/

/-- Where the task submitted with `runAsync` is. -/
inductive Worker
  | queued
  /-- About to test `!resultsNotFound.isEmpty()`. -/
  | atCondition
  /-- In `latch.await()`. -/
  | awaiting
  | done (outcome : Except String Unit)
  deriving Repr

/-- The last call of `getEvents`. -/
inductive Call
  | open
  /-- `onNext` has thrown, and `onError` is still to be called. -/
  | cancelled (message : String)
  | closed
  deriving DecidableEq, Repr

/-- The wait for one bucket: the ids of the bucket, those that are missing, and what is
going on. -/
structure Bucket where
  chunk : List String
  resultsNotFound : Finset String
  worker : Worker
  latch : ℕ
  call : Call

/-- The moves of a worker, and the callbacks of its stream. -/
inductive Action
  | start
  | subscribe (request : EventSubscriptionRequest)
  | leave
  | wake
  | onNext (response : EventSubscriptionResponse)
  | onError
  | onCompleted
  deriving DecidableEq, Repr

namespace Bucket

/-- `latch.countDown()`. -/
def countDown (bucket : Bucket) : Bucket :=
  { bucket with latch := bucket.latch - 1 }

/-- The two branches of `onNext`, which do the same. -/
def onStatus (bucket : Bucket) (resultId : String) (status : Int) : Bucket :=
  if resultId ∈ bucket.resultsNotFound then
    if status = ResultStatus.completed.number then
      let bucket := { bucket with resultsNotFound := bucket.resultsNotFound.erase resultId }
      if bucket.resultsNotFound = ∅ then bucket.countDown else bucket
    else if status = ResultStatus.aborted.number then
      -- the exception that is thrown here never reaches the worker
      { bucket with call := .cancelled ("Result " ++ resultId ++ " has been aborted") }
    else bucket
  else bucket

/-- `onNext`, for the two kinds of updates that are about a result.  Other kinds are
ignored. -/
def onNext (bucket : Bucket) (response : EventSubscriptionResponse) : Bucket :=
  match response.update with
  | some (.resultStatusUpdate update) => bucket.onStatus update.resultId update.status
  | some (.newResult update) => bucket.onStatus update.resultId update.status
  | _ => bucket

/-- One action of the wait for a bucket. -/
def step (sessionId : String) (bucket : Bucket) : Action → Option Bucket
  | .start =>
      match bucket.worker with
      | .queued =>
          some { bucket with
            worker := .atCondition
            resultsNotFound := bucket.chunk.toFinset }
      | _ => none
  | .subscribe request =>
      match bucket.worker with
      | .atCondition =>
          if bucket.resultsNotFound ≠ ∅ ∧
              request = createEventSubscriptionRequest sessionId bucket.chunk then
            some { bucket with
              worker := .awaiting
              latch := 1
              call := .open }
          else none
      | _ => none
  | .leave =>
      match bucket.worker with
      | .atCondition =>
          if bucket.resultsNotFound = ∅ then some { bucket with worker := .done (.ok ()) }
          else none
      | _ => none
  | .wake =>
      match bucket.worker with
      | .awaiting => if bucket.latch = 0 then some { bucket with worker := .atCondition } else none
      | _ => none
  | .onNext response =>
      match bucket.call with
      | .open => some (bucket.onNext response)
      | _ => none
  | .onError =>
      match bucket.call with
      | .closed => none
      | _ => some { bucket.countDown with call := .closed }
  | .onCompleted =>
      match bucket.call with
      | .open => some { bucket.countDown with call := .closed }
      | _ => none

end Bucket

/-! ## The pool and the future -/

/-- All buckets of a call, and how many of them may be waited for at the same time. -/
structure System where
  sessionId : String
  parallelism : ℕ
  buckets : List Bucket

namespace System

/-- The worker holds a thread of the pool. -/
def running (bucket : Bucket) : Bool :=
  match bucket.worker with
  | .atCondition | .awaiting => true
  | _ => false

/-- The wait for the bucket has not been started. -/
def queued (bucket : Bucket) : Bool :=
  match bucket.worker with
  | .queued => true
  | _ => false

/-- A thread is free, and the earlier tasks have been started. -/
def mayStart (s : System) (i : ℕ) : Bool :=
  s.buckets.countP running < s.parallelism && (s.buckets.take i).all fun bucket => !queued bucket

/-- Bucket `i` makes a move, or its stream calls back. -/
def step (s : System) (event : ℕ × Action) : Option System :=
  match s.buckets[event.1]? with
  | none => none
  | some bucket =>
      if event.2 = .start ∧ ¬ s.mayStart event.1 then none
      else
        (bucket.step s.sessionId event.2).map fun next =>
          { s with buckets := s.buckets.set event.1 next }

/-- `CompletableFuture.allOf`: it completes when all have completed, and
exceptionally when one has completed exceptionally. -/
def allOf : List Bucket → Option (Except String Unit)
  | [] => some (.ok ())
  | bucket :: rest =>
      match bucket.worker, allOf rest with
      | .done (.ok ()), some others => some others
      | .done (.error message), some _ => some (.error message)
      | _, _ => none

/-- The future that the call returns, whose `thenRun` cannot fail. -/
def future (s : System) : Option (Except String Unit) := allOf s.buckets

end System

/-- `waitForResultsAsync`, when all workers have been submitted.  For a parallelism
of 0 `newFixedThreadPool` throws; here no worker ever starts. -/
def waitForResultsAsync (sessionId : String) (resultIds : List String) (bucketSize : ℕ)
    (parallelism : ℕ) : System where
  sessionId := sessionId
  parallelism := parallelism
  buckets := (chunkList resultIds bucketSize).map fun chunk => ⟨chunk, ∅, .queued, 0, .closed⟩

/-! ## The promise -/

/-- The id is awaited by bucket `i` and not yet completed. -/
def System.Awaits (s : System) (i : ℕ) (id : String) : Prop :=
  ∃ bucket, s.buckets[i]? = some bucket ∧ id ∈ bucket.resultsNotFound

/-- What a run of the call promises, after the events `trace`.

The future completes normally only if every id was reported COMPLETED.  After an
awaited id was reported ABORTED no subscription of its bucket follows, and the
future can still complete exceptionally. -/
structure KeepsPromise (start : System) (resultIds : List String) (trace : List (ℕ × Action))
    (s : System) : Prop where
  normal : s.future = some (.ok ()) → ∀ id ∈ resultIds,
    ∃ i response, (i, Action.onNext response) ∈ trace ∧ response.Completes id
  aborted : ∀ before i response after mid id,
    trace = before ++ (i, .onNext response) :: after →
    Machine.run System.step start before = some mid → mid.Awaits i id →
    response.report? = some ⟨id, .failed⟩ →
      (∀ request, (i, Action.subscribe request) ∉ after) ∧
        ∃ later last message, Machine.run System.step s later = some last ∧
          last.future = some (.error message)

end ArmoniKApi.Java
