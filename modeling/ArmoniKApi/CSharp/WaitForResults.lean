import ArmoniKApi.CSharp.EventsClientExt

/-!
# What the C# wait promises

`handle_cases` says all that one response can do to the variables of a wait.
From it, `Tracks` is kept along every stream and every run: the completed and
the missing ids partition the bucket, and the missing ones are those that no
response received so far reported COMPLETED.

The retry counter is followed separately: `Row count attempts` says that the
last `count` attempts raised an `RpcException` each, and that all but the first
of these did so before their headers arrived.

## Strategy

The wait subscribes any number of times, receives anything, and may end in four ways.  The
invariant is therefore over all that was received in all attempts, and not over the last one.

* `Handles` is the inversion lemma of the body of the loop, with its guards.  `handleStatus`
  and `handle` are unfolded for it and nowhere else.
* `Tracks` is the invariant of the two sets.  It is kept by a response that does nothing
  (`Tracks.skip`) and by one that completes an id (`Tracks.complete`), and it describes the
  exception in the third case (`Tracks.describes`).
* `Reading.Sound` and `Run.Sound` carry it through a stream and through the attempts, with
  every state on the way; `prepend` puts one response or one attempt in front.
* The retry counter goes back to zero when headers arrive, so it counts a row of attempts at
  the end of the run (`Row`), which may have begun with one attempt that had its headers.

`waitLoop_sound` is the induction over the subscriptions, by the cases of how the `try` block
was left.  The buckets are independent, so the promise of the call is that of each bucket.
-/

namespace ArmoniKApi.CSharp

open Await (Outcome Report ReportedDone remaining)
open Proto (EventSubscriptionResponse)
open Proto.EventSubscriptionResponse (reports not_completes_of_report)

variable {wait : Wait} {results : List String} {response : EventSubscriptionResponse}
  {received : List EventSubscriptionResponse}

/-! ## One response -/

/-- All that one response can do: nothing, complete a missing id, or report one
ABORTED. -/
inductive Handles (wait : Wait) (response : EventSubscriptionResponse) : Handled → Prop
  | skip (hsilent : ∀ id ∈ wait.resultsNotFound, ¬ response.Completes id) :
      Handles wait response (.next wait)
  | complete (id : String) (hmissing : id ∈ wait.resultsNotFound)
      (hcompletes : response.Completes id) : Handles wait response (.next (wait.complete id))
  | last (id : String) (hmissing : id ∈ wait.resultsNotFound)
      (hcompletes : response.Completes id) : Handles wait response (.stop (wait.complete id))
  | abort (id : String) (hmissing : id ∈ wait.resultsNotFound)
      (hreport : response.report? = some ⟨id, .failed⟩) :
      Handles wait response (.thrown (wait.abortedException id))

theorem handleStatus_handles {resultId : String} {status : Int}
    (hreport : response.report? = some ⟨resultId, Proto.statusOutcome status⟩) :
    Handles wait response (handleStatus wait resultId status) := by
  unfold handleStatus
  split
  -- `resultsNotFound.Contains` is false: the update is skipped
  case isFalse hmissing =>
    exact .skip (not_completes_of_report hreport fun hmem => absurd hmem hmissing)
  case isTrue hmissing =>
    split
    case isTrue hcompleted =>
      have hdone := Proto.statusOutcome_eq_done_iff.mpr hcompleted
      have hcompletes : response.Completes resultId := by
        rw [EventSubscriptionResponse.Completes, hreport, hdone]
      simp only
      split
      · exact .last resultId hmissing hcompletes
      · exact .complete resultId hmissing hcompletes
    case isFalse hcompleted =>
      split
      case isTrue haborted =>
        have hfailed := Proto.statusOutcome_eq_failed_iff.mpr haborted
        exact .abort resultId hmissing (by rw [hreport, hfailed])
      -- any other status leaves the id where it is
      case isFalse haborted =>
        refine .skip (not_completes_of_report hreport fun _ hdone => ?_)
        exact hcompleted (Proto.statusOutcome_eq_done_iff.mp hdone)

theorem handle_handles (wait : Wait) (response : EventSubscriptionResponse) :
    Handles wait response (handle wait response) := by
  have hsilent : response.report? = none →
      ∀ id ∈ wait.resultsNotFound, ¬ response.Completes id :=
    fun hnone id _ => EventSubscriptionResponse.not_completes_of_none hnone id
  obtain ⟨sessionId, update⟩ := response
  rcases update with _ | (event | event | event | event | event)
  · exact .skip (hsilent rfl)
  · exact .skip (hsilent rfl)
  · exact handleStatus_handles rfl
  · exact .skip (hsilent rfl)
  · exact .skip (hsilent rfl)
  · exact handleStatus_handles rfl

/-! ## The ids that are completed and missing -/

/-- The completed ids, listed once each, and the missing ids partition the
distinct ids of the bucket. -/
structure Wait.Partitions (wait : Wait) (results : List String) : Prop where
  nodup : wait.resultsCompleted.Nodup
  disjoint : ∀ id ∈ wait.resultsCompleted, id ∉ wait.resultsNotFound
  covers : ∀ id, id ∈ results ↔ id ∈ wait.resultsCompleted ∨ id ∈ wait.resultsNotFound

/-- Missing are exactly the ids that no response reported COMPLETED. -/
structure Wait.Tracks (wait : Wait) (results : List String)
    (received : List EventSubscriptionResponse) : Prop extends wait.Partitions results where
  notFound : wait.resultsNotFound = remaining results.toFinset (reports received)

/-- The exception lists the ids completed by the responses received, and the
other ids of the bucket; the last response reported one of these ABORTED. -/
structure ResultAbortedException.Describes (exception : ResultAbortedException)
    (results : List String) (received : List EventSubscriptionResponse) : Prop where
  nodup : exception.completedResultIds.Nodup
  completed : ∀ id, id ∈ exception.completedResultIds ↔
    id ∈ results ∧ ∃ response ∈ received, response.Completes id
  remaining : ∀ id, id ∈ exception.remainingResultIds ↔
    id ∈ results ∧ id ∉ exception.completedResultIds
  aborted : exception.abortedResultId ∈ exception.remainingResultIds
  reported : ∃ before response, received = before ++ [response] ∧
    response.report? = some ⟨exception.abortedResultId, .failed⟩

namespace Wait

theorem start_tracks (results : List String) : (start results).Tracks results [] where
  nodup := List.nodup_nil
  disjoint := by simp [start]
  covers := by simp [start]
  notFound := rfl

theorem Partitions.mem_completed_iff (h : wait.Partitions results) (id : String) :
    id ∈ wait.resultsCompleted ↔ id ∈ results ∧ id ∉ wait.resultsNotFound := by
  constructor
  · intro hid
    exact ⟨(h.covers id).mpr (.inl hid), h.disjoint id hid⟩
  · rintro ⟨hid, hfound⟩
    exact ((h.covers id).mp hid).resolve_right hfound

theorem Partitions.mem_notFound_iff (h : wait.Partitions results) (id : String) :
    id ∈ wait.resultsNotFound ↔ id ∈ results ∧ id ∉ wait.resultsCompleted := by
  constructor
  · intro hid
    exact ⟨(h.covers id).mpr (.inr hid), fun hcompleted => h.disjoint id hcompleted hid⟩
  · rintro ⟨hid, hcompleted⟩
    exact ((h.covers id).mp hid).resolve_left hcompleted

/-- Completed are exactly the ids of the bucket that were reported COMPLETED. -/
theorem Tracks.completed_iff (h : wait.Tracks results received) (id : String) :
    id ∈ wait.resultsCompleted ↔
      id ∈ results ∧ ∃ response ∈ received, response.Completes id := by
  rw [h.mem_completed_iff, h.notFound, Await.mem_remaining, List.mem_toFinset,
    EventSubscriptionResponse.exists_completes_iff]
  tauto

/-- The missing ids after one more response. -/
theorem mem_remaining_concat (results : List String) (received : List EventSubscriptionResponse)
    (response : EventSubscriptionResponse) (id : String) :
    id ∈ remaining results.toFinset (reports (received ++ [response])) ↔
      id ∈ remaining results.toFinset (reports received) ∧ ¬ response.Completes id := by
  simp only [Await.mem_remaining, ← EventSubscriptionResponse.exists_completes_iff,
    List.mem_append, List.mem_singleton]
  constructor
  · rintro ⟨hid, hnone⟩
    exact ⟨⟨hid, fun ⟨other, hother, hcompletes⟩ => hnone ⟨other, .inl hother, hcompletes⟩⟩,
      fun hcompletes => hnone ⟨response, .inr rfl, hcompletes⟩⟩
  · rintro ⟨⟨hid, hnone⟩, hlast⟩
    refine ⟨hid, ?_⟩
    rintro ⟨other, hother | rfl, hcompletes⟩
    · exact hnone ⟨other, hother, hcompletes⟩
    · exact hlast hcompletes

theorem Tracks.skip (h : wait.Tracks results received)
    (hsilent : ∀ id ∈ wait.resultsNotFound, ¬ response.Completes id) :
    wait.Tracks results (received ++ [response]) where
  toPartitions := h.toPartitions
  notFound := by
    ext id
    rw [mem_remaining_concat, ← h.notFound]
    exact ⟨fun hid => ⟨hid, hsilent id hid⟩, fun hid => hid.1⟩

theorem Tracks.complete (h : wait.Tracks results received) {id : String}
    (hmissing : id ∈ wait.resultsNotFound) (hcompletes : response.Completes id) :
    (wait.complete id).Tracks results (received ++ [response]) where
  -- an id that was missing was not completed before
  nodup := by
    have hnew : id ∉ wait.resultsCompleted := fun hid => h.disjoint id hid hmissing
    exact h.nodup.append (List.nodup_singleton id) (by simpa using hnew)
  disjoint := by
    intro other hother
    rcases List.mem_append.mp hother with hold | hnew
    · exact fun hleft => h.disjoint other hold (Finset.mem_of_mem_erase hleft)
    · rw [List.mem_singleton.mp hnew]
      exact Finset.notMem_erase id wait.resultsNotFound
  covers := by
    intro other
    rw [h.covers other]
    by_cases heq : other = id
    · simp [Wait.complete, heq, hmissing]
    · simp [Wait.complete, heq]
  notFound := by
    ext other
    rw [mem_remaining_concat, ← h.notFound]
    have hunique : response.Completes other ↔ other = id := by
      constructor
      · intro hother
        exact congrArg Report.key (Option.some.inj (hother.symm.trans hcompletes))
      · rintro rfl
        exact hcompletes
    rw [hunique, and_comm]
    exact Finset.mem_erase

end Wait

/-- The exception that a wait throws describes what it has received. -/
theorem Wait.Tracks.describes (h : wait.Tracks results received) {id : String}
    (hmissing : id ∈ wait.resultsNotFound) (hreport : response.report? = some ⟨id, .failed⟩) :
    (wait.abortedException id).Describes results (received ++ [response]) := by
  have hsilent : ∀ other ∈ wait.resultsNotFound, ¬ response.Completes other :=
    not_completes_of_report hreport fun _ => by decide
  exact ⟨h.nodup, (h.skip hsilent).completed_iff, h.mem_notFound_iff, hmissing,
    received, response, rfl, hreport⟩

/-! ## One attempt -/

/-- What holds after an attempt of a wait that has received `received` before:
the invariant, in every state on the way the partition, and for an exception
its description. -/
structure Reading.Sound (reading : Reading) (results : List String)
    (received : List EventSubscriptionResponse) : Prop where
  tracks : reading.wait.Tracks results (received ++ reading.received)
  trace : ∀ wait ∈ reading.trace, wait.Partitions results
  aborted : ∀ exception, reading.left = .aborted exception →
    exception.Describes results (received ++ reading.received)

theorem Reading.Sound.prepend {reading : Reading}
    (h : reading.Sound results (received ++ [response])) (hwait : wait.Partitions results) :
    (reading.prepend response wait).Sound results received := by
  have happend : received ++ [response] ++ reading.received =
      received ++ response :: reading.received := List.append_cons .. |>.symm
  refine ⟨happend ▸ h.tracks, ?_, happend ▸ h.aborted⟩
  intro other hother
  rcases List.mem_cons.mp hother with rfl | hother
  · exact hwait
  · exact h.trace other hother

theorem readResponses_sound (ending : Proto.StreamEnd) (h : wait.Tracks results received)
    (responses : List EventSubscriptionResponse) :
    (readResponses ending wait responses).Sound results received := by
  induction responses generalizing wait received with
  | nil =>
      have hsame : wait.Tracks results (received ++ []) := by rwa [List.append_nil]
      cases ending with
      | clean => exact ⟨hsame, by simp [readResponses], fun _ hleft => by cases hleft⟩
      | rpcError => exact ⟨hsame, by simp [readResponses], fun _ hleft => by cases hleft⟩
  | cons response rest ih =>
      have hhandles := handle_handles wait response
      rw [readResponses]
      revert hhandles
      -- `handle` is known only through what it can do
      generalize handle wait response = handled
      intro hhandles
      cases hhandles with
      | skip hsilent => exact (ih (h.skip hsilent)).prepend h.toPartitions
      | complete id hmissing hcompletes =>
          have hnext := h.complete hmissing hcompletes
          exact (ih hnext).prepend hnext.toPartitions
      | last id hmissing hcompletes =>
          have hnext := h.complete hmissing hcompletes
          refine ⟨hnext, ?_, fun _ hleft => by cases hleft⟩
          simpa using hnext.toPartitions
      | abort id hmissing hreport =>
          have hsilent : ∀ other ∈ wait.resultsNotFound, ¬ response.Completes other :=
            not_completes_of_report hreport fun _ => by decide
          refine ⟨h.skip hsilent, by simpa using h.toPartitions, ?_⟩
          rintro exception ⟨⟩
          exact h.describes hmissing hreport

theorem Wait.Tracks.resetRetry (h : wait.Tracks results received) (count : ℕ) :
    ({ wait with retryCount := count } : Wait).Tracks results received :=
  ⟨⟨h.nodup, h.disjoint, h.covers⟩, h.notFound⟩

/-- Counting an exception leaves the partition as it was. -/
theorem Reading.Sound.trace_count {reading : Reading} (h : reading.Sound results received)
    (count : ℕ) :
    ∀ other ∈ reading.trace ++ [{ reading.wait with retryCount := count }],
      other.Partitions results := by
  intro other hother
  rcases List.mem_append.mp hother with hearly | hlast
  · exact h.trace other hearly
  · rw [List.mem_singleton.mp hlast]
    exact (h.tracks.resetRetry count).toPartitions

theorem readAttempt_sound (h : wait.Tracks results received) (attempt : Attempt) :
    (readAttempt wait attempt).Sound results received := by
  cases attempt with
  | failsToOpen =>
      exact ⟨by simpa [readAttempt] using h, by simp [readAttempt], fun _ hleft => by cases hleft⟩
  | opened stream =>
      have hreset := h.resetRetry 0
      have hreading := readResponses_sound stream.ending hreset stream.responses
      refine ⟨hreading.tracks, ?_, hreading.aborted⟩
      intro other hother
      rcases List.mem_cons.mp hother with rfl | hother
      · exact hreset.toPartitions
      · exact hreading.trace other hother

/-! ## The retry counter -/

/-- The attempt ends with an `RpcException`, if it is not ended before. -/
def Attempt.RaisesRpc : Attempt → Prop
  | .failsToOpen => True
  | .opened stream => stream.ending = .rpcError

/-- The last `count` attempts raised an `RpcException`, all but the first of
them before their headers arrived. -/
def Row : ℕ → List Attempt → Prop
  | 0, _ => True
  | count + 1, attempts =>
      ∃ before first, attempts = before ++ first :: List.replicate count .failsToOpen ∧
        first.RaisesRpc

theorem Row.failsToOpen {count : ℕ} {attempts : List Attempt} (h : Row count attempts) :
    Row (count + 1) (attempts ++ [.failsToOpen]) := by
  cases count with
  | zero => exact ⟨attempts, .failsToOpen, rfl, trivial⟩
  | succ count =>
      obtain ⟨before, first, rfl, hraises⟩ := h
      refine ⟨before, first, ?_, hraises⟩
      rw [List.replicate_succ', List.append_assoc, List.cons_append]

theorem readResponses_retryCount (ending : Proto.StreamEnd) (wait : Wait)
    (responses : List EventSubscriptionResponse) :
    (readResponses ending wait responses).wait.retryCount = wait.retryCount := by
  induction responses generalizing wait with
  | nil => cases ending <;> rfl
  | cons response rest ih =>
      have hhandles := handle_handles wait response
      rw [readResponses]
      revert hhandles
      generalize handle wait response = handled
      intro hhandles
      cases hhandles with
      | skip => exact ih wait
      | complete id => exact ih (wait.complete id)
      | last => rfl
      | abort => rfl

theorem readResponses_rpcException {ending : Proto.StreamEnd} {wait : Wait}
    {responses : List EventSubscriptionResponse}
    (h : (readResponses ending wait responses).left = .rpcException) : ending = .rpcError := by
  induction responses generalizing wait with
  | nil =>
      cases ending with
      | clean => cases h
      | rpcError => rfl
  | cons response rest ih =>
      rw [readResponses] at h
      cases hhandle : handle wait response with
      | next wait =>
          simp only [hhandle] at h
          exact ih h
      | stop wait => simp only [hhandle, reduceCtorEq] at h
      | thrown exception => simp only [hhandle, reduceCtorEq] at h

/-- After an attempt that raised an `RpcException` the row is longer by one. -/
theorem row_of_rpcException {attempts : List Attempt} {attempt : Attempt}
    (hrow : Row wait.retryCount attempts)
    (hleft : (readAttempt wait attempt).left = .rpcException) :
    Row ((readAttempt wait attempt).wait.retryCount + 1) (attempts ++ [attempt]) := by
  cases attempt with
  | failsToOpen => exact hrow.failsToOpen
  | opened stream =>
      have hcount : (readAttempt wait (.opened stream)).wait.retryCount = 0 :=
        readResponses_retryCount stream.ending _ stream.responses
      rw [hcount]
      exact ⟨attempts, .opened stream, rfl, readResponses_rpcException hleft⟩

theorem readAttempt_retryCount_le (wait : Wait) (attempt : Attempt) :
    (readAttempt wait attempt).wait.retryCount ≤ wait.retryCount := by
  cases attempt with
  | failsToOpen => exact Nat.le_refl _
  | opened stream =>
      have hcount : (readAttempt wait (.opened stream)).wait.retryCount = 0 :=
        readResponses_retryCount stream.ending _ stream.responses
      rw [hcount]
      exact Nat.zero_le _

/-- An attempt that neither throws nor raises has had its headers. -/
theorem retryCount_of_finished {attempt : Attempt}
    (hleft : (readAttempt wait attempt).left = .finished) :
    (readAttempt wait attempt).wait.retryCount = 0 := by
  cases attempt with
  | failsToOpen => cases hleft
  | opened stream => exact readResponses_retryCount stream.ending _ stream.responses

/-! ## One bucket -/

/-- What a run promises whose wait had made `attempts` and received `received`
before. -/
structure Run.Sound (run : Run) (results : List String) (attempts : List Attempt)
    (received : List EventSubscriptionResponse) : Prop where
  completed : run.ending = .completed →
    ∀ id ∈ results, ∃ response ∈ received ++ run.received, response.Completes id
  partitions : ∀ wait ∈ run.trace, wait.Partitions results
  aborted : ∀ exception, run.ending = .aborted exception →
    exception.Describes results (received ++ run.received)
  rpcException : run.ending = .rpcException → Row 6 (attempts ++ run.attempts)

theorem Run.Sound.prepend {run : Run} {attempts : List Attempt} {attempt : Attempt}
    {more : List EventSubscriptionResponse} {trace : List Wait}
    (h : run.Sound results (attempts ++ [attempt]) (received ++ more))
    (htrace : ∀ wait ∈ trace, wait.Partitions results) :
    (run.prepend attempt more trace).Sound results attempts received := by
  have hreceived : received ++ more ++ run.received = received ++ (more ++ run.received) :=
    List.append_assoc ..
  have hattempts : attempts ++ [attempt] ++ run.attempts = attempts ++ attempt :: run.attempts :=
    (List.append_cons ..).symm
  refine ⟨hreceived ▸ h.completed, ?_, hreceived ▸ h.aborted, hattempts ▸ h.rpcException⟩
  intro wait hwait
  rcases List.mem_append.mp hwait with hearly | hlate
  · exact htrace wait hearly
  · exact h.partitions wait hlate

/-- A wait that misses no id may end. -/
theorem Wait.Tracks.completed (h : wait.Tracks results received)
    (hnone : wait.resultsNotFound = ∅) :
    ∀ id ∈ results, ∃ response ∈ received, response.Completes id := by
  intro id hid
  have hreported := Await.remaining_eq_empty_iff.mp (h.notFound.symm.trans hnone)
  exact EventSubscriptionResponse.exists_completes_iff.mpr
    (hreported id (List.mem_toFinset.mpr hid))

theorem Run.sound_completed (h : wait.Tracks results received)
    (hnone : wait.resultsNotFound = ∅) (attempts : List Attempt) :
    (⟨.completed, [], [], []⟩ : Run).Sound results attempts received where
  completed := by
    intro _
    rw [List.append_nil]
    exact h.completed hnone
  partitions := by simp
  aborted := nofun
  rpcException := nofun

theorem Run.sound_waiting (results : List String) (attempts : List Attempt)
    (received : List EventSubscriptionResponse) :
    (⟨.waiting, [], [], []⟩ : Run).Sound results attempts received where
  completed := nofun
  partitions := by simp
  aborted := nofun
  rpcException := nofun

theorem waitLoop_sound (enumeration : Enumeration) (sessionId : String)
    (subscriptions : List Subscription) {attempts : List Attempt}
    (h : wait.Tracks results received) (hrow : Row wait.retryCount attempts)
    (hfew : wait.retryCount ≤ 5) :
    (waitLoop enumeration sessionId wait subscriptions).Sound results attempts received := by
  induction subscriptions generalizing wait attempts received with
  | nil =>
      rw [waitLoop]
      split
      case isTrue hnone => exact Run.sound_completed h hnone attempts
      case isFalse => exact Run.sound_waiting results attempts received
  | cons subscribe rest ih =>
      rw [waitLoop]
      split
      case isTrue hnone => exact Run.sound_completed h hnone attempts
      case isFalse =>
        -- whatever the server answers to the request
        generalize subscribe (eventSubscriptionRequest sessionId _) = attempt
        have hsound := readAttempt_sound h attempt
        simp only
        cases hleft : (readAttempt wait attempt).left with
        | finished =>
            -- the headers have come, so the next row starts from nothing
            have hcount := retryCount_of_finished hleft
            refine (ih hsound.tracks ?_ ?_).prepend hsound.trace
            · rw [hcount]
              trivial
            · rw [hcount]
              exact Nat.zero_le 5
        | aborted exception =>
            refine ⟨nofun, hsound.trace, ?_, nofun⟩
            rintro _ ⟨⟩
            exact hsound.aborted exception hleft
        | rpcException =>
            have hcounted :=
              hsound.tracks.resetRetry ((readAttempt wait attempt).wait.retryCount + 1)
            have hlonger := row_of_rpcException hrow hleft
            have htrace := hsound.trace_count ((readAttempt wait attempt).wait.retryCount + 1)
            have hle := readAttempt_retryCount_le wait attempt
            simp only
            split
            case isTrue hmany =>
              -- the counter was at most five, so the row is exactly six long
              have hsix : (readAttempt wait attempt).wait.retryCount + 1 = 6 := by omega
              exact ⟨nofun, htrace, nofun, fun _ => hsix ▸ hlonger⟩
            case isFalse hmany =>
              exact (ih hcounted hlonger (Nat.not_lt.mp hmany)).prepend htrace

/-! ## All buckets -/

/-- What the wait for a bucket promises: it ends normally only when every id was
reported COMPLETED, its variables always partition the ids, an exception for an
aborted result describes what was received, and an `RpcException` escapes only
after six in a row. -/
abbrev Run.KeepsPromise (run : Run) (results : List String) : Prop :=
  run.Sound results [] []

theorem waitForBucket_keeps_promise (enumeration : Enumeration) (sessionId : String)
    (results : List String) (subscriptions : List Subscription) :
    (waitForBucket enumeration sessionId results subscriptions).KeepsPromise results := by
  have hstart := Wait.start_tracks results
  have hsound : (waitLoop enumeration sessionId (.start results) subscriptions).Sound results
      [] [] :=
    waitLoop_sound enumeration sessionId subscriptions hstart trivial (Nat.zero_le 5)
  refine ⟨hsound.completed, ?_, hsound.aborted, hsound.rpcException⟩
  intro wait hwait
  rcases List.mem_cons.mp hwait with rfl | hlater
  · exact hstart.toPartitions
  · exact hsound.partitions wait hlater

/-- Every bucket keeps its promise, and when all of them end normally every id of
the collection was reported COMPLETED. -/
theorem waitForResultsAsync_keeps_promise (toChunks : List String → ℕ → List (List String))
    (hchunks : ∀ ids size, 1 ≤ size → (toChunks ids size).flatten = ids)
    (enumeration : Enumeration) (subscriptions : ℕ → List Subscription) (sessionId : String)
    (resultIds : List String) (bucketSize : ℕ) (hsize : 1 ≤ bucketSize) :
    let buckets := waitForResultsAsync toChunks enumeration subscriptions sessionId resultIds
      bucketSize
    (∀ bucket ∈ buckets, bucket.2.KeepsPromise bucket.1) ∧
      ((∀ bucket ∈ buckets, bucket.2.ending = .completed) →
        ∀ id ∈ resultIds, ∃ bucket ∈ buckets, id ∈ bucket.1 ∧
          ∃ response ∈ bucket.2.received, response.Completes id) := by
  intro buckets
  have hpromise : ∀ bucket ∈ buckets, bucket.2.KeepsPromise bucket.1 := by
    intro bucket hbucket
    obtain ⟨i, hi, rfl⟩ := List.mem_mapIdx.mp hbucket
    exact waitForBucket_keeps_promise enumeration sessionId _ (subscriptions i)
  refine ⟨hpromise, fun hcompleted id hid => ?_⟩
  rw [← hchunks resultIds bucketSize hsize, List.mem_flatten] at hid
  obtain ⟨results, hresults, hid⟩ := hid
  obtain ⟨i, hi, rfl⟩ := List.mem_iff_getElem.mp hresults
  have hbucket : ((toChunks resultIds bucketSize)[i], waitForBucket enumeration sessionId
      (toChunks resultIds bucketSize)[i] (subscriptions i)) ∈ buckets :=
    List.mem_mapIdx.mpr ⟨i, hi, rfl⟩
  exact ⟨_, hbucket, hid, (hpromise _ hbucket).completed (hcompleted _ hbucket) id hid⟩

/-- Two buckets of one id each: one stream fails, the next one brings the event. -/
theorem waitForResultsAsync_keeps_promise_two_buckets :
    let enumeration : Enumeration :=
      ⟨Finset.toList, Finset.nodup_toList, fun _ _ => Finset.mem_toList⟩
    let event : String → EventSubscriptionResponse := fun id =>
      ⟨"session", some (.resultStatusUpdate ⟨id, Proto.ResultStatus.completed.number⟩)⟩
    let buckets := waitForResultsAsync (fun ids _ => ids.map fun id => [id]) enumeration
      (fun _ => [fun _ => .failsToOpen, fun _ => .opened ⟨[event "a", event "b"], .clean⟩])
      "session" ["a", "b"] 1
    buckets.map (fun bucket => bucket.2.ending) = [.completed, .completed] ∧
      ∀ bucket ∈ buckets, bucket.2.KeepsPromise bucket.1 := by
  intro enumeration event buckets
  have hchunks : ∀ (ids : List String) (size : ℕ), 1 ≤ size →
      (ids.map fun id => [id]).flatten = ids := by
    intro ids size _
    induction ids with
    | nil => rfl
    | cons id rest ih => exact congrArg (List.cons id) ih
  exact ⟨rfl, (waitForResultsAsync_keeps_promise _ hchunks enumeration _ "session" ["a", "b"] 1
    (Nat.le_refl 1)).1⟩

end ArmoniKApi.CSharp
