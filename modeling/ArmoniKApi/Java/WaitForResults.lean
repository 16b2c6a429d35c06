import ArmoniKApi.Java.EventClient

/-!
# What the Java wait promises

An id leaves `resultsNotFound` only when it is reported COMPLETED, and a worker
ends only when the set is empty.  So the future completes normally only if every
id was reported (`completed_of_future`).

No worker can end with an exception: the one that `onNext` throws goes to
grpc-java, which calls `onError`, which counts the latch down like any other end
of a stream.  The worker finds the aborted id missing and subscribes again
(`resubscribes_after_abort`).  So the promise is kept exactly in the runs in
which no awaited id is reported ABORTED.

## Strategy

`Moves` lists all that a move of one bucket can do, and `Receives` all that `onNext` can.
The invariant of a bucket (`Bucket.Sound`) is over the events of the whole run so far:

* an id of the bucket is missing, or a response to this bucket has reported it COMPLETED;
* a worker that is done has ended normally, and has no missing ids;
* as long as ids are missing and the call is not closed, the worker waits for its latch;
* a worker that is queued has not begun.

`Sound.moves` keeps it, case by case over `Moves`, and `Sound.mono` lets the other buckets
move.  `run_sound` is the induction over the run.

The promise has two parts and the second one is where the client fails.  After an awaited id
is reported ABORTED the future would have to complete exceptionally, but it never does
(`future_ne_error`).  So the promise is kept just in runs without such a report, which is the
condition of the theorem, and `resubscribes_after_abort` shows what happens instead.
-/

namespace ArmoniKApi.Java

open Proto (EventSubscriptionRequest EventSubscriptionResponse)
open Proto.EventSubscriptionResponse (not_completes_of_report not_completes_of_none)

variable {sessionId : String} {bucket next : Bucket} {response : EventSubscriptionResponse}

/-! ## Chunks -/

theorem flatten_chunkLoop (list : List String) {chunkSize fuel i : ℕ} (hsize : 1 ≤ chunkSize)
    (hfuel : list.length ≤ i + fuel) :
    (chunkLoop list chunkSize fuel i).flatten = list.drop i := by
  induction fuel generalizing i with
  | zero => exact (List.drop_eq_nil_of_le (by omega)).symm
  | succ fuel ih =>
      rw [chunkLoop]
      split
      case isTrue hlt =>
        rw [List.flatten_cons, ih (by omega), List.drop_take]
        have htake : (list.drop i).take (min list.length (i + chunkSize) - i) =
            (list.drop i).take chunkSize := by
          rw [List.take_eq_take_iff, List.length_drop]
          omega
        rw [htake, ← List.drop_drop, List.take_append_drop]
      case isFalse hge => exact (List.drop_eq_nil_of_le (Nat.not_lt.mp hge)).symm

/-- The chunks, put together, are the list. -/
theorem flatten_chunkList (list : List String) {chunkSize : ℕ} (hsize : 1 ≤ chunkSize) :
    (chunkList list chunkSize).flatten = list :=
  flatten_chunkLoop list hsize (Nat.le_add_left ..)

/-! ## The moves of one bucket -/

/-- All that `onNext` can do: nothing, complete a missing id, complete the last
one, or throw. -/
inductive Receives (bucket : Bucket) (response : EventSubscriptionResponse) : Bucket → Prop
  | skip (hsilent : ∀ id ∈ bucket.resultsNotFound, ¬ response.Completes id)
      (hgood : ∀ id ∈ bucket.resultsNotFound, response.report? ≠ some ⟨id, .failed⟩) :
      Receives bucket response bucket
  | complete (id : String) (hcompletes : response.Completes id)
      (hleft : bucket.resultsNotFound.erase id ≠ ∅) :
      Receives bucket response
        { bucket with resultsNotFound := bucket.resultsNotFound.erase id }
  | last (id : String) (hcompletes : response.Completes id)
      (hnone : bucket.resultsNotFound.erase id = ∅) :
      Receives bucket response
        { bucket with
          resultsNotFound := bucket.resultsNotFound.erase id
          latch := bucket.latch - 1 }
  | abort (id message : String) (hmissing : id ∈ bucket.resultsNotFound)
      (hreport : response.report? = some ⟨id, .failed⟩) :
      Receives bucket response { bucket with call := .cancelled message }

theorem onStatus_receives {resultId : String} {status : Int}
    (hreport : response.report? = some ⟨resultId, Proto.statusOutcome status⟩) :
    Receives bucket response (bucket.onStatus resultId status) := by
  have hkey : ∀ id outcome, response.report? = some ⟨id, outcome⟩ →
      resultId = id ∧ Proto.statusOutcome status = outcome := fun id outcome hid =>
    Await.Report.mk.inj (Option.some.inj (hreport.symm.trans hid))
  unfold Bucket.onStatus
  split
  -- `resultsNotFound.contains(resultId)` is false: the update is of no interest
  case isFalse hmissing =>
    refine .skip (not_completes_of_report hreport fun hmem => absurd hmem hmissing) ?_
    intro id hmem hid
    exact hmissing ((hkey id _ hid).1 ▸ hmem)
  case isTrue hmissing =>
    split
    -- the id is removed, and the last one opens the latch
    case isTrue hcompleted =>
      have hdone := Proto.statusOutcome_eq_done_iff.mpr hcompleted
      have hcompletes : response.Completes resultId := by
        rw [EventSubscriptionResponse.Completes, hreport, hdone]
      simp only
      split
      case isTrue hnone => exact .last resultId hcompletes hnone
      case isFalse hleft => exact .complete resultId hcompletes hleft
    case isFalse hcompleted =>
      split
      case isTrue haborted =>
        have hfailed := Proto.statusOutcome_eq_failed_iff.mpr haborted
        exact .abort resultId _ hmissing (by rw [hreport, hfailed])
      -- any other status leaves the id where it is
      case isFalse haborted =>
        refine .skip (not_completes_of_report hreport fun _ hdone => ?_) ?_
        · exact hcompleted (Proto.statusOutcome_eq_done_iff.mp hdone)
        · intro id _ hid
          exact haborted (Proto.statusOutcome_eq_failed_iff.mp (hkey id _ hid).2)

theorem onNext_receives (bucket : Bucket) (response : EventSubscriptionResponse) :
    Receives bucket response (bucket.onNext response) := by
  have hsilent : response.report? = none → Receives bucket response bucket := by
    intro hnone
    refine .skip (fun id _ => not_completes_of_none hnone id) fun id _ hid => ?_
    cases hnone.symm.trans hid
  obtain ⟨sessionId, update⟩ := response
  rcases update with _ | (event | event | event | event | event)
  · exact hsilent rfl
  · exact hsilent rfl
  · exact onStatus_receives rfl
  · exact hsilent rfl
  · exact hsilent rfl
  · exact onStatus_receives rfl

/-- All that one move of a bucket can do. -/
inductive Moves (sessionId : String) (bucket : Bucket) : Action → Bucket → Prop
  | start (hworker : bucket.worker = .queued) :
      Moves sessionId bucket .start
        { bucket with
          worker := .atCondition
          resultsNotFound := bucket.chunk.toFinset }
  | subscribe (hworker : bucket.worker = .atCondition) (hmissing : bucket.resultsNotFound ≠ ∅) :
      Moves sessionId bucket (.subscribe (createEventSubscriptionRequest sessionId bucket.chunk))
        { bucket with
          worker := .awaiting
          latch := 1
          call := .open }
  | leave (hworker : bucket.worker = .atCondition) (hnone : bucket.resultsNotFound = ∅) :
      Moves sessionId bucket .leave { bucket with worker := .done (.ok ()) }
  | wake (hworker : bucket.worker = .awaiting) (hlatch : bucket.latch = 0) :
      Moves sessionId bucket .wake { bucket with worker := .atCondition }
  | onNext {response : EventSubscriptionResponse} (hcall : bucket.call = .open) {next : Bucket}
      (hreceives : Receives bucket response next) : Moves sessionId bucket (.onNext response) next
  | onError (hcall : bucket.call ≠ .closed) :
      Moves sessionId bucket .onError { bucket.countDown with call := .closed }
  | onCompleted (hcall : bucket.call = .open) :
      Moves sessionId bucket .onCompleted { bucket.countDown with call := .closed }

theorem step_moves {action : Action} (h : bucket.step sessionId action = some next) :
    Moves sessionId bucket action next := by
  cases action with
  | start =>
      simp only [Bucket.step] at h
      split at h
      case h_1 hworker => exact Option.some.inj h ▸ .start hworker
      case h_2 => cases h
  | subscribe request =>
      simp only [Bucket.step] at h
      split at h
      case h_2 => cases h
      case h_1 hworker =>
        split at h
        case isFalse => cases h
        case isTrue hguard =>
          rw [hguard.2]
          exact Option.some.inj h ▸ .subscribe hworker hguard.1
  | leave =>
      simp only [Bucket.step] at h
      split at h
      case h_2 => cases h
      case h_1 hworker =>
        split at h
        case isFalse => cases h
        case isTrue hnone => exact Option.some.inj h ▸ .leave hworker hnone
  | wake =>
      simp only [Bucket.step] at h
      split at h
      case h_2 => cases h
      case h_1 hworker =>
        split at h
        case isFalse => cases h
        case isTrue hlatch => exact Option.some.inj h ▸ .wake hworker hlatch
  | onNext response =>
      simp only [Bucket.step] at h
      split at h
      case h_2 => cases h
      case h_1 hcall =>
        exact .onNext hcall (Option.some.inj h ▸ onNext_receives bucket response)
  | onError =>
      simp only [Bucket.step] at h
      split at h
      case h_1 => cases h
      case h_2 hcall => exact Option.some.inj h ▸ .onError hcall
  | onCompleted =>
      simp only [Bucket.step] at h
      split at h
      case h_2 => cases h
      case h_1 hcall => exact Option.some.inj h ▸ .onCompleted hcall

/-! ## The invariant of one bucket -/

/-- What holds of bucket `i` after the events `trace`. -/
structure Bucket.Sound (bucket : Bucket) (i : ℕ) (trace : List (ℕ × Action)) : Prop where
  reported : bucket.worker ≠ .queued → ∀ id ∈ bucket.chunk, id ∈ bucket.resultsNotFound ∨
    ∃ response, (i, Action.onNext response) ∈ trace ∧ response.Completes id
  done : ∀ outcome, bucket.worker = .done outcome →
    outcome = .ok () ∧ bucket.resultsNotFound = ∅
  live : bucket.call ≠ .closed → bucket.resultsNotFound ≠ ∅ →
    bucket.worker = .awaiting ∧ bucket.latch = 1
  queued : bucket.worker = .queued → bucket.resultsNotFound = ∅ ∧ bucket.call = .closed

namespace Bucket

variable {i : ℕ} {trace : List (ℕ × Action)}

theorem Sound.mono (h : bucket.Sound i trace) (event : ℕ × Action) :
    bucket.Sound i (trace ++ [event]) := by
  refine { h with reported := fun hworker id hid => ?_ }
  rcases h.reported hworker id hid with hmissing | ⟨response, hresponse, hcompletes⟩
  · exact .inl hmissing
  · exact .inr ⟨response, List.mem_append_left _ hresponse, hcompletes⟩

/-- An id that is erased is one that the response completes. -/
theorem Sound.reported_erase (h : bucket.Sound i trace) {id : String}
    (hcompletes : response.Completes id) (hworker : bucket.worker ≠ .queued) :
    ∀ other ∈ bucket.chunk, other ∈ bucket.resultsNotFound.erase id ∨
      ∃ response', (i, Action.onNext response') ∈ trace ++ [(i, .onNext response)] ∧
        response'.Completes other := by
  intro other hother
  by_cases heq : other = id
  · subst heq
    exact .inr ⟨response, List.mem_append_right _ (List.mem_singleton.mpr rfl), hcompletes⟩
  · rcases (h.mono _).reported hworker other hother with hmissing | hreported
    · exact .inl (Finset.mem_erase.mpr ⟨heq, hmissing⟩)
    · exact .inr hreported

theorem Sound.receives (h : bucket.Sound i trace) (hcall : bucket.call = .open)
    (hreceives : Receives bucket response next) :
    next.Sound i (trace ++ [(i, .onNext response)]) := by
  have hopen : bucket.call ≠ .closed := by simp [hcall]
  have hstarted : bucket.worker ≠ .queued := fun hworker => hopen (h.queued hworker).2
  cases hreceives with
  | skip => exact h.mono _
  | complete id hcompletes hleft =>
      have hmissing : bucket.resultsNotFound ≠ ∅ := fun hnone => hleft (by simp [hnone])
      refine ⟨fun _ => h.reported_erase hcompletes hstarted, ?_, fun _ _ => h.live hopen hmissing,
        fun hworker => absurd hworker hstarted⟩
      intro outcome hdone
      exact absurd (h.done outcome hdone).2 hmissing
  -- the call stays open with its latch at zero, but no id is left to wait for
  | last id hcompletes hnone =>
      exact ⟨fun _ => h.reported_erase hcompletes hstarted,
        fun outcome hdone => ⟨(h.done outcome hdone).1, hnone⟩,
        fun _ hleft => absurd hnone hleft, fun hworker => absurd hworker hstarted⟩
  | abort id message hmissing hreport =>
      have hne : bucket.resultsNotFound ≠ ∅ := Finset.ne_empty_of_mem hmissing
      exact ⟨(h.mono _).reported, h.done, fun _ _ => h.live hopen hne,
        fun hworker => absurd hworker hstarted⟩

/-- The invariant is kept by every move. -/
theorem Sound.moves (h : bucket.Sound i trace) {action : Action}
    (hmoves : Moves sessionId bucket action next) : next.Sound i (trace ++ [(i, action)]) := by
  cases hmoves with
  | start hworker =>
      exact ⟨fun _ id hid => .inl (List.mem_toFinset.mpr hid), nofun,
        fun hcall => absurd (h.queued hworker).2 hcall, nofun⟩
  | subscribe hworker hmissing =>
      refine ⟨fun _ => (h.mono _).reported ?_, nofun, fun _ _ => ⟨rfl, rfl⟩, nofun⟩
      rw [hworker]
      exact nofun
  | leave hworker hnone =>
      refine ⟨fun _ => (h.mono _).reported ?_, ?_, fun _ hleft => absurd hnone hleft, nofun⟩
      · rw [hworker]
        exact nofun
      · rintro outcome ⟨⟩
        exact ⟨rfl, hnone⟩
  | wake hworker hlatch =>
      refine ⟨fun _ => (h.mono _).reported ?_, nofun, fun hcall hleft => ?_, nofun⟩
      · rw [hworker]
        exact nofun
      · -- a live call with ids left holds the latch at one
        have hone := (h.live hcall hleft).2
        omega
  | onNext hcall hreceives => exact h.receives hcall hreceives
  | onError hcall =>
      exact ⟨(h.mono _).reported, h.done, fun hclosed => absurd rfl hclosed,
        fun hworker => ⟨(h.queued hworker).1, rfl⟩⟩
  | onCompleted hcall =>
      exact ⟨(h.mono _).reported, h.done, fun hclosed => absurd rfl hclosed,
        fun hworker => ⟨(h.queued hworker).1, rfl⟩⟩

end Bucket

/-! ## The invariant of the system -/

namespace System

variable {s last : System} {trace : List (ℕ × Action)}

/-- The chunks are those of the call, and every bucket is sound. -/
structure Sound (s : System) (chunks : List (List String)) (trace : List (ℕ × Action)) : Prop where
  chunks_eq : s.buckets.map Bucket.chunk = chunks
  buckets : ∀ (i : ℕ) (bucket : Bucket), s.buckets[i]? = some bucket → bucket.Sound i trace

theorem step_eq_some {event : ℕ × Action} (h : s.step event = some last) :
    ∃ bucket next, s.buckets[event.1]? = some bucket ∧
      bucket.step s.sessionId event.2 = some next ∧
        last = { s with buckets := s.buckets.set event.1 next } := by
  unfold step at h
  split at h
  case h_1 => cases h
  case h_2 bucket hbucket =>
    split at h
    case isTrue => cases h
    case isFalse =>
      obtain ⟨next, hnext, rfl⟩ := Option.map_eq_some_iff.mp h
      exact ⟨bucket, next, hbucket, hnext, rfl⟩

theorem moves_chunk {action : Action} (hmoves : Moves sessionId bucket action next) :
    next.chunk = bucket.chunk := by
  cases hmoves with
  | onNext hcall hreceives => cases hreceives <;> rfl
  | _ => rfl

theorem Sound.step {chunks : List (List String)} (h : s.Sound chunks trace) {event : ℕ × Action}
    (hstep : s.step event = some last) : last.Sound chunks (trace ++ [event]) := by
  obtain ⟨i, action⟩ := event
  obtain ⟨bucket, next, hbucket, hnext, rfl⟩ := step_eq_some hstep
  have hmoves := step_moves hnext
  obtain ⟨hi, hget⟩ := List.getElem?_eq_some_iff.mp hbucket
  constructor
  · show (s.buckets.set i next).map Bucket.chunk = chunks
    rw [List.map_set, moves_chunk hmoves, ← h.chunks_eq, ← hget, ← List.getElem_map Bucket.chunk,
      List.set_getElem_self]
    simpa using hi
  · intro j other hother
    have hset : (s.buckets.set i next)[j]? = some other := hother
    by_cases heq : i = j
    -- the trace grows for every bucket, the state changes for one
    · subst heq
      rw [List.getElem?_set_self hi] at hset
      exact Option.some.inj hset ▸ (h.buckets i bucket hbucket).moves hmoves
    · rw [List.getElem?_set_ne heq] at hset
      exact (h.buckets j other hset).mono _

theorem start_sound (sessionId : String) (resultIds : List String) (bucketSize parallelism : ℕ) :
    (waitForResultsAsync sessionId resultIds bucketSize parallelism).Sound
      (chunkList resultIds bucketSize) [] := by
  constructor
  · simp [waitForResultsAsync, Function.comp_def]
  · intro i bucket hbucket
    simp only [waitForResultsAsync, List.getElem?_map, Option.map_eq_some_iff] at hbucket
    obtain ⟨chunk, -, rfl⟩ := hbucket
    exact ⟨fun hworker => absurd rfl hworker, nofun, fun hcall => absurd rfl hcall,
      fun _ => ⟨rfl, rfl⟩⟩

/-- Every state reached is sound. -/
theorem run_sound {resultIds : List String} {bucketSize parallelism : ℕ}
    (hrun : Machine.run System.step
      (waitForResultsAsync sessionId resultIds bucketSize parallelism) trace = some s) :
    s.Sound (chunkList resultIds bucketSize) trace :=
  Machine.run_induction (P := fun events mid => mid.Sound (chunkList resultIds bucketSize) events)
    (start_sound sessionId resultIds bucketSize parallelism)
    (fun _ _ _ _ hsound hstep => hsound.step hstep) hrun

/-! ## The future -/

theorem done_of_allOf_ok {buckets : List Bucket} (h : allOf buckets = some (.ok ())) :
    ∀ bucket ∈ buckets, bucket.worker = .done (.ok ()) := by
  induction buckets with
  | nil => simp
  | cons first rest ih =>
      simp only [allOf] at h
      split at h
      case h_1 others hdone hrest =>
        obtain ⟨rfl⟩ := h
        intro bucket hbucket
        rcases List.mem_cons.mp hbucket with rfl | hbucket
        · exact hdone
        · exact ih hrest bucket hbucket
      case h_2 => cases h
      case h_3 => cases h

theorem exists_of_allOf_error {buckets : List Bucket} {message : String}
    (h : allOf buckets = some (.error message)) :
    ∃ bucket ∈ buckets, ∃ error, bucket.worker = .done (.error error) := by
  induction buckets with
  | nil => cases h
  | cons first rest ih =>
      simp only [allOf] at h
      split at h
      case h_1 others hdone hrest =>
        obtain ⟨rfl⟩ := h
        obtain ⟨bucket, hbucket, herror⟩ := ih hrest
        exact ⟨bucket, List.mem_cons_of_mem _ hbucket, herror⟩
      case h_2 error _ hdone _ => exact ⟨first, List.mem_cons_self .., error, hdone⟩
      case h_3 => cases h

/-- The future never completes exceptionally. -/
theorem Sound.future_ne_error {chunks : List (List String)} (h : s.Sound chunks trace)
    (message : String) : s.future ≠ some (.error message) := by
  intro herror
  obtain ⟨bucket, hbucket, error, hdone⟩ := exists_of_allOf_error herror
  obtain ⟨i, hi, rfl⟩ := List.mem_iff_getElem.mp hbucket
  cases ((h.buckets i _ (List.getElem?_eq_getElem hi)).done _ hdone).1

/-- When the future has completed, every id was reported COMPLETED. -/
theorem Sound.completed_of_future {chunks : List (List String)} (h : s.Sound chunks trace)
    (hfuture : s.future = some (.ok ())) : ∀ id ∈ chunks.flatten,
      ∃ i response, (i, Action.onNext response) ∈ trace ∧ response.Completes id := by
  intro id hid
  obtain ⟨chunk, hchunk, hid⟩ := List.mem_flatten.mp hid
  rw [← h.chunks_eq, List.mem_map] at hchunk
  obtain ⟨bucket, hbucket, rfl⟩ := hchunk
  have hdone := done_of_allOf_ok hfuture bucket hbucket
  obtain ⟨i, hi, rfl⟩ := List.mem_iff_getElem.mp hbucket
  have hsound := h.buckets i _ (List.getElem?_eq_getElem hi)
  have hstarted : s.buckets[i].worker ≠ .queued := by
    rw [hdone]
    exact nofun
  rcases hsound.reported hstarted id hid with hmissing | ⟨response, hresponse, hcompletes⟩
  · rw [(hsound.done _ hdone).2] at hmissing
    exact absurd hmissing (Finset.notMem_empty id)
  · exact ⟨i, response, hresponse, hcompletes⟩

end System

/-! ## After an abort -/

variable {s : System} {i : ℕ}

/-- Where an awaited id is reported ABORTED, the bucket goes on to its next
subscription. -/
theorem resubscribes_after_abort {trace : List (ℕ × Action)} {id : String}
    (hsound : bucket.Sound i trace) (hcall : bucket.call = .open)
    (hmissing : id ∈ bucket.resultsNotFound) (hreport : response.report? = some ⟨id, .failed⟩) :
    ∃ last, Machine.run (Bucket.step sessionId) bucket
        [.onNext response, .onError, .wake,
          .subscribe (createEventSubscriptionRequest sessionId bucket.chunk)] = some last ∧
      last.worker = .awaiting ∧ last.call = .open ∧
        last.resultsNotFound = bucket.resultsNotFound := by
  have hne : bucket.resultsNotFound ≠ ∅ := Finset.ne_empty_of_mem hmissing
  obtain ⟨hworker, hlatch⟩ := hsound.live (by simp [hcall]) hne
  -- an event that reports an awaited id ABORTED completes nothing, so `onNext` throws
  have hthrown : ∃ message,
      bucket.onNext response = { bucket with call := .cancelled message } := by
    have hreceives := onNext_receives bucket response
    revert hreceives
    generalize bucket.onNext response = after
    intro hreceives
    cases hreceives with
    | skip hsilent hgood => exact absurd hreport (hgood id hmissing)
    | complete other hcompletes => cases hreport.symm.trans hcompletes
    | last other hcompletes => cases hreport.symm.trans hcompletes
    | abort other message => exact ⟨message, rfl⟩
  obtain ⟨message, hthrown⟩ := hthrown
  simp [Machine.run, Bucket.step, Bucket.countDown, hcall, hthrown, hworker, hlatch, hne]

/-! ## The promise -/

/-- A run keeps the promise exactly when in none of its events an awaited id is
reported ABORTED. -/
theorem waitForResultsAsync_keeps_promise_iff (sessionId : String) (resultIds : List String)
    (bucketSize : ℕ) (hsize : 1 ≤ bucketSize) (parallelism : ℕ) (trace : List (ℕ × Action))
    (s : System)
    (hrun : Machine.run System.step
      (waitForResultsAsync sessionId resultIds bucketSize parallelism) trace = some s) :
    KeepsPromise (waitForResultsAsync sessionId resultIds bucketSize parallelism) resultIds
        trace s ↔
      ∀ before i response after mid id, trace = before ++ (i, .onNext response) :: after →
        Machine.run System.step
          (waitForResultsAsync sessionId resultIds bucketSize parallelism) before = some mid →
        mid.Awaits i id → response.report? ≠ some ⟨id, .failed⟩ := by
  constructor
  · intro hkept before i response after mid id htrace hmid hawaits hreport
    obtain ⟨-, later, last, message, hlater, hfuture⟩ :=
      hkept.aborted before i response after mid id htrace hmid hawaits hreport
    -- the run goes on to `last`, and no run reaches an exceptional end
    have hlast : Machine.run System.step
        (waitForResultsAsync sessionId resultIds bucketSize parallelism) (trace ++ later) =
          some last := by
      rw [Machine.run_append, hrun]
      exact hlater
    exact (System.run_sound hlast).future_ne_error message hfuture
  · intro hnever
    constructor
    · intro hfuture
      have hcompleted := (System.run_sound hrun).completed_of_future hfuture
      rwa [flatten_chunkList resultIds hsize] at hcompleted
    · intro before i response after mid id htrace hmid hawaits hreport
      exact absurd hreport (hnever before i response after mid id htrace hmid hawaits)

/-- A response that reports an id COMPLETED. -/
def completedResponse (id : String) : EventSubscriptionResponse :=
  ⟨"session", some (.resultStatusUpdate ⟨id, Proto.ResultStatus.completed.number⟩)⟩

/-- Three ids in two buckets.  The second one is done between the two responses of the first. -/
def twoBuckets : List (ℕ × Action) :=
  [(0, .start), (1, .start),
    (0, .subscribe (createEventSubscriptionRequest "session" ["a", "b"])),
    (1, .subscribe (createEventSubscriptionRequest "session" ["c"])),
    (0, .onNext (completedResponse "b")), (1, .onNext (completedResponse "c")), (1, .wake),
    (1, .leave), (0, .onNext (completedResponse "a")), (0, .wake), (0, .leave)]

theorem waitForResultsAsync_keeps_promise_iff_completed :
    ∃ s, Machine.run System.step (waitForResultsAsync "session" ["a", "b", "c"] 2 2) twoBuckets =
        some s ∧
      s.future = some (.ok ()) ∧
        KeepsPromise (waitForResultsAsync "session" ["a", "b", "c"] 2 2) ["a", "b", "c"]
          twoBuckets s := by
  refine ⟨_, rfl, rfl, ?_⟩
  refine (waitForResultsAsync_keeps_promise_iff "session" ["a", "b", "c"] 2 (by decide) 2 twoBuckets
    _ rfl).mpr ?_
  intro before i other after mid id htrace _ _ hreport
  have hother : (i, Action.onNext other) ∈ twoBuckets := by
    rw [htrace]
    exact List.mem_append_right _ (List.mem_cons_self ..)
  have hresponse : ∃ done, other = completedResponse done := by
    simp only [twoBuckets, List.mem_cons, Prod.mk.injEq, reduceCtorEq, and_false, false_or,
      Action.onNext.injEq, List.not_mem_nil, or_false] at hother
    rcases hother with ⟨-, hother⟩ | ⟨-, hother⟩ | ⟨-, hother⟩
    · exact ⟨_, hother⟩
    · exact ⟨_, hother⟩
    · exact ⟨_, hother⟩
  obtain ⟨done, rfl⟩ := hresponse
  cases hreport

/-- The only id is reported ABORTED, and the worker subscribes again. -/
theorem waitForResultsAsync_ignores_abort :
    let request := createEventSubscriptionRequest "session" ["a"]
    let response : EventSubscriptionResponse :=
      ⟨"session", some (.resultStatusUpdate ⟨"a", Proto.ResultStatus.aborted.number⟩)⟩
    let trace : List (ℕ × Action) := [(0, .start), (0, .subscribe request),
      (0, .onNext response), (0, .onError), (0, .wake), (0, .subscribe request)]
    ∃ s, Machine.run System.step (waitForResultsAsync "session" ["a"] 1 1) trace = some s ∧
      ¬ KeepsPromise (waitForResultsAsync "session" ["a"] 1 1) ["a"] trace s := by
  intro request response trace
  refine ⟨_, rfl, fun hkept => ?_⟩
  have hawaits := hkept.aborted [(0, .start), (0, .subscribe request)] 0 response
    [(0, .onError), (0, .wake), (0, .subscribe request)] _ "a" rfl rfl
    ⟨_, rfl, Finset.mem_singleton_self "a"⟩ rfl
  exact hawaits.1 request (by simp)

end ArmoniKApi.Java
