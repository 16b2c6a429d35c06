import ArmoniKApi.Python.Events
import ArmoniKApi.Python.FilterAlgebra

/-!
# The wait for one bucket

`_wait_all` reads its streams the way `Await` says: while ids are pending,
`handler` follows the reports of a stream (`readMessages_follows`), what is
still pending when a stream ends with an error is what the next subscription
starts from, and a stream that ends cleanly is the last one.  So the wait for a
bucket is decided by `told`, the reports of its streams up to the first clean
end (`waitAll_spec`).

```text
   stream 1   a COMPLETED           RpcError    -> subscribe again, b and c pending
   stream 2   b COMPLETED           clean end   -> leave the loop, c pending
   stream 3   c COMPLETED                       -> never subscribed to
```

## Strategy

* `resultsFilter_eq`, `eventRequest_eq`: the request for a bucket can be built, so the stream is
  read.
* `handle_resultEvent`: what the handler does with a message is told by its report.
* `readMessages_follows`: one stream, by induction on its messages.  The three lemmas before
  it are the three answers of the handler: it raises, it says that it is done, or it goes on
  with fewer ids.
* `waitLoop_spec`: all streams, by induction on them.
-/

namespace ArmoniKApi.Python

open Await (verdict consumed discharge Report)
open NormalForm
open Proto (EventStream EventSubscriptionResponse)
open Proto.EventSubscriptionResponse (reports)

/-! ## The request -/

theorem foldlM_addResult {filter : Filter} {form : List (List Filter)}
    (h : Normal "results.Filters" "results.FiltersAnd" filter form) (results : List String) :
    ∃ joined, results.foldlM addResult (some filter) = .ok (some joined) ∧
      Normal "results.Filters" "results.FiltersAnd" joined
        (form ++ results.map fun resultId => [resultIdIs resultId]) := by
  induction results generalizing filter form with
  | nil => exact ⟨filter, rfl, by simpa using h⟩
  | cons resultId rest ih =>
      have hleaf := Normal.leaf (isLeaf_resultIdIs resultId)
      obtain ⟨joined, hjoined, hnormal⟩ := ih (h.or_normal hleaf)
      refine ⟨joined, ?_, by simpa using hnormal⟩
      -- one turn of the loop appends the conjunction of `resultId` to the form
      have hstep : addResult (some filter) resultId =
          .ok (some (combination "results.Filters" "results.FiltersAnd"
            (form ++ [[resultIdIs resultId]]))) := by
        calc addResult (some filter) resultId
            = (do return some (← filter.or (resultIdIs resultId))) := by
              rw [addResult, resultId_eq]
              rfl
          _ = _ := by
              rw [h.or hleaf]
              rfl
      rw [List.foldlM_cons, hstep]
      exact hjoined

/-- The filter of a bucket selects the results of the bucket, one conjunction
for each. -/
theorem resultsFilter_eq {results : List String} (hne : results ≠ []) :
    ∃ filter, resultsFilter results = .ok (some filter) ∧
      Normal "results.Filters" "results.FiltersAnd" filter
        (results.map fun resultId => [resultIdIs resultId]) := by
  cases results with
  | nil => exact absurd rfl hne
  | cons resultId rest =>
      exact foldlM_addResult (Normal.leaf (isLeaf_resultIdIs resultId)) rest

theorem eventRequest_eq {filter : Filter} {form : List (List Filter)} (sessionId : String)
    (eventTypes : List Proto.EventsEnum)
    (h : Normal "results.Filters" "results.FiltersAnd" filter form) :
    eventRequest sessionId eventTypes none (some filter) =
      .ok ⟨sessionId, eventTypes, ⟨"tasks.Filters", []⟩,
        formMessage "results.Filters" "results.FiltersAnd" form⟩ := by
  have hcombined := Normal.combined h.proper h.leaves
  have hmessage : filterMessage "results.Filters" (some filter) =
      .ok (formMessage "results.Filters" "results.FiltersAnd" form) := by
    rw [filterMessage, h.toDisjunction]
    exact hcombined.toMessage
  rw [eventRequest, hmessage]
  rfl

/-! ## One stream -/

theorem handleStatus_eq {pending : Finset String} (hpending : pending ≠ ∅) (resultId : String)
    (status : Int) :
    handleStatus resultId status pending =
      if Proto.statusOutcome status = .failed ∧ resultId ∈ pending then
        (.error (.runtimeError (abortedMessage resultId)), pending)
      else
        (.ok (discharge pending ⟨resultId, Proto.statusOutcome status⟩ = ∅),
          discharge pending ⟨resultId, Proto.statusOutcome status⟩) := by
  unfold handleStatus Proto.statusOutcome discharge
  split_ifs <;> simp_all

/-- A result event is handled through its report. -/
theorem handle_resultEvent {message : EventSubscriptionResponse} (h : message.IsResultEvent) :
    ∃ eventType event resultId status, eventOf message = .ok (eventType, event) ∧
      message.report? = some ⟨resultId, Proto.statusOutcome status⟩ ∧
      ∀ sessionId, handler sessionId eventType event = handleStatus resultId status := by
  obtain ⟨sessionId, update⟩ := message
  unfold EventSubscriptionResponse.IsResultEvent EventSubscriptionResponse.report? at h
  rcases update with _ | (update | update | update | update | update)
  · simp at h
  · simp at h
  · exact ⟨_, _, update.resultId, update.status, rfl, rfl, fun _ => rfl⟩
  · simp at h
  · simp at h
  · exact ⟨_, _, update.resultId, update.status, rfl, rfl, fun _ => rfl⟩

/-- The result of reading a stream, given where the wait stands at its end. -/
def readingResult (ending : Proto.StreamEnd) : Await.Verdict String → PyResult Unit
  | .complete => .ok ()
  | .failed resultId _ => .error (.runtimeError (abortedMessage resultId))
  | .waiting _ => if ending = .clean then .ok () else .error .rpcError

/-- A reading that is what the reports of the stream come to. -/
structure Follows (pending : Finset String) (messages : List EventSubscriptionResponse)
    (ending : Proto.StreamEnd) (reading : Reading (Finset String)) : Prop where
  received : reports reading.received = consumed pending (reports messages)
  result : reading.result = readingResult ending (verdict pending (reports messages))
  state : ∀ left, verdict pending (reports messages) = .waiting left → reading.state = left

section Follows

variable {pending : Finset String} {ending : Proto.StreamEnd} {message : EventSubscriptionResponse}
  {rest : List EventSubscriptionResponse} {report : Await.Report String}

theorem follows_nil (sessionId : String) (ending : Proto.StreamEnd) (hpending : pending ≠ ∅) :
    Follows pending [] ending (readMessages sessionId [handler] ending [] pending) := by
  have hverdict : verdict pending (reports []) = .waiting pending := by
    rw [Proto.EventSubscriptionResponse.reports_nil]
    simp [verdict, hpending]
  constructor
  · cases ending <;> rfl
  · rw [hverdict]
    cases ending <;> rfl
  · intro left hleft
    rw [hverdict] at hleft
    cases hleft
    cases ending <;> rfl

/-- The handler raises, and the rest of the stream is not read. -/
theorem follows_failed (hpending : pending ≠ ∅) (hreport : message.report? = some report)
    (hfailed : report.outcome = .failed ∧ report.key ∈ pending) (state : Finset String) :
    Follows pending (message :: rest) ending
      ⟨.error (.runtimeError (abortedMessage report.key)), state, [message]⟩ := by
  have hreports (others : List EventSubscriptionResponse) :
      reports (message :: others) = report :: reports others :=
    Proto.EventSubscriptionResponse.reports_cons_of_some hreport
  constructor
  · show reports [message] = _
    rw [hreports, hreports, Await.consumed_cons hpending, if_pos hfailed]
    rfl
  · rw [hreports, Await.verdict_cons, if_pos hfailed]
    rfl
  · intro left hleft
    rw [hreports, Await.verdict_cons, if_pos hfailed] at hleft
    cases hleft

/-- The handler answers `True`, and the stream is left. -/
theorem follows_complete (hpending : pending ≠ ∅) (hreport : message.report? = some report)
    (hfailed : ¬ (report.outcome = .failed ∧ report.key ∈ pending))
    (hdone : discharge pending report = ∅) (state : Finset String) :
    Follows pending (message :: rest) ending ⟨.ok (), state, [message]⟩ := by
  have hreports (others : List EventSubscriptionResponse) :
      reports (message :: others) = report :: reports others :=
    Proto.EventSubscriptionResponse.reports_cons_of_some hreport
  constructor
  · show reports [message] = _
    rw [hreports, hreports, Await.consumed_cons hpending, if_neg hfailed, hdone,
      Await.consumed_empty]
    rfl
  · rw [hreports, Await.verdict_cons, if_neg hfailed, hdone, Await.verdict_empty]
    rfl
  · intro left hleft
    rw [hreports, Await.verdict_cons, if_neg hfailed, hdone, Await.verdict_empty] at hleft
    cases hleft

/-- The handler answers `False`, and the reading goes on with fewer ids. -/
theorem Follows.prepend (hpending : pending ≠ ∅) (hreport : message.report? = some report)
    (hfailed : ¬ (report.outcome = .failed ∧ report.key ∈ pending))
    {reading : Reading (Finset String)}
    (hfollows : Follows (discharge pending report) rest ending reading) :
    Follows pending (message :: rest) ending
      { reading with received := message :: reading.received } := by
  have hreports (others : List EventSubscriptionResponse) :
      reports (message :: others) = report :: reports others :=
    Proto.EventSubscriptionResponse.reports_cons_of_some hreport
  constructor
  · rw [hreports, hreports, Await.consumed_cons hpending, if_neg hfailed, hfollows.received]
  · rw [hreports, Await.verdict_cons, if_neg hfailed]
    exact hfollows.result
  · intro left hleft
    rw [hreports, Await.verdict_cons, if_neg hfailed] at hleft
    exact hfollows.state left hleft

end Follows

/-- While ids are pending, `handler` follows the reports of a stream. -/
theorem readMessages_follows (sessionId : String) (ending : Proto.StreamEnd)
    {messages : List EventSubscriptionResponse}
    (hevents : ∀ message ∈ messages, message.IsResultEvent) {pending : Finset String}
    (hpending : pending ≠ ∅) :
    Follows pending messages ending
      (readMessages sessionId [handler] ending messages pending) := by
  induction messages generalizing pending with
  | nil => exact follows_nil sessionId ending hpending
  | cons message rest ih =>
      obtain ⟨eventType, event, resultId, status, hevent, hreport, hhandler⟩ :=
        handle_resultEvent (hevents message (List.mem_cons_self ..))
      have hrest := fun other hother => hevents other (List.mem_cons_of_mem _ hother)
      simp only [readMessages, hevent, anyHandler, hhandler, handleStatus_eq hpending]
      by_cases hfailed : Proto.statusOutcome status = .failed ∧ resultId ∈ pending
      · simp only [if_pos hfailed]
        exact follows_failed hpending hreport hfailed _
      simp only [if_neg hfailed]
      by_cases hdone : discharge pending ⟨resultId, Proto.statusOutcome status⟩ = ∅
      · simp only [hdone, decide_true]
        exact follows_complete hpending hreport hfailed hdone _
      · simp only [hdone, decide_false]
        exact (ih hrest hdone).prepend hpending hreport hfailed

/-! ## One bucket -/

/-- The streams up to the first one that ends cleanly, which is the last one
that a bucket subscribes to. -/
def untilCleanEnd : List EventStream → List EventStream
  | [] => []
  | stream :: rest => if stream.ending = .clean then [stream] else stream :: untilCleanEnd rest

/-- The reports of these streams. -/
def told (streams : List EventStream) : List (Report String) :=
  (untilCleanEnd streams).flatMap fun stream => reports stream.responses

/-- One of the streams ends cleanly. -/
def EndsCleanly (streams : List EventStream) : Prop :=
  ∃ stream ∈ streams, stream.ending = .clean

instance (streams : List EventStream) : Decidable (EndsCleanly streams) :=
  inferInstanceAs (Decidable (∃ stream ∈ streams, stream.ending = .clean))

theorem endsCleanly_cons {stream : EventStream} {rest : List EventStream} :
    EndsCleanly (stream :: rest) ↔ stream.ending = .clean ∨ EndsCleanly rest :=
  List.exists_mem_cons_iff ..

/-- Every message of the streams is a result status update or announces a new
result. -/
def ResultEventsOnly (streams : List EventStream) : Prop :=
  ∀ stream ∈ streams, ∀ message ∈ stream.responses, message.IsResultEvent

instance (streams : List EventStream) : Decidable (ResultEventsOnly streams) :=
  inferInstanceAs (Decidable (∀ stream ∈ streams, ∀ message ∈ stream.responses,
    message.IsResultEvent))

/-- The outcome of a bucket, given where its wait stands when the streams end. -/
def bucketOutcome (streams : List EventStream) : Await.Verdict String → Outcome
  | .complete => .returned
  | .failed resultId _ => .raised (.runtimeError (abortedMessage resultId))
  | .waiting _ => if EndsCleanly streams then .returned else .blocked

theorem told_cons (stream : EventStream) (rest : List EventStream) :
    told (stream :: rest) = reports stream.responses ++
      if stream.ending = .clean then [] else told rest := by
  simp only [told, untilCleanEnd]
  split <;> simp

theorem getEvents_follows {stream : EventStream} {filter : Option Filter} {sessionId : String}
    {eventTypes : List Proto.EventsEnum} {request : EventSubscriptionRequest}
    (hrequest : eventRequest sessionId eventTypes none filter = .ok request)
    (hevents : ∀ message ∈ stream.responses, message.IsResultEvent) {pending : Finset String}
    (hpending : pending ≠ ∅) :
    Follows pending stream.responses stream.ending
      (getEvents stream sessionId eventTypes [handler] none filter pending) := by
  rw [getEvents, hrequest]
  exact readMessages_follows sessionId stream.ending hevents hpending

/-- The loop over the subscriptions of a bucket: what it receives and how it
ends.  The induction is on the streams, and what is pending when a stream ends
with an error is what the next one starts from. -/
theorem waitLoop_spec {sessionId : String} {filter : Option Filter}
    {request : EventSubscriptionRequest}
    (hrequest : eventRequest sessionId [.resultStatusUpdate, .newResult] none filter = .ok request)
    {streams : List EventStream} (hevents : ResultEventsOnly streams) (pending : Finset String) :
    reports (waitLoop sessionId filter pending streams).received =
      consumed pending (told streams) ∧
    (waitLoop sessionId filter pending streams).outcome =
      bucketOutcome streams (verdict pending (told streams)) := by
  induction streams generalizing pending with
  | nil =>
      by_cases hpending : pending = ∅
      · simp [waitLoop, hpending, bucketOutcome]
      · simp [waitLoop, hpending, bucketOutcome, told, untilCleanEnd, verdict, consumed,
          EndsCleanly]
  | cons stream rest ih =>
      by_cases hpending : pending = ∅
      · simp [waitLoop, hpending, bucketOutcome]
      have hfollows := getEvents_follows hrequest
        (hevents stream (List.mem_cons_self ..)) hpending
      have hrest : ResultEventsOnly rest :=
        fun other hother => hevents other (List.mem_cons_of_mem _ hother)
      rw [told_cons, Await.verdict_append, Await.consumed_append]
      simp only [waitLoop, if_neg hpending]
      rw [hfollows.result]
      cases hverdict : verdict pending (reports stream.responses) with
      | complete => exact ⟨hfollows.received, rfl⟩
      | failed resultId left => exact ⟨hfollows.received, rfl⟩
      | waiting left =>
          have hreceived := hfollows.received
          rw [Await.consumed_of_waiting hverdict] at hreceived
          have hstate := hfollows.state left hverdict
          by_cases hclean : stream.ending = .clean
          -- `else: break`: the loop ends although `left` is not empty
          · have hends : EndsCleanly (stream :: rest) := endsCleanly_cons.mpr (.inl hclean)
            have hleft : left ≠ ∅ := (Await.verdict_eq_waiting_iff.mp hverdict).2.1
            simp [readingResult, hclean, hreceived, bucketOutcome, hends, verdict, hleft, consumed]
          -- an `RpcError` is swallowed, and the next stream starts from `left`
          · have hends : EndsCleanly (stream :: rest) ↔ EndsCleanly rest :=
              endsCleanly_cons.trans (or_iff_right hclean)
            obtain ⟨hrestReceived, hrestOutcome⟩ := ih hrest left
            simp only [readingResult, if_neg hclean, hstate]
            refine ⟨?_, ?_⟩
            · rw [Proto.EventSubscriptionResponse.reports_append, hreceived, hrestReceived]
            · rw [hrestOutcome]
              cases verdict left (told rest) <;> simp [bucketOutcome, hends]

/-- The wait for a bucket: the reports it receives and how it ends. -/
theorem waitAll_spec {streams : List EventStream} (hevents : ResultEventsOnly streams)
    (sessionId : String) {batch : List String} (hne : batch ≠ []) :
    reports (waitAll streams sessionId batch).received =
      consumed batch.toFinset (told streams) ∧
    (waitAll streams sessionId batch).outcome =
      bucketOutcome streams (verdict batch.toFinset (told streams)) := by
  obtain ⟨filter, hfilter, hnormal⟩ := resultsFilter_eq hne
  have hrequest := eventRequest_eq sessionId [.resultStatusUpdate, .newResult] hnormal
  rw [waitAll, if_neg (by simpa using hne), hfilter]
  exact waitLoop_spec hrequest hevents batch.toFinset

end ArmoniKApi.Python
