import ArmoniKApi.Proto.Events

/-!
# Waiting for results in C++

`EventsClient::wait_for_result_availability` subscribes once to the events of
the given results and erases from its vector the ids that are reported
COMPLETED, until the vector is empty or the stream ends.  An ABORTED result
raises an exception inside the loop, but the loop catches it and writes it to
the error output.  So the call never throws once it has a stream, and returns
whatever the stream has said: it keeps its promise only when the stream is good
news from beginning to end (`eventsClient_keeps_promise_iff`).

The call keeps two promises at once, and they pull in different directions: to return only
when every id is there, and to throw when one was aborted.  Neither is a property of the loop
alone.

* The loop is compared with a wait over the reports of its stream.  `readLoop_received` says
  how far it reads, and `readLoop_reportedDone_iff` and `readLoop_failedPending_iff` that what
  it has read says as much about the ids as the whole stream.
* `readLoop_outcome` says that it never throws, which settles the second promise: it is kept
  only if there is nothing to throw for.
* An id that is erased was reported COMPLETED (`completes_of_updateOrNew`), which is all that
  the first promise needs when the vector has become empty.

How the stream ends does not matter, since the function never asks for its status.
-/

namespace ArmoniKApi.Cpp

open Await (ReportedDone FailedPending remaining)
open Proto (EventSubscriptionRequest EventSubscriptionResponse EventStream ResultStatus
  ResultRawEnumField FilterStringOperator EventsEnum)
open Proto.EventSubscriptionResponse (reports)

/-! ## The function -/

/-- The condition that the loop over `result_ids` adds to the filters: the one
`filter_field`, with its value set to the id. -/
def filterField (resultId : String) : Proto.Results.FilterField :=
  ⟨some ⟨some (.resultRawField ⟨ResultRawEnumField.resultId.number⟩)⟩,
    some (.filterString ⟨resultId, FilterStringOperator.equal.number⟩)⟩

/-- `filters`, filled by the loop over `result_ids`. -/
def resultsFilters (resultIds : List String) : Proto.Results.Filters :=
  resultIds.foldl (fun filters resultId => ⟨filters.or ++ [⟨[filterField resultId]⟩]⟩) ⟨[]⟩

/-- `request`. -/
def eventRequest (sessionId : String) (resultIds : List String) : EventSubscriptionRequest where
  sessionId := sessionId
  tasksFilters := none
  resultsFilters := some (resultsFilters resultIds)
  returnedEvents := [EventsEnum.resultStatusUpdate.number, EventsEnum.newResult.number]

/-- The text of the exception for an aborted result. -/
def abortedMessage (resultId : String) : String := "Result " ++ resultId ++ " has been aborted"

/-- The `switch` on the status of an event: the value of `update_or_new`, or the
exception that is thrown. -/
def updateOfStatus (resultId : String) (status : Int) : Except String String :=
  if status = ResultStatus.completed.number then return resultId
  else if status = ResultStatus.aborted.number then throw (abortedMessage resultId)
  else return ""

/-- The `switch` on `response.update_case()`. -/
def updateOrNew (response : EventSubscriptionResponse) : Except String String :=
  match response.update with
  | some (.resultStatusUpdate update) => updateOfStatus update.resultId update.status
  | some (.newResult update) => updateOfStatus update.resultId update.status
  | _ => return ""

/-- A run of the function: what it threw, what it read, and what it wrote to
`std::cerr`. -/
structure Run where
  outcome : Except String Unit
  received : List EventSubscriptionResponse
  cerr : List String

/-- The loop `while (stream->Read(&response))`, over the ids that are left. -/
def readLoop (resultIds : List String) : List EventSubscriptionResponse → Run
  | [] => ⟨.ok (), [], []⟩
  | response :: rest =>
      match updateOrNew response with
      -- the `catch` stands inside the loop, so the loop goes on
      | .error what =>
          let run := readLoop resultIds rest
          { run with
            received := response :: run.received
            cerr := ("Error while reading event response: " ++ what) :: run.cerr }
      | .ok update =>
          if update ≠ "" then
            let resultIds := resultIds.filter fun resultId => resultId ≠ update
            if resultIds = [] then
              ⟨.ok (), [response], []⟩
            else
              let run := readLoop resultIds rest
              { run with received := response :: run.received }
          else
            let run := readLoop resultIds rest
            { run with received := response :: run.received }

/-- `EventsClient::wait_for_result_availability`.  The stub answers the request
with a stream, or with a null pointer; how the stream ends is never asked. -/
def waitForResultAvailability (getEvents : EventSubscriptionRequest → Option EventStream)
    (sessionId : String) (resultIds : List String) : Run :=
  match getEvents (eventRequest sessionId resultIds) with
  | none => ⟨.error "Could not get events ", [], []⟩
  | some stream => readLoop resultIds stream.responses

/-! ## The request -/

theorem resultsFilters_eq (resultIds : List String) :
    resultsFilters resultIds = Proto.anyResultId resultIds := by
  have hfold : ∀ (filters : Proto.Results.Filters), resultIds.foldl
      (fun filters resultId => (⟨filters.or ++ [⟨[filterField resultId]⟩]⟩ : Proto.Results.Filters))
      filters = ⟨filters.or ++ resultIds.map Proto.resultIdEquals⟩ := by
    induction resultIds with
    | nil => simp
    | cons resultId rest ih =>
        intro filters
        rw [List.foldl_cons, ih]
        simp [filterField, Proto.resultIdEquals]
  exact hfold ⟨[]⟩

/-! ## The loop -/

theorem updateOfStatus_eq_ok {resultId update : String} {status : Int}
    (h : updateOfStatus resultId status = .ok update) (hne : update ≠ "") :
    resultId = update ∧ Proto.statusOutcome status = .done := by
  unfold updateOfStatus at h
  split at h
  · rename_i hcompleted
    exact ⟨Except.ok.inj h, Proto.statusOutcome_eq_done_iff.mpr hcompleted⟩
  split at h
  · cases h
  · exact absurd (Except.ok.inj h).symm hne

/-- The id that an event erases is one that it reports COMPLETED. -/
theorem completes_of_updateOrNew {response : EventSubscriptionResponse} {update : String}
    (h : updateOrNew response = .ok update) (hne : update ≠ "") : response.Completes update := by
  obtain ⟨sessionId, update'⟩ := response
  unfold EventSubscriptionResponse.Completes EventSubscriptionResponse.report?
  rcases update' with _ | (event | event | event | event | event)
  · exact absurd (Except.ok.inj h).symm hne
  · exact absurd (Except.ok.inj h).symm hne
  · obtain ⟨hid, hdone⟩ := updateOfStatus_eq_ok h hne
    simp [hid, hdone]
  · exact absurd (Except.ok.inj h).symm hne
  · exact absurd (Except.ok.inj h).symm hne
  · obtain ⟨hid, hdone⟩ := updateOfStatus_eq_ok h hne
    simp [hid, hdone]

/-- One turn of the loop: it goes on with the ids that the event does not
complete, or stops because the event completes all of them. -/
theorem readLoop_cons (resultIds : List String) (response : EventSubscriptionResponse)
    (rest : List EventSubscriptionResponse) :
    (∃ left, (readLoop resultIds (response :: rest)).received =
        response :: (readLoop left rest).received ∧
      (readLoop resultIds (response :: rest)).outcome = (readLoop left rest).outcome ∧
      ∀ id ∈ resultIds, id ∈ left ∨ response.Completes id) ∨
    ((readLoop resultIds (response :: rest)).received = [response] ∧
      (readLoop resultIds (response :: rest)).outcome = .ok () ∧
      ∀ id ∈ resultIds, response.Completes id) := by
  rw [readLoop]
  cases hupdate : updateOrNew response with
  | error what => exact .inl ⟨resultIds, rfl, rfl, fun id hid => .inl hid⟩
  | ok update =>
      by_cases hempty : update = ""
      -- nothing is completed, or an id that the code takes for that
      · simp only [hempty, ne_eq, not_true_eq_false, if_false]
        exact .inl ⟨resultIds, rfl, rfl, fun id hid => .inl hid⟩
      simp only [ne_eq, hempty, not_false_eq_true, if_true]
      have hcompletes := completes_of_updateOrNew hupdate hempty
      have herased : ∀ id ∈ resultIds,
          id ∈ resultIds.filter (fun resultId => ¬ resultId = update) ∨ response.Completes id := by
        intro id hid
        by_cases heq : id = update
        · exact .inr (heq ▸ hcompletes)
        · exact .inl (List.mem_filter.mpr ⟨hid, by simpa using heq⟩)
      by_cases hleft : resultIds.filter (fun resultId => ¬ resultId = update) = []
      · rw [if_pos hleft]
        refine .inr ⟨rfl, rfl, fun id hid => ?_⟩
        rcases herased id hid with hmem | hdone
        · rw [hleft] at hmem
          exact absurd hmem List.not_mem_nil
        · exact hdone
      · rw [if_neg hleft]
        exact .inl ⟨_, rfl, rfl, herased⟩

theorem readLoop_outcome (resultIds : List String) (responses : List EventSubscriptionResponse) :
    (readLoop resultIds responses).outcome = .ok () := by
  induction responses generalizing resultIds with
  | nil => rfl
  | cons response rest ih =>
      rcases readLoop_cons resultIds response rest with ⟨left, -, houtcome, -⟩ | ⟨-, houtcome, -⟩
      · rw [houtcome, ih left]
      · exact houtcome

/-- The loop reads the stream to its end, or stops when every id was reported
COMPLETED. -/
theorem readLoop_received (resultIds : List String) (responses : List EventSubscriptionResponse) :
    ∃ unread, responses = (readLoop resultIds responses).received ++ unread ∧
      (unread = [] ∨
        ∀ id ∈ resultIds, ReportedDone (reports (readLoop resultIds responses).received) id) := by
  have htold : ∀ {response : EventSubscriptionResponse} {id : String}
      {received : List EventSubscriptionResponse}, response ∈ received → response.Completes id →
      ReportedDone (reports received) id := fun hmem hdone =>
    EventSubscriptionResponse.exists_completes_iff.mp ⟨_, hmem, hdone⟩
  induction responses generalizing resultIds with
  | nil => exact ⟨[], rfl, .inl rfl⟩
  | cons response rest ih =>
      -- the loop goes on with what is left, or it was the last id
      rcases readLoop_cons resultIds response rest with
        ⟨left, hreceived, -, hleft⟩ | ⟨hreceived, -, hdone⟩
      · obtain ⟨unread, hrest, hend⟩ := ih left
        refine ⟨unread, by rw [hreceived, List.cons_append, ← hrest], hend.imp_right fun hall => ?_⟩
        intro id hid
        rw [hreceived]
        rcases hleft id hid with hmem | hcompletes
        · rw [← EventSubscriptionResponse.exists_completes_iff]
          obtain ⟨other, hother, hcompletes⟩ :=
            EventSubscriptionResponse.exists_completes_iff.mpr (hall id hmem)
          exact ⟨other, List.mem_cons_of_mem _ hother, hcompletes⟩
        · exact htold (List.mem_cons_self ..) hcompletes
      · refine ⟨rest, by rw [hreceived, List.singleton_append], .inr fun id hid => ?_⟩
        rw [hreceived]
        exact htold (List.mem_singleton.mpr rfl) (hdone id hid)

/-- What the loop has read says as much about the ids as the whole stream. -/
theorem readLoop_reportedDone_iff (resultIds : List String)
    (responses : List EventSubscriptionResponse) :
    (∀ id ∈ resultIds, ReportedDone (reports (readLoop resultIds responses).received) id) ↔
      ∀ id ∈ resultIds, ReportedDone (reports responses) id := by
  obtain ⟨unread, hresponses, hend⟩ := readLoop_received resultIds responses
  constructor
  · intro h id hid
    rw [hresponses, EventSubscriptionResponse.reports_append]
    exact List.mem_append_left _ (h id hid)
  · intro h
    rcases hend with rfl | hall
    · rw [List.append_nil] at hresponses
      rwa [← hresponses]
    · exact hall

theorem readLoop_failedPending_iff (resultIds : List String)
    (responses : List EventSubscriptionResponse) (id : String) :
    FailedPending resultIds.toFinset (reports (readLoop resultIds responses).received) id ↔
      FailedPending resultIds.toFinset (reports responses) id := by
  obtain ⟨unread, hresponses, hend⟩ := readLoop_received resultIds responses
  rcases hend with rfl | hall
  · rw [List.append_nil] at hresponses
    rw [← hresponses]
  -- every id was completed, so an abort in the unread part fails nothing
  · have hempty : remaining resultIds.toFinset
        (reports (readLoop resultIds responses).received) = ∅ :=
      Await.remaining_eq_empty_iff.mpr fun other hother => hall other (List.mem_toFinset.mp hother)
    generalize (readLoop resultIds responses).received = received at *
    rw [hresponses, EventSubscriptionResponse.reports_append, Await.failedPending_append_iff,
      hempty]
    simp

/-! ## The promise -/

/-- If the call returns, every id was reported COMPLETED by an event it received. -/
def CompletesAll (run : Run) (resultIds : List String) : Prop :=
  run.outcome = .ok () → ∀ id ∈ resultIds, ∃ response ∈ run.received, response.Completes id

/-- If an event reports an id ABORTED that is awaited and not yet completed, the
call throws. -/
def ThrowsOnAbort (run : Run) (resultIds : List String) : Prop :=
  ∀ id, FailedPending resultIds.toFinset (reports run.received) id →
    ∃ what, run.outcome = .error what

/-- The call keeps its promise exactly when it gets no stream, or one that
reports every id COMPLETED, and none ABORTED before that. -/
theorem eventsClient_keeps_promise_iff
    (getEvents : EventSubscriptionRequest → Option EventStream) (sessionId : String)
    (resultIds : List String) :
    (CompletesAll (waitForResultAvailability getEvents sessionId resultIds) resultIds ∧
      ThrowsOnAbort (waitForResultAvailability getEvents sessionId resultIds) resultIds) ↔
    ∀ stream, getEvents (eventRequest sessionId resultIds) = some stream →
      (∀ id ∈ resultIds, ReportedDone (reports stream.responses) id) ∧
        ∀ id, ¬ FailedPending resultIds.toFinset (reports stream.responses) id := by
  unfold waitForResultAvailability
  cases hstream : getEvents (eventRequest sessionId resultIds) with
  | none =>
      refine iff_of_true ⟨fun h => ?_, fun id h => ⟨_, rfl⟩⟩ fun stream h => ?_
      · cases h
      · cases h
  | some stream =>
      simp only [Option.some.injEq, forall_eq']
      have houtcome := readLoop_outcome resultIds stream.responses
      refine and_congr ?_ ?_
      · rw [← readLoop_reportedDone_iff, CompletesAll]
        simp only [houtcome, true_imp_iff, EventSubscriptionResponse.exists_completes_iff]
      · simp only [ThrowsOnAbort, houtcome, readLoop_failedPending_iff, reduceCtorEq,
          exists_false, imp_false]

/-- A stream that reports `"a"` ABORTED and ends. -/
def abortingStream : EventStream :=
  ⟨[⟨"session", some (.resultStatusUpdate ⟨"a", ResultStatus.aborted.number⟩)⟩], .clean⟩

/-- The abort is written to the error output, and the call returns. -/
theorem eventsClient_swallows_abort :
    ¬ CompletesAll (waitForResultAvailability (fun _ => some abortingStream) "session" ["a"])
        ["a"] ∧
      ¬ ThrowsOnAbort (waitForResultAvailability (fun _ => some abortingStream) "session" ["a"])
        ["a"] := by
  have hrun : waitForResultAvailability (fun _ => some abortingStream) "session" ["a"] =
      ⟨.ok (), abortingStream.responses,
        ["Error while reading event response: Result a has been aborted"]⟩ := rfl
  rw [hrun]
  constructor
  · intro h
    obtain ⟨response, hresponse, hdone⟩ := h rfl "a" (List.mem_singleton.mpr rfl)
    obtain rfl := List.mem_singleton.mp hresponse
    unfold EventSubscriptionResponse.Completes at hdone
    exact absurd hdone (by decide)
  · intro h
    obtain ⟨what, hwhat⟩ := h "a" ⟨[], [], rfl, by simp⟩
    cases hwhat

end ArmoniKApi.Cpp
