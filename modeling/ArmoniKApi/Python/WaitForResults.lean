import ArmoniKApi.Python.WaitLoop
import Mathlib.Data.List.Nodup

/-!
# When the Python wait keeps its promise

`wait_for_result_availability` promises to return when every result is
available, and to raise when one is aborted.  The second half holds in every
run (`raisesOnAbort`).  The first does not: when the server closes a stream
without an error, `_wait_all` leaves its loop although ids are pending, and the
call returns.  `waitForResultAvailability_keeps_promise_iff` says exactly when
this goes wrong.

A call collects the waits for its batches in the same way with and without a
pool (`Collects`): it returns when all of them return, and it raises what one
of them raises.

## When the call returns too early

```text
   batch 1   a COMPLETED, b COMPLETED                 returns
   batch 2   c COMPLETED, the stream ends cleanly     returns, d is pending
```

Each batch comes to a normal end (`EndsNormally`), and one of them has been cut off
(`CutOff`).  The call returns although nothing was heard of `d`.  The server may report any
id on any stream, so it could still be that another batch was told of `d`, and this is why
the condition speaks of the other batches.

## Strategy

* `mem_batched_iff`, `nodup_batched`: the batches are a partition of the ids.
* `waitBatches_collects`, `waitPool_collects`: without a pool the batches are waited for one
  after the other, with a pool in the order of the schedule.  `Collects` is all that the rest
  of the proof knows of either.
* `bucketOutcome_eq_returned_iff`: the wait for a batch returns if and only if it ends normally,
  from `waitAll_spec`.
* `raisesOnAbort` and `completesAll_iff` are the two halves of the promise.
-/

namespace ArmoniKApi.Python

open Await (Report verdict consumed FailedPending ReportedDone)
open Proto (EventStream)
open Proto.EventSubscriptionResponse (reports)

/-! ## The batches -/

theorem flatten_batchedFrom {α : Type} (n : Nat) (batch items : List α) :
    (batchedFrom n batch items).flatten = batch ++ items := by
  induction items generalizing batch with
  | nil =>
      rw [batchedFrom]
      split
      · simp
      · rename_i hempty
        simp only [List.length_pos_iff, ne_eq, not_not] at hempty
        simp [hempty]
  | cons c rest ih =>
      rw [batchedFrom]
      split
      · simp [ih]
      · simp [ih]

theorem ne_nil_of_mem_batchedFrom {α : Type} {n : Nat} {batch items other : List α}
    (h : other ∈ batchedFrom n batch items) : other ≠ [] := by
  induction items generalizing batch with
  | nil =>
      rw [batchedFrom] at h
      split at h
      · rename_i hpos
        rw [List.mem_singleton] at h
        exact h ▸ List.ne_nil_of_length_pos hpos
      · exact absurd h List.not_mem_nil
  | cons c rest ih =>
      rw [batchedFrom] at h
      split at h
      · rcases List.mem_cons.mp h with rfl | h
        · simp
        · exact ih h
      · exact ih h

theorem mem_batched_iff {α : Type} {items : List α} {n : Nat} {item : α} :
    (∃ batch ∈ batched items n, item ∈ batch) ↔ item ∈ items := by
  rw [← List.mem_flatten, batched, flatten_batchedFrom, List.nil_append]

/-- The batches of distinct items are distinct. -/
theorem nodup_batched {α : Type} {items : List α} (h : items.Nodup) (n : Nat) :
    (batched items n).Nodup := by
  have hflatten : (batched items n).flatten.Nodup := by
    rwa [batched, flatten_batchedFrom, List.nil_append]
  rw [List.nodup_flatten] at hflatten
  have hne : ∀ batch ∈ batched items n, batch ≠ [] := fun batch hbatch =>
    ne_nil_of_mem_batchedFrom hbatch
  -- two equal batches would share an item, for none is empty
  refine hflatten.2.imp_of_mem fun {first second} hfirst hsecond hdisjoint heq => ?_
  obtain ⟨item, hitem⟩ := List.exists_mem_of_ne_nil first (hne first hfirst)
  exact hdisjoint hitem (heq ▸ hitem)

/-! ## The whole call -/

/-- What a call makes of the waits for its batches. -/
structure Collects (wait : List String → WaitRun) (batches : List (List String))
    (call : CallRun) : Prop where
  received : ∀ entry ∈ call.received, entry.1 ∈ batches ∧ entry.2 = (wait entry.1).received
  returned_iff : call.outcome = .returned ↔
    ∀ batch ∈ batches, (wait batch).outcome = .returned
  all_received : call.outcome = .returned →
    ∀ batch ∈ batches, (batch, (wait batch).received) ∈ call.received
  raised : ∀ entry ∈ call.received, ∀ error, (wait entry.1).outcome = .raised error →
    ∃ batch ∈ batches, ∃ first, (wait batch).outcome = .raised first ∧
      call.outcome = .raised first

theorem waitBatches_collects (wait : List String → WaitRun) (batches : List (List String)) :
    Collects wait batches (waitBatches wait batches) := by
  induction batches with
  | nil => constructor <;> simp [waitBatches]
  | cons batch rest ih =>
      rw [waitBatches]
      cases houtcome : (wait batch).outcome with
      | returned =>
          constructor
          · intro entry hentry
            rcases List.mem_cons.mp hentry with rfl | hentry
            · exact ⟨List.mem_cons_self .., rfl⟩
            · exact ⟨List.mem_cons_of_mem _ (ih.received entry hentry).1,
                (ih.received entry hentry).2⟩
          · simp [houtcome, ih.returned_iff]
          · intro hreturned other hother
            rcases List.mem_cons.mp hother with rfl | hother
            · exact List.mem_cons_self ..
            · exact List.mem_cons_of_mem _ (ih.all_received hreturned other hother)
          · intro entry hentry error herror
            rcases List.mem_cons.mp hentry with rfl | hentry
            · rw [houtcome] at herror
              cases herror
            · obtain ⟨other, hother, first, hfirst, hcall⟩ := ih.raised entry hentry error herror
              exact ⟨other, List.mem_cons_of_mem _ hother, first, hfirst, hcall⟩
      -- the list comprehension ends here, and the other batches are not waited for
      | raised first => constructor <;> simp [houtcome]
      | blocked => constructor <;> simp [houtcome]

theorem collectFutures_of_raised {wait : List String → WaitRun} {order : List (List String)}
    (pending : List (List String))
    (h : ∃ batch ∈ order, ∃ error, (wait batch).outcome = .raised error) :
    ∃ batch ∈ order, ∃ error, (wait batch).outcome = .raised error ∧
      collectFutures wait pending order = .raised error := by
  induction order generalizing pending with
  | nil => simp at h
  | cons batch rest ih =>
      cases houtcome : (wait batch).outcome with
      | raised error =>
          exact ⟨batch, List.mem_cons_self .., error, houtcome, by rw [collectFutures, houtcome]⟩
      | _ =>
          obtain ⟨raiser, hmem, error, herror⟩ := h
          have hrest : raiser ∈ rest := by
            rcases List.mem_cons.mp hmem with rfl | hrest
            · rw [houtcome] at herror
              cases herror
            · exact hrest
          obtain ⟨first, hfirst, error, herror, hcollect⟩ :=
            ih (pending.erase batch) ⟨raiser, hrest, error, herror⟩
          refine ⟨first, List.mem_cons_of_mem _ hfirst, error, herror, ?_⟩
          rw [collectFutures, houtcome]
          exact hcollect

theorem collectFutures_of_not_raised {wait : List String → WaitRun} {order : List (List String)}
    (pending : List (List String))
    (h : ∀ batch ∈ order, ∀ error, (wait batch).outcome ≠ .raised error) :
    collectFutures wait pending order =
      if pending.diff order = [] then .returned else .blocked := by
  induction order generalizing pending with
  | nil => rfl
  | cons batch rest ih =>
      have hrest := ih (pending.erase batch) fun other hother =>
        h other (List.mem_cons_of_mem _ hother)
      rw [List.diff_cons, ← hrest, collectFutures]
      split
      · rename_i error herror
        exact absurd herror (h batch (List.mem_cons_self ..) error)
      · rfl

namespace Schedule

variable {maxWorkers : Nat} {batches : List (List String)} {wait : List String → WaitRun}

theorem order_subset (schedule : Schedule maxWorkers batches wait) :
    schedule.order ⊆ batches.take (maxWorkers + schedule.order.length) := by
  intro batch hbatch
  obtain ⟨n, hn⟩ := List.mem_iff_getElem?.mp hbatch
  have hlt : n < schedule.order.length := (List.getElem?_eq_some_iff.mp hn).1
  exact List.take_subset_take_left batches (by omega) (schedule.started n batch hn)

/-- When no started batch is held up, every batch has completed. -/
theorem mem_order_of_not_blocked (schedule : Schedule maxWorkers batches wait)
    (hworkers : 0 < maxWorkers) (hnodup : batches.Nodup)
    (h : ∀ batch ∈ batches, (wait batch).outcome ≠ .blocked) :
    ∀ batch ∈ batches, batch ∈ schedule.order := by
  have hstarted : batches.take (maxWorkers + schedule.order.length) ⊆ schedule.order := by
    intro batch hbatch
    by_contra hpending
    exact h batch (List.mem_of_mem_take hbatch) (schedule.maximal batch hbatch hpending)
  -- the started batches fit into `order`, so none is left to start
  have hlength := (List.subperm_of_subset
    (hnodup.sublist (List.take_sublist _ _)) hstarted).length_le
  rw [List.length_take] at hlength
  rw [List.take_of_length_le (by omega)] at hstarted
  exact hstarted

/-- A wait that has raised is not held up, so the pool has completed it. -/
theorem mem_order_of_raised (schedule : Schedule maxWorkers batches wait) {batch : List String}
    (hbatch : batch ∈ batches.take (maxWorkers + schedule.order.length)) {error : PyError}
    (herror : (wait batch).outcome = .raised error) : batch ∈ schedule.order := by
  by_contra hpending
  rw [schedule.maximal batch hbatch hpending] at herror
  cases herror

/-- `as_completed` only ends when no future is left, and none has raised. -/
theorem returned_of_waitPool (schedule : Schedule maxWorkers batches wait) (hnodup : batches.Nodup)
    (hcall : (waitPool wait maxWorkers batches schedule).outcome = .returned) :
    ∀ batch ∈ batches, batch ∈ schedule.order ∧ (wait batch).outcome = .returned := by
  intro batch hbatch
  have hquiet : ∀ other ∈ schedule.order, ∀ error, (wait other).outcome ≠ .raised error := by
    intro other hother error herror
    obtain ⟨-, -, first, -, hcollect⟩ := collectFutures_of_raised batches
      ⟨other, hother, error, herror⟩
    rw [waitPool, hcollect] at hcall
    cases hcall
  have hmem : batch ∈ schedule.order := by
    by_contra hpending
    have hne : batches.diff schedule.order ≠ [] :=
      List.ne_nil_of_mem (hnodup.mem_sdiff_iff.mpr ⟨hbatch, hpending⟩)
    rw [waitPool, collectFutures_of_not_raised batches hquiet, if_neg hne] at hcall
    cases hcall
  refine ⟨hmem, ?_⟩
  cases houtcome : (wait batch).outcome with
  | returned => rfl
  | raised error => exact absurd houtcome (hquiet batch hmem error)
  | blocked => exact absurd houtcome (schedule.completes batch hmem)

/-- When every wait returns, so does the pool. -/
theorem waitPool_returned (schedule : Schedule maxWorkers batches wait) (hworkers : 0 < maxWorkers)
    (hnodup : batches.Nodup) (hall : ∀ batch ∈ batches, (wait batch).outcome = .returned) :
    (waitPool wait maxWorkers batches schedule).outcome = .returned := by
  have hquiet : ∀ batch ∈ schedule.order, ∀ error, (wait batch).outcome ≠ .raised error := by
    intro batch hbatch error
    rw [hall batch (List.mem_of_mem_take (schedule.order_subset hbatch))]
    exact nofun
  have horder := schedule.mem_order_of_not_blocked hworkers hnodup fun batch hbatch => by
    rw [hall batch hbatch]
    exact nofun
  have hempty : batches.diff schedule.order = [] := by
    apply List.eq_nil_iff_forall_not_mem.mpr
    intro batch hbatch
    have hleft := hnodup.mem_sdiff_iff.mp hbatch
    exact hleft.2 (horder batch hleft.1)
  rw [waitPool, collectFutures_of_not_raised batches hquiet, if_pos hempty]

/-- The schedule that completes the batches in order, when every wait ends. -/
def inOrder (hworkers : 0 < maxWorkers) (hnodup : batches.Nodup)
    (h : ∀ batch ∈ batches, (wait batch).outcome ≠ .blocked) :
    Schedule maxWorkers batches wait where
  order := batches
  nodup := hnodup
  started := fun n batch hn => by
    rw [List.mem_take_iff_getElem]
    obtain ⟨hlt, heq⟩ := List.getElem?_eq_some_iff.mp hn
    exact ⟨n, by omega, heq⟩
  completes := h
  maximal := fun batch hbatch hpending => absurd (List.mem_of_mem_take hbatch) hpending

end Schedule

theorem waitPool_collects {wait : List String → WaitRun} {maxWorkers : Nat}
    (hworkers : 0 < maxWorkers) {batches : List (List String)} (hnodup : batches.Nodup)
    (schedule : Schedule maxWorkers batches wait) :
    Collects wait batches (waitPool wait maxWorkers batches schedule) := by
  constructor
  · intro entry hentry
    obtain ⟨batch, hbatch, rfl⟩ := List.mem_map.mp hentry
    exact ⟨List.mem_of_mem_take hbatch, rfl⟩
  · refine ⟨fun hcall batch hbatch => ?_, schedule.waitPool_returned hworkers hnodup⟩
    exact (schedule.returned_of_waitPool hnodup hcall batch hbatch).2
  · intro hcall batch hbatch
    have hmem := (schedule.returned_of_waitPool hnodup hcall batch hbatch).1
    exact List.mem_map.mpr ⟨batch, schedule.order_subset hmem, rfl⟩
  · intro entry hentry error herror
    obtain ⟨batch, hbatch, rfl⟩ := List.mem_map.mp hentry
    obtain ⟨first, hfirst, error, herror, hcollect⟩ := collectFutures_of_raised batches
      ⟨batch, schedule.mem_order_of_raised hbatch herror, error, herror⟩
    exact ⟨first, List.mem_of_mem_take (schedule.order_subset hfirst), error, herror, hcollect⟩

/-! ## The promise of `wait_for_result_availability` -/

/-- If the call returns, every id was reported COMPLETED in a received message. -/
def CompletesAll (call : CallRun) (ids : List String) : Prop :=
  call.outcome = .returned →
    ∀ id ∈ ids, ∃ entry ∈ call.received, ∃ message ∈ entry.2, message.Completes id

/-- If the wait for a batch receives that an id of the batch, not yet completed,
is ABORTED, the call raises a `RuntimeError`. -/
def RaisesOnAbort (call : CallRun) : Prop :=
  ∀ entry ∈ call.received, ∀ id, FailedPending entry.1.toFinset (reports entry.2) id →
    ∃ message, call.outcome = .raised (.runtimeError message)

/-- The wait for the batch comes to a normal end: no pending id is reported
ABORTED, and either every id is reported COMPLETED or a stream ends cleanly. -/
def EndsNormally (streams : List EventStream) (batch : List String) : Prop :=
  (∀ id, ¬ FailedPending batch.toFinset (told streams) id) ∧
    ((∀ id ∈ batch, ReportedDone (told streams) id) ∨ EndsCleanly streams)

/-- A stream of the batch ends cleanly before `id` is reported COMPLETED. -/
def CutOff (streams : List EventStream) (batch : List String) (id : String) : Prop :=
  id ∈ batch ∧ EndsCleanly streams ∧ ¬ ReportedDone (told streams) id

theorem bucketOutcome_eq_returned_iff {streams : List EventStream} {batch : List String} :
    bucketOutcome streams (verdict batch.toFinset (told streams)) = .returned ↔
      EndsNormally streams batch := by
  constructor
  · intro houtcome
    cases hverdict : verdict batch.toFinset (told streams) with
    | complete =>
        obtain ⟨hdone, hfailed⟩ := Await.verdict_eq_complete_iff.mp hverdict
        exact ⟨hfailed, .inl fun id hid => hdone id (List.mem_toFinset.mpr hid)⟩
    | failed id left =>
        rw [hverdict] at houtcome
        cases houtcome
    -- ids are left, and the wait returns if a stream has ended cleanly
    | waiting left =>
        rw [hverdict, bucketOutcome] at houtcome
        split at houtcome
        · rename_i hclean
          exact ⟨(Await.verdict_eq_waiting_iff.mp hverdict).2.2, .inr hclean⟩
        · cases houtcome
  · rintro ⟨hfailed, hends⟩
    rw [Await.verdict_of_not_failedPending hfailed]
    split
    · rfl
    · rename_i hleft
      rcases hends with hdone | hclean
      · exact absurd (Await.remaining_eq_empty_iff.mpr fun id hid =>
          hdone id (List.mem_toFinset.mp hid)) hleft
      · exact if_pos hclean

section Promise

variable {streams : List String → List EventStream} {resultIds : ResultIds} {sessionId : String}
  {bucketSize parallelism : Nat} {ids : SetOrder resultIds.toList}

/-- A call collects the waits for the batches of its ids. -/
theorem waitForResultAvailability_collects
    (schedule : Schedule parallelism (batched ids.order bucketSize)
      fun batch => waitAll (streams batch) sessionId batch) :
    Collects (fun batch => waitAll (streams batch) sessionId batch) (batched ids.order bucketSize)
      (waitForResultAvailability streams resultIds sessionId bucketSize parallelism ids
        schedule) := by
  rw [waitForResultAvailability]
  split
  · rename_i hempty
    have hbatches : batched ids.order bucketSize = [] := by
      rw [List.length_eq_zero_iff.mp hempty]
      rfl
    rw [hbatches]
    constructor <;> simp
  split
  · rename_i hparallel
    exact waitPool_collects (by omega) (nodup_batched ids.nodup bucketSize) schedule
  · exact waitBatches_collects _ _

theorem raisesOnAbort (schedule : Schedule parallelism (batched ids.order bucketSize)
      fun batch => waitAll (streams batch) sessionId batch)
    (hevents : ∀ batch ∈ batched ids.order bucketSize, ResultEventsOnly (streams batch)) :
    RaisesOnAbort (waitForResultAvailability streams resultIds sessionId bucketSize parallelism
      ids schedule) := by
  have hcollects := waitForResultAvailability_collects schedule
  have hspec := fun batch hbatch => waitAll_spec (hevents batch hbatch) sessionId
    (ne_nil_of_mem_batchedFrom hbatch)
  intro entry hentry id hfailed
  obtain ⟨hmem, hreceived⟩ := hcollects.received entry hentry
  rw [hreceived, (hspec _ hmem).1] at hfailed
  obtain ⟨key, left, hverdict⟩ := Await.exists_verdict_eq_failed_iff.mpr ⟨id, hfailed⟩
  rw [Await.verdict_consumed] at hverdict
  have houtcome := (hspec _ hmem).2
  rw [hverdict] at houtcome
  -- the call may raise the error of another batch, which is an abort as well
  obtain ⟨batch, hbatch, error, herror, hcall⟩ := hcollects.raised entry hentry _ houtcome
  rw [(hspec _ hbatch).2] at herror
  cases hother : verdict batch.toFinset (told (streams batch)) with
  | failed other left =>
      rw [hother] at herror
      cases herror
      exact ⟨_, hcall⟩
  | complete =>
      rw [hother] at herror
      cases herror
  | waiting left =>
      rw [hother, bucketOutcome] at herror
      split at herror <;> cases herror

/-- The ids that a returned call has heard to be COMPLETED. -/
theorem completesAll_iff (schedule : Schedule parallelism (batched ids.order bucketSize)
      fun batch => waitAll (streams batch) sessionId batch)
    (hevents : ∀ batch ∈ batched ids.order bucketSize, ResultEventsOnly (streams batch)) :
    CompletesAll (waitForResultAvailability streams resultIds sessionId bucketSize parallelism
      ids schedule) resultIds.toList ↔
    ((∀ batch ∈ batched ids.order bucketSize, EndsNormally (streams batch) batch) →
      ∀ batch ∈ batched ids.order bucketSize, ∀ id ∈ batch,
        ∃ other ∈ batched ids.order bucketSize,
          ReportedDone (consumed other.toFinset (told (streams other))) id) := by
  have hcollects := waitForResultAvailability_collects schedule
  have hspec := fun batch hbatch => waitAll_spec (hevents batch hbatch) sessionId
    (ne_nil_of_mem_batchedFrom hbatch)
  have hreturned : (waitForResultAvailability streams resultIds sessionId bucketSize parallelism
      ids schedule).outcome = .returned ↔
      ∀ batch ∈ batched ids.order bucketSize, EndsNormally (streams batch) batch := by
    rw [hcollects.returned_iff]
    refine forall₂_congr fun batch hbatch => ?_
    rw [(hspec batch hbatch).2, bucketOutcome_eq_returned_iff]
  rw [CompletesAll, hreturned]
  refine forall_congr' fun hall => ?_
  constructor
  -- an id is in some batch, but it may have been heard of by any of them
  · intro hcompletes batch hbatch id hid
    have hmem : id ∈ resultIds.toList :=
      (ids.mem_iff id).mp (mem_batched_iff.mp ⟨batch, hbatch, hid⟩)
    obtain ⟨entry, hentry, message, hmessage, hcompleted⟩ := hcompletes id hmem
    obtain ⟨hother, hreceived⟩ := hcollects.received entry hentry
    refine ⟨entry.1, hother, ?_⟩
    rw [← (hspec _ hother).1, ← hreceived,
      ← Proto.EventSubscriptionResponse.exists_completes_iff]
    exact ⟨message, hmessage, hcompleted⟩
  · intro htold id hid
    obtain ⟨batch, hbatch, hmem⟩ := mem_batched_iff.mpr ((ids.mem_iff id).mpr hid)
    obtain ⟨other, hother, hdone⟩ := htold batch hbatch id hmem
    rw [← (hspec _ hother).1, ← Proto.EventSubscriptionResponse.exists_completes_iff] at hdone
    exact ⟨_, hcollects.all_received (hreturned.mpr hall) other hother, hdone⟩

/-- The call keeps its promise unless every batch comes to a normal end while a
stream of some batch ends cleanly before an id is reported COMPLETED, and no
other batch is told that it is. -/
theorem waitForResultAvailability_keeps_promise_iff
    (schedule : Schedule parallelism (batched ids.order bucketSize)
      fun batch => waitAll (streams batch) sessionId batch)
    (hevents : ∀ batch ∈ batched ids.order bucketSize, ResultEventsOnly (streams batch)) :
    (CompletesAll (waitForResultAvailability streams resultIds sessionId bucketSize parallelism
        ids schedule) resultIds.toList ∧
      RaisesOnAbort (waitForResultAvailability streams resultIds sessionId bucketSize parallelism
        ids schedule)) ↔
    ((∃ batch ∈ batched ids.order bucketSize, ∃ id, CutOff (streams batch) batch id ∧
        ∀ other ∈ batched ids.order bucketSize,
          ¬ ReportedDone (consumed other.toFinset (told (streams other))) id) →
      ∃ batch ∈ batched ids.order bucketSize, ¬ EndsNormally (streams batch) batch) := by
  rw [and_iff_left (raisesOnAbort schedule hevents), completesAll_iff schedule hevents]
  constructor
  · rintro hcompletes ⟨batch, hbatch, id, ⟨hid, -, -⟩, hnone⟩
    by_contra hall
    push Not at hall
    obtain ⟨other, hother, hdone⟩ := hcompletes hall batch hbatch id hid
    exact hnone other hother hdone
  · intro hcut hall batch hbatch id hid
    by_contra hnone
    push Not at hnone
    -- no batch heard of `id`, not even its own, so a clean end has cut it off
    have hdone : ¬ ReportedDone (told (streams batch)) id := fun hdone =>
      hnone batch hbatch ((Await.reportedDone_consumed_iff (hall batch hbatch).1
        (List.mem_toFinset.mpr hid)).mpr hdone)
    have hclean : EndsCleanly (streams batch) := by
      rcases (hall batch hbatch).2 with hcompleted | hclean
      · exact absurd (hcompleted id hid) hdone
      · exact hclean
    obtain ⟨other, hother, hends⟩ := hcut ⟨batch, hbatch, id, ⟨hid, hclean, hdone⟩, hnone⟩
    exact hends (hall other hother)

end Promise

/-! ### A stream that ends too early -/

/-- The one order in which `{"a"}` can be iterated over. -/
def singleOrder : SetOrder (ResultIds.one "a").toList where
  order := ["a"]
  nodup := by simp
  mem_iff := fun _ => Iff.rfl

/-- The schedule of a single batch whose wait ends normally. -/
def singleSchedule (streams : List EventStream) (hevents : ResultEventsOnly streams)
    (hends : EndsNormally streams ["a"]) :
    Schedule 1 (batched singleOrder.order 100) fun batch => waitAll streams "session" batch :=
  .inOrder (by omega) (nodup_batched singleOrder.nodup 100) fun batch hbatch => by
    obtain rfl : batch = ["a"] := List.mem_singleton.mp hbatch
    rw [(waitAll_spec hevents "session" (by simp)).2, bucketOutcome_eq_returned_iff.mpr hends]
    exact fun h => by cases h

/-- A stream that ends cleanly before it has said anything. -/
def silentStream : EventStream := ⟨[], .clean⟩

theorem endsNormally_silentStream : EndsNormally [silentStream] ["a"] :=
  ⟨fun _ => Await.not_failedPending_nil _ _, .inr ⟨_, List.mem_cons_self .., rfl⟩⟩

/-- The server closes the stream at once, and the call returns without a word
about the result. -/
theorem waitForResultAvailability_returns_early :
    ¬ CompletesAll (waitForResultAvailability (fun _ => [silentStream]) (.one "a") "session" 100 1
      singleOrder (singleSchedule [silentStream] (by decide) endsNormally_silentStream))
      (ResultIds.one "a").toList := by
  rw [completesAll_iff _ fun _ _ => by decide]
  intro hcompletes
  have hends : ∀ batch ∈ batched singleOrder.order 100, EndsNormally [silentStream] batch := by
    intro batch hbatch
    obtain rfl : batch = ["a"] := List.mem_singleton.mp hbatch
    exact endsNormally_silentStream
  obtain ⟨other, -, hdone⟩ := hcompletes hends ["a"] (List.mem_singleton.mpr rfl) "a"
    (List.mem_singleton.mpr rfl)
  exact absurd (Await.consumed_subset _ _ hdone) (by decide)

/-! ### Streams that tell all -/

/-- A stream that reports the ids of a batch COMPLETED, one after the other. -/
def completingStream (batch : List String) : EventStream where
  responses := batch.map fun id =>
    ⟨"session", some (.resultStatusUpdate ⟨id, Proto.ResultStatus.completed.number⟩)⟩
  ending := .clean

/-- Three ids, in an order in which `{"a", "b", "c"}` can be iterated over. -/
def threeOrder : SetOrder (ResultIds.many ["a", "b", "c"]).toList where
  order := ["c", "a", "b"]
  nodup := by decide
  mem_iff := fun id => by simp [ResultIds.toList, or_comm, or_left_comm]

theorem told_completingStream :
    ∀ batch ∈ [["c", "a"], ["b"]],
      told [completingStream batch] = batch.map fun id => ⟨id, .done⟩ := by
  decide

theorem endsNormally_completingStream {batch : List String} (hbatch : batch ∈ [["c", "a"], ["b"]]) :
    EndsNormally [completingStream batch] batch := by
  refine ⟨fun id hfailed => ?_, .inr ⟨_, List.mem_cons_self .., rfl⟩⟩
  rw [told_completingStream batch hbatch] at hfailed
  obtain ⟨before, after, hsplit, -⟩ := hfailed
  have hmem : ⟨id, .failed⟩ ∈ batch.map fun id => (⟨id, .done⟩ : Report String) := by
    rw [hsplit]
    exact List.mem_append_right _ List.mem_cons_self
  obtain ⟨other, -, hother⟩ := List.mem_map.mp hmem
  cases hother

/-- The second of two batches is the first that completes. -/
def threeSchedule :
    Schedule 2 (batched threeOrder.order 2) fun batch =>
      waitAll [completingStream batch] "session" batch where
  order := [["b"], ["c", "a"]]
  nodup := by decide
  started := fun n batch hn => by
    have hall : batch ∈ [["b"], ["c", "a"]] := List.mem_of_getElem? hn
    have hboth : (batched threeOrder.order 2).take (2 + n) = [["c", "a"], ["b"]] :=
      List.take_of_length_le (Nat.le_add_right 2 n)
    rw [hboth]
    exact (List.Perm.swap ["c", "a"] ["b"] []).subset hall
  completes := fun batch hbatch => by
    have hbatch : batch ∈ [["c", "a"], ["b"]] := (List.Perm.swap ["c", "a"] ["b"] []).subset hbatch
    have hne : batch ≠ [] := by
      rintro rfl
      exact absurd hbatch (by decide)
    have hevents : ∀ batch ∈ [["c", "a"], ["b"]], ResultEventsOnly [completingStream batch] := by
      decide
    rw [(waitAll_spec (hevents batch hbatch) "session" hne).2,
      bucketOutcome_eq_returned_iff.mpr (endsNormally_completingStream hbatch)]
    exact fun h => by cases h
  maximal := fun batch hbatch hpending =>
    absurd ((List.Perm.swap ["b"] ["c", "a"] []).subset hbatch) hpending

theorem waitForResultAvailability_keeps_promise_completingStream :
    CompletesAll (waitForResultAvailability (fun batch => [completingStream batch])
        (.many ["a", "b", "c"]) "session" 2 2 threeOrder threeSchedule) ["a", "b", "c"] ∧
      RaisesOnAbort (waitForResultAvailability (fun batch => [completingStream batch])
        (.many ["a", "b", "c"]) "session" 2 2 threeOrder threeSchedule) := by
  have hbatches : batched threeOrder.order 2 = [["c", "a"], ["b"]] := by decide
  have hevents : ∀ batch ∈ batched threeOrder.order 2,
      ResultEventsOnly [completingStream batch] := by decide
  refine (waitForResultAvailability_keeps_promise_iff threeSchedule hevents).mpr ?_
  rintro ⟨batch, hbatch, id, ⟨hid, -, hdone⟩, -⟩
  rw [hbatches] at hbatch
  rw [told_completingStream batch hbatch] at hdone
  exact absurd (List.mem_map_of_mem hid) hdone

end ArmoniKApi.Python
