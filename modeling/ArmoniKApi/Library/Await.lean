import Mathlib.Data.Finset.Basic
import Mathlib.Data.Finset.Dedup

/-!
# Awaiting a set of keys over a sequence of reports

A waiter holds a finite set of keys and reads reports about keys.  A report
says that its key is done, that it failed, or something of no interest.  The
wait is over when every key is done; it has failed when a key that is still
pending is reported as failed.  A failure reported for a key that is already
done, or that is not awaited, changes nothing.

`remaining` follows the pending keys through the reports and `verdict` says
where the wait stands after them; `consumed` are the reports that are read
before it is over.  Everything a client does with a stream of
notifications is compared with these two functions: `verdict_append` splits
the reports at the end of a stream, and the three lemmas
`verdict_eq_complete_iff`, `verdict_eq_waiting_iff` and
`exists_verdict_eq_failed_iff` read a verdict as a statement about the reports.

Three clients wait for results in this way, each with loops and streams of its own.  What they
have in common is said here once, over any type of keys:

```text
report about a key          the pending keys        the wait
done                        without that key        complete, when none is left
failed, and key pending     as they are             failed
failed, and key not pending as they are             goes on
anything else               as they are             goes on
```

The order of the reports matters in one case only: a failure counts if it comes before the
same key is reported done.  `FailedPending` says so without a loop, by the place of the report
in the list, and `ReportedDone` does not look at the order at all.

* `verdict_of_not_failedPending` takes the verdict apart: without a failure, the pending keys
  decide.  The three readings of a verdict follow from it.
* `verdict_append` is the rule for a client that reads one stream after another.
* `verdict_consumed` and `consumed_append` say that what comes after the end of the wait is of
  no importance, and that a wait that goes on has read everything.

All inductions are on the list of reports, with the pending keys generalized: each report
leaves a wait of the same kind, for fewer keys.
-/

namespace Await

/-- What one report says about its key. -/
inductive Outcome
  | done
  | failed
  | other
  deriving DecidableEq, Repr

/-- A report about one key. -/
structure Report (κ : Type*) where
  key : κ
  outcome : Outcome
  deriving DecidableEq, Repr

/-- Where a wait stands after some reports. -/
inductive Verdict (κ : Type*)
  | complete
  | failed (key : κ) (pending : Finset κ)
  | waiting (pending : Finset κ)

variable {κ : Type*} [DecidableEq κ]

/-- The keys still pending after one report. -/
def discharge (pending : Finset κ) (report : Report κ) : Finset κ :=
  if report.outcome = .done then pending.erase report.key else pending

/-- The keys still pending after a list of reports. -/
def remaining (pending : Finset κ) (reports : List (Report κ)) : Finset κ :=
  reports.foldl discharge pending

/-- The verdict after a list of reports: the first failure of a pending key
ends the wait, otherwise the pending keys decide. -/
def verdict (pending : Finset κ) : List (Report κ) → Verdict κ
  | [] => if pending = ∅ then .complete else .waiting pending
  | report :: rest =>
      if report.outcome = .failed ∧ report.key ∈ pending then .failed report.key pending
      else verdict (discharge pending report) rest

/-- The reports that are read before the wait is over: the one that completes it
or fails it is the last. -/
def consumed (pending : Finset κ) : List (Report κ) → List (Report κ)
  | [] => []
  | report :: rest =>
      if pending = ∅ then []
      else if report.outcome = .failed ∧ report.key ∈ pending then [report]
      else report :: consumed (discharge pending report) rest

/-- The reports say that `key` is done. -/
def ReportedDone (reports : List (Report κ)) (key : κ) : Prop :=
  ⟨key, .done⟩ ∈ reports

/-- The reports say that `key` failed at a moment when it was still pending. -/
def FailedPending (pending : Finset κ) (reports : List (Report κ)) (key : κ) : Prop :=
  ∃ before after, reports = before ++ ⟨key, .failed⟩ :: after ∧ key ∈ remaining pending before

/-! ## The pending keys -/

theorem mem_discharge {pending : Finset κ} {report : Report κ} {key : κ} :
    key ∈ discharge pending report ↔ key ∈ pending ∧ report ≠ ⟨key, .done⟩ := by
  obtain ⟨reported, outcome⟩ := report
  cases outcome <;> simp [discharge, and_comm, eq_comm]

theorem discharge_subset (pending : Finset κ) (report : Report κ) :
    discharge pending report ⊆ pending :=
  fun _ hkey => (mem_discharge.mp hkey).1

@[simp] theorem discharge_empty (report : Report κ) : discharge ∅ report = ∅ :=
  Finset.subset_empty.mp (discharge_subset ∅ report)

@[simp] theorem remaining_nil (pending : Finset κ) : remaining pending [] = pending := rfl

@[simp] theorem remaining_cons (pending : Finset κ) (report : Report κ)
    (rest : List (Report κ)) :
    remaining pending (report :: rest) = remaining (discharge pending report) rest := rfl

/-- A key is still pending exactly when it was awaited and no report said it
was done. -/
theorem mem_remaining {pending : Finset κ} {reports : List (Report κ)} {key : κ} :
    key ∈ remaining pending reports ↔ key ∈ pending ∧ ¬ ReportedDone reports key := by
  induction reports generalizing pending with
  | nil => simp [ReportedDone]
  | cons report rest ih =>
      rw [remaining_cons, ih, mem_discharge]
      simp only [ReportedDone, List.mem_cons, not_or, and_assoc, ne_eq, eq_comm]

theorem remaining_eq_empty_iff {pending : Finset κ} {reports : List (Report κ)} :
    remaining pending reports = ∅ ↔ ∀ key ∈ pending, ReportedDone reports key := by
  rw [Finset.eq_empty_iff_forall_notMem]
  simp only [mem_remaining, not_and, not_not]

theorem remaining_subset (pending : Finset κ) (reports : List (Report κ)) :
    remaining pending reports ⊆ pending :=
  fun _ hkey => (mem_remaining.mp hkey).1

/-! ## Failures of pending keys -/

@[simp] theorem not_failedPending_nil (pending : Finset κ) (key : κ) :
    ¬ FailedPending pending [] key := by
  rintro ⟨before, after, hsplit, -⟩
  simp at hsplit

theorem failedPending_cons_iff {pending : Finset κ} {report : Report κ}
    {rest : List (Report κ)} {key : κ} :
    FailedPending pending (report :: rest) key ↔
      (report = ⟨key, .failed⟩ ∧ key ∈ pending) ∨
        FailedPending (discharge pending report) rest key := by
  constructor
  · rintro ⟨before, after, hsplit, hkey⟩
    cases before with
    | nil =>
        simp only [List.nil_append, List.cons.injEq] at hsplit
        exact .inl ⟨hsplit.1, hkey⟩
    | cons first before =>
        simp only [List.cons_append, List.cons.injEq] at hsplit
        obtain ⟨rfl, hrest⟩ := hsplit
        exact .inr ⟨before, after, hrest, hkey⟩
  · rintro (⟨rfl, hkey⟩ | ⟨before, after, rfl, hkey⟩)
    · exact ⟨[], rest, rfl, hkey⟩
    · exact ⟨report :: before, after, rfl, hkey⟩

theorem failedPending_append_iff {pending : Finset κ} {first second : List (Report κ)} {key : κ} :
    FailedPending pending (first ++ second) key ↔
      FailedPending pending first key ∨ FailedPending (remaining pending first) second key := by
  induction first generalizing pending with
  | nil => simp
  | cons report rest ih =>
      rw [List.cons_append, failedPending_cons_iff, failedPending_cons_iff, ih, remaining_cons,
        or_assoc]

theorem FailedPending.mem {pending : Finset κ} {reports : List (Report κ)} {key : κ}
    (h : FailedPending pending reports key) : key ∈ pending := by
  obtain ⟨before, after, -, hkey⟩ := h
  exact remaining_subset _ _ hkey

/-- Once nothing is pending, no report can fail the wait. -/
@[simp] theorem not_failedPending_empty (reports : List (Report κ)) (key : κ) :
    ¬ FailedPending ∅ reports key :=
  fun h => by simpa using h.mem

/-! ## Reading a verdict -/

theorem verdict_cons (pending : Finset κ) (report : Report κ) (rest : List (Report κ)) :
    verdict pending (report :: rest) =
      if report.outcome = .failed ∧ report.key ∈ pending then .failed report.key pending
      else verdict (discharge pending report) rest := rfl

@[simp] theorem verdict_empty (reports : List (Report κ)) :
    verdict ∅ reports = .complete := by
  induction reports with
  | nil => simp [verdict]
  | cons report rest ih => simp [verdict_cons, ih]

/-- Without a failure the verdict only depends on the pending keys. -/
theorem verdict_of_not_failedPending {pending : Finset κ} {reports : List (Report κ)}
    (h : ∀ key, ¬ FailedPending pending reports key) :
    verdict pending reports =
      if remaining pending reports = ∅ then .complete
      else .waiting (remaining pending reports) := by
  induction reports generalizing pending with
  | nil => rfl
  | cons report rest ih =>
      have hhead : ¬ (report.outcome = .failed ∧ report.key ∈ pending) := by
        rintro ⟨houtcome, hkey⟩
        apply h report.key
        rw [failedPending_cons_iff]
        exact .inl ⟨by rw [← houtcome], hkey⟩
      rw [verdict_cons, if_neg hhead, remaining_cons]
      exact ih fun key hkey => h key (failedPending_cons_iff.mpr (.inr hkey))

/-- A wait has failed exactly when some pending key was reported as failed. -/
theorem exists_verdict_eq_failed_iff {pending : Finset κ} {reports : List (Report κ)} :
    (∃ key left, verdict pending reports = .failed key left) ↔
      ∃ key, FailedPending pending reports key := by
  constructor
  · rintro ⟨key, left, hverdict⟩
    by_contra hnone
    push Not at hnone
    rw [verdict_of_not_failedPending hnone] at hverdict
    split at hverdict <;> cases hverdict
  · rintro ⟨key, hfailed⟩
    induction reports generalizing pending with
    | nil => exact absurd hfailed (not_failedPending_nil pending key)
    | cons report rest ih =>
        by_cases hhead : report.outcome = .failed ∧ report.key ∈ pending
        · exact ⟨report.key, pending, by rw [verdict_cons, if_pos hhead]⟩
        -- the failure comes later, and its key is still pending then
        · rw [verdict_cons, if_neg hhead]
          rcases failedPending_cons_iff.mp hfailed with ⟨rfl, hkey⟩ | hrest
          · exact absurd ⟨rfl, hkey⟩ hhead
          · exact ih hrest

theorem verdict_eq_complete_iff {pending : Finset κ} {reports : List (Report κ)} :
    verdict pending reports = .complete ↔
      (∀ key ∈ pending, ReportedDone reports key) ∧
        ∀ key, ¬ FailedPending pending reports key := by
  rw [← remaining_eq_empty_iff]
  by_cases hfailed : ∃ key, FailedPending pending reports key
  · obtain ⟨key, left, hverdict⟩ := exists_verdict_eq_failed_iff.mpr hfailed
    simp only [hverdict, reduceCtorEq, false_iff]
    exact fun h => hfailed.elim h.2
  · push Not at hfailed
    rw [verdict_of_not_failedPending hfailed]
    split <;> simp_all

theorem verdict_eq_waiting_iff {pending left : Finset κ} {reports : List (Report κ)} :
    verdict pending reports = .waiting left ↔
      left = remaining pending reports ∧ left ≠ ∅ ∧
        ∀ key, ¬ FailedPending pending reports key := by
  by_cases hfailed : ∃ key, FailedPending pending reports key
  · obtain ⟨key, other, hverdict⟩ := exists_verdict_eq_failed_iff.mpr hfailed
    simp only [hverdict, reduceCtorEq, false_iff]
    exact fun h => hfailed.elim h.2.2
  · push Not at hfailed
    rw [verdict_of_not_failedPending hfailed]
    split
    · simp_all
    · rename_i hne
      simp only [Verdict.waiting.injEq]
      constructor
      · rintro rfl
        exact ⟨rfl, hne, hfailed⟩
      · exact fun h => h.1.symm

/-- The wait over two lists of reports is the wait over the first, then, if it
is still going on, over the second. -/
theorem verdict_append (pending : Finset κ) (first second : List (Report κ)) :
    verdict pending (first ++ second) =
      match verdict pending first with
      | .complete => .complete
      | .failed key left => .failed key left
      | .waiting left => verdict left second := by
  induction first generalizing pending with
  | nil => by_cases hpending : pending = ∅ <;> simp [verdict, hpending]
  | cons report rest ih =>
      rw [List.cons_append, verdict_cons, verdict_cons]
      split
      · rfl
      · exact ih _

/-! ## The reports that are read -/

@[simp] theorem consumed_empty (reports : List (Report κ)) : consumed ∅ reports = [] := by
  cases reports <;> simp [consumed]

theorem consumed_cons {pending : Finset κ} (hpending : pending ≠ ∅) (report : Report κ)
    (rest : List (Report κ)) :
    consumed pending (report :: rest) =
      if report.outcome = .failed ∧ report.key ∈ pending then [report]
      else report :: consumed (discharge pending report) rest := by
  rw [consumed, if_neg hpending]

/-- Nothing after the reports that are read matters to the verdict. -/
theorem verdict_consumed (pending : Finset κ) (reports : List (Report κ)) :
    verdict pending (consumed pending reports) = verdict pending reports := by
  induction reports generalizing pending with
  | nil => rfl
  | cons report rest ih =>
      by_cases hpending : pending = ∅
      · simp [hpending]
      rw [consumed_cons hpending]
      split
      · rename_i hfailed
        rw [verdict_cons, verdict_cons, if_pos hfailed, if_pos hfailed]
      · rename_i hfailed
        rw [verdict_cons, verdict_cons, if_neg hfailed, if_neg hfailed, ih]

theorem consumed_subset (pending : Finset κ) (reports : List (Report κ)) :
    consumed pending reports ⊆ reports := by
  induction reports generalizing pending with
  | nil => exact List.Subset.refl _
  | cons report rest ih =>
      rw [consumed]
      split
      · exact List.nil_subset _
      split
      · exact List.cons_subset_cons _ (List.nil_subset _)
      · exact List.cons_subset_cons _ (ih _)

/-- While the wait goes on, every report is read. -/
theorem consumed_append (pending : Finset κ) (first second : List (Report κ)) :
    consumed pending (first ++ second) =
      match verdict pending first with
      | .waiting left => first ++ consumed left second
      | _ => consumed pending first := by
  induction first generalizing pending with
  | nil => by_cases hpending : pending = ∅ <;> simp [verdict, hpending, consumed]
  | cons report rest ih =>
      by_cases hpending : pending = ∅
      · simp [hpending]
      rw [List.cons_append, consumed_cons hpending, consumed_cons hpending, verdict_cons]
      split
      · rfl
      · rw [ih]
        cases verdict (discharge pending report) rest <;> rfl

theorem consumed_of_waiting {pending left : Finset κ} {reports : List (Report κ)}
    (h : verdict pending reports = .waiting left) : consumed pending reports = reports := by
  have hconsumed := consumed_append pending reports []
  rw [h] at hconsumed
  simpa [consumed] using hconsumed

/-- In a wait that does not fail, an awaited key that is reported done is
reported so before the wait is over. -/
theorem reportedDone_consumed_iff {pending : Finset κ} {reports : List (Report κ)} {key : κ}
    (hfailed : ∀ other, ¬ FailedPending pending reports other) (hkey : key ∈ pending) :
    ReportedDone (consumed pending reports) key ↔ ReportedDone reports key := by
  cases hverdict : verdict pending reports with
  -- the part that is read is complete too, so `key` is done in both
  | complete =>
      have hconsumed := (verdict_consumed pending reports).trans hverdict
      exact iff_of_true ((verdict_eq_complete_iff.mp hconsumed).1 key hkey)
        ((verdict_eq_complete_iff.mp hverdict).1 key hkey)
  | failed other left =>
      obtain ⟨failing, hfailing⟩ := exists_verdict_eq_failed_iff.mp ⟨other, left, hverdict⟩
      exact absurd hfailing (hfailed failing)
  | waiting left => rw [consumed_of_waiting hverdict]

end Await
