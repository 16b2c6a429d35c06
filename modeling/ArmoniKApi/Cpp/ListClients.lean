import ArmoniKApi.Cpp.ListingRuns

/-!
# The listing calls against a growing collection

`list_results` and `list_sessions` advance after a full page, so none of their
turns lags: they return a prefix of the collection that is as long as the last
total.  `list_tasks` and `list_tasks_detailed` advance when the total reaches
the page size.  On a short page whose total was counted after the collection had
grown they leave the page too early, and the next turn reads before the start of
its reply.

This file instantiates the runs of `Cpp.ListingRuns` with the four calls, and is where the
condition of each call is found:

```text
call                              a page is left when          lags
list_results, list_sessions       the page is full             never
list_tasks, list_tasks_detailed   the total is a page or more  on a short page, counted late
```

`CountedLate` is the condition in terms of the snapshot, without the loop: the page is short,
and the total, counted later, says that there is more.  `lags_listTasksCommon_iff` compares it
with `Lags`, and `list_tasks_paginates_iff` puts it under the general theorem.  The two
examples are the shortest runs of their kind: one that is counted late at its end, where it
does no harm, and one that goes on.
-/

namespace ArmoniKApi.Cpp

open Paging ListMethod

variable {Filters Sorting Summary Detailed Result Session : Type}

/-! ## Results and sessions -/

theorem listFullPages_advancesOnFull {α : Type} (unable : String) :
    AdvancesOnFull (listFullPages (α := α) unable) := by
  intro pageSize p snapshot hfull
  exact decide_eq_true (Int.ofNat_le.mpr hfull)

theorem listFullPages_never_lags {α : Type} (unable : String) (pageSize p : ℕ)
    (snapshot : Snapshot α) : ¬ Lags (listFullPages unable) pageSize p snapshot := by
  intro hlags
  have hfull : (pageSize : Int) ≤ (page pageSize p snapshot.items).length :=
    of_decide_eq_true hlags.advances
  have hshort := hlags.short
  omega

/-- Results and sessions are listed page by page without loss: the offset lies
within every reply, the listing throws only if a call fails, what it returns is a
prefix of the collection as long as the last total, and with totals that the
collection has had it ends. -/
theorem list_results_and_sessions_paginate (filters : Filters) (sort : Sorting) (pageSize : ℕ)
    (hpos : 0 < pageSize) (hsize : pageSize ≤ 2147483647) :
    (∀ server : List (Answer Result), Grows .empty server →
      Paginates pageSize
        (fun answers => listResults filters (-1) pageSize sort (answers.map serve)) server) ∧
    (∀ server : List (Answer Session), Grows .empty server →
      Paginates pageSize
        (fun answers => listSessions filters (-1) pageSize sort (answers.map serve)) server) := by
  constructor
  · intro server hgrows
    exact paginates_of_never (listFullPages_advancesOnFull _) hpos hsize
      (listFullPages_never_lags _ pageSize) hgrows
  · intro server hgrows
    exact paginates_of_never (listFullPages_advancesOnFull _) hpos hsize
      (listFullPages_never_lags _ pageSize) hgrows

/-- The collection has one item when the page is cut and two when it is counted. -/
def growingPair : List (Answer String) :=
  [.ok ⟨["a"], 2, by simp, by simp⟩, .ok ⟨["a", "b"], 2, by simp, by simp⟩]

theorem growingPair_grows : Grows .empty growingPair :=
  ⟨List.nil_prefix, List.prefix_append ["a"] ["b"], trivial⟩

theorem list_results_and_sessions_paginate_growingPair :
    listResults () (-1) 2 () (growingPair.map serve) = .returned ["a", "b"] 2 ∧
      listSessions () (-1) 2 () (growingPair.map serve) = .returned ["a", "b"] 2 ∧
      Paginates 2 (fun answers => listResults () (-1) 2 () (answers.map serve)) growingPair ∧
      Paginates 2 (fun answers => listSessions () (-1) 2 () (answers.map serve)) growingPair := by
  have hpaginate := @list_results_and_sessions_paginate Unit Unit String String () () 2
    (by decide) (by decide)
  exact ⟨by decide +kernel, by decide +kernel, hpaginate.1 growingPair growingPair_grows,
    hpaginate.2 growingPair growingPair_grows⟩

/-! ## Tasks -/

/-- The total reaches the page size and the page does not, because the
collection grew between the page and the total. -/
structure CountedLate {α : Type} (pageSize p : ℕ) (snapshot : Snapshot α) : Prop where
  short : (page pageSize p snapshot.items).length < pageSize
  reached : (pageSize : Int) ≤ snapshot.total
  grown : (snapshot.items.length : Int) < snapshot.total

theorem listTasksCommon_advancesOnFull {α : Type} :
    AdvancesOnFull (listTasksCommon (α := α)) := by
  intro pageSize p snapshot hfull
  have hcounted := snapshot.counted
  rw [length_page] at hfull
  have htotal : (pageSize : Int) ≤ snapshot.total := by omega
  exact decide_eq_true htotal

theorem lags_listTasksCommon_iff {α : Type} (pageSize p : ℕ) (snapshot : Snapshot α) :
    Lags listTasksCommon pageSize p snapshot ↔ CountedLate pageSize p snapshot := by
  constructor
  · intro hlags
    exact ⟨hlags.short, of_decide_eq_true hlags.advances, hlags.goesOn⟩
  · intro hlate
    exact ⟨decide_eq_true hlate.reached, hlate.short, hlate.grown⟩

/-- A listing of tasks paginates exactly when no reply that another one follows
was counted late. -/
theorem list_tasks_paginates_iff (filters : Filters) (sort : Sorting) (pageSize : ℕ)
    (hpos : 0 < pageSize) (hsize : pageSize ≤ 2147483647) :
    (∀ server : List (Answer Summary), Grows .empty server →
      (Paginates pageSize
          (fun answers => listTasks filters (-1) pageSize sort (answers.map serve)) server ↔
        ∀ before snapshot following after progress,
          server = before ++ .ok snapshot :: .ok following :: after →
            listTasks filters (-1) pageSize sort (before.map serve) = .waiting progress →
              ¬ CountedLate pageSize progress.currentPage snapshot)) ∧
    (∀ server : List (Answer Detailed), Grows .empty server →
      (Paginates pageSize
          (fun answers => listTasksDetailed filters (-1) pageSize sort (answers.map serve)) server ↔
        ∀ before snapshot following after progress,
          server = before ++ .ok snapshot :: .ok following :: after →
            listTasksDetailed filters (-1) pageSize sort (before.map serve) = .waiting progress →
              ¬ CountedLate pageSize progress.currentPage snapshot)) := by
  constructor
  · intro server hgrows
    have hiff := paginates_iff filters sort listTasksCommon_advancesOnFull hpos hsize hgrows
    simp only [NeverLags, lags_listTasksCommon_iff] at hiff
    exact hiff
  · intro server hgrows
    have hiff := paginates_iff filters sort listTasksCommon_advancesOnFull hpos hsize hgrows
    simp only [NeverLags, lags_listTasksCommon_iff] at hiff
    exact hiff

/-- The third task is submitted between the first page and its total. -/
def threeTasks : List (Answer String) :=
  [.ok ⟨["a", "b"], 3, by simp, by simp⟩, .ok ⟨["a", "b", "c"], 3, by simp, by simp⟩]

theorem threeTasks_grows : Grows .empty threeTasks :=
  ⟨List.nil_prefix, List.prefix_append ["a", "b"] ["c"], trivial⟩

/-- Only the first reply is followed by another one, and its page is full. -/
theorem threeTasks_not_late {list : List (Answer String) → Listing String}
    (hstart : list [] = .waiting ⟨[], 0⟩) :
    ∀ before snapshot following after progress,
      threeTasks = before ++ .ok snapshot :: .ok following :: after →
        list before = .waiting progress → ¬CountedLate 2 progress.currentPage snapshot := by
  intro before snapshot following after progress hserver hwaiting hlate
  cases before with
  | nil =>
      obtain ⟨hsnapshot, -⟩ := List.cons_eq_cons.mp hserver
      cases hsnapshot
      cases hstart.symm.trans hwaiting
      exact absurd hlate.short (by decide)
  | cons answer rest =>
      have hlength := congrArg List.length hserver
      simp only [threeTasks, List.length_cons, List.length_append, List.length_nil] at hlength
      omega

theorem list_tasks_paginates_iff_threeTasks :
    listTasks () (-1) 2 () (threeTasks.map serve) = .returned ["a", "b", "c"] 3 ∧
      listTasksDetailed () (-1) 2 () (threeTasks.map serve) = .returned ["a", "b", "c"] 3 ∧
      Paginates 2 (fun answers => listTasks () (-1) 2 () (answers.map serve)) threeTasks ∧
      Paginates 2 (fun answers => listTasksDetailed () (-1) 2 () (answers.map serve))
        threeTasks := by
  have hiff := @list_tasks_paginates_iff Unit Unit String String () () 2 (by decide) (by decide)
  exact ⟨by decide +kernel, by decide +kernel,
    (hiff.1 threeTasks threeTasks_grows).mpr (threeTasks_not_late rfl),
    (hiff.2 threeTasks threeTasks_grows).mpr (threeTasks_not_late rfl)⟩

/-- After one item of two, page 1 is asked for, and its items are read from one
before the first. -/
theorem list_tasks_reads_out_of_range :
    Grows .empty growingPair ∧
      listTasks () (-1) 2 () (growingPair.map serve) = .outOfRange ∧
      listTasksDetailed () (-1) 2 () (growingPair.map serve) = .outOfRange ∧
      ¬ Paginates 2 (fun answers => listTasks () (-1) 2 () (answers.map serve)) growingPair ∧
      ¬ Paginates 2 (fun answers => listTasksDetailed () (-1) 2 () (answers.map serve))
        growingPair :=
  ⟨growingPair_grows, by decide +kernel, by decide +kernel,
    fun hpaginates => absurd hpaginates.neverOut (by decide +kernel),
    fun hpaginates => absurd hpaginates.neverOut (by decide +kernel)⟩

end ArmoniKApi.Cpp
