import ArmoniKApi.Library.Machine
import Mathlib.Data.List.AList

/-!
# The health of a Java worker

A `FutureWorker` has one status for all its calls.  `process` sets it to `NOT_SERVING`
when it starts, and to `SERVING` before it ends, normally or in the `catch`.
`healthCheck` returns it.

grpc-java may run several calls at once.  The model is a machine whose events are what
the calls do with the status, in any order, and health checks in between.

The status says whether a call has written `SERVING` since the latest start.  It is not
the answer when another call is still running: `healthChecks_right_iff`.

## Strategy

The status forgets which call wrote it.  What it does tell is something about the order of the
writes, so the invariant has to be found in the history:

```text
NOT_SERVING      some call has started, and none has written SERVING since    StartedLast
SERVING          no call has ever started, or one has written it since the latest start
```

* `step_cases` is what one event does to the phases and the status: a start, a write of
  `SERVING`, or a return after it.
* `Inv` is the table, with the fact that some call is still processing as long as nothing was
  written after the latest start.  A call writes before it returns, on both of its ways.
* `right_iff` compares the status with the truth.  `NOT_SERVING` is never wrong; `SERVING` is
  wrong just if a call is running.

A run with its health checks is then right if each check is, at its place in the run.
-/

namespace ArmoniKApi.Java

/-- `HealthCheckReply.ServingStatus`. -/
inductive ServingStatus
  | unknown
  | serving
  | notServing
  deriving DecidableEq, Repr

namespace FutureWorker

/-! ## What the calls do -/

/-- Where a call of `process` is. -/
inductive Phase
  /-- In `processInternal`, or sending the output. -/
  | processing
  /-- In `onCompleted`. -/
  | completing
  /-- In the `catch`, at `onError`. -/
  | failing
  deriving DecidableEq, Repr

/-- What is done by a call, and a health check.  An `Error` is no `Exception`, and is
left out. -/
inductive Event (C : Type)
  /-- `setStatus(NOT_SERVING)`. -/
  | start (call : C)
  /-- `onNext` and `setStatus(SERVING)`. -/
  | reply (call : C)
  /-- An exception before that, and `status = SERVING`. -/
  | fail (call : C)
  /-- An exception of `onCompleted`, and `status = SERVING`. -/
  | failCompleting (call : C)
  /-- The call returns. -/
  | finish (call : C)
  | healthCheck

variable {C : Type}

/-- The event writes `SERVING`. -/
def Event.serves : Event C → Bool
  | .reply _ => true
  | .fail _ => true
  | .failCompleting _ => true
  | _ => false

/-- No call has written `SERVING` since the latest start. -/
def StartedLast (events : List (Event C)) : Prop :=
  ∃ front call back, events = front ++ .start call :: back ∧ ∀ e ∈ back, e.serves = false

theorem startedLast_concat {events : List (Event C)} {e : Event C} :
    StartedLast (events ++ [e]) ↔
      (∃ call, e = .start call) ∨ StartedLast events ∧ e.serves = false := by
  constructor
  · rintro ⟨front, call, back, hevents, hback⟩
    rcases List.eq_nil_or_concat back with rfl | ⟨rest, last, rfl⟩
    · obtain ⟨-, hlast⟩ := List.append_inj' hevents rfl
      exact .inl ⟨call, List.singleton_inj.mp hlast⟩
    · rw [List.concat_eq_append] at hevents hback
      rw [← List.cons_append, ← List.append_assoc] at hevents
      obtain ⟨hfront, hlast⟩ := List.append_inj' hevents rfl
      obtain rfl := List.singleton_inj.mp hlast
      exact .inr ⟨⟨front, call, rest, hfront, fun e he => hback e (List.mem_append_left _ he)⟩,
        hback e (List.mem_append_right _ List.mem_cons_self)⟩
  · rintro (⟨call, rfl⟩ | ⟨⟨front, call, back, rfl, hback⟩, hserves⟩)
    · exact ⟨events, call, [], rfl, List.forall_mem_nil _⟩
    · refine ⟨front, call, back ++ [e], by rw [List.append_assoc, List.cons_append], ?_⟩
      intro other hother
      rcases List.mem_append.mp hother with hold | hnew
      · exact hback other hold
      · rw [List.mem_singleton.mp hnew]
        exact hserves

/-! ## The machine -/

variable [DecidableEq C]

/-- The field `status`, and the calls that are between their start and their end. -/
structure State (C : Type) where
  status : ServingStatus
  calls : AList fun _ : C => Phase

/-- A worker that has had no calls. -/
def init : State C := ⟨.serving, ∅⟩

/-- One event.  A call that runs is not started again, and goes through its phases in order;
a health check is answered at any time. -/
def step (s : State C) : Event C → Option (State C)
  | .start call =>
      if call ∈ s.calls then none else some ⟨.notServing, s.calls.insert call .processing⟩
  | .reply call =>
      if s.calls.lookup call = some .processing then
        some ⟨.serving, s.calls.insert call .completing⟩
      else none
  | .fail call =>
      if s.calls.lookup call = some .processing then
        some ⟨.serving, s.calls.insert call .failing⟩
      else none
  | .failCompleting call =>
      if s.calls.lookup call = some .completing then
        some ⟨.serving, s.calls.insert call .failing⟩
      else none
  | .finish call =>
      if s.calls.lookup call = some .completing ∨ s.calls.lookup call = some .failing then
        some ⟨s.status, s.calls.erase call⟩
      else none
  | .healthCheck => some s

/-- The answer of `healthCheck`. -/
def healthCheck (s : State C) : ServingStatus := s.status

/-! ## What the answer is to be -/

/-- A call is between its start and its end. -/
def Running (s : State C) : Prop := ∃ call, call ∈ s.calls

/-- The answer is `NOT_SERVING` just when a call is running, and else `SERVING`. -/
def Right (s : State C) : Prop :=
  (Running s → healthCheck s = .notServing) ∧ (¬Running s → healthCheck s = .serving)

/-! ## What one event does -/

/-- A start, a call that writes `SERVING` and goes on, or a call that returns after it
has written it. -/
theorem step_cases {s next : State C} {e : Event C} (hstep : step s e = some next) :
    (∃ call, e = .start call ∧ next = ⟨.notServing, s.calls.insert call .processing⟩) ∨
      (e.serves = true ∧ ∃ call phase, next = ⟨.serving, s.calls.insert call phase⟩) ∨
      (∃ call, e = .finish call ∧ s.calls.lookup call ≠ some .processing ∧
        next = ⟨s.status, s.calls.erase call⟩) ∨
      e = .healthCheck ∧ next = s := by
  cases e with
  | start call =>
      rw [step, Option.ite_none_left_eq_some] at hstep
      exact .inl ⟨call, rfl, (Option.some.inj hstep.2).symm⟩
  | reply call =>
      rw [step, Option.ite_none_right_eq_some] at hstep
      exact .inr (.inl ⟨rfl, call, .completing, (Option.some.inj hstep.2).symm⟩)
  | fail call =>
      rw [step, Option.ite_none_right_eq_some] at hstep
      exact .inr (.inl ⟨rfl, call, .failing, (Option.some.inj hstep.2).symm⟩)
  | failCompleting call =>
      rw [step, Option.ite_none_right_eq_some] at hstep
      exact .inr (.inl ⟨rfl, call, .failing, (Option.some.inj hstep.2).symm⟩)
  | finish call =>
      rw [step, Option.ite_none_right_eq_some] at hstep
      obtain ⟨hphase, hnext⟩ := hstep
      refine .inr (.inr (.inl ⟨call, rfl, ?_, (Option.some.inj hnext).symm⟩))
      rcases hphase with h | h <;> rw [h] <;> decide
  | healthCheck => exact .inr (.inr (.inr ⟨rfl, (Option.some.inj hstep).symm⟩))

/-! ## What the status says -/

/-- The status is `NOT_SERVING` since the latest start, whose call goes on. -/
structure Inv (events : List (Event C)) (s : State C) : Prop where
  notServing_iff : s.status = .notServing ↔ StartedLast events
  serving : s.status ≠ .notServing → s.status = .serving
  processing : s.status = .notServing → ∃ call, s.calls.lookup call = some .processing

theorem inv_init : Inv [] (init : State C) where
  notServing_iff := by
    refine iff_of_false nofun ?_
    rintro ⟨front, call, back, hevents, -⟩
    exact absurd hevents.symm (List.append_ne_nil_of_right_ne_nil front (List.cons_ne_nil _ _))
  serving := fun _ => rfl
  processing := nofun

theorem inv_step {events : List (Event C)} {s next : State C} {e : Event C} (hinv : Inv events s)
    (hstep : step s e = some next) : Inv (events ++ [e]) next := by
  obtain ⟨hstatus, hserving, hprocessing⟩ := hinv
  -- a call starts, the worker serves again, an ended call is forgotten, or the status is asked for
  rcases step_cases hstep with ⟨call, rfl, rfl⟩ | ⟨hserves, call, phase, rfl⟩ |
    ⟨call, rfl, hphase, rfl⟩ | ⟨rfl, rfl⟩
  · refine ⟨iff_of_true rfl (startedLast_concat.mpr (.inl ⟨call, rfl⟩)), nofun, fun _ => ?_⟩
    exact ⟨call, AList.lookup_insert _⟩
  · refine ⟨iff_of_false nofun ?_, fun _ => rfl, nofun⟩
    rw [startedLast_concat]
    rintro (⟨call, rfl⟩ | ⟨-, hnot⟩)
    · cases hserves
    · rw [hserves] at hnot
      cases hnot
  · refine ⟨?_, hserving, fun h => ?_⟩
    · rw [startedLast_concat]
      simp [hstatus, Event.serves]
    · obtain ⟨other, hother⟩ := hprocessing h
      have hne : other ≠ call := by
        rintro rfl
        exact hphase hother
      exact ⟨other, (AList.lookup_erase_ne hne).trans hother⟩
  · refine ⟨?_, hserving, hprocessing⟩
    rw [startedLast_concat]
    simp [hstatus, Event.serves]

theorem inv_run {events : List (Event C)} {s : State C}
    (hrun : Machine.run step init events = some s) : Inv events s :=
  Machine.run_induction inv_init (fun _ _ _ _ => inv_step) hrun

/-- After a run, the answer is right unless a call is running although another has
written `SERVING` since the latest start. -/
theorem right_iff {events : List (Event C)} {s : State C}
    (hrun : Machine.run step init events = some s) :
    Right s ↔ ¬Running s ∨ StartedLast events := by
  obtain ⟨hstatus, hserving, hprocessing⟩ := inv_run hrun
  unfold Right healthCheck
  rw [← hstatus]
  constructor
  · rintro ⟨hrunning, -⟩
    exact not_or_of_imp hrunning
  · rintro (hidle | hnot)
    · refine ⟨fun h => absurd h hidle, fun _ => hserving fun hnot => hidle ?_⟩
      obtain ⟨call, hcall⟩ := hprocessing hnot
      exact ⟨call, AList.lookup_isSome.mp (by rw [hcall]; rfl)⟩
    · refine ⟨fun _ => hnot, fun hidle => absurd ?_ hidle⟩
      obtain ⟨call, hcall⟩ := hprocessing hnot
      exact ⟨call, AList.lookup_isSome.mp (by rw [hcall]; rfl)⟩

/-- Every health check of a run is answered right exactly if, at each of them, no call is
running or none has written `SERVING` since the latest start. -/
theorem healthChecks_right_iff (events : List (Event C)) :
    (∀ front back s, events = front ++ .healthCheck :: back →
        Machine.run step init front = some s → Right s) ↔
      ∀ front back s, events = front ++ .healthCheck :: back →
        Machine.run step init front = some s → ¬Running s ∨ StartedLast front := by
  refine forall_congr' fun front => forall_congr' fun back => forall_congr' fun s => ?_
  refine forall_congr' fun _ => ?_
  exact ⟨fun hright hrun => (right_iff hrun).mp (hright hrun),
    fun hcond hrun => (right_iff hrun).mpr (hcond hrun)⟩

/-- Two calls at once, of which the first ends before the health check. -/
theorem healthCheck_serving_while_running :
    ∃ s, Machine.run step init [.start 0, .start 1, .reply 0, .finish 0] = some s ∧
      Running s ∧ healthCheck s = .serving ∧ ¬Right s := by
  refine ⟨⟨.serving, (∅ : AList fun _ : ℕ => Phase).insert 1 .processing⟩, rfl, ⟨1, by decide⟩, rfl,
    ?_⟩
  rintro ⟨hrunning, -⟩
  cases hrunning ⟨1, by decide⟩

end FutureWorker

end ArmoniKApi.Java
