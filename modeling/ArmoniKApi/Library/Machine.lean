import Mathlib.Data.List.Induction

/-!
# Guarded state machines

A machine is a step function into `Option`: `step s e` is the next state when
the event `e` is enabled in `s`, and `none` when it is not.  The same function
runs a given list of events and is reasoned about.

The invariants of `run_induction` may speak about the events so far as well as
about the state.

A step that is not enabled stops the run, so `run` is `some` only for histories that can
happen.  A statement about all reachable states is one about all lists of events, and a
scheduler, a network or a user is nothing but the choice of the list.

The induction is from the back of the list, since an invariant is kept by the step that comes
last.  It is done once, in `run_induction`, whose predicate is over the history and the state
together; a machine that uses it has to show two things, the start and one step.
-/

namespace Machine

variable {S E : Type*} {step : S → E → Option S}

/-- The state after a list of events, if every one of them is enabled in turn. -/
def run (step : S → E → Option S) (s : S) : List E → Option S
  | [] => some s
  | e :: rest => (step s e).bind fun next => run step next rest

theorem run_append (s : S) (first second : List E) :
    run step s (first ++ second) = (run step s first).bind fun mid => run step mid second := by
  induction first generalizing s with
  | nil => rfl
  | cons e rest ih =>
      simp only [List.cons_append, run]
      cases step s e with
      | none => rfl
      | some next => exact ih next

theorem run_concat_eq_some_iff {s last : S} {events : List E} {e : E} :
    run step s (events ++ [e]) = some last ↔
      ∃ mid, run step s events = some mid ∧ step mid e = some last := by
  simp only [run_append, run, Option.bind_eq_some_iff, Option.some.injEq, exists_eq_right]

/-- What holds before the first event and is kept by every event holds after
every run. -/
theorem run_induction {s : S} {P : List E → S → Prop} (hinit : P [] s)
    (hstep : ∀ events mid e next, P events mid → step mid e = some next → P (events ++ [e]) next)
    {events : List E} {last : S} (hrun : run step s events = some last) : P events last := by
  induction events using List.reverseRecOn generalizing last with
  | nil =>
      obtain ⟨rfl⟩ := hrun
      exact hinit
  | append_singleton events e ih =>
      obtain ⟨mid, hmid, hlast⟩ := run_concat_eq_some_iff.mp hrun
      exact hstep events mid e last (ih hmid) hlast

end Machine
