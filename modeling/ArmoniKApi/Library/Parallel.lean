import ArmoniKApi.Library.Machine
import Mathlib.Logic.Function.Basic

/-!
# Machines side by side

Copies of one machine, under names, whose events come in any order.  A copy may reach a state
in which it stops all of them.

Each copy runs as it does alone, on its own events (`run_part`), and they are stopped just when
one of them is in a state that stops them (`stopped_iff`).

The other way round, a copy can do among the others what it can do alone as long as nothing has
stopped them (`exists_run_of_run`).  That needs one thing of the machine: a state that stops the
others is a last one, so that what is left of the run then is empty.

The machine is any guarded machine, with a test `stops` on its states.  Whether all are
stopped is a variable of its own, set when a copy enters a stopping state, and no copy does
anything from then on.

* `of_step` says what one event does: the copy it names makes its step, and the others stay.
* `run_part` is the projection.  It needs nothing of the machine, since an event of one copy is
  enabled by the state of that copy alone.
* `exists_run_of_run` is the way back.  The events of the copy are played one after the other,
  and nobody else moves.  A step into a stopping state would bar what follows, so the run must
  be over there (`eq_nil_of_stopped`).
* `stopped_iff` finds out whether all are stopped by looking at the histories of the copies,
  each by itself.

So a property of one copy is shown for the machine alone, and then holds among the others.
-/

namespace Machine

variable {K S E : Type*} [DecidableEq K]

/-- The states of the copies, and whether one of them has stopped them all. -/
structure Parallel (K S : Type*) where
  parts : K → S
  stopped : Bool

namespace Parallel

/-- All copies are in one state, and nothing has stopped them. -/
def init (s : S) : Parallel K S := ⟨fun _ => s, false⟩

/-- An event of one copy. -/
def step (step : S → E → Option S) (stops : S → Bool) (all : Parallel K S) (event : K × E) :
    Option (Parallel K S) :=
  if all.stopped then none
  else (step (all.parts event.1) event.2).map fun next =>
    ⟨Function.update all.parts event.1 next, stops next⟩

/-- The events of a copy. -/
def own (key : K) (events : List (K × E)) : List E :=
  (events.filter fun event => event.1 = key).map Prod.snd

variable {alone : S → E → Option S} {stops : S → Bool} {s : S}

/-- What one event does. -/
theorem of_step {all next : Parallel K S} {key : K} {e : E}
    (hstep : step alone stops all (key, e) = some next) :
    all.stopped = false ∧ alone (all.parts key) e = some (next.parts key) ∧
      (∀ other, other ≠ key → next.parts other = all.parts other) ∧
      next.stopped = stops (next.parts key) := by
  rw [step, Option.ite_none_left_eq_some, Bool.not_eq_true, Option.map_eq_some_iff] at hstep
  obtain ⟨hgoing, part, hpart, rfl⟩ := hstep
  have hself : Function.update all.parts key part key = part := Function.update_self ..
  refine ⟨hgoing, hpart.trans (congrArg some hself.symm), fun other hother => ?_, ?_⟩
  · exact Function.update_of_ne hother ..
  · exact congrArg stops hself.symm

theorem own_concat (key : K) (events : List (K × E)) (event : K × E) :
    own key (events ++ [event]) = own key events ++ if event.1 = key then [event.2] else [] := by
  rw [own, List.filter_append, List.map_append, own]
  by_cases hkey : event.1 = key
  · simp only [hkey, List.filter_cons, decide_true, if_true, List.filter_nil, List.map_cons,
      List.map_nil]
  · simp only [hkey, List.filter_cons, decide_false, Bool.false_eq_true, if_false,
      List.filter_nil, List.map_nil]

theorem own_map (key : K) (events : List E) :
    own key (events.map fun e => (key, e)) = events := by
  induction events with
  | nil => rfl
  | cons e rest ih =>
      simp only [List.map_cons, own, List.filter_cons, decide_true, if_true]
      exact congrArg (e :: ·) ih

/-- A copy runs as it does alone, from wherever it is. -/
theorem run_part_from {all last : Parallel K S} {events : List (K × E)}
    (hrun : Machine.run (step alone stops) all events = some last) (key : K) :
    Machine.run alone (all.parts key) (own key events) = some (last.parts key) := by
  refine Machine.run_induction (P := fun events last =>
    Machine.run alone (all.parts key) (own key events) = some (last.parts key)) rfl ?_ hrun
  rintro events mid ⟨changed, e⟩ next hmid hstep
  obtain ⟨-, hpart, hothers, -⟩ := of_step hstep
  rw [own_concat]
  by_cases hkey : changed = key
  · subst hkey
    rw [if_pos rfl]
    exact Machine.run_concat_eq_some_iff.mpr ⟨_, hmid, hpart⟩
  · rw [if_neg hkey, List.append_nil, hothers key (Ne.symm hkey)]
    exact hmid

theorem run_part {events : List (K × E)} {last : Parallel K S}
    (hrun : Machine.run (step alone stops) (init s) events = some last) (key : K) :
    Machine.run alone s (own key events) = some (last.parts key) :=
  run_part_from hrun key

/-- Once they are stopped nothing happens. -/
theorem eq_nil_of_stopped {all last : Parallel K S} {events : List (K × E)}
    (hstopped : all.stopped = true)
    (hrun : Machine.run (step alone stops) all events = some last) : events = [] := by
  cases events with
  | nil => rfl
  | cons event rest =>
      rw [Machine.run, step, if_pos hstopped] at hrun
      cases hrun

/-- What a copy can do alone, it can do among the others, if nothing has stopped them. -/
theorem exists_run_of_run (hlast : ∀ s e, stops s = true → alone s e = none)
    {all : Parallel K S} (hgoing : all.stopped = false) {key : K} {events : List E} {part : S}
    (hrun : Machine.run alone (all.parts key) events = some part) :
    ∃ last, Machine.run (step alone stops) all (events.map fun e => (key, e)) = some last ∧
      last.parts key = part := by
  induction events generalizing all with
  | nil => exact ⟨all, rfl, Option.some.inj hrun⟩
  | cons e rest ih =>
      obtain ⟨next, hnext, hrest⟩ := Option.bind_eq_some_iff.mp hrun
      set there : Parallel K S := ⟨Function.update all.parts key next, stops next⟩ with hthere
      have hpart : there.parts key = next := Function.update_self ..
      have hstep : step alone stops all (key, e) = some there := by
        rw [step, if_neg (Bool.not_eq_true _ ▸ hgoing), hnext]
        rfl
      rw [← hpart] at hrest
      have hgoesOn : ∃ last,
          Machine.run (step alone stops) there (rest.map fun e => (key, e)) = some last ∧
            last.parts key = part := by
        cases hstops : stops next with
        | false => exact ih hstops hrest
        -- the copy has stopped all of them, and so it was its last event
        | true =>
            cases rest with
            | nil => exact ⟨there, rfl, Option.some.inj hrest⟩
            | cons other rest =>
                rw [hpart, Machine.run, hlast next other hstops] at hrest
                cases hrest
      obtain ⟨last, hlast, hsame⟩ := hgoesOn
      refine ⟨last, ?_, hsame⟩
      rw [List.map_cons, Machine.run, hstep]
      exact hlast

theorem stopped_iff (hinit : stops s = false) {events : List (K × E)} {last : Parallel K S}
    (hrun : Machine.run (step alone stops) (init s) events = some last) :
    last.stopped = true ↔ ∃ key, stops (last.parts key) = true := by
  refine Machine.run_induction (P := fun _ last =>
    last.stopped = true ↔ ∃ key, stops (last.parts key) = true) ?_ ?_ hrun
  · refine iff_of_false Bool.false_ne_true ?_
    rintro ⟨key, hkey⟩
    cases hinit.symm.trans hkey
  · rintro events mid ⟨key, e⟩ next hmid hstep
    obtain ⟨hgoing, -, hothers, hstopped⟩ := of_step hstep
    rw [hstopped]
    constructor
    · intro hstops
      exact ⟨key, hstops⟩
    · rintro ⟨other, hother⟩
      by_cases hkey : other = key
      · exact hkey ▸ hother
      · -- the others have not stopped anything before
        rw [hothers other hkey] at hother
        cases (hmid.mpr ⟨other, hother⟩).symm.trans hgoing

end Parallel

end Machine
