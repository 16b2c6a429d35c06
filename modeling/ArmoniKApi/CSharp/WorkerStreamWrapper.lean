import ArmoniKApi.Library.Parallel
import Mathlib.Data.List.Infix

/-!
# The calls of a C# worker

`WorkerStreamWrapper.Process` starts the processing of a task and waits for it or for the
cancellation of the call.  A processing that goes on after the cancellation is given the time
`AbortAfter`, if that is positive, and is then ended with the whole worker.  The time is given by
`Task.Delay`, which counts whole milliseconds, has none to wait for in less than one, and throws
when there are more than it can count.

The calls of a worker run side by side, and what happens to them comes in any order.

* `process_ends` reads from what has happened to a call what becomes of it: whether it stops the
  worker, lets the exception of `Task.Delay` through, or answers with what its processing came to.
* `process_canEnd_iff` says what a call still needs: once a call has started, no other call can
  hold it up, short of stopping the worker.

## Strategy

`WhenAny` returns the task that was completed first, and the call goes on with it some time later,
when the other one may be completed as well.  So the state of a call says little about what it
will do, and the invariant is about the events so far.  `Seen marks events` says that at some
moment all of the marks had happened while the processing still ran, and `Won` says of a `WhenAny`
that its task is the one that was there first.  Both are kept by whatever comes later, which is
what each step needs (`Told.step`).

The phases of a call, and what is known in each of them (`Placed`):

```text
phase           what has happened
idle, started   the call has not reached the first `WhenAny`
waiting         it has, and has not gone on; the task that won is the one that was first
delaying        it was cancelled before its processing ended, and has gone on once; the task
                that won is the first of the processing and the end of the time given
answered        it was not overtaken, and its time was not out of range
outOfRange      it was cancelled before its processing ended, with more time than can be counted
exited          it was overtaken
```

A call is overtaken if at some moment it was cancelled, and another moment saw the end of the
time it was given, both before its processing ended.  That the two tests are made at different
moments is why a state alone does not tell what a call will do.

For the second theorem, `CanEnd` asks for events of the call alone that lead to an end.
`Ready` says what it waits for, in terms of what has happened, and `Told.canEnd` finds the
events phase by phase.  Whether the worker was stopped meanwhile is added by the library's
`Parallel`: a call can do among the others what it can do alone, unless it was stopped.
-/

namespace ArmoniKApi.CSharp.WorkerStreamWrapper

/-- What a task comes to. -/
inductive Outcome (O X : Type)
  | output (output : O)
  | threw (error : X)
  deriving DecidableEq

/-- The task that `Task.WhenAny` returns: `process`, or the one given after it. -/
inductive Winner
  | process
  | other
  deriving DecidableEq

/-- Where a call is. -/
inductive Phase (O X : Type)
  | idle
  /-- `ProcessAsync` has returned a task. -/
  | started
  /-- At the first `WhenAny`. -/
  | waiting (task : Option Winner)
  /-- At the second `WhenAny`. -/
  | delaying (task : Option Winner)
  /-- The call has replied with an output, or let the exception of `process` through. -/
  | answered (outcome : Outcome O X)
  /-- The call has let the exception of `Task.Delay` through. -/
  | outOfRange
  /-- `Environment.Exit` was called. -/
  | exited
  deriving DecidableEq

/-- Where a call is, and what has become of the tasks that it waits for. -/
structure State (O X : Type) where
  /-- What `process` has come to. -/
  process : Option (Outcome O X)
  cancelled : Bool
  phase : Phase O X

/-- What can happen to a call: some of it from outside, and some of it is the call going
on. -/
inductive Event (O X : Type)
  /-- `ProcessAsync` is called.  It may throw before it returns a task. -/
  | start (thrown : Option X)
  /-- `process` is completed. -/
  | finish (outcome : Outcome O X)
  | cancel
  /-- The time `AbortAfter` has gone by. -/
  | elapse
  /-- The first `WhenAny` is called. -/
  | whenAny
  /-- The call goes on after a `WhenAny`. -/
  | resume
  deriving DecidableEq

variable {O X : Type}

/-- A call that has not started. -/
def init : State O X := ⟨none, false, .idle⟩

/-- What `Task.Delay` makes of a positive time. -/
inductive Delay
  /-- It throws an `ArgumentOutOfRangeException`. -/
  | outOfRange
  /-- It returns a task that is completed. -/
  | completed
  /-- It returns a task that is completed when the time has gone by. -/
  | timer
  deriving DecidableEq

/-- `Task.Delay`, of a positive time in ticks, of which ten thousand make a millisecond. -/
def taskDelay (delay : Int) : Delay :=
  let totalMilliseconds := delay.tdiv 10000
  if 4294967294 < totalMilliseconds then .outOfRange
  else if totalMilliseconds = 0 then .completed
  else .timer

/-- What `WhenAny` finds at the start: a task that is completed, the first one before the
other. -/
def whenAny (process : Option (Outcome O X)) (other : Bool) : Option Winner :=
  if process.isSome then some .process
  else if other then some .other
  else none

/-- The end of `Process`, after `await process`. -/
def State.answer (s : State O X) : Option (State O X) :=
  s.process.map fun outcome => { s with phase := .answered outcome }

/-- `Process`, with `AbortAfter` in ticks.  `process` goes on when the call has let the exception
of `Task.Delay` through, but nothing waits for it any more. -/
def step (abortAfter : Int) (s : State O X) : Event O X → Option (State O X)
  | .start thrown =>
      match s.phase, thrown with
      | .idle, none => some { s with phase := .started }
      | .idle, some error =>
          some { s with process := some (.threw error), phase := .answered (.threw error) }
      | _, _ => none
  | .finish outcome =>
      if s.process.isSome then none
      else
        match s.phase with
        | .started => some { s with process := some outcome }
        | .waiting task =>
            some { s with process := some outcome, phase := .waiting (task.or (some .process)) }
        | .delaying task =>
            some { s with process := some outcome, phase := .delaying (task.or (some .process)) }
        | .outOfRange => some { s with process := some outcome }
        | _ => none
  | .cancel =>
      match s.phase with
      | .waiting task =>
          some { s with cancelled := true, phase := .waiting (task.or (some .other)) }
      | .exited => none
      | _ => some { s with cancelled := true }
  | .elapse =>
      match s.phase with
      | .delaying task => some { s with phase := .delaying (task.or (some .other)) }
      | _ => none
  | .whenAny =>
      match s.phase with
      | .started => some { s with phase := .waiting (whenAny s.process s.cancelled) }
      | _ => none
  | .resume =>
      match s.phase with
      | .waiting (some .process) => s.answer
      | .waiting (some .other) =>
          if 0 < abortAfter then
            match taskDelay abortAfter with
            | .outOfRange => some { s with phase := .outOfRange }
            | .completed => some { s with phase := .delaying (whenAny s.process true) }
            | .timer => some { s with phase := .delaying (whenAny s.process false) }
          else some { s with phase := .exited }
      | .delaying (some .process) => s.answer
      | .delaying (some .other) => some { s with phase := .exited }
      | _ => none

/-- The call stops the worker. -/
def State.exits (s : State O X) : Bool :=
  match s.phase with
  | .exited => true
  | _ => false

/-! ## What has happened to a call -/

/-- What the processing comes to, if the event is its end. -/
def Event.outcome? : Event O X → Option (Outcome O X)
  | .start (some error) => some (.threw error)
  | .finish outcome => some outcome
  | _ => none

/-- The processing has not ended. -/
def Running (events : List (Event O X)) : Prop := ∀ e ∈ events, e.outcome? = none

/-- These have happened while the processing had not ended. -/
def Seen (marks events : List (Event O X)) : Prop :=
  ∃ before, before <+: events ∧ Running before ∧ ∀ mark ∈ marks, mark ∈ before

/-- At some moment the call waited, its processing still ran and it was cancelled. -/
def Cancelled (events : List (Event O X)) : Prop := Seen [.whenAny, .cancel] events

/-- The event that the task of `Task.Delay` is completed with.  One that is completed from the
start is there when the call goes on after the first `WhenAny`. -/
def Delay.mark : Delay → Option (Event O X)
  | .outOfRange => none
  | .completed => some .resume
  | .timer => some .elapse

theorem Delay.eq_of_mem_mark {delay : Delay} {mark : Event O X} (h : mark ∈ delay.mark) :
    mark = .resume ∨ mark = .elapse := by
  cases delay with
  | outOfRange => cases h
  | completed => exact .inl (Option.some.inj h).symm
  | timer => exact .inr (Option.some.inj h).symm

/-- The call was cancelled before its processing ended, and also the time it was given then, if
any, had gone by. -/
def Overtaken (abortAfter : Int) (events : List (Event O X)) : Prop :=
  Cancelled events ∧ (0 < abortAfter → ∃ mark ∈ (taskDelay abortAfter).mark, Seen [mark] events)

/-- The call was cancelled before its processing ended, and is to be given more time than
`Task.Delay` can count. -/
def OutOfRange (abortAfter : Int) (events : List (Event O X)) : Prop :=
  Cancelled events ∧ 0 < abortAfter ∧ taskDelay abortAfter = .outOfRange

theorem Overtaken.not_outOfRange {abortAfter : Int} {events : List (Event O X)}
    (h : Overtaken abortAfter events) : ¬OutOfRange abortAfter events := by
  rintro ⟨-, hafter, hdelay⟩
  obtain ⟨mark, hmark, -⟩ := h.2 hafter
  rw [hdelay] at hmark
  cases hmark

section Seen

variable {marks events : List (Event O X)} {e : Event O X} {outcome : Outcome O X}

theorem running_iff : Running events ↔ events.findSome? Event.outcome? = none :=
  List.findSome?_eq_none_iff.symm

theorem running_concat : Running (events ++ [e]) ↔ Running events ∧ e.outcome? = none := by
  rw [Running, List.forall_mem_append, List.forall_mem_singleton, Running]

theorem seen_concat : Seen marks (events ++ [e]) ↔
    Seen marks events ∨ Running (events ++ [e]) ∧ ∀ mark ∈ marks, mark ∈ events ++ [e] := by
  constructor
  · rintro ⟨before, hbefore, hrunning, hmarks⟩
    rcases List.prefix_concat_iff.mp hbefore with rfl | hbefore
    · exact .inr ⟨hrunning, hmarks⟩
    · exact .inl ⟨before, hbefore, hrunning, hmarks⟩
  · rintro (⟨before, hbefore, h⟩ | h)
    · exact ⟨before, hbefore.trans (List.prefix_append ..), h⟩
    · exact ⟨_, List.prefix_rfl, h⟩

theorem Seen.mem (h : Seen marks events) {mark : Event O X} (hmark : mark ∈ marks) :
    mark ∈ events := by
  obtain ⟨before, hbefore, -, hmarks⟩ := h
  exact hbefore.subset (hmarks mark hmark)

theorem Seen.concat (h : Seen marks events) (e : Event O X) : Seen marks (events ++ [e]) :=
  seen_concat.mpr (.inl h)

/-- After the end of the processing nothing more is seen. -/
theorem seen_concat_of_not_running (h : ¬Running (events ++ [e])) :
    Seen marks (events ++ [e]) ↔ Seen marks events := by
  rw [seen_concat, or_iff_left fun hseen => h hseen.1]

end Seen

/-! ## The task that `WhenAny` returns -/

/-- Of the processing and what the marks tell, the one that was there first. -/
def Won (marks events : List (Event O X)) : Option Winner → Prop
  | none => Running events ∧ ¬∀ mark ∈ marks, mark ∈ events
  | some .process => ¬Running events ∧ ¬Seen marks events
  | some .other => Seen marks events

section Won

variable {marks events : List (Event O X)} {e : Event O X} {task : Option Winner}

theorem not_running_concat (h : ¬Running events) (e : Event O X) : ¬Running (events ++ [e]) :=
  fun hrunning => h (running_concat.mp hrunning).1

/-- The processing ends. -/
theorem Won.finish (h : Won marks events task) (he : e.outcome? ≠ none) :
    Won marks (events ++ [e]) (task.or (some .process)) := by
  have hended : ¬Running (events ++ [e]) := fun hrunning => he (running_concat.mp hrunning).2
  match task, h with
  | none, ⟨_, hmarks⟩ =>
      refine ⟨hended, fun hseen => hmarks fun mark hmark => ?_⟩
      exact ((seen_concat_of_not_running hended).mp hseen).mem hmark
  | some .process, ⟨_, hnot⟩ =>
      exact ⟨hended, fun hseen => hnot ((seen_concat_of_not_running hended).mp hseen)⟩
  | some .other, hseen => exact hseen.concat e

/-- What the marks tell is there. -/
theorem Won.mark (h : Won marks events task) (he : e.outcome? = none)
    (hmarks : ∀ mark ∈ marks, mark ∈ events ++ [e]) :
    Won marks (events ++ [e]) (task.or (some .other)) := by
  match task, h with
  | none, ⟨hrunning, _⟩ => exact seen_concat.mpr (.inr ⟨running_concat.mpr ⟨hrunning, he⟩, hmarks⟩)
  | some .process, ⟨hended, hnot⟩ =>
      have hended := not_running_concat hended e
      exact ⟨hended, fun hseen => hnot ((seen_concat_of_not_running hended).mp hseen)⟩
  | some .other, hseen => exact hseen.concat e

/-- An event that is neither. -/
theorem Won.pass (h : Won marks events task) (he : e.outcome? = none) (hmarks : e ∉ marks) :
    Won marks (events ++ [e]) task := by
  match task, h with
  | none, ⟨hrunning, hnot⟩ =>
      refine ⟨running_concat.mpr ⟨hrunning, he⟩, fun hall => hnot fun mark hmark => ?_⟩
      rcases List.mem_append.mp (hall mark hmark) with hold | hnew
      · exact hold
      · exact absurd (List.mem_singleton.mp hnew ▸ hmark) hmarks
  | some .process, ⟨hended, hnot⟩ =>
      have hended := not_running_concat hended e
      exact ⟨hended, fun hseen => hnot ((seen_concat_of_not_running hended).mp hseen)⟩
  | some .other, hseen => exact hseen.concat e

/-- What `WhenAny` finds when it is called. -/
theorem won_whenAny {process : Option (Outcome O X)} {other : Bool}
    (hprocess : process.isSome = true ↔ ¬Running events)
    (hother : other = true ↔ ∀ mark ∈ marks, mark ∈ events)
    (hseen : Seen marks events → Running events) : Won marks events (whenAny process other) := by
  unfold whenAny
  split
  · rename_i hended
    exact ⟨hprocess.mp hended, fun h => hprocess.mp hended (hseen h)⟩
  · rename_i hrunning
    rw [hprocess, not_not] at hrunning
    split
    · rename_i hthere
      exact ⟨events, List.prefix_rfl, hrunning, hother.mp hthere⟩
    · rename_i hnot
      exact ⟨hrunning, fun hmarks => hnot (hother.mpr hmarks)⟩

end Won

/-! ## What the state tells of it -/

/-- The call has not gone on after a `WhenAny`. -/
def NotResumed (events : List (Event O X)) : Prop := .elapse ∉ events ∧ .resume ∉ events

/-- What has happened to a call that is in a phase. -/
def Placed (abortAfter : Int) (events : List (Event O X)) : Phase O X → Prop
  | .idle => Running events ∧ .whenAny ∉ events ∧ NotResumed events
  | .started => .whenAny ∉ events ∧ NotResumed events
  | .waiting task => .whenAny ∈ events ∧ NotResumed events ∧ Won [.whenAny, .cancel] events task
  | .delaying task =>
      0 < abortAfter ∧ Cancelled events ∧ .resume ∈ events ∧
        ∃ mark ∈ (taskDelay abortAfter).mark, Won [mark] events task
  | .answered outcome =>
      events.findSome? Event.outcome? = some outcome ∧ ¬Overtaken abortAfter events ∧
        ¬OutOfRange abortAfter events
  | .outOfRange => OutOfRange abortAfter events
  | .exited => Overtaken abortAfter events

/-- The state of a call after the events. -/
structure Told (abortAfter : Int) (events : List (Event O X)) (s : State O X) : Prop where
  process : s.process = events.findSome? Event.outcome?
  cancelled : s.cancelled = true ↔ .cancel ∈ events
  placed : Placed abortAfter events s.phase

section Told

variable {abortAfter : Int} {events : List (Event O X)} {s next : State O X} {e : Event O X}

theorem told_init : Told abortAfter [] (init : State O X) :=
  ⟨rfl, iff_of_false Bool.false_ne_true List.not_mem_nil,
    List.forall_mem_nil _, List.not_mem_nil, List.not_mem_nil, List.not_mem_nil⟩

theorem Told.isSome_iff (h : Told abortAfter events s) :
    s.process.isSome = true ↔ ¬Running events := by
  rw [running_iff, ← h.process, Option.isSome_iff_ne_none]

/-- What the end of the processing is, does not change. -/
theorem Told.process_concat (h : Told abortAfter events s) (he : e.outcome? = none) :
    s.process = (events ++ [e]).findSome? Event.outcome? := by
  rw [List.findSome?_append, List.findSome?_singleton, he, Option.or_none, h.process]

theorem Told.cancelled_concat (h : Told abortAfter events s) (he : e ≠ .cancel) :
    s.cancelled = true ↔ .cancel ∈ events ++ [e] := by
  rw [h.cancelled, List.mem_append, List.mem_singleton, or_iff_left he.symm]

theorem not_mem_concat {mark : Event O X} (h : mark ∉ events) (he : mark ≠ e) :
    mark ∉ events ++ [e] := by
  rw [List.mem_append, List.mem_singleton, not_or]
  exact ⟨h, he⟩

theorem mem_concat_self (events : List (Event O X)) (e : Event O X) : e ∈ events ++ [e] :=
  List.mem_append_right _ (List.mem_singleton_self e)

theorem NotResumed.concat (h : NotResumed events) (helapse : .elapse ≠ e) (hresume : .resume ≠ e) :
    NotResumed (events ++ [e]) :=
  ⟨not_mem_concat h.1 helapse, not_mem_concat h.2 hresume⟩

theorem OutOfRange.concat (h : OutOfRange abortAfter events) (e : Event O X) :
    OutOfRange abortAfter (events ++ [e]) :=
  ⟨Seen.concat h.1 e, h.2⟩

/-- Once the processing has ended, a call that was not overtaken is not. -/
theorem not_overtaken_concat (hended : ¬Running (events ++ [e]))
    (h : ¬Overtaken abortAfter events) : ¬Overtaken abortAfter (events ++ [e]) := by
  intro ⟨hcancelled, hdelay⟩
  refine h ⟨(seen_concat_of_not_running hended).mp hcancelled, fun hafter => ?_⟩
  obtain ⟨mark, hmark, hseen⟩ := hdelay hafter
  exact ⟨mark, hmark, (seen_concat_of_not_running hended).mp hseen⟩

theorem not_outOfRange_concat (hended : ¬Running (events ++ [e]))
    (h : ¬OutOfRange abortAfter events) : ¬OutOfRange abortAfter (events ++ [e]) := by
  intro ⟨hcancelled, hdelay⟩
  exact h ⟨(seen_concat_of_not_running hended).mp hcancelled, hdelay⟩

/-- The call answers with what its processing came to. -/
theorem Told.answer (h : Told abortAfter events s) (hnot : ¬Overtaken abortAfter events)
    (hin : ¬OutOfRange abortAfter events) (hstep : s.answer = some next) :
    Told abortAfter (events ++ [.resume]) next := by
  obtain ⟨outcome, houtcome, rfl⟩ := Option.map_eq_some_iff.mp hstep
  have hended : ¬Running (events ++ [Event.resume]) :=
    not_running_concat (h.isSome_iff.mp (Option.isSome_of_eq_some houtcome)) _
  have hprocess : s.process = (events ++ [Event.resume]).findSome? Event.outcome? :=
    h.process_concat rfl
  exact ⟨hprocess, h.cancelled_concat nofun, hprocess.symm.trans houtcome,
    not_overtaken_concat hended hnot, not_outOfRange_concat hended hin⟩

/-- The first end of the processing. -/
theorem findSome?_concat (hrunning : Running events) {outcome : Outcome O X}
    (he : e.outcome? = some outcome) :
    (events ++ [e]).findSome? Event.outcome? = some outcome := by
  rw [List.findSome?_append, running_iff.mp hrunning, List.findSome?_singleton, he, Option.none_or]

/-! ### One lemma for each event -/

theorem Told.start {thrown : Option X} (h : Told abortAfter events s)
    (hstep : step abortAfter s (.start thrown) = some next) :
    Told abortAfter (events ++ [.start thrown]) next := by
  obtain ⟨process, cancelled, phase⟩ := s
  cases phase with
  | idle =>
      obtain ⟨hrunning, hany, hresumed⟩ := h.placed
      have hany : Event.whenAny ∉ events ++ [.start thrown] := not_mem_concat hany nofun
      cases thrown with
      | none =>
          cases hstep
          exact ⟨h.process_concat rfl, h.cancelled_concat nofun, hany, hresumed.concat nofun nofun⟩
      | some error =>
          -- the exception goes through the call before it waits for anything
          cases hstep
          have hprocess := findSome?_concat (e := .start (some error)) hrunning rfl
          have hnot : ¬Cancelled (events ++ [.start (some error)]) :=
            fun hcancelled => hany (hcancelled.mem (List.mem_cons_self ..))
          exact ⟨hprocess.symm, h.cancelled_concat nofun, hprocess,
            fun hovertaken => hnot hovertaken.1, fun hout => hnot hout.1⟩
  | _ => cases hstep

theorem Told.finish {outcome : Outcome O X} (h : Told abortAfter events s)
    (hstep : step abortAfter s (.finish outcome) = some next) :
    Told abortAfter (events ++ [.finish outcome]) next := by
  rw [WorkerStreamWrapper.step, Option.ite_none_left_eq_some, h.isSome_iff, not_not] at hstep
  obtain ⟨hrunning, hstep⟩ := hstep
  have hprocess := (findSome?_concat (e := .finish outcome) hrunning rfl).symm
  have hcancelled := h.cancelled_concat (e := .finish outcome) nofun
  have hplaced := h.placed
  obtain ⟨process, cancelled, phase⟩ := s
  cases phase with
  | started =>
      cases hstep
      obtain ⟨hany, hresumed⟩ := hplaced
      exact ⟨hprocess, hcancelled, not_mem_concat hany nofun, hresumed.concat nofun nofun⟩
  | waiting task =>
      cases hstep
      obtain ⟨hany, hresumed, hwon⟩ := hplaced
      exact ⟨hprocess, hcancelled, List.mem_append_left _ hany, hresumed.concat nofun nofun,
        hwon.finish nofun⟩
  | delaying task =>
      cases hstep
      obtain ⟨hafter, hseen, hresume, mark, hmark, hwon⟩ := hplaced
      exact ⟨hprocess, hcancelled, hafter, Seen.concat hseen _, List.mem_append_left _ hresume,
        mark, hmark, hwon.finish nofun⟩
  -- the processing ends after the call has: nothing is read of it any more
  | outOfRange =>
      cases hstep
      exact ⟨hprocess, hcancelled, OutOfRange.concat hplaced _⟩
  | _ => cases hstep

theorem Told.cancel (h : Told abortAfter events s)
    (hstep : step abortAfter s .cancel = some next) :
    Told abortAfter (events ++ [.cancel]) next := by
  have hthere : Event.cancel ∈ events ++ [.cancel] := mem_concat_self ..
  have hcancelled : true = true ↔ Event.cancel ∈ events ++ [.cancel] := iff_of_true rfl hthere
  have hprocess := h.process_concat (e := .cancel) rfl
  have hplaced := h.placed
  obtain ⟨process, cancelled, phase⟩ := s
  cases phase with
  | idle =>
      cases hstep
      obtain ⟨hrunning, hany, hresumed⟩ := hplaced
      exact ⟨hprocess, hcancelled, running_concat.mpr ⟨hrunning, rfl⟩,
        not_mem_concat hany nofun, hresumed.concat nofun nofun⟩
  | started =>
      cases hstep
      obtain ⟨hany, hresumed⟩ := hplaced
      exact ⟨hprocess, hcancelled, not_mem_concat hany nofun, hresumed.concat nofun nofun⟩
  -- the cancellation is one of the two marks that the first `WhenAny` waits for
  | waiting task =>
      cases hstep
      obtain ⟨hany, hresumed, hwon⟩ := hplaced
      have hany : Event.whenAny ∈ events ++ [.cancel] := List.mem_append_left _ hany
      refine ⟨hprocess, hcancelled, hany, hresumed.concat nofun nofun, hwon.mark rfl ?_⟩
      exact List.forall_mem_cons.mpr ⟨hany, List.forall_mem_singleton.mpr hthere⟩
  -- the delay has a mark of its own, and a cancellation is not that one
  | delaying task =>
      cases hstep
      obtain ⟨hafter, hseen, hresume, mark, hmark, hwon⟩ := hplaced
      refine ⟨hprocess, hcancelled, hafter, Seen.concat hseen _, List.mem_append_left _ hresume,
        mark, hmark, hwon.pass rfl ?_⟩
      rw [List.mem_singleton]
      rintro rfl
      exact (Delay.eq_of_mem_mark hmark).elim nofun nofun
  -- the call has ended, and what comes later changes nothing of it
  | answered outcome =>
      cases hstep
      obtain ⟨houtcome, hnot, hin⟩ := hplaced
      have hended : ¬Running (events ++ [Event.cancel]) := by
        refine not_running_concat ?_ _
        rw [running_iff, houtcome]
        exact nofun
      exact ⟨hprocess, hcancelled, hprocess.symm.trans (h.process.trans houtcome),
        not_overtaken_concat hended hnot, not_outOfRange_concat hended hin⟩
  | outOfRange =>
      cases hstep
      exact ⟨hprocess, hcancelled, OutOfRange.concat hplaced _⟩
  | exited => cases hstep

theorem Told.elapse (h : Told abortAfter events s)
    (hstep : step abortAfter s .elapse = some next) :
    Told abortAfter (events ++ [.elapse]) next := by
  have hplaced := h.placed
  obtain ⟨process, cancelled, phase⟩ := s
  cases phase with
  | delaying task =>
      cases hstep
      obtain ⟨hafter, hseen, hresume, mark, hmark, hwon⟩ := hplaced
      have hresume : Event.resume ∈ events ++ [.elapse] := List.mem_append_left _ hresume
      refine ⟨h.process_concat rfl, h.cancelled_concat nofun, hafter, Seen.concat hseen _, hresume,
        mark, hmark, hwon.mark rfl (List.forall_mem_singleton.mpr ?_)⟩
      -- a task that was completed from the start was there already
      rcases Delay.eq_of_mem_mark hmark with rfl | rfl
      · exact hresume
      · exact mem_concat_self ..
  | _ => cases hstep

/-- The first `WhenAny`. -/
theorem Told.whenAny (h : Told abortAfter events s)
    (hstep : step abortAfter s .whenAny = some next) :
    Told abortAfter (events ++ [.whenAny]) next := by
  have hplaced := h.placed
  obtain ⟨process, cancelled, phase⟩ := s
  cases phase with
  | started =>
      cases hstep
      obtain ⟨hany, hresumed⟩ := hplaced
      have hprocess := h.process_concat (e := .whenAny) rfl
      have hcancelled := h.cancelled_concat (e := .whenAny) nofun
      have hthere : Event.whenAny ∈ events ++ [.whenAny] := mem_concat_self ..
      refine ⟨hprocess, hcancelled, hthere, hresumed.concat nofun nofun, won_whenAny ?_ ?_ ?_⟩
      · rw [hprocess, Option.isSome_iff_ne_none, ne_eq, running_iff]
      · rw [hcancelled, List.forall_mem_cons, List.forall_mem_singleton, and_iff_right hthere]
      · intro hseen
        refine (seen_concat.mp hseen).elim (fun hbefore => ?_) And.left
        exact absurd (hbefore.mem (List.mem_cons_self ..)) hany
  | _ => cases hstep

/-- The second `WhenAny`, with the task of `Task.Delay`. -/
theorem Told.delay (h : Told abortAfter events s) (hafter : 0 < abortAfter)
    (hcancelled : Cancelled events) (hresumed : NotResumed events) {mark : Event O X}
    (hmark : mark ∈ (taskDelay abortAfter).mark) {completed : Bool}
    (hcompleted : completed = true ↔ mark = .resume) :
    Told abortAfter (events ++ [.resume])
      { s with phase := .delaying (WorkerStreamWrapper.whenAny s.process completed) } := by
  have hprocess := h.process_concat (e := .resume) rfl
  have hbefore : mark ∉ events := by
    rcases Delay.eq_of_mem_mark hmark with rfl | rfl
    · exact hresumed.2
    · exact hresumed.1
  refine ⟨hprocess, h.cancelled_concat nofun, hafter, Seen.concat hcancelled _,
    mem_concat_self .., mark, hmark, won_whenAny ?_ ?_ ?_⟩
  · rw [hprocess, Option.isSome_iff_ne_none, ne_eq, running_iff]
  · rw [hcompleted, List.forall_mem_singleton, List.mem_append, or_iff_right hbefore,
      List.mem_singleton]
  · intro hseen
    refine (seen_concat.mp hseen).elim (fun hbefore' => ?_) And.left
    exact absurd (hbefore'.mem (List.mem_cons_self ..)) hbefore

/-- The call goes on after the cancellation. -/
theorem Told.resume_cancelled {process : Option (Outcome O X)} {cancelled : Bool}
    (h : Told abortAfter events ⟨process, cancelled, .waiting (some .other)⟩)
    (hstep : step abortAfter ⟨process, cancelled, .waiting (some .other)⟩ .resume = some next) :
    Told abortAfter (events ++ [.resume]) next := by
  obtain ⟨hany, hresumed, hseen⟩ := h.placed
  have hprocess := h.process_concat (e := .resume) rfl
  -- `AbortAfter > TimeSpan.Zero`: otherwise the worker stops at once
  by_cases hafter : 0 < abortAfter
  · rw [WorkerStreamWrapper.step, if_pos hafter] at hstep
    cases hdelay : taskDelay abortAfter with
    | outOfRange =>
        rw [hdelay] at hstep
        cases hstep
        exact ⟨hprocess, h.cancelled_concat nofun, Seen.concat hseen _, hafter, hdelay⟩
    -- less than a millisecond: the task of the delay is completed at once
    | completed =>
        rw [hdelay] at hstep
        cases hstep
        have hmark : (Event.resume : Event O X) ∈ (taskDelay abortAfter).mark := by
          rw [hdelay]
          rfl
        exact h.delay hafter hseen hresumed hmark (iff_of_true rfl rfl)
    | timer =>
        rw [hdelay] at hstep
        cases hstep
        have hmark : (Event.elapse : Event O X) ∈ (taskDelay abortAfter).mark := by
          rw [hdelay]
          rfl
        exact h.delay hafter hseen hresumed hmark (iff_of_false Bool.false_ne_true nofun)
  · rw [WorkerStreamWrapper.step, if_neg hafter] at hstep
    cases hstep
    exact ⟨hprocess, h.cancelled_concat nofun, Seen.concat hseen _,
      fun hpositive => absurd hpositive hafter⟩

theorem Told.resume (h : Told abortAfter events s)
    (hstep : step abortAfter s .resume = some next) :
    Told abortAfter (events ++ [.resume]) next := by
  have hplaced := h.placed
  obtain ⟨process, cancelled, phase⟩ := s
  cases phase with
  | waiting task =>
      obtain ⟨hany, hresumed, hwon⟩ := hplaced
      match task, hwon with
      -- the processing was the first to end, and its answer is passed on
      | some .process, ⟨_, hnot⟩ =>
          exact h.answer (fun hovertaken => hnot hovertaken.1) (fun hout => hnot hout.1) hstep
      | some .other, _ => exact h.resume_cancelled hstep
  | delaying task =>
      obtain ⟨hafter, hseen, -, mark, hmark, hwon⟩ := hplaced
      have hmarks {other : Event O X} (hother : other ∈ (taskDelay abortAfter).mark) :
          other = mark := Option.mem_unique hother hmark
      match task, hwon with
      | some .process, ⟨_, hnot⟩ =>
          refine h.answer (fun hovertaken => ?_) (fun hout => ?_) hstep
          · obtain ⟨other, hother, hthere⟩ := hovertaken.2 hafter
            exact hnot (hmarks hother ▸ hthere)
          · rw [hout.2.2] at hmark
            cases hmark
      -- the delay was the first to end
      | some .other, helapsed =>
          cases hstep
          exact ⟨h.process_concat rfl, h.cancelled_concat nofun, Seen.concat hseen _,
            fun _ => ⟨mark, hmark, Seen.concat helapsed _⟩⟩
  | _ => cases hstep

theorem Told.step (h : Told abortAfter events s) (hstep : step abortAfter s e = some next) :
    Told abortAfter (events ++ [e]) next := by
  cases e with
  | start thrown => exact h.start hstep
  | finish outcome => exact h.finish hstep
  | cancel => exact h.cancel hstep
  | elapse => exact h.elapse hstep
  | whenAny => exact h.whenAny hstep
  | resume => exact h.resume hstep

theorem told_of_run (hrun : Machine.run (step abortAfter) init events = some s) :
    Told abortAfter events s :=
  Machine.run_induction told_init (fun _ _ _ _ h hstep => h.step hstep) hrun

end Told

/-! ## What becomes of a call -/

/-- The call has answered, let an exception through or stopped the worker. -/
def Phase.Ended : Phase O X → Prop
  | .answered _ | .outOfRange | .exited => True
  | _ => False

/-- What a call that was started waits for: the end of its processing, or its cancellation and
then, if it is given time that `Task.Delay` counts, the end of that time. -/
def Ready (abortAfter : Int) (events : List (Event O X)) : Prop :=
  events.findSome? Event.outcome? ≠ none ∨
    .cancel ∈ events ∧ (0 < abortAfter → taskDelay abortAfter = .timer → .elapse ∈ events)

/-- The call alone can go on to its end without anything else happening. -/
def State.CanEnd (abortAfter : Int) (s : State O X) : Prop :=
  ∃ steps last, (∀ e ∈ steps, e = .whenAny ∨ e = .resume) ∧
    Machine.run (step abortAfter) s steps = some last ∧ last.phase.Ended

section Ends

variable {abortAfter : Int} {events : List (Event O X)} {s next : State O X} {e : Event O X}

theorem State.CanEnd.of_ended (h : s.phase.Ended) : s.CanEnd abortAfter :=
  ⟨[], s, List.forall_mem_nil _, rfl, h⟩

theorem State.CanEnd.of_step (he : e = .whenAny ∨ e = .resume)
    (hstep : step abortAfter s e = some next) (h : next.CanEnd abortAfter) :
    s.CanEnd abortAfter := by
  obtain ⟨steps, last, hsteps, hrun, hended⟩ := h
  refine ⟨e :: steps, last, List.forall_mem_cons.mpr ⟨he, hsteps⟩, ?_, hended⟩
  rw [Machine.run, hstep]
  exact hrun

/-- A call whose processing has ended first. -/
theorem State.CanEnd.of_answer (hprocess : s.process.isSome = true)
    (hstep : step abortAfter s .resume = s.answer) : s.CanEnd abortAfter := by
  obtain ⟨outcome, houtcome⟩ := Option.isSome_iff_exists.mp hprocess
  refine .of_step (.inr rfl) (hstep.trans ?_)
    (.of_ended (s := { s with phase := .answered outcome }) trivial)
  rw [State.answer, houtcome]
  rfl

/-- At the second `WhenAny`, when one of its tasks is there. -/
theorem Told.canEnd_of_delaying {process : Option (Outcome O X)} {cancelled : Bool}
    {task : Option Winner} (h : Told abortAfter events ⟨process, cancelled, .delaying task⟩)
    (hready : Ready abortAfter events) :
    (⟨process, cancelled, .delaying task⟩ : State O X).CanEnd abortAfter := by
  obtain ⟨hafter, -, hresume, mark, hmark, hwon⟩ := h.placed
  match task, hwon with
  -- none of the two tasks is there: then the call is not ready
  | none, ⟨hrunning, hmarks⟩ =>
      rw [List.forall_mem_singleton] at hmarks
      refine absurd ?_ hmarks
      rcases hready with hended | ⟨-, helapse⟩
      · exact absurd (running_iff.mp hrunning) hended
      · cases hdelay : taskDelay abortAfter with
        | outOfRange =>
            rw [hdelay] at hmark
            cases hmark
        | completed =>
            rw [hdelay] at hmark
            cases hmark
            exact hresume
        | timer =>
            rw [hdelay] at hmark
            cases hmark
            exact helapse hafter hdelay
  | some .process, ⟨hended, _⟩ => exact .of_answer (h.isSome_iff.mpr hended) rfl
  | some .other, _ => exact .of_step (.inr rfl) rfl (.of_ended trivial)

/-- After the cancellation. -/
theorem Told.canEnd_of_cancelled {process : Option (Outcome O X)} {cancelled : Bool}
    (h : Told abortAfter events ⟨process, cancelled, .waiting (some .other)⟩)
    (hready : Ready abortAfter events) :
    (⟨process, cancelled, .waiting (some .other)⟩ : State O X).CanEnd abortAfter := by
  have hready : Ready abortAfter (events ++ [.resume]) := by
    refine hready.imp (fun hended => ?_) fun ⟨hcancel, helapse⟩ => ?_
    · rwa [← h.process_concat rfl, h.process]
    · exact ⟨List.mem_append_left _ hcancel, fun hafter hdelay =>
        List.mem_append_left _ (helapse hafter hdelay)⟩
  have hstep : ∃ next, WorkerStreamWrapper.step abortAfter
      (⟨process, cancelled, .waiting (some .other)⟩ : State O X) .resume = some next ∧
        (next.phase.Ended ∨ ∃ task, next = ⟨process, cancelled, .delaying task⟩) := by
    by_cases hafter : 0 < abortAfter
    · rw [WorkerStreamWrapper.step, if_pos hafter]
      cases taskDelay abortAfter with
      | outOfRange => exact ⟨_, rfl, .inl trivial⟩
      | completed => exact ⟨_, rfl, .inr ⟨_, rfl⟩⟩
      | timer => exact ⟨_, rfl, .inr ⟨_, rfl⟩⟩
    · rw [WorkerStreamWrapper.step, if_neg hafter]
      exact ⟨_, rfl, .inl trivial⟩
  obtain ⟨next, hstep, hended | ⟨task, rfl⟩⟩ := hstep
  · exact .of_step (.inr rfl) hstep (.of_ended hended)
  · exact .of_step (.inr rfl) hstep ((h.step hstep).canEnd_of_delaying hready)

theorem Told.canEnd_of_waiting {process : Option (Outcome O X)} {cancelled : Bool}
    {task : Option Winner} (h : Told abortAfter events ⟨process, cancelled, .waiting task⟩)
    (hready : Ready abortAfter events) :
    (⟨process, cancelled, .waiting task⟩ : State O X).CanEnd abortAfter := by
  obtain ⟨hany, -, hwon⟩ := h.placed
  match task, hwon with
  | none, ⟨hrunning, hmarks⟩ =>
      rw [List.forall_mem_cons, List.forall_mem_singleton] at hmarks
      rcases hready with hended | ⟨hcancel, -⟩
      · exact absurd (running_iff.mp hrunning) hended
      · exact absurd ⟨hany, hcancel⟩ hmarks
  | some .process, ⟨hended, _⟩ => exact .of_answer (h.isSome_iff.mpr hended) rfl
  | some .other, _ => exact h.canEnd_of_cancelled hready

theorem Told.canEnd (h : Told abortAfter events s) (hstarted : s.phase ≠ .idle)
    (hready : Ready abortAfter events) : s.CanEnd abortAfter := by
  obtain ⟨process, cancelled, phase⟩ := s
  cases phase with
  | idle => exact absurd rfl hstarted
  | started =>
      have hnext : Told abortAfter (events ++ [.whenAny])
          ⟨process, cancelled, .waiting (WorkerStreamWrapper.whenAny process cancelled)⟩ :=
        h.step rfl
      refine .of_step (.inl rfl) rfl (hnext.canEnd_of_waiting ?_)
      refine hready.imp (fun hended => ?_) fun ⟨hcancel, helapse⟩ => ?_
      · rwa [← h.process_concat rfl, h.process]
      · exact ⟨List.mem_append_left _ hcancel, fun hafter hdelay =>
          List.mem_append_left _ (helapse hafter hdelay)⟩
  | waiting task => exact h.canEnd_of_waiting hready
  | delaying task => exact h.canEnd_of_delaying hready
  | answered outcome => exact .of_ended trivial
  | outOfRange => exact .of_ended trivial
  | exited => exact .of_ended trivial

/-- A call that has ended had what it waits for. -/
theorem Told.ready (h : Told abortAfter events s) (hended : s.phase.Ended) :
    Ready abortAfter events := by
  obtain ⟨process, cancelled, phase⟩ := s
  cases phase with
  | answered outcome =>
      left
      rw [h.placed.1]
      exact nofun
  | outOfRange =>
      obtain ⟨hcancelled, -, hdelay⟩ := h.placed
      refine .inr ⟨Seen.mem hcancelled (by simp), fun _ htimer => ?_⟩
      cases hdelay.symm.trans htimer
  | exited =>
      obtain ⟨hcancelled, helapsed⟩ := h.placed
      refine .inr ⟨Seen.mem hcancelled (by simp), fun hafter htimer => ?_⟩
      obtain ⟨mark, hmark, hseen⟩ := helapsed hafter
      rw [htimer] at hmark
      cases hmark
      exact hseen.mem (List.mem_cons_self ..)
  | _ => cases hended

/-- What the call does by itself changes nothing of what it waits for. -/
theorem Ready.of_append {steps : List (Event O X)}
    (hsteps : ∀ e ∈ steps, e = .whenAny ∨ e = .resume)
    (h : Ready abortAfter (events ++ steps)) : Ready abortAfter events := by
  have hbefore : ∀ mark, mark ≠ Event.whenAny → mark ≠ .resume → mark ∈ events ++ steps →
      mark ∈ events := by
    intro mark hany hresume hmark
    refine (List.mem_append.mp hmark).resolve_right fun hnew => ?_
    exact (hsteps mark hnew).elim hany hresume
  refine h.imp (fun hended hrunning => hended ?_) fun ⟨hcancel, helapse⟩ => ?_
  · have hall : Running (events ++ steps) := by
      refine List.forall_mem_append.mpr ⟨running_iff.mpr hrunning, fun e he => ?_⟩
      rcases hsteps e he with rfl | rfl <;> rfl
    exact running_iff.mp hall
  · exact ⟨hbefore _ nofun nofun hcancel, fun hafter hdelay =>
      hbefore _ nofun nofun (helapse hafter hdelay)⟩

theorem exits_eq_true_iff : s.exits = true ↔ s.phase = .exited := by
  unfold State.exits
  split
  · rename_i hphase
    exact iff_of_true rfl hphase
  · rename_i hphase
    exact iff_of_false Bool.false_ne_true hphase

/-- A call that has stopped the worker does not go on. -/
theorem step_of_exits (s : State O X) (e : Event O X) (h : s.exits = true) :
    step abortAfter s e = none := by
  obtain ⟨process, cancelled, phase⟩ := s
  obtain rfl := exits_eq_true_iff.mp h
  cases e with
  | finish outcome => exact ite_self none
  | _ => rfl

end Ends

/-! ## The calls of a worker -/

section Worker

variable {K : Type} [DecidableEq K] (abortAfter : Int) (events : List (K × Event O X))
  {last : Machine.Parallel K (State O X)}

open Machine.Parallel (own)

/-- The worker is stopped by a call that was overtaken, and by no other.  A call whose time is out
of range lets the exception of `Task.Delay` through, and every other call that ends answers with
what its own processing came to. -/
theorem process_ends
    (hrun : Machine.run (Machine.Parallel.step (step abortAfter) State.exits) (.init init) events =
      some last) :
    (last.stopped = true ↔ ∃ call, (last.parts call).phase = .exited) ∧
      ∀ call, (last.parts call).phase.Ended →
        ((last.parts call).phase = .exited ↔ Overtaken abortAfter (own call events)) ∧
        ((last.parts call).phase = .outOfRange ↔ OutOfRange abortAfter (own call events)) ∧
        ∀ outcome, (last.parts call).phase = .answered outcome ↔
          (own call events).findSome? Event.outcome? = some outcome ∧
            ¬Overtaken abortAfter (own call events) ∧ ¬OutOfRange abortAfter (own call events) := by
  constructor
  · rw [Machine.Parallel.stopped_iff rfl hrun]
    exact exists_congr fun call => exits_eq_true_iff
  · intro call hended
    have hplaced := (told_of_run (Machine.Parallel.run_part hrun call)).placed
    -- the phases that are ends exclude each other
    cases hphase : (last.parts call).phase with
    | answered found =>
        rw [hphase] at hplaced
        obtain ⟨hfound, hnot, hin⟩ := hplaced
        refine ⟨iff_of_false nofun hnot, iff_of_false nofun hin, fun outcome => ?_⟩
        rw [hfound, and_iff_left ⟨hnot, hin⟩, Phase.answered.injEq, Option.some.injEq]
    | outOfRange =>
        rw [hphase] at hplaced
        exact ⟨iff_of_false nofun fun h => h.not_outOfRange hplaced, iff_of_true rfl hplaced,
          fun outcome => iff_of_false nofun fun h => h.2.2 hplaced⟩
    | exited =>
        rw [hphase] at hplaced
        exact ⟨iff_of_true rfl hplaced, iff_of_false nofun (Overtaken.not_outOfRange hplaced),
          fun outcome => iff_of_false nofun fun h => h.2.1 hplaced⟩
    | _ =>
        rw [hphase] at hended
        cases hended

/-- A call is cancelled, and its processing ends before the call goes on. -/
def twoCalls : List (Bool × Event ℕ String) :=
  [(true, .start none), (false, .start none), (true, .whenAny), (false, .whenAny),
    (false, .finish (.output 7)), (true, .cancel), (true, .finish (.output 5)), (false, .resume),
    (true, .resume)]

theorem process_ends_twoCalls :
    ∃ last, Machine.run (Machine.Parallel.step (step 0) State.exits) (.init init) twoCalls =
        some last ∧ last.stopped = true ∧ (last.parts false).phase = .answered (.output 7) ∧
      Overtaken 0 (own true twoCalls) := by
  have hends := process_ends 0 twoCalls rfl
  exact ⟨_, rfl, rfl, rfl, (hends.2 true trivial).1.mp rfl⟩

/-- The call can go on to its end in the worker, without anything else happening there. -/
def CanEnd (all : Machine.Parallel K (State O X)) (call : K) : Prop :=
  ∃ (steps : List (Event O X)) (last : Machine.Parallel K (State O X)),
    (∀ e ∈ steps, e = .whenAny ∨ e = .resume) ∧
    Machine.run (Machine.Parallel.step (step abortAfter) State.exits) all
      (steps.map fun e => (call, e)) = some last ∧ (last.parts call).phase.Ended

theorem canEnd_iff (all : Machine.Parallel K (State O X)) (call : K) :
    CanEnd abortAfter all call ↔
      (all.parts call).phase.Ended ∨
        all.stopped = false ∧ (all.parts call).CanEnd abortAfter := by
  constructor
  · rintro ⟨steps, last, hsteps, hrun, hended⟩
    cases hstopped : all.stopped with
    | true =>
        obtain rfl := List.map_eq_nil_iff.mp (Machine.Parallel.eq_nil_of_stopped hstopped hrun)
        obtain rfl := Option.some.inj hrun
        exact .inl hended
    | false =>
        have halone := Machine.Parallel.run_part_from hrun call
        rw [Machine.Parallel.own_map] at halone
        exact .inr ⟨rfl, steps, _, hsteps, halone, hended⟩
  · rintro (hended | ⟨hgoing, steps, part, hsteps, hrun, hended⟩)
    · exact ⟨[], all, List.forall_mem_nil _, rfl, hended⟩
    · obtain ⟨last, hlast, rfl⟩ := Machine.Parallel.exists_run_of_run step_of_exits hgoing hrun
      exact ⟨steps, last, hsteps, hlast, hended⟩

/-- A call that has started can go on to its end just when it is there, or nothing has stopped the
worker and the call has what it waits for. -/
theorem process_canEnd_iff
    (hrun : Machine.run (Machine.Parallel.step (step abortAfter) State.exits) (.init init) events =
      some last) (call : K) (hstarted : (last.parts call).phase ≠ .idle) :
    CanEnd abortAfter last call ↔
      (last.parts call).phase.Ended ∨
        last.stopped = false ∧ Ready abortAfter (own call events) := by
  have halone := Machine.Parallel.run_part hrun call
  rw [canEnd_iff]
  refine or_congr_right (and_congr_right fun _ => ⟨?_, (told_of_run halone).canEnd hstarted⟩)
  rintro ⟨steps, ended, hsteps, hrest, hended⟩
  have hall : Machine.run (step abortAfter) init (own call events ++ steps) = some ended := by
    rw [Machine.run_append, halone]
    exact hrest
  exact ((told_of_run hall).ready hended).of_append hsteps

/-- A call that is cancelled, in a worker that gives it a second. -/
def cancelledCall : List (Unit × Event ℕ String) := [((), .start none), ((), .cancel)]

/-- A call stops the worker while the processing of another one has ended. -/
def stoppedCall : List (Bool × Event ℕ String) :=
  [(true, .start none), (false, .start none), (true, .whenAny), (true, .cancel),
    (false, .finish (.output 7)), (true, .resume)]

theorem process_canEnd_iff_cancelledCall :
    (∃ last, Machine.run (Machine.Parallel.step (step 10000000) State.exits) (.init init)
        cancelledCall = some last ∧ ¬CanEnd 10000000 last ()) ∧
      ∃ last, Machine.run (Machine.Parallel.step (step 0) State.exits) (.init init)
        stoppedCall = some last ∧ ¬CanEnd 0 last false := by
  have hcancelled := process_canEnd_iff 10000000 cancelledCall rfl () nofun
  have hstopped := process_canEnd_iff 0 stoppedCall rfl false nofun
  refine ⟨⟨_, rfl, hcancelled.not.mpr ?_⟩, ⟨_, rfl, hstopped.not.mpr ?_⟩⟩
  · rintro (hended | ⟨-, hended | ⟨-, helapse⟩⟩)
    · exact hended
    · exact hended rfl
    · exact absurd (helapse (by decide) (by decide)) (by decide)
  · rintro (hended | ⟨hgoing, -⟩)
    · exact hended
    · cases hgoing

end Worker

end ArmoniKApi.CSharp.WorkerStreamWrapper
