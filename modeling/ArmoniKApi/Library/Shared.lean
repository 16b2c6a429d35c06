import ArmoniKApi.Library.Machine
import Mathlib.Data.List.Nodup
import Mathlib.Data.List.Perm.Subperm
import Mathlib.Logic.Function.Basic

/-!
# Calls that share cells

Several calls run at the same time on the same cells.  A call is a program that reads one cell
or updates one cell at a time, and decides by what it has read how to go on.  The machine does
one of these operations of one call after another, in any order.

* `cells_eq`: a cell holds what the updates so far have made of it, whoever did them.
* `exists_along`: a call goes along its program.  What it reads is what the cell held at that
  moment, and between its operations the others may do anything.
* `Along.of_bind`, `Along.of_forEach_cons`: going along programs that are put together.

The obstacle is that a call is not alone between two of its operations, so that no statement
can be made about the cells while it runs.  Two views of a run are kept, and joined at the end:

* the cells.  Their values are told by the history of updates, in the order in which they
  were done (`cells_eq`), whatever the programs are;
* one call.  `Along` relates two moments of the history and two states of its program: from
  the one moment to the other, the call did the operations that lead from the one program to
  the other, and each value that it read was the value at that moment.

`exists_along` joins them: in every run, a call that has started has gone along its program
since.  The induction is over the run from the back.  An event of another call leaves the
program as it is and makes the last gap longer; an event of the call itself is the operation
that its program has next.

From there on no machine is needed.  `Along.of_bind` and `Along.of_forEach_cons` take a
program apart as it was put together, `ReadInTurn` collects the values that a loop read with
the moments at which it read them, and `Along.updates` says what a call can have done.

The last section counts.  `Once` says of a kind of requests that their program does one
operation on a cell and that nobody else does it.  `Tracked` is the invariant for counting:
the calls of the kind that have started, those that have done the operation, and the programs
of all others out of the way.  Each event is one of three cases (`Tracked.aside`,
`Tracked.enter`, `Tracked.pass`), and at the end there are as many operations as calls that
have got past it.
-/

namespace Shared

variable {C K O V Q R A B : Type}

/-! ## Programs -/

/-- What a call does with the cells, and what it returns. -/
inductive Program (K O V R : Type)
  | done (result : R)
  | read (key : K) (next : V → Program K O V R)
  | update (key : K) (operation : O) (next : Program K O V R)

namespace Program

/-- The steps of one program, and then those of the program that its result asks for. -/
def bind : Program K O V A → (A → Program K O V B) → Program K O V B
  | done result, f => f result
  | read key next, f => read key fun value => (next value).bind f
  | update key operation next, f => update key operation (next.bind f)

/-- A loop that collects what its turns return. -/
def forEach (turn : A → Program K O V B) : List A → Program K O V (List B)
  | [] => done []
  | item :: rest => (turn item).bind fun result =>
      (forEach turn rest).bind fun results => done (result :: results)

/-- The updates that are left to do satisfy the property. -/
def Updates (P : K → O → Prop) : Program K O V R → Prop
  | done _ => True
  | read _ next => ∀ value, (next value).Updates P
  | update key operation next => P key operation ∧ next.Updates P

theorem Updates.bind {P : K → O → Prop} {first : Program K O V A} {second : A → Program K O V B}
    (hfirst : first.Updates P) (hsecond : ∀ result, (second result).Updates P) :
    (first.bind second).Updates P := by
  induction first with
  | done result => exact hsecond result
  | read key next ih => exact fun value => ih value (hfirst value)
  | update key operation next ih => exact ⟨hfirst.1, ih hfirst.2⟩

theorem Updates.forEach {P : K → O → Prop} {turn : A → Program K O V B}
    (hturn : ∀ item, (turn item).Updates P) (items : List A) : (forEach turn items).Updates P := by
  induction items with
  | nil => trivial
  | cons item items ih => exact (hturn item).bind fun _ => ih.bind fun _ => trivial

end Program

/-! ## Events -/

/-- A call starts, or does one operation. -/
inductive Event (C K O Q : Type)
  | call (caller : C) (request : Q)
  | read (caller : C) (key : K)
  | update (caller : C) (key : K) (operation : O)

/-- Whose event it is. -/
def Event.caller : Event C K O Q → C
  | call caller _ => caller
  | read caller _ => caller
  | update caller _ _ => caller

/-- The call that starts with such a request. -/
def Event.starter? (isSuch : Q → Bool) : Event C K O Q → Option C
  | call caller request => if isSuch request then some caller else none
  | _ => none

theorem exists_call_of_starter? {isSuch : Q → Bool} {events : List (Event C K O Q)} {caller : C}
    (h : caller ∈ events.filterMap (Event.starter? isSuch)) :
    ∃ request, isSuch request = true ∧ .call caller request ∈ events := by
  obtain ⟨e, he, hstarter⟩ := List.mem_filterMap.mp h
  match e, he, hstarter with
  | .call other request, he, hstarter =>
      rw [Event.starter?, Option.ite_none_right_eq_some] at hstarter
      obtain ⟨hsuch, hother⟩ := hstarter
      obtain rfl := Option.some.inj hother
      exact ⟨request, hsuch, he⟩

/-- The call that does the operation on the cell. -/
def Event.updater? [DecidableEq K] [DecidableEq O] (key : K) (operation : O) :
    Event C K O Q → Option C
  | update caller updated done => if updated = key ∧ done = operation then some caller else none
  | _ => none

/-! ## Going along a program -/

/-- Nothing in the events is done by the call. -/
def Quiet (caller : C) (events : List (Event C K O Q)) : Prop :=
  ∀ e ∈ events, e.caller ≠ caller

/-- From one history to a later one the call goes from a program to what is left of it, where
`value` tells what the cells hold after a history. -/
inductive Along (value : List (Event C K O Q) → K → V) (caller : C) :
    List (Event C K O Q) → List (Event C K O Q) → Program K O V R → Program K O V R → Prop
  | stay {history gap : List (Event C K O Q)} {program : Program K O V R}
      (hgap : Quiet caller gap) : Along value caller history (history ++ gap) program program
  | read {history gap later : List (Event C K O Q)} {key : K} {next : V → Program K O V R}
      {left : Program K O V R} (hgap : Quiet caller gap)
      (hrest : Along value caller (history ++ gap ++ [.read caller key]) later
        (next (value (history ++ gap) key)) left) :
      Along value caller history later (.read key next) left
  | update {history gap later : List (Event C K O Q)} {key : K} {operation : O}
      {next left : Program K O V R} (hgap : Quiet caller gap)
      (hrest : Along value caller (history ++ gap ++ [.update caller key operation]) later next
        left) :
      Along value caller history later (.update key operation next) left

section Along

variable {value : List (Event C K O Q) → K → V} {caller : C}
  {history middle later gap : List (Event C K O Q)} {program left rest : Program K O V R}

theorem Quiet.append {gap rest : List (Event C K O Q)} (hgap : Quiet caller gap)
    (hrest : Quiet caller rest) : Quiet caller (gap ++ rest) :=
  List.forall_mem_append.mpr ⟨hgap, hrest⟩

theorem quiet_nil : Quiet caller ([] : List (Event C K O Q)) := List.forall_mem_nil _

theorem Along.refl (value : List (Event C K O Q) → K → V) (caller : C)
    (history : List (Event C K O Q)) (program : Program K O V R) :
    Along value caller history history program program := by
  have hstay : Along value caller history (history ++ []) program program := .stay quiet_nil
  rwa [List.append_nil] at hstay

theorem Along.prefix (h : Along value caller history later program left) : history <+: later := by
  induction h with
  | stay hgap => exact List.prefix_append ..
  | read hgap hrest ih =>
      rw [List.append_assoc] at ih
      exact (List.prefix_append ..).trans ih
  | update hgap hrest ih =>
      rw [List.append_assoc] at ih
      exact (List.prefix_append ..).trans ih

/-- The call may start later. -/
theorem Along.after_gap (hgap : Quiet caller gap)
    (h : Along value caller (history ++ gap) later program left) :
    Along value caller history later program left := by
  cases h with
  | stay hmore =>
      rw [List.append_assoc]
      exact .stay (hgap.append hmore)
  | read hmore hrest =>
      rw [List.append_assoc history gap] at hrest
      exact .read (hgap.append hmore) hrest
  | update hmore hrest =>
      rw [List.append_assoc history gap] at hrest
      exact .update (hgap.append hmore) hrest

theorem Along.trans (h : Along value caller history middle program rest)
    (hrest : Along value caller middle later rest left) :
    Along value caller history later program left := by
  induction h with
  | stay hgap => exact hrest.after_gap hgap
  | read hgap _ ih => exact .read hgap (ih hrest)
  | update hgap _ ih => exact .update hgap (ih hrest)

/-- A call that has returned has done so with one result. -/
theorem Along.of_done {result returned : R}
    (h : Along value caller history later (.done result) (.done returned)) :
    result = returned ∧ ∃ gap, Quiet caller gap ∧ later = history ++ gap := by
  cases h with
  | stay hgap => exact ⟨rfl, _, hgap, rfl⟩

theorem Along.of_update {key : K} {operation : O} {result : R}
    (h : Along value caller history later (.update key operation program) (.done result)) :
    ∃ gap, Quiet caller gap ∧
      Along value caller (history ++ gap ++ [.update caller key operation]) later program
        (.done result) := by
  cases h with
  | update hgap hrest => exact ⟨_, hgap, hrest⟩

theorem Along.of_read {key : K} {next : V → Program K O V R} {result : R}
    (h : Along value caller history later (.read key next) (.done result)) :
    ∃ gap, Quiet caller gap ∧
      Along value caller (history ++ gap ++ [.read caller key]) later
        (next (value (history ++ gap) key)) (.done result) := by
  cases h with
  | read hgap hrest => exact ⟨_, hgap, hrest⟩

/-- One program is gone along to its end, and then the other. -/
theorem Along.of_bind {first : Program K O V A} {second : A → Program K O V B} {result : B}
    (h : Along value caller history later (first.bind second) (.done result)) :
    ∃ middle between, Along value caller history middle first (.done between) ∧
      Along value caller middle later (second between) (.done result) := by
  induction first generalizing history with
  | done between => exact ⟨history, between, .refl .., h⟩
  | read key next ih =>
      obtain ⟨gap, hgap, hrest⟩ := h.of_read
      obtain ⟨middle, between, hfirst, hsecond⟩ := ih _ hrest
      exact ⟨middle, between, .read hgap hfirst, hsecond⟩
  | update key operation next ih =>
      obtain ⟨gap, hgap, hrest⟩ := h.of_update
      obtain ⟨middle, between, hfirst, hsecond⟩ := ih hrest
      exact ⟨middle, between, .update hgap hfirst, hsecond⟩

/-- A loop is gone along turn after turn. -/
theorem Along.of_forEach_cons {turn : A → Program K O V B} {item : A} {items : List A}
    {results : List B}
    (h : Along value caller history later (.forEach turn (item :: items)) (.done results)) :
    ∃ middle result others, results = result :: others ∧
      Along value caller history middle (turn item) (.done result) ∧
      Along value caller middle later (.forEach turn items) (.done others) := by
  obtain ⟨middle, result, hturn, hloop⟩ := h.of_bind
  obtain ⟨atEnd, others, hothers, hdone⟩ := hloop.of_bind
  obtain ⟨rfl, gap, hgap, rfl⟩ := hdone.of_done
  exact ⟨middle, result, others, rfl, hturn, hothers.trans (.stay hgap)⟩

/-- Every turn of a loop is gone along at some time. -/
theorem Along.exists_turn {turn : A → Program K O V B} {items : List A} {results : List B}
    (h : Along value caller history later (.forEach turn items) (.done results)) {item : A}
    (hitem : item ∈ items) :
    ∃ before after result, history <+: before ∧ after <+: later ∧
      Along value caller before after (turn item) (.done result) := by
  induction items generalizing history results with
  | nil => exact absurd hitem List.not_mem_nil
  | cons head items ih =>
      obtain ⟨middle, result, others, -, hturn, hloop⟩ := h.of_forEach_cons
      cases hitem with
      | head => exact ⟨history, middle, result, List.prefix_rfl, hloop.prefix, hturn⟩
      | tail _ hitem =>
          obtain ⟨before, after, made, hbefore, hafter, hmade⟩ := ih hloop hitem
          exact ⟨before, after, made, hturn.prefix.trans hbefore, hafter, hmade⟩

/-- An event is a read of the call, or an update that satisfies the property. -/
def Event.Within (P : K → O → Prop) : Event C K O Q → Prop
  | call _ _ => False
  | read _ _ => True
  | update _ key operation => P key operation

/-- What a call does while it goes along its program, the program has it do. -/
theorem Along.updates {P : K → O → Prop} (h : Along value caller history later program left)
    (hprogram : program.Updates P) :
    left.Updates P ∧ ∃ during, later = history ++ during ∧
      ∀ e ∈ during, e.caller = caller → e.Within P := by
  induction h with
  | stay hgap => exact ⟨hprogram, _, rfl, fun e he hcaller => absurd hcaller (hgap e he)⟩
  -- the gap before the read holds events of others only
  | read hgap hrest ih =>
      obtain ⟨hleft, during, hlater, hduring⟩ := ih (hprogram _)
      rw [List.append_assoc, List.append_assoc, List.singleton_append] at hlater
      refine ⟨hleft, _, hlater, fun e he hcaller => ?_⟩
      rcases List.mem_append.mp he with he | he
      · exact absurd hcaller (hgap e he)
      · cases he with
        | head => trivial
        | tail _ he => exact hduring e he hcaller
  | update hgap hrest ih =>
      obtain ⟨hleft, during, hlater, hduring⟩ := ih hprogram.2
      rw [List.append_assoc, List.append_assoc, List.singleton_append] at hlater
      refine ⟨hleft, _, hlater, fun e he hcaller => ?_⟩
      rcases List.mem_append.mp he with he | he
      · exact absurd hcaller (hgap e he)
      · cases he with
        | head => exact hprogram.1
        | tail _ he => exact hduring e he hcaller

end Along

/-! ## Reading cells in turn -/

/-- The cells were read one after another, between two histories. -/
inductive ReadInTurn (value : List (Event C K O Q) → K → V) :
    List (Event C K O Q) → List (K × V) → List (Event C K O Q) → Prop
  | nil {history later : List (Event C K O Q)} (hle : history <+: later) :
      ReadInTurn value history [] later
  | cons {history moment later : List (Event C K O Q)} {key : K} {rest : List (K × V)}
      (hle : history <+: moment) (hrest : ReadInTurn value moment rest later) :
      ReadInTurn value history ((key, value moment key) :: rest) later

section ReadInTurn

variable {value : List (Event C K O Q) → K → V} {history middle later : List (Event C K O Q)}
  {first second : List (K × V)}

theorem ReadInTurn.prefix (h : ReadInTurn value history first later) : history <+: later := by
  induction h with
  | nil hle => exact hle
  | cons hle _ ih => exact hle.trans ih

theorem ReadInTurn.of_prefix (hle : history <+: middle)
    (h : ReadInTurn value middle first later) : ReadInTurn value history first later := by
  cases h with
  | nil hmore => exact .nil (hle.trans hmore)
  | cons hmore hrest => exact .cons (hle.trans hmore) hrest

theorem ReadInTurn.to_prefix (h : ReadInTurn value history first middle) (hle : middle <+: later) :
    ReadInTurn value history first later := by
  induction h with
  | nil hmore => exact .nil (hmore.trans hle)
  | cons hmore _ ih => exact .cons hmore (ih hle)

theorem ReadInTurn.append (hfirst : ReadInTurn value history first middle)
    (hsecond : ReadInTurn value middle second later) :
    ReadInTurn value history (first ++ second) later := by
  induction hfirst with
  | nil hle => exact hsecond.of_prefix hle
  | cons hle _ ih => exact .cons hle (ih hsecond)

theorem ReadInTurn.exists_moment (h : ReadInTurn value history first later) {key : K} {result : V}
    (hmem : (key, result) ∈ first) :
    ∃ moment, history <+: moment ∧ moment <+: later ∧ result = value moment key := by
  induction h with
  | nil => exact absurd hmem List.not_mem_nil
  | cons hle hrest ih =>
      cases hmem with
      | head => exact ⟨_, hle, hrest.prefix, rfl⟩
      | tail _ hmem =>
          obtain ⟨moment, hmoment, hlater, hresult⟩ := ih hmem
          exact ⟨moment, hle.trans hmoment, hlater, hresult⟩

/-- A loop whose turns read cells in turn does so too. -/
theorem ReadInTurn.of_forEach {caller : C} {turn : A → Program K O V B} {entries : B → List (K × V)}
    {IsFor : A → B → Prop}
    (hturn : ∀ item history later result,
      Along value caller history later (turn item) (.done result) →
        ReadInTurn value history (entries result) later ∧ IsFor item result)
    {items : List A} {results : List B}
    (h : Along value caller history later (.forEach turn items) (.done results)) :
    ReadInTurn value history (results.flatMap entries) later ∧
      List.Forall₂ IsFor items results := by
  induction items generalizing history results with
  | nil =>
      obtain ⟨rfl, gap, -, rfl⟩ := h.of_done
      exact ⟨.nil (List.prefix_append ..), .nil⟩
  | cons item items ih =>
      obtain ⟨middle, result, others, rfl, hitem, hloop⟩ := h.of_forEach_cons
      obtain ⟨hread, hisFor⟩ := hturn _ _ _ _ hitem
      obtain ⟨hreads, hareFor⟩ := ih hloop
      rw [List.flatMap_cons]
      exact ⟨hread.append hreads, .cons hisFor hareFor⟩

end ReadInTurn

/-! ## What the history tells -/

section Held

variable [DecidableEq K]

/-- What an event makes of the value of a cell. -/
def Event.after (apply : O → V → V) (key : K) (value : V) : Event C K O Q → V
  | .update _ updated operation => if updated = key then apply operation value else value
  | _ => value

section After

variable (apply : O → V → V) (key : K) (value : V) (caller : C)

theorem after_call (request : Q) :
    (Event.call caller request : Event C K O Q).after apply key value = value := rfl

theorem after_read (other : K) :
    (Event.read caller other : Event C K O Q).after apply key value = value := rfl

theorem after_update (updated : K) (operation : O) :
    (Event.update caller updated operation : Event C K O Q).after apply key value =
      if updated = key then apply operation value else value := rfl

end After

/-- What the events make of the cells. -/
def held (apply : O → V → V) (start : K → V) (events : List (Event C K O Q)) (key : K) : V :=
  events.foldl (Event.after apply key) (start key)

theorem held_concat (apply : O → V → V) (start : K → V) (events : List (Event C K O Q))
    (e : Event C K O Q) (key : K) :
    held apply start (events ++ [e]) key = e.after apply key (held apply start events key) := by
  rw [held, List.foldl_append]
  rfl

end Held

/-! ## The machine -/

/-- The cells, and what is left to do of the calls that have started. -/
structure State (C K O V R : Type) where
  cells : K → V
  programs : C → Option (Program K O V R)

/-- The values at the start, and no programs. -/
def init (start : K → V) : State C K O V R := ⟨start, fun _ => none⟩

section Machine

variable [DecidableEq C]

/-- A call goes on with the program. -/
def State.goOn (s : State C K O V R) (caller : C) (program : Program K O V R) : State C K O V R :=
  { s with programs := Function.update s.programs caller (some program) }

theorem goOn_programs_self (s : State C K O V R) (caller : C) (program : Program K O V R) :
    (s.goOn caller program).programs caller = some program :=
  Function.update_self ..

theorem goOn_programs_of_ne (s : State C K O V R) {caller other : C} (hother : other ≠ caller)
    (program : Program K O V R) : (s.goOn caller program).programs other = s.programs other :=
  Function.update_of_ne hother ..

variable [DecidableEq K] [DecidableEq O]

/-- One event, where `apply` is what an operation makes of a value and `body` the program of a
request.  A call does the operation that its program has next. -/
def step (apply : O → V → V) (body : Q → Program K O V R) (s : State C K O V R) :
    Event C K O Q → Option (State C K O V R)
  | .call caller request =>
      match s.programs caller with
      | none => some (s.goOn caller (body request))
      | some _ => none
  | .read caller key =>
      match s.programs caller with
      | some (.read nextKey next) =>
          if nextKey = key then some (s.goOn caller (next (s.cells key))) else none
      | _ => none
  | .update caller key operation =>
      match s.programs caller with
      | some (.update nextKey nextOperation next) =>
          if nextKey = key ∧ nextOperation = operation then
            some (State.goOn { s with
              cells := Function.update s.cells key (apply operation (s.cells key)) } caller next)
          else none
      | _ => none

section Step

variable {apply : O → V → V} {body : Q → Program K O V R} {s next : State C K O V R}
  {caller : C} {request : Q} {key : K} {operation : O}

theorem step_call (hstep : step apply body s (.call caller request) = some next) :
    s.programs caller = none ∧ next = s.goOn caller (body request) := by
  simp only [step] at hstep
  split at hstep
  · rename_i hnone
    exact ⟨hnone, (Option.some.inj hstep).symm⟩
  · cases hstep

theorem step_read (hstep : step apply body s (.read caller key) = some next) :
    ∃ rest, s.programs caller = some (.read key rest) ∧
      next = s.goOn caller (rest (s.cells key)) := by
  simp only [step] at hstep
  split at hstep
  · rename_i nextKey rest hprogram
    rw [Option.ite_none_right_eq_some] at hstep
    obtain ⟨rfl, hnext⟩ := hstep
    exact ⟨rest, hprogram, (Option.some.inj hnext).symm⟩
  · cases hstep

theorem step_update (hstep : step apply body s (.update caller key operation) = some next) :
    ∃ rest, s.programs caller = some (.update key operation rest) ∧
      next = State.goOn { s with
        cells := Function.update s.cells key (apply operation (s.cells key)) } caller rest := by
  simp only [step] at hstep
  split at hstep
  · rename_i nextKey nextOperation rest hprogram
    rw [Option.ite_none_right_eq_some] at hstep
    obtain ⟨⟨rfl, rfl⟩, hnext⟩ := hstep
    exact ⟨rest, hprogram, (Option.some.inj hnext).symm⟩
  · cases hstep

/-- A call is only gone on with by its own events. -/
theorem programs_of_ne {e : Event C K O Q} (hstep : step apply body s e = some next) {other : C}
    (hother : e.caller ≠ other) : next.programs other = s.programs other := by
  cases e with
  | call caller request =>
      obtain ⟨-, rfl⟩ := step_call hstep
      exact goOn_programs_of_ne s hother.symm _
  | read caller key =>
      obtain ⟨rest, -, rfl⟩ := step_read hstep
      exact goOn_programs_of_ne s hother.symm _
  | update caller key operation =>
      obtain ⟨rest, -, rfl⟩ := step_update hstep
      exact goOn_programs_of_ne _ hother.symm _

theorem cells_of_step {e : Event C K O Q} (hstep : step apply body s e = some next) (key : K) :
    next.cells key = e.after apply key (s.cells key) := by
  cases e with
  | call caller request =>
      obtain ⟨-, rfl⟩ := step_call hstep
      rfl
  | read caller key =>
      obtain ⟨rest, -, rfl⟩ := step_read hstep
      rfl
  | update caller updated operation =>
      obtain ⟨rest, -, rfl⟩ := step_update hstep
      change Function.update s.cells updated _ key = _
      rw [Event.after]
      split
      · rename_i hkey
        rw [hkey, Function.update_self]
      · rename_i hkey
        exact Function.update_of_ne (Ne.symm hkey) ..

end Step

/-! ## Runs -/

section Runs

variable {apply : O → V → V} {body : Q → Program K O V R} {start : K → V}
  {s next last : State C K O V R} {events : List (Event C K O Q)} {e : Event C K O Q}

/-- The cells are told by the history. -/
theorem cells_eq (hrun : Machine.run (step apply body) (init start) events = some last) :
    last.cells = held apply start events := by
  refine Machine.run_induction (P := fun events last => last.cells = held apply start events)
    rfl ?_ hrun
  intro events mid e next hmid hstep
  funext key
  rw [held_concat, cells_of_step hstep, hmid]

/-- A call goes on along its program when something happens. -/
theorem Along.step {caller : C} {history : List (Event C K O Q)} {program left : Program K O V R}
    (h : Along (held apply start) caller history events program left)
    (hleft : s.programs caller = some left) (hcells : s.cells = held apply start events)
    (hstep : step apply body s e = some next) :
    ∃ further, next.programs caller = some further ∧
      Along (held apply start) caller history (events ++ [e]) program further := by
  -- an event of another caller leaves the program as it is
  by_cases hcaller : e.caller = caller
  · cases e with
    | call other request =>
        obtain ⟨hnone, -⟩ := step_call hstep
        obtain rfl : other = caller := hcaller
        cases hnone.symm.trans hleft
    | read other key =>
        obtain ⟨rest, hprogram, rfl⟩ := step_read hstep
        obtain rfl : other = caller := hcaller
        cases hleft.symm.trans hprogram
        refine ⟨_, goOn_programs_self .., h.trans (.read quiet_nil ?_)⟩
        rw [List.append_nil, hcells]
        exact .refl ..
    | update other key operation =>
        obtain ⟨rest, hprogram, rfl⟩ := step_update hstep
        obtain rfl : other = caller := hcaller
        cases hleft.symm.trans hprogram
        refine ⟨_, goOn_programs_self .., h.trans (.update quiet_nil ?_)⟩
        rw [List.append_nil]
        exact .refl ..
  · refine ⟨left, (programs_of_ne hstep hcaller).trans hleft, h.trans (.stay ?_)⟩
    exact List.forall_mem_singleton.mpr hcaller

/-- A call that has started goes along its program. -/
theorem exists_along {caller : C} {request : Q} {before during : List (Event C K O Q)}
    (hrun : Machine.run (step apply body) (init start) (before ++ .call caller request :: during) =
      some last) :
    ∃ left, last.programs caller = some left ∧
      Along (held apply start) caller (before ++ [.call caller request])
        (before ++ .call caller request :: during) (body request) left := by
  have hsplit : before ++ Event.call caller request :: during =
      before ++ [.call caller request] ++ during := by
    rw [List.append_assoc, List.singleton_append]
  rw [hsplit] at hrun ⊢
  rw [Machine.run_append, Option.bind_eq_some_iff] at hrun
  obtain ⟨called, hcalled, hduring⟩ := hrun
  have hprogram : called.programs caller = some (body request) := by
    obtain ⟨mid, -, hcall⟩ := Machine.run_concat_eq_some_iff.mp hcalled
    obtain ⟨-, rfl⟩ := step_call hcall
    exact goOn_programs_self ..
  -- the cells are known all along, so that a read finds what is held
  refine (Machine.run_induction (P := fun events last => last.cells = held apply start
      (before ++ [.call caller request] ++ events) ∧
    ∃ left, last.programs caller = some left ∧
      Along (held apply start) caller (before ++ [.call caller request])
        (before ++ [.call caller request] ++ events) (body request) left) ?_ ?_ hduring).2
  · rw [List.append_nil]
    exact ⟨cells_eq hcalled, _, hprogram, .refl ..⟩
  · rintro events mid e next ⟨hcells, left, hleft, halong⟩ hstep
    rw [← List.append_assoc _ events]
    refine ⟨?_, halong.step hleft hcells hstep⟩
    funext key
    rw [held_concat, cells_of_step hstep, hcells]

/-- A call that has returned stays so. -/
theorem done_of_run {caller : C} {result : R} (hdone : s.programs caller = some (.done result))
    (hrun : Machine.run (step apply body) s events = some last) :
    last.programs caller = some (.done result) := by
  refine Machine.run_induction (P := fun _ last => last.programs caller = some (.done result))
    hdone ?_ hrun
  intro events mid e next hmid hstep
  by_cases hcaller : e.caller = caller
  · cases e with
    | call other request =>
        obtain rfl : other = caller := hcaller
        cases (step_call hstep).1.symm.trans hmid
    | read other key =>
        obtain rfl : other = caller := hcaller
        obtain ⟨rest, hprogram, -⟩ := step_read hstep
        cases hmid.symm.trans hprogram
    | update other key operation =>
        obtain rfl : other = caller := hcaller
        obtain ⟨rest, hprogram, -⟩ := step_update hstep
        cases hmid.symm.trans hprogram
  · rw [programs_of_ne hstep hcaller, hmid]

/-- While a call goes on, it does what the program of its request has it do. -/
theorem within_of_run {P : K → O → Prop} {caller : C} {request : Q}
    {before during : List (Event C K O Q)} (hbody : (body request).Updates P)
    (hrun : Machine.run (step apply body) (init start) (before ++ .call caller request :: during) =
      some last) {e : Event C K O Q} (he : e ∈ during) (hcaller : e.caller = caller) :
    e.Within P := by
  obtain ⟨left, -, halong⟩ := exists_along hrun
  obtain ⟨-, after, hafter, hwithin⟩ := halong.updates hbody
  rw [List.append_cons, List.append_cancel_left_eq] at hafter
  exact hwithin e (hafter ▸ he) hcaller

end Runs

end Machine

/-! ## What is done once in a call -/

section Once

/-- Such requests have a program of one operation on a cell, and no other program does it. -/
structure Once (body : Q → Program K O V R) (isSuch : Q → Bool) (key : K) (operation : O)
    (result : R) : Prop where
  such : ∀ request, isSuch request = true → body request = .update key operation (.done result)
  other : ∀ request, isSuch request = false →
    (body request).Updates fun updated done => ¬(updated = key ∧ done = operation)

section Tracked

variable {key : K} {operation : O} {result : R} {programs : C → Option (Program K O V R)}
  {starters updaters : List C} {caller : C}

/-- Where the calls with such requests are: `starters` have started, and `updaters` have done
the operation. -/
structure Tracked (key : K) (operation : O) (result : R) (starters updaters : List C)
    (programs : C → Option (Program K O V R)) : Prop where
  starters_nodup : starters.Nodup
  updaters_nodup : updaters.Nodup
  subset : updaters ⊆ starters
  returned : ∀ caller ∈ updaters, programs caller = some (.done result)
  waiting : ∀ caller ∈ starters, caller ∉ updaters →
    programs caller = some (.update key operation (.done result))
  other : ∀ caller ∉ starters, ∀ program, programs caller = some program →
    program.Updates fun updated done => ¬(updated = key ∧ done = operation)

/-- A program that is about to do the operation is one that waits for it. -/
theorem Tracked.of_updates (h : Tracked key operation result starters updaters programs)
    {updated : K} {done : O} {rest : Program K O V R}
    (hprogram : programs caller = some (.update updated done rest)) :
    (caller ∈ starters ∧ caller ∉ updaters ∧ updated = key ∧ done = operation ∧
        rest = .done result) ∨
      caller ∉ starters ∧ ¬(updated = key ∧ done = operation) ∧
        rest.Updates fun updated done => ¬(updated = key ∧ done = operation) := by
  by_cases hcaller : caller ∈ starters
  · by_cases hdone : caller ∈ updaters
    · cases hprogram.symm.trans (h.returned caller hdone)
    · cases hprogram.symm.trans (h.waiting caller hcaller hdone)
      exact .inl ⟨hcaller, hdone, rfl, rfl, rfl⟩
  · exact .inr ⟨hcaller, h.other caller hcaller _ hprogram⟩

variable [DecidableEq C]

theorem nodup_concat {items : List A} {item : A} (hitems : items.Nodup) (hitem : item ∉ items) :
    (items ++ [item]).Nodup :=
  List.Nodup.append hitems (List.nodup_singleton _) (List.disjoint_singleton.mpr hitem)

/-- Another call does something else. -/
theorem Tracked.aside (h : Tracked key operation result starters updaters programs)
    (hcaller : caller ∉ starters) {program : Program K O V R}
    (hprogram : program.Updates fun updated done => ¬(updated = key ∧ done = operation)) :
    Tracked key operation result starters updaters
      (Function.update programs caller (some program)) := by
  have hsame {other : C} (hother : other ∈ starters) :
      Function.update programs caller (some program) other = programs other :=
    Function.update_of_ne (ne_of_mem_of_not_mem hother hcaller) ..
  refine { h with returned := ?_, waiting := ?_, other := ?_ }
  · exact fun other hother => (hsame (h.subset hother)).trans (h.returned other hother)
  · exact fun other hother hnot => (hsame hother).trans (h.waiting other hother hnot)
  · intro other hother left hleft
    by_cases heq : other = caller
    · rw [heq, Function.update_self, Option.some.injEq] at hleft
      exact hleft ▸ hprogram
    · rw [Function.update_of_ne heq] at hleft
      exact h.other other hother left hleft

/-- Such a call starts. -/
theorem Tracked.enter (h : Tracked key operation result starters updaters programs)
    (hcaller : caller ∉ starters) :
    Tracked key operation result (starters ++ [caller]) updaters
      (Function.update programs caller (some (.update key operation (.done result)))) := by
  have hsame {other : C} (hother : other ∈ starters) :
      Function.update programs caller (some (.update key operation (.done result))) other =
        programs other :=
    Function.update_of_ne (ne_of_mem_of_not_mem hother hcaller) ..
  refine ⟨nodup_concat h.starters_nodup hcaller, h.updaters_nodup,
    List.Subset.trans h.subset (List.subset_append_left ..), ?_, ?_, ?_⟩
  · exact fun other hother => (hsame (h.subset hother)).trans (h.returned other hother)
  · intro other hother hnot
    rcases List.mem_append.mp hother with hother | hother
    · exact (hsame hother).trans (h.waiting other hother hnot)
    · rw [List.mem_singleton.mp hother, Function.update_self]
  · intro other hother program hprogram
    rw [List.mem_append, not_or, List.mem_singleton] at hother
    rw [Function.update_of_ne hother.2] at hprogram
    exact h.other other hother.1 program hprogram

/-- Such a call does the operation. -/
theorem Tracked.pass (h : Tracked key operation result starters updaters programs)
    (hcaller : caller ∈ starters) (hnot : caller ∉ updaters) :
    Tracked key operation result starters (updaters ++ [caller])
      (Function.update programs caller (some (.done result))) := by
  refine ⟨h.starters_nodup, nodup_concat h.updaters_nodup hnot, ?_, ?_, ?_, ?_⟩
  · exact List.append_subset.mpr ⟨h.subset, List.cons_subset.mpr ⟨hcaller, List.nil_subset _⟩⟩
  · intro other hother
    by_cases heq : other = caller
    · rw [heq, Function.update_self]
    · rw [Function.update_of_ne heq]
      rw [List.mem_append, List.mem_singleton] at hother
      exact h.returned other (hother.resolve_right heq)
  · intro other hother hout
    rw [List.mem_append, not_or, List.mem_singleton] at hout
    rw [Function.update_of_ne hout.2]
    exact h.waiting other hother hout.1
  · intro other hother program hprogram
    rw [Function.update_of_ne (ne_of_mem_of_not_mem hcaller hother).symm] at hprogram
    exact h.other other hother program hprogram

end Tracked

section Runs

variable [DecidableEq C] [DecidableEq K] [DecidableEq O] {apply : O → V → V}
  {body : Q → Program K O V R} {isSuch : Q → Bool} {key : K} {operation : O} {result : R}
  {start : K → V} {s next last : State C K O V R} {events : List (Event C K O Q)}
  {e : Event C K O Q}

theorem Tracked.step (honce : Once body isSuch key operation result)
    (h : Tracked key operation result (events.filterMap (Event.starter? isSuch))
      (events.filterMap (Event.updater? key operation)) s.programs)
    (hstep : step apply body s e = some next) :
    Tracked key operation result ((events ++ [e]).filterMap (Event.starter? isSuch))
      ((events ++ [e]).filterMap (Event.updater? key operation)) next.programs := by
  rw [List.filterMap_append, List.filterMap_append]
  cases e with
  -- a new caller waits if its request is such, and is none of this otherwise
  | call caller request =>
      obtain ⟨hnone, rfl⟩ := step_call hstep
      have hnew : caller ∉ events.filterMap (Event.starter? isSuch) := fun hmem => by
        by_cases hdone : caller ∈ events.filterMap (Event.updater? key operation)
        · cases hnone.symm.trans (h.returned caller hdone)
        · cases hnone.symm.trans (h.waiting caller hmem hdone)
      rw [List.filterMap_cons_none (f := Event.updater? key operation) rfl, List.filterMap_nil,
        List.append_nil]
      cases hsuch : isSuch request with
      | true =>
          rw [List.filterMap_cons_some (b := caller) (by rw [Event.starter?, if_pos hsuch]),
            List.filterMap_nil, State.goOn, honce.such request hsuch]
          exact h.enter hnew
      | false =>
          rw [List.filterMap_cons_none (by rw [Event.starter?, hsuch]; rfl), List.filterMap_nil,
            List.append_nil]
          exact h.aside hnew (honce.other request hsuch)
  -- a caller that waits has an update next, so this one is no such caller
  | read caller cell =>
      obtain ⟨rest, hprogram, rfl⟩ := step_read hstep
      rw [List.filterMap_cons_none (f := Event.updater? key operation) rfl,
        List.filterMap_cons_none (f := Event.starter? isSuch) rfl, List.filterMap_nil,
        List.filterMap_nil, List.append_nil, List.append_nil]
      have hcaller : caller ∉ events.filterMap (Event.starter? isSuch) := fun hmem => by
        by_cases hdone : caller ∈ events.filterMap (Event.updater? key operation)
        · cases hprogram.symm.trans (h.returned caller hdone)
        · cases hprogram.symm.trans (h.waiting caller hmem hdone)
      exact h.aside hcaller (h.other caller hcaller _ hprogram _)
  | update caller cell done =>
      obtain ⟨rest, hprogram, rfl⟩ := step_update hstep
      rw [List.filterMap_cons_none (f := Event.starter? isSuch) rfl, List.filterMap_nil,
        List.append_nil]
      -- the operation, by the caller whose turn it is, or another one
      rcases h.of_updates hprogram with ⟨hcaller, hnot, rfl, rfl, rfl⟩ | ⟨hcaller, hother, hrest⟩
      · rw [List.filterMap_cons_some (b := caller) (by rw [Event.updater?, if_pos ⟨rfl, rfl⟩]),
          List.filterMap_nil]
        exact h.pass hcaller hnot
      · rw [List.filterMap_cons_none (by rw [Event.updater?, if_neg hother]), List.filterMap_nil,
          List.append_nil]
        exact h.aside hcaller hrest

theorem tracked (honce : Once body isSuch key operation result)
    (hrun : Machine.run (Shared.step apply body) (init start) events = some last) :
    Tracked key operation result (events.filterMap (Event.starter? isSuch))
      (events.filterMap (Event.updater? key operation)) last.programs := by
  refine Machine.run_induction (P := fun events last =>
    Tracked key operation result (events.filterMap (Event.starter? isSuch))
      (events.filterMap (Event.updater? key operation)) last.programs) ?_ ?_ hrun
  · exact ⟨List.nodup_nil, List.nodup_nil, List.Subset.refl _, List.forall_mem_nil _,
      List.forall_mem_nil _, fun _ _ => nofun⟩
  · exact fun events mid e next hmid hstep => hmid.step honce hstep

/-- No call does the operation more than once, and those that have returned have done it. -/
theorem updates_le_calls (honce : Once body isSuch key operation result)
    (hrun : Machine.run (Shared.step apply body) (init start) events = some last) :
    (events.filterMap (Event.updater? key operation)).length ≤
      (events.filterMap (Event.starter? isSuch)).length := by
  have h := tracked honce hrun
  exact (h.updaters_nodup.subperm h.subset).length_le

theorem updates_eq_calls (honce : Once body isSuch key operation result)
    (hrun : Machine.run (Shared.step apply body) (init start) events = some last)
    (hreturned : ∀ caller ∈ events.filterMap (Event.starter? isSuch),
      ∃ returned, last.programs caller = some (.done returned)) :
    (events.filterMap (Event.updater? key operation)).length =
      (events.filterMap (Event.starter? isSuch)).length := by
  have h := tracked honce hrun
  have hall : events.filterMap (Event.starter? isSuch) ⊆
      events.filterMap (Event.updater? key operation) := by
    intro caller hcaller
    by_contra hnot
    obtain ⟨returned, hdone⟩ := hreturned caller hcaller
    cases hdone.symm.trans (h.waiting caller hcaller hnot)
  exact Nat.le_antisymm (updates_le_calls honce hrun) (h.starters_nodup.subperm hall).length_le

end Runs

end Once

end Shared
