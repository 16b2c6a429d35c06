import ArmoniKApi.Library.History
import ArmoniKApi.Library.MachineInt
import ArmoniKApi.Library.Shared

/-!
# The call counters of the C# mock

The services of `ArmoniK.Api.Mock` count the calls of their methods.  `CountAttribute.Init` runs
before each call and increments a counter, `GetCounters` reads the counters one after another and
`ResetCounters` sets them to zero one after another.  The tests of the other SDKs reset the
counters, make their calls, and look at what was counted.

gRPC calls and requests for the counters run at the same time.  The model is the machine of
`Shared`, where an increment, a read and a write of a counter are one operation each.

* `getCounters_reads`: each counter of a reply was read at a moment of its own, one after another.
* `increments_eq_calls`: every call of a method is counted once.
* `getCounters_after_reset`: what is found after a reset, which is the number of calls when
  nothing else runs.

## Strategy

Nothing is atomic here but one operation on one counter.  A request for the counters reads one
after another while calls go on, so its reply need not be what all the counters were at any
time, and the statements have to be about moments:

* what a counter holds at a moment is told by the events before it: how often it was
  incremented since it was last set to zero (`held_eq_value`, with the library's `tally`);
* a request goes along its program (`exists_along_of_mem`), so each counter it reports was
  read at one of its moments, in order (`readInTurn_of_along`), and a reset sets each counter
  to zero at one of its own (`zeroes_of_along`).

Counting is by the library's `Once`: the program of a call of a method that is there is one
increment and nothing else (`once`), and no other program increments that counter
(`avoids_init`, `avoids_getCounters`, `avoids_resetCounters`).

After a reset the two are put together.  `exists_count` places the moment at which the counter
was zeroed and the moment at which it was read between the events of a run, and bounds what is
found by what was counted between the requests; `countP_test` closes the gap when nothing else
runs meanwhile, which is how the tests of the other SDKs use the service.
-/

namespace ArmoniKApi.CSharp.CountingService

open MachineInt (wrap)

/-- A counter: the names of the type of a service and of one of its methods. -/
abbrev Counter := String × String

/-- `Counts`, without the boxes: the types with `[Counting]`, and with each its methods with
`[Count]`.  `ToDictionary` does not accept a key twice. -/
structure Services where
  counts : List (String × List String)
  types_nodup : (counts.map Prod.fst).Nodup
  methods_nodup : ∀ service ∈ counts, service.2.Nodup

/-- What is done to the `long` in a box. -/
inductive Operation
  /-- `Interlocked.Increment`. -/
  | increment
  /-- `count.Value.Value = 0`. -/
  | zero
  deriving DecidableEq

/-- What the operation makes of the number in a box.  `Interlocked.Increment` wraps
around. -/
def Operation.apply : Operation → Int → Int
  | .increment, count => wrap (2 ^ 63) (count + 1)
  | .zero, _ => 0

/-- The methods that a request for the counters leaves out.  A dictionary is its entries, and a
set that is `null` is taken for an empty one. -/
abbrev Exclude := List (String × Option (List String))

/-- What runs at the same time. -/
inductive Request
  /-- `CountAttribute.Init`, of an instance of the type and one of its methods. -/
  | init (type method : String)
  | getCounters (exclude : Option Exclude)
  | resetCounters

/-- The counts of a type, under the names of its methods. -/
abbrev Counters := List (String × List (String × Int))

/-- What a request comes to: a call that was counted, the counters, or an exception. -/
inductive Reply
  | counted
  /-- A `SystemException`. -/
  | exception (message : String)
  | counters (counters : Counters)
  | reset

/-- The steps of a request: each reads a box or does something to it, and others may come
between two of them. -/
abbrev Program (R : Type) := Shared.Program Counter Operation Int R

namespace Services

variable (services : Services)

/-- `CountAttribute.Init`. -/
def init (type method : String) : Program Reply :=
  match services.counts.lookup type with
  | none => .done (.exception
      s!"Trying to count on {type} service, but service was not recorded.")
  | some serviceCount =>
      if method ∈ serviceCount then .update (type, method) .increment (.done .counted)
      else .done (.exception
        s!"Trying to count {type}.{method} method, but method was not recorded.")

/-- `methodExclude` of a type. -/
def methodExclude (exclude : Option Exclude) (typeName : String) : List String :=
  ((exclude.bind fun entries => entries.lookup typeName).join).getD []

/-- `CountingService.GetCounters`. -/
def getCounters (exclude : Option Exclude) : Program Counters :=
  .forEach (fun kvType : String × List String =>
      (Shared.Program.forEach (fun method : String =>
          .read (kvType.1, method) fun value => .done (method, value))
        (kvType.2.filter fun method => method ∉ methodExclude exclude kvType.1)).bind
      fun counts => .done (kvType.1, counts))
    services.counts

/-- `CountingService.ResetCounters`. -/
def resetCounters : Program (List (List Unit)) :=
  .forEach (fun counts : String × List String =>
      .forEach (fun method : String => .update (counts.1, method) .zero (.done ())) counts.2)
    services.counts

/-- The steps of each kind of request. -/
def body : Request → Program Reply
  | .init type method => services.init type method
  | .getCounters exclude =>
      (services.getCounters exclude).bind fun counters => .done (.counters counters)
  | .resetCounters => services.resetCounters.bind fun _ => .done .reset

end Services

/-! ## What the counters hold -/

section Counts

variable {C : Type}

/-- A request is made, or a step of one is taken. -/
abbrev Event (C : Type) := Shared.Event C Counter Operation Request

/-- The counter is incremented. -/
def increments (counter : Counter) (e : Event C) : Bool := (e.updater? counter .increment).isSome

/-- The counter is set to zero. -/
def zeroes (counter : Counter) (e : Event C) : Bool := (e.updater? counter .zero).isSome

/-- How often the counter was incremented since it was last set to zero. -/
def counted (counter : Counter) (events : List (Event C)) : ℕ :=
  History.tally (increments counter) (zeroes counter) events

theorem counted_concat (counter : Counter) (events : List (Event C)) (e : Event C) :
    counted counter (events ++ [e]) =
      if zeroes counter e then 0
      else counted counter events + if increments counter e then 1 else 0 :=
  History.tally_concat ..

/-- The `long` that stands for a count. -/
def ofCount (count : ℕ) : Int := wrap (2 ^ 63) count

theorem apply_increment (count : ℕ) :
    Operation.increment.apply (ofCount count) = ofCount (count + 1) := by
  rw [Operation.apply, ofCount, MachineInt.wrap_wrap_add, ofCount, Int.natCast_add, Int.natCast_one]

theorem apply_zero (value : Int) : Operation.zero.apply value = ofCount 0 :=
  (MachineInt.wrap_of_inRange ⟨by decide, by decide⟩ : wrap (2 ^ 63) 0 = 0).symm

/-- What a counter holds after the events. -/
def value (events : List (Event C)) (counter : Counter) : Int := ofCount (counted counter events)

theorem updater?_update (counter key : Counter) (caller : C) (operation done : Operation) :
    (Shared.Event.updater? counter operation (.update caller key done : Event C)).isSome =
      decide (key = counter ∧ done = operation) := by
  rw [Shared.Event.updater?]
  split
  · rename_i hboth
    exact (decide_eq_true hboth).symm
  · rename_i hnot
    exact (decide_eq_false hnot).symm

theorem after_ofCount (counter : Counter) (count : ℕ) (e : Event C) :
    e.after Operation.apply counter (ofCount count) =
      ofCount (if zeroes counter e then 0 else count + if increments counter e then 1 else 0) := by
  cases e with
  | call caller request =>
      rw [Shared.after_call]
      rfl
  | read caller key =>
      rw [Shared.after_read]
      rfl
  | update caller key operation =>
      rw [Shared.after_update, zeroes, increments, updater?_update, updater?_update]
      by_cases hkey : key = counter
      · rw [if_pos hkey]
        cases operation with
        | increment => rw [apply_increment]; simp [hkey]
        | zero => rw [apply_zero]; simp [hkey]
      · rw [if_neg hkey]
        simp [hkey]

theorem held_eq_value :
    Shared.held Operation.apply (fun _ : Counter => 0) = value (C := C) := by
  funext events counter
  induction events using List.reverseRecOn with
  | nil => exact apply_zero 0
  | append_singleton events e ih =>
      rw [Shared.held_concat, ih, value, after_ofCount, value, counted_concat]

end Counts

/-! ## The calls -/

section Calls

variable {C : Type} {services : Services} {caller : C} {history later : List (Event C)}

/-- The counters of a reply with their values, in the order in which they were read. -/
def entries (counters : Counters) : List (Counter × Int) :=
  counters.flatMap fun service => service.2.map fun count => ((service.1, count.1), count.2)

/-- The counts of a reply are for the methods of the service that are not left out. -/
def IsFor (exclude : Option Exclude) (service : String × List String)
    (counts : String × List (String × Int)) : Prop :=
  counts.1 = service.1 ∧
    counts.2.map Prod.fst =
      service.2.filter fun method => method ∉ Services.methodExclude exclude service.1

theorem readInTurn_of_methods {typeName : String} {methods : List String}
    {counts : List (String × Int)}
    (h : Shared.Along value caller history later
      (.forEach (fun method => .read (typeName, method) fun value => .done (method, value)) methods)
      (.done counts)) :
    Shared.ReadInTurn value history
        (counts.map fun count => ((typeName, count.1), count.2)) later ∧
      counts.map Prod.fst = methods := by
  have hturn (method : String) (history later : List (Event C)) (count : String × Int)
      (hread : Shared.Along value caller history later
        (.read (typeName, method) fun value => .done (method, value)) (.done count)) :
      Shared.ReadInTurn value history [((typeName, count.1), count.2)] later ∧
        method = count.1 := by
    obtain ⟨gap, -, hrest⟩ := hread.of_read
    obtain ⟨rfl, rest, -, rfl⟩ := hrest.of_done
    rw [List.append_assoc]
    exact ⟨.cons (List.prefix_append ..) (.nil (List.prefix_append ..)), rfl⟩
  obtain ⟨hreads, hnames⟩ := Shared.ReadInTurn.of_forEach hturn h
  rw [← List.map_eq_flatMap] at hreads
  rw [← List.forall₂_map_right_iff, List.forall₂_eq_eq_eq] at hnames
  exact ⟨hreads, hnames.symm⟩

/-- The program that reads the counters, gone along to its end. -/
theorem readInTurn_of_along {exclude : Option Exclude} {reply : Counters}
    (h : Shared.Along value caller history later (services.getCounters exclude) (.done reply)) :
    Shared.ReadInTurn value history (entries reply) later ∧
      List.Forall₂ (IsFor exclude) services.counts reply := by
  refine Shared.ReadInTurn.of_forEach (fun service history later counts hturn => ?_) h
  obtain ⟨middle, read, hmethods, hdone⟩ := hturn.of_bind
  obtain ⟨rfl, gap, -, rfl⟩ := hdone.of_done
  obtain ⟨hreads, hnames⟩ := readInTurn_of_methods hmethods
  exact ⟨hreads.to_prefix (List.prefix_append ..), rfl, hnames⟩

/-- A call that resets sets each of the counters to zero. -/
theorem zeroes_of_along {results : List (List Unit)}
    (h : Shared.Along value caller history later services.resetCounters (.done results))
    {typeName method : String} {methods : List String}
    (hservice : (typeName, methods) ∈ services.counts) (hmethod : method ∈ methods) :
    ∃ before after, history <+: before ∧
      later = before ++ .update caller (typeName, method) .zero :: after := by
  obtain ⟨start, finish, others, hstart, hfinish, hinner⟩ := h.exists_turn hservice
  obtain ⟨before, after, result, hbefore, hafter, hupdate⟩ := hinner.exists_turn hmethod
  obtain ⟨gap, -, hrest⟩ := hupdate.of_update
  obtain ⟨rest, hrest⟩ := hrest.prefix.trans (hafter.trans hfinish)
  refine ⟨before ++ gap, rest, (hstart.trans hbefore).trans (List.prefix_append ..), ?_⟩
  rw [← hrest, List.append_assoc _ [_], List.singleton_append]

end Calls

/-! ## Every call is counted once -/

/-- The service and the method are there. -/
def Services.Records (services : Services) (counter : Counter) : Prop :=
  ∃ methods, services.counts.lookup counter.1 = some methods ∧ counter.2 ∈ methods

theorem Services.init_of_records {services : Services} {counter : Counter}
    (h : services.Records counter) :
    services.init counter.1 counter.2 = .update counter .increment (.done .counted) := by
  obtain ⟨methods, hmethods, hmem⟩ := h
  rw [init, hmethods]
  exact if_pos hmem

theorem Services.init_of_not_records {services : Services} {counter : Counter}
    (h : ¬services.Records counter) :
    ∃ message, services.init counter.1 counter.2 = .done (.exception message) := by
  unfold init
  split
  · exact ⟨_, rfl⟩
  · rename_i methods hmethods
    rw [if_neg fun hmem => h ⟨methods, hmethods, hmem⟩]
    exact ⟨_, rfl⟩

section Once

variable {services : Services} {counter : Counter}

/-- A call of the method that is counted. -/
def isCall (counter : Counter) : Request → Bool
  | .init type method => (type, method) = counter
  | _ => false

/-- The method is called. -/
def calls {C : Type} (counter : Counter) (e : Event C) : Bool :=
  (e.starter? (isCall counter)).isSome

theorem isCall_call {C : Type} (caller : C) :
    calls counter (.call caller (.init counter.1 counter.2)) = true := by
  have hcall : isCall counter (.init counter.1 counter.2) = true := decide_eq_true rfl
  rw [calls, Shared.Event.starter?, if_pos hcall]
  rfl

/-- The steps do not increment the counter. -/
abbrev Avoids (counter : Counter) {R : Type} (program : Program R) : Prop :=
  program.Updates fun key operation => ¬(key = counter ∧ operation = .increment)

theorem avoids_init {type method : String} (hother : (type, method) ≠ counter) :
    Avoids counter (services.init type method) := by
  unfold Services.init
  split
  · trivial
  · split
    · exact ⟨fun hboth => hother hboth.1, trivial⟩
    · trivial

theorem avoids_getCounters (exclude : Option Exclude) :
    Avoids counter (services.body (.getCounters exclude)) := by
  have hread (typeName method : String) :
      Avoids counter (.read (typeName, method) fun value => .done (method, value)) :=
    fun _ => trivial
  refine Shared.Program.Updates.bind (.forEach (fun service => ?_) _) fun _ => trivial
  exact .bind (.forEach (hread service.1) _) fun _ => trivial

theorem avoids_resetCounters : Avoids counter (services.body .resetCounters) := by
  have hzero (typeName method : String) :
      Avoids counter (.update (typeName, method) .zero (.done ())) :=
    And.intro (fun hboth => nomatch hboth.2) trivial
  refine Shared.Program.Updates.bind (.forEach (fun service => ?_) _) fun _ => trivial
  exact .forEach (hzero service.1) _

/-- What a program does that avoids the counter. -/
theorem countP_eq_zero_of_within {C : Type} {events : List (Event C)}
    (hevents : ∀ e ∈ events,
      e.Within fun key operation => ¬(key = counter ∧ operation = .increment)) :
    events.countP (increments counter) = 0 ∧ events.countP (calls counter) = 0 := by
  simp only [List.countP_eq_zero]
  refine ⟨fun e he => ?_, fun e he => ?_⟩
  · have hwithin := hevents e he
    cases e with
    | call caller request => exact hwithin.elim
    | read caller key => exact Bool.false_ne_true
    | update caller key operation =>
        rw [increments, updater?_update, decide_eq_false hwithin]
        exact Bool.false_ne_true
  · have hwithin := hevents e he
    cases e with
    | call caller request => exact hwithin.elim
    | read caller key => exact Bool.false_ne_true
    | update caller key operation => exact Bool.false_ne_true

/-- A call of a method that is there does nothing but increment its counter. -/
theorem once (hrecords : services.Records counter) :
    Shared.Once services.body (isCall counter) counter .increment .counted where
  such
    | .init type method, hcall => by
        obtain rfl : (type, method) = counter := of_decide_eq_true hcall
        exact Services.init_of_records hrecords
  other
    | .init type method, hcall => avoids_init (of_decide_eq_false hcall)
    | .getCounters exclude, _ => avoids_getCounters exclude
    | .resetCounters, _ => avoids_resetCounters

/-- A call of a method that is not there increments nothing. -/
theorem once_of_not_records (hrecords : ¬services.Records counter) :
    Shared.Once services.body (fun _ => false) counter .increment .counted where
  such _ hcall := nomatch hcall
  other
    | .init type method, _ => by
        by_cases hcounter : (type, method) = counter
        · subst hcounter
          obtain ⟨message, hmessage⟩ := Services.init_of_not_records hrecords
          change Avoids _ (services.init type method)
          rw [hmessage]
          trivial
        · exact avoids_init hcounter
    | .getCounters exclude, _ => avoids_getCounters exclude
    | .resetCounters, _ => avoids_resetCounters

end Once

/-! ## Runs -/

section Runs

variable {C : Type} [DecidableEq C]

/-- The boxes, and where each of the requests is. -/
abbrev State (C : Type) := Shared.State C Counter Operation Int Reply

/-- One event. -/
def step (services : Services) : State C → Event C → Option (State C) :=
  Shared.step Operation.apply services.body

/-- At first all boxes hold zero, and nothing has been asked. -/
def start : State C := Shared.init fun _ => 0

variable {services : Services} {counter : Counter} {last : State C}

theorem countP_increments_eq {events : List (Event C)}
    (hrun : Machine.run (step services) start events = some last)
    (hrecords : services.Records counter)
    (hreturned : ∀ caller, .call caller (.init counter.1 counter.2) ∈ events →
      ∃ reply, last.programs caller = some (.done reply)) :
    events.countP (increments counter) = events.countP (calls counter) := by
  have h := Shared.updates_eq_calls (once hrecords) hrun fun caller hcaller => by
    obtain ⟨request, hrequest, hmem⟩ := Shared.exists_call_of_starter? hcaller
    match request, hrequest, hmem with
    | .init type method, hrequest, hmem =>
        obtain rfl : (type, method) = counter := of_decide_eq_true hrequest
        exact hreturned caller hmem
  rw [List.length_filterMap_eq_countP, List.length_filterMap_eq_countP] at h
  exact h

/-- A call that was made, as far as it has come. -/
theorem exists_along_of_mem {events : List (Event C)} {caller : C} {request : Request}
    (hrun : Machine.run (step services) start events = some last)
    (hcall : .call caller request ∈ events) :
    ∃ (history later : List (Event C)) (left : Program Reply),
      last.programs caller = some left ∧ Shared.Along (Shared.held Operation.apply fun _ => 0)
        caller history later (services.body request) left := by
  obtain ⟨before, during, rfl⟩ := List.append_of_mem hcall
  obtain ⟨left, hleft, halong⟩ := Shared.exists_along hrun
  exact ⟨_, _, left, hleft, halong⟩

/-- Over every run, each call of a method is counted once, when it gets there, and nothing else
is, and a call that has returned has done so normally.  Calls of methods that are not there are
not counted and throw. -/
theorem increments_eq_calls {events : List (Event C)}
    (hrun : Machine.run (step services) start events = some last) :
    (services.Records counter →
      events.countP (increments counter) ≤ events.countP (calls counter) ∧
        ((∀ caller, .call caller (.init counter.1 counter.2) ∈ events →
            ∃ reply, last.programs caller = some (.done reply)) →
          events.countP (increments counter) = events.countP (calls counter)) ∧
        ∀ caller reply, .call caller (.init counter.1 counter.2) ∈ events →
          last.programs caller = some (.done reply) → reply = .counted) ∧
      (¬services.Records counter →
        events.countP (increments counter) = 0 ∧
        ∀ caller, .call caller (.init counter.1 counter.2) ∈ events →
          ∃ message, last.programs caller = some (.done (.exception message))) := by
  refine ⟨fun hrecords => ⟨?_, countP_increments_eq hrun hrecords, fun caller reply hcall hdone =>
    ?_⟩, fun hrecords => ⟨?_, fun caller hcall => ?_⟩⟩
  · have h := Shared.updates_le_calls (once hrecords) hrun
    rw [List.length_filterMap_eq_countP, List.length_filterMap_eq_countP] at h
    exact h
  · obtain ⟨history, later, left, hleft, halong⟩ := exists_along_of_mem hrun hcall
    cases hleft.symm.trans hdone
    rw [Services.body, Services.init_of_records hrecords] at halong
    obtain ⟨gap, -, hrest⟩ := halong.of_update
    exact hrest.of_done.1.symm
  · have h := Shared.updates_le_calls (once_of_not_records hrecords) hrun
    rw [List.length_filterMap_eq_countP] at h
    refine Nat.le_zero.mp (h.trans_eq (List.length_eq_zero_iff.mpr ?_))
    refine List.eq_nil_iff_forall_not_mem.mpr fun caller hcaller => ?_
    obtain ⟨request, hrequest, -⟩ := Shared.exists_call_of_starter? hcaller
    cases hrequest
  · obtain ⟨history, later, left, hleft, halong⟩ := exists_along_of_mem hrun hcall
    obtain ⟨message, hmessage⟩ := Services.init_of_not_records hrecords
    rw [Services.body, hmessage] at halong
    -- there is nothing left to do
    cases halong with
    | stay => exact ⟨message, hleft⟩

/-- A service with two methods. -/
def tasksService : Services where
  counts := [("Tasks", ["GetTask", "ListTasks"])]
  types_nodup := by decide
  methods_nodup := by decide

/-- A call of `GetTask` to its end. -/
def getTask (caller : ℕ) : List (Event ℕ) :=
  [.call caller (.init "Tasks" "GetTask"), .update caller ("Tasks", "GetTask") .increment]

/-- A third call is of a method that is not there. -/
theorem increments_eq_calls_two :
    (∃ last, Machine.run (step tasksService) start
        (getTask 0 ++ getTask 1 ++ [.call 2 (.init "Tasks" "WatchTask")]) = some last ∧
      ∃ message, last.programs 2 = some (.done (.exception message))) ∧
    (getTask 0 ++ getTask 1).countP (increments ("Tasks", "GetTask")) =
      (getTask 0 ++ getTask 1).countP (calls ("Tasks", "GetTask")) := by
  have hother : Machine.run (step tasksService) start
      (getTask 0 ++ getTask 1 ++ [.call 2 (.init "Tasks" "WatchTask")]) = some _ := rfl
  have hrun : Machine.run (step tasksService) start (getTask 0 ++ getTask 1) = some _ := rfl
  constructor
  · have hnot : ¬tasksService.Records ("Tasks", "WatchTask") := by
      rintro ⟨methods, hmethods, hmem⟩
      cases hmethods
      exact absurd hmem (by decide)
    exact ⟨_, hother, ((increments_eq_calls hother).2 hnot).2 2 (by simp)⟩
  refine ((increments_eq_calls hrun).1 ⟨_, rfl, by decide⟩).2.1 fun caller hcaller => ?_
  have htwo : caller = 0 ∨ caller = 1 := by simpa [getTask] using hcaller
  rcases htwo with rfl | rfl
  · exact ⟨.counted, rfl⟩
  · exact ⟨.counted, rfl⟩

theorem along_getCounters {before during : List (Event C)} {caller : C}
    {exclude : Option Exclude} {reply : Counters}
    (hrun : Machine.run (step services) start
      (before ++ .call caller (.getCounters exclude) :: during) = some last)
    (hreturned : last.programs caller = some (.done (.counters reply))) :
    ∃ middle, Shared.Along value caller (before ++ [.call caller (.getCounters exclude)]) middle
        (services.getCounters exclude) (.done reply) ∧
      middle <+: before ++ .call caller (.getCounters exclude) :: during := by
  obtain ⟨left, hleft, halong⟩ := Shared.exists_along hrun
  cases hleft.symm.trans hreturned
  rw [held_eq_value] at halong
  obtain ⟨middle, counters, hcounters, hdone⟩ := halong.of_bind
  obtain ⟨hreply, gap, -, hlater⟩ := hdone.of_done
  cases hreply
  exact ⟨middle, hcounters, hlater ▸ List.prefix_append ..⟩

/-- Whatever else runs at the same time, a reply has the counters of all methods that are not
left out, in order, each with what it held at a moment of its own while the request ran.  The
moments come one after another. -/
theorem getCounters_reads {before during : List (Event C)} {caller : C}
    {exclude : Option Exclude} {reply : Counters}
    (hrun : Machine.run (step services) start
      (before ++ .call caller (.getCounters exclude) :: during) = some last)
    (hreturned : last.programs caller = some (.done (.counters reply))) :
    List.Forall₂ (IsFor exclude) services.counts reply ∧
      Shared.ReadInTurn value (before ++ [.call caller (.getCounters exclude)]) (entries reply)
        (before ++ .call caller (.getCounters exclude) :: during) := by
  obtain ⟨middle, halong, hmiddle⟩ := along_getCounters hrun hreturned
  obtain ⟨hreads, hfor⟩ := readInTurn_of_along halong
  exact ⟨hfor, hreads.to_prefix hmiddle⟩

/-- Both methods are called between the reads of their counters. -/
def betweenReads : List (Event ℕ) :=
  [.read 0 ("Tasks", "GetTask"), .call 1 (.init "Tasks" "GetTask"),
    .update 1 ("Tasks", "GetTask") .increment, .call 2 (.init "Tasks" "ListTasks"),
    .update 2 ("Tasks", "ListTasks") .increment, .read 0 ("Tasks", "ListTasks")]

/-- The reply is not what the counters were at any one time. -/
theorem getCounters_reads_betweenReads :
    ∃ last, Machine.run (step tasksService) start (.call 0 (.getCounters none) :: betweenReads) =
        some last ∧
      last.programs 0 = some (.done (.counters [("Tasks", [("GetTask", 0), ("ListTasks", 1)])])) ∧
      Shared.ReadInTurn value [.call 0 (.getCounters none)]
        [(("Tasks", "GetTask"), 0), (("Tasks", "ListTasks"), 1)]
        (.call 0 (.getCounters none) :: betweenReads) := by
  have hrun : Machine.run (step tasksService) start
      ([] ++ .call 0 (.getCounters none) :: betweenReads) = some _ := rfl
  exact ⟨_, hrun, rfl, (getCounters_reads hrun rfl).2⟩

/-! ### After a reset -/

/-- The counters of a reply are counters of the services. -/
theorem exists_of_mem_entries {exclude : Option Exclude} {services : List (String × List String)}
    {reply : Counters} (hfor : List.Forall₂ (IsFor exclude) services reply) {value : Int}
    (hentry : (counter, value) ∈ entries reply) :
    ∃ methods, (counter.1, methods) ∈ services ∧ counter.2 ∈ methods := by
  induction hfor with
  | nil => exact absurd hentry List.not_mem_nil
  | @cons service counts services reply hservice _ ih =>
      rw [entries, List.flatMap_cons, List.mem_append] at hentry
      rcases hentry with hentry | hentry
      · obtain ⟨count, hcount, heq⟩ := List.mem_map.mp hentry
        obtain ⟨rfl, rfl⟩ := Prod.mk.inj heq
        obtain ⟨htype, hmethods⟩ := hservice
        have hmethod : count.1 ∈ counts.2.map Prod.fst := List.mem_map_of_mem hcount
        rw [hmethods] at hmethod
        refine ⟨service.2, ?_, List.mem_of_mem_filter hmethod⟩
        rw [htype]
        exact List.mem_cons_self
      · obtain ⟨methods, hmem, hmethod⟩ := ih hentry
        exact ⟨methods, List.mem_cons_of_mem _ hmem, hmethod⟩

theorem records_of_mem {methods : List String} (hmem : (counter.1, methods) ∈ services.counts)
    (hmethod : counter.2 ∈ methods) : services.Records counter := by
  refine ⟨methods, ?_, hmethod⟩
  obtain ⟨first, second, hcounts⟩ := List.append_of_mem hmem
  refine List.lookup_eq_some_iff.mpr ⟨first, second, hcounts, fun service hservice => ?_⟩
  have hnodup := services.types_nodup
  rw [hcounts, List.map_append, List.nodup_append] at hnodup
  have hne := hnodup.2.2 service.1 (List.mem_map_of_mem hservice) counter.1
    (List.mem_map_of_mem List.mem_cons_self)
  exact bne_iff_ne.mpr hne.symm

/-- Resetting, in a run: the counter is set to zero on the way. -/
theorem zeroes_of_reset {before resetting : List (Event C)} {resetter : C} {reset : State C}
    (hrun : Machine.run (step services) start
      (before ++ .call resetter .resetCounters :: resetting) = some reset)
    (hreset : reset.programs resetter = some (.done .reset)) {methods : List String}
    (hmem : (counter.1, methods) ∈ services.counts) (hmethod : counter.2 ∈ methods) :
    ∃ first second, resetting = first ++ .update resetter counter .zero :: second := by
  obtain ⟨left, hleft, halong⟩ := Shared.exists_along hrun
  cases hleft.symm.trans hreset
  rw [held_eq_value] at halong
  obtain ⟨middle, results, hresults, hdone⟩ := halong.of_bind
  obtain ⟨-, gap, -, hlater⟩ := hdone.of_done
  obtain ⟨first, second, ⟨rest, hfirst⟩, hmiddle⟩ := zeroes_of_along hresults hmem hmethod
  refine ⟨rest, second ++ gap, ?_⟩
  rw [hmiddle, ← hfirst] at hlater
  simp only [List.append_assoc, List.cons_append, List.nil_append] at hlater
  exact (List.cons.inj (List.append_cancel_left hlater)).2

/-- What a request for the counters finds after a reset: at least what was counted between the
two, and at most what was counted since the reset began. -/
theorem exists_count {before resetting test getting : List (Event C)} {resetter getter : C}
    {exclude : Option Exclude} {reply : Counters} {reset : State C}
    (hresetting : Machine.run (step services) start
      (before ++ .call resetter .resetCounters :: resetting) = some reset)
    (hreset : reset.programs resetter = some (.done .reset))
    (hrun : Machine.run (step services) start
      (before ++ .call resetter .resetCounters :: resetting ++ test ++
        .call getter (.getCounters exclude) :: getting) = some last)
    (hreturned : last.programs getter = some (.done (.counters reply))) {found : Int}
    (hentry : (counter, found) ∈ entries reply)
    (halone : ∀ e ∈ test ++ getting, zeroes counter e = false) :
    ∃ count, found = ofCount count ∧ test.countP (increments counter) ≤ count ∧
      count ≤ (resetting ++ test ++ getting).countP (increments counter) := by
  obtain ⟨middle, halong, hmiddle⟩ := along_getCounters hrun hreturned
  obtain ⟨hreads, hfor⟩ := readInTurn_of_along halong
  obtain ⟨methods, hmem, hmethod⟩ := exists_of_mem_entries hfor hentry
  -- the zero is written at some point of the reset
  obtain ⟨first, second, rfl⟩ := zeroes_of_reset hresetting hreset hmem hmethod
  obtain ⟨moment, ⟨read, hread⟩, hlater, hvalue⟩ := hreads.exists_moment hentry
  -- and the counter is read at some point of the request
  have hgetting : read <+: getting := by
    have hall := hlater.trans hmiddle
    rw [← hread, List.append_cons _ _ getting] at hall
    exact (List.prefix_append_right_inj _).mp hall
  have hfew : read.countP (increments counter) ≤ getting.countP (increments counter) :=
    hgetting.sublist.countP_le
  refine ⟨counted counter moment, hvalue, ?_, ?_⟩
  -- at least: nothing is set to zero after the reset
  · have hquiet : ∀ e ∈ test ++ (.call getter (.getCounters exclude) :: read),
        zeroes counter e = false := by
      rw [List.forall_mem_append, List.forall_mem_cons]
      rw [List.forall_mem_append] at halone
      exact ⟨halone.1, rfl, fun e he => halone.2 e (hgetting.subset he)⟩
    rw [← hread, counted, List.append_assoc, List.append_assoc, List.singleton_append,
      History.tally_append hquiet, List.countP_append]
    omega
  -- at most: what was counted before the zero is gone
  · have hmoment : moment = (before ++ .call resetter .resetCounters :: first) ++
        .update resetter counter .zero ::
          (second ++ test ++ .call getter (.getCounters exclude) :: read) := by
      rw [← hread]
      simp only [List.append_assoc, List.cons_append, List.nil_append]
    have hcall : increments counter (.call getter (.getCounters exclude) : Event C) = false := rfl
    have hzeroes : zeroes counter (.update resetter counter .zero : Event C) = true := by
      rw [zeroes, updater?_update]
      exact decide_eq_true ⟨rfl, rfl⟩
    have hle : History.tally (increments counter) (zeroes counter) _ ≤ _ :=
      History.tally_append_cons_le hzeroes (before ++ .call resetter .resetCounters :: first)
        (second ++ test ++ .call getter (.getCounters exclude) :: read)
    rw [← hmoment] at hle
    simp only [List.countP_append, List.countP_cons, hcall, Bool.false_eq_true, if_false] at hle ⊢
    rw [counted]
    omega

/-- The calls of the method among the events have returned. -/
def Returned (counter : Counter) (events : List (Event C)) (s : State C) : Prop :=
  ∀ caller, .call caller (.init counter.1 counter.2) ∈ events →
    ∃ reply, s.programs caller = some (.done reply)

/-- When nothing else runs while the counters are reset and read, the calls in between count. -/
theorem countP_test {before resetting test getting : List (Event C)} {resetter getter : C}
    {exclude : Option Exclude} {reset : State C} (hrecords : services.Records counter)
    (hresetting : Machine.run (step services) start
      (before ++ .call resetter .resetCounters :: resetting) = some reset)
    (hrun : Machine.run (step services) start
      (before ++ .call resetter .resetCounters :: resetting ++ test ++
        .call getter (.getCounters exclude) :: getting) = some last)
    (hresetter : ∀ e ∈ resetting, e.caller = resetter) (hgetter : ∀ e ∈ getting, e.caller = getter)
    (hbefore : ∀ s, Machine.run (step services) start before = some s → Returned counter before s)
    (htest : Returned counter test last) :
    test.countP (increments counter) = test.countP (calls counter) ∧
      resetting.countP (increments counter) = 0 ∧ getting.countP (increments counter) = 0 := by
  obtain ⟨hresetCount, hresetCalls⟩ :
      resetting.countP (increments counter) = 0 ∧ resetting.countP (calls counter) = 0 :=
    countP_eq_zero_of_within fun e he =>
      Shared.within_of_run avoids_resetCounters hresetting he (hresetter e he)
  obtain ⟨hgetCount, hgetCalls⟩ :
      getting.countP (increments counter) = 0 ∧ getting.countP (calls counter) = 0 :=
    countP_eq_zero_of_within fun e he =>
      Shared.within_of_run (avoids_getCounters exclude) hrun he (hgetter e he)
  refine ⟨?_, hresetCount, hgetCount⟩
  -- what has returned before the reset has returned in the end
  obtain ⟨s, hs, hrest⟩ : ∃ s, Machine.run (step services) start before = some s ∧
      Machine.run (step services) s (.call resetter .resetCounters :: resetting) = some reset := by
    rw [Machine.run_append, Option.bind_eq_some_iff] at hresetting
    exact hresetting
  have hlast : Machine.run (step services) reset
      (test ++ .call getter (.getCounters exclude) :: getting) = some last := by
    rw [List.append_assoc, Machine.run_append, hresetting] at hrun
    exact hrun
  have hearly : Returned counter before last := fun caller hcaller => by
    obtain ⟨returned, hdone⟩ := hbefore s hs caller hcaller
    exact ⟨returned, Shared.done_of_run (Shared.done_of_run hdone hrest) hlast⟩
  have hcountedBefore := countP_increments_eq hs hrecords (hbefore s hs)
  have hcounted := countP_increments_eq hrun hrecords fun caller hcaller => by
    simp only [List.mem_append, List.mem_cons] at hcaller
    rcases hcaller with ((hcaller | hcaller | hcaller) | hcaller) | hcaller | hcaller
    · exact hearly caller hcaller
    · cases hcaller
    · exact absurd (isCall_call caller) (List.countP_eq_zero.mp hresetCalls _ hcaller)
    · exact htest caller hcaller
    · cases hcaller
    · exact absurd (isCall_call caller) (List.countP_eq_zero.mp hgetCalls _ hcaller)
  have hnone (caller : C) (request : Request) :
      increments counter (.call caller request : Event C) = false := rfl
  have hresetCall : calls counter (.call resetter .resetCounters : Event C) = false := rfl
  have hgetCall : calls counter (.call getter (.getCounters exclude) : Event C) = false := rfl
  simp only [List.countP_append, List.countP_cons, hnone, hresetCall, hgetCall,
    Bool.false_eq_true, if_false, hresetCount, hresetCalls, hgetCount, hgetCalls] at hcounted
  omega

/-- A request for the counters after a reset, while no other reset is on its way, finds at least
what was counted between the two, and at most what was counted since the reset began.  When
nothing else runs during the two, and the calls between them have returned, it finds the number
of these calls. -/
theorem getCounters_after_reset {before resetting test getting : List (Event C)}
    {resetter getter : C} {exclude : Option Exclude} {reply : Counters} {reset : State C}
    (hresetting : Machine.run (step services) start
      (before ++ .call resetter .resetCounters :: resetting) = some reset)
    (hreset : reset.programs resetter = some (.done .reset))
    (hrun : Machine.run (step services) start
      (before ++ .call resetter .resetCounters :: resetting ++ test ++
        .call getter (.getCounters exclude) :: getting) = some last)
    (hreturned : last.programs getter = some (.done (.counters reply))) {found : Int}
    (hentry : (counter, found) ∈ entries reply)
    (halone : ∀ e ∈ test ++ getting, zeroes counter e = false) :
    (∃ count, found = ofCount count ∧ test.countP (increments counter) ≤ count ∧
        count ≤ (resetting ++ test ++ getting).countP (increments counter)) ∧
      ((∀ e ∈ resetting, e.caller = resetter) → (∀ e ∈ getting, e.caller = getter) →
        (∀ s, Machine.run (step services) start before = some s → Returned counter before s) →
        Returned counter test last → found = ofCount (test.countP (calls counter))) := by
  obtain ⟨count, hfound, hatLeast, hatMost⟩ :=
    exists_count hresetting hreset hrun hreturned hentry halone
  refine ⟨⟨count, hfound, hatLeast, hatMost⟩, fun hresetter hgetter hbefore htest => ?_⟩
  have hrecords : services.Records counter := by
    obtain ⟨middle, halong, -⟩ := along_getCounters hrun hreturned
    obtain ⟨methods, hmem, hmethod⟩ :=
      exists_of_mem_entries (readInTurn_of_along halong).2 hentry
    exact records_of_mem hmem hmethod
  obtain ⟨htestCount, hresetCount, hgetCount⟩ :=
    countP_test hrecords hresetting hrun hresetter hgetter hbefore htest
  rw [List.countP_append, List.countP_append, hresetCount, hgetCount] at hatMost
  have hcount : count = test.countP (calls counter) := by omega
  rw [hfound, hcount]

/-- One call before a reset, and two calls after it. -/
theorem getCounters_after_reset_twoCalls :
    ∃ last, Machine.run (step tasksService) start (getTask 0 ++ .call 1 .resetCounters ::
          [.update 1 ("Tasks", "GetTask") .zero, .update 1 ("Tasks", "ListTasks") .zero] ++
        (getTask 2 ++ getTask 3) ++ .call 4 (.getCounters none) ::
          [.read 4 ("Tasks", "GetTask"), .read 4 ("Tasks", "ListTasks")]) = some last ∧
      last.programs 4 =
        some (.done (.counters [("Tasks", [("GetTask", 2), ("ListTasks", 0)])])) ∧
      2 = ofCount ((getTask 2 ++ getTask 3).countP (calls ("Tasks", "GetTask"))) := by
  have hresetting : Machine.run (step tasksService) start (getTask 0 ++ .call 1 .resetCounters ::
      [.update 1 ("Tasks", "GetTask") .zero, .update 1 ("Tasks", "ListTasks") .zero]) = some _ :=
    rfl
  have hrun : Machine.run (step tasksService) start (getTask 0 ++ .call 1 .resetCounters ::
        [.update 1 ("Tasks", "GetTask") .zero, .update 1 ("Tasks", "ListTasks") .zero] ++
      (getTask 2 ++ getTask 3) ++ .call 4 (.getCounters none) ::
        [.read 4 ("Tasks", "GetTask"), .read 4 ("Tasks", "ListTasks")]) = some _ := rfl
  have hentry : (("Tasks", "GetTask"), 2) ∈
      entries [("Tasks", [("GetTask", 2), ("ListTasks", 0)])] := by decide
  have hafter := getCounters_after_reset hresetting rfl hrun rfl hentry (by decide)
  refine ⟨_, hrun, rfl, hafter.2 (by decide) (by decide) (fun s hs caller hcaller => ?_)
    fun caller hcaller => ?_⟩
  · cases hs
    have hzero : caller = 0 := by simpa [getTask] using hcaller
    exact ⟨.counted, by rw [hzero]; rfl⟩
  · have htwo : caller = 2 ∨ caller = 3 := by simpa [getTask] using hcaller
    rcases htwo with rfl | rfl
    · exact ⟨.counted, rfl⟩
    · exact ⟨.counted, rfl⟩

end Runs

end ArmoniKApi.CSharp.CountingService
