import ArmoniKApi.Library.Fallible
import ArmoniKApi.Library.Machine
import ArmoniKApi.Python.Objects

/-!
# The counts of a task in Python

A `Task` has four lists of ids and a count for each.  The constructor takes the counts
from the lists, and `from_summary` takes them from the summary, which has no lists.
`refresh` asks the server for the task and writes the lists, but not the counts: these
stay as they were when the object was made.

The model is a machine with one variable for a task.  An operation makes a new task or
refreshes it; one that raises leaves the variable as it is.  `counts_right_iff` says for
which sequences of operations the counts are always right.

## Strategy

* `refresh_eq_ok`: what a refresh writes, which is everything but the counts.
* `countsRight_refresh_iff`: so the counts are right after it if and only if the new lists are
  as long as the counts say, or nothing was written (`AnsweredInKind`).
* `step_cases`: an operation raises, or makes a task with right counts, or refreshes.
* `countsRight_run`: the induction on the operations, for one direction.
* The other direction needs no induction: the operations up to a refresh are a sequence of
  their own, and its counts are right only if it was answered in kind.
-/

namespace ArmoniKApi.Python.Objects

open Proto (TaskDetailed TaskSummary Timestamp Duration)

/-! ## The code -/

/-- `refresh`. -/
def Task.refresh (self : Task) (getTask : Option String → PyResult Task) : PyResult Task := do
  let result ← getTask self.id
  return { self with
    sessionId := result.sessionId
    ownerPodId := result.ownerPodId
    initialTaskId := result.initialTaskId
    createdBy := result.createdBy
    parentTaskIds := result.parentTaskIds
    dataDependencies := result.dataDependencies
    expectedOutputIds := result.expectedOutputIds
    retryOfIds := result.retryOfIds
    status := result.status
    statusMessage := result.statusMessage
    options := result.options
    createdAt := result.createdAt
    submittedAt := result.submittedAt
    receivedAt := result.receivedAt
    acquiredAt := result.acquiredAt
    fetchedAt := result.fetchedAt
    startedAt := result.startedAt
    processedAt := result.processedAt
    endedAt := result.endedAt
    podTtl := result.podTtl
    creationToEndDuration := result.creationToEndDuration
    processingToEndDuration := result.processingToEndDuration
    receivedToEndDuration := result.receivedToEndDuration
    output := result.output
    podHostname := result.podHostname
    payloadId := result.payloadId }

/-- What the server answers to `GetTask`. -/
abbrev Server := Option String → PyResult TaskDetailed

section

variable (toDatetime : Timestamp → PyResult Int) (toTimedelta : Duration → PyResult Int)

/-- `get_task` of the client. -/
def getTask (server : Server) (taskId : Option String) : PyResult Task := do
  Task.fromMessage toDatetime toTimedelta (← server taskId)

/-- What is done with a task.  The attributes of `init` have no counts that matter. -/
inductive Operation
  | init (attributes : Task)
  | fromMessage (taskRaw : TaskDetailed)
  | fromSummary (taskRaw : TaskSummary)
  | refresh (server : Server)

/-- The variable after an operation: what is returned, or what it was. -/
def assign (before : Option Task) : PyResult Task → Option Task
  | .ok task => some task
  | .error _ => before

/-- What is in the variable after an operation.  A refresh needs a task that is
refreshed. -/
def step (before : Option Task) : Operation → Option (Option Task)
  | .init attributes => some (some attributes.init)
  | .fromMessage taskRaw =>
      some (assign before (Task.fromMessage toDatetime toTimedelta taskRaw))
  | .fromSummary taskRaw =>
      some (assign before (Task.fromSummary toDatetime toTimedelta taskRaw))
  | .refresh server =>
      before.map fun task => assign before (task.refresh (getTask toDatetime toTimedelta server))

end

/-! ## Lists and counts -/

/-- The lists of ids. -/
inductive IdList
  | parentTaskIds
  | dataDependencies
  | expectedOutputIds
  | retryOfIds
  deriving DecidableEq, Repr

/-- `Task(id=...)`. -/
def Task.ofId (id : String) : Task where
  id := some id
  sessionId := none
  ownerPodId := none
  initialTaskId := none
  createdBy := none
  parentTaskIds := none
  countParentTaskIds := none
  dataDependencies := none
  countDataDependencies := none
  expectedOutputIds := none
  countExpectedOutputIds := none
  retryOfIds := none
  countRetryOfIds := none
  status := .unspecified
  statusMessage := none
  options := none
  createdAt := none
  submittedAt := none
  receivedAt := none
  acquiredAt := none
  fetchedAt := none
  startedAt := none
  processedAt := none
  endedAt := none
  podTtl := none
  creationToEndDuration := 0
  processingToEndDuration := 0
  receivedToEndDuration := 0
  output := none
  podHostname := none
  payloadId := none

namespace IdList

/-- The list of a task. -/
def ofTask (task : Task) : IdList → Option (List String)
  | parentTaskIds => task.parentTaskIds
  | dataDependencies => task.dataDependencies
  | expectedOutputIds => task.expectedOutputIds
  | retryOfIds => task.retryOfIds

/-- The attribute with the count. -/
def count (task : Task) : IdList → Option Int
  | parentTaskIds => task.countParentTaskIds
  | dataDependencies => task.countDataDependencies
  | expectedOutputIds => task.countExpectedOutputIds
  | retryOfIds => task.countRetryOfIds

/-- The list of a message. -/
def ofMessage (taskRaw : TaskDetailed) : IdList → List String
  | parentTaskIds => taskRaw.parentTaskIds
  | dataDependencies => taskRaw.dataDependencies
  | expectedOutputIds => taskRaw.expectedOutputIds
  | retryOfIds => taskRaw.retryOfIds

end IdList

namespace Task

/-- The count of every list is its length. -/
def CountsRight (task : Task) : Prop :=
  ∀ list ids, IdList.ofTask task list = some ids → IdList.count task list = some ids.length

theorem countsRight_init (attributes : Task) : attributes.init.CountsRight := by
  intro list ids hids
  cases list
  all_goals exact congrArg (Option.map fun ids : List String => (ids.length : Int)) hids

variable {toDatetime : Timestamp → PyResult Int} {toTimedelta : Duration → PyResult Int}

/-- What `from_message` returns is what the constructor makes. -/
theorem fromMessage_eq_init {taskRaw : TaskDetailed} {task : Task}
    (hok : fromMessage toDatetime toTimedelta taskRaw = .ok task) :
    task.init = task ∧ ∀ list, IdList.ofTask task list = some (IdList.ofMessage taskRaw list) := by
  have hinit : init <$> fromMessage toDatetime toTimedelta taskRaw =
      fromMessage toDatetime toTimedelta taskRaw := by
    simp only [fromMessage, map_bind, map_pure]
    rfl
  have hlists (list : IdList) : (fun task => IdList.ofTask task list) <$>
      fromMessage toDatetime toTimedelta taskRaw =
        (fun _ => some (IdList.ofMessage taskRaw list)) <$>
          fromMessage toDatetime toTimedelta taskRaw := by
    cases list
    all_goals
      simp only [fromMessage, map_bind, map_pure]
      rfl
  rw [hok] at hinit
  refine ⟨Except.ok.inj hinit, fun list => ?_⟩
  have hlist := hlists list
  rw [hok] at hlist
  exact Except.ok.inj hlist

theorem countsRight_fromMessage {taskRaw : TaskDetailed} {task : Task}
    (hok : fromMessage toDatetime toTimedelta taskRaw = .ok task) : task.CountsRight :=
  (fromMessage_eq_init hok).1 ▸ countsRight_init task

/-- The task of a summary has no lists. -/
theorem countsRight_fromSummary {taskRaw : TaskSummary} {task : Task}
    (hok : fromSummary toDatetime toTimedelta taskRaw = .ok task) : task.CountsRight := by
  have hlists (list : IdList) : (fun task => IdList.ofTask task list) <$>
      fromSummary toDatetime toTimedelta taskRaw =
        (fun _ => none) <$> fromSummary toDatetime toTimedelta taskRaw := by
    cases list
    all_goals
      simp only [fromSummary, map_bind, map_pure]
      rfl
  intro list ids hids
  have hlist := hlists list
  rw [hok] at hlist
  exact absurd (hids.symm.trans (Except.ok.inj hlist)) (Option.some_ne_none ids)

/-- A refresh writes the lists of the message, and leaves the counts. -/
theorem refresh_eq_ok {task next : Task} {server : Server}
    (hok : task.refresh (getTask toDatetime toTimedelta server) = .ok next) :
    ∃ taskRaw result, server task.id = .ok taskRaw ∧
      fromMessage toDatetime toTimedelta taskRaw = .ok result ∧
      ∀ list, IdList.ofTask next list = some (IdList.ofMessage taskRaw list) ∧
        IdList.count next list = IdList.count task list := by
  obtain ⟨result, hresult, hnext⟩ := Fallible.bind_eq_ok hok
  obtain ⟨taskRaw, hserver, hmessage⟩ := Fallible.bind_eq_ok hresult
  obtain rfl := Except.ok.inj hnext
  refine ⟨taskRaw, result, hserver, hmessage, fun list => ?_⟩
  have hlist := (fromMessage_eq_init hmessage).2 list
  cases list
  all_goals exact ⟨hlist, rfl⟩

/-- The server answers with lists that are as long as the task's counts say, or there is
no answer that can be read. -/
def AnsweredInKind (toDatetime : Timestamp → PyResult Int) (toTimedelta : Duration → PyResult Int)
    (task : Task) (server : Server) : Prop :=
  ∀ taskRaw, server task.id = .ok taskRaw →
    (∃ result, fromMessage toDatetime toTimedelta taskRaw = .ok result) →
      ∀ list, IdList.count task list = some (IdList.ofMessage taskRaw list).length

/-- After a refresh the counts are right exactly if the server answered in kind. -/
theorem countsRight_refresh_iff {task next : Task} {server : Server}
    (hok : task.refresh (getTask toDatetime toTimedelta server) = .ok next) :
    next.CountsRight ↔ AnsweredInKind toDatetime toTimedelta task server := by
  obtain ⟨taskRaw, result, hserver, hmessage, hlists⟩ := refresh_eq_ok hok
  constructor
  · intro hright other hother _ list
    obtain rfl := Except.ok.inj (hserver.symm.trans hother)
    obtain ⟨hids, hcount⟩ := hlists list
    exact hcount.symm.trans (hright list _ hids)
  · intro hanswered list ids hids
    obtain ⟨hlist, hcount⟩ := hlists list
    obtain rfl := Option.some.inj (hids.symm.trans hlist)
    exact hcount.trans (hanswered taskRaw hserver ⟨result, hmessage⟩ list)

end Task

/-! ## Sequences of operations -/

variable {toDatetime : Timestamp → PyResult Int} {toTimedelta : Duration → PyResult Int}

theorem assign_cases (before : Option Task) (result : PyResult Task) :
    assign before result = before ∨
      ∃ task, result = .ok task ∧ assign before result = some task := by
  cases result with
  | error error => exact .inl rfl
  | ok task => exact .inr ⟨task, rfl, rfl⟩

/-- An operation raises, or makes a task with right counts, or refreshes the task. -/
theorem step_cases {before next : Option Task} {operation : Operation}
    (hstep : step toDatetime toTimedelta before operation = some next) :
    next = before ∨ (∃ task, next = some task ∧ task.CountsRight) ∨
      ∃ server task after, operation = .refresh server ∧ before = some task ∧
        task.refresh (getTask toDatetime toTimedelta server) = .ok after ∧ next = some after := by
  cases operation with
  | init attributes =>
      obtain rfl := Option.some.inj hstep
      exact .inr (.inl ⟨_, rfl, Task.countsRight_init attributes⟩)
  | fromMessage taskRaw =>
      obtain rfl := Option.some.inj hstep
      rcases assign_cases before (Task.fromMessage toDatetime toTimedelta taskRaw) with
        hsame | ⟨task, hok, htask⟩
      · exact .inl hsame
      · exact .inr (.inl ⟨task, htask, Task.countsRight_fromMessage hok⟩)
  | fromSummary taskRaw =>
      obtain rfl := Option.some.inj hstep
      rcases assign_cases before (Task.fromSummary toDatetime toTimedelta taskRaw) with
        hsame | ⟨task, hok, htask⟩
      · exact .inl hsame
      · exact .inr (.inl ⟨task, htask, Task.countsRight_fromSummary hok⟩)
  | refresh server =>
      obtain ⟨task, rfl, rfl⟩ := Option.map_eq_some_iff.mp hstep
      rcases assign_cases (some task) (task.refresh (getTask toDatetime toTimedelta server)) with
        hsame | ⟨after, hok, hafter⟩
      · exact .inl hsame
      · exact .inr (.inr ⟨server, task, after, rfl, rfl, hok, hafter⟩)

/-- Every refresh of these operations is answered in kind. -/
def RefreshedInKind (toDatetime : Timestamp → PyResult Int) (toTimedelta : Duration → PyResult Int)
    (operations : List Operation) : Prop :=
  ∀ front server back task, operations = front ++ .refresh server :: back →
    Machine.run (step toDatetime toTimedelta) none front = some (some task) →
      task.AnsweredInKind toDatetime toTimedelta server

theorem RefreshedInKind.of_append {first second : List Operation}
    (h : RefreshedInKind toDatetime toTimedelta (first ++ second)) :
    RefreshedInKind toDatetime toTimedelta first := by
  rintro front server back task rfl hrun
  exact h front server (back ++ second) task (by simp) hrun

/-- After operations that were answered in kind the counts are right. -/
theorem countsRight_run {operations : List Operation} {last : Option Task}
    (hkind : RefreshedInKind toDatetime toTimedelta operations)
    (hrun : Machine.run (step toDatetime toTimedelta) none operations = some last) :
    ∀ task, last = some task → task.CountsRight := by
  induction operations using List.reverseRecOn generalizing last with
  | nil =>
      obtain rfl := Option.some.inj hrun
      intro task hnone
      cases hnone
  | append_singleton operations operation ih =>
      obtain ⟨mid, hmid, hstep⟩ := Machine.run_concat_eq_some_iff.mp hrun
      have hright := ih hkind.of_append hmid
      rcases step_cases hstep with rfl | ⟨made, rfl, hmade⟩ |
        ⟨server, task, after, rfl, rfl, hok, rfl⟩
      · exact hright
      · intro task htask
        exact Option.some.inj htask ▸ hmade
      · intro other hother
        rw [← Option.some.inj hother]
        exact (Task.countsRight_refresh_iff hok).mpr (hkind operations server [] task rfl hmid)

/-- The counts are right in every state that a sequence of operations reaches exactly if
each of its refreshes is answered in kind. -/
theorem counts_right_iff (toDatetime : Timestamp → PyResult Int)
    (toTimedelta : Duration → PyResult Int) (operations : List Operation) :
    (∀ front back task, operations = front ++ back →
        Machine.run (step toDatetime toTimedelta) none front = some (some task) →
          task.CountsRight) ↔
      RefreshedInKind toDatetime toTimedelta operations := by
  constructor
  · intro hright front server back task hoperations hrun taskRaw hserver hreads
    -- the refresh returns, and its counts are right
    obtain ⟨result, hmessage⟩ := hreads
    have hresult : getTask toDatetime toTimedelta server task.id = .ok result := by
      rw [getTask, hserver]
      exact hmessage
    obtain ⟨after, hafter⟩ : ∃ after,
        task.refresh (getTask toDatetime toTimedelta server) = .ok after := by
      rw [Task.refresh, hresult]
      exact ⟨_, rfl⟩
    have hnext : Machine.run (step toDatetime toTimedelta) none (front ++ [.refresh server]) =
        some (some after) := by
      refine Machine.run_concat_eq_some_iff.mpr ⟨some task, hrun, ?_⟩
      rw [step, Option.map_some, hafter]
      rfl
    have hcounts := hright (front ++ [.refresh server]) back after (by simp [hoperations]) hnext
    exact (Task.countsRight_refresh_iff hafter).mp hcounts taskRaw hserver ⟨result, hmessage⟩
  · rintro hkind front back task rfl hrun
    exact countsRight_run hkind.of_append hrun task rfl

/-- A task that knows its id only, refreshed: there are lists now, but no counts. -/
theorem refresh_leaves_counts :
    ∃ task, Machine.run
        (step (fun t => microseconds t.seconds t.nanos) (fun d => microseconds d.seconds d.nanos))
        none [.init (Task.ofId "task"), .refresh fun _ => .ok (endedTask true "")] =
          some (some task) ∧
      task.dataDependencies = some ["input"] ∧ task.countDataDependencies = none ∧
      ¬task.CountsRight := by
  refine ⟨_, rfl, rfl, rfl, fun hright => ?_⟩
  cases hright .dataDependencies ["input"] rfl

end ArmoniKApi.Python.Objects
