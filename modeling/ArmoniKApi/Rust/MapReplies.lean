import ArmoniKApi.Library.KeyedMap
import ArmoniKApi.Proto.Results
import ArmoniKApi.Proto.Submitter
import ArmoniKApi.Proto.Tasks
import ArmoniKApi.Rust.Enums

/-!
# Maps in the replies of the Rust client

Some replies are maps in the domain and lists of pairs on the wire.  A map goes
on the wire in the order in which it is listed, and the list is collected into a
map again, so every domain value comes back, whatever the order
(`map_replies_kept`).

The map of `Count` has statuses for keys.  The wire may hold statuses that this
version does not know, and all of these are read as `Unspecified`.  Entries with
different numbers then meet on one key and only the last of them is kept, so that
tasks are lost from the count (`count_kept_iff`).

```text
   wire                        domain
   status 4      count 10      Completed    10
   status 77     count  3
   status 78     count  5      Unspecified   5
                 total 18      total        15
```

## Strategy

* `collect_map_items` is about any map, any order of its items, and any pair of conversions:
  what is written pair by pair and read back pair by pair is collected into the same map.  Each
  `ofV3_toV3` is an instance of it.
* For `Count` the entries that lose their number are `folded`.  `mem_pairs_iff` says that, as the
  numbers are distinct, only these can meet on a key.
* `sum_overwritten`: what is lost is the sum of all folded entries but the last, by induction
  on the entries.  Together with `KeyedMap.total_collect` this is `count_kept_iff`.
-/

namespace ArmoniKApi.Rust

/-! ## The replies -/

namespace Tasks

/-- `get_result_ids::Response`. -/
structure GetResultIdsResponse where
  taskResults : KeyedMap String (List String)

namespace GetResultIdsResponse

/-- The pairs of the map, in the order in which it is gone through. -/
def toV3 (value : GetResultIdsResponse) (order : KeyedMap.Iteration value.taskResults) :
    Proto.GetResultIdsResponse where
  taskResults := order.items.map fun (taskId, resultIds) => ⟨taskId, resultIds⟩

/-- The map of the pairs, in which the last pair of a key stands. -/
def ofV3 (value : Proto.GetResultIdsResponse) : GetResultIdsResponse where
  taskResults := .collect (value.taskResults.map fun pair => (pair.taskId, pair.resultIds))

end GetResultIdsResponse

end Tasks

namespace Results

/-- `get_owner_task_id::Response`. -/
structure GetOwnerTaskIdResponse where
  resultTask : KeyedMap String String
  sessionId : String

namespace GetOwnerTaskIdResponse

/-- The pairs of the map, in the order in which it is gone through. -/
def toV3 (value : GetOwnerTaskIdResponse) (order : KeyedMap.Iteration value.resultTask) :
    Proto.GetOwnerTaskIdResponse where
  resultTask := order.items.map fun (key, value) => { resultId := key, taskId := value }
  sessionId := value.sessionId

/-- The map of the pairs, by result. -/
def ofV3 (value : Proto.GetOwnerTaskIdResponse) : GetOwnerTaskIdResponse where
  resultTask := .collect (value.resultTask.map fun keyValuePair =>
    (keyValuePair.resultId, keyValuePair.taskId))
  sessionId := value.sessionId

end GetOwnerTaskIdResponse

end Results

namespace Submitter

/-- `task_status::Response`. -/
structure TaskStatusResponse where
  statuses : KeyedMap String TaskStatus

namespace TaskStatusResponse

/-- The pairs of the map, with the numbers of the statuses. -/
def toV3 (value : TaskStatusResponse) (order : KeyedMap.Iteration value.statuses) :
    Proto.GetTaskStatusReply where
  idStatuses := order.items.map fun (id, status) => { taskId := id, status := status.asI32 }

/-- The map of the pairs, by task. -/
def ofV3 (value : Proto.GetTaskStatusReply) : TaskStatusResponse where
  statuses := .collect (value.idStatuses.map fun idStatus =>
    (idStatus.taskId, TaskStatus.ofI32 idStatus.status))

end TaskStatusResponse

/-- `result_status::Response`. -/
structure ResultStatusResponse where
  statuses : KeyedMap String ResultStatus

namespace ResultStatusResponse

/-- The pairs of the map, with the numbers of the statuses. -/
def toV3 (value : ResultStatusResponse) (order : KeyedMap.Iteration value.statuses) :
    Proto.GetResultStatusReply where
  idStatuses := order.items.map fun (id, status) => { resultId := id, status := status.asI32 }

/-- The map of the pairs, by result. -/
def ofV3 (value : Proto.GetResultStatusReply) : ResultStatusResponse where
  statuses := .collect (value.idStatuses.map fun idStatus =>
    (idStatus.resultId, ResultStatus.ofI32 idStatus.status))

end ResultStatusResponse

end Submitter

/-! ## What comes back -/

/-- When each pair of a map is written and read back as it was, the map is what
is collected from what was written. -/
theorem collect_map_items {K V B : Type*} [DecidableEq K] {write : K × V → B} {read : B → K × V}
    (hread : ∀ item, read (write item) = item) {map : KeyedMap K V}
    (order : KeyedMap.Iteration map) :
    KeyedMap.collect ((order.items.map write).map read) = map := by
  have hitems : (order.items.map write).map read = order.items := by
    rw [List.map_map]
    exact (List.map_congr_left fun item _ => hread item).trans (List.map_id order.items)
  rw [hitems, KeyedMap.collect_items order]

theorem Tasks.GetResultIdsResponse.ofV3_toV3 (value : Tasks.GetResultIdsResponse)
    (order : KeyedMap.Iteration value.taskResults) : ofV3 (value.toV3 order) = value :=
  congrArg mk (collect_map_items (fun _ => rfl) order)

theorem Results.GetOwnerTaskIdResponse.ofV3_toV3 (value : Results.GetOwnerTaskIdResponse)
    (order : KeyedMap.Iteration value.resultTask) : ofV3 (value.toV3 order) = value :=
  congrArg (mk · value.sessionId) (collect_map_items (fun _ => rfl) order)

theorem Submitter.TaskStatusResponse.ofV3_toV3 (value : Submitter.TaskStatusResponse)
    (order : KeyedMap.Iteration value.statuses) : ofV3 (value.toV3 order) = value :=
  congrArg mk (collect_map_items
    (fun item => congrArg (Prod.mk item.1) (TaskStatus.codec_lawful.decode_encode item.2)) order)

theorem Submitter.ResultStatusResponse.ofV3_toV3 (value : Submitter.ResultStatusResponse)
    (order : KeyedMap.Iteration value.statuses) : ofV3 (value.toV3 order) = value :=
  congrArg mk (collect_map_items
    (fun item => congrArg (Prod.mk item.1) (ResultStatus.codec_lawful.decode_encode item.2)) order)

/-- The four replies come back as they were, in whatever order their maps are
listed. -/
theorem map_replies_kept :
    (∀ (value : Tasks.GetResultIdsResponse) (order : KeyedMap.Iteration value.taskResults),
      Tasks.GetResultIdsResponse.ofV3 (value.toV3 order) = value) ∧
    (∀ (value : Results.GetOwnerTaskIdResponse) (order : KeyedMap.Iteration value.resultTask),
      Results.GetOwnerTaskIdResponse.ofV3 (value.toV3 order) = value) ∧
    (∀ (value : Submitter.TaskStatusResponse) (order : KeyedMap.Iteration value.statuses),
      Submitter.TaskStatusResponse.ofV3 (value.toV3 order) = value) ∧
    ∀ (value : Submitter.ResultStatusResponse) (order : KeyedMap.Iteration value.statuses),
      Submitter.ResultStatusResponse.ofV3 (value.toV3 order) = value :=
  ⟨Tasks.GetResultIdsResponse.ofV3_toV3, Results.GetOwnerTaskIdResponse.ofV3_toV3,
    Submitter.TaskStatusResponse.ofV3_toV3, Submitter.ResultStatusResponse.ofV3_toV3⟩

/-! ## Counts -/

/-- `Count`: how many tasks have each status. -/
structure Count where
  values : KeyedMap TaskStatus Int

namespace Count

/-- The pairs of the map, in the order in which it is gone through. -/
def toV3 (value : Count) (order : KeyedMap.Iteration value.values) : Proto.Count where
  values := order.items.map fun (status, count) => { status := status.asI32, count := count }

/-- The pairs that `ofV3` collects. -/
def pairs (entries : List Proto.StatusCount) : List (TaskStatus × Int) :=
  entries.map fun sc => (TaskStatus.ofI32 sc.status, sc.count)

/-- The map of the pairs, by status.  Numbers that this version does not know have one
status, and meet on one key. -/
def ofV3 (value : Proto.Count) : Count where
  values := .collect (pairs value.values)

theorem ofV3_toV3 (value : Count) (order : KeyedMap.Iteration value.values) :
    ofV3 (value.toV3 order) = value := by
  have hpairs : pairs (value.toV3 order).values = order.items := by
    rw [pairs, toV3, List.map_map]
    refine (List.map_congr_left fun item _ => ?_).trans (List.map_id order.items)
    exact congrArg (·, item.2) (TaskStatus.codec_lawful.decode_encode item.1)
  rw [ofV3, hpairs, KeyedMap.collect_items order]

/-- The entries that are read as `Unspecified`: their status is 0, or unknown to
this version. -/
def folded (entries : List Proto.StatusCount) : List Proto.StatusCount :=
  entries.filter fun entry => TaskStatus.ofI32 entry.status = .unspecified

/-- A known status has one number. -/
theorem ofI32_eq_iff {n : Int} {status : TaskStatus} (hstatus : status ≠ .unspecified) :
    TaskStatus.ofI32 n = status ↔ n = status.asI32 := by
  constructor
  · intro h
    subst h
    unfold TaskStatus.ofI32 at hstatus ⊢
    split at hstatus <;> first | rfl | exact absurd rfl hstatus
  · rintro rfl
    exact TaskStatus.codec_lawful.decode_encode status

/-- Among entries of different numbers those that are folded meet, and no
others. -/
theorem mem_pairs_iff {entry : Proto.StatusCount} {rest : List Proto.StatusCount}
    (hdistinct : ((entry :: rest).map Proto.StatusCount.status).Nodup) :
    TaskStatus.ofI32 entry.status ∈ (pairs rest).map Prod.fst ↔
      TaskStatus.ofI32 entry.status = .unspecified ∧ folded rest ≠ [] := by
  rw [List.map_cons, List.nodup_cons] at hdistinct
  have hfolded : folded rest ≠ [] ↔
      ∃ other ∈ rest, TaskStatus.ofI32 other.status = .unspecified := by
    simp [folded]
  rw [hfolded, pairs, List.map_map, List.mem_map]
  constructor
  · rintro ⟨other, hother, hsame⟩
    by_cases hunspecified : TaskStatus.ofI32 entry.status = .unspecified
    · exact ⟨hunspecified, other, hother, hsame.trans hunspecified⟩
    · -- a known status that came again would have the same number again
      have hnumbers := (ofI32_eq_iff hunspecified).mp hsame
      have hentry := (ofI32_eq_iff hunspecified).mp (Eq.refl (TaskStatus.ofI32 entry.status))
      have hmem := List.mem_map.mpr ⟨other, hother, hnumbers.trans hentry.symm⟩
      exact absurd hmem hdistinct.1
  · rintro ⟨hunspecified, other, hother, hsame⟩
    exact ⟨other, hother, hsame.trans hunspecified.symm⟩

/-- What is lost is the folded entries but the last. -/
theorem sum_overwritten {entries : List Proto.StatusCount}
    (hdistinct : (entries.map Proto.StatusCount.status).Nodup) :
    ((KeyedMap.overwritten (pairs entries)).map Prod.snd).sum =
      ((folded entries).dropLast.map Proto.StatusCount.count).sum := by
  induction entries with
  | nil => rfl
  | cons entry rest ih =>
      have hrest := ih (List.nodup_cons.mp hdistinct).2
      have hmem := mem_pairs_iff hdistinct
      rw [pairs, List.map_cons, ← pairs, KeyedMap.overwritten]
      by_cases hunspecified : TaskStatus.ofI32 entry.status = .unspecified
      · have hfolded : folded (entry :: rest) = entry :: folded rest :=
          List.filter_cons_of_pos (decide_eq_true hunspecified)
        rw [hfolded]
        by_cases hlast : folded rest = []
        · rw [if_neg fun hagain => (hmem.mp hagain).2 hlast, hrest, hlast]
          rfl
        · rw [if_pos (hmem.mpr ⟨hunspecified, hlast⟩), List.dropLast_cons_of_ne_nil hlast,
            List.map_cons, List.sum_cons, List.map_cons, List.sum_cons, hrest]
      · have hfolded : folded (entry :: rest) = folded rest :=
          List.filter_cons_of_neg fun h => hunspecified (of_decide_eq_true h)
        rw [hfolded, if_neg fun hagain => hunspecified (hmem.mp hagain).1, hrest]

/-- Entries of different statuses keep their total when those that are read as
`Unspecified` count nothing but in the last of them, and only then.  A count of
the domain comes back. -/
theorem count_kept_iff (count : Proto.Count)
    (hdistinct : (count.values.map Proto.StatusCount.status).Nodup) (value : Count)
    (order : KeyedMap.Iteration value.values) :
    (KeyedMap.total (ofV3 count).values = (count.values.map Proto.StatusCount.count).sum ↔
        ((folded count.values).dropLast.map Proto.StatusCount.count).sum = 0) ∧
      ofV3 (value.toV3 order) = value := by
  refine ⟨?_, value.ofV3_toV3 order⟩
  have htotal := KeyedMap.total_collect (pairs count.values)
  rw [sum_overwritten hdistinct] at htotal
  have hsum : ((pairs count.values).map Prod.snd).sum =
      (count.values.map Proto.StatusCount.count).sum := by
    rw [pairs, List.map_map]
    rfl
  rw [hsum] at htotal
  show KeyedMap.total (KeyedMap.collect (pairs count.values)) = _ ↔ _
  omega

/-- One status that is not known. -/
theorem count_kept_of_one_unknown :
    let count : Proto.Count := ⟨[⟨4, 10⟩, ⟨99, 2⟩]⟩
    KeyedMap.total (ofV3 count).values = 12 := by
  intro count
  have hkept := count_kept_iff count (by decide) ⟨.collect [(.completed, 1)]⟩
    (KeyedMap.Iteration.ofCollect _ (by decide))
  exact hkept.1.mpr rfl

/-- Of the tasks of two unknown statuses only those of the last are counted. -/
theorem count_loses_unknown :
    let count : Proto.Count := ⟨[⟨4, 10⟩, ⟨98, 3⟩, ⟨99, 2⟩]⟩
    (count.values.map Proto.StatusCount.status).Nodup ∧
      (count.values.map Proto.StatusCount.count).sum = 15 ∧
      KeyedMap.total (ofV3 count).values = 12 := by
  refine ⟨by decide, rfl, ?_⟩
  decide

end Count

end ArmoniKApi.Rust
