import ArmoniKApi.Rust.MapReplies
import ArmoniKApi.Sdks.ResultFiles

/-!
# The owner tasks of results in C++, Java and Rust

A client asks which tasks are to produce some results, and gets a list of pairs,
each of a result and of its owner.  The three clients make a map of it.

In Java and Rust the keys are the results.  In C++ they are the owners: results
that share an owner are lost but for the last of them, and no result is found
under its id unless it is an owner itself
(`getOwnerTaskId_keeps_owners_iff`).

```text
   reply                       Java and Rust           C++
   ("r", "task")               "r" -> "task"           "task" -> "r"
   ("s", "task")               "s" -> "task"           (replaced)  "task" -> "s"
```

## Strategy

* `PairsOwners.keepsOwners_byResult`: a map by result keeps the owners.  The maps of Java and Rust
  are this map; in Java only if no result is paired twice, as `toMap` throws otherwise.
* `PairsOwners.owned_of_lookup`: under a key of the C++ map there is a result that the key owns.
* `PairsOwners.mem_keys_iff`: the keys are the owners.
* `PairsOwners.ownersPaired` and `PairsOwners.keepsOwners_cpp` are the two directions: if every
  result is a key, then each of them is the owner of one, and the map goes back and forth.
-/

namespace ArmoniKApi

open Proto (GetOwnerTaskIdRequest GetOwnerTaskIdResponse MapResultTask)

/-! ## Owners -/

/-- The reply pairs each requested result with its owner, and no other result. -/
structure PairsOwners (resultIds : List String) (owner : String → String)
    (reply : List MapResultTask) : Prop where
  requested : ∀ pair ∈ reply, pair.resultId ∈ resultIds
  owner : ∀ pair ∈ reply, pair.taskId = owner pair.resultId
  answered : ∀ resultId ∈ resultIds, ∃ pair ∈ reply, pair.resultId = resultId

/-- The map sends each requested result to its owner, and has an entry for each
result. -/
structure KeepsOwners (resultIds : List String) (owner : String → String)
    (mapping : KeyedMap String String) : Prop where
  owners : ∀ resultId ∈ resultIds, mapping.lookup resultId = some (owner resultId)
  entries : mapping.keys.card = resultIds.toFinset.card

/-- The owner of each requested result is a requested result, whose owner is the
first one. -/
def OwnersPaired (resultIds : List String) (owner : String → String) : Prop :=
  ∀ resultId ∈ resultIds, owner resultId ∈ resultIds ∧ owner (owner resultId) = resultId

/-! ## The clients -/

namespace Cpp

/-- The loop over the reply: the key is the task. -/
def ownerMapping (reply : List MapResultTask) : KeyedMap String String :=
  .collect (reply.map fun ridTid => (ridTid.taskId, ridTid.resultId))

/-- `ResultsClient::get_owner_task_id`. -/
def getOwnerTaskId (stub : GetOwnerTaskIdRequest → Except Status GetOwnerTaskIdResponse)
    (sessionId : String) (resultIds : List String) : Except String (KeyedMap String String) :=
  match stub { sessionId := sessionId, resultId := resultIds } with
  | .error status =>
      .error ("Error getting owner task id: " ++ toString status.errorCode ++ ": " ++
        status.errorMessage ++ ". details : " ++ status.errorDetails ++ "\n")
  | .ok response => .ok (ownerMapping response.resultTask)

end Cpp

namespace Java

/-- `Collectors.toMap`, which refuses a key that is there already. -/
def toMapInto (map : KeyedMap String String) :
    List (String × String) → Except String (KeyedMap String String)
  | [] => .ok map
  | (key, value) :: rest =>
      match map.lookup key with
      | some old => .error ("Duplicate key " ++ key ++ " (attempted merging values " ++ old ++
          " and " ++ value ++ ")")
      | none => toMapInto (map.insert key value) rest

/-- `ResultClient.getOwnerTaskId`, on the list of the reply. -/
def ownerMapping (reply : List MapResultTask) : Except String (KeyedMap String String) :=
  toMapInto ∅ (reply.map fun pair => (pair.resultId, pair.taskId))

end Java

/-! ## Maps by result -/

variable {resultIds : List String} {owner : String → String} {reply : List MapResultTask}

/-- The pairs of the reply, by result. -/
def byResult (reply : List MapResultTask) : List (String × String) :=
  reply.map fun pair => (pair.resultId, pair.taskId)

theorem map_fst_byResult (reply : List MapResultTask) :
    (byResult reply).map Prod.fst = reply.map MapResultTask.resultId := by
  rw [byResult, List.map_map]
  rfl

/-- Under a result there is nothing but its owner. -/
theorem PairsOwners.owner_of_mem (hpairs : PairsOwners resultIds owner reply)
    {key value : String} (hmem : (key, value) ∈ byResult reply) : value = owner key := by
  obtain ⟨pair, hpair, heq⟩ := List.mem_map.mp hmem
  obtain ⟨rfl, rfl⟩ := Prod.mk.inj heq
  exact hpairs.owner pair hpair

theorem PairsOwners.toFinset_eq (hpairs : PairsOwners resultIds owner reply) :
    (reply.map MapResultTask.resultId).toFinset = resultIds.toFinset := by
  ext key
  rw [List.mem_toFinset, List.mem_toFinset, List.mem_map]
  constructor
  · rintro ⟨pair, hpair, rfl⟩
    exact hpairs.requested pair hpair
  · exact hpairs.answered key

/-- A map by result keeps the owners, as that of the Rust client does. -/
theorem PairsOwners.keepsOwners_byResult (hpairs : PairsOwners resultIds owner reply) :
    KeepsOwners resultIds owner (.collect (byResult reply)) := by
  have hkeys : (KeyedMap.collect (byResult reply)).keys = resultIds.toFinset := by
    rw [KeyedMap.keys_collect, map_fst_byResult, hpairs.toFinset_eq]
  refine ⟨fun resultId hresult => ?_, congrArg Finset.card hkeys⟩
  have hmem : resultId ∈ (KeyedMap.collect (byResult reply)).keys := by
    rw [hkeys]
    exact List.mem_toFinset.mpr hresult
  obtain ⟨value, hvalue⟩ := Finmap.mem_iff.mp (Finmap.mem_keys.mp hmem)
  rw [hvalue, hpairs.owner_of_mem (KeyedMap.mem_of_lookup_collect hvalue)]

theorem PairsOwners.keepsOwners_rust (hpairs : PairsOwners resultIds owner reply)
    (sessionId : String) :
    KeepsOwners resultIds owner
      (Rust.Results.GetOwnerTaskIdResponse.ofV3 ⟨reply, sessionId⟩).resultTask :=
  hpairs.keepsOwners_byResult

/-- While no key comes twice, `toMap` fills a map as any other. -/
theorem Java.toMapInto_eq {items : List (String × String)} {map : KeyedMap String String}
    (hnodup : (items.map Prod.fst).Nodup) (hnew : ∀ item ∈ items, map.lookup item.1 = none) :
    toMapInto map items = .ok (KeyedMap.collectInto map items) := by
  induction items generalizing map with
  | nil => rfl
  | cons item rest ih =>
      rw [List.map_cons, List.nodup_cons] at hnodup
      have hnone := hnew item (List.mem_cons_self ..)
      rw [toMapInto, hnone, KeyedMap.collectInto]
      refine ih hnodup.2 fun other hother => ?_
      have hne : other.1 ≠ item.1 := by
        intro hsame
        exact hnodup.1 (hsame ▸ List.mem_map_of_mem hother)
      rw [Finmap.lookup_insert_of_ne _ hne]
      exact hnew other (List.mem_cons_of_mem _ hother)

/-- The Java client keeps the owners when the reply pairs no result twice. -/
theorem PairsOwners.keepsOwners_java (hpairs : PairsOwners resultIds owner reply)
    (hnodup : (reply.map MapResultTask.resultId).Nodup) :
    ∃ mapping, Java.ownerMapping reply = .ok mapping ∧ KeepsOwners resultIds owner mapping := by
  refine ⟨.collect (byResult reply), ?_, hpairs.keepsOwners_byResult⟩
  rw [← map_fst_byResult] at hnodup
  exact Java.toMapInto_eq hnodup fun item _ => Finmap.lookup_empty item.1

/-! ## The map by task -/

/-- What a key of the C++ map leads to is a result that the key owns. -/
theorem PairsOwners.owned_of_lookup (hpairs : PairsOwners resultIds owner reply)
    {key value : String} (hlookup : (Cpp.ownerMapping reply).lookup key = some value) :
    value ∈ resultIds ∧ owner value = key := by
  obtain ⟨pair, hpair, heq⟩ := List.mem_map.mp (KeyedMap.mem_of_lookup_collect hlookup)
  obtain ⟨rfl, rfl⟩ := Prod.mk.inj heq
  exact ⟨hpairs.requested pair hpair, (hpairs.owner pair hpair).symm⟩

/-- The keys of the C++ map are the owners. -/
theorem PairsOwners.mem_keys_iff (hpairs : PairsOwners resultIds owner reply) {key : String} :
    key ∈ (Cpp.ownerMapping reply).keys ↔ ∃ resultId ∈ resultIds, owner resultId = key := by
  rw [Cpp.ownerMapping, KeyedMap.keys_collect, List.mem_toFinset, List.map_map, List.mem_map]
  constructor
  · rintro ⟨pair, hpair, rfl⟩
    exact ⟨pair.resultId, hpairs.requested pair hpair, (hpairs.owner pair hpair).symm⟩
  · rintro ⟨resultId, hresult, rfl⟩
    obtain ⟨pair, hpair, rfl⟩ := hpairs.answered resultId hresult
    exact ⟨pair, hpair, hpairs.owner pair hpair⟩

theorem PairsOwners.keepsOwners_cpp (hpairs : PairsOwners resultIds owner reply)
    (hpaired : OwnersPaired resultIds owner) :
    KeepsOwners resultIds owner (Cpp.ownerMapping reply) := by
  -- the owners are the results themselves
  have hkeys : (Cpp.ownerMapping reply).keys = resultIds.toFinset := by
    ext key
    rw [hpairs.mem_keys_iff, List.mem_toFinset]
    constructor
    · rintro ⟨resultId, hresult, rfl⟩
      exact (hpaired resultId hresult).1
    · intro hkey
      exact ⟨owner key, (hpaired key hkey).1, (hpaired key hkey).2⟩
  refine ⟨fun resultId hresult => ?_, congrArg Finset.card hkeys⟩
  have hmem : resultId ∈ (Cpp.ownerMapping reply).keys := by
    rw [hkeys]
    exact List.mem_toFinset.mpr hresult
  obtain ⟨value, hvalue⟩ := Finmap.mem_iff.mp (Finmap.mem_keys.mp hmem)
  obtain ⟨hrequested, howner⟩ := hpairs.owned_of_lookup hvalue
  rw [hvalue, ← howner, (hpaired value hrequested).2]

theorem PairsOwners.ownersPaired (hpairs : PairsOwners resultIds owner reply)
    (hkeeps : KeepsOwners resultIds owner (Cpp.ownerMapping reply)) :
    OwnersPaired resultIds owner :=
  fun resultId hresult => hpairs.owned_of_lookup (hkeeps.owners resultId hresult)

/-- The C++ client keeps the owners of the requested results just when these own
each other in pairs. -/
theorem getOwnerTaskId_keeps_owners_iff
    (stub : GetOwnerTaskIdRequest → Except Cpp.Status GetOwnerTaskIdResponse) (sessionId : String)
    (resultIds : List String) (owner : String → String) (response : GetOwnerTaskIdResponse)
    (hresponse : stub ⟨sessionId, resultIds⟩ = .ok response)
    (hpairs : PairsOwners resultIds owner response.resultTask) :
    (∃ mapping, Cpp.getOwnerTaskId stub sessionId resultIds = .ok mapping ∧
        KeepsOwners resultIds owner mapping) ↔
      OwnersPaired resultIds owner := by
  have hreturns : Cpp.getOwnerTaskId stub sessionId resultIds =
      .ok (Cpp.ownerMapping response.resultTask) := by
    rw [Cpp.getOwnerTaskId, hresponse]
  rw [hreturns]
  constructor
  · rintro ⟨mapping, hmapping, hkeeps⟩
    obtain rfl := Except.ok.inj hmapping
    exact hpairs.ownersPaired hkeeps
  · intro hpaired
    exact ⟨_, rfl, hpairs.keepsOwners_cpp hpaired⟩

/-- A server that knows the owners. -/
def answering (owner : String → String) (request : GetOwnerTaskIdRequest) :
    Except Cpp.Status GetOwnerTaskIdResponse :=
  .ok ⟨request.resultId.map fun resultId => ⟨resultId, owner resultId⟩, request.sessionId⟩

theorem pairsOwners_answering (owner : String → String) (resultIds : List String) :
    PairsOwners resultIds owner
      (resultIds.map fun resultId => ⟨resultId, owner resultId⟩) := by
  refine ⟨fun pair hpair => ?_, fun pair hpair => ?_, fun resultId hresult => ?_⟩
  · obtain ⟨resultId, hresult, rfl⟩ := List.mem_map.mp hpair
    exact hresult
  · obtain ⟨resultId, hresult, rfl⟩ := List.mem_map.mp hpair
    rfl
  · exact ⟨_, List.mem_map_of_mem hresult, rfl⟩

/-- Two results with the ids of each other's owners. -/
def swapped (resultId : String) : String := if resultId = "a" then "b" else "a"

theorem getOwnerTaskId_keeps_swapped :
    ∃ mapping, Cpp.getOwnerTaskId (answering swapped) "session" ["a", "b"] = .ok mapping ∧
      KeepsOwners ["a", "b"] swapped mapping := by
  refine (getOwnerTaskId_keeps_owners_iff (answering swapped) "session" ["a", "b"] swapped _ rfl
    (pairsOwners_answering swapped ["a", "b"])).mpr ?_
  intro resultId hresult
  rcases List.mem_pair.mp hresult with rfl | rfl <;> decide

/-- Of two results of one task the map has the second, under the task. -/
theorem getOwnerTaskId_loses_result :
    ∃ mapping, Cpp.getOwnerTaskId (answering fun _ => "task") "session" ["a", "b"] = .ok mapping ∧
      PairsOwners ["a", "b"] (fun _ => "task") [⟨"a", "task"⟩, ⟨"b", "task"⟩] ∧
      mapping.keys = {"task"} ∧ mapping.lookup "task" = some "b" ∧ mapping.lookup "a" = none ∧
      ¬ KeepsOwners ["a", "b"] (fun _ => "task") mapping := by
  have hlookup : (Cpp.ownerMapping [⟨"a", "task"⟩, ⟨"b", "task"⟩]).lookup "a" = none := by decide
  refine ⟨_, rfl, pairsOwners_answering (fun _ => "task") ["a", "b"], by decide, by decide,
    hlookup, fun hkeeps => ?_⟩
  have howner := hkeeps.owners "a" (List.mem_cons_self ..)
  cases howner.symm.trans hlookup

end ArmoniKApi
