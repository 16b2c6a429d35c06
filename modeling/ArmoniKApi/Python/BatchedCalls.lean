import ArmoniKApi.Library.Batches
import ArmoniKApi.Proto.Results
import ArmoniKApi.Python.Batched
import ArmoniKApi.Python.Objects
import ArmoniKApi.Python.SubmitTasks
import Mathlib.Data.List.AList

/-!
# Batched calls in Python

The clients of results and of tasks, and the handler of a task, cut what they are given into
batches of a size that the caller may choose, and make a request of each batch.

When the service treats what is in a request item by item, the size of the batches does not
show in what a call returns.  Of the calls that return nothing it does not show in which items
are sent, in which order, whatever the service does.

* `createResults_creates_all`, `createResultsMetadata_keeps_iff`: creating results, from a
  dictionary of names and data, and from a list of names, in which a name may come twice.
* `getOwnerTaskId_keepsOwners`, `getResultIds_keepsResults`: asking for what belongs to ids.
* `submitTasks_eq_ok_iff`: submitting tasks.
* `cancelTasks_sendsIds`, `deleteResultData_sendsIds`: the calls that return nothing.

## Strategy

The calls are instances of `Library.Batches`.  What each of them has to supply is the same:

```text
message     the request of a batch, as the loop makes it
entriesOf   what a request says of each of its entries, with what it says of them all
put         how a reply is put into the dictionary or the list that is returned
```

`entriesOf` carries the session and the token, so that a service may look at these and still
treat the entries one by one (`Batches.ItemByItem`); a service that refuses a session refuses
every entry of it.

* The four calls that create results differ in messages only, and are one theorem
  (`createsAll`, `CreatesAll`).  From a dictionary no name comes twice; from a list of names it
  may, and then the later result takes the place of the earlier one under the name
  (`CreatesAll.card_keys_iff`).
* `submitBatches_eq_call` shows the loop of a submission, which builds tasks of the replies, as
  a call in batches; the options of a task are checked before anything is sent.
* For the calls that return nothing, `SendsIds` says which ids were sent, for any service and
  also when the call raises.

A call that raises may raise something else for another size of the batches, and nothing is
said about which exception it is.
-/

namespace ArmoniKApi.Python

open Batches (Calls ItemByItem)
open Proto (Timestamp ResultRaw Bytes)

/-! ## Results -/

/-- `Result`.  `from_message` makes a member of `ResultStatus` of the status, which equals its
number, and `from_result_metadata` keeps the number. -/
structure Result where
  sessionId : Option String
  name : Option String
  createdBy : Option String
  ownerTaskId : Option String
  status : Int
  createdAt : Option Int
  completedAt : Option Int
  resultId : Option String
  size : Option Int
  opaqueId : Option Bytes
  deriving DecidableEq, Repr

/-- `ResultStatus(number)`. -/
def resultStatus (number : Int) : PyResult Proto.ResultStatus :=
  match number with
  | 0 => return .unspecified
  | 1 => return .created
  | 2 => return .completed
  | 3 => return .aborted
  | 4 => return .deleted
  | 127 => return .notfound
  | _ => throw .valueError

section Conversions

variable (toDatetime : Timestamp → PyResult Int)

/-- `Result.from_message`. -/
def Result.fromMessage (resultRaw : ResultRaw) : PyResult Result := do
  return {
    sessionId := some resultRaw.sessionId
    name := some resultRaw.name
    createdBy := some resultRaw.createdBy
    ownerTaskId := some resultRaw.ownerTaskId
    status := (← resultStatus resultRaw.status).number
    createdAt := ← Objects.timestampToDatetime toDatetime resultRaw.createdAt
    completedAt := ← Objects.timestampToDatetime toDatetime resultRaw.completedAt
    resultId := some resultRaw.resultId
    size := some resultRaw.size
    opaqueId := some resultRaw.opaqueId }

/-- `Result.from_result_metadata`. -/
def Result.fromResultMetadata (resultMetadata : Proto.Agent.ResultMetaData) : PyResult Result := do
  return {
    sessionId := some resultMetadata.sessionId
    name := some resultMetadata.name
    createdBy := none
    ownerTaskId := none
    status := resultMetadata.status
    createdAt := ← Objects.timestampToDatetime toDatetime resultMetadata.createdAt
    completedAt := none
    resultId := some resultMetadata.resultId
    size := none
    opaqueId := none }

end Conversions

/-- A stub, which may raise. -/
abbrev Stub (Request Response : Type) := Batches.Service PyError Request Response

/-- A dictionary, in the order of its insertions. -/
abbrev Dict (V : Type) := AList fun _ : String => V

/-- A key of a dictionary. -/
abbrev Dict.Key {V : Type} (dict : Dict V) := {name : String // name ∈ dict.keys}

/-- `dict[name]`. -/
def Dict.get {V : Type} (dict : Dict V) (name : dict.Key) : V :=
  Option.get (α := V) (AList.lookup name.1 dict) (AList.lookup_isSome.mpr name.2)

/-! ## The client of results -/

namespace ArmoniKResults

variable (toDatetime : Timestamp → PyResult Int)

/-- `create_results_metadata`. -/
def createResultsMetadata
    (client : Stub Proto.CreateResultsMetaDataRequest Proto.CreateResultsMetaDataResponse)
    (resultNames : List String) (sessionId : String) (batchSize : ℕ) :
    Calls PyError Proto.CreateResultsMetaDataRequest (KeyedMap String Result) :=
  Batches.call
    (fun resultNamesBatch => .ok {
      results := resultNamesBatch.map fun resultName => ⟨resultName, false⟩
      sessionId := sessionId })
    client (fun response => response.results)
    (Batches.insertReply ResultRaw.name (Result.fromMessage toDatetime)) [] ∅
    (batched resultNames batchSize)

/-- `create_results`. -/
def createResults (client : Stub Proto.CreateResultsRequest Proto.CreateResultsResponse)
    (resultsData : Dict Bytes) (sessionId : String) (batchSize : ℕ) :
    Calls PyError Proto.CreateResultsRequest (KeyedMap String Result) :=
  Batches.call
    (fun resultsNamesBatch => .ok {
      results := resultsNamesBatch.map fun name : resultsData.Key =>
        ⟨name, resultsData.get name, false⟩
      sessionId := sessionId })
    client (fun response => response.results)
    (Batches.insertReply ResultRaw.name (Result.fromMessage toDatetime)) [] ∅
    (batched resultsData.keys.attach batchSize)

/-- `get_owner_task_id`. -/
def getOwnerTaskId (client : Stub Proto.GetOwnerTaskIdRequest Proto.GetOwnerTaskIdResponse)
    (resultIds : List String) (sessionId : String) (batchSize : ℕ) :
    Calls PyError Proto.GetOwnerTaskIdRequest (KeyedMap String String) :=
  Batches.call (fun resultIdsBatch => .ok { sessionId := sessionId, resultId := resultIdsBatch })
    client (fun response => response.resultTask)
    (Batches.insertReply Proto.MapResultTask.resultId fun resultTask => .ok resultTask.taskId) [] ∅
    (batched resultIds batchSize)

/-- `delete_result_data`. -/
def deleteResultData {Response : Type} (client : Stub Proto.DeleteResultsDataRequest Response)
    (resultIds : List String) (sessionId : String) (batchSize : ℕ) :
    Calls PyError Proto.DeleteResultsDataRequest Unit :=
  Batches.call (fun resultIdsBatch => .ok { sessionId := sessionId, resultId := resultIdsBatch })
    client (fun _ => ([] : List Unit)) (fun _ _ => .ok ()) [] () (batched resultIds batchSize)

end ArmoniKResults

/-! ## The client of tasks -/

namespace ArmoniKTasks

/-- `cancel_tasks`. -/
def cancelTasks {Response : Type} (client : Stub Proto.CancelTasksRequest Response)
    (taskIds : List String) (chunkSize : ℕ) : Calls PyError Proto.CancelTasksRequest Unit :=
  Batches.call (fun taskIdBatch => .ok { taskIds := taskIdBatch }) client
    (fun _ => ([] : List Unit)) (fun _ _ => .ok ()) [] () (batched taskIds chunkSize)

/-- `get_result_ids`. -/
def getResultIds (client : Stub Proto.GetResultIdsRequest Proto.GetResultIdsResponse)
    (taskIds : List String) (chunkSize : ℕ) :
    Calls PyError Proto.GetResultIdsRequest (KeyedMap String (List String)) :=
  Batches.call (fun taskIdsBatch => .ok { taskId := taskIdsBatch }) client
    (fun resultIdsResponse => resultIdsResponse.taskResults)
    (Batches.insertReply Proto.MapTaskResult.taskId fun t => .ok t.resultIds) [] ∅
    (batched taskIds chunkSize)

end ArmoniKTasks

/-! ## The handler of a task -/

namespace TaskHandler

variable (toDatetime : Timestamp → PyResult Int) (self : TaskHandler)

/-- `create_results_metadata`. -/
def createResultsMetadata (client : Stub Proto.Agent.CreateResultsMetaDataRequest
      Proto.Agent.CreateResultsMetaDataResponse) (resultNames : List String) (batchSize : ℕ) :
    Calls PyError Proto.Agent.CreateResultsMetaDataRequest (KeyedMap String Result) :=
  Batches.call
    (fun resultNamesBatch => .ok {
      results := resultNamesBatch.map fun resultName => ⟨resultName⟩
      sessionId := self.sessionId
      communicationToken := self.token })
    client (fun response => response.results)
    (Batches.insertReply Proto.Agent.ResultMetaData.name (Result.fromResultMetadata toDatetime))
    [] ∅ (batched resultNames batchSize)

/-- `create_results`. -/
def createResults
    (client : Stub Proto.Agent.CreateResultsRequest Proto.Agent.CreateResultsResponse)
    (resultsData : Dict Bytes) (batchSize : ℕ) :
    Calls PyError Proto.Agent.CreateResultsRequest (KeyedMap String Result) :=
  Batches.call
    (fun resultsIdsBatch => .ok {
      results := resultsIdsBatch.map fun name : resultsData.Key => ⟨name, resultsData.get name⟩
      sessionId := self.sessionId
      communicationToken := self.token })
    client (fun response => response.results)
    (Batches.insertReply Proto.Agent.ResultMetaData.name (Result.fromResultMetadata toDatetime))
    [] ∅ (batched resultsData.keys.attach batchSize)

end TaskHandler

/-! ## The batches -/

theorem batched_eq_nil_iff {α : Type} {items : List α} {n : ℕ} :
    batched items n = [] ↔ items = [] := by
  constructor
  · intro h
    rw [← flatten_batched items n, h, List.flatten_nil]
  · rintro rfl
    rfl

theorem length_le_of_mem_batchedFrom {α : Type} {n : ℕ} {batch items other : List α}
    (hbatch : batch.length < n) (h : other ∈ batchedFrom n batch items) : other.length ≤ n := by
  induction items generalizing batch with
  | nil =>
      rw [batchedFrom] at h
      split at h
      · rw [List.mem_singleton.mp h]
        exact hbatch.le
      · exact absurd h List.not_mem_nil
  | cons c rest ih =>
      rw [batchedFrom] at h
      split at h
      -- the batch is full and is yielded, or it gets one item more
      · rename_i hfull
        rcases List.mem_cons.mp h with rfl | h
        · exact hfull.le
        · have hempty : ([] : List α).length < n := Nat.zero_lt_of_lt hbatch
          exact ih hempty h
      · rename_i hnot
        refine ih (lt_of_le_of_ne ?_ hnot) h
        rw [List.length_append, List.length_singleton]
        exact hbatch

/-! ## Creating results

Four calls create results: the client and the handler of a task do, each from a dictionary of
names and data, or from a list of names.  They differ in the messages and in what else a request
says: the session, and the communication token of the handler. -/

section Creating

variable {α E Request Response R : Type}

/-- What a call that creates results does, when there is no more to it than the entries that it
is given.  Whether it returns and what it returns does not depend on the size of the batches; and
when it returns, each entry was sent once, in order, with what the request says of it, and the
dictionary has under each name the result that was made of the reply to the last entry of that
name, given after the replies to the entries before it. -/
structure CreatesAll (made : ℕ → Calls PyError Request (KeyedMap String Result))
    (entriesOf : Request → List E) (entries : List E) (nameOf : E → String)
    (create : List E → E → PyResult R) (value : R → PyResult Result) (batchSize : ℕ) : Prop where
  independent : ∀ other final,
    (made batchSize).outcome = .ok final ↔ (made other).outcome = .ok final
  sent : ∀ final, (made batchSize).outcome = .ok final →
    (made batchSize).sent.flatMap entriesOf = entries
  creates : ∀ final, (made batchSize).outcome = .ok final →
    Batches.Creates entries nameOf create value final

variable {message : List α → Request} {convert : α → E} {entriesOf : Request → List E}
  {replies : Response → List R} {create : List E → E → PyResult R} {nameOf : E → String}
  {key : R → String} {value : R → PyResult Result} {client : Stub Request Response}

/-- The four calls are of this form. -/
theorem createsAll (value : R → PyResult Result)
    (hcarries : Batches.Carries message convert entriesOf)
    (hclient : ItemByItem client entriesOf replies (Batches.single create))
    (hname : ∀ earlier entry reply, create earlier entry = .ok reply → key reply = nameOf entry)
    (given : List α) (batchSize : ℕ) :
    CreatesAll (fun size => Batches.call (fun batch => .ok (message batch)) client replies
        (Batches.insertReply key value) [] ∅ (batched given size))
      entriesOf (given.map convert) nameOf create value batchSize where
  independent := by
    intro other final
    refine Batches.outcome_eq_ok_iff_of_flatten_eq hcarries.requests hclient ?_ ?_
    · rw [flatten_batched, flatten_batched]
    · rw [batched_eq_nil_iff, batched_eq_nil_iff]
  sent := by
    intro final hfinal
    have hsent := (hcarries.sent_prefix client _ _ _ _).2 final hfinal
    rwa [flatten_batched] at hsent
  creates := by
    intro final hfinal
    have hcreates := hcarries.creates_of_outcome_eq_ok hclient hname hfinal
    rwa [flatten_batched] at hcreates

variable {made : ℕ → Calls PyError Request (KeyedMap String Result)} {entries : List E}
  {batchSize : ℕ}

/-- Where every name is given once, each entry is found under its name. -/
theorem CreatesAll.each (h : CreatesAll made entriesOf entries nameOf create value batchSize)
    (hnodup : (entries.map nameOf).Nodup) {final : KeyedMap String Result}
    (hfinal : (made batchSize).outcome = .ok final) {before after : List E} {entry : E}
    (hentries : entries = before ++ entry :: after) :
    ∃ result, final.lookup (nameOf entry) = some result ∧
      Batches.MadeOf create value before entry result := by
  refine (h.creates final hfinal).made before entry after hentries fun hagain => ?_
  rw [hentries, List.map_append, List.map_cons] at hnodup
  exact (List.nodup_cons.mp (List.nodup_append.mp hnodup).2.1).1 hagain

/-- There are as many results as entries if no name is given twice. -/
theorem CreatesAll.card_keys_iff
    (h : CreatesAll made entriesOf entries nameOf create value batchSize)
    {final : KeyedMap String Result} (hfinal : (made batchSize).outcome = .ok final) :
    final.keys.card = (entries.map nameOf).length ↔ (entries.map nameOf).Nodup := by
  rw [(h.creates final hfinal).keys]
  exact Multiset.toFinset_card_eq_card_iff_nodup (m := (entries.map nameOf : Multiset String))

end Creating

/-! ### From a dictionary -/

section CreateResults

/-- What a request says of each entry: the session and the entry. -/
def ArmoniKResults.entriesOf (request : Proto.CreateResultsRequest) :
    List (String × Proto.CreateResultsRequest.ResultCreate) :=
  request.results.map fun entry => (request.sessionId, entry)

/-- What is to be created of a dictionary, by the client. -/
def ArmoniKResults.entries (resultsData : Dict Bytes) (sessionId : String) :
    List (String × Proto.CreateResultsRequest.ResultCreate) :=
  resultsData.keys.attach.map fun name : resultsData.Key =>
    (sessionId, ⟨name, resultsData.get name, false⟩)

/-- What a request of the worker says of each entry: the session, the token and the entry. -/
def TaskHandler.entriesOf (request : Proto.Agent.CreateResultsRequest) :
    List (String × String × Proto.Agent.CreateResultsRequest.ResultCreate) :=
  request.results.map fun entry => (request.sessionId, request.communicationToken, entry)

/-- What is to be created of a dictionary, by the worker. -/
def TaskHandler.entries (self : TaskHandler) (resultsData : Dict Bytes) :
    List (String × String × Proto.Agent.CreateResultsRequest.ResultCreate) :=
  resultsData.keys.attach.map fun name : resultsData.Key =>
    (self.sessionId, self.token, ⟨name, resultsData.get name⟩)

theorem ArmoniKResults.names_entries (resultsData : Dict Bytes) (sessionId : String) :
    (entries resultsData sessionId).map (fun entry => entry.2.name) = resultsData.keys := by
  rw [entries, List.map_map]
  exact List.attach_map_subtype_val resultsData.keys

theorem TaskHandler.names_entries (self : TaskHandler) (resultsData : Dict Bytes) :
    (self.entries resultsData).map (fun entry => entry.2.2.name) = resultsData.keys := by
  rw [entries, List.map_map]
  exact List.attach_map_subtype_val resultsData.keys

/-- A dictionary is created whole by the client and by the worker, whatever the size of the
batches: each entry is sent once, with its session and, from the worker, with the token, and the
result that is found under a name was made of the reply to the entry of that name. -/
theorem createResults_creates_all (toDatetime : Timestamp → PyResult Int)
    (resultsData : Dict Bytes) (batchSize : ℕ) :
    (∀ (client : Stub Proto.CreateResultsRequest Proto.CreateResultsResponse)
        (create : List (String × Proto.CreateResultsRequest.ResultCreate) →
          String × Proto.CreateResultsRequest.ResultCreate → PyResult ResultRaw)
        (sessionId : String),
      ItemByItem client ArmoniKResults.entriesOf Proto.CreateResultsResponse.results
          (Batches.single create) →
      (∀ earlier entry message, create earlier entry = .ok message →
          message.name = entry.2.name) →
      CreatesAll (ArmoniKResults.createResults toDatetime client resultsData sessionId)
          ArmoniKResults.entriesOf (ArmoniKResults.entries resultsData sessionId)
          (fun entry => entry.2.name) create (Result.fromMessage toDatetime) batchSize ∧
        ∀ final, (ArmoniKResults.createResults toDatetime client resultsData sessionId
            batchSize).outcome = .ok final →
          ∀ before entry after,
            ArmoniKResults.entries resultsData sessionId = before ++ entry :: after →
              ∃ result, final.lookup entry.2.name = some result ∧
                Batches.MadeOf create (Result.fromMessage toDatetime) before entry result) ∧
    (∀ (self : TaskHandler)
        (client : Stub Proto.Agent.CreateResultsRequest Proto.Agent.CreateResultsResponse)
        (create : List (String × String × Proto.Agent.CreateResultsRequest.ResultCreate) →
          String × String × Proto.Agent.CreateResultsRequest.ResultCreate →
            PyResult Proto.Agent.ResultMetaData),
      ItemByItem client TaskHandler.entriesOf Proto.Agent.CreateResultsResponse.results
          (Batches.single create) →
      (∀ earlier entry message, create earlier entry = .ok message →
          message.name = entry.2.2.name) →
      CreatesAll (self.createResults toDatetime client resultsData) TaskHandler.entriesOf
          (self.entries resultsData) (fun entry => entry.2.2.name) create
          (Result.fromResultMetadata toDatetime) batchSize ∧
        ∀ final, (self.createResults toDatetime client resultsData batchSize).outcome =
            .ok final →
          ∀ before entry after, self.entries resultsData = before ++ entry :: after →
            ∃ result, final.lookup entry.2.2.name = some result ∧
              Batches.MadeOf create (Result.fromResultMetadata toDatetime) before entry
                result) := by
  constructor
  · intro client create sessionId hclient hname
    have hcarries : Batches.Carries
        (fun resultsNamesBatch : List resultsData.Key => ({
          results := resultsNamesBatch.map fun name : resultsData.Key =>
            ⟨name, resultsData.get name, false⟩
          sessionId := sessionId } : Proto.CreateResultsRequest))
        (fun name => (sessionId, ⟨name, resultsData.get name, false⟩))
        ArmoniKResults.entriesOf := fun batch => List.map_map
    have hall := createsAll (Result.fromMessage toDatetime) hcarries hclient hname
      resultsData.keys.attach batchSize
    -- the keys of a dictionary are distinct, so that each result is found under its name
    have hnodup : ((ArmoniKResults.entries resultsData sessionId).map
        fun entry => entry.2.name).Nodup := by
      rw [ArmoniKResults.names_entries]
      exact resultsData.keys_nodup
    exact ⟨hall, fun final hfinal before entry after hentries =>
      hall.each hnodup hfinal hentries⟩
  · intro self client create hclient hname
    have hcarries : Batches.Carries
        (fun resultsIdsBatch : List resultsData.Key => ({
          results := resultsIdsBatch.map fun name : resultsData.Key =>
            ⟨name, resultsData.get name⟩
          sessionId := self.sessionId
          communicationToken := self.token } : Proto.Agent.CreateResultsRequest))
        (fun name => (self.sessionId, self.token, ⟨name, resultsData.get name⟩))
        TaskHandler.entriesOf := fun batch => List.map_map
    have hall := createsAll (Result.fromResultMetadata toDatetime) hcarries hclient hname
      resultsData.keys.attach batchSize
    have hnodup : ((self.entries resultsData).map fun entry => entry.2.2.name).Nodup := by
      rw [self.names_entries]
      exact resultsData.keys_nodup
    exact ⟨hall, fun final hfinal before entry after hentries =>
      hall.each hnodup hfinal hentries⟩

/-- A server that numbers the results of one session, and refuses the others. -/
def numbering (earlier : List (String × Proto.CreateResultsRequest.ResultCreate))
    (entry : String × Proto.CreateResultsRequest.ResultCreate) : PyResult ResultRaw :=
  if entry.1 = "session" then
    .ok {
      sessionId := entry.1
      name := entry.2.name
      ownerTaskId := ""
      status := 1
      createdAt := none
      completedAt := none
      resultId := toString earlier.length
      size := entry.2.data.length
      createdBy := ""
      opaqueId := []
      manualDeletion := entry.2.manualDeletion }
  else .error .rpcError

/-- An agent that does the same for those who know its token. -/
def agentNumbering
    (earlier : List (String × String × Proto.Agent.CreateResultsRequest.ResultCreate))
    (entry : String × String × Proto.Agent.CreateResultsRequest.ResultCreate) :
    PyResult Proto.Agent.ResultMetaData :=
  if entry.2.1 = "token" then
    .ok ⟨entry.1, toString earlier.length, entry.2.2.name, 1, none⟩
  else .error .rpcError

/-- A dictionary of two names. -/
def twoResults : Dict Bytes := (AList.singleton "b" [2, 3]).insert "a" [1]

theorem name_of_numbering {earlier : List (String × Proto.CreateResultsRequest.ResultCreate)}
    {entry : String × Proto.CreateResultsRequest.ResultCreate} {message : ResultRaw}
    (h : numbering earlier entry = .ok message) : message.name = entry.2.name := by
  unfold numbering at h
  split at h
  · cases h
    rfl
  · cases h

theorem name_of_agentNumbering
    {earlier : List (String × String × Proto.Agent.CreateResultsRequest.ResultCreate)}
    {entry : String × String × Proto.Agent.CreateResultsRequest.ResultCreate}
    {message : Proto.Agent.ResultMetaData} (h : agentNumbering earlier entry = .ok message) :
    message.name = entry.2.2.name := by
  unfold agentNumbering at h
  split at h
  · cases h
    rfl
  · cases h

/-- A response with these results. -/
def responding (all : List Proto.Agent.ResultMetaData) : Proto.Agent.CreateResultsResponse :=
  ⟨all, "token"⟩

theorem createResults_creates_two :
    (∃ final result, (ArmoniKResults.createResults (fun t => .ok t.seconds) (Batches.serving
        ArmoniKResults.entriesOf Proto.CreateResultsResponse.mk (Batches.single numbering))
        twoResults "session" 1).outcome = .ok final ∧
      final.lookup "b" = some result ∧ result.resultId = some "1" ∧ result.size = some 2) ∧
    ∃ final, (TaskHandler.createResults (fun t => .ok t.seconds) ⟨"session", "token", "payload"⟩
        (Batches.serving TaskHandler.entriesOf responding (Batches.single agentNumbering))
        twoResults 1).outcome = .ok final ∧ final.keys = {"a", "b"} := by
  have hcreates := createResults_creates_all (fun t => .ok t.seconds) twoResults 1
  obtain ⟨-, heach⟩ := hcreates.1 _ numbering "session"
    (Batches.itemByItem_serving (fun _ => rfl) _) fun _ _ _ => name_of_numbering
  obtain ⟨hagent, -⟩ := hcreates.2 ⟨"session", "token", "payload"⟩ _ agentNumbering
    (Batches.itemByItem_serving (fun all => (rfl : (responding all).results = all)) _)
    fun _ _ _ => name_of_agentNumbering
  refine ⟨?_, ⟨_, rfl, (hagent.creates _ rfl).keys⟩⟩
  obtain ⟨result, hlookup, message, hmessage, hmade⟩ :=
    heach _ rfl [("session", ⟨"a", [1], false⟩)] ("session", ⟨"b", [2, 3], false⟩) [] rfl
  refine ⟨_, result, rfl, hlookup, ?_⟩
  cases hmessage
  cases hmade
  exact ⟨rfl, rfl⟩

end CreateResults

/-! ### From names -/

section CreateResultsMetadata

/-- What a request says of each entry: the session and the entry. -/
def ArmoniKResults.metadataOf (request : Proto.CreateResultsMetaDataRequest) :
    List (String × Proto.CreateResultsMetaDataRequest.ResultCreate) :=
  request.results.map fun entry => (request.sessionId, entry)

/-- What a request of the worker says of each entry: the session, the token and the entry. -/
def TaskHandler.metadataOf (request : Proto.Agent.CreateResultsMetaDataRequest) :
    List (String × String × Proto.Agent.ResultCreate) :=
  request.results.map fun entry => (request.sessionId, request.communicationToken, entry)

/-- The client and the worker create as many results as they are given names, whatever the size
of the batches, and return under each name the one that was created last.  They return as many
as they create just if no name comes twice. -/
theorem createResultsMetadata_keeps_iff (toDatetime : Timestamp → PyResult Int)
    (resultNames : List String) (batchSize : ℕ) :
    (∀ (client : Stub Proto.CreateResultsMetaDataRequest Proto.CreateResultsMetaDataResponse)
        (create : List (String × Proto.CreateResultsMetaDataRequest.ResultCreate) →
          String × Proto.CreateResultsMetaDataRequest.ResultCreate → PyResult ResultRaw)
        (sessionId : String),
      ItemByItem client ArmoniKResults.metadataOf Proto.CreateResultsMetaDataResponse.results
          (Batches.single create) →
      (∀ earlier entry message, create earlier entry = .ok message →
          message.name = entry.2.name) →
      CreatesAll (ArmoniKResults.createResultsMetadata toDatetime client resultNames sessionId)
          ArmoniKResults.metadataOf (resultNames.map fun name => (sessionId, ⟨name, false⟩))
          (fun entry => entry.2.name) create (Result.fromMessage toDatetime) batchSize ∧
        ∀ final, (ArmoniKResults.createResultsMetadata toDatetime client resultNames sessionId
            batchSize).outcome = .ok final →
          (final.keys.card = resultNames.length ↔ resultNames.Nodup)) ∧
    (∀ (self : TaskHandler) (client : Stub Proto.Agent.CreateResultsMetaDataRequest
          Proto.Agent.CreateResultsMetaDataResponse)
        (create : List (String × String × Proto.Agent.ResultCreate) →
          String × String × Proto.Agent.ResultCreate → PyResult Proto.Agent.ResultMetaData),
      ItemByItem client TaskHandler.metadataOf Proto.Agent.CreateResultsMetaDataResponse.results
          (Batches.single create) →
      (∀ earlier entry message, create earlier entry = .ok message →
          message.name = entry.2.2.name) →
      CreatesAll (self.createResultsMetadata toDatetime client resultNames)
          TaskHandler.metadataOf
          (resultNames.map fun name => (self.sessionId, self.token, ⟨name⟩))
          (fun entry => entry.2.2.name) create (Result.fromResultMetadata toDatetime) batchSize ∧
        ∀ final, (self.createResultsMetadata toDatetime client resultNames batchSize).outcome =
            .ok final →
          (final.keys.card = resultNames.length ↔ resultNames.Nodup)) := by
  constructor
  · intro client create sessionId hclient hname
    have hcarries : Batches.Carries
        (fun resultNamesBatch => ({
          results := resultNamesBatch.map fun resultName => ⟨resultName, false⟩
          sessionId := sessionId } : Proto.CreateResultsMetaDataRequest))
        (fun name => (sessionId, ⟨name, false⟩)) ArmoniKResults.metadataOf :=
      fun batch => List.map_map
    have hall := createsAll (Result.fromMessage toDatetime) hcarries hclient hname
      resultNames batchSize
    refine ⟨hall, fun final hfinal => ?_⟩
    have hcard := hall.card_keys_iff hfinal
    rwa [List.map_map, List.map_id''] at hcard
    exact fun _ => rfl
  · intro self client create hclient hname
    have hcarries : Batches.Carries
        (fun resultNamesBatch => ({
          results := resultNamesBatch.map fun resultName => ⟨resultName⟩
          sessionId := self.sessionId
          communicationToken := self.token } : Proto.Agent.CreateResultsMetaDataRequest))
        (fun name => (self.sessionId, self.token, ⟨name⟩)) TaskHandler.metadataOf :=
      fun batch => List.map_map
    have hall := createsAll (Result.fromResultMetadata toDatetime) hcarries hclient hname
      resultNames batchSize
    refine ⟨hall, fun final hfinal => ?_⟩
    have hcard := hall.card_keys_iff hfinal
    rwa [List.map_map, List.map_id''] at hcard
    exact fun _ => rfl

/-- A response with these results. -/
def answering (all : List Proto.Agent.ResultMetaData) :
    Proto.Agent.CreateResultsMetaDataResponse :=
  ⟨all, "token"⟩

/-- A server that numbers the results, of which two have one name. -/
theorem createResultsMetadata_keeps_one :
    (∃ final : KeyedMap String Result,
      (ArmoniKResults.createResultsMetadata (fun t => .ok t.seconds)
        (Batches.serving ArmoniKResults.metadataOf Proto.CreateResultsMetaDataResponse.mk
          (Batches.single fun earlier entry => numbering
            (earlier.map fun other => (other.1, ⟨other.2.name, [], other.2.manualDeletion⟩))
            (entry.1, ⟨entry.2.name, [], entry.2.manualDeletion⟩)))
        ["a", "b"] "session" 1).outcome = .ok final ∧ final.keys.card = 2) ∧
    ∃ final : KeyedMap String Result,
      (TaskHandler.createResultsMetadata (fun t => .ok t.seconds) ⟨"session", "token", "payload"⟩
        (Batches.serving TaskHandler.metadataOf answering
          (Batches.single fun earlier entry =>
            .ok ⟨entry.1, toString earlier.length, entry.2.2.name, 1, none⟩))
        ["a", "a"] 1).outcome = .ok final ∧
      final.keys.card ≠ 2 := by
  constructor
  · have hkeeps := (createResultsMetadata_keeps_iff (fun t => .ok t.seconds) ["a", "b"] 1).1 _ _
      "session" (Batches.itemByItem_serving (fun _ => rfl)
        (Batches.single fun earlier entry => numbering
          (earlier.map fun other => (other.1, ⟨other.2.name, [], other.2.manualDeletion⟩))
          (entry.1, ⟨entry.2.name, [], entry.2.manualDeletion⟩)))
      fun _ _ _ h => name_of_numbering h
    exact ⟨_, rfl, (hkeeps.2 _ rfl).mpr (by decide)⟩
  · have hkeeps := (createResultsMetadata_keeps_iff (fun t => .ok t.seconds) ["a", "a"] 1).2
      ⟨"session", "token", "payload"⟩ _ _
      (Batches.itemByItem_serving (fun all => (rfl : (answering all).results = all))
        (Batches.single fun earlier entry =>
          .ok ⟨entry.1, toString earlier.length, entry.2.2.name, 1, none⟩))
      fun earlier entry message h => by cases h; rfl
    refine ⟨_, rfl, fun hcard => ?_⟩
    exact absurd ((hkeeps.2 _ rfl).mp hcard) (by decide)

end CreateResultsMetadata

/-! ## Asking for what belongs to ids -/

/-- Each requested result is found with its owner, whatever the size of the batches. -/
theorem getOwnerTaskId_keepsOwners
    {client : Stub Proto.GetOwnerTaskIdRequest Proto.GetOwnerTaskIdResponse}
    {owner : String → String}
    (hclient : ∀ earlier request, ∃ response, client earlier request = .ok response ∧
      Batches.Answers request.resultId owner
        (response.resultTask.map fun pair => (pair.resultId, pair.taskId)))
    (resultIds : List String) (sessionId : String) (batchSize : ℕ) :
    ∃ final, (ArmoniKResults.getOwnerTaskId client resultIds sessionId batchSize).outcome =
      .ok final ∧ Batches.Keeps resultIds owner final := by
  have hmessage (batch : List String) :
      ({ sessionId := sessionId, resultId := batch } : Proto.GetOwnerTaskIdRequest).resultId =
        batch := rfl
  obtain ⟨final, hfinal, hkeeps⟩ := Batches.exists_keeps hmessage hclient
    (Batches.keeps_nil owner) (batched resultIds batchSize)
  rw [flatten_batched, List.nil_append] at hkeeps
  exact ⟨final, hfinal, hkeeps⟩

/-- Each requested task is found with the ids of its results. -/
theorem getResultIds_keepsResults
    (client : Stub Proto.GetResultIdsRequest Proto.GetResultIdsResponse)
    (resultIds : String → List String)
    (hclient : ∀ earlier request, ∃ response, client earlier request = .ok response ∧
      Batches.Answers request.taskId resultIds
        (response.taskResults.map fun t => (t.taskId, t.resultIds)))
    (taskIds : List String) (chunkSize : ℕ) :
    ∃ final, (ArmoniKTasks.getResultIds client taskIds chunkSize).outcome = .ok final ∧
      Batches.Keeps taskIds resultIds final := by
  have hmessage (batch : List String) :
      ({ taskId := batch } : Proto.GetResultIdsRequest).taskId = batch := rfl
  obtain ⟨final, hfinal, hkeeps⟩ := Batches.exists_keeps hmessage hclient
    (Batches.keeps_nil resultIds) (batched taskIds chunkSize)
  rw [flatten_batched, List.nil_append] at hkeeps
  exact ⟨final, hfinal, hkeeps⟩

/-- A service that knows the results of tasks `"a"` and `"b"`. -/
def knowing (resultIds : String → List String) :
    Stub Proto.GetResultIdsRequest Proto.GetResultIdsResponse :=
  fun _ request => .ok ⟨request.taskId.map fun taskId => ⟨taskId, resultIds taskId⟩⟩

theorem getResultIds_keepsResults_knowing :
    ∃ final, (ArmoniKTasks.getResultIds (knowing fun taskId => [taskId ++ "/0", taskId ++ "/1"])
        ["a", "b"] 1).outcome = .ok final ∧ final.lookup "b" = some ["b/0", "b/1"] := by
  obtain ⟨final, hfinal, hkeeps⟩ := getResultIds_keepsResults
    (knowing fun taskId => [taskId ++ "/0", taskId ++ "/1"])
    (fun taskId => [taskId ++ "/0", taskId ++ "/1"])
    (fun earlier request => ⟨_, rfl, by
      refine ⟨fun pair hpair => ?_, fun pair hpair => ?_, fun id hid => ?_⟩
      · simp only [List.map_map, List.mem_map] at hpair
        obtain ⟨id, hid, rfl⟩ := hpair
        exact hid
      · simp only [List.map_map, List.mem_map] at hpair
        obtain ⟨id, hid, rfl⟩ := hpair
        rfl
      · simpa using hid⟩) ["a", "b"] 1
  exact ⟨final, hfinal, hkeeps.values "b" (by decide)⟩

/-! ## Submitting tasks -/

theorem foldlM_task (task : Proto.SubmitTasksResponse.TaskInfo → Task)
    (infos : List Proto.SubmitTasksResponse.TaskInfo) (submitted : List Task) :
    infos.foldlM (fun tasks info => (.ok (tasks ++ [task info]) : PyResult (List Task))) submitted =
      .ok (submitted ++ infos.map task) := by
  induction infos generalizing submitted with
  | nil => exact congrArg Except.ok (List.append_nil submitted).symm
  | cons info rest ih =>
      refine (ih (submitted ++ [task info])).trans ?_
      rw [List.map_cons, List.append_assoc, List.singleton_append]

/-- The loop of a submission is a call in batches. -/
theorem submitBatches_eq_call {Request : Type}
    (creation : TaskDefinition → PyResult Proto.TaskCreation)
    (request : List Proto.TaskCreation → PyResult Request)
    (task : Proto.SubmitTasksResponse.TaskInfo → Task) (submitTasks : SubmitTasks Request)
    (sent : List Request) (taskInfos : List Proto.SubmitTasksResponse.TaskInfo)
    (submitted : List Task) (batches : List (List TaskDefinition)) :
    (submitBatches creation request task submitTasks sent taskInfos submitted batches).outcome =
      (Batches.call (fun batch => do request (← batch.mapM creation)) submitTasks id
        (fun tasks info => .ok (tasks ++ [task info])) sent submitted batches).outcome := by
  induction batches generalizing sent taskInfos submitted with
  | nil => rfl
  | cons batch rest ih =>
      rw [submitBatches, Batches.call]
      cases (do request (← batch.mapM creation) : PyResult Request) with
      | error error => rfl
      | ok message =>
          cases hanswer : submitTasks sent message with
          | error error => simp only [hanswer]
          | ok infos => simp only [hanswer, id_eq, foldlM_task, ih]

/-- What a request says of each creation: the session and the default options. -/
def ArmoniKTasks.entriesOf (request : Proto.SubmitTasksRequest) :
    List (String × Option Proto.TaskOptions × Proto.TaskCreation) :=
  request.taskCreations.map fun creation => (request.sessionId, request.taskOptions, creation)

/-- A creation, with the session and the default options. -/
def ArmoniKTasks.entry (sessionId : String) (defaultTaskOptions : Option TaskOptions)
    (t : TaskDefinition) :
    PyResult (String × Option Proto.TaskOptions × Proto.TaskCreation) := do
  let options ← optionsMessage defaultTaskOptions
  return (sessionId, options, ← ArmoniKTasks.creation t)

theorem mapM_entry_eq_ok_iff {sessionId : String} {defaultTaskOptions : Option TaskOptions}
    {options : Option Proto.TaskOptions}
    (hoptions : optionsMessage defaultTaskOptions = .ok options)
    {tasks : List TaskDefinition}
    {entries : List (String × Option Proto.TaskOptions × Proto.TaskCreation)} :
    tasks.mapM (ArmoniKTasks.entry sessionId defaultTaskOptions) = .ok entries ↔
      ∃ creations, tasks.mapM ArmoniKTasks.creation = .ok creations ∧
        entries = creations.map fun creation => (sessionId, options, creation) := by
  have hentry : ArmoniKTasks.entry sessionId defaultTaskOptions = fun t =>
      (ArmoniKTasks.creation t).map fun creation => (sessionId, options, creation) := by
    funext t
    unfold ArmoniKTasks.entry
    rw [hoptions]
    cases ArmoniKTasks.creation t <;> rfl
  rw [hentry]
  exact Fallible.mapM_map_eq_ok_iff

theorem ArmoniKTasks.requests (sessionId : String) (defaultTaskOptions : Option TaskOptions) :
    Batches.Requests
      (fun batch => batch.mapM ArmoniKTasks.creation >>=
        ArmoniKTasks.request sessionId defaultTaskOptions)
      (ArmoniKTasks.entry sessionId defaultTaskOptions) ArmoniKTasks.entriesOf
      (∃ options, optionsMessage defaultTaskOptions = .ok options) where
  of_ok := by
    intro batch message hmessage
    obtain ⟨creations, hcreations, hrequest⟩ := Fallible.bind_eq_ok hmessage
    obtain ⟨options, hoptions, hsame⟩ := Fallible.bind_eq_ok hrequest
    cases hsame
    exact ⟨mapM_entry_eq_ok_iff hoptions |>.mpr ⟨creations, hcreations, rfl⟩, options, hoptions⟩
  exists_ok := by
    rintro batch converted hconverted ⟨options, hoptions⟩
    obtain ⟨creations, hcreations, -⟩ := (mapM_entry_eq_ok_iff hoptions).mp hconverted
    refine ⟨⟨sessionId, options, creations⟩,
      Fallible.bind_eq_ok_iff.mpr ⟨creations, hcreations, ?_⟩⟩
    exact Fallible.bind_eq_ok_iff.mpr ⟨options, hoptions, rfl⟩

/-- The client returns tasks just when there is nothing to submit, or the default options fit,
every definition can be converted, and the service takes the creations, one after the other,
given the session and the default options.  The tasks are made of its answers, and the size of
the batches does not show in them. -/
theorem submitTasks_eq_ok_iff {client : SubmitTasks Proto.SubmitTasksRequest}
    {one : List (String × Option Proto.TaskOptions × Proto.TaskCreation) →
      String × Option Proto.TaskOptions × Proto.TaskCreation →
        PyResult (List Proto.SubmitTasksResponse.TaskInfo)}
    (hclient : ItemByItem client ArmoniKTasks.entriesOf id one)
    (sessionId : String) (tasks : List TaskDefinition) (defaultTaskOptions : Option TaskOptions)
    (chunkSize : ℕ) (submitted : List Task) :
    (ArmoniKTasks.submitTasks client sessionId tasks defaultTaskOptions chunkSize).outcome =
        .ok submitted ↔
      tasks = [] ∧ submitted = [] ∨
      ∃ options creations infos, optionsMessage defaultTaskOptions = .ok options ∧
        tasks.mapM ArmoniKTasks.creation = .ok creations ∧
        Batches.serve one [] (creations.map fun creation => (sessionId, options, creation)) =
          .ok infos ∧
        submitted = infos.map (ArmoniKTasks.task sessionId) := by
  unfold ArmoniKTasks.submitTasks
  rw [submitBatches_eq_call,
    Batches.outcome_eq_ok_iff (ArmoniKTasks.requests sessionId defaultTaskOptions) hclient,
    flatten_batched, ne_eq, batched_eq_nil_iff, List.flatMap_nil]
  constructor
  · rintro ⟨hready, converted, infos, hconverted, hinfos, hsubmitted⟩
    rw [foldlM_task, List.nil_append] at hsubmitted
    obtain rfl := Except.ok.inj hsubmitted
    -- without a batch the options are not converted, so they may be anything
    by_cases hempty : tasks = []
    · subst hempty
      cases hconverted
      cases hinfos
      exact .inl ⟨rfl, rfl⟩
    · obtain ⟨options, hoptions⟩ := hready hempty
      obtain ⟨creations, hcreations, rfl⟩ := (mapM_entry_eq_ok_iff hoptions).mp hconverted
      exact .inr ⟨options, creations, infos, hoptions, hcreations, hinfos, rfl⟩
  · rintro (⟨rfl, rfl⟩ | ⟨options, creations, infos, hoptions, hcreations, hinfos, rfl⟩)
    · exact ⟨fun hne => absurd rfl hne, [], [], rfl, rfl, rfl⟩
    · refine ⟨fun _ => ⟨options, hoptions⟩, _, infos,
        (mapM_entry_eq_ok_iff hoptions).mpr ⟨creations, hcreations, rfl⟩, hinfos, ?_⟩
      rw [foldlM_task, List.nil_append]

/-- A service that numbers the creations of one session, and gives those without options the
default ones as output. -/
def echoing (earlier : List (String × Option Proto.TaskOptions × Proto.TaskCreation))
    (entry : String × Option Proto.TaskOptions × Proto.TaskCreation) :
    PyResult (List Proto.SubmitTasksResponse.TaskInfo) :=
  if entry.1 = "session" then
    .ok [⟨toString earlier.length, entry.2.2.expectedOutputKeys, [], entry.2.2.payloadId⟩]
  else .error .rpcError

theorem submitTasks_eq_ok_iff_echo :
    ∃ submitted, (ArmoniKTasks.submitTasks (Batches.serving ArmoniKTasks.entriesOf id echoing)
        "session" [sampleDefinition "in" "a" (some sampleOptions), sampleDefinition "in" "b" none]
        (some sampleOptions) 1).outcome = .ok submitted ∧
      submitted.map Task.id = ["0", "1"] := by
  refine ⟨_, (submitTasks_eq_ok_iff (Batches.itemByItem_serving (fun _ => rfl) echoing) "session"
    _ (some sampleOptions) 1 _).mpr (.inr ⟨_, _, _, rfl, rfl, rfl, rfl⟩), rfl⟩

/-! ## The calls that return nothing -/

/-- The requests made of ids: together they name the first of the ids, in order and each as
often as it was given, and none of them is empty or larger than a batch. -/
structure SendsIds {Request : Type} (idsOf : Request → List String) (ids : List String) (size : ℕ)
    (made : Calls PyError Request Unit) : Prop where
  front : made.sent.flatMap idsOf <+: ids
  all : made.outcome = .ok () → made.sent.flatMap idsOf = ids
  ne_nil : ∀ request ∈ made.sent, idsOf request ≠ []
  length_le : ∀ request ∈ made.sent, (idsOf request).length ≤ size

theorem sendsIds {Request Response : Type} {message : List String → Request}
    {idsOf : Request → List String} (hmessage : ∀ batch, idsOf (message batch) = batch)
    (client : Stub Request Response) (ids : List String) {size : ℕ} (hsize : 1 ≤ size) :
    SendsIds idsOf ids size (Batches.call (fun batch => .ok (message batch)) client
      (fun _ => ([] : List Unit)) (fun _ _ => .ok ()) [] () (batched ids size)) := by
  have hcarries : Batches.Carries message id idsOf := fun batch => by
    rw [hmessage, List.map_id]
  have hfront := hcarries.sent_prefix client (fun _ => ([] : List Unit)) (fun _ _ => .ok ()) ()
    (batched ids size)
  rw [flatten_batched, List.map_id] at hfront
  have hempty : ([] : List String).length < size := hsize
  refine ⟨hfront.1, hfront.2 (), fun request hrequest => ?_, fun request hrequest => ?_⟩
  · obtain ⟨batch, hbatch, rfl⟩ := Batches.mem_sent hrequest
    rw [hmessage]
    exact ne_nil_of_mem_batchedFrom hbatch
  · obtain ⟨batch, hbatch, rfl⟩ := Batches.mem_sent hrequest
    rw [hmessage]
    exact length_le_of_mem_batchedFrom hempty hbatch

/-- Whatever the service does. -/
theorem cancelTasks_sendsIds {Response : Type} (client : Stub Proto.CancelTasksRequest Response)
    (taskIds : List String) {chunkSize : ℕ} (hchunk : 1 ≤ chunkSize) :
    SendsIds Proto.CancelTasksRequest.taskIds taskIds chunkSize
      (ArmoniKTasks.cancelTasks client taskIds chunkSize) :=
  sendsIds (fun _ => rfl) client taskIds hchunk

/-- The service refuses the second batch. -/
theorem cancelTasks_sendsIds_refused :
    (ArmoniKTasks.cancelTasks (fun earlier _ => if earlier = [] then .ok () else
        .error .rpcError) ["a", "b", "a", "c", "d"] 2).sent.flatMap
        Proto.CancelTasksRequest.taskIds = ["a", "b", "a", "c"] ∧
      ["a", "b", "a", "c"] <+: ["a", "b", "a", "c", "d"] := by
  have hsends := cancelTasks_sendsIds (fun earlier _ => if earlier = [] then .ok () else
    .error .rpcError) ["a", "b", "a", "c", "d"] (by decide : 1 ≤ 2)
  exact ⟨rfl, hsends.front⟩

theorem deleteResultData_sendsIds {Response : Type}
    (client : Stub Proto.DeleteResultsDataRequest Response) (resultIds : List String)
    (sessionId : String) {batchSize : ℕ} (hbatch : 1 ≤ batchSize) :
    SendsIds Proto.DeleteResultsDataRequest.resultId resultIds batchSize
      (ArmoniKResults.deleteResultData client resultIds sessionId batchSize) :=
  sendsIds (fun _ => rfl) client resultIds hbatch

end ArmoniKApi.Python
