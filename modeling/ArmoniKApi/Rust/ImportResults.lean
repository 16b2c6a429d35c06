import ArmoniKApi.Python.ImportData
import ArmoniKApi.Rust.Enums

/-!
# Importing data in the Rust client

The request of `import` is a map from result ids to opaque ids, and comes back
from the wire.  The response is a map too, but the conversion from the wire
takes the *name* of a result as its key.  The server does not keep names apart:
of two results of one name only the later is left, and no result is found under
its id unless the id is its name (`import_results_kept_iff`).

```text
   wire                           map by name        map by id
   id "1", name "a"               "a" -> 1           "1" -> 1
   id "2", name "a"               "a" -> 2           "2" -> 2
```

## Strategy

* `name_of_lookup`: under a name there is a result of that name.  So a result that is found
  under its id has its id for a name (`names_of_keptById`).
* `keptById_of_names`: if all names are ids, and the ids are distinct, collecting by name is
  collecting by id.
* `ofV3_toV3_iff`: a domain response is written without its keys and read with the names as
  keys, so it comes back if its keys are the names.
* `toV3_eq_importDataRequest`: the requests of the Rust and of the Python client are the same.
-/

namespace ArmoniKApi.Rust

open Proto (ResultOpaqueId ResultRaw ImportResultsDataRequest ImportResultsDataResponse)

/-! ## Results -/

/-- `results::Raw`. -/
structure Raw where
  sessionId : String
  name : String
  ownerTaskId : String
  status : ResultStatus
  createdAt : Option Proto.Timestamp
  completedAt : Option Proto.Timestamp
  resultId : String
  size : Int
  createdBy : String
  opaqueId : Proto.Bytes
  manualDeletion : Bool
  deriving DecidableEq, Repr

namespace Raw

/-- Every field is moved as it is, and the status goes by its number. -/
def codec : Codec Raw ResultRaw where
  encode value := {
    sessionId := value.sessionId
    name := value.name
    ownerTaskId := value.ownerTaskId
    status := ResultStatus.codec.encode value.status
    createdAt := value.createdAt
    completedAt := value.completedAt
    resultId := value.resultId
    size := value.size
    createdBy := value.createdBy
    opaqueId := value.opaqueId
    manualDeletion := value.manualDeletion }
  decode value := {
    sessionId := value.sessionId
    name := value.name
    ownerTaskId := value.ownerTaskId
    status := ResultStatus.codec.decode value.status
    createdAt := value.createdAt
    completedAt := value.completedAt
    resultId := value.resultId
    size := value.size
    createdBy := value.createdBy
    opaqueId := value.opaqueId
    manualDeletion := value.manualDeletion }

theorem codec_lawful :
    codec.Lawful fun result => Codec.Known Proto.ResultStatus.number result.status where
  decode_encode := by
    intro value
    show { value with status := ResultStatus.codec.decode (ResultStatus.codec.encode value.status) }
      = value
    rw [ResultStatus.codec_lawful.decode_encode]
  encode_decode := by
    intro value hstatus
    show { value with status := ResultStatus.codec.encode (ResultStatus.codec.decode value.status) }
      = value
    rw [ResultStatus.codec_lawful.encode_decode value.status hstatus]

end Raw

/-! ## The request -/

/-- `import::Request`. -/
structure ImportRequest where
  results : KeyedMap String Proto.Bytes
  sessionId : String

namespace ImportRequest

/-- The pairs of the map go on the wire in the order in which it is listed. -/
def toV3 (value : ImportRequest) (order : KeyedMap.Iteration value.results) :
    ImportResultsDataRequest where
  sessionId := value.sessionId
  results := order.items.map fun (resultId, opaqueId) => ⟨resultId, opaqueId⟩

/-- `From<v3::results::ImportResultsDataRequest>`: of two entries with one result id the
last is kept. -/
def ofV3 (value : ImportResultsDataRequest) : ImportRequest where
  results := .collect (value.results.map fun result => (result.resultId, result.opaqueId))
  sessionId := value.sessionId

/-- The request is that of the Python client. -/
theorem toV3_eq_importDataRequest (value : ImportRequest)
    (order : KeyedMap.Iteration value.results) :
    value.toV3 order = Python.importDataRequest value.sessionId order.items := rfl

theorem ofV3_toV3 (value : ImportRequest) (order : KeyedMap.Iteration value.results) :
    ofV3 (value.toV3 order) = value := by
  have hitems : (value.toV3 order).results.map
      (fun result => (result.resultId, result.opaqueId)) = order.items := by
    rw [toV3, List.map_map]
    exact List.map_id order.items
  unfold ofV3
  rw [hitems, KeyedMap.collect_items order]
  rfl

end ImportRequest

/-! ## The response -/

/-- `import::Response`. -/
structure ImportResponse where
  results : KeyedMap String Raw

namespace ImportResponse

/-- `into_values`: the keys are dropped. -/
def toV3 (value : ImportResponse) (order : KeyedMap.Iteration value.results) :
    ImportResultsDataResponse where
  results := order.items.map fun (_, raw) => Raw.codec.encode raw

/-- The pairs that `ofV3` collects: the key is the name. -/
def byName (results : List ResultRaw) : List (String × Raw) :=
  results.map fun result => (result.name, Raw.codec.decode result)

/-- `From<v3::results::ImportResultsDataResponse>`.  The key is the name of the result,
where the request has its id. -/
def ofV3 (value : ImportResultsDataResponse) : ImportResponse where
  results := .collect (byName value.results)

/-- Every result is an entry of the map, under its id, as in the map of the
Python client. -/
structure KeptById (value : ImportResultsDataResponse) : Prop where
  entries : (ofV3 value).results.keys.card = value.results.length
  keyed : ∀ result ∈ value.results,
    (ofV3 value).results.lookup result.resultId = some (Raw.codec.decode result)
  likePython : ∀ {R : Type} (fromMessage : ResultRaw → R),
    (ofV3 value).results.keys = (Python.importData fromMessage value).keys

/-- The keys of the map are result ids. -/
def KeyedById (value : ImportResponse) : Prop :=
  ∀ key raw, value.results.lookup key = some raw → raw.resultId = key

/-- What a name leads to is a result of that name. -/
theorem name_of_lookup {results : List ResultRaw} {key : String} {raw : Raw}
    (hlookup : (KeyedMap.collect (byName results)).lookup key = some raw) :
    ∃ result ∈ results, result.name = key ∧ Raw.codec.decode result = raw := by
  obtain ⟨result, hresult, hpair⟩ := List.mem_map.mp (KeyedMap.mem_of_lookup_collect hlookup)
  exact ⟨result, hresult, congrArg Prod.fst hpair, congrArg Prod.snd hpair⟩

theorem map_fst_byName (results : List ResultRaw) :
    (byName results).map Prod.fst = results.map ResultRaw.name := by
  rw [byName, List.map_map]
  rfl

theorem keptById_of_names {value : ImportResultsDataResponse}
    (hdistinct : (value.results.map ResultRaw.resultId).Nodup)
    (hnames : ∀ result ∈ value.results, result.name = result.resultId) : KeptById value := by
  have hkeys : (byName value.results).map Prod.fst = value.results.map ResultRaw.resultId := by
    rw [map_fst_byName]
    exact List.map_congr_left hnames
  have hnodup : ((byName value.results).map Prod.fst).Nodup := by rwa [hkeys]
  constructor
  · show (KeyedMap.collect (byName value.results)).keys.card = _
    rw [KeyedMap.card_keys_collect hnodup, byName, List.length_map]
  · intro result hresult
    apply KeyedMap.lookup_collect_of_mem hnodup
    rw [← hnames result hresult]
    exact List.mem_map.mpr ⟨result, hresult, rfl⟩
  · intro R fromMessage
    rw [Python.keys_importData, ← hkeys]
    exact KeyedMap.keys_collect _

/-- A result found under its id was put there under its name. -/
theorem names_of_keptById {value : ImportResultsDataResponse}
    (hdistinct : (value.results.map ResultRaw.resultId).Nodup) (hkept : KeptById value) :
    ∀ result ∈ value.results, result.name = result.resultId := by
  intro result hresult
  obtain ⟨other, hother, hname, hraw⟩ := name_of_lookup (hkept.keyed result hresult)
  have hid : other.resultId = result.resultId := congrArg Raw.resultId hraw
  have hsame : other = result := List.inj_on_of_nodup_map hdistinct hother hresult hid
  rw [← hsame]
  rw [← hsame] at hname
  exact hname

/-- The pairs that a listed map is collected from again: each raw result under
its name. -/
theorem byName_toV3 (value : ImportResponse) (order : KeyedMap.Iteration value.results) :
    byName (value.toV3 order).results = order.items.map fun (_, raw) => (raw.name, raw) := by
  rw [byName, toV3, List.map_map]
  apply List.map_congr_left
  rintro ⟨key, raw⟩ -
  exact congrArg (Prod.mk raw.name) (Raw.codec_lawful.decode_encode raw)

theorem ofV3_toV3_iff (value : ImportResponse) (order : KeyedMap.Iteration value.results) :
    ofV3 (value.toV3 order) = value ↔
      ∀ key raw, value.results.lookup key = some raw → raw.name = key := by
  constructor
  · intro hback key raw hlookup
    rw [← hback] at hlookup
    have hmem := KeyedMap.mem_of_lookup_collect hlookup
    rw [byName_toV3] at hmem
    obtain ⟨item, -, hitem⟩ := List.mem_map.mp hmem
    have hname : item.2.name = key := congrArg Prod.fst hitem
    have hraw : item.2 = raw := congrArg Prod.snd hitem
    rwa [hraw] at hname
  · intro hnames
    have hitems : byName (value.toV3 order).results = order.items := by
      rw [byName_toV3]
      refine (List.map_congr_left fun item hitem => ?_).trans (List.map_id order.items)
      have hname := hnames item.1 item.2 ((order.mem_items item.1 item.2).mp hitem)
      exact congrArg (·, item.2) hname
    unfold ofV3
    rw [hitems, KeyedMap.collect_items order]

end ImportResponse

/-! ## What is kept -/

/-- A request comes back.  A response from the wire is kept by id exactly when
every result has its id for a name, and so is a response of the domain that is
keyed by id. -/
theorem import_results_kept_iff (request : ImportRequest)
    (requestOrder : KeyedMap.Iteration request.results) (value : ImportResultsDataResponse)
    (hdistinct : (value.results.map ResultRaw.resultId).Nodup) (response : ImportResponse)
    (hkeyed : response.KeyedById) (responseOrder : KeyedMap.Iteration response.results) :
    ImportRequest.ofV3 (request.toV3 requestOrder) = request ∧
      (ImportResponse.KeptById value ↔
        ∀ result ∈ value.results, result.name = result.resultId) ∧
      (ImportResponse.ofV3 (response.toV3 responseOrder) = response ↔
        ∀ key raw, response.results.lookup key = some raw → raw.name = raw.resultId) := by
  refine ⟨request.ofV3_toV3 requestOrder, ⟨ImportResponse.names_of_keptById hdistinct,
    ImportResponse.keptById_of_names hdistinct⟩, ?_⟩
  rw [response.ofV3_toV3_iff responseOrder]
  refine forall₃_congr fun key raw hlookup => ?_
  rw [hkeyed key raw hlookup]

/-- A completed result. -/
def completedResult (resultId name : String) : ResultRaw where
  sessionId := "session"
  name := name
  ownerTaskId := "task"
  status := 2
  createdAt := none
  completedAt := none
  resultId := resultId
  size := 0
  createdBy := "task"
  opaqueId := []
  manualDeletion := false

/-- Two results, each with its id as its name. -/
theorem import_results_kept_of_two :
    let items : List (String × Raw) :=
      ["a", "b"].map fun id => (id, Raw.codec.decode (completedResult id id))
    let order := KeyedMap.Iteration.ofCollect items (by decide)
    ImportResponse.KeptById ⟨[completedResult "a" "a", completedResult "b" "b"]⟩ ∧
      ImportResponse.ofV3 (ImportResponse.toV3 ⟨.collect items⟩ order) = ⟨.collect items⟩ := by
  intro items order
  have hnamed : ∀ {key : String} {raw : Raw},
      (KeyedMap.collect items).lookup key = some raw →
        raw = Raw.codec.decode (completedResult key key) := by
    intro key raw h
    obtain ⟨id, -, hid⟩ := List.mem_map.mp (KeyedMap.mem_of_lookup_collect h)
    obtain ⟨rfl, rfl⟩ := Prod.mk.inj hid
    rfl
  have hkeyed : (⟨.collect items⟩ : ImportResponse).KeyedById := by
    intro key raw h
    rw [hnamed h]
    rfl
  have hkept := import_results_kept_iff ⟨.collect [("a", []), ("b", [1])], "session"⟩
    (KeyedMap.Iteration.ofCollect _ (by decide))
    ⟨[completedResult "a" "a", completedResult "b" "b"]⟩ (by decide) ⟨.collect items⟩ hkeyed order
  refine ⟨hkept.2.1.mpr (by decide), hkept.2.2.mpr fun key raw h => ?_⟩
  rw [hnamed h]
  rfl

/-- Of two results of one name the map has one entry. -/
theorem import_results_lose_namesake :
    let value : ImportResultsDataResponse :=
      ⟨[completedResult "1" "result", completedResult "2" "result"]⟩
    (value.results.map ResultRaw.resultId).Nodup ∧
      (ImportResponse.ofV3 value).results.keys = {"result"} ∧ ¬ ImportResponse.KeptById value := by
  intro value
  have hkeys : (ImportResponse.ofV3 value).results.keys = {"result"} :=
    (KeyedMap.keys_collect _).trans (by decide)
  refine ⟨by decide, hkeys, fun hkept => ?_⟩
  have hcard := hkept.entries
  rw [hkeys] at hcard
  exact absurd hcard (by decide)

end ArmoniKApi.Rust
