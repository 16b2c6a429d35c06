import ArmoniKApi.Library.KeyedMap
import ArmoniKApi.Proto.Results

/-!
# Importing data in Python

`ArmoniKResults.import_data` names the results by their ids, both in the request
and in the dictionary that it returns.

The dictionary is a comprehension over the results of the response, so that of two
results with one id the later one stays (`KeyedMap.collect`).  The Rust client names
its results by their names instead; the difference between the two is the subject of
`Rust.ImportResults` and `Sdks.ResultFiles`.

* `importDataRequest`: the request, one entry for each pair of ids.
* `importData`: the dictionary.
* `keys_importData`: its keys are the ids of the results in the response.
-/

namespace ArmoniKApi.Python

open Proto (ImportResultsDataRequest ImportResultsDataResponse ResultRaw Bytes)

/-- The request of `import_data`. -/
def importDataRequest (sessionId : String) (results : List (String × Bytes)) :
    ImportResultsDataRequest where
  sessionId := sessionId
  results := results.map fun (resultId, opaqueId) => ⟨resultId, opaqueId⟩

variable {R : Type}

/-- What `import_data` returns for a response, `fromMessage` being
`Result.from_message`. -/
def importData (fromMessage : ResultRaw → R) (response : ImportResultsDataResponse) :
    KeyedMap String R :=
  .collect (response.results.map fun result => (result.resultId, fromMessage result))

theorem keys_importData (fromMessage : ResultRaw → R) (response : ImportResultsDataResponse) :
    (importData fromMessage response).keys =
      (response.results.map ResultRaw.resultId).toFinset := by
  rw [importData, KeyedMap.keys_collect, List.map_map]
  rfl

end ArmoniKApi.Python
