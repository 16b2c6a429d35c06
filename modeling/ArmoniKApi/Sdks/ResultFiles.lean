import ArmoniKApi.Cpp.TaskHandler
import ArmoniKApi.Library.Folder
import ArmoniKApi.Library.SlashPath
import ArmoniKApi.Proto.Results

/-!
# Sending results from a worker in C++, Python, C# and Java

A worker sends a result by writing its data to a file of the data folder, named
by the id of the result, and notifying the agent.  The four handlers open the
file in different modes.

* C++ and Python truncate it.
* C# opens or creates it and writes from its start, so the end of longer old
  contents stays.
* Java appends to it, so all of the old contents stay.

`result_files_delivered_iff` says when each of them leaves the data of the last
send in every file, after every send of a sequence.

The files can be opened, and the paths are those of Linux.

```text
   file before   sent   C++, Python   C#     Java
   (none)        "ab"   "ab"          "ab"   "ab"
   "xyz"         "ab"   "ab"          "abz"  "xyzab"
```

## Strategy

* Paths.  The four SDKs join the folder and the id in different ways.  `LeadsTo` says that a
  join leads to the files of the data folder; it is proved of each, and for C++ only of a
  folder that is `Trimmed`.
* One send.  A handler that `Writes` in a mode is one whose send is a write of each file and
  one notification; `sendWith_writes` shows this of any join that `LeadsTo`.
* A sequence.  `Writes.delivers_iff` says that the results are delivered if the writes are
  exact, and `Writes.delivers_one_iff` that these are exact if each fits the mode.  What a mode
  needs of the old contents is a fact about folders (`Folder.OpenMode.Fits`).
* C++ alone can write to another place than the data folder: `trimmed_of_delivers` is the
  converse for it.
-/

namespace ArmoniKApi

open Proto (Bytes NotifyResultDataRequest)

/-! ## Paths -/

namespace Python

/-- `os.path.join`. -/
def osPathJoin (path name : String) : String :=
  if name.toList.head? = some '/' then name
  else if path = "" ∨ path.toList.getLast? = some '/' then path ++ name
  else path ++ "/" ++ name

end Python

namespace CSharp

/-- `Path.Combine`. -/
def pathCombine (path1 path2 : String) : String :=
  if path2 = "" then path1
  else if path1 = "" then path2
  else if path2.toList.head? = some '/' then path2
  else if path1.toList.getLast? = some '/' then path1 ++ path2
  else path1 ++ "/" ++ path2

end CSharp

namespace Java

/-- Separators that follow each other count as one. -/
def collapse : List Char → List Char
  | [] => []
  | [c] => [c]
  | c :: next :: rest =>
      if c = '/' ∧ next = '/' then collapse (next :: rest) else c :: collapse (next :: rest)

/-- A path as `Paths.get` keeps it: without doubled separators, and without one
at the end. -/
def normalize (path : List Char) : List Char :=
  let path := collapse path
  if 1 < path.length ∧ path.getLast? = some '/' then path.dropLast else path

/-- `Paths.get(first, more).toString()`. -/
def pathsGet (first more : String) : String :=
  if first = "" then .ofList (normalize more.toList)
  else if more = "" then .ofList (normalize first.toList)
  else .ofList (normalize (first.toList ++ '/' :: more.toList))

end Java

/-- The id of a result that names a file: without separators, without blanks
around it, and not one of the names that no file has. -/
structure ResultId where
  text : String
  noSeparator : '/' ∉ text.toList
  noBlanks : Cpp.trimCopy text.toList = text.toList
  noNul : '\x00' ∉ text.toList
  isFileName : text ≠ "" ∧ text ≠ "." ∧ text ≠ ".."
  deriving DecidableEq

namespace ResultId

theorem head?_ne (id : ResultId) : id.text.toList.head? ≠ some '/' := by
  intro hhead
  exact id.noSeparator (List.mem_of_mem_head? hhead)

theorem toList_ne_nil (id : ResultId) : id.text.toList ≠ [] := by
  intro hnil
  exact id.isFileName.1 (String.toList_eq_nil_iff.mp hnil)

end ResultId

/-- What the handlers keep of the request to process a task. -/
structure WorkerTask where
  sessionId : String
  token : String
  dataFolder : String

/-- The file of a result in the data folder. -/
def WorkerTask.file (worker : WorkerTask) (id : ResultId) : SlashPath :=
  (SlashPath.ofChars worker.dataFolder.toList).child id.text.toList

theorem WorkerTask.file_injective (worker : WorkerTask) : Function.Injective worker.file := by
  intro first second hsame
  have htext := String.toList_inj.mp (SlashPath.child_inj.mp hsame)
  cases first
  cases second
  simpa using htext

/-- A way to join paths that leads to the files of the data folder. -/
def LeadsTo (join : String → String → String) (worker : WorkerTask) : Prop :=
  ∀ id : ResultId, SlashPath.ofChars (join worker.dataFolder id.text).toList = worker.file id

theorem Python.osPathJoin_leadsTo (worker : WorkerTask) : LeadsTo osPathJoin worker := by
  intro id
  rw [osPathJoin, if_neg id.head?_ne]
  split
  · rename_i hfolder
    rw [String.toList_append]
    cases hfolder with
    | inl hempty =>
        rw [WorkerTask.file, hempty]
        exact SlashPath.ofChars_name id.noSeparator id.toList_ne_nil
    | inr hlast => exact SlashPath.ofChars_append hlast id.noSeparator id.toList_ne_nil
  · rename_i hfolder
    have hne : worker.dataFolder.toList ≠ [] := by
      intro hnil
      exact hfolder (.inl (String.toList_eq_nil_iff.mp hnil))
    rw [String.toList_append, String.toList_append, List.append_assoc]
    exact SlashPath.ofChars_join hne id.noSeparator id.toList_ne_nil

theorem CSharp.pathCombine_leadsTo (worker : WorkerTask) : LeadsTo pathCombine worker := by
  intro id
  rw [pathCombine, if_neg id.isFileName.1]
  by_cases hempty : worker.dataFolder = ""
  · rw [if_pos hempty, WorkerTask.file, hempty]
    exact SlashPath.ofChars_name id.noSeparator id.toList_ne_nil
  · rw [if_neg hempty, if_neg id.head?_ne]
    split
    · rename_i hlast
      rw [String.toList_append]
      exact SlashPath.ofChars_append hlast id.noSeparator id.toList_ne_nil
    · rw [String.toList_append, String.toList_append, List.append_assoc]
      exact SlashPath.ofChars_join (mt String.toList_eq_nil_iff.mp hempty) id.noSeparator
        id.toList_ne_nil

namespace Java

theorem collapse_cons (c : Char) (path : List Char) :
    collapse (c :: path) =
      if c = '/' ∧ path.head? = some '/' then collapse path else c :: collapse path := by
  cases path with
  | nil => simp [collapse]
  | cons next rest => simp [collapse]

theorem head?_collapse (path : List Char) : (collapse path).head? = path.head? := by
  induction path with
  | nil => rfl
  | cons c rest ih =>
      rw [collapse_cons]
      split
      · rename_i hslashes
        rw [ih, hslashes.1, hslashes.2]
        rfl
      · rfl

/-- Whatever stands in front. -/
theorem namesOf_append_collapse (front path : List Char) :
    SlashPath.namesOf (front ++ collapse path) = SlashPath.namesOf (front ++ path) := by
  induction path generalizing front with
  | nil => rfl
  | cons c rest ih =>
      rw [collapse_cons]
      split
      · rename_i hslashes
        obtain ⟨hc, hhead⟩ := hslashes
        obtain ⟨others, rfl⟩ := List.head?_eq_some_iff.mp hhead
        rw [ih, hc, SlashPath.namesOf_append_slash, SlashPath.namesOf_append_slash,
          SlashPath.namesOf_slash]
      · have hnext := ih (front ++ [c])
        rwa [List.append_assoc, List.append_assoc] at hnext

theorem ofChars_collapse (path : List Char) :
    SlashPath.ofChars (collapse path) = SlashPath.ofChars path := by
  rw [SlashPath.ofChars, head?_collapse, ← List.nil_append (collapse path),
    namesOf_append_collapse [] path]
  rfl

theorem ofChars_normalize (path : List Char) :
    SlashPath.ofChars (normalize path) = SlashPath.ofChars path := by
  show SlashPath.ofChars
    (if 1 < (collapse path).length ∧ (collapse path).getLast? = some '/' then
      (collapse path).dropLast else collapse path) = _
  split
  · rename_i hslash
    obtain ⟨hlength, hlast⟩ := hslash
    obtain ⟨front, hfront⟩ := List.getLast?_eq_some_iff.mp hlast
    have hne : front ≠ [] := by
      rintro rfl
      rw [hfront] at hlength
      exact absurd hlength (by decide)
    rw [hfront, List.dropLast_concat, ← SlashPath.ofChars_concat_slash hne, ← hfront,
      ofChars_collapse]
  · exact ofChars_collapse path

theorem pathsGet_leadsTo (worker : WorkerTask) : LeadsTo pathsGet worker := by
  intro id
  rw [pathsGet]
  by_cases hempty : worker.dataFolder = ""
  · rw [if_pos hempty, String.toList_ofList, ofChars_normalize, WorkerTask.file, hempty]
    exact SlashPath.ofChars_name id.noSeparator id.toList_ne_nil
  · rw [if_neg hempty, if_neg id.isFileName.1, String.toList_ofList, ofChars_normalize]
    exact SlashPath.ofChars_join (mt String.toList_eq_nil_iff.mp hempty) id.noSeparator
      id.toList_ne_nil

end Java

namespace Cpp

theorem filter_spaces {blanks : List Char} (hblanks : ∀ c ∈ blanks, isSpace c) :
    blanks.filter (· ≠ '/') = blanks := by
  rw [List.filter_eq_self]
  intro c hc
  have hspace := hblanks c hc
  apply decide_eq_true
  rintro rfl
  exact absurd hspace (by decide)

/-- Blanks at the ends of a text belong to the names of its path. -/
theorem trimCopy_eq_of_ofChars_eq {s : List Char}
    (hpath : SlashPath.ofChars (trimCopy s) = SlashPath.ofChars s) : trimCopy s = s := by
  obtain ⟨front, back, hs, hfront, hback⟩ := trimCopy_parts s
  have hkept : (trimCopy s).filter (· ≠ '/') = s.filter (· ≠ '/') := by
    rw [← SlashPath.flatten_namesOf, ← SlashPath.flatten_namesOf]
    exact congrArg (fun path => path.names.flatten) hpath
  have hlength := congrArg List.length hkept
  conv at hlength => rhs; rw [hs]
  rw [List.filter_append, List.filter_append, filter_spaces hfront, filter_spaces hback,
    List.length_append, List.length_append] at hlength
  have hfrontNil : front = [] := List.length_eq_zero_iff.mp (by omega)
  have hbackNil : back = [] := List.length_eq_zero_iff.mp (by omega)
  rw [hfrontNil, hbackNil, List.nil_append, List.append_nil] at hs
  exact hs.symm

/-- The file that a C++ worker writes. -/
def file (worker : WorkerTask) (id : ResultId) : SlashPath :=
  (SlashPath.ofChars (trimCopy worker.dataFolder.toList)).child id.text.toList

/-- The path of the data folder is not empty, and has no blanks around it. -/
def Trimmed (worker : WorkerTask) : Prop :=
  worker.dataFolder ≠ "" ∧ trimCopy worker.dataFolder.toList = worker.dataFolder.toList

theorem file_eq {worker : WorkerTask} (htrimmed : Trimmed worker) : file worker = worker.file := by
  funext id
  rw [file, htrimmed.2, WorkerTask.file]

theorem file_ne {worker : WorkerTask}
    (hblanks : trimCopy worker.dataFolder.toList ≠ worker.dataFolder.toList) (id other : ResultId) :
    file worker id ≠ worker.file other := by
  intro hsame
  exact hblanks (trimCopy_eq_of_ofChars_eq (SlashPath.folder_eq_of_child_eq hsame))

theorem exists_pathJoin {worker : WorkerTask} (hfolder : trimCopy worker.dataFolder.toList ≠ [])
    (id : ResultId) :
    ∃ path, pathJoin worker.dataFolder id.text = some path ∧
      SlashPath.ofChars path.toList = file worker id := by
  obtain ⟨last, hlast⟩ := Option.ne_none_iff_exists'.mp
    (mt List.getLast?_eq_none_iff.mp hfolder)
  rw [pathJoin, hlast]
  refine ⟨_, rfl, ?_⟩
  rw [String.toList_ofList, id.noBlanks]
  split
  · rw [List.append_assoc]
    exact SlashPath.ofChars_join hfolder id.noSeparator id.toList_ne_nil
  · rename_i hslash
    rw [not_not] at hslash
    rw [hslash] at hlast
    exact SlashPath.ofChars_append hlast id.noSeparator id.toList_ne_nil

theorem pathJoin_eq_none {worker : WorkerTask} (hfolder : trimCopy worker.dataFolder.toList = [])
    (id : ResultId) : pathJoin worker.dataFolder id.text = none := by
  rw [pathJoin, hfolder]
  rfl

end Cpp

/-! ## Sending -/

/-- The files, and the notifications the agent has received. -/
structure World where
  files : Folder SlashPath UInt8
  notified : List NotifyResultDataRequest

/-- The notification of some results. -/
def WorkerTask.notification (worker : WorkerTask) (ids : List ResultId) :
    NotifyResultDataRequest where
  ids := ids.map fun id => ⟨worker.sessionId, id.text⟩
  communicationToken := worker.token

/-- Write the data of some results to their files, each opened in a mode, and
notify the agent once.  What the agent answers is passed on or ignored. -/
def sendWith (mode : Folder.OpenMode) (join : String → String → String) (worker : WorkerTask)
    (results : List (ResultId × Bytes)) (world : World) : World where
  files := Folder.writeAll mode world.files
    (results.map fun (id, data) =>
      (SlashPath.ofChars (join worker.dataFolder id.text).toList, data))
  notified := world.notified ++ [worker.notification (results.map Prod.fst)]

/-- `results_data.items()`. -/
def Python.results (resultsData : AList fun _ : ResultId => Bytes) : List (ResultId × Bytes) :=
  resultsData.entries.map fun entry => (entry.1, entry.2)

/-- `send_results`.  The mode is "wb". -/
def Python.sendResults (worker : WorkerTask) (resultsData : AList fun _ : ResultId => Bytes) :
    World → World :=
  sendWith .truncate osPathJoin worker (results resultsData)

/-- `SendResult`.  The mode is `FileMode.OpenOrCreate`. -/
def CSharp.sendResult (worker : WorkerTask) (key : ResultId) (data : Bytes) : World → World :=
  sendWith .openOrCreate pathCombine worker [(key, data)]

/-- `notifyResultData`.  The second argument of `FileOutputStream` is `true`. -/
def Java.notifyResultData (worker : WorkerTask) (key : ResultId) (data : Bytes) : World → World :=
  sendWith .append pathsGet worker [(key, data)]

namespace Cpp

/-- `::grpc::Status`, other than OK. -/
structure Status where
  errorCode : ℤ
  errorMessage : String
  errorDetails : String

/-- `send_result`: the message of the exception, if there is one, comes after the
agent has answered.  The mode is `std::fstream::trunc`. -/
def sendResult (agent : List NotifyResultDataRequest → Except Status (List String))
    (worker : WorkerTask) (key : ResultId) (data : Bytes) (world : World) :
    Option (World × Except String Unit) := do
  let path ← pathJoin worker.dataFolder key.text
  let files := Folder.write .truncate world.files (SlashPath.ofChars path.toList) data
  let request : NotifyResultDataRequest :=
    { ids := [⟨worker.sessionId, key.text⟩], communicationToken := worker.token }
  let notified := world.notified ++ [request]
  let outcome :=
    match agent notified with
    | .error status =>
        .error ("Error: " ++ toString status.errorCode ++ ": " ++ status.errorMessage ++
          ". details: " ++ status.errorDetails ++ "\n")
    | .ok resultIds =>
        if resultIds.length ≠ 1 then .error "Received erroneous reply for send data" else .ok ()
  return ({ files, notified }, outcome)

end Cpp

/-! ## Sequences of sends -/

/-- One send after the other. -/
def sendAll {S : Type} (send : World → S → Option World) (world : World) (sends : List S) :
    Option World :=
  sends.foldlM send world

/-- After some batches of results were sent: each of their files holds what was
last sent, the other files are as before, and every batch has its notification. -/
structure Delivered (worker : WorkerTask) (before : World)
    (batches : List (List (ResultId × Bytes))) (after : World) : Prop where
  sent : ∀ id data, Folder.lastWritten batches.flatten id = some data →
    after.files (worker.file id) = some data
  unchanged : ∀ path, (∀ result ∈ batches.flatten, worker.file result.1 ≠ path) →
    after.files path = before.files path
  notified : after.notified =
    before.notified ++ batches.map fun batch => worker.notification (batch.map Prod.fst)

/-- The results are delivered after every send of a sequence. -/
def Delivers {S : Type} (batch : S → List (ResultId × Bytes)) (send : World → S → Option World)
    (worker : WorkerTask) (before : World) (sends : List S) : Prop :=
  ∀ n ≤ sends.length, ∃ after, sendAll send before (sends.take n) = some after ∧
    Delivered worker before ((sends.take n).map batch) after

theorem lastWritten_files {worker : WorkerTask} (results : List (ResultId × Bytes))
    (id : ResultId) :
    Folder.lastWritten (Folder.rename worker.file results) (worker.file id) =
      Folder.lastWritten results id :=
  Folder.lastWritten_rename worker.file_injective results id

theorem lastWritten_files_eq_none_iff {worker : WorkerTask} {results : List (ResultId × Bytes)}
    {path : SlashPath} :
    Folder.lastWritten (Folder.rename worker.file results) path = none ↔
      ∀ result ∈ results, worker.file result.1 ≠ path := by
  rw [Folder.lastWritten_eq_none_iff]
  exact List.forall_mem_map

theorem delivered_iff {worker : WorkerTask} {before after : World}
    {batches : List (List (ResultId × Bytes))} :
    Delivered worker before batches after ↔
      after.files =
          Folder.expected before.files (Folder.rename worker.file batches.flatten) ∧
        after.notified =
          before.notified ++ batches.map fun batch => worker.notification (batch.map Prod.fst) := by
  constructor
  · intro hdelivered
    refine ⟨funext fun path => ?_, hdelivered.notified⟩
    rw [Folder.expected]
    by_cases hpath : ∀ result ∈ batches.flatten, worker.file result.1 ≠ path
    · rw [lastWritten_files_eq_none_iff.mpr hpath, Option.none_or]
      exact hdelivered.unchanged path hpath
    · push Not at hpath
      obtain ⟨result, hresult, rfl⟩ := hpath
      obtain ⟨data, hdata⟩ := Option.ne_none_iff_exists'.mp
        (mt lastWritten_files_eq_none_iff.mp fun hnone => hnone result hresult rfl)
      rw [hdata, Option.some_or]
      rw [lastWritten_files] at hdata
      exact hdelivered.sent result.1 data hdata
  · rintro ⟨hfiles, hnotified⟩
    refine ⟨fun id data hdata => ?_, fun path hpath => ?_, hnotified⟩
    · rw [hfiles, Folder.expected, lastWritten_files, hdata, Option.some_or]
    · rw [hfiles, Folder.expected, lastWritten_files_eq_none_iff.mpr hpath, Option.none_or]

/-- Delivering the same results leaves the same files. -/
theorem Delivered.same_files {worker : WorkerTask} {before after other : World}
    {batches otherBatches : List (List (ResultId × Bytes))}
    (hdelivered : Delivered worker before batches after)
    (hother : Delivered worker before otherBatches other)
    (hsame : batches.flatten = otherBatches.flatten) : after.files = other.files := by
  rw [(delivered_iff.mp hdelivered).1, (delivered_iff.mp hother).1, hsame]

/-- A handler that opens files in a mode. -/
def Writes {S : Type} (mode : Folder.OpenMode) (worker : WorkerTask) (path : ResultId → SlashPath)
    (batch : S → List (ResultId × Bytes)) (send : World → S → Option World) : Prop :=
  ∀ world s, send world s = some {
    files := Folder.writeAll mode world.files (Folder.rename path (batch s))
    notified := world.notified ++ [worker.notification ((batch s).map Prod.fst)] }

theorem sendWith_writes {S : Type} (mode : Folder.OpenMode) {join : String → String → String}
    {worker : WorkerTask} (hjoin : LeadsTo join worker) (batch : S → List (ResultId × Bytes)) :
    Writes mode worker worker.file batch
      fun world s => some (sendWith mode join worker (batch s) world) := by
  intro world s
  have hpaths : (batch s).map (fun (id, data) =>
      (SlashPath.ofChars (join worker.dataFolder id.text).toList, data)) =
      Folder.rename worker.file (batch s) :=
    List.map_congr_left fun result _ => congrArg (·, result.2) (hjoin result.1)
  show some (sendWith mode join worker (batch s) world) = _
  rw [sendWith, hpaths]

namespace Writes

variable {S : Type} {mode : Folder.OpenMode} {worker : WorkerTask} {path : ResultId → SlashPath}
  {batch : S → List (ResultId × Bytes)} {send : World → S → Option World}

theorem sendAll_eq (hsend : Writes mode worker path batch send) (world : World) (sends : List S) :
    sendAll send world sends = some {
      files := Folder.writeAll mode world.files
        (Folder.rename path (sends.map batch).flatten)
      notified := world.notified ++
        (sends.map batch).map fun batch => worker.notification (batch.map Prod.fst) } := by
  induction sends generalizing world with
  | nil =>
      show some world = some { files := world.files, notified := world.notified ++ [] }
      rw [List.append_nil]
  | cons s rest ih =>
      rw [sendAll, List.foldlM_cons, hsend world s, Option.bind_eq_bind, Option.bind_some]
      show sendAll send _ rest = _
      rw [ih]
      simp [Folder.rename, Folder.writeAll_append]

/-- The results are delivered just when the writes are exact. -/
theorem delivers_iff (hsend : Writes mode worker worker.file batch send) (before : World)
    (sends : List S) :
    Delivers batch send worker before sends ↔ ∀ n ≤ sends.length,
      Folder.Exact mode before.files
        (Folder.rename worker.file ((sends.take n).map batch).flatten) := by
  apply forall₂_congr
  intro n _
  rw [hsend.sendAll_eq before (sends.take n)]
  constructor
  · rintro ⟨after, hafter, hdelivered⟩
    cases hafter
    exact (delivered_iff.mp hdelivered).1
  · intro hexact
    exact ⟨_, rfl, delivered_iff.mpr ⟨hexact, rfl⟩⟩

end Writes

/-- What a file holds after some results were delivered. -/
def held (worker : WorkerTask) (before : World) (results : List (ResultId × Bytes))
    (id : ResultId) : Bytes :=
  ((Folder.lastWritten results id).or (before.files (worker.file id))).getD []

/-- One result at a time, through a handler that opens files in a mode. -/
theorem Writes.delivers_one_iff {mode : Folder.OpenMode} {worker : WorkerTask}
    {send : World → ResultId × Bytes → Option World}
    (hsend : Writes mode worker worker.file (fun result => [result]) send) (before : World)
    (sends : List (ResultId × Bytes)) :
    Delivers (fun result => [result]) send worker before sends ↔
      ∀ n (hn : n < sends.length),
        mode.Fits (held worker before (sends.take n) sends[n].1) sends[n].2 := by
  have hflatten (results : List (ResultId × Bytes)) :
      (results.map fun result => [result]).flatten = results := by
    rw [← List.flatMap_def, List.flatMap_singleton']
  simp only [hsend.delivers_iff, hflatten]
  rw [Folder.forall_exact_rename_iff]
  apply forall₂_congr
  intro n hn
  rw [Folder.expected, lastWritten_files, held]

namespace Python

/-- `send_results`. -/
def send (worker : WorkerTask) (world : World) (resultsData : AList fun _ : ResultId => Bytes) :
    Option World :=
  some (sendResults worker resultsData world)

theorem delivers (worker : WorkerTask) (before : World)
    (batches : List (AList fun _ : ResultId => Bytes)) :
    Delivers results (send worker) worker before batches := by
  have hwrites := sendWith_writes .truncate (osPathJoin_leadsTo worker) results
  exact (hwrites.delivers_iff before batches).mpr fun _ _ => Folder.exact_truncate _ _

end Python

namespace Cpp

/-- `send_result`, whatever its outcome. -/
def send (agent : List NotifyResultDataRequest → Except Status (List String)) (worker : WorkerTask)
    (world : World) (result : ResultId × Bytes) : Option World :=
  (sendResult agent worker result.1 result.2 world).map Prod.fst

theorem send_writes (agent : List NotifyResultDataRequest → Except Status (List String))
    {worker : WorkerTask} (hfolder : trimCopy worker.dataFolder.toList ≠ []) :
    Writes .truncate worker (file worker) (fun result => [result]) (send agent worker) := by
  intro world result
  obtain ⟨path, hpath, hfile⟩ := exists_pathJoin hfolder result.1
  show (sendResult agent worker result.1 result.2 world).map Prod.fst = _
  rw [sendResult, hpath, Option.bind_eq_bind, Option.bind_some, hfile]
  rfl

theorem send_eq_none (agent : List NotifyResultDataRequest → Except Status (List String))
    {worker : WorkerTask} (hfolder : trimCopy worker.dataFolder.toList = []) (world : World)
    (result : ResultId × Bytes) : send agent worker world result = none := by
  rw [send, sendResult, pathJoin_eq_none hfolder]
  rfl

theorem delivers_of_trimmed (agent : List NotifyResultDataRequest → Except Status (List String))
    {worker : WorkerTask} (htrimmed : Trimmed worker) (before : World)
    (sends : List (ResultId × Bytes)) :
    Delivers (fun result => [result]) (send agent worker) worker before sends := by
  have hfolder : trimCopy worker.dataFolder.toList ≠ [] := by
    rw [htrimmed.2]
    exact mt String.toList_eq_nil_iff.mp htrimmed.1
  have hwrites := send_writes agent hfolder
  rw [file_eq htrimmed] at hwrites
  exact (hwrites.delivers_iff before sends).mpr fun _ _ => Folder.exact_truncate _ _

/-- One send into an empty world: the file that is written has to be one of the
data folder. -/
theorem trimmed_of_delivers {agent : List NotifyResultDataRequest → Except Status (List String)}
    {worker : WorkerTask} {id : ResultId} {data : Bytes} {after : World}
    (hafter : sendAll (send agent worker) ⟨fun _ => none, []⟩ [(id, data)] = some after)
    (hdelivered : Delivered worker ⟨fun _ => none, []⟩ [[(id, data)]] after) : Trimmed worker := by
  have hfolder : trimCopy worker.dataFolder.toList ≠ [] := by
    intro hnil
    rw [sendAll, List.foldlM_cons, send_eq_none _ hnil] at hafter
    cases hafter
  constructor
  · intro hempty
    apply hfolder
    rw [hempty]
    rfl
  · by_contra hblanks
    rw [(send_writes _ hfolder).sendAll_eq] at hafter
    cases hafter
    have hsame := hdelivered.unchanged (file worker id) fun result _ =>
      (file_ne hblanks id result.1).symm
    change Function.update (fun _ => none) (file worker id) (some data) (file worker id) = none
      at hsame
    rw [Function.update_self] at hsame
    cases hsame

/-- The files are those of the data folder when no blanks stand around its path. -/
theorem delivers_iff (worker : WorkerTask) (sends : List (ResultId × Bytes)) :
    (∀ agent before,
        Delivers (fun result => [result]) (send agent worker) worker before sends) ↔
      sends = [] ∨ Trimmed worker := by
  constructor
  · intro hdelivers
    cases sends with
    | nil => exact .inl rfl
    | cons result rest =>
        obtain ⟨after, hafter, hdelivered⟩ :=
          hdelivers (fun _ => .ok []) ⟨fun _ => none, []⟩ 1 (by simp)
        exact .inr (trimmed_of_delivers hafter hdelivered)
  · intro hcondition agent before
    cases hcondition with
    | inl hnil =>
        subst hnil
        intro n hn
        rw [Nat.le_zero.mp hn]
        exact ⟨before, rfl, delivered_iff.mpr ⟨rfl, (List.append_nil _).symm⟩⟩
    | inr htrimmed => exact delivers_of_trimmed agent htrimmed before sends

end Cpp

namespace CSharp

/-- `SendResult`. -/
def send (worker : WorkerTask) (world : World) (result : ResultId × Bytes) : Option World :=
  some (sendResult worker result.1 result.2 world)

theorem delivers_iff (worker : WorkerTask) (before : World) (sends : List (ResultId × Bytes)) :
    Delivers (fun result => [result]) (send worker) worker before sends ↔
      ∀ n (hn : n < sends.length),
        (held worker before (sends.take n) sends[n].1).length ≤ sends[n].2.length :=
  (sendWith_writes .openOrCreate (pathCombine_leadsTo worker) _).delivers_one_iff before sends

end CSharp

namespace Java

/-- `notifyResultData`. -/
def send (worker : WorkerTask) (world : World) (result : ResultId × Bytes) : Option World :=
  some (notifyResultData worker result.1 result.2 world)

theorem delivers_iff (worker : WorkerTask) (before : World) (sends : List (ResultId × Bytes)) :
    Delivers (fun result => [result]) (send worker) worker before sends ↔
      ∀ n (hn : n < sends.length), held worker before (sends.take n) sends[n].1 = [] :=
  (sendWith_writes .append (pathsGet_leadsTo worker) _).delivers_one_iff before sends

end Java

/-- C++ delivers every sequence of results, unless there are blanks around the
path of the data folder, and Python always does.  C# delivers a sequence just
when no result is shorter than what its file holds, and Java just when every file
is missing or empty when its result is sent.  All of them leave the same files
where they deliver the same sequence. -/
theorem result_files_delivered_iff (worker : WorkerTask) (sends : List (ResultId × Bytes)) :
    ((∀ agent before,
        Delivers (fun result => [result]) (Cpp.send agent worker) worker before sends) ↔
      sends = [] ∨ Cpp.Trimmed worker) ∧
    (∀ before batches, Delivers Python.results (Python.send worker) worker before batches) ∧
    (∀ before, Delivers (fun result => [result]) (CSharp.send worker) worker before sends ↔
      ∀ n (hn : n < sends.length),
        (held worker before (sends.take n) sends[n].1).length ≤ sends[n].2.length) ∧
    (∀ before, Delivers (fun result => [result]) (Java.send worker) worker before sends ↔
      ∀ n (hn : n < sends.length), held worker before (sends.take n) sends[n].1 = []) ∧
    ∀ before batches otherBatches after other, Delivered worker before batches after →
      Delivered worker before otherBatches other → batches.flatten = otherBatches.flatten →
        after.files = other.files := by
  refine ⟨Cpp.delivers_iff worker sends, Python.delivers worker, ?_, ?_, ?_⟩
  · exact fun before => CSharp.delivers_iff worker before sends
  · exact fun before => Java.delivers_iff worker before sends
  · intro before batches otherBatches after other hdelivered hother hsame
    exact hdelivered.same_files hother hsame

/-- Sending one byte to a file of two bytes. -/
theorem result_files_keep_old_contents :
    let worker : WorkerTask := ⟨"session", "token", "/data"⟩
    let id : ResultId := ⟨"r", by decide, by decide, by decide, by decide⟩
    let before : World :=
      { files := fun path => if path = worker.file id then some [1, 2] else none, notified := [] }
    (CSharp.sendResult worker id [3] before).files (worker.file id) = some [3, 2] ∧
      (Java.notifyResultData worker id [3] before).files (worker.file id) = some [1, 2, 3] ∧
      ¬ Delivers (fun result => [result]) (CSharp.send worker) worker before [(id, [3])] ∧
      ¬ Delivers (fun result => [result]) (Java.send worker) worker before [(id, [3])] := by
  intro worker id before
  refine ⟨by decide, by decide, ?_, ?_⟩
  · rw [CSharp.delivers_iff]
    intro hlength
    exact absurd (hlength 0 (by decide)) (by decide)
  · rw [Java.delivers_iff]
    intro hempty
    exact absurd (hempty 0 (by decide)) (by decide)

end ArmoniKApi
