import ArmoniKApi.Cpp.StringView
import ArmoniKApi.Library.OStringStream
import ArmoniKApi.Proto.Worker
import Mathlib.Data.List.AList
import Mathlib.Data.List.TakeWhile

/-!
# The inputs of a C++ worker

The constructor of `TaskHandler` reads the payload of a task and its data
dependencies from the data folder, all through one string stream.  An empty
file sets the stream's `failbit`, and nothing clears it, so every file that is
read after an empty one comes out empty: the inputs are right exactly when no
file with contents is read after an empty one (`taskHandler_holds_inputs_iff`).

## Strategy

`failbit` makes a file depend on those before it, so the induction over the dependencies has
to know the state of the stream.  There are two states and two lemmas:

```text
failbit clear      the next file comes out as it is     readsAs_of_readsOn
failbit set        every file comes out empty           readsAs_of_failbit
```

`ReadsOn` is the condition on what is left to read, given the flag, and is shaped so that it
unfolds by one file (`readsOn_cons_iff`).  `readDataDependencies_eq` turns the dictionary of
the handler into a list of file contents.  For the converse, `readDataDependencies_of_not_readsOn`
finds a dependency that is lost: it is in the dictionary, with nothing in it.

The file system is a function from paths to contents, and all files exist and can be opened;
that a file cannot be opened is the same to the stream as that it is empty (`ifstream`).  Two
ids may have the same file when they differ in blanks, which is left to `Cpp.PathJoin`.
-/

namespace ArmoniKApi.Cpp

open Proto (ProcessRequest TaskOptions Configuration)

/-- The contents of a file. -/
abbrev Bytes := List UInt8

/-! ## Paths -/

/-- `trim_copy`. -/
def trimCopy (s : List Char) : List Char :=
  ((s.reverse.dropWhile isSpace).reverse).dropWhile isSpace

/-- `pathJoin`.  It looks at the last character of the first path, of which
there is none when that is blank: the standard leaves open what happens then. -/
def pathJoin (p1 p2 : String) : Option String :=
  match (trimCopy p1.toList).getLast? with
  | none => none
  | some last =>
      let tmp := if last ≠ '/' then trimCopy p1.toList ++ ['/'] else trimCopy p1.toList
      some (String.ofList (tmp ++ trimCopy p2.toList))

/-- What is left lies between blanks. -/
theorem trimCopy_parts (s : List Char) :
    ∃ front back, s = front ++ trimCopy s ++ back ∧ (∀ c ∈ front, isSpace c) ∧
      ∀ c ∈ back, isSpace c := by
  let kept := (s.reverse.dropWhile isSpace).reverse
  have hback : s = kept ++ (s.reverse.takeWhile isSpace).reverse := by
    rw [← List.reverse_append, List.takeWhile_append_dropWhile, List.reverse_reverse]
  have hfront : kept = kept.takeWhile isSpace ++ trimCopy s :=
    List.takeWhile_append_dropWhile.symm
  refine ⟨kept.takeWhile isSpace, (s.reverse.takeWhile isSpace).reverse, ?_, ?_, ?_⟩
  · rw [← hfront]
    exact hback
  · exact fun c hc => List.mem_takeWhile_imp hc
  · exact fun c hc => List.mem_takeWhile_imp (List.mem_reverse.mp hc)

/-! ## The constructor -/

/-- A file system: the contents of the files that can be opened. -/
abbrev FileSystem := String → Option Bytes

/-- What `std::ifstream(path).rdbuf()` yields: nothing when the file cannot be opened. -/
def ifstream (files : FileSystem) (path : String) : Bytes := (files path).getD []

/-- The members of `TaskHandler` that the constructor sets from the request.
`request_` and the stub are references. -/
structure TaskHandler where
  sessionId : String
  taskId : String
  taskOptions : TaskOptions
  expectedResult : List String
  payload : Bytes
  dataDependencies : AList fun _ : String => Bytes
  token : String
  config : Configuration
  dataFolder : String

/-- `string_stream << std::ifstream(pathJoin(data_folder_, id)).rdbuf()`, then
`string_stream.str()`, then `string_stream.str("")`. -/
def readFile (files : FileSystem) (dataFolder id : String) (stream : OStringStream UInt8) :
    Option (Bytes × OStringStream UInt8) := do
  let path ← pathJoin dataFolder id
  let stream := stream.insert (ifstream files path)
  return (stream.str, stream.clearStr)

/-- The loop over `data_dependencies()`. -/
def readDataDependencies (files : FileSystem) (dataFolder : String) :
    List String → OStringStream UInt8 → (AList fun _ : String => Bytes) →
      Option (AList fun _ : String => Bytes)
  | [], _, dataDependencies => some dataDependencies
  | dd :: rest, stream, dataDependencies => do
      let (bytes, stream) ← readFile files dataFolder dd stream
      readDataDependencies files dataFolder rest stream (dataDependencies.insert dd bytes)

/-- The constructor of `TaskHandler`. -/
def taskHandler (files : FileSystem) (request : ProcessRequest) : Option TaskHandler := do
  let (payload, stream) ← readFile files request.dataFolder request.payloadId .empty
  let dataDependencies ←
    readDataDependencies files request.dataFolder request.dataDependencies stream ∅
  return {
    sessionId := request.sessionId
    taskId := request.taskId
    taskOptions := request.taskOptions
    expectedResult := request.expectedOutputKeys
    payload := payload
    dataDependencies := dataDependencies
    token := request.communicationToken
    config := request.configuration
    dataFolder := request.dataFolder }

/-! ## What the files come out as -/

/-- `contents id` are the contents of the file of every id of the list. -/
def FilesExist (files : FileSystem) (dataFolder : String) (contents : String → Bytes)
    (ids : List String) : Prop :=
  ∀ id ∈ ids, ∃ path, pathJoin dataFolder id = some path ∧ files path = some (contents id)

theorem FilesExist.of_cons {files : FileSystem} {dataFolder id : String}
    {contents : String → Bytes} {rest : List String}
    (h : FilesExist files dataFolder contents (id :: rest)) :
    FilesExist files dataFolder contents rest :=
  fun other hother => h other (List.mem_cons_of_mem _ hother)

/-- Reading a file through a stream with an empty string. -/
theorem readFile_eq {files : FileSystem} {dataFolder id : String} {contents : String → Bytes}
    {rest : List String} (hfiles : FilesExist files dataFolder contents (id :: rest))
    (failbit : Bool) :
    readFile files dataFolder id ⟨[], failbit⟩ =
      some (if failbit then [] else contents id, ⟨[], failbit || (contents id).isEmpty⟩) := by
  obtain ⟨path, hpath, hfile⟩ := hfiles id (List.mem_cons_self ..)
  have hstream : ifstream files path = contents id := by rw [ifstream, hfile, Option.getD_some]
  calc readFile files dataFolder id ⟨[], failbit⟩
      = some ((OStringStream.insert ⟨[], failbit⟩ (ifstream files path)).str,
          (OStringStream.insert ⟨[], failbit⟩ (ifstream files path)).clearStr) := by
        rw [readFile, hpath]
        rfl
    _ = _ := by
        rw [hstream]
        simp [OStringStream.str_insert, OStringStream.clearStr]

/-- No file with contents is read after an empty one. -/
def NoneAfterEmpty (contents : String → Bytes) (ids : List String) : Prop :=
  ids.Pairwise fun earlier later => contents earlier = [] → contents later = []

/-- The files that come next are read as they are: the stream is fit for the
first of them, and none comes after an empty one. -/
structure ReadsOn (contents : String → Bytes) (failbit : Bool) (ids : List String) : Prop where
  fit : failbit = true → ∀ id ∈ ids, contents id = []
  noneAfterEmpty : NoneAfterEmpty contents ids

theorem readsOn_cons_iff {contents : String → Bytes} {failbit : Bool} {id : String}
    {rest : List String} :
    ReadsOn contents failbit (id :: rest) ↔
      (failbit = true → contents id = []) ∧
        ReadsOn contents (failbit || (contents id).isEmpty) rest := by
  constructor
  · rintro ⟨hfit, hpairwise⟩
    rw [NoneAfterEmpty, List.pairwise_cons] at hpairwise
    refine ⟨fun hfailbit => hfit hfailbit id (List.mem_cons_self ..),
      ⟨fun hnext => ?_, hpairwise.2⟩⟩
    rcases Bool.or_eq_true_iff.mp hnext with hfailbit | hempty
    · exact fun other hother => hfit hfailbit other (List.mem_cons_of_mem _ hother)
    · exact fun other hother => hpairwise.1 other hother (List.isEmpty_iff.mp hempty)
  · rintro ⟨hid, hfit, hpairwise⟩
    refine ⟨fun hfailbit other hother => ?_, List.pairwise_cons.mpr ⟨fun other hother hempty => ?_,
      hpairwise⟩⟩
    · rcases List.mem_cons.mp hother with rfl | hother
      · exact hid hfailbit
      · exact hfit (by simp [hfailbit]) other hother
    · exact hfit (by simp [hempty]) other hother

/-- The files come out as `bytes`, one after the other. -/
def ReadsAs (files : FileSystem) (dataFolder : String) (bytes : String → Bytes) :
    List String → Bool → Prop
  | [], _ => True
  | id :: rest, failbit => ∃ next,
      readFile files dataFolder id ⟨[], failbit⟩ = some (bytes id, ⟨[], next⟩) ∧
        ReadsAs files dataFolder bytes rest next

theorem readsAs_of_readsOn {files : FileSystem} {dataFolder : String}
    {contents : String → Bytes} {ids : List String}
    (hfiles : FilesExist files dataFolder contents ids) {failbit : Bool}
    (hreads : ReadsOn contents failbit ids) : ReadsAs files dataFolder contents ids failbit := by
  induction ids generalizing failbit with
  | nil => trivial
  | cons id rest ih =>
      obtain ⟨hid, hnext⟩ := readsOn_cons_iff.mp hreads
      have hbytes : (if failbit then [] else contents id) = contents id := by
        split
        · rename_i hfailbit
          exact (hid hfailbit).symm
        · rfl
      refine ⟨_, ?_, ih hfiles.of_cons hnext⟩
      rw [readFile_eq hfiles, hbytes]

/-- Once `failbit` is set, every file comes out empty. -/
theorem readsAs_of_failbit {files : FileSystem} {dataFolder : String}
    {contents : String → Bytes} {ids : List String}
    (hfiles : FilesExist files dataFolder contents ids) :
    ReadsAs files dataFolder (fun _ => []) ids true := by
  induction ids with
  | nil => trivial
  | cons id rest ih => exact ⟨true, readFile_eq hfiles true, ih hfiles.of_cons⟩

/-- The dependencies hold what the files come out as. -/
theorem readDataDependencies_eq {files : FileSystem} {dataFolder : String}
    {bytes : String → Bytes} {ids : List String} {failbit : Bool}
    (hreads : ReadsAs files dataFolder bytes ids failbit) (before : AList fun _ : String => Bytes) :
    ∃ after, readDataDependencies files dataFolder ids ⟨[], failbit⟩ before = some after ∧
      ∀ id, after.lookup id = if id ∈ ids then some (bytes id) else before.lookup id := by
  induction ids generalizing failbit before with
  | nil => exact ⟨before, rfl, by simp⟩
  | cons dd rest ih =>
      obtain ⟨next, hread, hrest⟩ := hreads
      obtain ⟨after, hafter, hlookup⟩ := ih hrest (before.insert dd (bytes dd))
      refine ⟨after, ?_, fun id => ?_⟩
      · rw [readDataDependencies, hread]
        exact hafter
      · rw [hlookup]
        by_cases hid : id = dd
        -- a dependency that is listed again is read again, and overwritten
        · subst hid
          by_cases hmem : id ∈ rest <;> simp [hmem, AList.lookup_insert]
        · simp [hid, AList.lookup_insert_ne hid]

/-- When the stream does not read on, some dependency is lost. -/
theorem readDataDependencies_of_not_readsOn {files : FileSystem} {dataFolder : String}
    {contents : String → Bytes} {ids : List String}
    (hfiles : FilesExist files dataFolder contents ids) {failbit : Bool}
    (hreads : ¬ ReadsOn contents failbit ids) {before after : AList fun _ : String => Bytes}
    (hafter : readDataDependencies files dataFolder ids ⟨[], failbit⟩ before = some after) :
    ∃ id ∈ ids, contents id ≠ [] ∧ after.lookup id = some [] := by
  induction ids generalizing failbit before with
  | nil => exact absurd ⟨by simp, List.Pairwise.nil⟩ hreads
  | cons dd rest ih =>
      cases failbit with
      -- `dd` itself is read as it is, so the loss is further on
      | false =>
          have hnext : ¬ ReadsOn contents (false || (contents dd).isEmpty) rest :=
            fun h => hreads (readsOn_cons_iff.mpr ⟨by simp, h⟩)
          rw [readDataDependencies, readFile_eq hfiles] at hafter
          obtain ⟨id, hid, hlost⟩ := ih hfiles.of_cons hnext hafter
          exact ⟨id, List.mem_cons_of_mem _ hid, hlost⟩
      -- everything comes out empty, and some file here has contents
      | true =>
          have hlost : ∃ id ∈ dd :: rest, contents id ≠ [] := by
            by_contra hnone
            push Not at hnone
            exact hreads ⟨fun _ => hnone, List.pairwise_of_forall_mem_list
              fun _ _ later hlater _ => hnone later hlater⟩
          obtain ⟨id, hid, hne⟩ := hlost
          obtain ⟨after', hafter', hlookup⟩ :=
            readDataDependencies_eq (readsAs_of_failbit hfiles) before
          obtain rfl : after = after' := Option.some.inj (hafter.symm.trans hafter')
          exact ⟨id, hid, hne, by rw [hlookup, if_pos hid]⟩

/-! ## The inputs of a task -/

/-- The handler holds the contents of the payload file and of every dependency,
and nothing else. -/
structure HoldsInputs (request : ProcessRequest) (contents : String → Bytes)
    (handler : TaskHandler) : Prop where
  payload : handler.payload = contents request.payloadId
  dataDependencies : ∀ id, handler.dataDependencies.lookup id =
    if id ∈ request.dataDependencies then some (contents id) else none

/-- The constructor on files that exist: the payload comes out as it is, and the
loop over the dependencies starts with `failbit` set if the payload was empty. -/
theorem taskHandler_eq {files : FileSystem} {request : ProcessRequest}
    {contents : String → Bytes}
    (hfiles : FilesExist files request.dataFolder contents
      (request.payloadId :: request.dataDependencies)) :
    taskHandler files request =
      (readDataDependencies files request.dataFolder request.dataDependencies
        ⟨[], (contents request.payloadId).isEmpty⟩ ∅).map fun dataDependencies =>
          { sessionId := request.sessionId
            taskId := request.taskId
            taskOptions := request.taskOptions
            expectedResult := request.expectedOutputKeys
            payload := contents request.payloadId
            dataDependencies := dataDependencies
            token := request.communicationToken
            config := request.configuration
            dataFolder := request.dataFolder } := by
  rw [taskHandler, OStringStream.empty, readFile_eq hfiles false]
  simp only [Bool.false_or, Bool.false_eq_true, if_false, Option.map_eq_bind]
  rfl

/-- The constructor gets the inputs of a task right exactly when no file with
contents is read after an empty one, in the order payload, then dependencies. -/
theorem taskHandler_holds_inputs_iff {files : FileSystem} {request : ProcessRequest}
    {contents : String → Bytes}
    (hfiles : FilesExist files request.dataFolder contents
      (request.payloadId :: request.dataDependencies)) :
    (∃ handler, taskHandler files request = some handler ∧ HoldsInputs request contents handler) ↔
      NoneAfterEmpty contents (request.payloadId :: request.dataDependencies) := by
  -- the stream is one for all files, so the payload counts as the first of them
  have hreads : NoneAfterEmpty contents (request.payloadId :: request.dataDependencies) ↔
      ReadsOn contents (contents request.payloadId).isEmpty request.dataDependencies := by
    have hcons : ReadsOn contents false (request.payloadId :: request.dataDependencies) ↔ _ :=
      readsOn_cons_iff
    simp only [Bool.false_eq_true, false_imp_iff, true_and, Bool.false_or] at hcons
    rw [← hcons]
    exact ⟨fun h => ⟨by simp, h⟩, fun h => h.noneAfterEmpty⟩
  rw [hreads, taskHandler_eq hfiles]
  constructor
  · rintro ⟨handler, hhandler, hinputs⟩
    obtain ⟨after, hafter, rfl⟩ := Option.map_eq_some_iff.mp hhandler
    by_contra hlost
    obtain ⟨id, hid, hne, hlookup⟩ :=
      readDataDependencies_of_not_readsOn hfiles.of_cons hlost hafter
    have hheld := hinputs.dataDependencies id
    rw [if_pos hid, hlookup] at hheld
    exact hne (Option.some.inj hheld).symm
  · intro h
    obtain ⟨after, hafter, hlookup⟩ :=
      readDataDependencies_eq (readsAs_of_readsOn hfiles.of_cons h) ∅
    rw [hafter]
    exact ⟨_, rfl, rfl, hlookup⟩

/-! ### An empty file in between -/

/-- A data folder with three files, one of them empty. -/
def sampleContents (id : String) : Bytes := if id = "empty" then [] else [42]

/-- The files of the folder, under their paths. -/
def sampleFiles : FileSystem := fun path =>
  if path = "/data/payload" then some (sampleContents "payload")
  else if path = "/data/empty" then some (sampleContents "empty")
  else if path = "/data/full" then some (sampleContents "full")
  else none

/-- A request for these files, with the dependencies in the given order. -/
def sampleRequest (dataDependencies : List String) : ProcessRequest where
  communicationToken := "token"
  sessionId := "session"
  taskId := "task"
  taskOptions := ⟨[], none, 1, 1, "", "", "", "", "", ""⟩
  expectedOutputKeys := ["output"]
  payloadId := "payload"
  dataDependencies := dataDependencies
  dataFolder := "/data"
  configuration := ⟨1024⟩

theorem filesExist_sampleFiles {ids : List String} (hids : ids ⊆ ["payload", "empty", "full"]) :
    FilesExist sampleFiles "/data" sampleContents ids := by
  intro id hid
  have hmem := hids hid
  simp only [List.mem_cons, List.not_mem_nil, or_false] at hmem
  rcases hmem with rfl | rfl | rfl
  · exact ⟨"/data/payload", by decide, rfl⟩
  · exact ⟨"/data/empty", by decide, rfl⟩
  · exact ⟨"/data/full", by decide, rfl⟩

/-- The dependency that is read after the empty one is lost. -/
theorem taskHandler_loses_dependency :
    FilesExist sampleFiles "/data" sampleContents ["payload", "empty", "full"] ∧
      ∃ handler, taskHandler sampleFiles (sampleRequest ["empty", "full"]) = some handler ∧
        handler.dataDependencies.lookup "full" = some [] ∧
        ¬ HoldsInputs (sampleRequest ["empty", "full"]) sampleContents handler := by
  have hlookup : ((taskHandler sampleFiles (sampleRequest ["empty", "full"])).map fun handler =>
      handler.dataDependencies.lookup "full") = some (some []) := by decide
  obtain ⟨handler, hhandler, hfull⟩ := Option.map_eq_some_iff.mp hlookup
  refine ⟨filesExist_sampleFiles (by decide), handler, hhandler, hfull, fun hinputs => ?_⟩
  have hheld := hinputs.dataDependencies "full"
  rw [hfull] at hheld
  exact absurd hheld (by decide)

/-- In the other order both dependencies are read as they are. -/
theorem taskHandler_holds_inputs_sample :
    ∃ handler, taskHandler sampleFiles (sampleRequest ["full", "empty"]) = some handler ∧
      HoldsInputs (sampleRequest ["full", "empty"]) sampleContents handler :=
  (taskHandler_holds_inputs_iff (filesExist_sampleFiles (by decide))).mpr (by
    unfold NoneAfterEmpty
    decide)

end ArmoniKApi.Cpp
