import ArmoniKApi.Cpp.TaskHandlerStream
import ArmoniKApi.Proto.Submitter
import ArmoniKApi.Sdks.UploadResultData

/-!
# Which chunk loops end

The size of the chunks comes from the other side, as an `int32` that nobody
looks at.  The Python client cuts with it as it is.  The C++ client and the C++
worker convert it to `size_t`, so that a negative size becomes a very large one
and the payload is sent in one chunk.

With a size of 0 no loop over a payload gets ahead, and with a negative one the
Python loop goes backwards.  `chunk_loops_end_iff` says that these are all the
loops that do not end, but for an upload in C++ that is ended by a write that
fails.

```text
   size       Python             C++
   n > 0      ends               ends
   n = 0      does not end       does not end, unless a write fails
   n < 0      does not end       ends: the size is 2^64 + n
```

An empty payload makes every loop end at once.

## Strategy

A loop is a function of the number of its turns, and `Returns` says that it has come to its
end after some of them.

* That a loop ends is proved by what gets smaller, the view or the rest of the data.
* That it does not end is proved by an invariant.  With a size of 0 the view stays as it is
  (`next_zero`), and the Python loop with a size that is not positive never gets beyond the
  data (`uploadResultStream_eq_none`).
* `ends_iff_of_sizes` puts the two together for the loops of the C++ client and worker.
-/

namespace ArmoniKApi

open Proto (Bytes UploadResultDataRequest CreateTaskOneOf TaskRequest TaskFrame taskFrames
  payloadChunks)
open Loop (Returns)

/-! ## What is sent -/

/-- The data of the chunks of an upload. -/
def uploadedData (requests : List UploadResultDataRequest) : Bytes :=
  (requests.map fun request =>
    match request.type with
    | some (.dataChunk chunk) => chunk
    | _ => []).flatten

theorem uploadedData_append (requests others : List UploadResultDataRequest) :
    uploadedData (requests ++ others) = uploadedData requests ++ uploadedData others := by
  rw [uploadedData, List.map_append, List.flatten_append]
  rfl

theorem uploadedData_uploadStream (sessionId resultId : String) (chunks : List Bytes) :
    uploadedData (uploadStream sessionId resultId chunks) = chunks.flatten := by
  unfold uploadedData uploadStream
  rw [List.map_cons, List.map_map, List.flatten_cons, List.nil_append]
  exact congrArg List.flatten (List.map_id chunks)

/-- The data of the chunks of a task. -/
def taskData {I : Type} (messages : List (Option (CreateTaskOneOf I))) : Bytes :=
  (messages.map fun message =>
    match message with
    | some (.taskPayload chunk) => chunk.data
    | _ => []).flatten

theorem taskData_taskFrames {I : Type} (size : ℕ) (task : TaskRequest) (isLast : Bool) :
    taskData ((taskFrames (payloadChunks size) task isLast).map fun frame =>
      some (CreateTaskOneOf.ofFrame (I := I) frame)) = task.payload := by
  have hchunks : ∀ chunks : List Bytes,
      taskData (chunks.map fun chunk =>
        some (CreateTaskOneOf.ofFrame (I := I) (.data chunk))) = chunks.flatten := by
    intro chunks
    unfold taskData
    rw [List.map_map]
    exact congrArg List.flatten (List.map_id chunks)
  have hpayload := hchunks (payloadChunks size task.payload)
  rw [Proto.flatten_payloadChunks] at hpayload
  cases isLast with
  | false => simpa [taskFrames, Framing.itemFrames, taskData, TaskRequest.item,
      CreateTaskOneOf.ofFrame, Function.comp_def, Proto.DataChunk.data] using hpayload
  | true => simpa [taskFrames, Framing.itemFrames, taskData, TaskRequest.item,
      CreateTaskOneOf.ofFrame, Function.comp_def, Proto.DataChunk.data] using hpayload

/-! ## Python -/

namespace Python

/-- An index of a slice: a negative one counts from the end, and one outside of
the data is moved to the end it is beyond. -/
def sliceIndex (length : ℕ) (index : Int) : ℕ :=
  if index < 0 then (index + length).toNat else min index.toNat length

/-- `data[start : stop]`. -/
def slice (data : Bytes) (start stop : Int) : Bytes :=
  let first := sliceIndex data.length start
  (data.drop first).take (sliceIndex data.length stop - first)

/-- The variables of `upload_result_stream`, and what it has yielded. -/
structure StreamVars where
  start : Int
  requests : List UploadResultDataRequest

/-- One turn of the loop. -/
def streamTurn (resultData : Bytes) (dataChunkMaxSize : Int) (vars : StreamVars) :
    Loop.Turn StreamVars (List UploadResultDataRequest) :=
  let dataLen : Int := resultData.length
  if vars.start < dataLen then
    let chunkSize := min dataChunkMaxSize (dataLen - vars.start)
    let request : UploadResultDataRequest :=
      ⟨some (.dataChunk (slice resultData vars.start (vars.start + chunkSize)))⟩
    .again ⟨vars.start + chunkSize, vars.requests ++ [request]⟩
  else .leave vars.requests

/-- The requests that `upload_result_stream` yields, for any integer as the size of
the chunks. -/
def uploadResultStream (resultId sessionId : String) (resultData : Bytes)
    (dataChunkMaxSize : Int) (turns : ℕ) : Option (List UploadResultDataRequest) :=
  let request : UploadResultDataRequest := ⟨some (.id ⟨sessionId, resultId⟩)⟩
  Loop.run (streamTurn resultData dataChunkMaxSize) turns ⟨0, [request]⟩

theorem sliceIndex_natCast {length index : ℕ} (hindex : index ≤ length) :
    sliceIndex length index = index := by
  rw [sliceIndex, if_neg (by omega), Int.toNat_natCast, Nat.min_eq_left hindex]

/-- A size that is not negative can be taken for a natural number. -/
theorem uploadResultStream_natCast (resultId sessionId : String) (resultData : Bytes)
    (size turns : ℕ) :
    uploadResultStream resultId sessionId resultData size turns =
      uploadResultData resultId sessionId resultData size turns := by
  -- the variables of one loop are those of the other, and so are the turns
  let embed : Chunking.Cut UploadResultDataRequest → StreamVars :=
    fun vars => ⟨(vars.start : Int), vars.sent⟩
  let cutTurn : Chunking.Cut UploadResultDataRequest → Loop.Turn _ _ :=
    Chunking.cut (fun chunk => ⟨some (.dataChunk chunk)⟩) size resultData
  have hagain : ∀ vars next, cutTurn vars = .again next →
      streamTurn resultData size (embed vars) = .again (embed next) := by
    intro vars next hturn
    by_cases hstart : vars.start < resultData.length
    · cases (if_pos hstart).symm.trans hturn
      have hsize : min (size : Int) (resultData.length - vars.start) =
          (min size (resultData.length - vars.start) : ℕ) := by omega
      have hstop : vars.start + min size (resultData.length - vars.start) ≤ resultData.length := by
        omega
      -- no index is out of the data, so that none is moved
      have hslice : slice resultData vars.start
          (vars.start + (min size (resultData.length - vars.start) : ℕ)) =
            Chunking.slice size resultData vars.start := by
        rw [← Int.natCast_add, slice, sliceIndex_natCast hstop,
          sliceIndex_natCast (Nat.le_of_lt hstart), Nat.add_sub_cancel_left]
        rfl
      unfold streamTurn
      rw [if_pos (Int.ofNat_lt.mpr hstart)]
      simp only [embed, hsize, hslice, Int.natCast_add]
    · cases (if_neg hstart).symm.trans hturn
  have hleave : ∀ vars r, cutTurn vars = .leave r →
      streamTurn resultData size (embed vars) = .leave r := by
    intro vars r hturn
    by_cases hstart : vars.start < resultData.length
    · cases (if_pos hstart).symm.trans hturn
    · cases (if_neg hstart).symm.trans hturn
      exact if_neg fun h => hstart (Int.ofNat_lt.mp h)
  exact Loop.run_embed embed hagain hleave turns ⟨0, _⟩

/-- With any other size the start never gets beyond the data. -/
theorem uploadResultStream_eq_none (resultId sessionId : String) {resultData : Bytes}
    (hdata : resultData ≠ []) {dataChunkMaxSize : Int} (hsize : dataChunkMaxSize ≤ 0)
    (turns : ℕ) :
    uploadResultStream resultId sessionId resultData dataChunkMaxSize turns = none := by
  have hlength := List.length_pos_of_ne_nil hdata
  refine Loop.run_eq_none (fun vars : StreamVars => vars.start < resultData.length) ?_ turns ?_
  · intro vars hstart
    refine ⟨_, if_pos hstart, ?_⟩
    show vars.start + min dataChunkMaxSize (resultData.length - vars.start) < resultData.length
    omega
  · show (0 : Int) < resultData.length
    omega

theorem uploadResultStream_ends_iff (resultId sessionId : String) (resultData : Bytes)
    (dataChunkMaxSize : Int) :
    (∃ requests,
      Returns (uploadResultStream resultId sessionId resultData dataChunkMaxSize) requests ∧
        uploadedData requests = resultData) ↔ resultData = [] ∨ 0 < dataChunkMaxSize := by
  constructor
  · rintro ⟨requests, hreturns, -⟩
    by_contra hnot
    rw [not_or, Int.not_lt] at hnot
    exact Loop.not_returns_of_none
      (uploadResultStream_eq_none resultId sessionId hnot.1 hnot.2) requests hreturns
  · rintro (rfl | hsize)
    · refine ⟨[⟨some (.id ⟨sessionId, resultId⟩)⟩], Loop.returns_run_of_leave ?_, rfl⟩
      simp [streamTurn]
    · obtain ⟨size, rfl⟩ := Int.eq_ofNat_of_zero_le (Int.le_of_lt hsize)
      have hreturns := returns_uploadResultData resultId sessionId resultData
        (Int.ofNat_lt.mp hsize)
      rw [← funext (uploadResultStream_natCast resultId sessionId resultData size)] at hreturns
      exact ⟨_, hreturns,
        (uploadedData_uploadStream _ _ _).trans (Chunking.flatten_chunks size resultData)⟩

end Python

/-! ## C++ -/

namespace Cpp

/-- The size of the chunks is 0 only if the number is. -/
theorem one_le_sizeT_toInt_iff (n : Int32) : 1 ≤ sizeT n.toInt ↔ n.toInt ≠ 0 :=
  one_le_sizeT_iff n.le_toInt (Int.le_of_lt_add_one n.toInt_lt)

theorem uploadedData_chunkRequest (chunk : Proto.Bytes) :
    uploadedData [chunkRequest chunk] = chunk := List.append_nil chunk

/-- An upload ends well, or with an exception. -/
def Upload.Sound (payload : Proto.Bytes) (upload : Upload) : Prop :=
  uploadedData upload.written = payload ∨ ∃ message, upload.outcome = .error message

variable (stream : ClientWriter) (sessionId resultId : String)

/-- With a size other than 0 the view gets shorter, and what was written and what
is left make up the payload. -/
theorem uploadResultData_ends (payload : Proto.Bytes) {size : ℕ} (hsize : 1 ≤ size) :
    ∃ upload, Returns (uploadResultData stream sessionId resultId payload size) upload ∧
      upload.Sound payload := by
  apply Loop.exists_returns_run
    (fun vars : UploadVars => uploadedData vars.written ++ vars.payload = payload)
    (Upload.Sound payload) (fun vars => vars.payload.length)
  · intro vars hvars
    rcases uploadTurn_cases stream size vars with
      ⟨hpayload, -, hagain⟩ | ⟨-, -, hleave⟩ | ⟨hnil, outcome, hleave⟩
    · refine Or.inl ⟨_, hagain, ?_, length_trim_lt hsize hpayload⟩
      have htrim := congrArg List.flatten (chunks_trim hsize hpayload)
      rw [List.flatten_cons, Chunking.flatten_chunks, Chunking.flatten_chunks] at htrim
      show uploadedData (vars.written ++ [chunkRequest _]) ++ substr vars.payload _ none = payload
      rw [uploadedData_append, uploadedData_chunkRequest, List.append_assoc, ← hvars]
      exact congrArg (uploadedData vars.written ++ ·) htrim.symm
    · exact Or.inr ⟨_, hleave, Or.inr ⟨_, rfl⟩⟩
    · rw [hnil, List.append_nil] at hvars
      exact Or.inr ⟨_, hleave, Or.inl hvars⟩
  · show uploadedData (if stream.write 0 = true then _ else []) ++ payload = payload
    split <;> rfl

/-- With a size of 0 the view stays as it is. -/
theorem next_zero (vars : UploadVars) : (vars.next 0).payload = vars.payload := by
  show substr vars.payload (substr vars.payload 0 (some 0)).length none = vars.payload
  rw [substr_zero, List.take_zero, substr_none, List.length_nil, List.drop_zero]

/-- Then the upload ends at the first write that fails. -/
theorem uploadResultData_zero_ends {payload : Proto.Bytes} (hpayload : payload ≠ []) {n : ℕ}
    (hn : 1 ≤ n) (hfails : stream.write n = false) :
    ∃ upload, Returns (uploadResultData stream sessionId resultId payload 0) upload ∧
      upload.Sound payload := by
  apply Loop.exists_returns_run
    (fun vars : UploadVars => vars.payload ≠ [] ∧ vars.writes ≤ n)
    (Upload.Sound payload) (fun vars => n - vars.writes)
  · intro vars hvars
    rcases uploadTurn_cases stream 0 vars with
      ⟨hne, hwrite, hagain⟩ | ⟨-, -, hleave⟩ | ⟨hnil, -, -⟩
    · have hbefore : vars.writes ≠ n := by
        rintro rfl
        rw [hfails] at hwrite
        cases hwrite
      have hwrites : (vars.next 0).writes = vars.writes + 1 := rfl
      have hlast := hvars.2
      refine Or.inl ⟨_, hagain, ?_⟩
      rw [next_zero, hwrites]
      exact ⟨⟨hne, by omega⟩, by omega⟩
    · exact Or.inr ⟨_, hleave, Or.inr ⟨_, rfl⟩⟩
    · exact absurd hnil hvars.1
  · exact ⟨hpayload, hn⟩

/-- Without one it does not end. -/
theorem uploadResultData_zero_eq_none {payload : Proto.Bytes} (hpayload : payload ≠ [])
    (hwrites : ∀ n ≥ 1, stream.write n = true) (turns : ℕ) :
    uploadResultData stream sessionId resultId payload 0 turns = none := by
  refine Loop.run_eq_none (fun vars : UploadVars => vars.payload ≠ [] ∧ 1 ≤ vars.writes) ?_ turns
    ⟨hpayload, Nat.le_refl 1⟩
  intro vars hvars
  rcases uploadTurn_cases stream 0 vars with
    ⟨-, -, hagain⟩ | ⟨-, hfails, -⟩ | ⟨hnil, -, -⟩
  · refine ⟨_, hagain, ?_, Nat.le_add_left 1 _⟩
    rw [next_zero]
    exact hvars.1
  · rw [hwrites vars.writes hvars.2] at hfails
    cases hfails
  · exact absurd hnil hvars.1

theorem uploadResultData_nil_ends (size : ℕ) :
    ∃ upload, Returns (uploadResultData stream sessionId resultId [] size) upload ∧
      upload.Sound [] := by
  apply Loop.exists_returns_run
    (fun vars : UploadVars => uploadedData vars.written = [] ∧ vars.payload = [])
    (Upload.Sound []) (fun _ => 0)
  · intro vars hvars
    rcases uploadTurn_cases stream size vars with
      ⟨hne, -, -⟩ | ⟨hne, -, -⟩ | ⟨-, outcome, hleave⟩
    · exact absurd hvars.2 hne
    · exact absurd hvars.2 hne
    · exact Or.inr ⟨_, hleave, Or.inl hvars.1⟩
  · show uploadedData (if stream.write 0 = true then _ else []) = [] ∧ _
    split <;> exact ⟨rfl, rfl⟩

theorem uploadResultData_ends_iff (payload : Proto.Bytes) (n : Int32) :
    (∃ upload, Returns (uploadResultData stream sessionId resultId payload (sizeT n.toInt)) upload ∧
        upload.Sound payload) ↔
      payload = [] ∨ n.toInt ≠ 0 ∨ ∃ k ≥ 1, stream.write k = false := by
  constructor
  · rintro ⟨upload, hreturns, -⟩
    by_contra hnot
    simp only [not_or, not_exists, not_and, Bool.not_eq_false] at hnot
    obtain ⟨hpayload, hzero, hwrites⟩ := hnot
    have hsize : sizeT n.toInt = 0 := by
      have hiff := one_le_sizeT_toInt_iff n
      omega
    rw [hsize] at hreturns
    exact Loop.not_returns_of_none
      (uploadResultData_zero_eq_none stream sessionId resultId hpayload hwrites) upload hreturns
  · intro hends
    rcases Nat.eq_zero_or_pos (sizeT n.toInt) with hzero | hsize
    · rw [hzero]
      rcases hends with rfl | hne | ⟨k, hk, hfails⟩
      · exact uploadResultData_nil_ends stream sessionId resultId 0
      · have hpos := (one_le_sizeT_toInt_iff n).mpr hne
        omega
      · by_cases hpayload : payload = []
        · subst hpayload
          exact uploadResultData_nil_ends stream sessionId resultId 0
        · exact uploadResultData_zero_ends stream sessionId resultId hpayload hk hfails
    · exact uploadResultData_ends stream sessionId resultId payload hsize

/-- A loop over a payload that ends for every size other than 0, for which an empty
payload is as good as any, and that does not end otherwise. -/
theorem ends_iff_of_sizes {M : Type} (program : ℕ → ℕ → Option M) {Sound : M → Prop}
    {payload : Proto.Bytes}
    (hends : ∀ size ≥ 1, ∃ result, Returns (program size) result ∧ Sound result)
    (hnil : payload = [] → program 0 = program 1)
    (hzero : payload ≠ [] → ∀ turns, program 0 turns = none) (n : Int32) :
    (∃ result, Returns (program (sizeT n.toInt)) result ∧ Sound result) ↔
      payload = [] ∨ n.toInt ≠ 0 := by
  have hiff := one_le_sizeT_toInt_iff n
  rcases Nat.eq_zero_or_pos (sizeT n.toInt) with hsize | hsize
  · have hn : ¬n.toInt ≠ 0 := by omega
    rw [hsize]
    constructor
    · rintro ⟨result, hreturns, -⟩
      by_contra hnot
      rw [not_or] at hnot
      exact Loop.not_returns_of_none (hzero hnot.1) result hreturns
    · rintro (hpayload | hne)
      · rw [hnil hpayload]
        exact hends 1 (Nat.le_refl 1)
      · exact absurd hne hn
  · exact ⟨fun _ => Or.inr (hiff.mp hsize), fun _ => hends _ hsize⟩

theorem SubmitterClient.taskChunkStream_zero_eq_none {taskRequest : TaskRequest}
    (hpayload : taskRequest.payload ≠ []) (isLast : Bool) (turns : ℕ) :
    taskChunkStream taskRequest isLast 0 turns = none := by
  simp only [taskChunkStream, Chunking.run_cut_zero _ hpayload]
  rfl

theorem SubmitterClient.taskChunkStream_ends_iff (taskRequest : TaskRequest) (isLast : Bool)
    (n : Int32) :
    (∃ requests, Returns (taskChunkStream taskRequest isLast (sizeT n.toInt)) requests ∧
        taskData (requests.map fun request => request.type) = taskRequest.payload) ↔
      taskRequest.payload = [] ∨ n.toInt ≠ 0 := by
  refine ends_iff_of_sizes (taskChunkStream taskRequest isLast) ?_ ?_ ?_ n
  · intro size hsize
    refine ⟨_, returns_taskChunkStream taskRequest isLast hsize, ?_⟩
    rw [List.map_map]
    exact taskData_taskFrames size taskRequest isLast
  · intro hpayload
    funext turns
    simp only [taskChunkStream, hpayload, Chunking.cut_nil _ 0 1]
  · exact fun hpayload => taskChunkStream_zero_eq_none hpayload isLast

theorem TaskHandler.taskChunkStream_zero_eq_none {taskRequest : TaskRequest}
    (hpayload : taskRequest.payload ≠ []) (isLast : Bool) (token : String) (turns : ℕ) :
    taskChunkStream taskRequest isLast token 0 turns = none := by
  simp only [taskChunkStream, Chunking.run_cut_zero _ hpayload]
  rfl

theorem TaskHandler.taskChunkStream_ends_iff (taskRequest : TaskRequest) (isLast : Bool)
    (token : String) (n : Int32) :
    (∃ requests, Returns (taskChunkStream taskRequest isLast token (sizeT n.toInt)) requests ∧
        taskData (requests.map fun request => request.type) = taskRequest.payload) ↔
      taskRequest.payload = [] ∨ n.toInt ≠ 0 := by
  refine ends_iff_of_sizes (taskChunkStream taskRequest isLast token) ?_ ?_ ?_ n
  · intro size hsize
    refine ⟨_, returns_taskChunkStream taskRequest isLast token hsize, ?_⟩
    rw [List.map_map]
    exact taskData_taskFrames size taskRequest isLast
  · intro hpayload
    funext turns
    simp only [taskChunkStream, hpayload, Chunking.cut_nil _ 0 1]
  · exact fun hpayload => taskChunkStream_zero_eq_none hpayload isLast token

end Cpp

/-! ## The four loops -/

/-- For every size of 32 bits and every payload, the loops that end, with the whole
payload sent or with an exception: in Python those with a positive size, in C++
those with a size other than 0, the upload also when a write after the first one
fails, and all loops over an empty payload. -/
theorem chunk_loops_end_iff (n : Int32) :
    (∀ resultId sessionId data,
      (∃ requests,
        Returns (Python.uploadResultStream resultId sessionId data n.toInt) requests ∧
          uploadedData requests = data) ↔ data = [] ∨ 0 < n.toInt) ∧
    (∀ stream sessionId resultId payload,
      (∃ upload,
        Returns (Cpp.uploadResultData stream sessionId resultId payload (Cpp.sizeT n.toInt))
            upload ∧
          (uploadedData upload.written = payload ∨
            ∃ message, upload.outcome = .error message)) ↔
        payload = [] ∨ n.toInt ≠ 0 ∨ ∃ k ≥ 1, stream.write k = false) ∧
    (∀ taskRequest isLast,
      (∃ requests,
        Returns (Cpp.SubmitterClient.taskChunkStream taskRequest isLast (Cpp.sizeT n.toInt))
            requests ∧
          taskData (requests.map fun request => request.type) = taskRequest.payload) ↔
        taskRequest.payload = [] ∨ n.toInt ≠ 0) ∧
    (∀ taskRequest isLast token,
      (∃ requests,
        Returns (Cpp.TaskHandler.taskChunkStream taskRequest isLast token (Cpp.sizeT n.toInt))
            requests ∧
          taskData (requests.map fun request => request.type) = taskRequest.payload) ↔
        taskRequest.payload = [] ∨ n.toInt ≠ 0) :=
  ⟨fun resultId sessionId data =>
      Python.uploadResultStream_ends_iff resultId sessionId data n.toInt,
    fun stream sessionId resultId payload =>
      Cpp.uploadResultData_ends_iff stream sessionId resultId payload n,
    fun taskRequest isLast =>
      Cpp.SubmitterClient.taskChunkStream_ends_iff taskRequest isLast n,
    fun taskRequest isLast token =>
      Cpp.TaskHandler.taskChunkStream_ends_iff taskRequest isLast token n⟩

/-- One byte and a size of 0: none of the loops ends, over a writer that accepts
everything.  The Python loop does not end with a size of -1 either. -/
theorem chunk_loops_do_not_end :
    let stream : Cpp.ClientWriter := ⟨fun _ => true, true, .ok ()⟩
    let task : TaskRequest := ⟨["result"], [], [1]⟩
    (∀ requests, ¬Returns
      (Python.uploadResultStream "result" "session" [1] (0 : Int32).toInt) requests) ∧
    (∀ requests, ¬Returns
      (Python.uploadResultStream "result" "session" [1] (-1 : Int32).toInt) requests) ∧
    (∀ upload, ¬Returns
      (Cpp.uploadResultData stream "session" "result" [1] (Cpp.sizeT 0)) upload) ∧
    (∀ requests, ¬Returns
      (Cpp.SubmitterClient.taskChunkStream task true (Cpp.sizeT 0)) requests) ∧
    (∀ requests, ¬Returns
      (Cpp.TaskHandler.taskChunkStream task true "token" (Cpp.sizeT 0)) requests) := by
  have hzero : Cpp.sizeT 0 = 0 := by decide
  have hone : ([1] : Bytes) ≠ [] := List.cons_ne_nil _ _
  refine ⟨?_, ?_, ?_, ?_, ?_⟩
  · exact Loop.not_returns_of_none
      (Python.uploadResultStream_eq_none "result" "session" hone (by decide))
  · exact Loop.not_returns_of_none
      (Python.uploadResultStream_eq_none "result" "session" hone (by decide))
  · rw [hzero]
    exact Loop.not_returns_of_none
      (Cpp.uploadResultData_zero_eq_none _ "session" "result" hone fun _ _ => rfl)
  · rw [hzero]
    exact Loop.not_returns_of_none
      (Cpp.SubmitterClient.taskChunkStream_zero_eq_none hone true)
  · rw [hzero]
    exact Loop.not_returns_of_none
      (Cpp.TaskHandler.taskChunkStream_zero_eq_none hone true "token")

end ArmoniKApi
