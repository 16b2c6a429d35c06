import ArmoniKApi.Cpp.StringView
import ArmoniKApi.Library.Chunking
import ArmoniKApi.Proto.Results

/-!
# Uploading the data of a result in Python, C++ and C#

All three clients write an identifier message and then the data in chunks.  The
Python and the C# client cut the data with an index.  The C++ client trims a
view of it from the front, and uses one request object for all of its messages.

The C++ client is also the one that looks at the outcome of a write: it stops at
the first chunk that cannot be written.

## Strategy

* `uploadStream` is what a server should see.  Python and C# yield it by their index
  (`returns_uploadResultData` of each).
* In C++ the loop changes a view.  `chunks_trim` says that trimming by the first chunk leaves the
  other chunks, so that what is hoped for stays the same from turn to turn (`hoped_next`).
* `uploadTurn_cases`: a turn writes a chunk and goes on, fails to write one, or finds none left.
  `exists_returns_uploadResultData` follows by induction on the length of the view, with a part
  of the stream as its result when a write fails.
* `chars_substr_eq`: the `substr` of this module is that of a view with indices of 64 bits.
-/

namespace ArmoniKApi

open Proto (Bytes UploadResultDataRequest)

/-- The messages that a server should see: the identifier, then the chunks. -/
def uploadStream (sessionId resultId : String) (chunks : List Bytes) :
    List UploadResultDataRequest :=
  ⟨some (.id ⟨sessionId, resultId⟩)⟩ :: chunks.map fun chunk => ⟨some (.dataChunk chunk)⟩

/-! ## Python -/

namespace Python

/-- The requests that `upload_result_stream` yields. -/
def uploadResultData (resultId sessionId : String) (resultData : Bytes) (dataChunkMaxSize : ℕ)
    (turns : ℕ) : Option (List UploadResultDataRequest) :=
  let request : UploadResultDataRequest := ⟨some (.id ⟨sessionId, resultId⟩)⟩
  Loop.run (Chunking.cut (fun chunk => ⟨some (.dataChunk chunk)⟩) dataChunkMaxSize resultData)
    turns ⟨0, [request]⟩

theorem returns_uploadResultData (resultId sessionId : String) (resultData : Bytes) {size : ℕ}
    (hsize : 1 ≤ size) :
    Loop.Returns (uploadResultData resultId sessionId resultData size)
      (uploadStream sessionId resultId (Chunking.chunks size resultData)) :=
  Chunking.returns_cut _ hsize resultData _

end Python

/-! ## C# -/

namespace CSharp

/-- The requests that `UploadResultData` writes. -/
def uploadResultData (sessionId resultId : String) (data : Bytes) (dataChunkMaxSize : ℕ)
    (turns : ℕ) : Option (List UploadResultDataRequest) :=
  let request : UploadResultDataRequest := ⟨some (.id ⟨sessionId, resultId⟩)⟩
  Loop.run (Chunking.cut (fun chunk => ⟨some (.dataChunk chunk)⟩) dataChunkMaxSize data)
    turns ⟨0, [request]⟩

theorem returns_uploadResultData (sessionId resultId : String) (data : Bytes) {size : ℕ}
    (hsize : 1 ≤ size) :
    Loop.Returns (uploadResultData sessionId resultId data size)
      (uploadStream sessionId resultId (Chunking.chunks size data)) :=
  Chunking.returns_cut _ hsize data _

end CSharp

/-! ## C++ -/

namespace Cpp

/-- `string_view::substr`, with `none` for `npos`: a position beyond the end
counts as the end, and a length beyond it as the rest. -/
def substr {α : Type} (view : List α) (pos : ℕ) (len : Option ℕ) : List α :=
  let start := if pos < view.length then pos else view.length
  let count :=
    match len with
    | none => view.length - start
    | some len => if start + len > view.length then view.length - start else len
  (view.drop start).take count

section Substr

variable {α : Type} (view : List α) (pos len : ℕ)

theorem substr_none : substr view pos none = view.drop pos := by
  show (view.drop (if pos < view.length then pos else view.length)).take
      (view.length - if pos < view.length then pos else view.length) = view.drop pos
  rw [← List.length_drop, List.take_length]
  split
  · rfl
  · rw [List.drop_length, List.drop_of_length_le (by omega)]

theorem substr_some : substr view pos (some len) = (view.drop pos).take len := by
  by_cases hpos : pos < view.length
  · have hsubstr : substr view pos (some len) =
        (view.drop pos).take (if pos + len > view.length then view.length - pos else len) := by
      simp only [substr, if_pos hpos]
    rw [hsubstr]
    split
    · rw [← List.length_drop, List.take_length, List.take_of_length_le]
      rw [List.length_drop]
      omega
    · rfl
  · simp only [substr, if_neg hpos]
    rw [List.drop_length, List.take_nil, List.drop_of_length_le (by omega), List.take_nil]

theorem substr_zero : substr view 0 (some len) = view.take len := by
  rw [substr_some, List.drop_zero]

end Substr

/-- It is `substr` of a view with indices of 64 bits, as long as their sum does not wrap. -/
theorem chars_substr_eq (self : StringView) {pos len : SizeT}
    (hfits : len = npos ∨
      min pos.toNat self.size.toNat + len.toNat < 18446744073709551616) :
    (self.substr pos len).chars =
      substr self.chars pos.toNat (if len = npos then none else some len.toNat) := by
  obtain ⟨hdata, hsize, -⟩ : self.IsClamped pos.toNat len.toNat (self.substr pos len) := by
    rcases hfits with rfl | hfits
    · exact self.isClamped_substr_npos pos
    · exact self.isClamped_substr pos len hfits
  have hself := self.size.toNat_lt
  have hchars : (self.substr pos len).chars =
      (self.data.drop pos.toNat).take (min len.toNat (self.size.toNat - pos.toNat)) := by
    rw [StringView.chars, hdata, hsize]
    rcases Nat.le_total pos.toNat self.size.toNat with hle | hle
    · have hcount : min (pos.toNat + len.toNat) self.size.toNat - pos.toNat =
          min len.toNat (self.size.toNat - pos.toNat) := by omega
      rw [Nat.min_eq_left hle, hcount]
    · -- nothing is left
      have hnone : min (pos.toNat + len.toNat) self.size.toNat - self.size.toNat = 0 := by omega
      rw [Nat.min_eq_right hle, hnone, Nat.sub_eq_zero_of_le hle, Nat.min_zero, List.take_zero,
        List.take_zero]
  rw [hchars, StringView.chars]
  split
  · rename_i hnpos
    have hall : len.toNat = 18446744073709551615 := by rw [hnpos, StringView.toNat_npos]
    rw [substr_none, List.drop_take, Nat.min_eq_right (by omega)]
  · rw [substr_some, List.drop_take, List.take_take]

/-- What a `ClientWriter` answers: whether the write number `n` succeeds, whether
`WritesDone` does, and the status of `Finish`, which may hold an error message. -/
structure ClientWriter where
  write : ℕ → Bool
  writesDone : Bool
  finish : Except String Unit

/-- What was written, and the message of the exception if there is one. -/
structure Upload where
  written : List UploadResultDataRequest
  outcome : Except String Unit

/-- The variables of the loop; `writes` counts the calls of `Write`. -/
structure UploadVars where
  payload : Proto.Bytes
  request : UploadResultDataRequest
  writes : ℕ
  written : List UploadResultDataRequest

/-- One turn of the loop over the payload. -/
def uploadTurn (stream : ClientWriter) (maxChunkSize : ℕ) (vars : UploadVars) :
    Loop.Turn UploadVars Upload :=
  if ¬ vars.payload.isEmpty then
    let chunk := substr vars.payload 0 (some maxChunkSize)
    -- `mutable_data_chunk()` takes the place of what the oneof held
    let request := { vars.request with type := some (.dataChunk chunk) }
    if ¬ stream.write vars.writes then
      .leave ⟨vars.written, .error "Unable to continue upload result"⟩
    else
      .again {
        payload := substr vars.payload chunk.length none
        request := request
        writes := vars.writes + 1
        written := vars.written ++ [request] }
  else if ¬ stream.writesDone then .leave ⟨vars.written, .error "Unable to upload result"⟩
  else
    match stream.finish with
    | .error message => .leave ⟨vars.written, .error ("Unable to finish upload result " ++ message)⟩
    | .ok () => .leave ⟨vars.written, .ok ()⟩

/-- `upload_result_data`.  The outcome of the first write is not looked at. -/
def uploadResultData (stream : ClientWriter) (sessionId resultId : String) (payload : Proto.Bytes)
    (maxChunkSize : ℕ) (turns : ℕ) : Option Upload :=
  let request : UploadResultDataRequest := ⟨some (.id ⟨sessionId, resultId⟩)⟩
  let written := if stream.write 0 then [request] else []
  Loop.run (uploadTurn stream maxChunkSize) turns ⟨payload, request, 1, written⟩

/-- The message of a chunk. -/
def chunkRequest (chunk : Proto.Bytes) : UploadResultDataRequest := ⟨some (.dataChunk chunk)⟩

/-- Trimming the view by its first chunk leaves the other chunks. -/
theorem chunks_trim {size : ℕ} (hsize : 1 ≤ size) {payload : Proto.Bytes}
    (hpayload : payload ≠ []) :
    Chunking.chunks size payload = substr payload 0 (some size) ::
      Chunking.chunks size (substr payload (substr payload 0 (some size)).length none) := by
  have hdrop : payload.drop (payload.take size).length = payload.drop size := by
    rw [List.length_take]
    rcases Nat.le_total size payload.length with hle | hle
    · rw [Nat.min_eq_left hle]
    · rw [Nat.min_eq_right hle, List.drop_length, List.drop_of_length_le hle]
  rw [substr_none, substr_zero, hdrop]
  exact Chunking.chunks_of_ne_nil hsize hpayload

theorem length_trim_lt {size : ℕ} (hsize : 1 ≤ size) {payload : Proto.Bytes}
    (hpayload : payload ≠ []) :
    (substr payload (substr payload 0 (some size)).length none).length < payload.length := by
  have hlength := List.length_pos_of_ne_nil hpayload
  rw [substr_none, substr_zero, List.length_drop, List.length_take]
  omega

/-- The variables after a write that succeeded. -/
def UploadVars.next (size : ℕ) (vars : UploadVars) : UploadVars where
  payload := substr vars.payload (substr vars.payload 0 (some size)).length none
  request := chunkRequest (substr vars.payload 0 (some size))
  writes := vars.writes + 1
  written := vars.written ++ [chunkRequest (substr vars.payload 0 (some size))]

/-- A turn writes a chunk and goes on, fails to write one, or finds none left. -/
theorem uploadTurn_cases (stream : ClientWriter) (size : ℕ) (vars : UploadVars) :
    (vars.payload ≠ [] ∧ stream.write vars.writes = true ∧
        uploadTurn stream size vars = .again (vars.next size)) ∨
      (vars.payload ≠ [] ∧ stream.write vars.writes = false ∧
        uploadTurn stream size vars =
          .leave ⟨vars.written, .error "Unable to continue upload result"⟩) ∨
      (vars.payload = [] ∧
        ∃ outcome, uploadTurn stream size vars = .leave ⟨vars.written, outcome⟩) := by
  unfold uploadTurn
  by_cases hnil : vars.payload = []
  · right; right
    rw [if_neg (by simp [hnil])]
    refine ⟨hnil, ?_⟩
    split
    · exact ⟨_, rfl⟩
    · split <;> exact ⟨_, rfl⟩
  · rw [if_pos (by simpa using hnil)]
    by_cases hwrite : stream.write vars.writes = true
    · left
      refine ⟨hnil, hwrite, ?_⟩
      dsimp only
      rw [if_neg (not_not.mpr hwrite)]
      rfl
    · right; left
      rw [Bool.not_eq_true] at hwrite
      dsimp only
      rw [if_pos (by simp [hwrite])]
      exact ⟨hnil, hwrite, rfl⟩

/-- What is written in the end if no other write fails. -/
def UploadVars.hoped (size : ℕ) (vars : UploadVars) : List UploadResultDataRequest :=
  vars.written ++ (Chunking.chunks size vars.payload).map chunkRequest

theorem hoped_next {size : ℕ} (hsize : 1 ≤ size) {vars : UploadVars}
    (hpayload : vars.payload ≠ []) : (vars.next size).hoped size = vars.hoped size := by
  rw [UploadVars.hoped, UploadVars.hoped, chunks_trim hsize hpayload, List.map_cons]
  show vars.written ++ [_] ++ _ = _
  rw [List.append_assoc]
  rfl

theorem hoped_of_nil (size : ℕ) {vars : UploadVars} (hnil : vars.payload = []) :
    vars.hoped size = vars.written := by
  rw [UploadVars.hoped, hnil, Chunking.chunks_nil, List.map_nil, List.append_nil]

/-- A part of the stream, and all of it when no write fails. -/
def PartOf (stream : ClientWriter) (full written : List UploadResultDataRequest) : Prop :=
  written.Sublist full ∧ ((∀ n, stream.write n = true) → written = full)

/-- Whatever the writer answers, the upload ends, and has written a part of the
stream; all of it when no write fails. -/
theorem exists_returns_uploadResultData (stream : ClientWriter) (sessionId resultId : String)
    (payload : Proto.Bytes) {size : ℕ} (hsize : 1 ≤ size) :
    ∃ upload, Loop.Returns (uploadResultData stream sessionId resultId payload size) upload ∧
      PartOf stream (uploadStream sessionId resultId (Chunking.chunks size payload))
        upload.written := by
  let full := uploadStream sessionId resultId (Chunking.chunks size payload)
  show ∃ upload, Loop.Returns
    (fun turns => Loop.run (uploadTurn stream size) turns ⟨payload, _, 1, _⟩) upload ∧ _
  apply Loop.exists_returns_run (fun vars : UploadVars => PartOf stream full (vars.hoped size))
    (fun upload : Upload => PartOf stream full upload.written) (fun vars => vars.payload.length)
  · intro vars hvars
    rcases uploadTurn_cases stream size vars with
      ⟨hpayload, -, hagain⟩ | ⟨-, hfails, hleave⟩ | ⟨hnil, outcome, hleave⟩
    · refine Or.inl ⟨_, hagain, ?_, length_trim_lt hsize hpayload⟩
      rwa [hoped_next hsize hpayload]
    · -- the chunks that were hoped for are left out
      refine Or.inr ⟨_, hleave, (List.sublist_append_left _ _).trans hvars.1, fun hwrite => ?_⟩
      rw [hwrite] at hfails
      cases hfails
    · rw [hoped_of_nil size hnil] at hvars
      exact Or.inr ⟨_, hleave, hvars⟩
  · by_cases hfirst : stream.write 0 = true
    · simp only [hfirst, if_true]
      exact ⟨List.Sublist.refl _, fun _ => rfl⟩
    · simp only [hfirst]
      exact ⟨List.sublist_cons_self _ _, fun hwrite => absurd (hwrite 0) hfirst⟩

end Cpp

/-! ## The three clients -/

/-- For any data and any chunk size but 0 all three uploads end, having written
the identifier and the same chunks: none is empty or too long, and together they
are the data. -/
theorem uploads_write_same_chunks (stream : Cpp.ClientWriter)
    (hwrite : ∀ n, stream.write n = true) (sessionId resultId : String) (data : Bytes) {size : ℕ}
    (hsize : 1 ≤ size) :
    ∃ chunks : List Bytes,
      Loop.Returns (Python.uploadResultData resultId sessionId data size)
        (uploadStream sessionId resultId chunks) ∧
      Loop.Returns (CSharp.uploadResultData sessionId resultId data size)
        (uploadStream sessionId resultId chunks) ∧
      (∃ outcome, Loop.Returns (Cpp.uploadResultData stream sessionId resultId data size)
        ⟨uploadStream sessionId resultId chunks, outcome⟩) ∧
      (∀ chunk ∈ chunks, chunk ≠ [] ∧ chunk.length ≤ size) ∧ chunks.flatten = data := by
  obtain ⟨⟨written, outcome⟩, hreturns, -, hall⟩ :=
    Cpp.exists_returns_uploadResultData stream sessionId resultId data hsize
  obtain rfl := hall hwrite
  refine ⟨Chunking.chunks size data, Python.returns_uploadResultData resultId sessionId data hsize,
    CSharp.returns_uploadResultData sessionId resultId data hsize, ⟨outcome, hreturns⟩,
    fun chunk hchunk => ?_, Chunking.flatten_chunks size data⟩
  exact ⟨Chunking.ne_nil_of_mem_chunks hchunk, Chunking.length_le_of_mem_chunks hsize hchunk⟩

/-- Five bytes in chunks of two, over a writer that accepts everything. -/
theorem uploads_write_same_chunks_of_five :
    let stream : Cpp.ClientWriter := ⟨fun _ => true, true, .ok ()⟩
    ∃ chunks : List Bytes,
      Loop.Returns (Python.uploadResultData "result" "session" [1, 2, 3, 4, 5] 2)
        (uploadStream "session" "result" chunks) ∧
      Loop.Returns (CSharp.uploadResultData "session" "result" [1, 2, 3, 4, 5] 2)
        (uploadStream "session" "result" chunks) ∧
      (∃ outcome, Loop.Returns
        (Cpp.uploadResultData stream "session" "result" [1, 2, 3, 4, 5] 2)
        ⟨uploadStream "session" "result" chunks, outcome⟩) ∧
      (∀ chunk ∈ chunks, chunk ≠ [] ∧ chunk.length ≤ 2) ∧ chunks.flatten = [1, 2, 3, 4, 5] :=
  uploads_write_same_chunks _ (fun _ => rfl) _ _ _ (by decide)

example : Python.uploadResultData "result" "session" [1, 2, 3, 4, 5] 2 4 =
    some (uploadStream "session" "result" [[1, 2], [3, 4], [5]]) := by
  decide

end ArmoniKApi
