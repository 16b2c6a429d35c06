import ArmoniKApi.Library.Loop

/-!
# Cutting a sequence into chunks

`chunks size data` are the pieces of `data` from the front, of `size` items each
but for the last, which is what remains.

Senders cut their data with an index: as long as it is inside the data, take
`min size (length - start)` items from there on.  `returns_cut` says that such a
loop ends, and that it has sent the chunks, when `size` is not 0.

The loop is stated with the index that the senders use and not by recursion on the data, since
that is where they differ from `chunks`.  Two facts carry the proof of `returns_cut`:

* `chunks_drop`: what is left behind the index is cut into the next slice and what is left
  behind the next index.  This is the invariant of a turn: what was sent, together with the
  chunks of the rest, stays the same.
* the distance from the index to the end of the data gets smaller with every turn, as long as
  the size is not 0.

`cut_nil` and `run_cut_zero` are the two cases outside: no data, where no turn is made, and a
size of 0, where every turn sends an empty chunk and leaves the index where it was, so that no
number of turns is enough.
-/

namespace Chunking

variable {α M : Type*}

/-! ## The chunks -/

/-- The chunks of a sequence; a size of 0 counts as 1. -/
def chunks (size : ℕ) : List α → List (List α)
  | [] => []
  | a :: rest => (a :: rest.take (size - 1)) :: chunks size (rest.drop (size - 1))
termination_by data => data.length
decreasing_by simp only [List.length_drop, List.length_cons]; omega

theorem chunks_nil (size : ℕ) : chunks size ([] : List α) = [] := by
  rw [chunks]

theorem chunks_of_ne_nil {size : ℕ} (hsize : 1 ≤ size) {data : List α} (hdata : data ≠ []) :
    chunks size data = data.take size :: chunks size (data.drop size) := by
  obtain ⟨a, rest, rfl⟩ := List.exists_cons_of_ne_nil hdata
  obtain ⟨n, rfl⟩ := Nat.exists_eq_add_of_le' hsize
  rw [chunks, Nat.add_sub_cancel, List.take_succ_cons, List.drop_succ_cons]

theorem flatten_chunks (size : ℕ) (data : List α) : (chunks size data).flatten = data := by
  fun_induction chunks size data with
  | case1 => rfl
  | case2 a rest ih =>
      rw [List.flatten_cons, ih, List.cons_append, List.take_append_drop]

theorem ne_nil_of_mem_chunks {size : ℕ} {data chunk : List α} (hchunk : chunk ∈ chunks size data) :
    chunk ≠ [] := by
  fun_induction chunks size data with
  | case1 => cases hchunk
  | case2 a rest ih =>
      rcases List.mem_cons.mp hchunk with rfl | hrest
      · exact List.cons_ne_nil _ _
      · exact ih hrest

theorem length_le_of_mem_chunks {size : ℕ} (hsize : 1 ≤ size) {data chunk : List α}
    (hchunk : chunk ∈ chunks size data) : chunk.length ≤ size := by
  fun_induction chunks size data with
  | case1 => cases hchunk
  | case2 a rest ih =>
      rcases List.mem_cons.mp hchunk with rfl | hrest
      · rw [List.length_cons, List.length_take]
        omega
      · exact ih hrest

theorem chunks_ne_nil {size : ℕ} {data : List α} (hdata : data ≠ []) : chunks size data ≠ [] := by
  intro hchunks
  exact hdata ((flatten_chunks size data).symm.trans (congrArg List.flatten hchunks))

/-! ## Cutting with an index -/

/-- The variables of the loop: the index, and what was sent. -/
structure Cut (M : Type*) where
  start : ℕ
  sent : List M

/-- `data[start .. start + min(size, length - start)]`. -/
def slice (size : ℕ) (data : List α) (start : ℕ) : List α :=
  (data.drop start).take (min size (data.length - start))

/-- One turn of the loop; `message` wraps a chunk for sending. -/
def cut (message : List α → M) (size : ℕ) (data : List α) (vars : Cut M) :
    Loop.Turn (Cut M) (List M) :=
  if vars.start < data.length then
    .again {
      start := vars.start + min size (data.length - vars.start)
      sent := vars.sent ++ [message (slice size data vars.start)] }
  else .leave vars.sent

/-- What is left to cut is cut at the next index. -/
theorem chunks_drop {size : ℕ} (hsize : 1 ≤ size) {data : List α} {start : ℕ}
    (hstart : start < data.length) :
    chunks size (data.drop start) = slice size data start ::
      chunks size (data.drop (start + min size (data.length - start))) := by
  have hne : data.drop start ≠ [] := by
    rw [Ne, List.drop_eq_nil_iff]
    omega
  have htake : (data.drop start).take size = slice size data start := by
    rw [slice, List.take_eq_take_iff, List.length_drop]
    omega
  have hdrop : (data.drop start).drop size =
      data.drop (start + min size (data.length - start)) := by
    rw [List.drop_drop]
    rcases Nat.le_total size (data.length - start) with hle | hle
    · rw [Nat.min_eq_left hle]
    · rw [Nat.min_eq_right hle, List.drop_of_length_le (by omega),
        List.drop_of_length_le (by omega)]
  rw [chunks_of_ne_nil hsize hne, htake, hdrop]

theorem chunks_drop_of_le {size : ℕ} {data : List α} {start : ℕ} (hstart : data.length ≤ start) :
    chunks size (data.drop start) = [] := by
  rw [List.drop_of_length_le hstart, chunks_nil]

/-- The loop ends, after it has sent the chunks of the data. -/
theorem returns_cut (message : List α → M) {size : ℕ} (hsize : 1 ≤ size) (data : List α)
    (sent : List M) :
    Loop.Returns (fun turns => Loop.run (cut message size data) turns ⟨0, sent⟩)
      (sent ++ (chunks size data).map message) := by
  -- what was sent and what is left to send make up all the chunks
  apply Loop.returns_run
    (fun vars => vars.sent ++ (chunks size (data.drop vars.start)).map message =
      sent ++ (chunks size data).map message)
    (fun vars => data.length - vars.start)
  · intro vars hvars
    by_cases hstart : vars.start < data.length
    · refine Or.inl ⟨_, if_pos hstart, ?_, by dsimp only; omega⟩
      rw [← hvars, chunks_drop hsize hstart]
      simp
    · refine Or.inr ((if_neg hstart).trans ?_)
      rw [← hvars, chunks_drop_of_le (Nat.le_of_not_lt hstart), List.map_nil, List.append_nil]
  · rfl

/-- Where there is nothing to cut, the size does not matter. -/
theorem cut_nil (message : List α → M) (size other : ℕ) :
    cut message size [] = cut message other [] := by
  funext vars
  have hstart : ¬vars.start < ([] : List α).length := Nat.not_lt_zero _
  rw [cut, cut, if_neg hstart, if_neg hstart]

/-- With a size of 0 the index stays where it is. -/
theorem run_cut_zero (message : List α → M) {data : List α} (hdata : data ≠ []) (sent : List M)
    (turns : ℕ) : Loop.run (cut message 0 data) turns ⟨0, sent⟩ = none := by
  refine Loop.run_eq_none (fun vars => vars.start < data.length) ?_ turns
    (List.length_pos_of_ne_nil hdata)
  intro vars hstart
  refine ⟨_, if_pos hstart, ?_⟩
  show vars.start + min 0 (data.length - vars.start) < data.length
  rwa [Nat.zero_min, Nat.add_zero]

end Chunking
