import ArmoniKApi.CSharp.TaskStreams

/-!
# Cancelling a stream of task requests in C#

The iterator of a task stops where it finds that cancellation is requested.  The iterator of
the tasks does not look: it goes on with the next task, whose header is sent before the first
check, and the client completes the stream as ever.

Whichever checks find a request, no reader takes what was sent for a list of tasks, shorter or
not (`toRequestStream_read_iff`).

## Strategy

When a check finds a request depends on time, so each check is a parameter of the run: it
finds one or it does not, and a theorem over all choices covers every moment at which
cancellation may come.

```text
check              finds a request         what is missing of the task
before the data    no data is yielded      all but the header
before a chunk     the loop is left        the rest of the data, and the mark
after the data     the mark is left out    the mark
```

* `LoopLeft` says how the loop over a payload is left, and `exists_returns_task` how the
  messages of a task end: as they should, or without their end.
* `Broken` is what a stream has become when a task in it has no end.  The reader of the grammar
  refuses it wherever the task stands, because a header where data or a mark is expected is
  refused, and so is the end of the stream (`Broken.readStream_eq_none`).
* `exists_returns_lookahead` carries the two cases over the tasks: all quiet so far, or broken
  already, and then broken for good.
-/

namespace ArmoniKApi.CSharp

open Proto (TaskRequest TaskRequestHeader TaskOptions TaskFrame payloadChunks taskFrames streamOf
  readStream)
open Proto.Submitter (CreateLargeTaskRequest)
open Chunking (chunks)
open Framing (Item itemFrames Reading)

/-! ## Frames that cannot be read -/

/-- An item is begun, perhaps after others, and its end is missing: nothing follows its data, or
the header of another item. -/
inductive Broken (cut : Proto.Bytes → List Proto.Bytes) : List TaskFrame → Prop
  | here (header : TaskRequestHeader) (data : List Proto.Bytes) {rest : List TaskFrame}
      (hrest : rest = [] ∨ ∃ next others, rest = .header next :: others) :
      Broken cut (.header header :: (data.map .data ++ rest))
  | later (item : Item TaskRequestHeader UInt8) {rest : List TaskFrame} (hrest : Broken cut rest) :
      Broken cut (itemFrames cut item ++ rest)

theorem run_header_data (least : ℕ) (before : List (Item TaskRequestHeader UInt8))
    (header : TaskRequestHeader) (data : List Proto.Bytes) (rest : List TaskFrame) :
    Machine.run (Reading.step least) (.between before)
        (.header header :: (data.map .data ++ rest)) =
      Machine.run (Reading.step least) (.inside before header data) rest := by
  show Machine.run (Reading.step least) (.inside before header []) (data.map .data ++ rest) = _
  rw [Machine.run_append, Reading.run_data, List.nil_append, Option.bind_some]

/-- After an item the reader is between items, or has refused it for want of chunks. -/
theorem run_itemFrames (least : ℕ) (cut : Proto.Bytes → List Proto.Bytes)
    (before : List (Item TaskRequestHeader UInt8)) (item : Item TaskRequestHeader UInt8)
    (rest : List TaskFrame) :
    Machine.run (Reading.step least) (.between before) (itemFrames cut item ++ rest) =
      if least ≤ (cut item.data).length then
        Machine.run (Reading.step least)
          (.between (before ++ [⟨item.header, (cut item.data).flatten⟩])) rest
      else none := by
  rw [itemFrames, List.cons_append, List.append_assoc, run_header_data, List.singleton_append]
  show (Reading.step least (.inside before item.header (cut item.data)) .complete).bind
    (fun next => Machine.run (Reading.step least) next rest) = _
  rw [Reading.step]
  split <;> rfl

theorem Broken.result_eq_none {cut : Proto.Bytes → List Proto.Bytes} {frames : List TaskFrame}
    (h : Broken cut frames) (least : ℕ) (before : List (Item TaskRequestHeader UInt8)) :
    (Machine.run (Reading.step least) (.between before) frames).bind Reading.result = none := by
  induction h generalizing before with
  | here header data hrest =>
      rw [run_header_data]
      rcases hrest with rfl | ⟨next, others, rfl⟩ <;> rfl
  | later item _ ih =>
      rw [run_itemFrames]
      split
      · exact ih _
      · rfl

/-- Broken frames are not read, whatever comes before them in the stream. -/
theorem Broken.readStream_eq_none {I : Type} {cut : Proto.Bytes → List Proto.Bytes}
    {frames : List TaskFrame} (h : Broken cut frames) (least : ℕ) (init : I) :
    readStream least (streamOf init frames) = none := by
  unfold readStream streamOf
  dsimp only
  rw [Proto.mapM_frame?, Option.bind_eq_bind, Option.bind_some]
  have hread : Framing.read least frames = none := h.result_eq_none least []
  rw [hread]
  rfl

namespace SubmitterClientExt

/-! ## A task -/

/-- None of the checks that are made for the task finds a request for cancellation: one before
the data, one before each chunk, and one after the data. -/
def Quiet (isCancellationRequested : ℕ → Bool) (chunkMaxSize : ℕ) (task : TaskRequest) : Prop :=
  ∀ n ≤ (chunks chunkMaxSize task.payload).length + 1, isCancellationRequested n = false

/-- How the loop over a payload is left: after all chunks, with no request found, or before one
of them, where a request was found. -/
inductive LoopLeft (isCancellationRequested : ℕ → Bool) (all : List Proto.Bytes)
    (yielded : List CreateLargeTaskRequest) :
    Except (List CreateLargeTaskRequest) (ℕ × List CreateLargeTaskRequest) → Prop
  | through (hquiet : ∀ n < all.length, isCancellationRequested (1 + n) = false) :
      LoopLeft isCancellationRequested all yielded
        (.ok (1 + all.length, yielded ++ all.map fun chunk => ofFrame (.data chunk)))
  | cancelled {n : ℕ} (hn : n < all.length) (hfound : isCancellationRequested (1 + n) = true) :
      LoopLeft isCancellationRequested all yielded
        (.error (yielded ++ (all.take n).map fun chunk => ofFrame (.data chunk)))

theorem exists_returns_turn (isCancellationRequested : ℕ → Bool) {chunkMaxSize : ℕ}
    (hsize : 1 ≤ chunkMaxSize) (payload : Proto.Bytes) (yielded : List CreateLargeTaskRequest) :
    ∃ left, Loop.Returns (fun turns =>
        Loop.run (turn isCancellationRequested chunkMaxSize payload) turns ⟨0, 1, yielded⟩) left ∧
      LoopLeft isCancellationRequested (chunks chunkMaxSize payload) yielded left := by
  let all := chunks chunkMaxSize payload
  -- after `n` checks, `n` chunks were yielded, and the others are those of the rest
  apply Loop.exists_returns_run
    (fun vars => ∃ n ≤ all.length, vars.checks = 1 + n ∧
      vars.yielded = yielded ++ (all.take n).map (fun chunk => ofFrame (.data chunk)) ∧
      chunks chunkMaxSize (payload.drop vars.start) = all.drop n ∧
      ∀ m < n, isCancellationRequested (1 + m) = false)
    (LoopLeft isCancellationRequested all yielded)
    (fun vars => payload.length - vars.start)
  · rintro vars ⟨n, hn, hchecks, hyielded, hrest, hquiet⟩
    by_cases hstart : vars.start < payload.length
    · have hnext := Chunking.chunks_drop hsize hstart
      rw [hrest] at hnext
      have hlt : n < all.length := by
        by_contra hge
        rw [List.drop_of_length_le (Nat.le_of_not_lt hge)] at hnext
        cases hnext
      rw [List.drop_eq_getElem_cons hlt, List.cons.injEq] at hnext
      obtain ⟨hslice, hothers⟩ := hnext
      cases hfound : isCancellationRequested vars.checks with
      | true =>
          refine .inr ⟨.error vars.yielded, ?_, ?_⟩
          · rw [turn, if_pos hstart, if_pos hfound]
          · rw [hyielded]
            exact .cancelled hlt (hchecks ▸ hfound)
      | false =>
          refine .inl ⟨{
            start := vars.start + min chunkMaxSize (payload.length - vars.start)
            checks := vars.checks + 1
            yielded := vars.yielded ++
              [ofFrame (.data (Chunking.slice chunkMaxSize payload vars.start))] }, ?_,
            ⟨n + 1, hlt, ?_, ?_, hothers.symm, fun m hm => ?_⟩, ?_⟩
          · rw [turn, if_pos hstart, if_neg (by rw [hfound]; exact Bool.false_ne_true)]
            rfl
          · rw [hchecks, Nat.add_assoc]
          · rw [hyielded, List.take_succ_eq_append_getElem hlt, List.map_append, hslice,
              List.append_assoc]
            rfl
          · rcases Nat.lt_succ_iff_lt_or_eq.mp hm with hm | rfl
            · exact hquiet m hm
            · exact hchecks ▸ hfound
          · dsimp only
            omega
    · have hnil : Chunking.chunks chunkMaxSize (payload.drop vars.start) = [] :=
        Chunking.chunks_drop_of_le (Nat.le_of_not_lt hstart)
      rw [hrest, List.drop_eq_nil_iff] at hnil
      obtain rfl : n = all.length := Nat.le_antisymm hn hnil
      refine .inr ⟨.ok (vars.checks, vars.yielded), if_neg hstart, ?_⟩
      rw [hchecks, hyielded, List.take_length]
      exact .through hquiet
  · exact ⟨0, Nat.zero_le _, rfl, by simp, rfl, by simp⟩

/-- What is yielded before the loop over a payload. -/
def opening (task : TaskRequest) : List TaskFrame :=
  if task.payload.isEmpty then [.header task.item.header] ++ [.data []]
  else [.header task.item.header]

theorem map_opening (task : TaskRequest) :
    (opening task).map ofFrame =
      if task.payload.isEmpty then [ofFrame (.header task.item.header)] ++ [ofFrame (.data [])]
      else [ofFrame (.header task.item.header)] := by
  unfold opening
  split <;> rfl

/-- What is yielded when `n` chunks have gone out. -/
def begun (chunkMaxSize : ℕ) (task : TaskRequest) (n : ℕ) : List TaskFrame :=
  opening task ++ ((chunks chunkMaxSize task.payload).take n).map .data

theorem exists_begun (chunkMaxSize : ℕ) (task : TaskRequest) (n : ℕ) :
    ∃ data : List Proto.Bytes,
      begun chunkMaxSize task n = .header task.item.header :: data.map .data := by
  unfold begun opening
  split
  · exact ⟨[] :: (chunks chunkMaxSize task.payload).take n, rfl⟩
  · exact ⟨(chunks chunkMaxSize task.payload).take n, rfl⟩

theorem map_begun (chunkMaxSize : ℕ) (task : TaskRequest) (n : ℕ) :
    (begun chunkMaxSize task n).map ofFrame = (opening task).map ofFrame ++
      ((chunks chunkMaxSize task.payload).take n).map fun chunk => ofFrame (.data chunk) := by
  rw [begun, List.map_append, List.map_map]
  rfl

/-- What is yielded in all, once the loop over the payload has been left. -/
def closing (isCancellationRequested : ℕ → Bool) (isLast : Bool) :
    Except (List CreateLargeTaskRequest) (ℕ × List CreateLargeTaskRequest) →
      List CreateLargeTaskRequest
  | .error yielded => yielded
  | .ok (checks, yielded) =>
      if isCancellationRequested checks then yielded
      else if isLast then yielded ++ [ofFrame .complete] ++ [ofFrame .last]
      else yielded ++ [ofFrame .complete]

/-- With no request before the data, the messages of a task are told by its loop. -/
theorem returns_of_loop {isCancellationRequested : ℕ → Bool} {chunkMaxSize : ℕ}
    {task : TaskRequest} (isLast : Bool) (hfirst : isCancellationRequested 0 = false)
    {left : Except (List CreateLargeTaskRequest) (ℕ × List CreateLargeTaskRequest)}
    (hloop : Loop.Returns (fun turns =>
      Loop.run (turn isCancellationRequested chunkMaxSize task.payload) turns
        ⟨0, 1, (opening task).map ofFrame⟩) left) :
    Loop.Returns (toRequestStreamOfTask task isLast chunkMaxSize isCancellationRequested)
      (closing isCancellationRequested isLast left) := by
  rw [map_opening] at hloop
  unfold toRequestStreamOfTask
  simp only [hfirst]
  refine hloop.bind ?_
  cases left with
  | error yielded => exact Loop.returns_pure _
  | ok vars =>
      simp only [closing]
      split
      · exact Loop.returns_pure _
      · exact Loop.returns_pure _

/-- Check 0 is the one before the data, then there is one for each chunk, and one at the end. -/
theorem quiet_iff {isCancellationRequested : ℕ → Bool} {chunkMaxSize : ℕ} {task : TaskRequest} :
    Quiet isCancellationRequested chunkMaxSize task ↔
      isCancellationRequested 0 = false ∧
        (∀ n < (chunks chunkMaxSize task.payload).length,
          isCancellationRequested (1 + n) = false) ∧
        isCancellationRequested (1 + (chunks chunkMaxSize task.payload).length) = false := by
  constructor
  · intro hquiet
    exact ⟨hquiet 0 (Nat.zero_le _), fun n hn => hquiet _ (by omega), hquiet _ (by omega)⟩
  · rintro ⟨hfirst, hloop, hlast⟩ n hn
    rcases Nat.eq_zero_or_pos n with rfl | hpos
    · exact hfirst
    · obtain ⟨m, rfl⟩ := Nat.exists_eq_add_of_le hpos
      rcases Nat.lt_or_ge m (chunks chunkMaxSize task.payload).length with hm | hm
      · exact hloop m hm
      · obtain rfl : m = (chunks chunkMaxSize task.payload).length := by omega
        exact hlast

/-- How the messages of a task end: as they should, or without their end, and then a request was
found. -/
theorem exists_returns_task (isCancellationRequested : ℕ → Bool) {chunkMaxSize : ℕ}
    (hsize : 1 ≤ chunkMaxSize) (task : TaskRequest) (isLast : Bool) :
    ∃ frames, Loop.Returns (toRequestStreamOfTask task isLast chunkMaxSize isCancellationRequested)
        (frames.map ofFrame) ∧
      ((Quiet isCancellationRequested chunkMaxSize task ∧
          frames = taskFrames (payloadChunks chunkMaxSize) task isLast) ∨
        (¬Quiet isCancellationRequested chunkMaxSize task ∧
          ∃ data : List Proto.Bytes, frames = .header task.item.header :: data.map .data)) := by
  rw [quiet_iff]
  cases hfirst : isCancellationRequested 0 with
  -- the check after the header: `yield break` leaves the header alone
  | true =>
      refine ⟨[.header task.item.header], ?_, .inr ⟨fun hquiet => ?_, [], rfl⟩⟩
      · unfold toRequestStreamOfTask
        simp only [hfirst, if_true]
        exact Loop.returns_pure _
      · cases hquiet.1
  | false =>
      obtain ⟨left, hloop, hleft⟩ := exists_returns_turn isCancellationRequested hsize task.payload
        ((opening task).map ofFrame)
      have hreturns := returns_of_loop isLast hfirst hloop
      cases hleft with
      -- the check at a turn of the loop: `n` chunks have gone out, and the end is not written
      | @cancelled n hn hfound =>
          refine ⟨begun chunkMaxSize task n, ?_, .inr ⟨fun hquiet => ?_, exists_begun ..⟩⟩
          · rwa [closing, ← map_begun] at hreturns
          · rw [hquiet.2.1 n hn] at hfound
            cases hfound
      | through hquiet =>
          have hall := map_begun chunkMaxSize task (chunks chunkMaxSize task.payload).length
          rw [List.take_length] at hall
          cases hlast : isCancellationRequested (1 + (chunks chunkMaxSize task.payload).length) with
          -- the last check stands behind the loop, before the end of the task
          | true =>
              refine ⟨begun chunkMaxSize task (chunks chunkMaxSize task.payload).length, ?_,
                .inr ⟨fun hquiet => ?_, exists_begun ..⟩⟩
              · rwa [closing, if_pos hlast, ← hall] at hreturns
              · cases hquiet.2.2
          | false =>
              refine ⟨taskFrames (payloadChunks chunkMaxSize) task isLast, ?_,
                .inl ⟨⟨rfl, hquiet, rfl⟩, rfl⟩⟩
              rw [closing, hlast] at hreturns
              rw [Proto.map_taskFrames, ← map_opening]
              exact hreturns

/-! ## The stream -/

/-- No check of any task finds a request. -/
def AllQuiet (isCancellationRequested : ℕ → ℕ → Bool) (chunkMaxSize : ℕ)
    (tasks : List (TaskRequest × ℕ)) : Prop :=
  ∀ entry ∈ tasks, Quiet (isCancellationRequested entry.2) chunkMaxSize entry.1

theorem exists_returns_lookahead (isCancellationRequested : ℕ → ℕ → Bool) {chunkMaxSize : ℕ}
    (hsize : 1 ≤ chunkMaxSize) (position : ℕ) (current : TaskRequest) (rest : List TaskRequest) :
    ∃ frames, Loop.Returns (fun turns => lookahead (fun i task isLast =>
        toRequestStreamOfTask task isLast chunkMaxSize (isCancellationRequested i)) turns position
        current rest) (frames.map ofFrame) ∧
      (∃ header others, frames = .header header :: others) ∧
      ((AllQuiet isCancellationRequested chunkMaxSize ((current :: rest).zipIdx position) ∧
          frames = Framing.streamFrames (payloadChunks chunkMaxSize)
            ((current :: rest).map TaskRequest.item)) ∨
        (¬AllQuiet isCancellationRequested chunkMaxSize ((current :: rest).zipIdx position) ∧
          Broken (payloadChunks chunkMaxSize) frames)) := by
  unfold AllQuiet
  induction rest generalizing position current with
  -- the task is the last one, and no frame follows its own
  | nil =>
      obtain ⟨frames, hreturns, h⟩ :=
        exists_returns_task (isCancellationRequested position) hsize current true
      refine ⟨frames, hreturns, ?_⟩
      rw [List.zipIdx_singleton, List.forall_mem_singleton]
      rcases h with ⟨hquiet, rfl⟩ | ⟨hnot, data, rfl⟩
      · exact ⟨⟨_, _, rfl⟩, .inl ⟨hquiet, rfl⟩⟩
      · refine ⟨⟨_, _, rfl⟩, .inr ⟨hnot, ?_⟩⟩
        have hhere : Broken (payloadChunks chunkMaxSize)
            (.header current.item.header :: (data.map .data ++ [])) :=
          .here current.item.header data (.inl rfl)
        rwa [List.append_nil] at hhere
  -- the lookahead: a task is written once its successor is known
  | cons next rest ih =>
      obtain ⟨frames, hreturns, h⟩ :=
        exists_returns_task (isCancellationRequested position) hsize current false
      obtain ⟨others, hothers, ⟨header, tail, hheader⟩, hrest⟩ := ih (position + 1) next
      refine ⟨frames ++ others, ?_, ?_⟩
      · rw [List.map_append]
        exact hreturns.bind (hothers.bind (Loop.returns_pure _))
      · rw [List.zipIdx_cons, List.forall_mem_cons]
        rcases h with ⟨hquiet, rfl⟩ | ⟨hnot, data, rfl⟩
        · have hitem : taskFrames (payloadChunks chunkMaxSize) current false =
              itemFrames (payloadChunks chunkMaxSize) current.item := List.append_nil _
          rw [hitem]
          refine ⟨⟨_, _, rfl⟩, ?_⟩
          rcases hrest with ⟨hall, rfl⟩ | ⟨hsome, hbroken⟩
          · exact .inl ⟨⟨hquiet, hall⟩, rfl⟩
          · exact .inr ⟨fun hall => hsome hall.2, hbroken.later current.item⟩
        · refine ⟨⟨_, _, rfl⟩, .inr ⟨fun hall => hnot hall.1, ?_⟩⟩
          -- the break is here, whatever the later tasks come to
          exact .here current.item.header data (.inr ⟨header, tail, hheader⟩)

/-- The stream is produced whatever the checks find.  It is read back to the tasks if no check
finds a request for cancellation; if one does, it is not the stream of any tasks. -/
theorem toRequestStream_read_iff (taskRequests : List TaskRequest) (sessionId : String)
    (taskOptions : Option TaskOptions) {chunkMaxSize : ℕ} (hsize : 1 ≤ chunkMaxSize)
    (isCancellationRequested : ℕ → ℕ → Bool) :
    ∃ stream, Loop.Returns
        (toRequestStream taskRequests sessionId taskOptions chunkMaxSize isCancellationRequested)
        stream ∧
      (AllQuiet isCancellationRequested chunkMaxSize taskRequests.zipIdx →
        readStream 1 (stream.map CreateLargeTaskRequest.type) =
          some (⟨sessionId, taskOptions⟩, taskRequests)) ∧
      (¬AllQuiet isCancellationRequested chunkMaxSize taskRequests.zipIdx →
        ∀ least, readStream least (stream.map CreateLargeTaskRequest.type) = none) := by
  have hread : readStream 1 (streamOf (⟨sessionId, taskOptions⟩ : Proto.Submitter.InitRequest)
      (Framing.streamFrames (payloadChunks chunkMaxSize) (taskRequests.map TaskRequest.item))) =
        some (⟨sessionId, taskOptions⟩, taskRequests) :=
    (Proto.isTaskStream_streamOf _ (Proto.streamFrames_payloadChunks hsize taskRequests)).read
  cases taskRequests with
  -- without tasks there is no check
  | nil =>
      refine ⟨_, Loop.returns_pure _, fun _ => hread, fun hnot => ?_⟩
      exact absurd (List.forall_mem_nil _) hnot
  | cons currentRequest rest =>
      obtain ⟨frames, hreturns, -, h⟩ :=
        exists_returns_lookahead isCancellationRequested hsize 0 currentRequest rest
      have hstream : (streamOf (⟨sessionId, taskOptions⟩ : Proto.Submitter.InitRequest) frames) =
          ((⟨some (.initRequest ⟨sessionId, taskOptions⟩)⟩ : CreateLargeTaskRequest) ::
            frames.map ofFrame).map CreateLargeTaskRequest.type := by
        unfold streamOf
        rw [List.map_cons, List.map_map]
        rfl
      refine ⟨_, hreturns.bind (Loop.returns_pure _), ?_⟩
      rw [← hstream]
      rcases h with ⟨hall, rfl⟩ | ⟨hnot, hbroken⟩
      · exact ⟨fun _ => hread, fun hnot => absurd hall hnot⟩
      · exact ⟨fun hall => absurd hall hnot, fun _ least => hbroken.readStream_eq_none least _⟩

/-- Cancellation is requested while the payload of the first of two tasks is sent. -/
theorem toRequestStream_read_iff_cancelled :
    ∃ stream, Loop.Returns
        (toRequestStream [⟨["a"], [], [1, 2]⟩, ⟨["b"], [], [3]⟩] "session" none 1
          fun i n => 1 ≤ i ∨ 2 ≤ n) stream ∧
      ∀ least, readStream least (stream.map CreateLargeTaskRequest.type) = none := by
  obtain ⟨stream, hreturns, -, hnone⟩ := toRequestStream_read_iff
    [⟨["a"], [], [1, 2]⟩, ⟨["b"], [], [3]⟩] "session" none (Nat.le_refl 1)
    fun i n => 1 ≤ i ∨ 2 ≤ n
  refine ⟨stream, hreturns, hnone fun hall => ?_⟩
  have hsecond := hall (⟨["b"], [], [3]⟩, 1) (by decide) 0 (Nat.zero_le _)
  exact absurd hsecond (by decide)

end SubmitterClientExt

end ArmoniKApi.CSharp
