import ArmoniKApi.Library.Machine
import Mathlib.Algebra.Ring.Nat

/-!
# Items sent over one stream

Items, each with a header and data, are sent one after the other: the header of
an item, its data in chunks, and a frame that says that the item is complete.
After the last item a frame says that no more follow; nothing is sent for no
items at all.

`StreamFrames` is the grammar of such streams, with a least number of chunks for
each item and a greatest length of a chunk.  `streamFrames` writes a stream,
given a way to cut data into chunks, and `read` reads one.  Reading is total:
it refuses what does not follow the grammar.

The header, the least number of chunks and the longest chunk are parameters, because the
protocols differ in them: one sends an empty chunk for empty data, the other sends none.

* `streamFrames_grammar` says that what is written follows the grammar, given that the chunks
  of each item are its data and are neither too many nor too long.
* `StreamFrames.exists_last` says that there is one frame `last`, and that it stands at the end.
* `run_data`, `run_itemFrames` and `run_streamFrames` follow the reader through the data, an
  item and a list of items; `read_streamFrames` is the round trip.
* `flatten_zipIdx_eq_streamFrames` is for writers that find the end by comparing an index with
  the last one, and `streamFrames_congr` for comparing two writers that cut alike.

The reader is a guarded machine, so that its refusals are part of it, and the induction is on
the frames through `run_append`.
-/

namespace Framing

variable {H α : Type*}

/-- A header with the data that belong to it. -/
structure Item (H α : Type*) where
  header : H
  data : List α

/-- A part of a stream of items: a header, a chunk of data, the end of the data, or the end
of the stream. -/
inductive Frame (H α : Type*)
  | header (header : H)
  | data (chunk : List α)
  | complete
  | last

/-! ## The grammar -/

/-- The frames of one item. -/
inductive ItemFrames (least size : ℕ) : Item H α → List (Frame H α) → Prop
  | mk (header : H) (chunks : List (List α)) (hleast : least ≤ chunks.length)
      (hsize : ∀ chunk ∈ chunks, chunk.length ≤ size) :
      ItemFrames least size ⟨header, chunks.flatten⟩
        (.header header :: (chunks.map .data ++ [.complete]))

/-- The frames of a list of items. -/
inductive StreamFrames (least size : ℕ) : List (Item H α) → List (Frame H α) → Prop
  | nil : StreamFrames least size [] []
  | last {item : Item H α} {frames : List (Frame H α)} (hitem : ItemFrames least size item frames) :
      StreamFrames least size [item] (frames ++ [.last])
  | cons {item next : Item H α} {rest : List (Item H α)} {frames others : List (Frame H α)}
      (hitem : ItemFrames least size item frames)
      (hrest : StreamFrames least size (next :: rest) others) :
      StreamFrames least size (item :: next :: rest) (frames ++ others)

theorem ItemFrames.last_not_mem {least size : ℕ} {item : Item H α} {frames : List (Frame H α)}
    (hitem : ItemFrames least size item frames) : Frame.last ∉ frames := by
  cases hitem with
  | mk header chunks hleast hsize => simp

/-- There is one frame `last`, at the end. -/
theorem StreamFrames.exists_last {least size : ℕ} {items : List (Item H α)}
    {frames : List (Frame H α)} (hstream : StreamFrames least size items frames)
    (hitems : items ≠ []) : ∃ front, frames = front ++ [.last] ∧ Frame.last ∉ front := by
  induction hstream with
  | nil => exact absurd rfl hitems
  | last hitem => exact ⟨_, rfl, hitem.last_not_mem⟩
  | cons hitem hrest ih =>
      obtain ⟨front, rfl, hfront⟩ := ih (List.cons_ne_nil _ _)
      refine ⟨_ ++ front, (List.append_assoc ..).symm, ?_⟩
      rw [List.mem_append, not_or]
      exact ⟨hitem.last_not_mem, hfront⟩

/-! ## Writing -/

variable (cut : List α → List (List α))

/-- The frames of an item, whose data are cut into chunks. -/
def itemFrames (item : Item H α) : List (Frame H α) :=
  .header item.header :: ((cut item.data).map .data ++ [.complete])

/-- The frames of items one after the other, with the mark behind the last one.  No items
have no frames, so the mark always stands behind an item. -/
def streamFrames : List (Item H α) → List (Frame H α)
  | [] => []
  | [item] => itemFrames cut item ++ [.last]
  | item :: next :: rest => itemFrames cut item ++ streamFrames (next :: rest)

/-- What is written follows the grammar. -/
theorem streamFrames_grammar {least size : ℕ} (hflatten : ∀ data, (cut data).flatten = data)
    (hleast : ∀ data, least ≤ (cut data).length)
    (hsize : ∀ data, ∀ chunk ∈ cut data, chunk.length ≤ size) (items : List (Item H α)) :
    StreamFrames least size items (streamFrames cut items) := by
  have hitem : ∀ item : Item H α, ItemFrames least size item (itemFrames cut item) := by
    intro item
    have hframes : ItemFrames least size ⟨item.header, (cut item.data).flatten⟩
        (itemFrames cut item) := .mk item.header (cut item.data) (hleast _) (hsize _)
    rwa [hflatten] at hframes
  fun_induction streamFrames cut items with
  | case1 => exact .nil
  | case2 item => exact .last (hitem item)
  | case3 item next rest ih => exact .cons (hitem item) ih

/-- Two ways to cut that agree on the items. -/
theorem streamFrames_congr {cut other : List α → List (List α)} {items : List (Item H α)}
    (hcut : ∀ item ∈ items, cut item.data = other item.data) :
    streamFrames cut items = streamFrames other items := by
  have hitem : ∀ item ∈ items, itemFrames cut item = itemFrames other item := by
    intro item hmem
    rw [itemFrames, hcut item hmem, itemFrames]
  fun_induction streamFrames cut items with
  | case1 => rfl
  | case2 item => rw [streamFrames, hitem item (List.mem_cons_self ..)]
  | case3 item next rest ih =>
      rw [streamFrames, hitem item (List.mem_cons_self ..),
        ih (fun item hmem => hcut item (List.mem_cons_of_mem _ hmem))
          fun item hmem => hitem item (List.mem_cons_of_mem _ hmem)]

/-- The number of frames: the chunks, two frames more for an item, and the last
one. -/
theorem length_streamFrames (items : List (Item H α)) :
    (streamFrames cut items).length =
      (items.map fun item => (cut item.data).length + 2).sum + if items = [] then 0 else 1 := by
  fun_induction streamFrames cut items with
  | case1 => rfl
  | case2 item => simp [itemFrames]
  | case3 item next rest ih =>
      rw [List.length_append, ih, itemFrames]
      simp
      omega

/-- A writer that compares the index of an item with the last one. -/
theorem flatten_zipIdx_eq_streamFrames (items : List (Item H α)) (k : ℕ) :
    ((items.zipIdx k).map fun entry =>
      itemFrames cut entry.1 ++
        if entry.2 = k + items.length - 1 then [.last] else []).flatten =
      streamFrames cut items := by
  fun_induction streamFrames cut items generalizing k with
  | case1 => rfl
  | case2 item => simp
  | case3 item next rest ih =>
      have hne : k ≠ k + (item :: next :: rest).length - 1 := by
        simp only [List.length_cons]
        omega
      have hlast : k + (item :: next :: rest).length - 1 = k + 1 + (next :: rest).length - 1 := by
        simp only [List.length_cons]
        omega
      rw [List.zipIdx_cons, List.map_cons, List.flatten_cons]
      dsimp only
      rw [if_neg hne, List.append_nil, hlast, ih (k + 1)]

/-! ## Reading -/

/-- Where a reader is in a stream. -/
inductive Reading (H α : Type*)
  | between (items : List (Item H α))
  | inside (items : List (Item H α)) (header : H) (chunks : List (List α))
  | ended (items : List (Item H α))

namespace Reading

variable (least : ℕ)

/-- What a reader makes of the next frame.  It refuses a frame that cannot stand there. -/
def step : Reading H α → Frame H α → Option (Reading H α)
  | between items, .header header => some (inside items header [])
  | between (item :: rest), .last => some (ended (item :: rest))
  | inside items header chunks, .data chunk => some (inside items header (chunks ++ [chunk]))
  | inside items header chunks, .complete =>
      if least ≤ chunks.length then some (between (items ++ [⟨header, chunks.flatten⟩])) else none
  | _, _ => none

/-- The items, when the stream may end here. -/
def result : Reading H α → Option (List (Item H α))
  | between [] => some []
  | ended items => some items
  | _ => none

theorem run_data (items : List (Item H α)) (header : H) (before chunks : List (List α)) :
    Machine.run (step least) (inside items header before) (chunks.map .data) =
      some (inside items header (before ++ chunks)) := by
  induction chunks generalizing before with
  | nil => rw [List.append_nil]; rfl
  | cons chunk rest ih =>
      show Machine.run (step least) (inside items header (before ++ [chunk])) (rest.map .data) = _
      rw [ih, List.append_assoc]
      rfl

variable {least} {size : ℕ}

theorem run_itemFrames {item : Item H α} {frames : List (Frame H α)}
    (hitem : ItemFrames least size item frames) (before : List (Item H α)) :
    Machine.run (step least) (between before) frames = some (between (before ++ [item])) := by
  cases hitem with
  | mk header chunks hleast hsize =>
      show Machine.run (step least) (inside before header []) (chunks.map .data ++ [.complete]) = _
      rw [Machine.run_append, run_data, List.nil_append, Option.bind_some]
      show (step least (inside before header chunks) .complete).bind some = _
      rw [step, if_pos hleast]
      rfl

/-- After the stream of some items the reader has ended, with these items. -/
theorem run_streamFrames {items : List (Item H α)} {frames : List (Frame H α)}
    (hstream : StreamFrames least size items frames) (hitems : items ≠ [])
    (before : List (Item H α)) :
    Machine.run (step least) (between before) frames = some (ended (before ++ items)) := by
  induction hstream generalizing before with
  | nil => exact absurd rfl hitems
  | @last item frames hitem =>
      rw [Machine.run_append, run_itemFrames hitem, Option.bind_some]
      cases before <;> rfl
  | @cons item next rest frames others hitem hrest ih =>
      rw [Machine.run_append, run_itemFrames hitem, Option.bind_some,
        ih (List.cons_ne_nil next rest), List.append_assoc]
      rfl

end Reading

/-- Reading a stream in which every item has at least `least` chunks. -/
def read (least : ℕ) (frames : List (Frame H α)) : Option (List (Item H α)) :=
  (Machine.run (Reading.step least) (.between []) frames).bind Reading.result

theorem read_streamFrames {least size : ℕ} {items : List (Item H α)} {frames : List (Frame H α)}
    (hstream : StreamFrames least size items frames) : read least frames = some items := by
  by_cases hitems : items = []
  · subst hitems
    cases hstream
    rfl
  · rw [read, Reading.run_streamFrames hstream hitems]
    rfl

end Framing
