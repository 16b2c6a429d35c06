import Mathlib.Data.List.Basic

/-!
# Reading a growing collection page by page

A server hands out a collection in pages of a fixed size.  Between two requests
the collection may grow at its end, and the total that comes with a page may be
counted later than the page was cut.

`Reading k p items raw` is the invariant of a reader that goes through the pages
in order and asks again for the page it has only a part of: what it has is a
prefix of the collection that ends inside page `p`.  Appending the new part of
page `p` keeps it, with `p + 1` after a full page and with `p` after a short one.

The collection is never frozen: each request sees a snapshot of its own, and `Grows` only says
that the snapshots are prefixes of each other.  The reader has two numbers to go by, its page
and how much it has of it, and the obstacle is that a page it has only a part of must be asked
for again and must not be appended again as a whole.

```text
page received         appended                     next page
longer than before    what is new of it            the next one, if it is full
as long as before     nothing                      the same
```

* `Reading.append_page` is the heart: what the reader has, with the rest of its page, are the
  items up to the end of the page.
* `Reading.after_full` and `Reading.after_short` are the two ways to go on, and keep the
  invariant.
* `Reading.grow` keeps it while the collection grows.
* `Reading.not_nodup_append_page` is the mistake that the invariant excludes: appending a page
  of which a part is there already gives its first element twice.
-/

namespace Paging

variable {α : Type*}

/-! ## Pages -/

/-- Page `p` of `items`, at `k` items a page. -/
def page (k p : ℕ) (items : List α) : List α :=
  (items.drop (p * k)).take k

theorem length_page (k p : ℕ) (items : List α) :
    (page k p items).length = min k (items.length - p * k) := by
  simp only [page, List.length_take, List.length_drop]

/-! ## Snapshots -/

/-- The collection when a page is cut, and the total that is reported with it.
The total fits in a signed number of 32 bits. -/
structure Snapshot (α : Type*) where
  items : List α
  total : Int
  counted : (items.length : Int) ≤ total
  fits : total ≤ 2147483647

namespace Snapshot

/-- The collection before anything is in it. -/
def empty : Snapshot α := ⟨[], 0, Int.le_refl 0, by decide⟩

theorem length_le (snapshot : Snapshot α) : snapshot.items.length ≤ 2147483647 := by
  have hcounted := snapshot.counted
  have hfits := snapshot.fits
  omega

end Snapshot

/-- A request fails with a message, or is answered from a snapshot. -/
abbrev Answer (α : Type*) := Except String (Snapshot α)

/-- `R` holds between each snapshot and the next one, from `seen` on. -/
def Follows (R : Snapshot α → Snapshot α → Prop) : Snapshot α → List (Answer α) → Prop
  | _, [] => True
  | seen, .error _ :: rest => Follows R seen rest
  | seen, .ok snapshot :: rest => R seen snapshot ∧ Follows R snapshot rest

/-- The collection only grows, and only at its end. -/
abbrev Grows : Snapshot α → List (Answer α) → Prop :=
  Follows fun earlier later => earlier.items <+: later.items

/-- A total is the size of the collection at some moment before the next page
is cut. -/
abbrev Counts : Snapshot α → List (Answer α) → Prop :=
  Follows fun earlier later => earlier.total ≤ later.items.length

/-- The last snapshot of a run, or `seen` if there is none. -/
def latest : Snapshot α → List (Answer α) → Snapshot α
  | seen, [] => seen
  | seen, .error _ :: rest => latest seen rest
  | _, .ok snapshot :: rest => latest snapshot rest

theorem latest_concat_ok (seen snapshot : Snapshot α) (before : List (Answer α)) :
    latest seen (before ++ [.ok snapshot]) = snapshot := by
  induction before generalizing seen with
  | nil => rfl
  | cons answer rest ih =>
      cases answer with
      | error message => exact ih seen
      | ok first => exact ih first

theorem follows_append {R : Snapshot α → Snapshot α → Prop} (seen : Snapshot α)
    (before after : List (Answer α)) :
    Follows R seen (before ++ after) ↔
      Follows R seen before ∧ Follows R (latest seen before) after := by
  induction before generalizing seen with
  | nil => exact (true_and _).symm.to_iff
  | cons answer rest ih =>
      cases answer with
      | error message => exact ih seen
      | ok first =>
          simp only [List.cons_append, Follows, latest, ih, and_assoc]

theorem latest_append (seen : Snapshot α) (before after : List (Answer α)) :
    latest seen (before ++ after) = latest (latest seen before) after := by
  induction before generalizing seen with
  | nil => rfl
  | cons answer rest ih =>
      cases answer with
      | error message => exact ih seen
      | ok first => exact ih first

theorem Grows.prefix_latest {seen : Snapshot α} {server : List (Answer α)}
    (hgrows : Grows seen server) : seen.items <+: (latest seen server).items := by
  induction server generalizing seen with
  | nil => exact List.prefix_refl _
  | cons answer rest ih =>
      cases answer with
      | error message => exact ih hgrows
      | ok first => exact hgrows.1.trans (ih hgrows.2)

/-! ## The reader -/

/-- What a reader that is at page `p` has read: a prefix of the items, with all pages before
that one and none behind it. -/
structure Reading (k p : ℕ) (items raw : List α) : Prop where
  isPrefix : raw <+: items
  lower : p * k ≤ raw.length
  upper : raw.length < p * k + k

namespace Reading

variable {k p : ℕ} {items later raw : List α}

theorem start (hk : 0 < k) : Reading k 0 ([] : List α) [] where
  isPrefix := List.prefix_refl []
  lower := by simp
  upper := by simpa using hk

theorem grow (h : Reading k p items raw) (hgrow : items <+: later) : Reading k p later raw :=
  { h with isPrefix := h.isPrefix.trans hgrow }

/-- The part of page `p` that the reader has is a part of the page. -/
theorem offset_le (h : Reading k p items raw) :
    raw.length - p * k ≤ (page k p items).length := by
  have hlength := h.isPrefix.length_le
  have hupper := h.upper
  rw [length_page]
  omega

/-- With the rest of page `p` the reader has all up to the end of the page. -/
theorem append_page (h : Reading k p items raw) :
    raw ++ (page k p items).drop (raw.length - p * k) = items.take (p * k + k) := by
  have hlower := h.lower
  have hupper := h.upper
  have hraw : raw = items.take raw.length := List.prefix_iff_eq_take.mp h.isPrefix
  have hrest : (page k p items).drop (raw.length - p * k) =
      (items.drop raw.length).take (p * k + k - raw.length) := by
    have hdrop : p * k + (raw.length - p * k) = raw.length := by omega
    have htake : k - (raw.length - p * k) = p * k + k - raw.length := by omega
    -- dropping from the page is dropping from the collection
    rw [page, List.drop_take, List.drop_drop, hdrop, htake]
  have hend : raw.length + (p * k + k - raw.length) = p * k + k := by omega
  calc raw ++ (page k p items).drop (raw.length - p * k)
      = items.take raw.length ++ (items.drop raw.length).take (p * k + k - raw.length) := by
        rw [hrest, ← hraw]
    _ = items.take (raw.length + (p * k + k - raw.length)) := List.take_add.symm
    _ = items.take (p * k + k) := by rw [hend]

/-- A reader that stands at the start of page `p` appends the whole page. -/
theorem append_whole_page (h : Reading k p items raw) (hstart : raw.length = p * k) :
    raw ++ page k p items = items.take (p * k + k) := by
  have happend := h.append_page
  rwa [hstart, Nat.sub_self, List.drop_zero] at happend

/-- A reader that has a part of page `p` and appends the whole page has its first
element twice. -/
theorem not_nodup_append_page (h : Reading k p items raw) (hpart : p * k < raw.length) :
    ¬(raw ++ page k p items).Nodup := by
  intro hnodup
  have hupper := h.upper
  have hitem : items[p * k]? = some raw[p * k] :=
    List.prefix_iff_getElem?.mp h.isPrefix (p * k) hpart
  have hfirst : (page k p items)[0]? = items[p * k]? := by
    rw [page, List.getElem?_take_of_lt (by omega), List.getElem?_drop, Nat.add_zero]
  have hagain : raw[p * k] ∈ page k p items := List.mem_of_getElem? (hfirst.trans hitem)
  exact (List.nodup_append.mp hnodup).2.2 _ (List.getElem_mem hpart) _ hagain rfl

theorem length_le (h : Reading k p items raw) : p * k ≤ items.length :=
  Nat.le_trans h.lower h.isPrefix.length_le

/-- After a full page the reader stands at the start of the next one. -/
theorem after_full (h : Reading k p items raw) (hfull : k ≤ (page k p items).length) :
    Reading k (p + 1) items (items.take (p * k + k)) := by
  have hk : 0 < k := by
    have hlower := h.lower
    have hupper := h.upper
    omega
  have hlength : (items.take (p * k + k)).length = p * k + k := by
    rw [length_page] at hfull
    rw [List.length_take]
    have := h.length_le
    omega
  refine ⟨List.take_prefix _ _, ?_, ?_⟩ <;> rw [hlength, Nat.add_mul] <;> omega

/-- A short page is the end of the collection. -/
theorem take_of_short (h : Reading k p items raw) (hshort : (page k p items).length < k) :
    items.take (p * k + k) = items := by
  rw [length_page] at hshort
  apply List.take_of_length_le
  have := h.length_le
  omega

/-- After a short page the reader has the whole collection, and asks for the
same page again. -/
theorem after_short (h : Reading k p items raw) (hshort : (page k p items).length < k) :
    Reading k p items items := by
  refine ⟨List.prefix_refl items, h.length_le, ?_⟩
  rw [length_page] at hshort
  have := h.length_le
  omega

end Reading

end Paging
