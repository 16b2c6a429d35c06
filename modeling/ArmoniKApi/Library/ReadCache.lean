import Mathlib.Data.List.Nodup
import Mathlib.Logic.Function.Basic

/-!
# Files that are read once

A cache holds what was read of some files, and a log of the reads.  A file is read when it is
asked for and not held.

What is held is then what the files hold, and no file is read twice.  This is not a property
of the state alone but of how it came about, so it is an invariant (`ReadCache.Sound`):

```text
correct    what is held under a name is what the file with the name holds
nodup      no name was read twice
loaded     something is held under every name that was read
```

The third field is there for the second: a name that was read before is held, and is
not read again.

* `Sound.empty`, `Sound.load`, `Sound.loadAll`: the cache is sound at first, and remains so.
* `Sound.load_fst`, `Sound.exists_loadAll_eq`: loading from a sound cache gives what the files
  hold, whatever was read before.
-/

/-- What was read, and the names in the order in which they were read. -/
structure ReadCache (K V : Type*) where
  data : K → Option V
  reads : List K

namespace ReadCache

variable {K V : Type*}

/-- Nothing has been read. -/
def empty : ReadCache K V where
  data := fun _ => none
  reads := []

variable [DecidableEq K]

/-- Keeps what was read of a file, and logs that it was read. -/
def add (cache : ReadCache K V) (key : K) (value : V) : ReadCache K V where
  data := Function.update cache.data key (some value)
  reads := cache.reads ++ [key]

theorem data_add_self (cache : ReadCache K V) (key : K) (value : V) :
    (cache.add key value).data key = some value :=
  Function.update_self ..

theorem data_add_of_ne (cache : ReadCache K V) {key other : K} (value : V) (hne : other ≠ key) :
    (cache.add key value).data other = cache.data other :=
  Function.update_of_ne hne ..

variable (files : K → Option V)

/-- The contents of a file, read if they are not held. -/
def load (cache : ReadCache K V) (key : K) : Option V × ReadCache K V :=
  match cache.data key with
  | some value => (some value, cache)
  | none =>
      match files key with
      | some value => (some value, cache.add key value)
      | none => (none, cache)

/-- The contents of some files one after the other, up to one that is missing. -/
def loadAll (cache : ReadCache K V) : List K → Option (List (K × V)) × ReadCache K V
  | [] => (some [], cache)
  | key :: rest =>
      match cache.load files key with
      | (none, cache) => (none, cache)
      | (some value, cache) =>
          match cache.loadAll rest with
          | (none, cache) => (none, cache)
          | (some items, cache) => (some ((key, value) :: items), cache)

omit [DecidableEq K] in
/-- What is held is what the files hold, and was read once. -/
structure Sound (cache : ReadCache K V) : Prop where
  correct : ∀ key value, cache.data key = some value → files key = some value
  nodup : cache.reads.Nodup
  loaded : ∀ key ∈ cache.reads, cache.data key ≠ none

variable {files}

namespace Sound

omit [DecidableEq K] in
theorem empty : (empty : ReadCache K V).Sound files where
  correct := nofun
  nodup := List.nodup_nil
  loaded := nofun

variable {cache : ReadCache K V}

/-- A file that is not held can be read. -/
theorem add (h : cache.Sound files) {key : K} {value : V} (hnew : cache.data key = none)
    (hfile : files key = some value) : (cache.add key value).Sound files where
  correct := by
    intro other found hfound
    by_cases hkey : other = key
    · rw [hkey, data_add_self] at hfound
      rw [hkey, hfile, hfound]
    · rw [data_add_of_ne cache value hkey] at hfound
      exact h.correct other found hfound
  nodup := by
    refine List.nodup_append.mpr ⟨h.nodup, List.nodup_singleton key, ?_⟩
    -- a key that was read before would be held
    rintro read hread _ hkey rfl
    rw [List.mem_singleton.mp hkey] at hread
    exact h.loaded key hread hnew
  loaded := by
    intro other hother
    by_cases hkey : other = key
    · rw [hkey, data_add_self]
      exact Option.some_ne_none value
    · rw [data_add_of_ne cache value hkey]
      rcases List.mem_append.mp hother with hread | hnow
      · exact h.loaded other hread
      · exact absurd (List.mem_singleton.mp hnow) hkey

theorem load (h : cache.Sound files) (key : K) : (cache.load files key).2.Sound files := by
  unfold ReadCache.load
  cases hdata : cache.data key with
  | some value => exact h
  | none =>
      cases hfile : files key with
      | some value => exact h.add hdata hfile
      | none => exact h

/-- What is loaded is what the file holds. -/
theorem load_fst (h : cache.Sound files) (key : K) : (cache.load files key).1 = files key := by
  unfold ReadCache.load
  cases hdata : cache.data key with
  | some value => exact (h.correct key value hdata).symm
  | none => cases files key <;> rfl

theorem loadAll (h : cache.Sound files) (keys : List K) :
    (cache.loadAll files keys).2.Sound files := by
  induction keys generalizing cache with
  | nil => exact h
  | cons key rest ih =>
      have hnext := h.load key
      rw [ReadCache.loadAll]
      cases hload : cache.load files key with
      | mk value next =>
          rw [hload] at hnext
          cases value with
          | none => exact hnext
          | some value =>
              have hrest := ih hnext
              cases hloads : next.loadAll files rest with
              | mk items last =>
                  rw [hloads] at hrest
                  simp only [hloads]
                  cases items with
                  | none => exact hrest
                  | some items => exact hrest

/-- The items are those of the files, with the names that were asked for. -/
theorem exists_loadAll_eq (h : cache.Sound files) {keys : List K}
    (hfiles : ∀ key ∈ keys, files key ≠ none) :
    ∃ items, (cache.loadAll files keys).1 = some items ∧ items.map Prod.fst = keys ∧
      ∀ item ∈ items, files item.1 = some item.2 := by
  induction keys generalizing cache with
  | nil => exact ⟨[], rfl, rfl, List.forall_mem_nil _⟩
  -- what is loaded of `key` is what the file holds, read now or before
  | cons key rest ih =>
      obtain ⟨hkey, hrest⟩ := List.forall_mem_cons.mp hfiles
      obtain ⟨value, hvalue⟩ := Option.ne_none_iff_exists'.mp hkey
      obtain ⟨items, hitems, hkeys, hright⟩ := ih (h.load key) hrest
      have hload : cache.load files key = (some value, (cache.load files key).2) :=
        Prod.ext ((h.load_fst key).trans hvalue) rfl
      refine ⟨(key, value) :: items, ?_, ?_, List.forall_mem_cons.mpr ⟨hvalue, hright⟩⟩
      · rw [ReadCache.loadAll, hload]
        cases hloads : (cache.load files key).2.loadAll files rest with
        | mk found last =>
            rw [hloads] at hitems
            obtain rfl : found = some items := hitems
            simp only [hloads]
      · rw [List.map_cons, hkeys]

end Sound

end ReadCache
