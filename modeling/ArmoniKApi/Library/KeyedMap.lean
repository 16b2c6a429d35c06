import Mathlib.Algebra.BigOperators.Group.Finset.Basic
import Mathlib.Algebra.Ring.Int.Defs
import Mathlib.Data.Finmap

/-!
# Maps filled from a list and listed again

A map is filled from a list of pairs, a later pair of a key taking the place of
an earlier one.  It is listed in an order that the program does not choose: any
list of its pairs is an iteration of it.

Filling a map from one of its iterations gives it back (`collect_items`).  Filling
it from any list loses the pairs whose key comes again: the numbers that the map
holds fall short of those in the list by what these pairs hold
(`total_collect`).

Two things are kept apart that a program mixes: which pairs it was given, and which map they
come to.  A list of pairs may repeat a key, a map may not; a map has no order, its listing has
one.  `Iteration` is any listing of a map, so that a theorem over all iterations holds for
every order that a program may happen to use.

* `lookup_collectInto` says what one entry is: the last pair of the key, or what was there.
* `keys_collect` and `card_keys_collect` say which keys there are, and how many.
* `overwritten` are the pairs that are hidden by a later one, and `total_collect` accounts for
  them: what the map holds and what was hidden are together what was in the list.  So a sum
  is kept just if what was hidden comes to nothing.
-/

/-- A map from keys to values. -/
abbrev KeyedMap (K V : Type*) := Finmap fun _ : K => V

namespace KeyedMap

variable {K V : Type*} [DecidableEq K]

/-! ## Filling a map -/

/-- The pairs of a list, inserted one after the other. -/
def collectInto (map : KeyedMap K V) : List (K × V) → KeyedMap K V
  | [] => map
  | item :: rest => collectInto (map.insert item.1 item.2) rest

/-- The map of the pairs of a list. -/
def collect (items : List (K × V)) : KeyedMap K V := collectInto ∅ items

theorem lookup_collectInto_of_notMem {items : List (K × V)} {key : K}
    (hkey : key ∉ items.map Prod.fst) (map : KeyedMap K V) :
    (collectInto map items).lookup key = map.lookup key := by
  induction items generalizing map with
  | nil => rfl
  | cons item rest ih =>
      rw [List.map_cons, List.mem_cons, not_or] at hkey
      rw [collectInto, ih hkey.2, Finmap.lookup_insert_of_ne map hkey.1]

theorem collectInto_append (map : KeyedMap K V) (first second : List (K × V)) :
    collectInto map (first ++ second) = collectInto (collectInto map first) second := by
  induction first generalizing map with
  | nil => rfl
  | cons item rest ih => exact ih (map.insert item.1 item.2)

/-- The last pair of a key is the one that the map holds. -/
theorem lookup_collectInto_of_last {before after : List (K × V)} {key : K}
    (hkey : key ∉ after.map Prod.fst) (value : V) (map : KeyedMap K V) :
    (collectInto map (before ++ (key, value) :: after)).lookup key = some value := by
  rw [collectInto_append, collectInto, lookup_collectInto_of_notMem hkey, Finmap.lookup_insert]

/-- With distinct keys every pair of the list is in the map. -/
theorem lookup_collectInto_of_mem {items : List (K × V)} (hnodup : (items.map Prod.fst).Nodup)
    {key : K} {value : V} (hmem : (key, value) ∈ items) (map : KeyedMap K V) :
    (collectInto map items).lookup key = some value := by
  induction items generalizing map with
  | nil => cases hmem
  | cons item rest ih =>
      rw [List.map_cons, List.nodup_cons] at hnodup
      rcases List.mem_cons.mp hmem with rfl | hrest
      · rw [collectInto, lookup_collectInto_of_notMem hnodup.1, Finmap.lookup_insert]
      · exact ih hnodup.2 hrest _

/-- What the map holds was in the list, or in the map before. -/
theorem mem_of_lookup_collectInto {items : List (K × V)} {key : K} {value : V}
    {map : KeyedMap K V} (hlookup : (collectInto map items).lookup key = some value) :
    (key, value) ∈ items ∨ map.lookup key = some value := by
  induction items generalizing map with
  | nil => exact Or.inr hlookup
  | cons item rest ih =>
      rcases ih hlookup with hrest | hinsert
      · exact Or.inl (List.mem_cons_of_mem _ hrest)
      · by_cases hkey : key = item.1
        · subst hkey
          rw [Finmap.lookup_insert] at hinsert
          obtain rfl := Option.some.inj hinsert
          exact Or.inl (List.mem_cons_self ..)
        · rw [Finmap.lookup_insert_of_ne map hkey] at hinsert
          exact Or.inr hinsert

theorem lookup_collect_of_mem {items : List (K × V)} (hnodup : (items.map Prod.fst).Nodup)
    {key : K} {value : V} (hmem : (key, value) ∈ items) :
    (collect items).lookup key = some value :=
  lookup_collectInto_of_mem hnodup hmem ∅

theorem mem_of_lookup_collect {items : List (K × V)} {key : K} {value : V}
    (hlookup : (collect items).lookup key = some value) : (key, value) ∈ items := by
  rcases mem_of_lookup_collectInto hlookup with hmem | hempty
  · exact hmem
  · rw [Finmap.lookup_empty] at hempty
    cases hempty

theorem mem_keys_collectInto (items : List (K × V)) (map : KeyedMap K V) (key : K) :
    key ∈ (collectInto map items).keys ↔ key ∈ items.map Prod.fst ∨ key ∈ map.keys := by
  induction items generalizing map with
  | nil => simp [collectInto]
  | cons item rest ih =>
      rw [collectInto, ih, List.map_cons, List.mem_cons, Finmap.mem_keys, Finmap.mem_insert,
        Finmap.mem_keys]
      tauto

theorem keys_collect (items : List (K × V)) :
    (collect items).keys = (items.map Prod.fst).toFinset := by
  ext key
  rw [collect, mem_keys_collectInto, Finmap.keys_empty, List.mem_toFinset]
  simp

/-- There are as many entries as pairs when the keys are distinct. -/
theorem card_keys_collect {items : List (K × V)} (hnodup : (items.map Prod.fst).Nodup) :
    (collect items).keys.card = items.length := by
  rw [keys_collect, List.toFinset_card_of_nodup hnodup, List.length_map]

/-! ## Listing a map -/

/-- The pairs of a map, in some order. -/
structure Iteration (map : KeyedMap K V) where
  items : List (K × V)
  nodup_keys : (items.map Prod.fst).Nodup
  mem_items : ∀ key value, (key, value) ∈ items ↔ map.lookup key = some value

/-- The pairs that a map was filled from, when their keys are distinct. -/
def Iteration.ofCollect (items : List (K × V)) (hnodup : (items.map Prod.fst).Nodup) :
    Iteration (collect items) where
  items := items
  nodup_keys := hnodup
  mem_items := fun _ _ => ⟨lookup_collect_of_mem hnodup, mem_of_lookup_collect⟩

/-- A map is what it is filled to from one of its iterations. -/
theorem collect_items {map : KeyedMap K V} (iteration : Iteration map) :
    collect iteration.items = map := by
  apply Finmap.ext_lookup
  intro key
  cases hlookup : map.lookup key with
  | some value =>
      have hmem := (iteration.mem_items key value).mpr hlookup
      exact lookup_collect_of_mem iteration.nodup_keys hmem
  | none =>
      cases hcollect : (collect iteration.items).lookup key with
      | none => rfl
      | some value =>
          have hmem := mem_of_lookup_collect hcollect
          rw [(iteration.mem_items key value).mp hmem] at hlookup
          cases hlookup

/-! ## What is lost when keys meet -/

/-- The pairs whose key comes again in the list. -/
def overwritten : List (K × V) → List (K × V)
  | [] => []
  | item :: rest =>
      if item.1 ∈ rest.map Prod.fst then item :: overwritten rest else overwritten rest

/-- The sum of the values of a map. -/
def total (map : KeyedMap K Int) : Int :=
  ∑ key ∈ map.keys, (map.lookup key).getD 0

/-- What is inserted later hides what was in the map before. -/
theorem lookup_collectInto (items : List (K × V)) (map : KeyedMap K V) (key : K) :
    (collectInto map items).lookup key = ((collect items).lookup key).or (map.lookup key) := by
  by_cases hkey : key ∈ items.map Prod.fst
  · -- both maps hold the last pair of the key
    induction items generalizing map with
    | nil => cases hkey
    | cons item rest ih =>
        by_cases hrest : key ∈ rest.map Prod.fst
        · rw [collect, collectInto, collectInto, ih _ hrest, ih (Finmap.insert _ _ ∅) hrest]
          have hmem : key ∈ (collect rest).keys := by
            rw [keys_collect]
            exact List.mem_toFinset.mpr hrest
          obtain ⟨value, hvalue⟩ := Finmap.mem_iff.mp (Finmap.mem_keys.mp hmem)
          rw [hvalue]
          rfl
        · obtain rfl : key = item.1 := by
            rw [List.map_cons, List.mem_cons] at hkey
            exact hkey.resolve_right hrest
          rw [collect, collectInto, collectInto, lookup_collectInto_of_notMem hrest,
            lookup_collectInto_of_notMem hrest, Finmap.lookup_insert, Finmap.lookup_insert]
          rfl
  · rw [collect, lookup_collectInto_of_notMem hkey, lookup_collectInto_of_notMem hkey,
      Finmap.lookup_empty]
    rfl

/-- The first pair counts only when its key does not come again. -/
theorem lookup_collect_cons (item : K × V) (rest : List (K × V)) (key : K) :
    (collect (item :: rest)).lookup key =
      ((collect rest).lookup key).or (if key = item.1 then some item.2 else none) := by
  rw [collect, collectInto, lookup_collectInto]
  split
  · rename_i hkey
    rw [hkey, Finmap.lookup_insert]
  · rename_i hkey
    rw [Finmap.lookup_insert_of_ne _ hkey, Finmap.lookup_empty]

theorem total_collect_cons (item : K × Int) (rest : List (K × Int)) :
    total (collect (item :: rest)) =
      (if item.1 ∈ rest.map Prod.fst then 0 else item.2) + total (collect rest) := by
  have hkeys : (collect (item :: rest)).keys = insert item.1 (collect rest).keys := by
    rw [keys_collect, keys_collect, List.map_cons, List.toFinset_cons]
  have hmem : item.1 ∈ (collect rest).keys ↔ item.1 ∈ rest.map Prod.fst := by
    rw [keys_collect, List.mem_toFinset]
  -- the keys of `rest` lead to what they led to
  have hsame : ∀ key ∈ (collect rest).keys,
      ((collect (item :: rest)).lookup key).getD 0 = ((collect rest).lookup key).getD 0 := by
    intro key hkey
    obtain ⟨value, hvalue⟩ := Finmap.mem_iff.mp (Finmap.mem_keys.mp hkey)
    rw [lookup_collect_cons, hvalue]
    rfl
  have hrest := Finset.sum_congr rfl hsame
  unfold total
  rw [hkeys]
  split
  · rename_i hagain
    rw [Finset.insert_eq_of_mem (hmem.mpr hagain), hrest, zero_add]
  · rename_i hlast
    have hnone : (collect rest).lookup item.1 = none := by
      rw [Finmap.lookup_eq_none, ← Finmap.mem_keys, hmem]
      exact hlast
    rw [Finset.sum_insert (fun hin => hlast (hmem.mp hin)), hrest, lookup_collect_cons, hnone,
      if_pos rfl]
    rfl

/-- The map holds what the list holds, less the pairs whose key comes again. -/
theorem total_collect (items : List (K × Int)) :
    total (collect items) + ((overwritten items).map Prod.snd).sum =
      (items.map Prod.snd).sum := by
  induction items with
  | nil => rfl
  | cons item rest ih =>
      rw [total_collect_cons, overwritten, List.map_cons, List.sum_cons, ← ih]
      split
      · rw [List.map_cons, List.sum_cons]
        omega
      · omega

end KeyedMap
