import Mathlib.Data.List.Basic

/-!
# Values that are set in layers

A layer provides values for some keys.  When layers are put on top of each
other, the last one that provides a key decides its value (`top`).

A store that is changed by operations shows its layers when, after an operation,
it reads the value that the operation provides, and what it read before
elsewhere.  It then reads the top of the layers of all its operations
(`read_foldl`), whatever it keeps to do so.

`read_foldl` is the induction over the operations, once for all stores: one operation puts its
layer on top of the others, so the hypothesis about one operation is all that a store has to
show.  It is free to keep one map, two, or a list of names beside a map.

The second section is for operations that set several keys at once, in an order that the
program does not choose.  With distinct keys the order does not matter
(`top_single_of_mem`), and a key that is in none of the items keeps its value
(`top_single_of_notMem`).
-/

namespace Layers

variable {K V : Type*}

/-- What one layer provides. -/
abbrev Layer (K V : Type*) := K → Option V

/-- The value of the last layer that provides the key. -/
def top (layers : List (Layer K V)) (key : K) : Option V :=
  layers.reverse.findSome? fun layer => layer key

@[simp] theorem top_nil (key : K) : top ([] : List (Layer K V)) key = none := rfl

theorem top_cons (layer : Layer K V) (layers : List (Layer K V)) (key : K) :
    top (layer :: layers) key = (top layers key).or (layer key) := by
  unfold top
  rw [List.reverse_cons, List.findSome?_append, List.findSome?_cons, List.findSome?_nil]
  cases layer key <;> rfl

/-- A store that reads the layer of an operation after it, and is unchanged
where the layer provides nothing. -/
theorem read_foldl {S Op : Type*} {apply : S → Op → S} {read : S → K → V}
    {layer : Op → Layer K V}
    (hstep : ∀ s op key, read (apply s op) key = (layer op key).getD (read s key))
    (operations : List Op) (s : S) (key : K) :
    read (operations.foldl apply s) key =
      (top (operations.map layer) key).getD (read s key) := by
  induction operations generalizing s with
  | nil => rfl
  | cons op rest ih =>
      rw [List.foldl_cons, ih, hstep, List.map_cons, top_cons]
      cases top (rest.map layer) key <;> rfl

/-! ## Layers of one key -/

variable [DecidableEq K]

/-- A layer that provides one key. -/
def single (item : K × V) : Layer K V := fun key => if key = item.1 then some item.2 else none

theorem top_single_of_notMem {items : List (K × V)} {key : K} (hkey : key ∉ items.map Prod.fst) :
    top (items.map single) key = none := by
  induction items with
  | nil => rfl
  | cons item rest ih =>
      rw [List.map_cons, List.mem_cons, not_or] at hkey
      rw [List.map_cons, top_cons, ih hkey.2, single, if_neg hkey.1]
      rfl

/-- With distinct keys the order of the items does not matter. -/
theorem top_single_of_mem {items : List (K × V)} (hnodup : (items.map Prod.fst).Nodup)
    {item : K × V} (hitem : item ∈ items) : top (items.map single) item.1 = some item.2 := by
  induction items with
  | nil => cases hitem
  | cons first rest ih =>
      rw [List.map_cons, List.nodup_cons] at hnodup
      rw [List.map_cons, top_cons]
      rcases List.mem_cons.mp hitem with rfl | hrest
      · rw [top_single_of_notMem hnodup.1, single, if_pos rfl]
        rfl
      · rw [ih hnodup.2 hrest]
        rfl

end Layers
