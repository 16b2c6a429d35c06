import Mathlib.Data.List.Infix

/-!
# From one directory to another

A directory is the list of the names on the way to it.  The relative path from a start to it
climbs to the last directory that they have in common, and descends from there
(`take_append_descent`).  It does not descend to a directory above the start
(`descent_eq_nil_iff`).

```text
start      a b c d        climb    2   (from d and c)
target     a b x          descent  x
```

A directory may be far away from the start, above it or below it, or be the start itself; the
three functions have no cases for this.  Putting the same names in front of both directories
changes neither the climb nor the descent (`climb_append`, `descent_append`), so that the place
of a tree of files on a machine does not matter to the paths inside of the tree.
-/

namespace RelativePath

variable {α : Type*} [DecidableEq α]

/-- The length of the way that two directories have in common. -/
def commonLength : List α → List α → ℕ
  | a :: path, b :: start => if a = b then commonLength path start + 1 else 0
  | _, _ => 0

/-- The levels from the start up. -/
def climb (path start : List α) : ℕ := start.length - commonLength path start

/-- The names from there down. -/
def descent (path start : List α) : List α := path.drop (commonLength path start)

theorem commonLength_le (path start : List α) : commonLength path start ≤ start.length := by
  fun_induction commonLength path start with
  | case1 a path start ih => exact Nat.succ_le_succ ih
  | case2 a path b start hne => exact Nat.zero_le _
  | case3 path start hne => exact Nat.zero_le _

theorem climb_add_commonLength (path start : List α) :
    climb path start + commonLength path start = start.length :=
  Nat.sub_add_cancel (commonLength_le path start)

theorem take_commonLength (path start : List α) :
    start.take (commonLength path start) = path.take (commonLength path start) := by
  fun_induction commonLength path start with
  | case1 a path start ih => rw [List.take_succ_cons, List.take_succ_cons, ih]
  | case2 a path b start hne => rfl
  | case3 path start hne => rfl

theorem take_append_descent (path start : List α) :
    start.take (start.length - climb path start) ++ descent path start = path := by
  have hup : start.length - climb path start = commonLength path start := by
    have hsum := climb_add_commonLength path start
    omega
  rw [hup, take_commonLength, descent, List.take_append_drop]

/-- What both begin with does not matter. -/
theorem commonLength_append (front path start : List α) :
    commonLength (front ++ path) (front ++ start) = front.length + commonLength path start := by
  induction front with
  | nil => exact (Nat.zero_add _).symm
  | cons a front ih =>
      rw [List.cons_append, List.cons_append, commonLength, if_pos rfl, ih, List.length_cons]
      omega

theorem climb_append (front path start : List α) :
    climb (front ++ path) (front ++ start) = climb path start := by
  rw [climb, commonLength_append, List.length_append, Nat.add_sub_add_left, climb]

theorem descent_append (front path start : List α) :
    descent (front ++ path) (front ++ start) = descent path start := by
  rw [descent, commonLength_append, ← List.drop_drop, List.drop_left, descent]

theorem commonLength_of_within {path start : List α} (h : path <+: start) :
    commonLength path start = path.length := by
  fun_induction commonLength path start with
  | case1 a path start ih => rw [ih (List.cons_prefix_cons.mp h).2, List.length_cons]
  | case2 a path b start hne => exact absurd (List.cons_prefix_cons.mp h).1 hne
  | case3 path start hne =>
      cases path with
      | nil => rfl
      | cons a path =>
          cases start with
          | nil => exact absurd (List.prefix_nil.mp h) (List.cons_ne_nil a path)
          | cons b start => exact absurd rfl (hne a path b start rfl)

theorem descent_eq_nil_iff (path start : List α) : descent path start = [] ↔ path <+: start := by
  rw [descent, List.drop_eq_nil_iff]
  refine ⟨fun hlength => ?_, fun hwithin => (commonLength_of_within hwithin).ge⟩
  have htake := take_commonLength path start
  rw [List.take_of_length_le hlength] at htake
  exact htake ▸ List.take_prefix _ _

theorem climb_of_within {path start : List α} (h : path <+: start) :
    climb path start = start.length - path.length := by
  rw [climb, commonLength_of_within h]

end RelativePath
