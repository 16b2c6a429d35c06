import Mathlib.Logic.Function.Basic
import Mathlib.Data.List.Basic

/-!
# Files written in different modes

A folder gives the contents of its files.  What a write leaves in a file depends
on the mode in which the file is opened: the old contents go away, or the front
of them is written over, or the new contents are put after them.

A series of writes is *exact* when every file ends up with what was last written
to it, and the files that were not written to are as before.  Truncating writes
are always exact.  In the other modes all the writes up to every point are exact
just when each write fits what its file holds (`forall_exact_iff`).

An opening mode is judged by what it leaves of the old contents:

```text
truncate        the new data                             fits always
openOrCreate    the new data, then the end of the old    fits if the old are not longer
append          the old contents, then the new data      fits if there were none
```

`OpenMode.contents_eq_iff` is this table as an equivalence.  The rest is an induction over the
writes from the back: `exact_concat_iff` says when one more write keeps the folder exact, and
`forall_exact_iff` collects this over all prefixes of the series.  Only prefixes give an
equivalence: after a write that does not fit, a later one to the same file may hide it.

The names of files are any type with decidable equality.  `forall_exact_rename_iff` carries
the result over to a program that reaches the files by paths, if different names get
different paths.
-/

/-- The contents of files, by name. -/
abbrev Folder (N α : Type*) := N → Option (List α)

namespace Folder

variable {N α : Type*} [DecidableEq N]

/-! ## Modes -/

/-- What becomes of the contents of a file when it is opened for writing. -/
inductive OpenMode
  | truncate
  /-- Create the file if need be, and write from its start. -/
  | openOrCreate
  | append
  deriving DecidableEq, Repr

/-- What a file with contents `old` holds after `data` was written. -/
def OpenMode.contents : OpenMode → List α → List α → List α
  | .truncate, _, data => data
  | .openOrCreate, old, data => data ++ old.drop data.length
  | .append, old, data => old ++ data

/-- Nothing of the old contents stays. -/
def OpenMode.Fits : OpenMode → List α → List α → Prop
  | .truncate, _, _ => True
  | .openOrCreate, old, data => old.length ≤ data.length
  | .append, old, _ => old = []

theorem OpenMode.contents_eq_iff (mode : OpenMode) (old data : List α) :
    mode.contents old data = data ↔ mode.Fits old data := by
  cases mode with
  | truncate => exact ⟨fun _ => trivial, fun _ => rfl⟩
  | openOrCreate => exact List.append_right_eq_self.trans List.drop_eq_nil_iff
  | append => exact List.append_left_eq_self

/-! ## Writing -/

/-- Open a file, write `data` and close it. -/
def write (mode : OpenMode) (folder : Folder N α) (name : N) (data : List α) : Folder N α :=
  Function.update folder name (some (mode.contents ((folder name).getD []) data))

/-- A series of writes. -/
def writeAll (mode : OpenMode) : Folder N α → List (N × List α) → Folder N α
  | folder, [] => folder
  | folder, (name, data) :: rest => writeAll mode (write mode folder name data) rest

theorem writeAll_append (mode : OpenMode) (folder : Folder N α) (first second : List (N × List α)) :
    writeAll mode folder (first ++ second) = writeAll mode (writeAll mode folder first) second := by
  induction first generalizing folder with
  | nil => rfl
  | cons send rest ih => exact ih _

/-- What was last written to a file. -/
def lastWritten : List (N × List α) → N → Option (List α)
  | [], _ => none
  | (other, data) :: rest, name =>
      (lastWritten rest name).or (if other = name then some data else none)

theorem lastWritten_append (first second : List (N × List α)) (name : N) :
    lastWritten (first ++ second) name = (lastWritten second name).or (lastWritten first name) := by
  induction first with
  | nil => rw [List.nil_append, lastWritten, Option.or_none]
  | cons send rest ih => rw [List.cons_append, lastWritten, ih, lastWritten, Option.or_assoc]

theorem lastWritten_eq_none_iff {writes : List (N × List α)} {name : N} :
    lastWritten writes name = none ↔ ∀ send ∈ writes, send.1 ≠ name := by
  induction writes with
  | nil => simp [lastWritten]
  | cons send rest ih => simp [lastWritten, ih, and_comm]

/-- The same writes under other names. -/
def rename {M : Type*} (f : N → M) (writes : List (N × List α)) : List (M × List α) :=
  writes.map fun send => (f send.1, send.2)

theorem lastWritten_rename {M : Type*} [DecidableEq M] {f : N → M} (hf : Function.Injective f)
    (writes : List (N × List α)) (name : N) :
    lastWritten (rename f writes) (f name) = lastWritten writes name := by
  induction writes with
  | nil => rfl
  | cons send rest ih =>
      show (lastWritten (rename f rest) (f name)).or (if f send.1 = f name then _ else _) = _
      rw [ih, lastWritten]
      simp only [hf.eq_iff]

/-- The contents that are last written to each file, and the old contents of the
other files. -/
def expected (folder : Folder N α) (writes : List (N × List α)) : Folder N α :=
  fun name => (lastWritten writes name).or (folder name)

/-- Every file holds what was last written to it. -/
def Exact (mode : OpenMode) (folder : Folder N α) (writes : List (N × List α)) : Prop :=
  writeAll mode folder writes = expected folder writes

theorem expected_concat (folder : Folder N α) (writes : List (N × List α)) (send : N × List α) :
    expected folder (writes ++ [send]) =
      Function.update (expected folder writes) send.1 (some send.2) := by
  funext name
  rw [expected, lastWritten_append, Option.or_assoc]
  by_cases hname : name = send.1
  · subst hname
    simp [lastWritten]
  · rw [Function.update_of_ne hname, lastWritten, if_neg (Ne.symm hname)]
    rfl

/-- One more write, after writes that were exact. -/
theorem exact_concat_iff {mode : OpenMode} {folder : Folder N α} {writes : List (N × List α)}
    (hexact : Exact mode folder writes) (send : N × List α) :
    Exact mode folder (writes ++ [send]) ↔
      mode.Fits ((expected folder writes send.1).getD []) send.2 := by
  rw [Exact, writeAll_append, hexact, expected_concat, ← mode.contents_eq_iff]
  constructor
  · intro hsame
    have hfile := congrFun hsame send.1
    rw [Function.update_self] at hfile
    simpa [writeAll, write] using hfile
  · intro hcontents
    show write mode (expected folder writes) send.1 send.2 = _
    rw [write, hcontents]

/-- The writes up to every point are exact just when each write fits what its
file should hold. -/
theorem forall_exact_iff {mode : OpenMode} {folder : Folder N α} {writes : List (N × List α)} :
    (∀ n ≤ writes.length, Exact mode folder (writes.take n)) ↔
      ∀ n (hn : n < writes.length),
        mode.Fits ((expected folder (writes.take n) writes[n].1).getD []) writes[n].2 := by
  constructor
  · intro hexact n hn
    have hnext := hexact (n + 1) hn
    rw [List.take_succ_eq_append_getElem hn] at hnext
    exact (exact_concat_iff (hexact n (Nat.le_of_lt hn)) writes[n]).mp hnext
  · intro hfits n
    induction n with
    | zero => exact fun _ => rfl
    | succ n ih =>
        intro hn
        rw [List.take_succ_eq_append_getElem hn]
        exact (exact_concat_iff (ih (Nat.le_of_lt hn)) writes[n]).mpr (hfits n hn)

theorem forall_exact_rename_iff {M : Type*} (f : M → N) {mode : OpenMode} {folder : Folder N α}
    {results : List (M × List α)} :
    (∀ n ≤ results.length, Exact mode folder (rename f (results.take n))) ↔
      ∀ n (hn : n < results.length),
        mode.Fits ((expected folder (rename f (results.take n)) (f results[n].1)).getD [])
          results[n].2 := by
  have hlength : (rename f results).length = results.length := List.length_map _
  have htake (n : ℕ) : (rename f results).take n = rename f (results.take n) :=
    List.map_take.symm
  have hall : (∀ n ≤ (rename f results).length,
      Exact mode folder ((rename f results).take n)) ↔ _ := forall_exact_iff
  simp only [hlength, htake] at hall
  rw [hall]
  simp [rename]

theorem exact_truncate (folder : Folder N α) (writes : List (N × List α)) :
    Exact .truncate folder writes := by
  have hall : ∀ n ≤ writes.length, Exact .truncate folder (writes.take n) :=
    forall_exact_iff.mpr fun _ _ => trivial
  have hexact := hall writes.length (Nat.le_refl _)
  rwa [List.take_length] at hexact

end Folder
