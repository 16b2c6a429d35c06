import ArmoniKApi.Library.KeyedMap
import Mathlib.Data.List.DropRight

/-!
# What was written last

A cell that some events write holds what the last of them wrote, or what it held
at the start (`latest_concat`).  A map is a cell for each key (`valueAt_concat`), and a count goes
back to zero when it is cleared (`tally_concat`).  An event of a kind cuts the history in one way
only, when it is known how many of its kind come before it (`split_unique`).

A machine keeps what it needs in variables, and a statement about a whole run should not have
to mention them.  The functions of this file compute such a variable from the events alone:

```text
a variable that is assigned       latest      the last event that writes it
a count that is reset             tally       the events after the last reset
a map whose entries come and go   valueAt     the last event that is about the key
```

Each has one lemma about a history with one event more, which is what a step lemma over the
machine asks for: `latest_concat`, `tally_concat`, `valueAt_concat`.  `Follows.lookup` is the
same from the side of the machine: a map that changes as the events say holds `valueAt`.

`split_unique` serves histories in which an event is named by its number, as the second
logger that was made or the third request: a list can be cut before an event of a kind in one
way only, once it is said how many of the kind come before.  The induction is on the first
part, and the two parts must run out together because the counts agree.
-/

namespace History

variable {E V : Type}

/-- What the last of the events that write has written. -/
def latest (write : E → Option V) (start : V) (events : List E) : V :=
  ((events.filterMap write).getLast?).getD start

@[simp] theorem latest_nil (write : E → Option V) (start : V) : latest write start [] = start := rfl

theorem latest_append (write : E → Option V) (start : V) (first second : List E) :
    latest write start (first ++ second) = latest write (latest write start first) second := by
  unfold latest
  rw [List.filterMap_append, List.getLast?_append]
  cases (second.filterMap write).getLast? with
  | none => rfl
  | some value => rfl

/-- An event writes, or leaves what is there. -/
theorem latest_concat (write : E → Option V) (start : V) (events : List E) (e : E) :
    latest write start (events ++ [e]) = (write e).getD (latest write start events) := by
  rw [latest_append]
  unfold latest
  cases hwrite : write e with
  | none => simp [hwrite]
  | some value => simp [hwrite]

/-- The events before the one of a kind that comes after so many of its kind, and those after
it, are known. -/
theorem split_unique {isKind : E → Bool} {first second other rest : List E} {e found : E}
    (hkind : isKind e) (hfound : isKind found)
    (hsame : first ++ e :: second = other ++ found :: rest)
    (hcount : first.countP isKind = other.countP isKind) :
    first = other ∧ e = found ∧ second = rest := by
  induction first generalizing other with
  | nil =>
      -- the events of the kind are counted, so neither part can end before the other
      cases other with
      | nil =>
          obtain ⟨rfl, rfl⟩ := List.cons.inj hsame
          exact ⟨rfl, rfl, rfl⟩
      | cons head tail =>
          obtain ⟨rfl, -⟩ := List.cons.inj hsame
          rw [List.countP_cons_of_pos hkind] at hcount
          cases hcount
  | cons head tail ih =>
      cases other with
      | nil =>
          obtain ⟨rfl, -⟩ := List.cons.inj hsame
          rw [List.countP_cons_of_pos hfound] at hcount
          cases hcount
      | cons otherHead otherTail =>
          obtain ⟨rfl, htail⟩ := List.cons.inj hsame
          rw [List.countP_cons, List.countP_cons, Nat.add_right_cancel_iff] at hcount
          obtain ⟨rfl, rfl, rfl⟩ := ih htail hcount
          exact ⟨rfl, rfl, rfl⟩

/-! ## Counts -/

section Counts

variable {adds clears : E → Bool}

/-- How many events of a kind there are after the last one that clears the count. -/
def tally (adds clears : E → Bool) (events : List E) : ℕ :=
  (events.rtakeWhile fun e => !clears e).countP adds

theorem tally_concat (adds clears : E → Bool) (events : List E) (e : E) :
    tally adds clears (events ++ [e]) =
      if clears e then 0 else tally adds clears events + if adds e then 1 else 0 := by
  unfold tally
  cases hclears : clears e with
  | true =>
      rw [List.rtakeWhile_concat_neg _ _ _ (by simp [hclears]), List.countP_nil, if_pos rfl]
  | false =>
      rw [List.rtakeWhile_concat_pos _ _ _ (by simp [hclears]), List.countP_append,
        List.countP_singleton, if_neg Bool.false_ne_true]

/-- What is added when nothing is cleared. -/
theorem tally_append {second : List E} (hsecond : ∀ e ∈ second, clears e = false)
    (first : List E) :
    tally adds clears (first ++ second) = tally adds clears first + second.countP adds := by
  induction second using List.reverseRecOn with
  | nil => simp
  | append_singleton second e ih =>
      obtain ⟨hrest, he⟩ := List.forall_mem_append.mp hsecond
      rw [← List.append_assoc, tally_concat, ih hrest, he e (List.mem_singleton_self e),
        if_neg Bool.false_ne_true, List.countP_append, List.countP_singleton, Nat.add_assoc]

/-- Nothing counts that comes before the count is cleared. -/
theorem tally_append_cons_le {e : E} (he : clears e = true) (first second : List E) :
    tally adds clears (first ++ e :: second) ≤ second.countP adds := by
  induction second using List.reverseRecOn with
  | nil =>
      rw [tally_concat, if_pos he]
      exact Nat.zero_le _
  | append_singleton second last ih =>
      rw [← List.cons_append, ← List.append_assoc, tally_concat, List.countP_append,
        List.countP_singleton]
      split
      · exact Nat.zero_le _
      · exact Nat.add_le_add_right ih _

end Counts

/-! ## Maps -/

section Maps

variable {K : Type} [DecidableEq K]

/-- A change of a map: a key gets a value, or loses its own. -/
inductive Change (K V : Type)
  | add (key : K) (value : V)
  | remove (key : K)

/-- What the change writes under a key. -/
def Change.at : Change K V → K → Option (Option V)
  | .add key value, other => if other = key then some (some value) else none
  | .remove key, other => if other = key then some none else none

/-- The map after the change. -/
def Change.apply : Change K V → KeyedMap K V → KeyedMap K V
  | .add key value, map => map.insert key value
  | .remove key, map => map.erase key

theorem Change.lookup_apply (change : Change K V) (map : KeyedMap K V) (key : K) :
    (change.apply map).lookup key = (change.at key).getD (map.lookup key) := by
  cases change with
  | add added value =>
      rw [Change.apply, Change.at]
      split
      · rename_i hkey
        rw [hkey, Finmap.lookup_insert]
        rfl
      · rename_i hkey
        rw [Finmap.lookup_insert_of_ne map hkey]
        rfl
  | remove removed =>
      rw [Change.apply, Change.at]
      split
      · rename_i hkey
        rw [hkey, Finmap.lookup_erase]
        rfl
      · rename_i hkey
        rw [Finmap.lookup_erase_ne hkey]
        rfl

/-- The value that a key has after changes, from what it had before. -/
def valueAt (change : E → Option (Change K V)) (start : K → Option V) (events : List E) (key : K) :
    Option V :=
  latest (fun e => (change e).bind fun made => made.at key) (start key) events

theorem valueAt_concat (change : E → Option (Change K V)) (start : K → Option V) (events : List E)
    (e : E) (key : K) :
    valueAt change start (events ++ [e]) key =
      ((change e).bind fun made => made.at key).getD (valueAt change start events key) :=
  latest_concat _ _ events e

/-- A step changes a map as its event says, or leaves it. -/
def Follows (map next : KeyedMap K V) : Option (Change K V) → Prop
  | none => next = map
  | some change => next = change.apply map

theorem Follows.lookup {map next : KeyedMap K V} {change : Option (Change K V)}
    (h : Follows map next change) (key : K) :
    next.lookup key = (change.bind fun made => made.at key).getD (map.lookup key) := by
  cases change with
  | none => exact congrArg (Finmap.lookup key) h
  | some change => exact (congrArg (Finmap.lookup key) h).trans (change.lookup_apply map key)

end Maps

end History
