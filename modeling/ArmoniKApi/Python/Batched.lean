import ArmoniKApi.Library.Loop
import ArmoniKApi.Python.WaitForResults

/-!
# The generator of batches

`batched` drives an iterator by hand: it asks for the next item with a sentinel, fills a
batch, and hands the batch out when it is full or when the sentinel comes.  The generator
is suspended at its two `yield`s, and goes on when its consumer asks for the next batch.

The iterable is anything with `iter` and `next`, finite or not.  Both may change the
world, so that a call more or less would be seen.

* `returns_loop`: one request makes a batch of `n` items, or finds the end.
* `consumed`: after any number of requests, the batches hold what `next` has given.
* `batched_consumes`: and when the items end, the batches are those of the list
  (`Batching.eq_batched`), and `next` is called once for each item and once for the end.

The iterator may not end, so neither the generator nor a function that returns all batches can
be the subject.  The subject is a consumer that has asked so many times, and the statement is
about what it has and in which world it is.

* `Gives` relates two worlds by the items that `next` gave between them.  Its lemmas say that
  the items of an iterator that ends are unique (`Gives.unique`), and that what was given at any
  time is the beginning of them (`Gives.prefix_of_end`).
* `Batching` is the specification, without the code: the list in batches none of which is empty
  or too long, all but the last full.  There is one such list of batches
  (`Batching.eq_batched`), so a list of batches with these properties is the right one.
* `LoopLeft` is how the loop between two `yield`s is left, and `Consumed` is the invariant
  between two requests, by the place where the generator is suspended.

`consumed_resume` is one request and `consumed` the induction over the requests.  The turns of
the loop between two requests are bounded by the size of a batch (`returns_loop`), so that the
theorem holds of an infinite iterable as well.
-/

namespace ArmoniKApi.Python

open Loop (Returns)

variable {W α : Type}

/-! ## The code -/

/-- An iterable in a world: `iter`, and `next`, which gives nothing when the items have
ended. -/
structure Iterable (W α : Type) where
  iter : W → W
  next : W → Option α × W

/-- Where the generator is: before its first statement, at the `yield` of the loop, at
the one after the loop, or at its end. -/
inductive Point
  | created
  | inLoop
  | afterLoop
  | ended
  deriving DecidableEq, Repr

/-- A generator object: where it is in the code, and the state of what it draws from. -/
structure Generator (W : Type) where
  point : Point
  world : W

/-- The variables of the loop, with nothing for the sentinel. -/
structure Locals (W α : Type) where
  batch : List α
  c : Option α
  world : W

/-- `c = next(it, sentinel)`. -/
def Iterable.draw (iterable : Iterable W α) (batch : List α) (world : W) : Locals W α :=
  ⟨batch, (iterable.next world).1, (iterable.next world).2⟩

/-- A turn of the loop, up to a `yield`.  A batch that is handed out is the consumer's: the
next turn begins with a new list. -/
def loopTurn (iterable : Iterable W α) (n : ℕ) (s : Locals W α) :
    Loop.Turn (Locals W α) (Option (List α) × Generator W) :=
  match s.c with
  | none =>
      .leave (if 0 < s.batch.length then (some s.batch, ⟨.afterLoop, s.world⟩)
        else (none, ⟨.ended, s.world⟩))
  | some c =>
      if (s.batch ++ [c]).length = n then .leave (some (s.batch ++ [c]), ⟨.inLoop, s.world⟩)
      else .again (iterable.draw (s.batch ++ [c]) s.world)

/-- What the generator does when its consumer asks for a batch. -/
def Generator.resume (iterable : Iterable W α) (n : ℕ) (g : Generator W) (turns : ℕ) :
    Option (Option (List α) × Generator W) :=
  match g.point with
  | .created => Loop.run (loopTurn iterable n) turns (iterable.draw [] (iterable.iter g.world))
  | .inLoop => Loop.run (loopTurn iterable n) turns (iterable.draw [] g.world)
  | .afterLoop => some (none, ⟨.ended, g.world⟩)
  | .ended => some (none, g)

/-- The batches that a consumer gets when it asks so many times. -/
def consume (iterable : Iterable W α) (n : ℕ) (w : W) (turns : ℕ) :
    ℕ → Option (List (List α) × Generator W)
  | 0 => some ([], ⟨.created, w⟩)
  | asks + 1 => do
      let (before, g) ← consume iterable n w turns asks
      let (yielded, g) ← g.resume iterable n turns
      return (before ++ yielded.toList, g)

/-! ## What the iterator gives -/

/-- The calls of `next` give these items, and lead from a world to another. -/
inductive Gives (iterable : Iterable W α) : W → List α → W → Prop
  | nil (w : W) : Gives iterable w [] w
  | cons {w mid last : W} {item : α} {items : List α} (hnext : iterable.next w = (some item, mid))
      (hrest : Gives iterable mid items last) : Gives iterable w (item :: items) last

variable {iterable : Iterable W α}

theorem Gives.append {w mid last : W} {first second : List α} (hfirst : Gives iterable w first mid)
    (hsecond : Gives iterable mid second last) : Gives iterable w (first ++ second) last := by
  induction hfirst with
  | nil w => exact hsecond
  | cons hnext _ ih => exact .cons hnext (ih hsecond)

/-- Up to the end of the items, the calls give the beginning of the items. -/
theorem Gives.prefix_of_end {w mid stop last : W} {items all : List α}
    (hitems : Gives iterable w items mid) (hall : Gives iterable w all stop)
    (hend : iterable.next stop = (none, last)) : items <+: all := by
  induction hitems generalizing all with
  | nil w => exact List.nil_prefix
  | cons hnext _ ih =>
      cases hall with
      | nil =>
          rw [hend] at hnext
          cases hnext
      | cons hother hrest =>
          rw [hother] at hnext
          cases hnext
          exact List.cons_prefix_cons.mpr ⟨rfl, ih hrest⟩

/-- Two lists of all the items are the same, and lead to the same world. -/
theorem Gives.unique {w stop stop' last last' : W} {items all : List α}
    (hitems : Gives iterable w items stop) (hend : iterable.next stop = (none, last))
    (hall : Gives iterable w all stop') (hend' : iterable.next stop' = (none, last')) :
    items = all ∧ last = last' := by
  induction hitems generalizing all with
  | nil w =>
      cases hall with
      | nil =>
          rw [hend] at hend'
          exact ⟨rfl, congrArg Prod.snd hend'⟩
      | cons hnext _ =>
          rw [hend] at hnext
          cases hnext
  -- the iterator gives the same item in the same world
  | cons hnext _ ih =>
      cases hall with
      | nil =>
          rw [hend'] at hnext
          cases hnext
      | cons hother hrest =>
          rw [hother] at hnext
          cases hnext
          obtain ⟨rfl, hlast⟩ := ih hend hrest
          exact ⟨rfl, hlast⟩

/-! ## Batches of a list -/

/-- The list in batches: none is empty or too long, and all but the last are full. -/
structure Batching (n : ℕ) (items : List α) (batches : List (List α)) : Prop where
  flatten : batches.flatten = items
  ne_nil : ∀ batch ∈ batches, batch ≠ []
  full : ∀ batch ∈ batches.dropLast, batch.length = n
  length_le : ∀ batch ∈ batches, batch.length ≤ n

theorem batching_of_full {n : ℕ} (hn : 1 ≤ n) {batches : List (List α)}
    (hfull : ∀ batch ∈ batches, batch.length = n) : Batching n batches.flatten batches where
  flatten := rfl
  ne_nil := by
    rintro batch hbatch rfl
    have hlength := hfull [] hbatch
    rw [List.length_nil] at hlength
    omega
  full := fun batch hbatch => hfull batch (List.mem_of_mem_dropLast hbatch)
  length_le := fun batch hbatch => Nat.le_of_eq (hfull batch hbatch)

/-- A shorter batch may come last. -/
theorem batching_concat {n : ℕ} (hn : 1 ≤ n) {batches : List (List α)}
    (hfull : ∀ batch ∈ batches, batch.length = n) {last : List α} (hne : last ≠ [])
    (hlength : last.length ≤ n) : Batching n (batches.flatten ++ last) (batches ++ [last]) := by
  have hbatches := batching_of_full hn hfull
  refine ⟨by simp, ?_, ?_, ?_⟩
  · intro batch hbatch
    rcases List.mem_append.mp hbatch with hbefore | hlast
    · exact hbatches.ne_nil batch hbefore
    · rwa [List.mem_singleton.mp hlast]
  · rw [List.dropLast_concat]
    exact hfull
  · intro batch hbatch
    rcases List.mem_append.mp hbatch with hbefore | hlast
    · exact hbatches.length_le batch hbefore
    · rwa [List.mem_singleton.mp hlast]

/-- There are no more batches than items. -/
theorem Batching.length_batches_le {n : ℕ} {items : List α} {batches : List (List α)}
    (h : Batching n items batches) : batches.length ≤ items.length := by
  obtain ⟨rfl, hne, -, -⟩ := h
  induction batches with
  | nil => exact Nat.zero_le _
  | cons batch rest ih =>
      obtain ⟨hbatch, hrest⟩ := List.forall_mem_cons.mp hne
      have hpos := List.length_pos_iff.mpr hbatch
      have hlength := ih hrest
      rw [List.flatten_cons, List.length_append, List.length_cons]
      omega

/-- Items that fill the batch are handed out with it. -/
theorem batchedFrom_append {n : ℕ} (batch : List α) {items : List α} (hne : items ≠ [])
    (hlength : (batch ++ items).length = n) (rest : List α) :
    batchedFrom n batch (items ++ rest) = (batch ++ items) :: batchedFrom n [] rest := by
  induction items generalizing batch with
  | nil => exact absurd rfl hne
  | cons item others ih =>
      rw [List.cons_append, batchedFrom]
      cases others with
      | nil => rw [if_pos hlength, List.nil_append]
      | cons second others =>
          have hshort : (batch ++ [item]).length ≠ n := by
            simp only [List.length_append, List.length_cons, List.length_nil] at hlength ⊢
            omega
          have hstep := ih (batch ++ [item]) (List.cons_ne_nil _ _) (by simpa using hlength)
          rw [if_neg hshort, hstep, List.append_assoc, List.singleton_append]

/-- Items that do not fill the batch are handed out at the end. -/
theorem batchedFrom_of_lt {n : ℕ} (batch : List α) {items : List α}
    (hlength : (batch ++ items).length < n) (hne : batch ++ items ≠ []) :
    batchedFrom n batch items = [batch ++ items] := by
  induction items generalizing batch with
  | nil =>
      rw [List.append_nil] at hne ⊢
      exact if_pos (List.length_pos_iff.mpr hne)
  | cons item others ih =>
      have hshort : (batch ++ [item]).length ≠ n := by
        simp only [List.length_append, List.length_cons, List.length_nil] at hlength ⊢
        omega
      have hstep := ih (batch ++ [item]) (by simpa using hlength) (by simp)
      rw [batchedFrom, if_neg hshort, hstep, List.append_assoc, List.singleton_append]

/-- There is one way to make the batches. -/
theorem Batching.eq_batched {n : ℕ} {items : List α} {batches : List (List α)}
    (h : Batching n items batches) : batches = batched items n := by
  obtain ⟨rfl, hne, hfull, hle⟩ := h
  unfold batched
  induction batches with
  | nil => rfl
  | cons batch rest ih =>
      obtain ⟨hbatch, hrest⟩ := List.forall_mem_cons.mp hne
      obtain ⟨hlength, hlengths⟩ := List.forall_mem_cons.mp hle
      have hbatches : batchedFrom n [] (batch ++ rest.flatten) =
          batch :: batchedFrom n [] rest.flatten := by
        -- a batch that is not full is the last one
        by_cases hn : batch.length = n
        · exact batchedFrom_append [] hbatch hn rest.flatten
        · obtain rfl : rest = [] := by
            by_contra hmore
            refine hn (hfull batch ?_)
            rw [List.dropLast_cons_of_ne_nil hmore]
            exact List.mem_cons_self
          rw [List.flatten_nil, List.append_nil]
          exact batchedFrom_of_lt [] (Nat.lt_of_le_of_ne hlength hn) hbatch
      rw [List.flatten_cons, hbatches, ← ih hrest ?_ hlengths]
      intro other hother
      refine hfull other ?_
      rw [List.dropLast_cons_of_ne_nil (by rintro rfl; cases hother)]
      exact List.mem_cons_of_mem _ hother

/-! ## One request -/

/-- The loop is left with a full batch, or when the items have ended. -/
def LoopLeft (iterable : Iterable W α) (n : ℕ) (w : W)
    (outcome : Option (List α) × Generator W) : Prop :=
  ∃ items mid, Gives iterable w items mid ∧
    ((items.length = n ∧ outcome = (some items, ⟨.inLoop, mid⟩)) ∨
      ∃ last, iterable.next mid = (none, last) ∧ items.length < n ∧
        outcome = if 0 < items.length then (some items, ⟨.afterLoop, last⟩)
          else (none, ⟨.ended, last⟩))

/-- A batch of `n` items takes no more turns than that. -/
theorem returns_loop {n : ℕ} (hn : 1 ≤ n) (iterable : Iterable W α) (w : W) :
    ∃ outcome, Returns (fun turns => Loop.run (loopTurn iterable n) turns (iterable.draw [] w))
      outcome ∧ LoopLeft iterable n w outcome := by
  refine Loop.exists_returns_run
    (fun s => ∃ mid, Gives iterable w s.batch mid ∧ iterable.next mid = (s.c, s.world) ∧
      s.batch.length < n)
    (LoopLeft iterable n w) (fun s => n - s.batch.length) ?_ ⟨w, .nil w, rfl, hn⟩
  rintro ⟨batch, c, world⟩ ⟨mid, hgives, hnext, hlength⟩
  cases c with
  | none => exact .inr ⟨_, rfl, batch, mid, hgives, .inr ⟨world, hnext, hlength, rfl⟩⟩
  | some c =>
      have hmore : Gives iterable w (batch ++ [c]) world :=
        hgives.append (.cons hnext (.nil world))
      -- the batch is full, or one item closer to it
      by_cases hfull : (batch ++ [c]).length = n
      · exact .inr ⟨_, if_pos hfull, batch ++ [c], world, hmore, .inl ⟨hfull, rfl⟩⟩
      · have hlt : batch.length < n := hlength
        have hlonger : (batch ++ [c]).length = batch.length + 1 := List.length_append
        refine .inl ⟨_, if_neg hfull, ⟨world, hmore, rfl, ?_⟩, ?_⟩
        · show (batch ++ [c]).length < n
          omega
        · show n - (batch ++ [c]).length < n - batch.length
          omega

/-! ## Many requests -/

/-- What has been handed out after so many requests, by where the generator is. -/
def Consumed (iterable : Iterable W α) (n : ℕ) (w : W) (asks : ℕ) (batches : List (List α))
    (g : Generator W) : Prop :=
  match g.point with
  | .created => asks = 0 ∧ batches = [] ∧ g.world = w
  | .inLoop =>
      Gives iterable (iterable.iter w) batches.flatten g.world ∧ batches.length = asks ∧
        ∀ batch ∈ batches, batch.length = n
  | .afterLoop =>
      ∃ items mid, Gives iterable (iterable.iter w) items mid ∧
        iterable.next mid = (none, g.world) ∧ batches.length = asks ∧ Batching n items batches
  | .ended =>
      ∃ items mid, Gives iterable (iterable.iter w) items mid ∧
        iterable.next mid = (none, g.world) ∧ Batching n items batches

/-- After full batches, the loop hands out one more, or what is left. -/
theorem consumed_of_loopLeft {n : ℕ} (hn : 1 ≤ n) {w world : W} {asks : ℕ}
    {batches : List (List α)} (hgives : Gives iterable (iterable.iter w) batches.flatten world)
    (hasks : batches.length = asks) (hfull : ∀ batch ∈ batches, batch.length = n)
    {outcome : Option (List α) × Generator W} (hleft : LoopLeft iterable n world outcome) :
    Consumed iterable n w (asks + 1) (batches ++ outcome.1.toList) outcome.2 := by
  obtain ⟨items, mid, hitems, ⟨hlength, rfl⟩ | ⟨last, hend, hlength, rfl⟩⟩ := hleft
  · refine ⟨?_, by simp [hasks], ?_⟩
    · simpa using hgives.append hitems
    · intro batch hbatch
      rcases List.mem_append.mp hbatch with hbefore | hlast
      · exact hfull batch hbefore
      · rwa [List.mem_singleton.mp hlast]
  · by_cases hsome : 0 < items.length
    · rw [if_pos hsome]
      refine ⟨batches.flatten ++ items, mid, hgives.append hitems, hend, by simp [hasks], ?_⟩
      exact batching_concat hn hfull (List.length_pos_iff.mp hsome) (Nat.le_of_lt hlength)
    · obtain rfl : items = [] := List.length_eq_zero_iff.mp (by omega)
      rw [if_neg hsome]
      refine ⟨batches.flatten, mid, ?_, hend, ?_⟩
      · simpa using hgives.append hitems
      · simpa using batching_of_full hn hfull

/-- One request more. -/
theorem consumed_resume {n : ℕ} (hn : 1 ≤ n) {w : W} {asks : ℕ} {batches : List (List α)}
    {g : Generator W} (hconsumed : Consumed iterable n w asks batches g) :
    ∃ yielded next, Returns (g.resume iterable n) (yielded, next) ∧
      Consumed iterable n w (asks + 1) (batches ++ yielded.toList) next := by
  obtain ⟨point, world⟩ := g
  cases point with
  -- the first request makes the iterator
  | created =>
      obtain ⟨rfl, rfl, hworld⟩ := hconsumed
      obtain rfl : world = w := hworld
      obtain ⟨⟨yielded, next⟩, hreturns, hleft⟩ := returns_loop hn iterable (iterable.iter world)
      exact ⟨yielded, next, hreturns, consumed_of_loopLeft hn (.nil _) rfl
        (List.forall_mem_nil _) hleft⟩
  | inLoop =>
      obtain ⟨hgives, hasks, hfull⟩ := hconsumed
      obtain ⟨⟨yielded, next⟩, hreturns, hleft⟩ := returns_loop hn iterable world
      exact ⟨yielded, next, hreturns, consumed_of_loopLeft hn hgives hasks hfull hleft⟩
  -- the last batch was yielded before, and now the generator ends
  | afterLoop =>
      obtain ⟨items, mid, hgives, hend, -, hbatching⟩ := hconsumed
      refine ⟨none, ⟨.ended, world⟩, Loop.returns_pure _, items, mid, hgives, hend, ?_⟩
      simpa using hbatching
  | ended =>
      obtain ⟨items, mid, hgives, hend, hbatching⟩ := hconsumed
      refine ⟨none, ⟨.ended, world⟩, Loop.returns_pure _, items, mid, hgives, hend, ?_⟩
      simpa using hbatching

theorem consumed {n : ℕ} (hn : 1 ≤ n) (iterable : Iterable W α) (w : W) (asks : ℕ) :
    ∃ batches g, Returns (fun turns => consume iterable n w turns asks) (batches, g) ∧
      Consumed iterable n w asks batches g := by
  induction asks with
  | zero => exact ⟨[], ⟨.created, w⟩, Loop.returns_pure _, rfl, rfl, rfl⟩
  | succ asks ih =>
      obtain ⟨batches, g, hreturns, hconsumed⟩ := ih
      obtain ⟨yielded, next, hresume, hnext⟩ := consumed_resume hn hconsumed
      exact ⟨_, next, hreturns.bind (hresume.bind (Loop.returns_pure _)), hnext⟩

/-- When the items end, more requests than there are items find the end. -/
theorem consumed_ended {n : ℕ} (hn : 1 ≤ n) {w stop last : W} {items : List α}
    (hgives : Gives iterable (iterable.iter w) items stop)
    (hend : iterable.next stop = (none, last)) {asks : ℕ} (hasks : items.length < asks)
    {batches : List (List α)} {g : Generator W}
    (hconsumed : Consumed iterable n w asks batches g) :
    g = ⟨.ended, last⟩ ∧ Batching n items batches := by
  obtain ⟨point, world⟩ := g
  cases point with
  | created =>
      obtain ⟨rfl, -, -⟩ := hconsumed
      cases hasks
  -- full batches only: there would be more of them than items
  | inLoop =>
      obtain ⟨hbefore, hlength, hfull⟩ := hconsumed
      have hprefix := (hbefore.prefix_of_end hgives hend).length_le
      have hle := (batching_of_full hn hfull).length_batches_le
      omega
  | afterLoop =>
      obtain ⟨all, mid, hall, hmid, hlength, hbatching⟩ := hconsumed
      obtain ⟨rfl, -⟩ := hall.unique hmid hgives hend
      have hle := hbatching.length_batches_le
      omega
  | ended =>
      obtain ⟨all, mid, hall, hmid, hbatching⟩ := hconsumed
      obtain ⟨rfl, hworld⟩ := hall.unique hmid hgives hend
      exact ⟨congrArg (Generator.mk .ended) hworld, hbatching⟩

/-- The batches hold the items in order, none is empty, and all but the last are full.  The
iterable is asked for an iterator once, and the iterator for each item once and for the
end once; before the end it is not asked for more than is handed out. -/
theorem batched_consumes {n : ℕ} (hn : 1 ≤ n) (iterable : Iterable W α) (w : W) :
    (∀ asks, ∃ batches g, Returns (fun turns => consume iterable n w turns asks) (batches, g) ∧
        Consumed iterable n w asks batches g) ∧
      ∀ items stop last, Gives iterable (iterable.iter w) items stop →
        iterable.next stop = (none, last) → Batching n items (batched items n) ∧
          ∀ asks > items.length, Returns (fun turns => consume iterable n w turns asks)
            (batched items n, ⟨.ended, last⟩) := by
  refine ⟨consumed hn iterable w, fun items stop last hgives hend => ?_⟩
  have hall (asks : ℕ) (hasks : items.length < asks) : Batching n items (batched items n) ∧
      Returns (fun turns => consume iterable n w turns asks) (batched items n, ⟨.ended, last⟩) := by
    obtain ⟨batches, g, hreturns, hconsumed⟩ := consumed hn iterable w asks
    obtain ⟨rfl, hbatching⟩ := consumed_ended hn hgives hend hasks hconsumed
    rw [← hbatching.eq_batched]
    exact ⟨hbatching, hreturns⟩
  exact ⟨(hall _ (Nat.lt_succ_self _)).1, fun asks hasks => (hall asks hasks).2⟩

/-- A list, whose iterator is the list of the items that are left. -/
def listIterable : Iterable (List ℕ) ℕ where
  iter := id
  next
    | [] => (none, [])
    | item :: rest => (some item, rest)

/-- Three items in batches of two. -/
theorem batched_consumes_three :
    Returns (fun turns => consume listIterable 2 [1, 2, 3] turns 4)
      ([[1, 2], [3]], ⟨.ended, []⟩) :=
  ((batched_consumes (by decide) listIterable [1, 2, 3]).2 [1, 2, 3] [] []
    (.cons rfl (.cons rfl (.cons rfl (.nil [])))) rfl).2 4 (by decide)

end ArmoniKApi.Python
