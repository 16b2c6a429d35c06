import ArmoniKApi.Cpp.Listing
import Mathlib.Data.List.Induction

/-!
# Runs of the listing calls

One turn first: on a page of a growing collection the reader invariant `Reading`
of the library says exactly what the turn does (`turn_of_reading`).  If the page
is short and the current page advances all the same, the progress is `Ahead` of
the items read, and the next turn forms an iterator before the reply begins.

A turn that does this although the listing goes on is called `Lags`: its total
was counted after the collection had grown.  `paginates_iff` says that a listing
keeps its promise exactly when no turn that another reply follows lags.

## Strategy

The invariant is a disjunction, because the promise can be broken and the theorem has to say
exactly when.  After a turn of a listing that goes on, either the reader has a part of its
page and all before it (`Reading`), or it is `Ahead`: its page begins behind the items read.

```text
page           advances     total says more     next state
full           yes          yes                 Reading, at the start of the next page
short          no           yes                 Reading, at the same page
short          yes          yes                 Ahead, and the next offset is negative
any            any          no                  returned
```

* `turn_of_reading`, `turn_of_lags` and `turn_waiting` are the table, for one turn.
* `onServer_waiting` carries the disjunction over a run.
* `paginates_of_neverLags` reads the promise off the first alternative, and
  `neverLags_of_paginates` contradicts it from the second: the next answer makes the listing
  leave its reply (`turn_of_ahead`).

Runs are taken apart at the end, since the last answer decides; `follow` is the loop without
what is particular to the calls, so that the listing of partitions uses the same lemmas.
The 32-bit offset is the difference it is meant to be as long as the total fits, which the
snapshots guarantee (`Progress.offset_eq`).
-/

namespace ArmoniKApi.Cpp

open Paging

variable {Filters Sorting α : Type}

/-! ## 32-bit arithmetic -/

theorem int32_eq {n : Int} (hlower : -2147483648 ≤ n) (hupper : n ≤ 2147483647) :
    int32 n = n := by
  unfold int32
  omega

/-- As long as the current page starts less than one page after the items read,
the offset is the difference it is meant to be. -/
theorem Progress.offset_eq {progress : Progress α} {pageSize : ℕ}
    (hsize : pageSize ≤ 2147483647) (hlength : progress.rawItems.length ≤ 2147483647)
    (hpage : progress.currentPage * pageSize ≤ progress.rawItems.length + pageSize) :
    progress.offset pageSize =
      progress.rawItems.length - (progress.currentPage * pageSize : ℕ) := by
  have hraw : int32 progress.rawItems.length = progress.rawItems.length :=
    int32_eq (by omega) (by omega)
  rw [Progress.offset, hraw, ← Int.natCast_mul]
  generalize progress.currentPage * pageSize = start at hpage
  unfold int32
  omega

/-! ## Turn by turn -/

section Follow

variable {C : Type} {turn : Progress α → C → Listing α} {progress next : Progress α}

/-- Turns are taken until one of them ends the listing. -/
def follow (turn : Progress α → C → Listing α) : Progress α → List C → Listing α
  | progress, [] => .waiting progress
  | progress, call :: rest =>
      match turn progress call with
      | .waiting progress => follow turn progress rest
      | result => result

theorem follow_append (progress : Progress α) (before after : List C) :
    follow turn progress (before ++ after) =
      match follow turn progress before with
      | .waiting progress => follow turn progress after
      | result => result := by
  induction before generalizing progress with
  | nil => rfl
  | cons call rest ih =>
      simp only [List.cons_append, follow]
      cases turn progress call with
      | waiting next => exact ih next
      | outOfRange => rfl
      | threw message => rfl
      | returned items total => rfl

theorem follow_map {D : Type} (f : D → C) (progress : Progress α) (calls : List D) :
    follow turn progress (calls.map f) =
      follow (fun progress call => turn progress (f call)) progress calls := by
  induction calls generalizing progress with
  | nil => rfl
  | cons call rest ih =>
      simp only [List.map_cons, follow]
      cases turn progress (f call) with
      | waiting next => exact ih next
      | outOfRange => rfl
      | threw message => rfl
      | returned items total => rfl

/-- A listing that is not waiting was ended by one of its turns. -/
theorem follow_ended {calls : List C} {result : Listing α}
    (hresult : follow turn progress calls = result)
    (hended : ∀ progress, result ≠ .waiting progress) :
    ∃ before call after last, calls = before ++ call :: after ∧
      follow turn progress before = .waiting last ∧ turn last call = result := by
  induction calls generalizing progress with
  | nil => exact absurd hresult.symm (hended progress)
  | cons call rest ih =>
      cases hturn : turn progress call with
      | waiting next =>
          simp only [follow, hturn] at hresult
          obtain ⟨before, other, after, last, rfl, hbefore, hlast⟩ := ih hresult
          refine ⟨call :: before, other, after, last, rfl, ?_, hlast⟩
          simp only [follow, hturn, hbefore]
      | outOfRange =>
          simp only [follow, hturn] at hresult
          exact ⟨[], call, rest, progress, rfl, rfl, hturn.trans hresult⟩
      | threw message =>
          simp only [follow, hturn] at hresult
          exact ⟨[], call, rest, progress, rfl, rfl, hturn.trans hresult⟩
      | returned items total =>
          simp only [follow, hturn] at hresult
          exact ⟨[], call, rest, progress, rfl, rfl, hturn.trans hresult⟩

theorem follow_concat {before : List C} {call : C} {last : Progress α}
    (hbefore : follow turn progress before = .waiting last)
    (hturn : turn last call = .waiting next) :
    follow turn progress (before ++ [call]) = .waiting next := by
  simp only [follow_append, hbefore, follow, hturn]

/-- The last turn of a listing that is waiting. -/
theorem follow_concat_waiting {before : List C} {call : C}
    (hwaiting : follow turn progress (before ++ [call]) = .waiting next) :
    ∃ last, follow turn progress before = .waiting last ∧ turn last call = .waiting next := by
  rw [follow_append] at hwaiting
  cases hbefore : follow turn progress before with
  | waiting last =>
      refine ⟨last, rfl, ?_⟩
      simp only [hbefore, follow] at hwaiting
      cases hturn : turn last call with
      | waiting other => simpa only [hturn] using hwaiting
      | outOfRange => simp only [hturn, reduceCtorEq] at hwaiting
      | threw message => simp only [hturn, reduceCtorEq] at hwaiting
      | returned items total => simp only [hturn, reduceCtorEq] at hwaiting
  | outOfRange => simp only [hbefore, reduceCtorEq] at hwaiting
  | threw message => simp only [hbefore, reduceCtorEq] at hwaiting
  | returned items total => simp only [hbefore, reduceCtorEq] at hwaiting

/-- Every call of a listing that is waiting is one after which a turn can wait. -/
theorem follow_waiting_forall {P : C → Prop} {calls : List C}
    (hturn : ∀ progress call next, turn progress call = .waiting next → P call)
    (hwaiting : follow turn progress calls = .waiting next) : ∀ call ∈ calls, P call := by
  induction calls generalizing progress with
  | nil => exact fun _ hcall => absurd hcall List.not_mem_nil
  | cons call rest ih =>
      cases hnext : turn progress call with
      | waiting later =>
          simp only [follow, hnext] at hwaiting
          exact List.forall_mem_cons.mpr ⟨hturn _ _ _ hnext, ih hwaiting⟩
      | outOfRange => simp only [follow, hnext, reduceCtorEq] at hwaiting
      | threw message => simp only [follow, hnext, reduceCtorEq] at hwaiting
      | returned items total => simp only [follow, hnext, reduceCtorEq] at hwaiting

/-- Where a turn on an answer throws only if the answer is an error, a listing
that has thrown was waiting for a call that has failed. -/
theorem follow_threw {turn : Progress α → Answer α → Listing α} {server : List (Answer α)}
    {message : String} (hturn : ∀ progress snapshot, turn progress (.ok snapshot) ≠ .threw message)
    (hthrew : follow turn progress server = .threw message) :
    ∃ before error after last, server = before ++ .error error :: after ∧
      follow turn progress before = .waiting last := by
  obtain ⟨before, answer, after, last, hserver, hbefore, hlast⟩ :=
    follow_ended hthrew (by simp)
  cases answer with
  | error error => exact ⟨before, error, after, last, hserver, hbefore⟩
  | ok snapshot => exact absurd hlast (hturn last snapshot)

end Follow

namespace ListMethod

variable {method : ListMethod α} {request : ListRequest Filters Sorting} {pageSize : ℕ}

theorem loop_eq_follow (progress : Progress α) (calls : List (StubCall Filters Sorting α)) :
    method.loop request progress calls = follow (method.turn request) progress calls := by
  induction calls generalizing progress with
  | nil => rfl
  | cons call rest ih =>
      simp only [loop, follow]
      cases method.turn request progress call with
      | waiting next => exact ih next
      | outOfRange => rfl
      | threw message => rfl
      | returned items total => rfl

/-! ## One turn on a page of the collection -/

/-- The reply that holds page `p`. -/
def pageReply (pageSize p : ℕ) (snapshot : Snapshot α) : ListResponse α where
  items := page pageSize p snapshot.items
  total := snapshot.total

/-- The current page begins after the items read, by one page at most. -/
structure Ahead (pageSize : ℕ) (progress : Progress α) : Prop where
  lt_start : progress.rawItems.length < progress.currentPage * pageSize
  start_le : progress.currentPage * pageSize ≤ progress.rawItems.length + pageSize
  fits : progress.rawItems.length ≤ 2147483647

/-- The page is short, yet the current page advances and the listing goes on. -/
structure Lags (method : ListMethod α) (pageSize p : ℕ) (snapshot : Snapshot α) : Prop where
  advances : method.advances (pageReply pageSize p snapshot) pageSize = true
  short : (page pageSize p snapshot.items).length < pageSize
  goesOn : (snapshot.items.length : Int) < snapshot.total

/-- The current page advances after every full page. -/
def AdvancesOnFull (method : ListMethod α) : Prop :=
  ∀ (pageSize p : ℕ) (snapshot : Snapshot α), pageSize ≤ (page pageSize p snapshot.items).length →
    method.advances (pageReply pageSize p snapshot) pageSize = true

variable {filters : Filters} {sort : Sorting} {progress next : Progress α} {snapshot : Snapshot α}

/-- A turn answered from a snapshot. -/
theorem turn_serve (progress : Progress α) (snapshot : Snapshot α) :
    method.turn ⟨filters, sort, -1, pageSize⟩ progress (serve (.ok snapshot)) =
      let response := pageReply pageSize progress.currentPage snapshot
      let offset := progress.offset pageSize
      if offset < 0 ∨ (response.items.length : Int) < offset then .outOfRange
      else
        let rawItems := progress.rawItems ++ response.items.drop offset.toNat
        let currentPage :=
          if method.advances response pageSize then progress.currentPage + 1
          else progress.currentPage
        if int32 rawItems.length < response.total then .waiting ⟨rawItems, currentPage⟩
        else .returned rawItems response.total := by
  simp only [turn, serve, Except.map, reply, pageReply, Int.toNat_natCast]
  rfl

/-- A turn throws only when its call has failed. -/
theorem turn_ne_threw (progress : Progress α) (snapshot : Snapshot α) (message : String) :
    method.turn ⟨filters, sort, -1, pageSize⟩ progress (serve (.ok snapshot)) ≠
      .threw message := by
  rw [turn_serve]
  simp only
  split
  · simp
  · split <;> simp

/-- A turn of a reader that has a part of the current page reads up to the end of
the page, and goes on while the total says that there is more. -/
theorem turn_of_reading (hsize : pageSize ≤ 2147483647)
    (hreading : Reading pageSize progress.currentPage snapshot.items progress.rawItems) :
    method.turn ⟨filters, sort, -1, pageSize⟩ progress (serve (.ok snapshot)) =
      let rawItems := snapshot.items.take (progress.currentPage * pageSize + pageSize)
      if (rawItems.length : Int) < snapshot.total then
        .waiting ⟨rawItems,
          if method.advances (pageReply pageSize progress.currentPage snapshot) pageSize then
            progress.currentPage + 1
          else progress.currentPage⟩
      else .returned rawItems snapshot.total := by
  have hread := hreading.isPrefix.length_le
  have hcount := snapshot.length_le
  have hlower := hreading.lower
  have hoffset : progress.offset pageSize =
      ((progress.rawItems.length - progress.currentPage * pageSize : ℕ) : Int) := by
    rw [Progress.offset_eq hsize (by omega) (by omega)]
    omega
  -- the branch of the iterator beyond the page is not taken
  have hin : ¬ (((progress.rawItems.length - progress.currentPage * pageSize : ℕ) : Int) < 0 ∨
      ((page pageSize progress.currentPage snapshot.items).length : Int) <
        (progress.rawItems.length - progress.currentPage * pageSize : ℕ)) := by
    have hle := hreading.offset_le
    omega
  have hlength : int32 (snapshot.items.take
      (progress.currentPage * pageSize + pageSize)).length =
        (snapshot.items.take (progress.currentPage * pageSize + pageSize)).length := by
    have htake := List.length_take_le (progress.currentPage * pageSize + pageSize) snapshot.items
    have htake' := List.length_take_le' (progress.currentPage * pageSize + pageSize) snapshot.items
    exact int32_eq (by omega) (by omega)
  rw [turn_serve]
  simp only [hoffset, pageReply, if_neg hin, Int.toNat_natCast, hreading.append_page, hlength]

/-- A turn that lags leaves the current page ahead of the collection. -/
theorem turn_of_lags (hsize : pageSize ≤ 2147483647)
    (hreading : Reading pageSize progress.currentPage snapshot.items progress.rawItems)
    (hlags : Lags method pageSize progress.currentPage snapshot) :
    method.turn ⟨filters, sort, -1, pageSize⟩ progress (serve (.ok snapshot)) =
      .waiting ⟨snapshot.items, progress.currentPage + 1⟩ := by
  rw [turn_of_reading hsize hreading, hreading.take_of_short hlags.short]
  simp only [hlags.advances, hlags.goesOn, if_true]

/-- The page after one that is not full is ahead of the collection. -/
theorem ahead_of_short {p : ℕ} {items rawItems : List α}
    (hreading : Reading pageSize p items rawItems)
    (hshort : (page pageSize p items).length < pageSize) (hfits : items.length ≤ 2147483647) :
    Ahead pageSize ⟨items, p + 1⟩ where
  lt_start := by
    show items.length < (p + 1) * pageSize
    rw [Nat.add_mul]
    have hafter := (hreading.after_short hshort).upper
    omega
  start_le := by
    show (p + 1) * pageSize ≤ items.length + pageSize
    rw [Nat.add_mul]
    have hbefore := hreading.length_le
    omega
  fits := hfits

theorem turn_of_ahead (hsize : pageSize ≤ 2147483647) (hahead : Ahead pageSize progress) :
    method.turn ⟨filters, sort, -1, pageSize⟩ progress (serve (.ok snapshot)) =
      .outOfRange := by
  have hoffset : progress.offset pageSize < 0 := by
    rw [Progress.offset_eq hsize hahead.fits hahead.start_le]
    have := hahead.lt_start
    omega
  rw [turn_serve]
  exact if_pos (Or.inl hoffset)

/-- A turn after which the listing goes on either keeps the reader invariant, or
lags and leaves the current page ahead. -/
theorem turn_waiting (hforward : AdvancesOnFull method) (hsize : pageSize ≤ 2147483647)
    (hreading : Reading pageSize progress.currentPage snapshot.items progress.rawItems)
    (hturn : method.turn ⟨filters, sort, -1, pageSize⟩ progress (serve (.ok snapshot)) =
      .waiting next) :
    (Reading pageSize next.currentPage snapshot.items next.rawItems ∧
        ¬ Lags method pageSize progress.currentPage snapshot) ∨
      (Ahead pageSize next ∧ Lags method pageSize progress.currentPage snapshot) := by
  rw [turn_of_reading hsize hreading] at hturn
  simp only at hturn
  split at hturn
  case isFalse => cases hturn
  case isTrue hgoesOn =>
    obtain ⟨rfl⟩ := hturn
    rcases Nat.lt_or_ge (page pageSize progress.currentPage snapshot.items).length pageSize with
      hshort | hfull
    · have htake := hreading.take_of_short hshort
      cases hadvances :
          method.advances (pageReply pageSize progress.currentPage snapshot) pageSize with
      | true =>
          -- the whole collection is read, and it ends inside the page just left
          right
          refine ⟨?_, ⟨hadvances, hshort, by rwa [htake] at hgoesOn⟩⟩
          show Ahead pageSize ⟨snapshot.items.take _, progress.currentPage + 1⟩
          rw [htake]
          exact ahead_of_short hreading hshort snapshot.length_le
      | false =>
          left
          refine ⟨?_, fun hlags => ?_⟩
          · show Reading pageSize progress.currentPage snapshot.items (snapshot.items.take _)
            rw [htake]
            exact hreading.after_short hshort
          · rw [hlags.advances] at hadvances
            cases hadvances
    · left
      rw [hforward pageSize progress.currentPage snapshot hfull]
      exact ⟨hreading.after_full hfull, fun hlags => absurd hlags.short (Nat.not_lt.mpr hfull)⟩

/-! ## Runs against a server -/

/-- The listing of all pages, against the answers of a server. -/
def onServer (method : ListMethod α) (filters : Filters) (sort : Sorting) (pageSize : ℕ)
    (server : List (Answer α)) : Listing α :=
  method.list filters (-1) pageSize sort (server.map serve)

variable {server before after : List (Answer α)}

theorem onServer_nil : method.onServer filters sort pageSize [] = .waiting ⟨[], 0⟩ := rfl

theorem onServer_eq_follow (server : List (Answer α)) :
    method.onServer filters sort pageSize server =
      follow (fun progress answer => method.turn ⟨filters, sort, -1, pageSize⟩ progress
        (serve answer)) ⟨[], 0⟩ server := by
  rw [← follow_map, ← loop_eq_follow]
  rfl

/-- The last answer of a run that goes on is a snapshot. -/
theorem onServer_concat_waiting {answer : Answer α}
    (hwaiting : method.onServer filters sort pageSize (before ++ [answer]) = .waiting next) :
    ∃ snapshot last, answer = .ok snapshot ∧
      method.onServer filters sort pageSize before = .waiting last ∧
        method.turn ⟨filters, sort, -1, pageSize⟩ last (serve (.ok snapshot)) =
          .waiting next := by
  rw [onServer_eq_follow] at hwaiting ⊢
  obtain ⟨last, hbefore, hturn⟩ := follow_concat_waiting hwaiting
  cases answer with
  | error message => cases hturn
  | ok snapshot => exact ⟨snapshot, last, rfl, hbefore, hturn⟩

theorem onServer_concat {answer : Answer α}
    (hbefore : method.onServer filters sort pageSize before = .waiting progress)
    (hturn : method.turn ⟨filters, sort, -1, pageSize⟩ progress (serve answer) =
      .waiting next) :
    method.onServer filters sort pageSize (before ++ [answer]) = .waiting next := by
  rw [onServer_eq_follow] at hbefore ⊢
  exact follow_concat hbefore hturn

/-- A run that is not waiting was ended by one of its answers. -/
theorem onServer_ended {result : Listing α}
    (hresult : method.onServer filters sort pageSize server = result)
    (hended : ∀ progress, result ≠ .waiting progress) :
    ∃ before answer after last, server = before ++ answer :: after ∧
      method.onServer filters sort pageSize before = .waiting last ∧
        method.turn ⟨filters, sort, -1, pageSize⟩ last (serve answer) = result := by
  simp only [onServer_eq_follow] at hresult ⊢
  exact follow_ended hresult hended

/-- In every state reached the reader invariant holds, or the current page is
ahead. -/
theorem onServer_waiting (hforward : AdvancesOnFull method) (hpos : 0 < pageSize)
    (hsize : pageSize ≤ 2147483647) (hgrows : Grows .empty server)
    (hwaiting : method.onServer filters sort pageSize server = .waiting next) :
    Reading pageSize next.currentPage (latest .empty server).items next.rawItems ∨
      Ahead pageSize next := by
  induction server using List.reverseRecOn generalizing next with
  | nil =>
      obtain ⟨rfl⟩ := onServer_nil.symm.trans hwaiting
      exact .inl (Reading.start hpos)
  | append_singleton before answer ih =>
      obtain ⟨snapshot, last, rfl, hbefore, hturn⟩ := onServer_concat_waiting hwaiting
      obtain ⟨hgrowsBefore, hgrowth, -⟩ := (follows_append _ _ _).mp hgrows
      rw [latest_concat_ok]
      rcases ih hgrowsBefore hbefore with hreading | hahead
      · rcases turn_waiting hforward hsize (hreading.grow hgrowth) hturn with hnext | hnext
        · exact .inl hnext.1
        · exact .inr hnext.1
      · rw [turn_of_ahead hsize hahead] at hturn
        cases hturn

/-- No turn that another reply follows lags. -/
def NeverLags (method : ListMethod α) (filters : Filters) (sort : Sorting) (pageSize : ℕ)
    (server : List (Answer α)) : Prop :=
  ∀ before snapshot following after progress,
    server = before ++ .ok snapshot :: .ok following :: after →
      method.onServer filters sort pageSize before = .waiting progress →
        ¬ Lags method pageSize progress.currentPage snapshot

/-- Where no turn lags, the reader invariant holds at every reply. -/
theorem reading_of_neverLags (hforward : AdvancesOnFull method) (hpos : 0 < pageSize)
    (hsize : pageSize ≤ 2147483647) (hgrows : Grows .empty server)
    (hnever : NeverLags method filters sort pageSize server)
    (hserver : server = before ++ .ok snapshot :: after)
    (hwaiting : method.onServer filters sort pageSize before = .waiting progress) :
    Reading pageSize progress.currentPage snapshot.items progress.rawItems := by
  subst hserver
  obtain ⟨hgrowsBefore, hgrowth, -⟩ := (follows_append _ _ _).mp hgrows
  rcases onServer_waiting hforward hpos hsize hgrowsBefore hwaiting with hreading | hahead
  · exact hreading.grow hgrowth
  · rcases List.eq_nil_or_concat before with rfl | ⟨earlier, answer, rfl⟩
    · obtain ⟨rfl⟩ := onServer_nil.symm.trans hwaiting
      exact absurd hahead.lt_start (by simp)
    · -- the page got ahead in the turn before, and that turn lagged
      rw [List.concat_eq_append] at *
      obtain ⟨previous, last, rfl, hearlier, hturn⟩ := onServer_concat_waiting hwaiting
      obtain ⟨hgrowsEarlier, hgrowthEarlier, -⟩ := (follows_append _ _ _).mp hgrowsBefore
      rcases onServer_waiting hforward hpos hsize hgrowsEarlier hearlier with hreading | hlast
      · rcases turn_waiting hforward hsize (hreading.grow hgrowthEarlier) hturn with hnext | hnext
        · exact absurd hahead.lt_start (Nat.not_lt.mpr hnext.1.lower)
        · exact absurd hnext.2 (hnever earlier previous snapshot after last (by simp) hearlier)
      · rw [turn_of_ahead hsize hlast] at hturn
        cases hturn

theorem NeverLags.of_append (h : NeverLags method filters sort pageSize (before ++ after)) :
    NeverLags method filters sort pageSize before := by
  intro earlier snapshot following later progress hbefore
  refine h earlier snapshot following (later ++ after) progress ?_
  rw [hbefore, List.append_assoc]
  rfl

/-- Where no turn lags, what has been read is a prefix of the collection, the last
total says that there is more, and every reply after the first has brought an item
if the totals are sizes that the collection has had. -/
theorem waiting_of_neverLags (hforward : AdvancesOnFull method) (hpos : 0 < pageSize)
    (hsize : pageSize ≤ 2147483647) (hgrows : Grows .empty server)
    (hnever : NeverLags method filters sort pageSize server)
    (hwaiting : method.onServer filters sort pageSize server = .waiting next) :
    next.rawItems <+: (latest .empty server).items ∧
      (server ≠ [] → (next.rawItems.length : Int) < (latest .empty server).total) ∧
      (Counts .empty server → server.length ≤ next.rawItems.length + 1) := by
  induction server using List.reverseRecOn generalizing next with
  | nil =>
      obtain ⟨rfl⟩ := onServer_nil.symm.trans hwaiting
      exact ⟨List.nil_prefix, fun hne => absurd rfl hne, fun _ => Nat.zero_le _⟩
  | append_singleton before answer ih =>
      obtain ⟨snapshot, last, rfl, hbefore, hturn⟩ := onServer_concat_waiting hwaiting
      obtain ⟨hgrowsBefore, -, -⟩ := (follows_append _ _ _).mp hgrows
      obtain ⟨-, hbelow, hlength⟩ := ih hgrowsBefore hnever.of_append hbefore
      have hreading := reading_of_neverLags hforward hpos hsize hgrows hnever rfl hbefore
      have hupper := hreading.upper
      rw [turn_of_reading hsize hreading] at hturn
      simp only at hturn
      split at hturn
      case isFalse => cases hturn
      case isTrue hgoesOn =>
        obtain ⟨rfl⟩ := hturn
        rw [latest_concat_ok]
        refine ⟨List.take_prefix _ _, fun _ => hgoesOn, fun hcounts => ?_⟩
        obtain ⟨hcountsBefore, hcount, -⟩ := (follows_append _ _ _).mp hcounts
        have hbound := hlength hcountsBefore
        show (before ++ [Except.ok snapshot]).length ≤ (snapshot.items.take _).length + 1
        rw [List.length_append, List.length_singleton, List.length_take]
        rcases List.eq_nil_or_concat before with rfl | ⟨earlier, other, rfl⟩
        · exact Nat.le_add_left 1 _
        -- the total before was larger than what had been read, and the page holds the rest
        · have hnew := hbelow (by simp)
          omega

theorem paginates_of_neverLags (hforward : AdvancesOnFull method) (hpos : 0 < pageSize)
    (hsize : pageSize ≤ 2147483647) (hgrows : Grows .empty server)
    (hnever : NeverLags method filters sort pageSize server) :
    Paginates pageSize (method.onServer filters sort pageSize) server where
  -- a page is read from where the client stands in it, so the iterator stays in it
  neverOut := by
    intro hout
    obtain ⟨before, answer, after, last, hserver, hbefore, hturn⟩ :=
      onServer_ended hout (by simp)
    cases answer with
    | error message => cases hturn
    | ok snapshot =>
        have hreading :=
          reading_of_neverLags hforward hpos hsize hgrows hnever hserver hbefore
        rw [turn_of_reading hsize hreading] at hturn
        simp only at hturn
        split at hturn <;> cases hturn
  thrown := by
    intro message hthrew
    simp only [onServer_eq_follow] at hthrew ⊢
    exact follow_threw (fun progress snapshot => turn_ne_threw progress snapshot message) hthrew
  waits := by
    intro progress hwaiting
    obtain ⟨hread, hbelow, -⟩ :=
      waiting_of_neverLags hforward hpos hsize hgrows hnever hwaiting
    rw [onServer_eq_follow] at hwaiting
    refine ⟨follow_waiting_forall (fun progress answer next hturn => ?_) hwaiting, hread, hbelow⟩
    cases answer with
    | error message => cases hturn
    | ok snapshot => rfl
  ends := by
    intro hcounts progress hwaiting
    exact (waiting_of_neverLags hforward hpos hsize hgrows hnever hwaiting).2.2 hcounts
  inRange := by
    intro before snapshot after progress hserver hbefore
    have hreading := reading_of_neverLags hforward hpos hsize hgrows hnever hserver hbefore
    have hlower := hreading.lower
    have hoffset := hreading.offset_le
    rw [← Int.natCast_mul]
    omega
  -- the last turn is the one that returns, and its total says that nothing is missing
  complete := by
    intro items total hreturned
    obtain ⟨before, answer, after, last, hserver, hbefore, hturn⟩ :=
      onServer_ended hreturned (by simp)
    cases answer with
    | error message => cases hturn
    | ok snapshot =>
        have hreading :=
          reading_of_neverLags hforward hpos hsize hgrows hnever hserver hbefore
        rw [turn_of_reading hsize hreading] at hturn
        simp only at hturn
        split at hturn
        case isTrue => cases hturn
        case isFalse hdone =>
          obtain ⟨rfl, rfl⟩ := hturn
          exact ⟨before, snapshot, after, last, hserver, hbefore, List.take_prefix _ _, rfl,
            Int.not_lt.mp hdone⟩

/-- A turn that lags and is followed by a reply breaks the promise. -/
theorem neverLags_of_paginates (hforward : AdvancesOnFull method) (hpos : 0 < pageSize)
    (hsize : pageSize ≤ 2147483647) (hgrows : Grows .empty server)
    (hpaginates : Paginates pageSize (method.onServer filters sort pageSize) server) :
    NeverLags method filters sort pageSize server := by
  intro before snapshot following after progress hserver hbefore hlags
  subst hserver
  obtain ⟨hgrowsBefore, hgrowth, -⟩ := (follows_append _ _ _).mp hgrows
  have hin := (hpaginates.inRange before snapshot _ progress rfl hbefore).1
  rw [← Int.natCast_mul] at hin
  rcases onServer_waiting hforward hpos hsize hgrowsBefore hbefore with hreading | hahead
  · have hreading := hreading.grow hgrowth
    have hnext : method.onServer filters sort pageSize (before ++ [.ok snapshot]) =
        .waiting ⟨snapshot.items, progress.currentPage + 1⟩ :=
      onServer_concat hbefore (turn_of_lags hsize hreading hlags)
    -- the whole collection was read, and page `progress.currentPage + 1` begins beyond it
    have hafter := (hpaginates.inRange (before ++ [.ok snapshot]) following after _ (by simp)
      hnext).1
    have hupper := (hreading.after_short hlags.short).upper
    rw [← Int.natCast_mul] at hafter
    simp only [Nat.add_mul] at hafter
    omega
  · have := hahead.lt_start
    omega

variable (filters sort) in
/-- **Which runs keep the promise.**  A listing paginates a growing collection
exactly when none of its turns that another reply follows lags. -/
theorem paginates_iff (hforward : AdvancesOnFull method) (hpos : 0 < pageSize)
    (hsize : pageSize ≤ 2147483647) (hgrows : Grows .empty server) :
    Paginates pageSize (method.onServer filters sort pageSize) server ↔
      NeverLags method filters sort pageSize server :=
  ⟨neverLags_of_paginates hforward hpos hsize hgrows,
    paginates_of_neverLags hforward hpos hsize hgrows⟩

/-- Where no turn can lag, a listing paginates on every run. -/
theorem paginates_of_never (hforward : AdvancesOnFull method) (hpos : 0 < pageSize)
    (hsize : pageSize ≤ 2147483647) (hnever : ∀ p snapshot, ¬ Lags method pageSize p snapshot)
    (hgrows : Grows .empty server) :
    Paginates pageSize (method.onServer filters sort pageSize) server :=
  paginates_of_neverLags hforward hpos hsize hgrows
    fun _ snapshot _ _ progress _ _ => hnever progress.currentPage snapshot

end ListMethod

end ArmoniKApi.Cpp
