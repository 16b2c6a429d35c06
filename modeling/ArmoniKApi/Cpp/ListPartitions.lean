import ArmoniKApi.Cpp.ListClients

/-!
# Listing partitions in C++

`list_partitions` with `page = -1` asks for all pages like the other listing
calls, and advances on a full page like `list_results`.  But it appends the whole
of a reply, also when it has asked for the same page before.

A page that is filled in part, with a total that says there is more, is asked for
again.  If a reply follows, the elements of the page are appended twice
(`reading_or_repeats`).  `list_partitions_returns_prefix` says that nothing else
goes wrong: without such a page the listing returns a prefix of the collection.

## Strategy

The turn has no offset, so nothing can leave a reply (`turn_ne_outOfRange`), and the fault is
of another kind than that of the tasks: elements that come twice.  Two runs are told apart.

* No reply that another one follows has a part of a page.  Then the items read always end
  where the current page starts (`AtPage`), each reply is appended whole and rightly so, and
  the library's `append_whole_page` is the step.  The promise follows as for the other calls.
* Some reply has a part of a page, and another one follows.  Then the same page is appended
  twice.  `Extends` says that from there on the items only grow, so the repetition never goes
  away (`onServer_extends`), and a collection of distinct elements is not returned as a prefix.

`neverPart_of_returnsPrefix` is the second case as the converse of the first.  A page of one
element is never filled in part (`neverPart_one`), which gives a run to apply the theorem to.
-/

namespace ArmoniKApi.Cpp

open Paging

variable {Filters Sorting α : Type}

namespace PartitionsClient

/-! ## The call -/

/-- One turn of the loop. -/
def turn (request : ListRequest Filters Sorting) (progress : Progress α)
    (call : StubCall Filters Sorting α) : Listing α :=
  match call { request with page := progress.currentPage } with
  | .error message => .threw ("Unable to list partitions " ++ message)
  | .ok response =>
      let rawItems := progress.rawItems ++ response.items
      let currentPage :=
        if (response.items.length : Int) ≥ request.pageSize then progress.currentPage + 1
        else progress.currentPage
      if int32 rawItems.length < response.total then .waiting ⟨rawItems, currentPage⟩
      else .returned rawItems response.total

/-- `list_partitions`. -/
def listPartitions (filters : Filters) (page pageSize : Int) (sort : Sorting)
    (calls : List (StubCall Filters Sorting α)) : Listing α :=
  let request : ListRequest Filters Sorting := ⟨filters, sort, page, pageSize⟩
  if 0 ≤ page then
    match calls with
    | [] => .waiting ⟨[], page.toNat⟩
    | call :: _ =>
        match call request with
        | .error message => .threw ("Unable to list partitions " ++ message)
        | .ok response => .returned response.items response.total
  else follow (turn request) ⟨[], 0⟩ calls

/-- The listing of all pages, against the answers of a server. -/
def onServer (filters : Filters) (sort : Sorting) (pageSize : ℕ) (server : List (Answer α)) :
    Listing α :=
  listPartitions filters (-1) pageSize sort (server.map serve)

/-! ## What it promises -/

/-- What is returned is a prefix of the collection that the last reply was taken
from, as long as the last total or longer. -/
def ReturnsPrefix (list : List (Answer α) → Listing α) (server : List (Answer α)) : Prop :=
  ∀ items total, list server = .returned items total →
    ∃ before snapshot after progress, server = before ++ .ok snapshot :: after ∧
      list before = .waiting progress ∧ items <+: snapshot.items ∧
        total = snapshot.total ∧ total ≤ items.length

/-- The page is filled in part, and the total says that there is more. -/
structure PartOfPage (pageSize p : ℕ) (snapshot : Snapshot α) : Prop where
  begun : page pageSize p snapshot.items ≠ []
  short : (page pageSize p snapshot.items).length < pageSize
  goesOn : (snapshot.items.length : Int) < snapshot.total

/-- No reply that another one follows has only a part of the page. -/
def NeverPart (filters : Filters) (sort : Sorting) (pageSize : ℕ) (server : List (Answer α)) :
    Prop :=
  ∀ before snapshot following after progress,
    server = before ++ .ok snapshot :: .ok following :: after →
      onServer filters sort pageSize before = .waiting progress →
        ¬PartOfPage pageSize progress.currentPage snapshot

variable {filters : Filters} {sort : Sorting} {pageSize : ℕ} {progress next : Progress α}
  {snapshot : Snapshot α} {server before after : List (Answer α)}

theorem NeverPart.of_append (h : NeverPart filters sort pageSize (before ++ after)) :
    NeverPart filters sort pageSize before := by
  intro earlier snapshot following later progress hbefore
  refine h earlier snapshot following (later ++ after) progress ?_
  rw [hbefore, List.append_assoc]
  rfl

/-! ## One turn -/

/-- A turn answered from a snapshot. -/
theorem turn_serve (progress : Progress α) (snapshot : Snapshot α) :
    turn ⟨filters, sort, -1, pageSize⟩ progress (serve (.ok snapshot)) =
      let answer := page pageSize progress.currentPage snapshot.items
      if int32 (progress.rawItems ++ answer).length < snapshot.total then
        .waiting ⟨progress.rawItems ++ answer,
          if (answer.length : Int) ≥ pageSize then progress.currentPage + 1
          else progress.currentPage⟩
      else .returned (progress.rawItems ++ answer) snapshot.total := by
  simp only [turn, serve, Except.map, reply, Int.toNat_natCast]

/-- The items read end where the current page starts. -/
structure AtPage (pageSize : ℕ) (progress : Progress α) (items : List α) : Prop where
  reading : Reading pageSize progress.currentPage items progress.rawItems
  start : progress.rawItems.length = progress.currentPage * pageSize

/-- At the start of its page a turn reads up to the end of the page. -/
theorem turn_of_atPage (hat : AtPage pageSize progress snapshot.items) :
    turn ⟨filters, sort, -1, pageSize⟩ progress (serve (.ok snapshot)) =
      let rawItems := snapshot.items.take (progress.currentPage * pageSize + pageSize)
      if (rawItems.length : Int) < snapshot.total then
        .waiting ⟨rawItems,
          if pageSize ≤ (page pageSize progress.currentPage snapshot.items).length then
            progress.currentPage + 1
          else progress.currentPage⟩
      else .returned rawItems snapshot.total := by
  have hcount := snapshot.length_le
  have hlength : int32 (snapshot.items.take
      (progress.currentPage * pageSize + pageSize)).length =
        (snapshot.items.take (progress.currentPage * pageSize + pageSize)).length := by
    have htake := List.length_take_le' (progress.currentPage * pageSize + pageSize) snapshot.items
    exact int32_eq (by omega) (by omega)
  rw [turn_serve]
  simp only [hat.reading.append_whole_page hat.start, hlength, ge_iff_le, Int.ofNat_le]

/-- A page that is not full is empty only where the collection ends at its start. -/
theorem AtPage.page_ne_nil (hat : AtPage pageSize progress snapshot.items)
    (hshort : (page pageSize progress.currentPage snapshot.items).length < pageSize) :
    snapshot.items.length = progress.currentPage * pageSize ∨
      page pageSize progress.currentPage snapshot.items ≠ [] := by
  have hread := hat.reading.length_le
  have hstart := hat.start
  by_cases hnil : page pageSize progress.currentPage snapshot.items = []
  · have hempty := congrArg List.length hnil
    rw [length_page, List.length_nil] at hempty
    left
    omega
  · exact Or.inr hnil

/-- After such a turn the reader invariant holds, and the items read end where
the current page starts, unless there was only a part of the page. -/
theorem turn_waiting (hat : AtPage pageSize progress snapshot.items)
    (hturn : turn ⟨filters, sort, -1, pageSize⟩ progress (serve (.ok snapshot)) =
      .waiting next) :
    Reading pageSize next.currentPage snapshot.items next.rawItems ∧
      (next.rawItems.length : Int) < snapshot.total ∧
      (next.rawItems.length = next.currentPage * pageSize ∨
        PartOfPage pageSize progress.currentPage snapshot) := by
  rw [turn_of_atPage hat] at hturn
  simp only at hturn
  split at hturn
  case isFalse => cases hturn
  case isTrue hgoesOn =>
    obtain ⟨rfl⟩ := hturn
    rcases Nat.lt_or_ge (page pageSize progress.currentPage snapshot.items).length pageSize with
      hshort | hfull
    · rw [if_neg (Nat.not_le.mpr hshort), hat.reading.take_of_short hshort] at *
      exact ⟨hat.reading.after_short hshort, hgoesOn,
        (hat.page_ne_nil hshort).imp_right fun hbegun => ⟨hbegun, hshort, hgoesOn⟩⟩
    · rw [if_pos hfull]
      have hread := hat.reading.length_le
      have hafter := hat.reading.after_full hfull
      refine ⟨hafter, hgoesOn, Or.inl ?_⟩
      rw [length_page] at hfull
      show (snapshot.items.take _).length = (progress.currentPage + 1) * pageSize
      rw [List.length_take, Nat.add_mul, Nat.one_mul]
      omega

/-! ## Runs without a part of a page -/

theorem onServer_eq_follow (server : List (Answer α)) :
    onServer filters sort pageSize server =
      follow (fun progress answer => turn ⟨filters, sort, -1, pageSize⟩ progress (serve answer))
        ⟨[], 0⟩ server :=
  follow_map serve ⟨[], 0⟩ server

theorem onServer_nil : onServer (α := α) filters sort pageSize [] = .waiting ⟨[], 0⟩ := rfl

/-- The last answer of a run that goes on is a snapshot. -/
theorem onServer_concat_waiting {answer : Answer α}
    (hwaiting : onServer filters sort pageSize (before ++ [answer]) = .waiting next) :
    ∃ snapshot last, answer = .ok snapshot ∧
      onServer filters sort pageSize before = .waiting last ∧
        turn ⟨filters, sort, -1, pageSize⟩ last (serve (.ok snapshot)) = .waiting next := by
  rw [onServer_eq_follow] at hwaiting ⊢
  obtain ⟨last, hbefore, hturn⟩ := follow_concat_waiting hwaiting
  cases answer with
  | error message => cases hturn
  | ok snapshot => exact ⟨snapshot, last, rfl, hbefore, hturn⟩

/-- In every state reached the reader invariant holds, and where another reply
follows, the items read end where the current page starts. -/
theorem reading_of_neverPart (hpos : 0 < pageSize) (hgrows : Grows .empty server)
    (hnever : NeverPart filters sort pageSize server)
    (hwaiting : onServer filters sort pageSize server = .waiting next) :
    Reading pageSize next.currentPage (latest .empty server).items next.rawItems ∧
      (server ≠ [] → (next.rawItems.length : Int) < (latest .empty server).total) ∧
      ∀ following after, NeverPart filters sort pageSize (server ++ .ok following :: after) →
        next.rawItems.length = next.currentPage * pageSize := by
  induction server using List.reverseRecOn generalizing next with
  | nil =>
      obtain ⟨rfl⟩ := onServer_nil.symm.trans hwaiting
      exact ⟨Reading.start hpos, fun hne => absurd rfl hne, fun _ _ _ => (Nat.zero_mul _).symm⟩
  | append_singleton before answer ih =>
      obtain ⟨snapshot, last, rfl, hbefore, hturn⟩ := onServer_concat_waiting hwaiting
      obtain ⟨hgrowsBefore, hgrowth, -⟩ := (follows_append _ _ _).mp hgrows
      obtain ⟨hreading, -, hstart⟩ := ih hgrowsBefore hnever.of_append hbefore
      have hat : AtPage pageSize last snapshot.items :=
        ⟨hreading.grow hgrowth, hstart snapshot [] hnever⟩
      obtain ⟨hnext, hbelow, hend⟩ := turn_waiting hat hturn
      rw [latest_concat_ok]
      refine ⟨hnext, fun _ => hbelow, fun following after hlonger => ?_⟩
      rcases hend with hend | hpart
      · exact hend
      · exact absurd hpart (hlonger before snapshot following after last (by simp) hbefore)

theorem atPage_of_neverPart (hpos : 0 < pageSize)
    (hgrows : Grows .empty (before ++ .ok snapshot :: after))
    (hnever : NeverPart filters sort pageSize (before ++ .ok snapshot :: after))
    (hwaiting : onServer filters sort pageSize before = .waiting progress) :
    AtPage pageSize progress snapshot.items := by
  obtain ⟨hgrowsBefore, hgrowth, -⟩ := (follows_append _ _ _).mp hgrows
  obtain ⟨hreading, -, hstart⟩ :=
    reading_of_neverPart hpos hgrowsBefore hnever.of_append hwaiting
  exact ⟨hreading.grow hgrowth, hstart snapshot after hnever⟩

theorem returnsPrefix_of_neverPart (hpos : 0 < pageSize) (hgrows : Grows .empty server)
    (hnever : NeverPart filters sort pageSize server) :
    ReturnsPrefix (onServer filters sort pageSize) server := by
  intro items total hreturned
  rw [onServer_eq_follow] at hreturned
  obtain ⟨before, answer, after, last, rfl, hbefore, hturn⟩ :=
    follow_ended hreturned (by simp)
  rw [← onServer_eq_follow] at hbefore
  cases answer with
  | error message => cases hturn
  | ok snapshot =>
      rw [turn_of_atPage (atPage_of_neverPart hpos hgrows hnever hbefore)] at hturn
      simp only at hturn
      split at hturn
      case isTrue => cases hturn
      case isFalse hdone =>
        obtain ⟨rfl, rfl⟩ := hturn
        exact ⟨before, snapshot, after, last, rfl, hbefore, List.take_prefix _ _, rfl,
          Int.not_lt.mp hdone⟩

/-- Every reply after the first brings an item, as long as the totals are sizes
that the collection has had. -/
theorem length_le_of_neverPart (hpos : 0 < pageSize) (hgrows : Grows .empty server)
    (hcounts : Counts .empty server) (hnever : NeverPart filters sort pageSize server)
    (hwaiting : onServer filters sort pageSize server = .waiting next) :
    server.length ≤ next.rawItems.length + 1 := by
  induction server using List.reverseRecOn generalizing next with
  | nil => exact Nat.zero_le _
  | append_singleton before answer ih =>
      obtain ⟨snapshot, last, rfl, hbefore, hturn⟩ := onServer_concat_waiting hwaiting
      obtain ⟨hgrowsBefore, -⟩ := (follows_append _ _ _).mp hgrows
      obtain ⟨hcountsBefore, hcount, -⟩ := (follows_append _ _ _).mp hcounts
      have hlength := ih hgrowsBefore hcountsBefore hnever.of_append hbefore
      obtain ⟨-, hbelow, -⟩ :=
        reading_of_neverPart hpos hgrowsBefore hnever.of_append hbefore
      have hat := atPage_of_neverPart hpos hgrows hnever hbefore
      have hstart := hat.start
      rw [turn_of_atPage hat] at hturn
      simp only at hturn
      split at hturn
      case isFalse => cases hturn
      case isTrue =>
        obtain ⟨rfl⟩ := hturn
        show (before ++ [Except.ok snapshot]).length ≤ (snapshot.items.take _).length + 1
        rw [List.length_append, List.length_singleton, List.length_take]
        rcases List.eq_nil_or_concat before with rfl | ⟨earlier, other, rfl⟩
        · exact Nat.le_add_left 1 _
        -- the total before was larger than what had been read, and the page holds the rest
        · have hnew := hbelow (by simp)
          omega

/-- Whatever the run, a listing throws only if a call fails. -/
theorem turn_ne_threw (progress : Progress α) (snapshot : Snapshot α) (message : String) :
    turn ⟨filters, sort, -1, pageSize⟩ progress (serve (.ok snapshot)) ≠ .threw message := by
  rw [turn_serve]
  simp only
  split <;> simp

/-- No iterator is formed with an offset, so none lies outside of a reply. -/
theorem turn_ne_outOfRange (progress : Progress α) (answer : Answer α) :
    turn ⟨filters, sort, -1, pageSize⟩ progress (serve answer) ≠ .outOfRange := by
  cases answer with
  | error message => exact fun hturn => by cases hturn
  | ok snapshot =>
      rw [turn_serve]
      simp only
      split <;> simp

/-- Where no reply has only a part of its page, a listing returns unless a call
fails or the next reply has not come. -/
theorem proceeds_of_neverPart (hpos : 0 < pageSize) (hgrows : Grows .empty server)
    (hnever : NeverPart filters sort pageSize server) :
    Proceeds (onServer filters sort pageSize) server where
  neverOut := by
    intro hout
    rw [onServer_eq_follow] at hout
    obtain ⟨before, answer, after, last, -, -, hturn⟩ := follow_ended hout (by simp)
    exact turn_ne_outOfRange last answer hturn
  thrown := by
    intro message hthrew
    simp only [onServer_eq_follow] at hthrew ⊢
    exact follow_threw (fun progress snapshot => turn_ne_threw progress snapshot message) hthrew
  waits := by
    intro progress hwaiting
    obtain ⟨hreading, hbelow, -⟩ := reading_of_neverPart hpos hgrows hnever hwaiting
    rw [onServer_eq_follow] at hwaiting
    refine ⟨follow_waiting_forall (fun progress answer next hturn => ?_) hwaiting,
      hreading.isPrefix, hbelow⟩
    cases answer with
    | error message => cases hturn
    | ok snapshot => rfl
  ends := fun hcounts _ => length_le_of_neverPart hpos hgrows hcounts hnever

/-! ## Runs with a part of a page -/

/-- A listing that goes on from the items, or has returned them with others. -/
def Extends (items : List α) : Listing α → Prop
  | .waiting progress => items <+: progress.rawItems
  | .returned all _ => items <+: all
  | .outOfRange | .threw _ => True

variable (filters sort pageSize) in
theorem turn_extends (progress : Progress α) (snapshot : Snapshot α) :
    Extends (progress.rawItems ++ page pageSize progress.currentPage snapshot.items)
      (turn ⟨filters, sort, -1, pageSize⟩ progress (serve (.ok snapshot))) := by
  rw [turn_serve]
  simp only
  split
  · exact List.prefix_refl _
  · exact List.prefix_refl _

theorem follow_extends {items : List α} (hitems : items <+: progress.rawItems) :
    Extends items (follow (fun progress answer =>
      turn ⟨filters, sort, -1, pageSize⟩ progress (serve answer)) progress server) := by
  induction server generalizing progress with
  | nil => exact hitems
  | cons answer rest ih =>
      simp only [follow]
      cases answer with
      | error message => exact trivial
      | ok snapshot =>
          have hturn := turn_extends filters sort pageSize progress snapshot
          have hlonger := hitems.trans (List.prefix_append progress.rawItems
            (page pageSize progress.currentPage snapshot.items))
          cases hnext : turn ⟨filters, sort, -1, pageSize⟩ progress (serve (.ok snapshot)) with
          | waiting next =>
              rw [hnext] at hturn
              exact ih (hlonger.trans hturn)
          | returned all total =>
              rw [hnext] at hturn
              exact hlonger.trans hturn
          | outOfRange => exact trivial
          | threw message => exact trivial

/-- Whatever follows a reply, its page is appended. -/
theorem onServer_extends (hbefore : onServer filters sort pageSize before = .waiting progress) :
    Extends (progress.rawItems ++ page pageSize progress.currentPage snapshot.items)
      (onServer filters sort pageSize (before ++ .ok snapshot :: after)) := by
  rw [onServer_eq_follow] at hbefore ⊢
  simp only [follow_append, hbefore, follow]
  have hturn := turn_extends filters sort pageSize progress snapshot
  cases hnext : turn ⟨filters, sort, -1, pageSize⟩ progress (serve (.ok snapshot)) with
  | waiting next =>
      rw [hnext] at hturn
      exact follow_extends hturn
  | returned all total =>
      rw [hnext] at hturn
      exact hturn
  | outOfRange => exact trivial
  | threw message => exact trivial

/-- A listing has read a part of the collection, or it has read elements twice. -/
theorem reading_or_repeats (hpos : 0 < pageSize) (hgrows : Grows .empty server)
    (hwaiting : onServer filters sort pageSize server = .waiting next) :
    Reading pageSize next.currentPage (latest .empty server).items next.rawItems ∨
      ¬next.rawItems.Nodup := by
  induction server using List.reverseRecOn generalizing next with
  | nil =>
      obtain ⟨rfl⟩ := onServer_nil.symm.trans hwaiting
      exact Or.inl (Reading.start hpos)
  | append_singleton before answer ih =>
      obtain ⟨snapshot, last, rfl, hbefore, hturn⟩ := onServer_concat_waiting hwaiting
      obtain ⟨hgrowsBefore, hgrowth, -⟩ := (follows_append _ _ _).mp hgrows
      have hextends := turn_extends filters sort pageSize last snapshot
      rw [hturn] at hextends
      rw [latest_concat_ok]
      rcases ih hgrowsBefore hbefore with hreading | hrepeats
      · have hreading := hreading.grow hgrowth
        -- from within a page, the whole page is appended: its first part comes twice
        rcases Nat.lt_or_eq_of_le hreading.lower with hpart | hstart
        · right
          intro hnodup
          exact hreading.not_nodup_append_page hpart (hnodup.sublist hextends.sublist)
        · exact Or.inl (turn_waiting ⟨hreading, hstart.symm⟩ hturn).1
      · right
        intro hnodup
        have hshorter := (List.prefix_append _ _).trans hextends
        exact hrepeats (hnodup.sublist hshorter.sublist)

/-- The page of a reply that had only a part of it is read twice as soon as
another reply follows. -/
theorem repeats_of_partOfPage {following : Snapshot α} (hpos : 0 < pageSize)
    (hgrows : Grows .empty (before ++ .ok snapshot :: .ok following :: after))
    (hbefore : onServer filters sort pageSize before = .waiting progress)
    (hpart : PartOfPage pageSize progress.currentPage snapshot) :
    ∃ items, ¬items.Nodup ∧ Extends items
      (onServer filters sort pageSize (before ++ .ok snapshot :: .ok following :: after)) := by
  obtain ⟨hgrowsBefore, hgrowth, hgrowthNext, -⟩ := (follows_append _ _ _).mp hgrows
  rcases reading_or_repeats hpos hgrowsBefore hbefore with hreading | hrepeats
  · have hreading := hreading.grow hgrowth
    rcases Nat.lt_or_eq_of_le hreading.lower with hlater | hstart
    · exact ⟨_, hreading.not_nodup_append_page hlater, onServer_extends hbefore⟩
    · -- the turn reads the part of the page and asks for the same page
      have hnext : onServer filters sort pageSize (before ++ [.ok snapshot]) =
          .waiting ⟨snapshot.items, progress.currentPage⟩ := by
        rw [onServer_eq_follow] at hbefore ⊢
        refine follow_concat hbefore ?_
        rw [turn_of_atPage ⟨hreading, hstart.symm⟩, hreading.take_of_short hpart.short]
        simp only [hpart.goesOn, if_true, if_neg (Nat.not_le.mpr hpart.short)]
      have hagain := (hreading.after_short hpart.short).grow hgrowthNext
      have hbegun := List.length_pos_of_ne_nil hpart.begun
      rw [length_page] at hbegun
      refine ⟨_, hagain.not_nodup_append_page (by omega), ?_⟩
      rw [List.append_cons before]
      exact onServer_extends hnext
  · refine ⟨_, ?_, onServer_extends hbefore⟩
    intro hnodup
    exact hrepeats (hnodup.sublist (List.prefix_append _ _).sublist)

/-- A listing of distinct elements that keeps its promise has met no part of a
page. -/
theorem neverPart_of_returnsPrefix (hpos : 0 < pageSize) (hgrows : Grows .empty server)
    (hnodup : (latest .empty server).items.Nodup) {items : List α} {total : Int}
    (hreturned : onServer filters sort pageSize server = .returned items total)
    (hreturns : ReturnsPrefix (onServer filters sort pageSize) server) :
    NeverPart filters sort pageSize server := by
  intro before snapshot following after progress hserver hbefore hpart
  obtain ⟨earlier, last, later, -, hsplit, -, hitems, -⟩ := hreturns items total hreturned
  subst hserver
  obtain ⟨repeated, hrepeated, hextends⟩ := repeats_of_partOfPage hpos hgrows hbefore hpart
  rw [hreturned] at hextends
  have hlatest : last.items <+: (latest .empty (earlier ++ .ok last :: later)).items := by
    rw [hsplit] at hgrows
    rw [latest_append]
    exact Grows.prefix_latest ((follows_append _ _ _).mp hgrows).2.2
  rw [← hsplit] at hlatest
  have hall := (hextends.trans hitems).trans hlatest
  exact hrepeated (hnodup.sublist hall.sublist)

end PartitionsClient

open PartitionsClient

/-- Partitions are listed without loss or repetition as long as no reply that
another one follows has only a part of its page: the listing then throws only if a
call fails, and ends when the totals are sizes that the collection has had.  A
listing of distinct elements that returns keeps the promise only then. -/
theorem list_partitions_returns_prefix (filters : Filters) (sort : Sorting) (pageSize : ℕ)
    (hpos : 0 < pageSize) (server : List (Answer α)) (hgrows : Grows .empty server) :
    (NeverPart filters sort pageSize server →
      ReturnsPrefix (fun answers => listPartitions filters (-1) pageSize sort (answers.map serve))
          server ∧
        Proceeds (fun answers => listPartitions filters (-1) pageSize sort (answers.map serve))
          server) ∧
    ((latest .empty server).items.Nodup →
      (∃ items total,
        listPartitions filters (-1) pageSize sort (server.map serve) = .returned items total) →
      ReturnsPrefix (fun answers => listPartitions filters (-1) pageSize sort (answers.map serve))
        server → NeverPart filters sort pageSize server) := by
  refine ⟨fun hnever => ⟨returnsPrefix_of_neverPart hpos hgrows hnever,
    proceeds_of_neverPart hpos hgrows hnever⟩, ?_⟩
  rintro hnodup ⟨items, total, hreturned⟩ hreturns
  exact neverPart_of_returnsPrefix hpos hgrows hnodup hreturned hreturns

/-- A page of one element is never filled in part. -/
theorem neverPart_one (filters : Filters) (sort : Sorting) (server : List (Answer α)) :
    NeverPart filters sort 1 server := by
  intro before snapshot following after progress _ _ hpart
  have hbegun := List.length_pos_of_ne_nil hpart.begun
  have hshort := hpart.short
  omega

theorem list_partitions_returns_prefix_growingPair :
    listPartitions () (-1) 1 () (growingPair.map serve) = .returned ["a", "b"] 2 ∧
      ReturnsPrefix (fun answers => listPartitions () (-1) 1 () (answers.map serve))
        growingPair ∧
      Proceeds (fun answers => listPartitions () (-1) 1 () (answers.map serve)) growingPair := by
  have hreturns :=
    list_partitions_returns_prefix () () 1 (by decide) growingPair growingPair_grows
  exact ⟨by decide +kernel, hreturns.1 (neverPart_one () () growingPair)⟩

/-- The page that holds one partition of two is appended, asked for again, and
appended again. -/
theorem list_partitions_repeats :
    Grows .empty growingPair ∧
      listPartitions () (-1) 2 () (growingPair.map serve) = .returned ["a", "a", "b"] 2 ∧
      ¬ReturnsPrefix (fun answers => listPartitions () (-1) 2 () (answers.map serve))
        growingPair := by
  have hreturned :
      listPartitions () (-1) 2 () (growingPair.map serve) = .returned ["a", "a", "b"] 2 := by
    decide +kernel
  refine ⟨growingPair_grows, hreturned, fun hreturns => ?_⟩
  obtain ⟨before, snapshot, after, -, hserver, -, hitems, -⟩ := hreturns _ _ hreturned
  have hlength := hitems.length_le
  have hmem : Except.ok snapshot ∈ growingPair := hserver ▸ by simp
  simp only [growingPair, List.mem_cons, List.not_mem_nil, or_false, Except.ok.injEq] at hmem
  rcases hmem with rfl | rfl
  · exact absurd hlength (by decide)
  · exact absurd hlength (by decide)

end ArmoniKApi.Cpp
