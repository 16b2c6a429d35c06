import ArmoniKApi.Library.Paging

/-!
# The listing calls of the C++ client

`list_tasks`, `list_tasks_detailed`, `list_results` and `list_sessions` ask for
one page, or, with `page = -1`, for all of them.  In the second case they keep
the items read so far and the current page, append what is new in each reply,
and go on until they have as many items as the last total says.

The four run the same loop.  They differ in the message of the exception and in
the test after which the current page advances, the two fields of `ListMethod`.

A run is over the successive calls of the stub; when these are used up the
listing waits for the next reply.

Three ways to end are kept apart, since the source mixes them: a reply (`returned`), an
exception with the text of the status (`threw`), and an iterator formed outside of the items
of a reply, which is undefined behaviour (`outOfRange`).  A run whose replies are used up is
`waiting`.

The offset is computed in 32 bits with the conversions of the source, each of which may wrap.

`Paginates` is the promise.  It is stated over a server that answers from snapshots of a
growing collection, so that the collection, the page and the total may disagree as they do in
practice, and it says of every answer:

* no iterator leaves its reply, and nothing is thrown unless the call of the stub failed;
* what is returned is a prefix of the collection that the last page was cut from, and it is at
  least as long as the last total says;
* a listing that waits has had no failure, and each reply but one has brought it an item, so
  that it does not go round in circles.

`Proceeds` is the part of it without the offsets and the items that are returned, which the
listing of partitions has in common with these calls.
-/

namespace ArmoniKApi.Cpp

open Paging

variable {Filters Sorting α Summary Detailed : Type}

/-! ## Requests and replies -/

/-- The request of a listing: what is asked for, in which order, and which page of which
size. -/
structure ListRequest (Filters Sorting : Type) where
  filters : Filters
  sort : Sorting
  page : Int
  pageSize : Int

/-- The reply to a request: the items of a page, and the number of items in all. -/
structure ListResponse (α : Type) where
  items : List α
  total : Int
  deriving DecidableEq, Repr

/-- One call of the stub.  An error carries the message of the status. -/
abbrev StubCall (Filters Sorting α : Type) :=
  ListRequest Filters Sorting → Except String (ListResponse α)

/-- The items read so far, and the page to ask for. -/
structure Progress (α : Type) where
  rawItems : List α
  currentPage : ℕ
  deriving DecidableEq, Repr

/-- What a listing comes to. -/
inductive Listing (α : Type)
  /-- An iterator outside the items of the reply is formed. -/
  | outOfRange
  | threw (message : String)
  | returned (items : List α) (total : Int)
  /-- The next reply is awaited. -/
  | waiting (progress : Progress α)
  deriving DecidableEq, Repr

/-! ## The loop -/

/-- The value of type `int32_t` that equals `n` modulo `2 ^ 32`. -/
def int32 (n : Int) : Int :=
  (n + 2147483648) % 4294967296 - 2147483648

/-- `(int32_t)rawResults.size() - current_page * page_size`. -/
def Progress.offset (progress : Progress α) (pageSize : Int) : Int :=
  int32 (int32 progress.rawItems.length - int32 (progress.currentPage * pageSize))

/-- What is particular to one listing call: the start of its error message, and
when the current page advances. -/
structure ListMethod (α : Type) where
  unable : String
  advances : ListResponse α → Int → Bool

namespace ListMethod

variable (method : ListMethod α)

/-- One turn of the loop. -/
def turn (request : ListRequest Filters Sorting) (progress : Progress α)
    (call : StubCall Filters Sorting α) : Listing α :=
  match call { request with page := progress.currentPage } with
  | .error message => .threw (method.unable ++ message)
  | .ok response =>
      let offset := progress.offset request.pageSize
      -- `begin() + offset` is an iterator into the reply, or its end
      if offset < 0 ∨ (response.items.length : Int) < offset then .outOfRange
      else
        let rawItems := progress.rawItems ++ response.items.drop offset.toNat
        let currentPage :=
          if method.advances response request.pageSize then progress.currentPage + 1
          else progress.currentPage
        if int32 rawItems.length < response.total then .waiting ⟨rawItems, currentPage⟩
        else .returned rawItems response.total

/-- The `while` loop of a listing of all pages, over the calls of the stub.  It waits when
there are no more of them. -/
def loop (request : ListRequest Filters Sorting) :
    Progress α → List (StubCall Filters Sorting α) → Listing α
  | progress, [] => .waiting progress
  | progress, call :: rest =>
      match method.turn request progress call with
      | .waiting progress => loop request progress rest
      | result => result

/-- The whole call.  Any negative `page` asks for all the pages. -/
def list (filters : Filters) (page pageSize : Int) (sort : Sorting)
    (calls : List (StubCall Filters Sorting α)) : Listing α :=
  let request : ListRequest Filters Sorting := ⟨filters, sort, page, pageSize⟩
  if 0 ≤ page then
    match calls with
    | [] => .waiting ⟨[], page.toNat⟩
    | call :: _ =>
        match call request with
        | .error message => .threw (method.unable ++ message)
        | .ok response => .returned response.items response.total
  else method.loop request ⟨[], 0⟩ calls

end ListMethod

/-! ## The four calls -/

/-- `list_tasks_common`: the page advances on the total. -/
def listTasksCommon : ListMethod α where
  unable := "Unable to list results "
  advances := fun response pageSize => decide (pageSize ≤ response.total)

/-- `list_tasks`. -/
def listTasks (filters : Filters) (page pageSize : Int) (sort : Sorting)
    (calls : List (StubCall Filters Sorting Summary)) : Listing Summary :=
  listTasksCommon.list filters page pageSize sort calls

/-- `list_tasks_detailed`, which differs in the type of the items only. -/
def listTasksDetailed (filters : Filters) (page pageSize : Int) (sort : Sorting)
    (calls : List (StubCall Filters Sorting Detailed)) : Listing Detailed :=
  listTasksCommon.list filters page pageSize sort calls

/-- `list_results` and `list_sessions`: the page advances on a full page. -/
def listFullPages (unable : String) : ListMethod α where
  unable := unable
  advances := fun response pageSize => decide (pageSize ≤ response.items.length)

/-- `list_results`. -/
def listResults (filters : Filters) (page pageSize : Int) (sort : Sorting)
    (calls : List (StubCall Filters Sorting α)) : Listing α :=
  (listFullPages "Unable to list results ").list filters page pageSize sort calls

/-- `list_sessions`. -/
def listSessions (filters : Filters) (page pageSize : Int) (sort : Sorting)
    (calls : List (StubCall Filters Sorting α)) : Listing α :=
  (listFullPages "Unable to list sessions : ").list filters page pageSize sort calls

/-! ## The server -/

/-- The reply that a snapshot gives to a request. -/
def reply (request : ListRequest Filters Sorting) (snapshot : Snapshot α) : ListResponse α where
  items := page request.pageSize.toNat request.page.toNat snapshot.items
  total := snapshot.total

/-- The stub call that gets the answer of a server. -/
def serve (answer : Answer α) : StubCall Filters Sorting α :=
  fun request => answer.map (reply request)

/-! ## The promise -/

/-- How a listing of all pages may stand after a run of the server.  It forms no
iterator outside the items of a reply, and it throws only when the call that it
was waiting for has failed.  As long as it waits, every call has been answered,
what has been read is a prefix of the collection, and the last total says that
there is more; and when the totals are sizes that the collection has had, it does
not wait for more than one reply beyond the number of items read.

Together with what a listing says of the items that it returns, this leaves
nothing open: a listing that is neither waiting nor thrown has returned. -/
structure Proceeds (list : List (Answer α) → Listing α) (server : List (Answer α)) :
    Prop where
  neverOut : list server ≠ .outOfRange
  thrown : ∀ message, list server = .threw message →
    ∃ before error after progress, server = before ++ .error error :: after ∧
      list before = .waiting progress
  waits : ∀ progress, list server = .waiting progress →
    (∀ answer ∈ server, answer.isOk = true) ∧
      progress.rawItems <+: (latest .empty server).items ∧
      (server ≠ [] → (progress.rawItems.length : Int) < (latest .empty server).total)
  ends : Counts .empty server → ∀ progress, list server = .waiting progress →
    server.length ≤ progress.rawItems.length + 1

/-- What a listing of all pages promises on a run of the server: every offset
lies within its reply, and what is returned is a prefix of the collection, as
long as the last total or longer.  It returns unless a call fails or the next
reply has not come (`Proceeds`). -/
structure Paginates (pageSize : ℕ) (list : List (Answer α) → Listing α)
    (server : List (Answer α)) : Prop extends Proceeds list server where
  inRange : ∀ before snapshot after progress, server = before ++ .ok snapshot :: after →
    list before = .waiting progress →
      (0 : Int) ≤ progress.rawItems.length - progress.currentPage * pageSize ∧
        (progress.rawItems.length - progress.currentPage * pageSize : Int) ≤
          (page pageSize progress.currentPage snapshot.items).length
  complete : ∀ items total, list server = .returned items total →
    ∃ before snapshot after progress, server = before ++ .ok snapshot :: after ∧
      list before = .waiting progress ∧ items <+: snapshot.items ∧
        total = snapshot.total ∧ total ≤ items.length

end ArmoniKApi.Cpp
