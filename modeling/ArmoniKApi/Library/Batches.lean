import ArmoniKApi.Library.Fallible
import ArmoniKApi.Library.KeyedMap
import Mathlib.Data.List.Forall2

/-!
# Calls in batches

A client cuts its items into batches, makes a request of each, and puts the replies together
as they come.  The service answers a request with the history of the requests before it, so
that it may keep a state of any kind.

When the service treats the items of its requests one by one, no batch size shows in whether the
client returns and what it returns (`outcome_eq_ok_iff`): it is put together from the replies to
the items, one item after the other.  An item is all that the service may look at: where a
request says something of all its items, such as their session, each of them has it.  Whatever
the service does, what is sent are the batches from the front on, and all of them if the call
returns (`sent_prefix`).

The obstacle is the history.  A service may answer the third request in another way because of
the first two, so the batches are not independent, and a call with other batches is not a
rearrangement of the same answers.  `ItemByItem` is what is asked of the service instead: what
it replies to a request are the replies to its items, each of them given the items before it,
whichever requests these came in.  So the history of requests shows only as a list of items,
and cutting that list in another way does not change it.

* `serve_append_eq_ok_iff`, `mapM_append_eq_ok_iff` and `foldlM_append_eq_ok_iff` cut the
  service, the conversion of the items and the putting together of the replies at the end of a
  batch.
* `outcome_cons_eq_ok_iff` unfolds one turn of the loop, and is the only place where `call` is
  unfolded for its outcome.
* `outcome_eq_ok_iff` is the induction over the batches that brings the three together.
* `Carries` is the case of requests that can be made of any batch, `single` the case of one
  reply to an item.
* `Creates` says what a map of replies by name comes to: under a name stands what was made of
  the reply to the last item of that name.
* `Answers` and `Keeps` are about calls that ask for what belongs to a key; they need nothing
  of the service but that it answers each request with the values of its keys.

The first theorems are equivalences, so that they also say when a call does not return.
-/

namespace Batches

variable {α β Q P R D ε : Type}

/-! ## A call -/

/-- A service answers a request, given those that it has had before. -/
abbrev Service (ε Q P : Type) := List Q → Q → Except ε P

/-- What was sent, and what the call comes to. -/
structure Calls (ε Q D : Type) where
  sent : List Q
  outcome : Except ε D

/-- A request for each batch.  The replies in the answer are put to the others before the
next request is made. -/
def call (request : List α → Except ε Q) (service : Service ε Q P) (replies : P → List R)
    (put : D → R → Except ε D) : List Q → D → List (List α) → Calls ε Q D
  | sent, results, [] => ⟨sent, .ok results⟩
  | sent, results, batch :: rest =>
      match request batch with
      | .error error => ⟨sent, .error error⟩
      | .ok message =>
          match service sent message with
          | .error error => ⟨sent ++ [message], .error error⟩
          | .ok answer =>
              match (replies answer).foldlM put results with
              | .error error => ⟨sent ++ [message], .error error⟩
              | .ok results => call request service replies put (sent ++ [message]) results rest

/-! ## Item by item -/

/-- The replies to the items, each served after those before it. -/
def serve (one : List β → β → Except ε (List R)) : List β → List β → Except ε (List R)
  | _, [] => .ok []
  | before, item :: rest => do
      let first ← one before item
      let others ← serve one (before ++ [item]) rest
      return first ++ others

/-- The service treats the items of its requests one by one. -/
def ItemByItem (service : Service ε Q P) (items : Q → List β) (replies : P → List R)
    (one : List β → β → Except ε (List R)) : Prop :=
  ∀ earlier message, (service earlier message).map replies =
    serve one (earlier.flatMap items) (items message)

/-- The service that answers the items of its requests one by one. -/
def serving (items : Q → List β) (answer : List R → P) (one : List β → β → Except ε (List R)) :
    Service ε Q P :=
  fun earlier message => (serve one (earlier.flatMap items) (items message)).map answer

theorem itemByItem_serving {items : Q → List β} {replies : P → List R} {answer : List R → P}
    (hanswer : ∀ all, replies (answer all) = all) (one : List β → β → Except ε (List R)) :
    ItemByItem (serving items answer one) items replies one := by
  intro earlier message
  unfold serving
  cases serve one (earlier.flatMap items) (items message) with
  | error error => rfl
  | ok all => exact congrArg Except.ok (hanswer all)

/-- A batch has a request just if all of its items can be converted, and there is what is
needed apart from them. -/
structure Requests (request : List α → Except ε Q) (convert : α → Except ε β)
    (items : Q → List β) (Ready : Prop) : Prop where
  of_ok : ∀ batch message, request batch = .ok message →
    batch.mapM convert = .ok (items message) ∧ Ready
  exists_ok : ∀ batch converted, batch.mapM convert = .ok converted → Ready →
    ∃ message, request batch = .ok message

theorem serve_append_eq_ok_iff {one : List β → β → Except ε (List R)} {before first second : List β}
    {all : List R} :
    serve one before (first ++ second) = .ok all ↔
      ∃ replies others, serve one before first = .ok replies ∧
        serve one (before ++ first) second = .ok others ∧ all = replies ++ others := by
  induction first generalizing before all with
  | nil =>
      rw [List.nil_append, List.append_nil]
      constructor
      · intro h
        exact ⟨[], all, rfl, h, rfl⟩
      · rintro ⟨replies, others, hreplies, hothers, rfl⟩
        cases hreplies
        exact hothers
  -- the item of the front is served first, in either reading
  | cons item rest ih =>
      rw [List.cons_append]
      constructor
      · intro h
        obtain ⟨reply, hitem, h⟩ := Fallible.bind_eq_ok h
        obtain ⟨more, hmore, h⟩ := Fallible.bind_eq_ok h
        obtain ⟨replies, others, hreplies, hothers, rfl⟩ := ih.mp hmore
        cases h
        refine ⟨reply ++ replies, others, ?_, by simpa using hothers, by simp⟩
        exact Fallible.bind_eq_ok_iff.mpr
          ⟨reply, hitem, Fallible.bind_eq_ok_iff.mpr ⟨replies, hreplies, rfl⟩⟩
      · rintro ⟨replies, others, hreplies, hothers, rfl⟩
        obtain ⟨reply, hitem, h⟩ := Fallible.bind_eq_ok hreplies
        obtain ⟨more, hmore, h⟩ := Fallible.bind_eq_ok h
        cases h
        refine Fallible.bind_eq_ok_iff.mpr ⟨reply, hitem, Fallible.bind_eq_ok_iff.mpr
          ⟨more ++ others, ih.mpr ⟨more, others, hmore, by simpa using hothers, rfl⟩, ?_⟩⟩
        rw [List.append_assoc]
        rfl

theorem foldlM_append_eq_ok_iff {put : D → R → Except ε D} {results final : D}
    {first second : List R} :
    (first ++ second).foldlM put results = .ok final ↔
      ∃ mid, first.foldlM put results = .ok mid ∧ second.foldlM put mid = .ok final := by
  rw [List.foldlM_append]
  exact Fallible.bind_eq_ok_iff

theorem mapM_append_eq_ok_iff {convert : α → Except ε β} {first second : List α} {all : List β} :
    (first ++ second).mapM convert = .ok all ↔
      ∃ converted others, first.mapM convert = .ok converted ∧
        second.mapM convert = .ok others ∧ all = converted ++ others := by
  rw [List.mapM_append]
  constructor
  · intro h
    obtain ⟨converted, hfirst, h⟩ := Fallible.bind_eq_ok h
    obtain ⟨others, hsecond, h⟩ := Fallible.bind_eq_ok h
    cases h
    exact ⟨converted, others, hfirst, hsecond, rfl⟩
  · rintro ⟨converted, others, hfirst, hsecond, rfl⟩
    exact Fallible.bind_eq_ok_iff.mpr ⟨converted, hfirst,
      Fallible.bind_eq_ok_iff.mpr ⟨others, hsecond, rfl⟩⟩

/-! ## What a call comes to -/

section Outcome

variable {request : List α → Except ε Q} {service : Service ε Q P} {replies : P → List R}
  {put : D → R → Except ε D}

/-- A call returns if the first request can be made, is answered, and its replies can be put
away, and if the call for the other batches then returns. -/
theorem outcome_cons_eq_ok_iff {sent : List Q} {results final : D} {batch : List α}
    {rest : List (List α)} :
    (call request service replies put sent results (batch :: rest)).outcome = .ok final ↔
      ∃ message answer mid, request batch = .ok message ∧ service sent message = .ok answer ∧
        (replies answer).foldlM put results = .ok mid ∧
        (call request service replies put (sent ++ [message]) mid rest).outcome = .ok final := by
  rw [call]
  constructor
  · intro h
    split at h
    case h_1 => cases h
    case h_2 message hmessage =>
      split at h
      case h_1 => cases h
      case h_2 answer hanswer =>
        split at h
        case h_1 => cases h
        case h_2 mid hmid => exact ⟨message, answer, mid, hmessage, hanswer, hmid, h⟩
  · rintro ⟨message, answer, mid, hmessage, hanswer, hmid, h⟩
    simp only [hmessage, hanswer, hmid]
    exact h

variable {convert : α → Except ε β} {items : Q → List β} {Ready : Prop}
  {one : List β → β → Except ε (List R)}

/-- With a service that goes item by item, a call returns if all items can be converted and
are answered, and it returns the replies put together. -/
theorem outcome_eq_ok_iff (hrequests : Requests request convert items Ready)
    (hservice : ItemByItem service items replies one) {sent : List Q} {results final : D}
    {batches : List (List α)} :
    (call request service replies put sent results batches).outcome = .ok final ↔
      (batches ≠ [] → Ready) ∧ ∃ converted all, batches.flatten.mapM convert = .ok converted ∧
        serve one (sent.flatMap items) converted = .ok all ∧
        all.foldlM put results = .ok final := by
  induction batches generalizing sent results with
  | nil =>
      constructor
      · intro h
        exact ⟨fun hne => absurd rfl hne, [], [], rfl, rfl, h⟩
      · rintro ⟨-, converted, all, hconverted, hall, h⟩
        cases hconverted
        cases hall
        exact h
  | cons batch rest ih =>
      rw [outcome_cons_eq_ok_iff, List.flatten_cons]
      constructor
      · rintro ⟨message, answer, mid, hmessage, hanswer, hmid, h⟩
        obtain ⟨hbatch, hready⟩ := hrequests.of_ok batch message hmessage
        obtain ⟨-, converted, all, hconverted, hall, hfinal⟩ := ih.mp h
        have hfirst := hservice sent message
        rw [hanswer] at hfirst
        rw [List.flatMap_append, List.flatMap_singleton] at hall
        refine ⟨fun _ => hready, items message ++ converted, replies answer ++ all, ?_, ?_, ?_⟩
        · exact mapM_append_eq_ok_iff.mpr ⟨_, _, hbatch, hconverted, rfl⟩
        · exact serve_append_eq_ok_iff.mpr ⟨_, _, hfirst.symm, hall, rfl⟩
        · exact foldlM_append_eq_ok_iff.mpr ⟨mid, hmid, hfinal⟩
      · rintro ⟨hready, converted, all, hconverted, hall, hfinal⟩
        have hready := hready (List.cons_ne_nil batch rest)
        obtain ⟨first, others, hfirst, hothers, rfl⟩ := mapM_append_eq_ok_iff.mp hconverted
        obtain ⟨message, hmessage⟩ := hrequests.exists_ok batch first hfirst hready
        obtain ⟨hbatch, -⟩ := hrequests.of_ok batch message hmessage
        obtain rfl : first = items message := Except.ok.inj (hfirst.symm.trans hbatch)
        obtain ⟨served, more, hserved, hmore, rfl⟩ := serve_append_eq_ok_iff.mp hall
        obtain ⟨mid, hmid, hlast⟩ := foldlM_append_eq_ok_iff.mp hfinal
        -- the service answers the request, since it serves the items of the request
        obtain ⟨answer, hanswer, rfl⟩ :
            ∃ answer, service sent message = .ok answer ∧ replies answer = served := by
          have hreplies := (hservice sent message).trans hserved
          cases hanswer : service sent message with
          | error error =>
              rw [hanswer] at hreplies
              cases hreplies
          | ok answer =>
              rw [hanswer] at hreplies
              exact ⟨answer, rfl, Except.ok.inj hreplies⟩
        refine ⟨message, answer, mid, hmessage, hanswer, hmid, ih.mpr ?_⟩
        refine ⟨fun _ => hready, others, more, hothers, ?_, hlast⟩
        rw [List.flatMap_append, List.flatMap_singleton]
        exact hmore

/-- The batches do not matter, only the items in them, and whether there are any. -/
theorem outcome_eq_ok_iff_of_flatten_eq (hrequests : Requests request convert items Ready)
    (hservice : ItemByItem service items replies one) {results final : D}
    {batches others : List (List α)} (hflatten : batches.flatten = others.flatten)
    (hempty : batches = [] ↔ others = []) :
    (call request service replies put [] results batches).outcome = .ok final ↔
      (call request service replies put [] results others).outcome = .ok final := by
  rw [outcome_eq_ok_iff hrequests hservice, outcome_eq_ok_iff hrequests hservice, hflatten,
    ne_eq, ne_eq, hempty]

/-- Whatever the service does, the requests sent are those of batches from the front on, and
of all batches if the call returns. -/
theorem sent_prefix (request : List α → Except ε Q) (service : Service ε Q P)
    (replies : P → List R) (put : D → R → Except ε D) (sent : List Q) (results : D)
    (batches : List (List α)) :
    ∃ first messages, first <+: batches ∧ first.mapM request = .ok messages ∧
      (call request service replies put sent results batches).sent = sent ++ messages ∧
      ∀ final, (call request service replies put sent results batches).outcome = .ok final →
        first = batches := by
  induction batches generalizing sent results with
  | nil => exact ⟨[], [], List.prefix_rfl, rfl, (List.append_nil sent).symm, fun _ _ => rfl⟩
  | cons batch rest ih =>
      rw [call]
      split
      -- the request cannot be built, so nothing is sent of the batch
      case h_1 => exact ⟨[], [], List.nil_prefix, rfl, (List.append_nil sent).symm, nofun⟩
      case h_2 message hmessage =>
        have hone : [batch].mapM request = .ok [message] := by
          rw [List.mapM_cons, hmessage]
          rfl
        have hfront : [batch] <+: batch :: rest := ⟨rest, rfl⟩
        split
        case h_1 => exact ⟨[batch], [message], hfront, hone, rfl, nofun⟩
        case h_2 answer hanswer =>
          split
          case h_1 => exact ⟨[batch], [message], hfront, hone, rfl, nofun⟩
          case h_2 mid hmid =>
            obtain ⟨first, messages, hfirst, hmessages, hsent, hall⟩ :=
              ih (sent ++ [message]) mid
            refine ⟨batch :: first, message :: messages,
              List.cons_prefix_cons.mpr ⟨rfl, hfirst⟩, ?_, ?_, fun final h => ?_⟩
            · exact mapM_append_eq_ok_iff.mpr ⟨[message], messages, hone, hmessages, rfl⟩
            · rw [hsent, List.append_assoc, List.singleton_append]
            · rw [hall final h]

end Outcome

/-! ## Requests that can be made of any batch -/

section Total

variable {message : List α → Q} {convert : α → β} {items : Q → List β}

/-- The items of a request are those of the batch, converted. -/
def Carries (message : List α → Q) (convert : α → β) (items : Q → List β) : Prop :=
  ∀ batch, items (message batch) = batch.map convert

theorem mapM_ok (convert : α → β) (batch : List α) :
    batch.mapM (fun item => (.ok (convert item) : Except ε β)) = .ok (batch.map convert) := by
  induction batch with
  | nil => rfl
  | cons item rest ih =>
      rw [List.mapM_cons, ih]
      rfl

theorem Carries.requests (h : Carries message convert items) :
    Requests (fun batch => (.ok (message batch) : Except ε Q)) (fun item => .ok (convert item))
      items True where
  of_ok := by
    intro batch found hfound
    obtain rfl := Except.ok.inj hfound
    exact ⟨by rw [mapM_ok, h batch], trivial⟩
  exists_ok := fun batch _ _ _ => ⟨message batch, rfl⟩

/-- The call returns the replies to the items put together. -/
theorem Carries.outcome_eq_ok_iff {service : Service ε Q P} {replies : P → List R}
    {put : D → R → Except ε D} {one : List β → β → Except ε (List R)}
    (h : Carries message convert items) (hservice : ItemByItem service items replies one)
    {results final : D} {batches : List (List α)} :
    (call (fun batch => .ok (message batch)) service replies put [] results batches).outcome =
        .ok final ↔
      ∃ all, serve one [] (batches.flatten.map convert) = .ok all ∧
        all.foldlM put results = .ok final := by
  rw [Batches.outcome_eq_ok_iff h.requests hservice, mapM_ok]
  constructor
  · rintro ⟨-, converted, all, hconverted, hall, hfinal⟩
    cases hconverted
    exact ⟨all, hall, hfinal⟩
  · rintro ⟨all, hall, hfinal⟩
    exact ⟨fun _ => trivial, _, all, rfl, hall, hfinal⟩

/-- The items that are sent are the first of all items, in order, and all if the call
returns. -/
theorem Carries.sent_prefix (h : Carries message convert items) (service : Service ε Q P)
    (replies : P → List R) (put : D → R → Except ε D) (results : D) (batches : List (List α)) :
    let made := call (fun batch => .ok (message batch)) service replies put [] results batches
    made.sent.flatMap items <+: batches.flatten.map convert ∧
      ∀ final, made.outcome = .ok final →
        made.sent.flatMap items = batches.flatten.map convert := by
  intro made
  obtain ⟨first, messages, ⟨last, hlast⟩, hmessages, hsent, hall⟩ := Batches.sent_prefix
    (fun batch => .ok (message batch)) service replies put [] results batches
  rw [mapM_ok] at hmessages
  obtain rfl := Except.ok.inj hmessages
  have hitems : (first.map message).flatMap items = first.flatten.map convert := by
    rw [List.flatMap_map, List.map_flatten, List.flatMap_def]
    exact congrArg List.flatten (List.map_congr_left fun batch _ => h batch)
  have hmade : made.sent.flatMap items = first.flatten.map convert := by
    rw [hsent, List.nil_append, hitems]
  rw [hmade]
  refine ⟨⟨last.flatten.map convert, ?_⟩, fun final hfinal => ?_⟩
  · rw [← hlast, List.flatten_append, List.map_append]
  · rw [hall final hfinal]

/-- What is sent are requests of batches. -/
theorem mem_sent {service : Service ε Q P} {replies : P → List R} {put : D → R → Except ε D}
    {results : D} {batches : List (List α)} {sent : Q}
    (h : sent ∈ (call (fun batch => .ok (message batch)) service replies put [] results
      batches).sent) : ∃ batch ∈ batches, sent = message batch := by
  obtain ⟨first, messages, hfirst, hmessages, hsent, -⟩ := Batches.sent_prefix
    (fun batch => .ok (message batch)) service replies put [] results batches
  rw [mapM_ok] at hmessages
  obtain rfl := Except.ok.inj hmessages
  rw [hsent, List.nil_append] at h
  obtain ⟨batch, hbatch, rfl⟩ := List.mem_map.mp h
  exact ⟨batch, hfirst.subset hbatch, rfl⟩

end Total

/-! ## One reply to an item -/

/-- Each item has one reply. -/
def single (create : List β → β → Except ε R) (before : List β) (item : β) :
    Except ε (List R) := do
  return [← create before item]

theorem forall₂_of_serve_single {create : List β → β → Except ε R} {before items : List β}
    {replies : List R} (h : serve (single create) before items = .ok replies) :
    List.Forall₂ (fun item reply => ∃ earlier, create earlier item = .ok reply) items replies := by
  induction items generalizing before replies with
  | nil =>
      cases h
      exact .nil
  | cons item rest ih =>
      obtain ⟨first, hfirst, h⟩ := Fallible.bind_eq_ok h
      obtain ⟨others, hothers, h⟩ := Fallible.bind_eq_ok h
      obtain ⟨reply, hreply, hsingle⟩ := Fallible.bind_eq_ok hfirst
      cases hsingle
      cases h
      exact .cons ⟨before, hreply⟩ (ih hothers)

/-- Among the replies there is one to each item, which was served after the items before
it. -/
theorem exists_reply_of_serve_single {create : List β → β → Except ε R} {first after : List β}
    {item : β} {replies : List R}
    (h : serve (single create) [] (first ++ item :: after) = .ok replies) :
    ∃ before reply others, replies = before ++ reply :: others ∧ create first item = .ok reply ∧
      before.length = first.length ∧ others.length = after.length := by
  obtain ⟨before, rest, hbefore, hrest, rfl⟩ := serve_append_eq_ok_iff.mp h
  obtain ⟨head, hhead, hrest⟩ := Fallible.bind_eq_ok hrest
  obtain ⟨others, hothers, hall⟩ := Fallible.bind_eq_ok hrest
  obtain ⟨reply, hreply, hsingle⟩ := Fallible.bind_eq_ok hhead
  cases hsingle
  cases hall
  refine ⟨before, reply, others, rfl, hreply, ?_, ?_⟩
  · exact (forall₂_of_serve_single hbefore).length_eq.symm
  · exact (forall₂_of_serve_single hothers).length_eq.symm

/-! ## Replies put in a map -/

theorem map_eq_map_of_forall₂ {K : Type} {nameOf : β → K} {key : R → K} {items : List β}
    {replies : List R}
    (h : List.Forall₂ (fun item reply => key reply = nameOf item) items replies) :
    replies.map key = items.map nameOf := by
  induction h with
  | nil => rfl
  | cons hitem _ ih => rw [List.map_cons, List.map_cons, hitem, ih]

section Maps

variable {K V : Type} [DecidableEq K]

/-- A reply is converted, and put under its key. -/
def insertReply (key : R → K) (value : R → Except ε V) (map : KeyedMap K V) (reply : R) :
    Except ε (KeyedMap K V) := do
  return map.insert (key reply) (← value reply)

theorem foldlM_insertReply_eq_ok_iff {key : R → K} {value : R → Except ε V} {replies : List R}
    {map final : KeyedMap K V} :
    replies.foldlM (insertReply key value) map = .ok final ↔
      ∃ values, replies.mapM value = .ok values ∧
        final = KeyedMap.collectInto map ((replies.map key).zip values) := by
  induction replies generalizing map with
  | nil =>
      constructor
      · intro h
        cases h
        exact ⟨[], rfl, rfl⟩
      · rintro ⟨values, hvalues, rfl⟩
        cases hvalues
        rfl
  | cons reply rest ih =>
      rw [List.foldlM_cons, List.mapM_cons]
      constructor
      · intro h
        obtain ⟨mid, hmid, h⟩ := Fallible.bind_eq_ok h
        obtain ⟨first, hfirst, hinsert⟩ := Fallible.bind_eq_ok hmid
        cases hinsert
        obtain ⟨values, hvalues, rfl⟩ := ih.mp h
        refine ⟨first :: values, ?_, rfl⟩
        exact Fallible.bind_eq_ok_iff.mpr
          ⟨first, hfirst, Fallible.bind_eq_ok_iff.mpr ⟨values, hvalues, rfl⟩⟩
      · rintro ⟨all, hall, rfl⟩
        obtain ⟨first, hfirst, hall⟩ := Fallible.bind_eq_ok hall
        obtain ⟨values, hvalues, hall⟩ := Fallible.bind_eq_ok hall
        cases hall
        refine Fallible.bind_eq_ok_iff.mpr
          ⟨map.insert (key reply) first, ?_, ih.mpr ⟨values, hvalues, rfl⟩⟩
        exact Fallible.bind_eq_ok_iff.mpr ⟨first, hfirst, rfl⟩

variable {message : List α → Q} {convert : α → β} {items : Q → List β} {service : Service ε Q P}
  {replies : P → List R} {create : List β → β → Except ε R} {key : R → K} {value : R → Except ε V}

/-- The value was made of the reply to the item, which came after those before it. -/
def MadeOf (create : List β → β → Except ε R) (value : R → Except ε V) (before : List β)
    (item : β) (made : V) : Prop :=
  ∃ reply, create before item = .ok reply ∧ value reply = .ok made

/-- A call that puts the reply to each item under the name of the item returns a map with these
names.  Under each name it has what was made of the reply to the last item of that name. -/
structure Creates (items : List β) (nameOf : β → K) (create : List β → β → Except ε R)
    (value : R → Except ε V) (final : KeyedMap K V) : Prop where
  keys : final.keys = (items.map nameOf).toFinset
  made : ∀ before item after, items = before ++ item :: after → nameOf item ∉ after.map nameOf →
    ∃ made, final.lookup (nameOf item) = some made ∧ MadeOf create value before item made

theorem Carries.creates_of_outcome_eq_ok (h : Carries message convert items)
    (hservice : ItemByItem service items replies (single create)) {nameOf : β → K}
    (hname : ∀ earlier item reply, create earlier item = .ok reply → key reply = nameOf item)
    {batches : List (List α)} {final : KeyedMap K V}
    (hok : (call (fun batch => .ok (message batch)) service replies (insertReply key value) [] ∅
      batches).outcome = .ok final) :
    Creates (batches.flatten.map convert) nameOf create value final := by
  obtain ⟨all, hall, hfinal⟩ := (h.outcome_eq_ok_iff hservice).mp hok
  obtain ⟨values, hvalues, rfl⟩ := foldlM_insertReply_eq_ok_iff.mp hfinal
  have hreplies := forall₂_of_serve_single hall
  have hkeys : all.map key = (batches.flatten.map convert).map nameOf :=
    map_eq_map_of_forall₂ (hreplies.imp fun item reply ⟨earlier, hreply⟩ =>
      hname earlier item reply hreply)
  have hlength := (Fallible.mapM_eq_ok_iff.mp hvalues).length_eq
  refine ⟨?_, fun before item after hitems hlast => ?_⟩
  · rw [← KeyedMap.collect, KeyedMap.keys_collect, List.map_fst_zip, hkeys]
    rw [List.length_map, hlength]
  · rw [hitems] at hall hkeys
    obtain ⟨front, reply, others, rfl, hreply, hfront, hothers⟩ :=
      exists_reply_of_serve_single hall
    obtain ⟨made, rest, hmade, hrest, rfl⟩ := mapM_append_eq_ok_iff.mp hvalues
    obtain ⟨first, hfirst, hrest⟩ := Fallible.bind_eq_ok (List.mapM_cons.symm.trans hrest)
    obtain ⟨last, hlastValues, hrest⟩ := Fallible.bind_eq_ok hrest
    cases hrest
    have hsame : (front.map key).length = made.length := by
      rw [List.length_map, (Fallible.mapM_eq_ok_iff.mp hmade).length_eq]
    -- the names of the replies after this one are those of the items after the item
    have hafter : others.map key = after.map nameOf := by
      rw [List.map_append, List.map_append, List.map_cons, List.map_cons] at hkeys
      have hparts := List.append_inj hkeys (by rw [List.length_map, List.length_map, hfront])
      exact (List.cons_eq_cons.mp hparts.2).2
    refine ⟨first, ?_, reply, hreply, hfirst⟩
    rw [List.map_append, List.map_cons, List.zip_append hsame, List.zip_cons_cons,
      hname before item reply hreply]
    refine KeyedMap.lookup_collectInto_of_last (fun hmem => hlast ?_) first ∅
    obtain ⟨pair, hpair, heq⟩ := List.mem_map.mp hmem
    rw [← hafter, ← heq]
    exact (List.of_mem_zip hpair).1

end Maps

/-! ## Asking for what belongs to keys -/

section Asking

variable {K V : Type} [DecidableEq K]

/-- The pairs give every key its value, and are about no other key. -/
structure Answers (asked : List K) (valueOf : K → V) (pairs : List (K × V)) : Prop where
  requested : ∀ pair ∈ pairs, pair.1 ∈ asked
  value : ∀ pair ∈ pairs, pair.2 = valueOf pair.1
  answered : ∀ key ∈ asked, key ∈ pairs.map Prod.fst

/-- The map leads from the keys to their values, and has no other key. -/
structure Keeps (asked : List K) (valueOf : K → V) (map : KeyedMap K V) : Prop where
  keys : map.keys = asked.toFinset
  values : ∀ key ∈ asked, map.lookup key = some (valueOf key)

theorem keeps_nil (valueOf : K → V) : Keeps [] valueOf (∅ : KeyedMap K V) :=
  ⟨Finmap.keys_empty, fun _ hkey => absurd hkey List.not_mem_nil⟩

theorem Keeps.collectInto {seen asked : List K} {valueOf : K → V} {map : KeyedMap K V}
    {pairs : List (K × V)} (hseen : Keeps seen valueOf map) (hpairs : Answers asked valueOf pairs) :
    Keeps (seen ++ asked) valueOf (.collectInto map pairs) where
  keys := by
    ext key
    rw [KeyedMap.mem_keys_collectInto, hseen.keys, List.mem_toFinset, List.mem_toFinset,
      List.mem_append, or_comm]
    refine or_congr_right ⟨fun hkey => ?_, hpairs.answered key⟩
    obtain ⟨pair, hpair, rfl⟩ := List.mem_map.mp hkey
    exact hpairs.requested pair hpair
  values := by
    intro key hkey
    rw [KeyedMap.lookup_collectInto]
    cases hlookup : (KeyedMap.collect pairs).lookup key with
    | some value =>
        have hvalue := hpairs.value _ (KeyedMap.mem_of_lookup_collect hlookup)
        exact congrArg some hvalue
    | none =>
        -- no pair of the key is there, so it was asked for before
        have hnot : key ∉ asked := by
          intro hasked
          have hmem : key ∈ (KeyedMap.collect pairs).keys := by
            rw [KeyedMap.keys_collect]
            exact List.mem_toFinset.mpr (hpairs.answered key hasked)
          obtain ⟨value, hvalue⟩ := Finmap.mem_iff.mp (Finmap.mem_keys.mp hmem)
          cases hlookup.symm.trans hvalue
        rw [hseen.values key ((List.mem_append.mp hkey).resolve_right hnot)]
        rfl

variable {message : List K → Q} {items : Q → List K} {service : Service ε Q P}
  {replies : P → List R} {key : R → K} {value : R → V} {valueOf : K → V}

/-- When every request is answered with the values of its keys, the call returns a map from
all keys to their values. -/
theorem exists_keeps (hmessage : ∀ batch, items (message batch) = batch)
    (hservice : ∀ earlier request, ∃ answer, service earlier request = .ok answer ∧
      Answers (items request) valueOf ((replies answer).map fun reply => (key reply, value reply)))
    {sent : List Q} {results : KeyedMap K V} {seen : List K} (hseen : Keeps seen valueOf results)
    (batches : List (List K)) :
    ∃ final, (call (fun batch => .ok (message batch)) service replies
        (insertReply key fun reply => .ok (value reply)) sent results batches).outcome =
          .ok final ∧ Keeps (seen ++ batches.flatten) valueOf final := by
  induction batches generalizing sent results seen with
  | nil =>
      rw [List.flatten_nil, List.append_nil]
      exact ⟨results, rfl, hseen⟩
  | cons batch rest ih =>
      obtain ⟨answer, hanswer, hpairs⟩ := hservice sent (message batch)
      rw [hmessage] at hpairs
      obtain ⟨final, hfinal, hkeeps⟩ := @ih (sent ++ [message batch]) _ _
        (hseen.collectInto hpairs)
      refine ⟨final, outcome_cons_eq_ok_iff.mpr ⟨_, answer, _, rfl, hanswer, ?_, hfinal⟩, ?_⟩
      · refine foldlM_insertReply_eq_ok_iff.mpr ⟨_, mapM_ok value _, ?_⟩
        rw [List.zip_map']
      · rw [List.flatten_cons, ← List.append_assoc]
        exact hkeeps

end Asking

end Batches
