import ArmoniKApi.Proto.Results

/-!
# The notification of results in the Rust client

On the wire a `NotifyResultDataRequest` pairs every result id with a session id.
The domain type has one session id for all of the results, which the conversion
from the wire takes from the first pair.  So a request comes back from the
domain when its results are all in one session, and a request of the domain
comes back from the wire when it names a result, or no session.

```text
   wire                        domain                      wire again
   ("first", "a")              session "first"             ("first", "a")
   ("second", "b")             results "a", "b"            ("first", "b")
```

* `collectIds_eq`: the closure of the source remembers the session of the first identifier, by
  induction on the identifiers.
* `toV3_ofV3_ids`: so every result is moved to that session.
* `toV3_ofV3_ids_iff`, `ofV3_toV3_iff`: when nothing changes, on either side.
-/

namespace ArmoniKApi.Rust

/-- `notify_result_data::Request`. -/
structure NotifyRequest where
  communicationToken : String
  sessionId : String
  resultIds : List String
  deriving DecidableEq, Repr

namespace NotifyRequest

/-- `From<Request>`: every result id with the one session id. -/
def toV3 (value : NotifyRequest) : Proto.NotifyResultDataRequest where
  ids := value.resultIds.map fun resultId => ⟨value.sessionId, resultId⟩
  communicationToken := value.communicationToken

/-- The closure over `session_id`, called on one identifier after the other. -/
def collectIds : Option String → List Proto.ResultIdentifier → Option String × List String
  | sessionId, [] => (sessionId, [])
  | sessionId, id :: rest =>
      let sessionId := if sessionId.isNone then some id.sessionId else sessionId
      let (sessionId, resultIds) := collectIds sessionId rest
      (sessionId, id.resultId :: resultIds)

/-- `From<v3::agent::NotifyResultDataRequest>`: the session id of the first identifier, if
there is one, and the result ids of all. -/
def ofV3 (value : Proto.NotifyResultDataRequest) : NotifyRequest :=
  let (sessionId, resultIds) := collectIds none value.ids
  { communicationToken := value.communicationToken
    sessionId := sessionId.getD ""
    resultIds := resultIds }

/-! ## What the conversions keep -/

/-- The session id is that of the first identifier, once there is one. -/
theorem collectIds_eq (sessionId : Option String) (ids : List Proto.ResultIdentifier) :
    collectIds sessionId ids =
      (sessionId.or (ids.head?.map Proto.ResultIdentifier.sessionId),
        ids.map Proto.ResultIdentifier.resultId) := by
  induction ids generalizing sessionId with
  | nil => simp [collectIds]
  | cons id rest ih =>
      rw [collectIds, ih]
      cases sessionId <;> rfl

/-- The session of a request: that of its first identifier. -/
def firstSession (ids : List Proto.ResultIdentifier) : String :=
  (ids.head?.map Proto.ResultIdentifier.sessionId).getD ""

theorem ofV3_eq (value : Proto.NotifyResultDataRequest) :
    ofV3 value = ⟨value.communicationToken, firstSession value.ids,
      value.ids.map Proto.ResultIdentifier.resultId⟩ := by
  unfold ofV3
  rw [collectIds_eq, Option.none_or]
  rfl

/-- Every result is moved to the session of the first one. -/
theorem toV3_ofV3_ids (value : Proto.NotifyResultDataRequest) :
    (ofV3 value).toV3.ids =
      value.ids.map fun id => ⟨firstSession value.ids, id.resultId⟩ := by
  rw [ofV3_eq, toV3, List.map_map]
  rfl

/-- The results are all in one session. -/
def OneSession (ids : List Proto.ResultIdentifier) : Prop :=
  ∀ first ∈ ids, ∀ second ∈ ids, first.sessionId = second.sessionId

theorem oneSession_iff (ids : List Proto.ResultIdentifier) :
    OneSession ids ↔ ∀ id ∈ ids, id.sessionId = firstSession ids := by
  cases ids with
  | nil => simp [OneSession]
  | cons first rest =>
      constructor
      · intro hone id hid
        exact hone id hid first (List.mem_cons_self ..)
      · intro hfirst id hid other hother
        exact (hfirst id hid).trans (hfirst other hother).symm

theorem toV3_ofV3_ids_iff (value : Proto.NotifyResultDataRequest) :
    (ofV3 value).toV3.ids = value.ids ↔ OneSession value.ids := by
  rw [toV3_ofV3_ids, oneSession_iff]
  constructor
  · intro hsame id hid
    have hid := List.map_inj_left.mp (hsame.trans (List.map_id value.ids).symm) id hid
    exact (congrArg Proto.ResultIdentifier.sessionId hid).symm
  · intro hsession
    refine (List.map_congr_left fun id hid => ?_).trans (List.map_id value.ids)
    exact congrArg (Proto.ResultIdentifier.mk · id.resultId) (hsession id hid).symm

theorem firstSession_toV3 (value : NotifyRequest) (hids : value.resultIds ≠ []) :
    firstSession value.toV3.ids = value.sessionId := by
  obtain ⟨id, rest, hcons⟩ := List.exists_cons_of_ne_nil hids
  rw [toV3, hcons]
  rfl

/-- A domain request comes back with its token and its results.  Its session is the
one that the identifiers on the wire have. -/
theorem ofV3_toV3 (value : NotifyRequest) :
    ofV3 value.toV3 = { value with sessionId := firstSession value.toV3.ids } := by
  have hids : value.toV3.ids.map Proto.ResultIdentifier.resultId = value.resultIds := by
    simp [toV3, Function.comp_def]
  rw [ofV3_eq, hids]
  rfl

theorem ofV3_toV3_iff (value : NotifyRequest) :
    ofV3 value.toV3 = value ↔ value.resultIds ≠ [] ∨ value.sessionId = "" := by
  have hback := ofV3_toV3 value
  by_cases hempty : value.resultIds = []
  · have hnone : firstSession value.toV3.ids = "" := by
      rw [toV3, hempty]
      rfl
    rw [hback, hnone]
    constructor
    · intro hsame
      exact Or.inr (congrArg sessionId hsame).symm
    · rintro (hids | hsession)
      · exact absurd hempty hids
      · exact congrArg (NotifyRequest.mk value.communicationToken · value.resultIds) hsession.symm
  · rw [hback, firstSession_toV3 value hempty]
    exact ⟨fun _ => Or.inl hempty, fun _ => rfl⟩

/-- A wire request comes back, but for the session ids: every result is put in
the session of the first, so the identifiers are the same exactly when they are
all of one session.  A domain request comes back with its token and its result ids,
and as it was exactly when it names a result or no session. -/
theorem notify_result_data_kept (value : Proto.NotifyResultDataRequest) (request : NotifyRequest) :
    (ofV3 value).toV3.communicationToken = value.communicationToken ∧
      ((ofV3 value).toV3.ids =
        value.ids.map fun id => ⟨firstSession value.ids, id.resultId⟩) ∧
      ((ofV3 value).toV3.ids = value.ids ↔ OneSession value.ids) ∧
      (ofV3 request.toV3).communicationToken = request.communicationToken ∧
      (ofV3 request.toV3).resultIds = request.resultIds ∧
      (ofV3 request.toV3 = request ↔ request.resultIds ≠ [] ∨ request.sessionId = "") := by
  refine ⟨?_, toV3_ofV3_ids value, toV3_ofV3_ids_iff value, ?_, ?_, ofV3_toV3_iff request⟩
  · rw [ofV3_eq]
    rfl
  · rw [ofV3_toV3]
  · rw [ofV3_toV3]

/-- The second result of two sessions is moved to the first, and a request
without results loses its session. -/
theorem notify_result_data_moves_result :
    (ofV3 ⟨[⟨"first", "a"⟩, ⟨"second", "b"⟩], "token"⟩).toV3.ids =
        [⟨"first", "a"⟩, ⟨"first", "b"⟩] ∧
      ¬ (ofV3 ⟨[⟨"first", "a"⟩, ⟨"second", "b"⟩], "token"⟩).toV3.ids =
        [⟨"first", "a"⟩, ⟨"second", "b"⟩] ∧
      ¬ ofV3 (toV3 ⟨"token", "session", []⟩) = ⟨"token", "session", []⟩ := by
  decide

end NotifyRequest

end ArmoniKApi.Rust
