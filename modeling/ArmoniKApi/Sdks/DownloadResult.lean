import ArmoniKApi.Proto.Submitter

/-!
# Downloading the data of a result in C++ and C#

The legacy clients read the data of a result from a stream of replies.  A reply
holds a chunk, an error, or the id of a task that is not completed, and a chunk
holds data or the mark that the data is complete.

The C++ client remembers whether the last chunk was the mark, and throws when the
stream ends without it (`getResultAsync_eq_ok_iff`).  The C# client appends what
the accessor of the data returns and looks at nothing else, so that it returns
truncated data (`getResultAsync_agree_iff`).

```text
   replies                             C++             C#
   data "a", data "b", complete        "ab"            "ab"
   data "a"                            throws          "a"
   data "a", task not completed        throws          throws
```

## Strategy

Both loops are a `foldlM` over the replies, whose body fails at some replies and otherwise
changes the variables.  `foldlM_eq_ok_iff` is the rule for such a loop: it comes to its end
if the body takes every reply, and then the variables are those of a plain fold.

* `readReply_eq_ok_iff`, one for each client: which replies the body takes.
* `markedAfter`: whether the last reply was the mark, which is what the C++ client remembers.
* `getResultAsync_eq_ok_iff`, one for each client: what is returned, and from which replies.
* `getResultAsync_names_task`: the text of the exception has the id of the task in it.
-/

namespace ArmoniKApi

open Proto (Bytes DataChunk ResultReply TaskError TaskStatus)

/-! ## Complete downloads -/

namespace Proto.ResultReply

/-- The reply holds a chunk, which may be unset. -/
def IsResult (reply : ResultReply) : Prop := ∃ chunk, reply.type = some (.result chunk)

/-- The reply holds a chunk that is set. -/
def IsChunk (reply : ResultReply) : Prop := ∃ chunk, reply.type = some (.result ⟨some chunk⟩)

/-- The reply is the mark that the data is complete. -/
def isMark : ResultReply → Bool
  | ⟨some (.result ⟨some (.dataComplete _)⟩)⟩ => true
  | _ => false

/-- The data that a reply brings. -/
def data : ResultReply → Bytes
  | ⟨some (.result chunk)⟩ => chunk.data
  | _ => []

theorem IsChunk.isResult {reply : ResultReply} (hchunk : reply.IsChunk) : reply.IsResult := by
  obtain ⟨chunk, hchunk⟩ := hchunk
  exact ⟨_, hchunk⟩

end Proto.ResultReply

open Proto.ResultReply (IsResult IsChunk isMark)

/-- A loop that fails at the first reply that its body does not take, and that
goes on from what the body makes of the others. -/
theorem foldlM_eq_ok_iff {S A E : Type} {turn : S → A → Except E S} {Takes : A → Prop}
    {next : S → A → S} (hturn : ∀ s a s', turn s a = .ok s' ↔ Takes a ∧ s' = next s a)
    (items : List A) (s final : S) :
    items.foldlM turn s = .ok final ↔ (∀ a ∈ items, Takes a) ∧ final = items.foldl next s := by
  induction items generalizing s with
  | nil =>
      refine ⟨fun h => ?_, fun ⟨_, hfinal⟩ => hfinal ▸ rfl⟩
      cases h
      exact ⟨List.forall_mem_nil _, rfl⟩
  | cons a rest ih =>
      rw [List.foldlM_cons, List.foldl_cons, List.forall_mem_cons]
      cases h : turn s a with
      | error e =>
          refine ⟨fun hfinal => (by cases hfinal), fun ⟨⟨htakes, _⟩, _⟩ => ?_⟩
          rw [(hturn _ _ _).mpr ⟨htakes, rfl⟩] at h
          cases h
      | ok s' =>
          obtain ⟨htakes, rfl⟩ := (hturn _ _ _).mp h
          refine (ih _).trans ?_
          rw [and_iff_right htakes]

/-- The data of all replies, in their order. -/
def downloaded (replies : List ResultReply) : Bytes :=
  (replies.map Proto.ResultReply.data).flatten

/-- The last reply is the mark. -/
def EndsWithMark (replies : List ResultReply) : Prop :=
  ∃ mark ∈ replies.getLast?, isMark mark = true

/-- The stream brings all of the data: chunks and nothing else, and the mark at
its end. -/
structure Complete (replies : List ResultReply) (data : Bytes) : Prop where
  chunks : ∀ reply ∈ replies, IsChunk reply
  mark : EndsWithMark replies
  data : data = downloaded replies

/-! ## C++ -/

namespace Cpp

/-- `TaskStatus_Name`, which is empty for a number that it does not know. -/
def taskStatusName (number : Int) : String :=
  if number = TaskStatus.unspecified.number then "TASK_STATUS_UNSPECIFIED"
  else if number = TaskStatus.creating.number then "TASK_STATUS_CREATING"
  else if number = TaskStatus.submitted.number then "TASK_STATUS_SUBMITTED"
  else if number = TaskStatus.dispatched.number then "TASK_STATUS_DISPATCHED"
  else if number = TaskStatus.completed.number then "TASK_STATUS_COMPLETED"
  else if number = TaskStatus.error.number then "TASK_STATUS_ERROR"
  else if number = TaskStatus.timeout.number then "TASK_STATUS_TIMEOUT"
  else if number = TaskStatus.cancelling.number then "TASK_STATUS_CANCELLING"
  else if number = TaskStatus.cancelled.number then "TASK_STATUS_CANCELLED"
  else if number = TaskStatus.processing.number then "TASK_STATUS_PROCESSING"
  else if number = TaskStatus.processed.number then "TASK_STATUS_PROCESSED"
  else if number = TaskStatus.retried.number then "TASK_STATUS_RETRIED"
  else if number = TaskStatus.pending.number then "TASK_STATUS_PENDING"
  else if number = TaskStatus.paused.number then "TASK_STATUS_PAUSED"
  else ""

/-- `ArmoniKApiException` and the two classes derived from it. -/
inductive ArmoniKException
  | api (message : String)
  | taskError (message : String) (error : TaskError)
  | taskNotCompleted (taskId : String) (message : String)
  deriving DecidableEq, Repr

/-- `what()`. -/
def ArmoniKException.what : ArmoniKException → String
  | .api message => message
  | .taskError message error =>
    let details := error.errors.map fun e =>
      "\n" ++ taskStatusName e.taskStatus ++ " : " ++ e.detail
    message ++ " : " ++ "TaskId : " ++ error.taskId ++ " Errors : " ++ String.join details
  | .taskNotCompleted taskId message => "Task " ++ taskId ++ " not completed. " ++ message

namespace SubmitterClient

/-- The variables of the loop of `get_result_async`. -/
structure Download where
  resultData : Proto.Bytes
  dataComplete : Bool

/-- The body of the loop. -/
def readReply (download : Download) (reply : ResultReply) : Except ArmoniKException Download :=
  match reply.type with
  | some (.result result) =>
    match result.type with
    | some (.data data) => .ok ⟨download.resultData ++ data, false⟩
    | some (.dataComplete _) => .ok { download with dataComplete := true }
    | none => .error (.api "Issue with server, invalid data chunk")
  | some (.error error) => .error (.taskError "Can't get result because it's in error" error)
  | some (.notCompletedTask taskId) => .error (.taskNotCompleted taskId "")
  | none => .error (.api "Issue with server, invalid reply")

/-- `get_result_async`, on the replies that `Read` finds. -/
def getResultAsync (replies : List ResultReply) : Except ArmoniKException Proto.Bytes := do
  let download ← replies.foldlM readReply ⟨[], false⟩
  if !download.dataComplete then
    throw (.api "Retrieved data is incomplete")
  return download.resultData

/-- What a chunk makes of the variables. -/
def Download.next (download : Download) (reply : ResultReply) : Download :=
  ⟨download.resultData ++ reply.data, isMark reply⟩

/-- One turn goes on exactly over a chunk. -/
theorem readReply_eq_ok_iff (download : Download) (reply : ResultReply) (next : Download) :
    readReply download reply = .ok next ↔ IsChunk reply ∧ next = download.next reply := by
  rcases reply with ⟨_ | ⟨⟨_ | ⟨data | dataComplete⟩⟩⟩ | error | taskId⟩
  case none | some.error | some.notCompletedTask | some.result.none =>
    refine ⟨fun h => (by cases h), fun h => ?_⟩
    obtain ⟨⟨_, hchunk⟩, _⟩ := h
    cases hchunk
  case some.result.some.data =>
    refine ⟨fun h => ?_, fun ⟨_, hnext⟩ => hnext ▸ rfl⟩
    cases h
    exact ⟨⟨_, rfl⟩, rfl⟩
  case some.result.some.dataComplete =>
    have hempty : download.resultData ++ [] = download.resultData := List.append_nil _
    refine ⟨fun h => ?_, fun ⟨_, hnext⟩ => ?_⟩
    · cases h
      exact ⟨⟨_, rfl⟩, congrArg (Download.mk · true) hempty.symm⟩
    · rw [hnext]
      exact congrArg (fun data => Except.ok (Download.mk data true)) hempty.symm

/-- The mark at the end of the replies, or what was known before them. -/
def markedAfter (before : Bool) (replies : List ResultReply) : Bool :=
  (replies.getLast?.map isMark).getD before

theorem markedAfter_cons (before : Bool) (reply : ResultReply) (rest : List ResultReply) :
    markedAfter before (reply :: rest) = markedAfter (isMark reply) rest := by
  unfold markedAfter
  rw [List.getLast?_cons]
  cases rest.getLast? <;> rfl

theorem markedAfter_false_iff (replies : List ResultReply) :
    markedAfter false replies = true ↔ EndsWithMark replies := by
  unfold markedAfter EndsWithMark
  cases replies.getLast? with
  | none => simp
  | some last => simp

theorem foldl_next (replies : List ResultReply) (download : Download) :
    replies.foldl Download.next download =
      ⟨download.resultData ++ downloaded replies,
        markedAfter download.dataComplete replies⟩ := by
  induction replies generalizing download with
  | nil => exact congrArg (Download.mk · download.dataComplete) (List.append_nil _).symm
  | cons reply rest ih =>
      have hdata : downloaded (reply :: rest) = reply.data ++ downloaded rest := rfl
      rw [List.foldl_cons, ih, hdata, markedAfter_cons, ← List.append_assoc]
      rfl

/-- The loop comes to its end exactly over chunks, with the data of all of them
and the mark of the last one. -/
theorem readReplies_eq_ok_iff (replies : List ResultReply) (final : Download) :
    replies.foldlM readReply ⟨[], false⟩ = .ok final ↔
      (∀ reply ∈ replies, IsChunk reply) ∧
        final = ⟨downloaded replies, markedAfter false replies⟩ := by
  refine (foldlM_eq_ok_iff readReply_eq_ok_iff replies ⟨[], false⟩ final).trans ?_
  rw [foldl_next]
  rfl

theorem getResultAsync_eq_ok_iff (replies : List ResultReply) (data : Proto.Bytes) :
    getResultAsync replies = .ok data ↔ Complete replies data := by
  unfold getResultAsync
  cases hloop : replies.foldlM readReply ⟨[], false⟩ with
  | error e =>
      refine ⟨fun h => (by cases h), fun hcomplete => ?_⟩
      rw [(readReplies_eq_ok_iff _ _).mpr ⟨hcomplete.chunks, rfl⟩] at hloop
      cases hloop
  | ok final =>
      obtain ⟨hchunks, rfl⟩ := (readReplies_eq_ok_iff _ _).mp hloop
      have hmarked := markedAfter_false_iff replies
      cases hmark : markedAfter false replies with
      | false =>
          refine ⟨fun h => (by cases h), fun hcomplete => ?_⟩
          rw [hmarked.mpr hcomplete.mark] at hmark
          cases hmark
      | true =>
          refine ⟨fun h => ?_, fun hcomplete => ?_⟩
          · cases h
            exact ⟨hchunks, hmarked.mp hmark, rfl⟩
          · rw [hcomplete.data]
            rfl

/-! ### The exception -/

/-- The task that a reply is about, when it brings no result. -/
def taskId? (reply : ResultReply) : Option String :=
  match reply.type with
  | some (.error error) => some error.taskId
  | some (.notCompletedTask taskId) => some taskId
  | _ => none

theorem taskId_infix_what {download : Download} {reply : ResultReply} {e : ArmoniKException}
    (h : readReply download reply = .error e) {taskId : String}
    (htask : taskId ∈ taskId? reply) : taskId.toList <:+: e.what.toList := by
  rcases reply with ⟨_ | ⟨⟨_ | ⟨data | dataComplete⟩⟩⟩ | error | other⟩
  case none | some.result.none | some.result.some.data | some.result.some.dataComplete =>
    cases htask
  case some.error =>
    cases h
    obtain rfl : error.taskId = taskId := Option.some.inj htask
    simp only [ArmoniKException.what, String.toList_append]
    exact (List.infix_append _ _ _).trans (List.prefix_append ..).isInfix
  case some.notCompletedTask =>
    cases h
    obtain rfl : other = taskId := Option.some.inj htask
    simp only [ArmoniKException.what, String.toList_append]
    exact (List.infix_append _ _ _).trans (List.prefix_append ..).isInfix

/-- The text of the exception names the task, when the first reply that is not a chunk is about
one. -/
theorem getResultAsync_names_task {before after : List ResultReply} {reply : ResultReply}
    (hbefore : ∀ chunk ∈ before, IsChunk chunk) {taskId : String}
    (htask : taskId ∈ taskId? reply) :
    ∃ e, getResultAsync (before ++ reply :: after) = .error e ∧
      taskId.toList <:+: e.what.toList := by
  have hnot : ¬IsChunk reply := by
    rintro ⟨chunk, hchunk⟩
    unfold taskId? at htask
    rw [hchunk] at htask
    cases htask
  -- the loop goes on up to the reply
  obtain ⟨reached, hreached⟩ : ∃ reached, before.foldlM readReply ⟨[], false⟩ = .ok reached :=
    ⟨_, (foldlM_eq_ok_iff readReply_eq_ok_iff before ⟨[], false⟩ _).mpr ⟨hbefore, rfl⟩⟩
  cases hturn : readReply reached reply with
  | ok next => exact absurd ((readReply_eq_ok_iff _ _ _).mp hturn).1 hnot
  | error e =>
      refine ⟨e, ?_, taskId_infix_what hturn htask⟩
      rw [getResultAsync, List.foldlM_append, hreached]
      change (readReply reached reply >>= fun next => after.foldlM readReply next) >>= _ = _
      rw [hturn]
      rfl

/-- Data is returned exactly from a complete download, and an exception is thrown
from any other. -/
theorem download_complete_or_throws (replies : List ResultReply) :
    (∀ data, getResultAsync replies = .ok data ↔ Complete replies data) ∧
      ((∃ e, getResultAsync replies = .error e) ↔ ¬∃ data, Complete replies data) := by
  refine ⟨getResultAsync_eq_ok_iff replies, ?_⟩
  cases h : getResultAsync replies with
  | error e =>
      refine ⟨fun _ ⟨data, hcomplete⟩ => ?_, fun _ => ⟨e, rfl⟩⟩
      rw [(getResultAsync_eq_ok_iff _ _).mpr hcomplete] at h
      cases h
  | ok data =>
      refine ⟨fun ⟨_, he⟩ => (by cases he), fun hincomplete => ?_⟩
      exact absurd ⟨data, (getResultAsync_eq_ok_iff _ _).mp h⟩ hincomplete

end SubmitterClient

end Cpp

/-! ## C# -/

namespace CSharp.SubmitterClientExt

/-- The body of the loop of `GetResultAsync`.  An exception is its message. -/
def readReply (result : Bytes) (reply : ResultReply) : Except String Bytes :=
  match reply.type with
  | some (.result chunk) =>
    if !chunk.dataComplete then .ok (result ++ chunk.data) else .ok result
  | none => .error "Issue with Server !"
  | some (.error error) => .error s!"Error in task {error.taskId}"
  | some (.notCompletedTask taskId) => .error s!"Task {taskId} not completed"

/-- `GetResultAsync`, on the replies of a stream that ends without an error. -/
def getResultAsync (replies : List ResultReply) : Except String Bytes :=
  replies.foldlM readReply []

/-- One turn goes on over every result, also one without a chunk. -/
theorem readReply_eq_ok_iff (result : Bytes) (reply : ResultReply) (next : Bytes) :
    readReply result reply = .ok next ↔ IsResult reply ∧ next = result ++ reply.data := by
  rcases reply with ⟨_ | chunk | error | taskId⟩
  case none | some.error | some.notCompletedTask =>
    refine ⟨fun h => (by cases h), fun h => ?_⟩
    obtain ⟨⟨_, hresult⟩, _⟩ := h
    cases hresult
  case some.result =>
    have hturn : readReply result ⟨some (.result chunk)⟩ = .ok (result ++ chunk.data) := by
      rcases chunk with ⟨_ | ⟨data | ⟨_ | _⟩⟩⟩
      -- Where the mark is set, the accessor of the data returns no bytes.
      case some.dataComplete.true => exact congrArg Except.ok (List.append_nil result).symm
      all_goals rfl
    rw [hturn]
    refine ⟨fun h => ?_, fun ⟨_, hnext⟩ => hnext ▸ rfl⟩
    cases h
    exact ⟨⟨chunk, rfl⟩, rfl⟩

theorem foldl_append_data (replies : List ResultReply) (result : Bytes) :
    replies.foldl (fun result reply => result ++ reply.data) result =
      result ++ downloaded replies := by
  induction replies generalizing result with
  | nil => exact (List.append_nil result).symm
  | cons reply rest ih =>
      have hdata : downloaded (reply :: rest) = reply.data ++ downloaded rest := rfl
      rw [List.foldl_cons, ih, hdata, List.append_assoc]

/-- Data is returned from every stream of results, whole or not. -/
theorem getResultAsync_eq_ok_iff (replies : List ResultReply) (data : Bytes) :
    getResultAsync replies = .ok data ↔
      (∀ reply ∈ replies, IsResult reply) ∧ data = downloaded replies := by
  refine (foldlM_eq_ok_iff readReply_eq_ok_iff replies [] data).trans ?_
  rw [foldl_append_data]
  rfl

end CSharp.SubmitterClientExt

/-! ## Both clients -/

/-- The two clients return data from the same streams, and the same data. -/
def AgreeOn (replies : List ResultReply) : Prop :=
  ∀ data, CSharp.SubmitterClientExt.getResultAsync replies = .ok data ↔
    Cpp.SubmitterClient.getResultAsync replies = .ok data

/-- The clients agree on a stream that has something else than results, where both
throw, and on a stream that ends as it should. -/
theorem getResultAsync_agree_iff (replies : List ResultReply) :
    AgreeOn replies ↔
      (∃ reply ∈ replies, ¬IsResult reply) ∨
        (∀ reply ∈ replies, IsChunk reply) ∧ EndsWithMark replies := by
  unfold AgreeOn
  simp only [CSharp.SubmitterClientExt.getResultAsync_eq_ok_iff,
    Cpp.SubmitterClient.getResultAsync_eq_ok_iff]
  constructor
  · intro hagree
    by_cases hother : ∃ reply ∈ replies, ¬IsResult reply
    · exact Or.inl hother
    · have hresults : ∀ reply ∈ replies, IsResult reply :=
        fun reply hmem => Classical.byContradiction fun h => hother ⟨reply, hmem, h⟩
      have hcomplete := (hagree _).mp ⟨hresults, rfl⟩
      exact Or.inr ⟨hcomplete.chunks, hcomplete.mark⟩
  · rintro (⟨reply, hmem, hother⟩ | ⟨hchunks, hmark⟩) data
    · refine ⟨fun h => absurd (h.1 reply hmem) hother, fun hcomplete => ?_⟩
      exact absurd (hcomplete.chunks reply hmem).isResult hother
    · refine ⟨fun h => ⟨hchunks, hmark, h.2⟩, fun hcomplete => ⟨?_, hcomplete.data⟩⟩
      exact fun reply hmem => (hchunks reply hmem).isResult

/-- A stream that is cut after its first chunk: the C# client returns the data of
the chunk, and the C++ client throws. -/
theorem agreeOn_truncated :
    let replies : List ResultReply := [⟨some (.result ⟨some (.data [104, 105])⟩)⟩]
    CSharp.SubmitterClientExt.getResultAsync replies = .ok [104, 105] ∧
      Cpp.SubmitterClient.getResultAsync replies =
        .error (.api "Retrieved data is incomplete") ∧
      ¬∀ replies, AgreeOn replies := by
  refine ⟨rfl, rfl, fun hagree => ?_⟩
  have h := (hagree [⟨some (.result ⟨some (.data [104, 105])⟩)⟩] [104, 105]).mp rfl
  cases h

end ArmoniKApi
