import ArmoniKApi.Cpp.TaskHandlerStream
import ArmoniKApi.Sdks.ResultFiles

/-!
# What a C++ worker says to its agent

A worker creates tasks, sends results and creates results without data.  The
agent knows the worker by the communication token of the request to process a
task, which every message is to carry, and a message about results also names the
session.

`create_tasks_async` and `send_result` set the token on every message.
`get_result_ids` sets the session and forgets the token
(`taskHandler_messages_carry_token_iff`).

## Strategy

The agent is a function of all the messages it has received, so that it may answer as it
likes, refuse, or remember.  An operation may stop in the middle: an exception leaves the
messages that were sent before it.

`Says` is the specification of one operation: it sends at least one message, all with one
token, and all of them name the session.  That it sends one at least matters for the converse,
since an operation that sends nothing would forget nothing.  Each of the three operations has
its lemma (`createTasksAsync_says`, `sendResult_says`, `getResultIds_says`), and
`performAll_says` goes through a sequence, over the messages and the files that are left behind.

`Serves` ties the handler to the request it was made from; the token and the session are
copied in the constructor and never change.  `forall_token_iff` then reduces all messages of
all operations to the tokens of the operations.
-/

namespace ArmoniKApi.Cpp

open Proto (ProcessRequest TaskRequest TaskOptions NotifyResultDataRequest payloadChunks)
open Proto.Agent (CreateTaskRequest CreateTaskReply CreateResultsMetaDataRequest ResultCreate
  ResultMetaData)
open Loop (Returns)

/-! ## Messages to the agent -/

/-- A message to the agent. -/
inductive AgentMessage
  | createTask (request : CreateTaskRequest)
  | notifyResultData (request : NotifyResultDataRequest)
  | createResultsMetaData (request : CreateResultsMetaDataRequest)

namespace AgentMessage

/-- The token on a message. -/
def communicationToken : AgentMessage → String
  | .createTask request => request.communicationToken
  | .notifyResultData request => request.communicationToken
  | .createResultsMetaData request => request.communicationToken

/-- The session ids in a message, or in the identifiers that it holds. -/
def sessionIds : AgentMessage → List String
  | .createTask _ => []
  | .notifyResultData request => request.ids.map fun id => id.sessionId
  | .createResultsMetaData request => [request.sessionId]

end AgentMessage

/-- What an agent answers, given all the messages it has received. -/
structure Agent where
  createTask : List AgentMessage → Except Status CreateTaskReply
  notifyResultData : List AgentMessage → Except Status (List String)
  createResultsMetaData : List AgentMessage → Except Status (List ResultMetaData)

/-- The files, and the messages that the agent has received. -/
structure Surroundings where
  files : Folder SlashPath UInt8
  received : List AgentMessage

namespace TaskHandler

variable (agent : Agent) (handler : TaskHandler)

/-! ## The operations

Each returns what it leaves behind, and its result or the message of its
exception. -/

/-- `create_tasks_async`. -/
def createTasksAsync (taskOptions : TaskOptions) (taskRequests : List TaskRequest)
    (world : Surroundings) (turns : ℕ) : Option (Surroundings × Except String CreateTaskReply) := do
  let chunk := sizeT handler.config.dataChunkMaxSize
  let createTaskRequestAsync ←
    toRequestStream taskRequests taskOptions handler.token chunk turns
  let received :=
    world.received ++ createTaskRequestAsync.flatten.map AgentMessage.createTask
  let outcome :=
    match agent.createTask received with
    | .error status =>
        .error ("Error: " ++ toString status.errorCode ++ ": " ++ status.errorMessage ++
          ". details : " ++ status.errorDetails ++ "\n")
    | .ok reply => .ok reply
  return ({ world with received := received }, outcome)

/-- `send_result`, with any key. -/
def sendResult (key : String) (data : Bytes) (world : Surroundings) :
    Option (Surroundings × Except String Unit) := do
  let path ← pathJoin handler.dataFolder key
  let files := Folder.write .truncate world.files (SlashPath.ofChars path.toList) data
  let request : NotifyResultDataRequest :=
    { ids := [⟨handler.sessionId, key⟩], communicationToken := handler.token }
  let received := world.received ++ [.notifyResultData request]
  let outcome :=
    match agent.notifyResultData received with
    | .error status =>
        .error ("Error: " ++ toString status.errorCode ++ ": " ++ status.errorMessage ++
          ". details: " ++ status.errorDetails ++ "\n")
    | .ok resultIds =>
        if resultIds.length ≠ 1 then .error "Received erroneous reply for send data" else .ok ()
  return ({ files, received }, outcome)

/-- `get_result_ids`.  A field that is not set is empty. -/
def getResultIds (results : List ResultCreate) (world : Surroundings) :
    Surroundings × Except String (List String) :=
  let request : CreateResultsMetaDataRequest :=
    { results := results, sessionId := handler.sessionId, communicationToken := "" }
  let received := world.received ++ [.createResultsMetaData request]
  let outcome :=
    match agent.createResultsMetaData received with
    | .error status => .error status.errorMessage
    | .ok results => .ok (results.map fun result => result.resultId)
  ({ world with received := received }, outcome)

/-- Where the key is the id of a result, this is the send of a worker that writes
result files. -/
theorem sendResult_resultId (agent : Agent) (handler : TaskHandler) (key : ResultId) (data : Bytes)
    (world : Surroundings) :
    let request : NotifyResultDataRequest := ⟨[⟨handler.sessionId, key.text⟩], handler.token⟩
    let answer := agent.notifyResultData (world.received ++ [.notifyResultData request])
    (handler.sendResult agent key.text data world).map (fun sent => (sent.1.files, sent.2)) =
      (Cpp.sendResult (fun _ => answer) ⟨handler.sessionId, handler.token, handler.dataFolder⟩ key
        data ⟨world.files, []⟩).map fun sent => (sent.1.files, sent.2) := by
  unfold sendResult Cpp.sendResult
  cases pathJoin handler.dataFolder key.text with
  | none => rfl
  | some path => rfl

/-! ## Sequences of operations -/

/-- A call on the handler. -/
inductive Operation
  | createTasksAsync (taskOptions : TaskOptions) (taskRequests : List TaskRequest)
  | sendResult (key : String) (data : Bytes)
  | getResultIds (results : List ResultCreate)

/-- One operation, whose exception is caught. -/
def perform (operation : Operation) (world : Surroundings) (turns : ℕ) : Option Surroundings :=
  match operation with
  | .createTasksAsync taskOptions taskRequests =>
      (handler.createTasksAsync agent taskOptions taskRequests world turns).map Prod.fst
  | .sendResult key data => (handler.sendResult agent key data world).map Prod.fst
  | .getResultIds results => some (handler.getResultIds agent results world).1

/-- One operation after the other. -/
def performAll : List Operation → Surroundings → ℕ → Option Surroundings
  | [], world, _ => some world
  | operation :: rest, world, turns => do
      let world ← perform agent handler operation world turns
      performAll rest world turns

/-- The token on the messages of an operation. -/
def tokenOf : Operation → String
  | .createTasksAsync _ _ | .sendResult _ _ => handler.token
  | .getResultIds _ => ""

/-- The messages of an operation: there is one at least, all have the same token,
and they name the session of the handler. -/
structure Says (operation : Operation) (messages : List AgentMessage) : Prop where
  some : messages ≠ []
  token : ∀ message ∈ messages, message.communicationToken = tokenOf handler operation
  session : ∀ message ∈ messages, ∀ id ∈ message.sessionIds, id = handler.sessionId

variable {agent handler}

theorem createTasksAsync_says (hsize : 1 ≤ sizeT handler.config.dataChunkMaxSize)
    (taskOptions : TaskOptions) (taskRequests : List TaskRequest) (world : Surroundings) :
    ∃ messages after,
      Returns (perform agent handler (.createTasksAsync taskOptions taskRequests) world) after ∧
        after.received = world.received ++ messages ∧
        Says handler (.createTasksAsync taskOptions taskRequests) messages := by
  obtain ⟨fragments, hreturns, hmessages⟩ :=
    returns_toRequestStream taskRequests taskOptions handler.token hsize
  refine ⟨fragments.flatten.map .createTask, ⟨world.files, _⟩, ?_, rfl, ?_, ?_, ?_⟩
  · obtain ⟨least, hleast⟩ := hreturns
    refine ⟨least, fun turns hturns => ?_⟩
    rw [perform, createTasksAsync, hleast turns hturns]
    rfl
  · rw [hmessages, Proto.streamOf]
    exact List.cons_ne_nil _ _
  · intro message hmessage
    rw [hmessages] at hmessage
    obtain ⟨request, hrequest, rfl⟩ := List.mem_map.mp hmessage
    obtain ⟨type, -, rfl⟩ := List.mem_map.mp hrequest
    rfl
  · intro message hmessage id hid
    obtain ⟨request, -, rfl⟩ := List.mem_map.mp hmessage
    cases hid

theorem sendResult_says {key path : String} (hpath : pathJoin handler.dataFolder key = some path)
    (data : Bytes) (world : Surroundings) :
    ∃ messages after, Returns (perform agent handler (.sendResult key data) world) after ∧
      after.received = world.received ++ messages ∧
      Says handler (.sendResult key data) messages := by
  let request : NotifyResultDataRequest := ⟨[⟨handler.sessionId, key⟩], handler.token⟩
  let after : Surroundings :=
    { files := Folder.write .truncate world.files (SlashPath.ofChars path.toList) data
      received := world.received ++ [.notifyResultData request] }
  have hperform : perform agent handler (.sendResult key data) world = fun _ => some after := by
    funext turns
    rw [perform, sendResult, hpath]
    rfl
  rw [hperform]
  refine ⟨[.notifyResultData request], after, Loop.returns_pure _, rfl, List.cons_ne_nil _ _,
    ?_, ?_⟩
  · intro message hmessage
    obtain rfl := List.mem_singleton.mp hmessage
    rfl
  · intro message hmessage id hid
    obtain rfl := List.mem_singleton.mp hmessage
    exact List.mem_singleton.mp hid

theorem getResultIds_says (results : List ResultCreate) (world : Surroundings) :
    ∃ messages after, Returns (perform agent handler (.getResultIds results) world) after ∧
      after.received = world.received ++ messages ∧
      Says handler (.getResultIds results) messages := by
  refine ⟨[.createResultsMetaData ⟨results, handler.sessionId, ""⟩], _, Loop.returns_pure _,
    rfl, List.cons_ne_nil _ _, ?_, ?_⟩
  · intro message hmessage
    obtain rfl := List.mem_singleton.mp hmessage
    rfl
  · intro message hmessage id hid
    obtain rfl := List.mem_singleton.mp hmessage
    exact List.mem_singleton.mp hid

/-- Any operation ends, after it has said what it says. -/
theorem perform_says (hsize : 1 ≤ sizeT handler.config.dataChunkMaxSize)
    (hfolder : ∀ key, ∃ path, pathJoin handler.dataFolder key = some path)
    (operation : Operation) (world : Surroundings) :
    ∃ messages after, Returns (perform agent handler operation world) after ∧
      after.received = world.received ++ messages ∧ Says handler operation messages := by
  cases operation with
  | createTasksAsync taskOptions taskRequests =>
      exact createTasksAsync_says hsize taskOptions taskRequests world
  | sendResult key data =>
      obtain ⟨path, hpath⟩ := hfolder key
      exact sendResult_says hpath data world
  | getResultIds results => exact getResultIds_says results world

/-- A sequence of operations ends, and each has said what it says. -/
theorem performAll_says (hsize : 1 ≤ sizeT handler.config.dataChunkMaxSize)
    (hfolder : ∀ key, ∃ path, pathJoin handler.dataFolder key = some path)
    (operations : List Operation) (world : Surroundings) :
    ∃ said after, Returns (performAll agent handler operations world) after ∧
      after.received = world.received ++ said.flatten ∧
      List.Forall₂ (Says handler) operations said := by
  induction operations generalizing world with
  | nil => exact ⟨[], world, Loop.returns_pure _, (List.append_nil _).symm, .nil⟩
  | cons operation rest ih =>
      obtain ⟨messages, next, hnext, hreceived, hspoken⟩ :=
        perform_says hsize hfolder operation world
      obtain ⟨said, after, hafter, hothers, hrest⟩ := ih next
      refine ⟨messages :: said, after, hnext.bind hafter, ?_, .cons hspoken hrest⟩
      rw [hothers, hreceived, List.flatten_cons, List.append_assoc]

/-! ## From the request to process a task -/

theorem exists_pathJoin_of_eq_some {folder name path : String}
    (hpath : pathJoin folder name = some path) (key : String) :
    ∃ path, pathJoin folder key = some path := by
  unfold pathJoin at hpath ⊢
  cases hlast : (trimCopy folder.toList).getLast? with
  | none =>
      rw [hlast] at hpath
      cases hpath
  | some last => exact ⟨_, rfl⟩

/-- What a handler takes from the request.  It has read the payload, so the path
of the data folder is not blank. -/
structure Serves (request : ProcessRequest) (handler : TaskHandler) : Prop where
  session : handler.sessionId = request.sessionId
  token : handler.token = request.communicationToken
  config : handler.config = request.configuration
  folder : ∀ key, ∃ path, pathJoin handler.dataFolder key = some path

theorem serves_of_taskHandler {files : FileSystem} {request : ProcessRequest}
    (hhandler : taskHandler files request = some handler) : Serves request handler := by
  obtain ⟨⟨payload, stream⟩, hread, hrest⟩ := Option.bind_eq_some_iff.mp hhandler
  obtain ⟨dataDependencies, -, hfields⟩ := Option.bind_eq_some_iff.mp hrest
  obtain ⟨path, hpath, -⟩ := Option.bind_eq_some_iff.mp hread
  cases hfields
  exact ⟨rfl, rfl, rfl, exists_pathJoin_of_eq_some hpath⟩

/-- All messages of a sequence of operations carry the token exactly when all
operations do. -/
theorem forall_token_iff {operations : List Operation} {said : List (List AgentMessage)}
    (hsaid : List.Forall₂ (Says handler) operations said) (token : String) :
    (∀ message ∈ said.flatten, message.communicationToken = token) ↔
      ∀ operation ∈ operations, tokenOf handler operation = token := by
  induction hsaid with
  | nil => simp
  | cons hspoken hrest ih =>
      rw [List.flatten_cons, List.forall_mem_append, List.forall_mem_cons, ih]
      refine and_congr_left fun _ => ⟨fun hmessages => ?_, fun htoken message hmessage => ?_⟩
      · obtain ⟨message, hmessage⟩ := List.exists_mem_of_ne_nil _ hspoken.some
        exact (hspoken.token message hmessage).symm.trans (hmessages message hmessage)
      · exact (hspoken.token message hmessage).trans htoken

theorem session_of_says {operations : List Operation} {said : List (List AgentMessage)}
    (hsaid : List.Forall₂ (Says handler) operations said) :
    ∀ message ∈ said.flatten, ∀ id ∈ message.sessionIds, id = handler.sessionId := by
  induction hsaid with
  | nil => simp
  | cons hspoken hrest ih =>
      rw [List.flatten_cons, List.forall_mem_append]
      exact ⟨hspoken.session, ih⟩

/-- The messages of a worker all name the session, whatever it does and whatever
the agent answers.  They all carry the token exactly when the worker creates no
results without data, or the token is empty. -/
theorem taskHandler_messages_carry_token_iff {files : FileSystem} {request : ProcessRequest}
    (hhandler : taskHandler files request = some handler)
    (hpos : 1 ≤ request.configuration.dataChunkMaxSize)
    (hfits : request.configuration.dataChunkMaxSize ≤ 2147483647)
    (agent : Agent) (folder : Folder SlashPath UInt8) (operations : List Operation) :
    ∃ after, Returns (performAll agent handler operations ⟨folder, []⟩) after ∧
      (∀ message ∈ after.received, ∀ id ∈ message.sessionIds, id = request.sessionId) ∧
      ((∀ message ∈ after.received,
          message.communicationToken = request.communicationToken) ↔
        request.communicationToken = "" ∨
          ∀ results, Operation.getResultIds results ∉ operations) := by
  have hserves := serves_of_taskHandler hhandler
  have hsize : 1 ≤ sizeT handler.config.dataChunkMaxSize := by
    rw [hserves.config]
    exact (one_le_sizeT_iff (by omega) hfits).mpr (by omega)
  obtain ⟨said, after, hreturns, hreceived, hsaid⟩ :=
    performAll_says hsize hserves.folder operations ⟨folder, []⟩
  rw [List.nil_append] at hreceived
  refine ⟨after, hreturns, ?_, ?_⟩
  · rw [hreceived, ← hserves.session]
    exact session_of_says hsaid
  rw [hreceived, forall_token_iff hsaid, ← hserves.token]
  constructor
  · intro htokens
    by_cases hempty : handler.token = ""
    · exact Or.inl hempty
    · exact Or.inr fun results hmem => hempty (htokens _ hmem).symm
  -- the other two operations set the token on each of their messages
  · rintro hnone operation hmem
    cases operation with
    | createTasksAsync taskOptions taskRequests => rfl
    | sendResult key data => rfl
    | getResultIds results =>
        rcases hnone with hempty | hnone
        · exact hempty.symm
        · exact absurd hmem (hnone results)

/-- An agent that refuses everything. -/
def refusingAgent : Agent where
  createTask _ := .error ⟨7, "refused", ""⟩
  notifyResultData _ := .error ⟨7, "refused", ""⟩
  createResultsMetaData _ := .error ⟨7, "refused", ""⟩

theorem exists_taskHandler_sampleRequest :
    ∃ handler, taskHandler sampleFiles (sampleRequest ["full"]) = some handler :=
  Option.isSome_iff_exists.mp (by decide)

theorem taskHandler_messages_carry_token_iff_sample :
    ∃ handler, taskHandler sampleFiles (sampleRequest ["full"]) = some handler ∧
      ∃ after,
        Returns (performAll refusingAgent handler
          [.createTasksAsync default [⟨["result"], [], [1, 2, 3]⟩], .sendResult "result" [1]]
          ⟨fun _ => none, []⟩) after ∧
        ∀ message ∈ after.received, message.communicationToken = "token" := by
  obtain ⟨handler, hhandler⟩ := exists_taskHandler_sampleRequest
  obtain ⟨after, hreturns, -, hiff⟩ := taskHandler_messages_carry_token_iff hhandler (by decide)
    (by decide) refusingAgent (fun _ => none)
    [.createTasksAsync default [⟨["result"], [], [1, 2, 3]⟩], .sendResult "result" [1]]
  refine ⟨handler, hhandler, after, hreturns, hiff.mpr (Or.inr fun results hmem => ?_)⟩
  simp at hmem

/-- The message that creates a result without data has no token. -/
theorem getResultIds_without_token :
    ∃ handler, taskHandler sampleFiles (sampleRequest ["full"]) = some handler ∧
      ∃ after,
        Returns (performAll refusingAgent handler [.getResultIds [⟨"name"⟩]] ⟨fun _ => none, []⟩)
          after ∧
        ∃ message ∈ after.received,
          message.communicationToken ≠ (sampleRequest ["full"]).communicationToken := by
  obtain ⟨handler, hhandler⟩ := exists_taskHandler_sampleRequest
  refine ⟨handler, hhandler, _, Loop.returns_pure _, _, List.mem_singleton_self _, ?_⟩
  exact (by decide : "" ≠ "token")

end TaskHandler

end ArmoniKApi.Cpp
