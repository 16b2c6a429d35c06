import ArmoniKApi.Library.Machine

/-!
# The scopes of a C# logger

`LogFunction` opens a scope with the properties of a function, logs that the function is
entered, and returns an object that logs that the function is left when it is disposed.
Each log is to carry the properties of the functions it is in, and the scope is to be
closed by the object.

The `finally` around the first log closes the scope before `LogFunction` returns.  No
other log carries the properties, the last log included, and the object closes the scope
once more.  `logFunction_scopes_iff` says that the logs and the scopes are as expected
just in the sequences in which `LogFunction` is not called.

What is assumed of a logger is in `LoggerState.beginScope` and the two operations after it: the
properties of a scope are attached until the scope is disposed.

## Strategy

A sequence of operations is well nested if every disposal has an open call, and the machine
refuses any other.  The trace of the code is compared with `expectedTrace`, which is computed
from the sequence alone: it opens a scope at each call and closes it at the disposal, and
lists the properties of all functions in between.

* `logFunction_eq` is the finding: after the call no scope is open, so the stack of scopes is
  what it was, and the object that is returned holds a scope that is closed already.
* `run_scopes` is the invariant: between operations no scope is open, whatever was called.
  So every later log carries no properties.
* `run_trace_iff` compares the traces.  Without a call both consist of plain logs.  With one,
  the code closes a scope right after the first log, and the expected trace closes scopes
  behind a log of the same function only (`expectedTrace_ne_closed`).

Levels that are not enabled write nothing (`logAt`), and the theorem is about loggers on which
they are enabled.
-/

namespace ArmoniKApi.CSharp

/-! ## The logger -/

/-- `LogLevel`. -/
inductive LogLevel
  | trace
  | debug
  | information
  | warning
  | error
  | critical
  deriving DecidableEq, Repr

/-- The value of a property: a text, a number, or the `Guid` of a scope. -/
inductive PropertyValue
  | text (value : String)
  | number (value : Int)
  | guid (scope : ℕ)
  deriving DecidableEq, Repr

/-- The dictionary of the properties of a scope. -/
abbrev Properties := List (String × PropertyValue)

/-- A template and its arguments. -/
structure LogMessage where
  template : String
  arguments : List String
  deriving DecidableEq, Repr

/-- What a logger does.  A log carries the properties of the scopes it is in, with the
innermost first. -/
inductive LogEntry
  | opened (scope : ℕ) (properties : Properties)
  | log (level : LogLevel) (message : LogMessage) (carried : List Properties)
  | closed (scope : ℕ)
  deriving DecidableEq, Repr

/-- The arguments of a call of `LogFunction`. -/
structure FunctionCall where
  id : String
  level : LogLevel
  functionName : String
  classFilePath : String
  line : Int
  deriving DecidableEq, Repr

/-- What `LogFunction` returns: `Deferrer.Empty`, or an object whose action logs and
disposes the scope. -/
inductive Deferrer
  | empty
  | leaving (scope : ℕ) (call : FunctionCall)
  deriving DecidableEq, Repr

/-- The scopes that are open, with the innermost first, the number of scopes that were
opened, the objects that are still to be disposed, and what was done. -/
structure LoggerState where
  scopes : List (ℕ × Properties)
  opened : ℕ
  returned : List Deferrer
  trace : List LogEntry
  deriving DecidableEq, Repr

namespace LoggerState

/-- A logger that has done nothing. -/
def init : LoggerState := ⟨[], 0, [], []⟩

/-- `BeginScope`. -/
def beginScope (w : LoggerState) (properties : Properties) : ℕ × LoggerState :=
  (w.opened, { w with
    scopes := (w.opened, properties) :: w.scopes
    opened := w.opened + 1
    trace := w.trace ++ [.opened w.opened properties] })

/-- `Log`. -/
def log (w : LoggerState) (level : LogLevel) (message : LogMessage) : LoggerState :=
  { w with trace := w.trace ++ [.log level message (w.scopes.map Prod.snd)] }

/-- `Dispose` of a scope, which may have been disposed before. -/
def disposeScope (w : LoggerState) (scope : ℕ) : LoggerState :=
  { w with
    scopes := w.scopes.filter fun entry => entry.1 ≠ scope
    trace := w.trace ++ [.closed scope] }

end LoggerState

/-! ## The code -/

/-- `dictionary[key] = value`. -/
def setProperty (properties : Properties) (key : String) (value : PropertyValue) : Properties :=
  properties.filter (fun property => property.1 ≠ key) ++ [(key, value)]

/-- `BeginNamedScope`.  `ToDictionary` throws when a key comes twice. -/
def beginNamedScope (w : LoggerState) (name : String) (properties : Properties) :
    Option (ℕ × LoggerState) :=
  if (properties.map Prod.fst).Nodup then
    some (w.beginScope (setProperty properties (name ++ ".Scope") (.guid w.opened)))
  else none

namespace FunctionCall

/-- The name of the scope, from the path of the file and the name of the function. -/
def scopeName (call : FunctionCall) : String := call.classFilePath ++ "." ++ call.functionName

/-- `properties`. -/
def properties (call : FunctionCall) : Properties :=
  [("functionName", .text call.functionName), ("classFilePath", .text call.classFilePath),
    ("line", .number call.line)] ++ if call.id = "" then [] else [("Id", .text call.id)]

/-- The first log. -/
def enteringMessage (call : FunctionCall) : LogMessage :=
  ⟨"Entering {classFilePath}.{functionName} - {Id}",
    [call.classFilePath, call.functionName, call.id]⟩

/-- The last log.  The duration is left out. -/
def leavingMessage (call : FunctionCall) : LogMessage :=
  ⟨"Leaving {classFilePath}.{functionName} - {Id} in {duration} ( {milliseconds} ms )",
    [call.classFilePath, call.functionName, call.id]⟩

end FunctionCall

section

variable (isEnabled : LogLevel → Bool)

/-- `Log`, which does nothing for a level that is not enabled. -/
def logAt (w : LoggerState) (level : LogLevel) (message : LogMessage) : LoggerState :=
  if isEnabled level then w.log level message else w

/-- `LogFunction`. -/
def logFunction (w : LoggerState) (call : FunctionCall) : Option (Deferrer × LoggerState) :=
  if isEnabled call.level = false then some (.empty, w)
  else do
    let (scope, w) ← beginNamedScope w call.scopeName call.properties
    let w := logAt isEnabled w call.level call.enteringMessage
    -- the `finally`
    let w := w.disposeScope scope
    return (.leaving scope call, w)

/-- `Dispose` of what `LogFunction` returned. -/
def Deferrer.dispose (w : LoggerState) : Deferrer → LoggerState
  | .empty => w
  | .leaving scope call =>
      (logAt isEnabled w call.level call.leavingMessage).disposeScope scope

/-- A call of `LogFunction`, a log, or the disposal of the object that was returned last. -/
inductive LogOperation
  | logFunction (call : FunctionCall)
  | log (level : LogLevel) (message : LogMessage)
  | dispose

/-- One operation of a well-nested sequence. -/
def logStep (w : LoggerState) : LogOperation → Option LoggerState
  | .logFunction call =>
      (logFunction isEnabled w call).map fun result =>
        { result.2 with returned := result.1 :: result.2.returned }
  | .log level message => some (logAt isEnabled w level message)
  | .dispose =>
      match w.returned with
      | [] => none
      | deferrer :: rest => some (deferrer.dispose isEnabled { w with returned := rest })

end

/-! ## What is expected -/

/-- The properties of the scope of a function, with its number. -/
def scopeProperties (call : FunctionCall) (scope : ℕ) : Properties :=
  setProperty call.properties (call.scopeName ++ ".Scope") (.guid scope)

/-- The functions that are called and not left, with the innermost first. -/
abbrev Functions := List (ℕ × FunctionCall)

/-- The properties of all these functions. -/
def carried (functions : Functions) : List Properties :=
  functions.map fun entry => scopeProperties entry.2 entry.1

/-- What is expected of a sequence, when `opened` scopes were opened before: a call opens
the scope of its function, every log carries the properties of all the functions that are
not left, and the disposal logs and closes the scope. -/
def expectedTrace : Functions → ℕ → List LogOperation → List LogEntry
  | _, _, [] => []
  | functions, opened, .logFunction call :: rest =>
      .opened opened (scopeProperties call opened) ::
        .log call.level call.enteringMessage (carried ((opened, call) :: functions)) ::
          expectedTrace ((opened, call) :: functions) (opened + 1) rest
  | functions, opened, .log level message :: rest =>
      .log level message (carried functions) :: expectedTrace functions opened rest
  | (scope, call) :: functions, opened, .dispose :: rest =>
      .log call.level call.leavingMessage (carried ((scope, call) :: functions)) ::
        .closed scope :: expectedTrace functions opened rest
  | [], _, .dispose :: _ => []

/-- A scope is closed after a log only. -/
theorem expectedTrace_ne_closed (functions : Functions) (opened : ℕ)
    (operations : List LogOperation) (scope : ℕ) (tail : List LogEntry) :
    expectedTrace functions opened operations ≠ .closed scope :: tail := by
  cases operations with
  | nil => exact nofun
  | cons operation rest =>
      cases operation with
      | logFunction call => exact nofun
      | log level message => exact nofun
      | dispose =>
          cases functions with
          | nil => exact nofun
          | cons entry functions => exact nofun

/-! ## What is done -/

/-- The keys of the properties of a function are distinct. -/
theorem FunctionCall.nodup_properties (call : FunctionCall) :
    (call.properties.map Prod.fst).Nodup := by
  unfold FunctionCall.properties
  split <;> simp

variable {isEnabled : LogLevel → Bool}

theorem logAt_eq (henabled : ∀ level, isEnabled level = true) (w : LoggerState) (level : LogLevel)
    (message : LogMessage) : logAt isEnabled w level message = w.log level message :=
  if_pos (henabled level)

/-- The scope of `LogFunction` is closed when it returns. -/
theorem logFunction_eq (henabled : ∀ level, isEnabled level = true) {w : LoggerState}
    (hscopes : w.scopes = []) (call : FunctionCall) :
    logFunction isEnabled w call = some (.leaving w.opened call, { w with
      opened := w.opened + 1
      trace := w.trace ++ [.opened w.opened (scopeProperties call w.opened),
        .log call.level call.enteringMessage [scopeProperties call w.opened],
        .closed w.opened] }) := by
  obtain ⟨scopes, opened, returned, trace⟩ := w
  obtain rfl : scopes = [] := hscopes
  have hlevel : ¬isEnabled call.level = false := by
    rw [henabled]
    exact nofun
  rw [logFunction, if_neg hlevel, beginNamedScope, if_pos call.nodup_properties]
  simp [logAt_eq henabled, LoggerState.beginScope, LoggerState.log, LoggerState.disposeScope,
    scopeProperties]

/-- What an operation does when no scope is open: none is open afterwards either. -/
theorem logStep_cases (henabled : ∀ level, isEnabled level = true) {w next : LoggerState}
    (hscopes : w.scopes = []) {operation : LogOperation}
    (hstep : logStep isEnabled w operation = some next) :
    (∃ call, operation = .logFunction call ∧ next = { w with
        opened := w.opened + 1
        returned := .leaving w.opened call :: w.returned
        trace := w.trace ++ [.opened w.opened (scopeProperties call w.opened),
          .log call.level call.enteringMessage [scopeProperties call w.opened],
          .closed w.opened] }) ∨
      (∃ level message, operation = .log level message ∧
        next = { w with trace := w.trace ++ [.log level message []] }) ∨
      operation = .dispose ∧ w.returned ≠ [] ∧ next.scopes = [] ∧
        ∃ more, next.trace = w.trace ++ more := by
  cases operation with
  -- the scope is opened and, by `finally`, closed again before the call returns
  | logFunction call =>
      rw [logStep, logFunction_eq henabled hscopes] at hstep
      exact .inl ⟨call, rfl, (Option.some.inj hstep).symm⟩
  | log level message =>
      refine .inr (.inl ⟨level, message, rfl, ?_⟩)
      rw [logStep, logAt_eq henabled, Option.some.injEq] at hstep
      rw [← hstep, LoggerState.log, hscopes]
      rfl
  | dispose =>
      refine .inr (.inr ⟨rfl, ?_⟩)
      rw [logStep] at hstep
      split at hstep
      · cases hstep
      · rename_i deferrer rest hreturned
        obtain rfl := Option.some.inj hstep
        rw [hreturned]
        refine ⟨List.cons_ne_nil _ _, ?_⟩
        cases deferrer with
        | empty => exact ⟨hscopes, [], (List.append_nil _).symm⟩
        -- the disposal logs the end, when the scope is no longer there
        | leaving scope call =>
            rw [Deferrer.dispose, logAt_eq henabled]
            refine ⟨?_, _, List.append_assoc _ _ _⟩
            simp [LoggerState.disposeScope, LoggerState.log, hscopes]

/-- No scope is open between the operations, and nothing is taken back from the trace. -/
theorem run_scopes (henabled : ∀ level, isEnabled level = true) {w last : LoggerState}
    (hscopes : w.scopes = []) {operations : List LogOperation}
    (hrun : Machine.run (logStep isEnabled) w operations = some last) :
    last.scopes = [] ∧ ∃ more, last.trace = w.trace ++ more := by
  refine Machine.run_induction (P := fun _ mid => mid.scopes = [] ∧ ∃ more, mid.trace =
    w.trace ++ more) ⟨hscopes, [], (List.append_nil _).symm⟩ ?_ hrun
  rintro _ mid operation next ⟨hmid, more, htrace⟩ hstep
  rcases logStep_cases henabled hmid hstep with ⟨call, -, rfl⟩ | ⟨level, message, -, rfl⟩ |
    ⟨-, -, hnext, later, hlater⟩
  · refine ⟨hmid, ?_⟩
    dsimp only
    rw [htrace, List.append_assoc]
    exact ⟨_, rfl⟩
  · refine ⟨hmid, ?_⟩
    dsimp only
    rw [htrace, List.append_assoc]
    exact ⟨_, rfl⟩
  · rw [hlater, htrace, List.append_assoc]
    exact ⟨hnext, _, rfl⟩

/-- From a state in which no function is called, the trace is as expected just if
`LogFunction` is not called. -/
theorem run_trace_iff (henabled : ∀ level, isEnabled level = true) {w last : LoggerState}
    (hscopes : w.scopes = []) (hreturned : w.returned = []) {operations : List LogOperation}
    (hrun : Machine.run (logStep isEnabled) w operations = some last) :
    last.trace = w.trace ++ expectedTrace [] w.opened operations ↔
      ∀ call, .logFunction call ∉ operations := by
  induction operations generalizing w with
  | nil =>
      obtain ⟨rfl⟩ := hrun
      exact iff_of_true (List.append_nil _).symm fun _ => List.not_mem_nil
  | cons operation rest ih =>
      obtain ⟨next, hstep, hrest⟩ := Option.bind_eq_some_iff.mp hrun
      rcases logStep_cases henabled hscopes hstep with ⟨call, rfl, hnext⟩ |
        ⟨level, message, rfl, hnext⟩ | ⟨rfl, hsome, -⟩
      · -- the scope is closed where the next entry is expected
        have hclosed : next.scopes = [] := by rw [hnext, hscopes]
        obtain ⟨-, more, hmore⟩ := run_scopes henabled hclosed hrest
        refine iff_of_false ?_ fun hnone => hnone call List.mem_cons_self
        intro htrace
        rw [hmore, hnext, List.append_assoc, List.append_cancel_left_eq] at htrace
        simp only [expectedTrace, List.cons_append, List.nil_append, List.cons.injEq] at htrace
        exact expectedTrace_ne_closed _ _ _ _ _ htrace.2.2.symm
      · have hclosed : next.scopes = [] := by rw [hnext, hscopes]
        have hnone : next.returned = [] := by rw [hnext, hreturned]
        have hiff := ih hclosed hnone hrest
        rw [hnext, List.append_assoc] at hiff
        refine hiff.trans ?_
        simp
      · exact absurd hreturned hsome

/-- In a well-nested sequence on an enabled logger, the logs carry the properties and the
scopes are closed as expected exactly if `LogFunction` is not called. -/
theorem logFunction_scopes_iff (henabled : ∀ level, isEnabled level = true)
    {operations : List LogOperation} {last : LoggerState}
    (hrun : Machine.run (logStep isEnabled) LoggerState.init operations = some last) :
    last.trace = expectedTrace [] 0 operations ↔ ∀ call, .logFunction call ∉ operations :=
  run_trace_iff henabled rfl rfl hrun

/-- A function that calls another one. -/
def nestedCalls : List LogOperation :=
  [.log .information ⟨"Ready", []⟩, .logFunction ⟨"", .trace, "Run", "Worker.cs", 7⟩,
    .logFunction ⟨"", .debug, "Load", "Worker.cs", 9⟩, .log .information ⟨"Loaded", []⟩, .dispose,
    .dispose]

/-- Nothing is as expected from the first function on. -/
theorem logFunction_scopes_of_nested :
    (∃ last, Machine.run (logStep fun _ => true) LoggerState.init nestedCalls = some last ∧
      last.trace ≠ expectedTrace [] 0 nestedCalls) ∧
    ∃ last, Machine.run (logStep fun _ => true) LoggerState.init (nestedCalls.take 1) = some last ∧
      last.trace = expectedTrace [] 0 (nestedCalls.take 1) := by
  have hnested : Machine.run (logStep fun _ => true) LoggerState.init nestedCalls = some _ := rfl
  have hfirst : Machine.run (logStep fun _ => true) LoggerState.init (nestedCalls.take 1) =
    some _ := rfl
  refine ⟨⟨_, hnested, fun htrace => ?_⟩,
    ⟨_, hfirst, (logFunction_scopes_iff (fun _ => rfl) hfirst).mpr fun call => ?_⟩⟩
  · exact (logFunction_scopes_iff (fun _ => rfl) hnested).mp htrace _
      (List.mem_cons_of_mem _ List.mem_cons_self)
  · simp [nestedCalls]

/-- Around one log, the scope is closed early and twice, and two logs miss its properties. -/
theorem logFunction_loses_scope :
    (Machine.run (logStep fun _ => true) LoggerState.init
        [.logFunction ⟨"", .trace, "Run", "Worker.cs", 7⟩, .log .information ⟨"Ready", []⟩,
          .dispose]).map LoggerState.trace =
      some [.opened 0 (scopeProperties ⟨"", .trace, "Run", "Worker.cs", 7⟩ 0),
        .log .trace (FunctionCall.enteringMessage ⟨"", .trace, "Run", "Worker.cs", 7⟩)
          [scopeProperties ⟨"", .trace, "Run", "Worker.cs", 7⟩ 0],
        .closed 0, .log .information ⟨"Ready", []⟩ [],
        .log .trace (FunctionCall.leavingMessage ⟨"", .trace, "Run", "Worker.cs", 7⟩) [],
        .closed 0] ∧
    (Machine.run (logStep fun _ => true) LoggerState.init
        [.logFunction ⟨"", .trace, "Run", "Worker.cs", 7⟩, .log .information ⟨"Ready", []⟩,
          .dispose]).map LoggerState.trace ≠
      some (expectedTrace [] 0 [.logFunction ⟨"", .trace, "Run", "Worker.cs", 7⟩,
        .log .information ⟨"Ready", []⟩, .dispose]) := by
  constructor
  · decide +kernel
  · decide +kernel

end ArmoniKApi.CSharp
