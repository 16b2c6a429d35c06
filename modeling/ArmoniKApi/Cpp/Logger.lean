import ArmoniKApi.Cpp.ClefFormatter
import ArmoniKApi.Library.History
import ArmoniKApi.Library.Machine

/-!
# The loggers of C++

A `Logger` has a level, a global context, and generators for the contexts of the loggers that
it makes.  A `LocalLogger` takes the level of its maker and what the generators give when it is
made, and keeps looking at the global context of its maker.  Both write through one writer.

What stands in the streams after any run is told by the history of the run alone
(`logger_writes_history`): a message is written if the level that was set last lets it, with the
values that were added last, and written whole.

## Strategy

The calls of a program come in any order, and a local logger outlives the settings it was
made under.  A line of the log therefore depends on several moments of the history:

```text
level of a local logger       what it was set to last, or the level of its maker when it was made
local context                 what was added last, or given when it was made, or generated then
global context                what the maker holds when the line is written
time of day and the like      the world when the line is written
```

Each of these is a function of the calls alone (`levelAt`, `globalAt`, `generatorAt`,
`madeAt`, `worldAt`), computed with the library's `latest` and `valueAt`.  `Told` says that
the program holds what they compute, and has one lemma for each kind of cell
(`world_of_step`, `level_of_step`, `global_of_step`, `generators_of_step`) and one for the
local loggers (`locals_of_step`).

`LineOf` relates a call to the line it writes, as an inductive relation over the history, and
`Lines` collects them.  Since a relation could hold of several lines or of none,
`LineOf.unique` and `Lines.unique` show that the history decides: a local logger is named by
the number of the call that made it (`LocalAt.unique`, with `split_unique` of the library).

The formatter and the world are parameters, and the writer may be the console or a file.
-/

namespace ArmoniKApi.Cpp

open History (Change latest valueAt)

/-! ## The code -/

/-- The enumerators of `Level`. -/
def Level.number : Level → ℕ
  | .verbose => 0
  | .debug => 1
  | .info => 2
  | .warning => 3
  | .error => 4
  | .fatal => 5

/-- A `std::map` of strings. -/
abbrev StringMap := KeyedMap Text Text

/-- What has been put out: on the console, and to the stream of a file. -/
structure Streams where
  cout : Text
  cerr : Text
  file : Text

/-- `ConsoleWriter` and `FileWriter`. -/
inductive Writer
  | console
  | file
  deriving DecidableEq, Repr

/-- `<< message << std::endl`. -/
def endl (message : Text) : Text := message ++ [.char '\n']

/-- `ConsoleWriter::write` and `FileWriter::write`. -/
def Writer.write (writer : Writer) (level : Level) (message : Text) (streams : Streams) : Streams :=
  match writer with
  | .console =>
      if level.number < Level.warning.number then
        { streams with cout := streams.cout ++ endl message }
      else
        { streams with cerr := streams.cerr ++ endl message }
  | .file => { streams with file := streams.file ++ endl message }

/-- `IFormatter::format`, which may look at the world, as at the time of day. -/
abbrev Formatter (W : Type) := W → Level → Text → StringMap → StringMap → StringMap → Text

/-- `LocalLogger`.  The writer, the formatter and the global context are those of the logger
that made it. -/
structure LocalLogger where
  level : Level
  localContext : StringMap

/-- The generators of the local context look at the world as well. -/
structure Logger (W : Type) where
  level : Level
  globalContext : StringMap
  localContextGenerator : AList fun _ : Text => W → Text

variable {W : Type}

section Loggers

variable (format : Formatter W) (writer : Writer)

/-- `LocalLogger::log`, with the global context of the maker. -/
def LocalLogger.log (self : LocalLogger) (world : W) (globalContext : StringMap) (level : Level)
    (message : Text) (messageContext : StringMap) (streams : Streams) : Streams :=
  if level.number < self.level.number then
    streams
  else
    writer.write level
      (format world level message globalContext self.localContext messageContext) streams

/-- `Logger::local`: the values of the generators take the place of those given. -/
def Logger.local (self : Logger W) (world : W) (localContext : StringMap) : LocalLogger where
  level := self.level
  localContext := self.localContextGenerator.entries.foldl
    (fun context kg => context.insert kg.1 (kg.2 world)) localContext

/-- `Logger::log`. -/
def Logger.log (self : Logger W) (world : W) (level : Level) (message : Text)
    (messageContext : StringMap) (streams : Streams) : Streams :=
  if level.number < self.level.number then
    streams
  else
    (self.local world ∅).log format writer world self.globalContext level message messageContext
      streams

end Loggers

/-! ## Runs -/

/-- A call on a local logger. -/
inductive LocalCall
  | setLevel (level : Level)
  | contextAdd (key value : Text)
  | contextRemove (key : Text)
  | log (level : Level) (message : Text) (messageContext : StringMap)

/-- A call on the logger, or on the local logger that it has made as the given one, or a change
of the world that they are in. -/
inductive Call (W : Type)
  | changeWorld (world : W)
  | setLevel (level : Level)
  | globalContextAdd (key value : Text)
  | globalContextRemove (key : Text)
  | localContextGeneratorAdd (key : Text) (valueGenerator : W → Text)
  | localContextGeneratorRemove (key : Text)
  | makeLocal (localContext : StringMap)
  | log (level : Level) (message : Text) (messageContext : StringMap)
  | onLocal (index : ℕ) (call : LocalCall)

/-- A logger with its local loggers in the order in which they were made, what stands on the
streams, and the world that generators and formatters look at. -/
structure Program (W : Type) where
  world : W
  streams : Streams
  logger : Logger W
  locals : List LocalLogger

/-- What the call makes of the logger. -/
def LocalLogger.after (self : LocalLogger) : LocalCall → LocalLogger
  | .setLevel level => { self with level := level }
  | .contextAdd key value => { self with localContext := self.localContext.insert key value }
  | .contextRemove key => { self with localContext := self.localContext.erase key }
  | .log .. => self

section Runs

variable (format : Formatter W) (writer : Writer)

/-- What the call makes of the streams. -/
def LocalLogger.put (self : LocalLogger) (world : W) (globalContext : StringMap)
    (streams : Streams) : LocalCall → Streams
  | .log level message messageContext =>
      self.log format writer world globalContext level message messageContext streams
  | _ => streams

/-- One call.  A call on a local logger that was not made is none that a program can
make. -/
def Program.step (s : Program W) : Call W → Option (Program W)
  | .changeWorld world => some { s with world := world }
  | .setLevel level => some { s with logger := { s.logger with level := level } }
  | .globalContextAdd key value => some { s with
      logger := { s.logger with globalContext := s.logger.globalContext.insert key value } }
  | .globalContextRemove key => some { s with
      logger := { s.logger with globalContext := s.logger.globalContext.erase key } }
  | .localContextGeneratorAdd key valueGenerator => some { s with
      logger := { s.logger with
        localContextGenerator := s.logger.localContextGenerator.insert key valueGenerator } }
  | .localContextGeneratorRemove key => some { s with
      logger := { s.logger with
        localContextGenerator := s.logger.localContextGenerator.erase key } }
  | .makeLocal localContext => some { s with
      locals := s.locals ++ [s.logger.local s.world localContext] }
  | .log level message messageContext => some { s with
      streams := s.logger.log format writer s.world level message messageContext s.streams }
  | .onLocal index call => s.locals[index]?.map fun self => { s with
      locals := s.locals.set index (self.after call)
      streams := self.put format writer s.world s.logger.globalContext s.streams call }

end Runs

/-- A logger that was just made. -/
def Program.init (world : W) (level : Level) : Program W where
  world := world
  streams := ⟨[], [], []⟩
  logger := ⟨level, ∅, ∅⟩
  locals := []

/-! ## What the history tells -/

namespace Call

/-- The world, if the call changes it. -/
def worldOf : Call W → Option W
  | .changeWorld world => some world
  | _ => none

/-- The level, if the call sets that of the logger. -/
def levelOf : Call W → Option Level
  | .setLevel level => some level
  | _ => none

/-- What the call changes in the global context. -/
def globalChange : Call W → Option (Change Text Text)
  | .globalContextAdd key value => some (.add key value)
  | .globalContextRemove key => some (.remove key)
  | _ => none

/-- What the call changes among the generators. -/
def generatorChange : Call W → Option (Change Text (W → Text))
  | .localContextGeneratorAdd key valueGenerator => some (.add key valueGenerator)
  | .localContextGeneratorRemove key => some (.remove key)
  | _ => none

/-- The call makes a local logger. -/
def isMakeLocal : Call W → Bool
  | .makeLocal _ => true
  | _ => false

/-- The call, if it is one on the given local logger. -/
def localCall (index : ℕ) : Call W → Option LocalCall
  | .onLocal other call => if other = index then some call else none
  | _ => none

/-- The level, if the call sets that of the local logger. -/
def localLevel (index : ℕ) (call : Call W) : Option Level :=
  match call.localCall index with
  | some (.setLevel level) => some level
  | _ => none

/-- What the call changes in the context of the local logger. -/
def localChange (index : ℕ) (call : Call W) : Option (Change Text Text) :=
  match call.localCall index with
  | some (.contextAdd key value) => some (.add key value)
  | some (.contextRemove key) => some (.remove key)
  | _ => none

end Call

section History

variable (world : W) (level : Level) (calls : List (Call W))

/-- The world after the calls. -/
def worldAt : W := latest Call.worldOf world calls

/-- The level of the logger after the calls. -/
def levelAt : Level := latest Call.levelOf level calls

/-- The value of a key of the global context. -/
def globalAt : Text → Option Text := valueAt Call.globalChange (fun _ => none) calls

/-- The generator of a key after the calls. -/
def generatorAt : Text → Option (W → Text) := valueAt Call.generatorChange (fun _ => none) calls

/-- The value of a key of a local context that is made after the calls. -/
def madeAt (localContext : StringMap) (key : Text) : Option Text :=
  match generatorAt calls key with
  | some valueGenerator => some (valueGenerator (worldAt world calls))
  | none => localContext.lookup key

/-- The local logger that was made as the given one: it starts with the level of the logger and
what is made for it, and goes on by the calls on itself. -/
structure LocalAt (index : ℕ) (localLogger : LocalLogger) (before : List (Call W))
    (localContext : StringMap) (after : List (Call W)) : Prop where
  split : calls = before ++ .makeLocal localContext :: after
  number : before.countP Call.isMakeLocal = index
  level : localLogger.level = latest (Call.localLevel index) (levelAt level before) after
  context : ∀ key, localLogger.localContext.lookup key =
    valueAt (Call.localChange index) (madeAt world before localContext) after key

variable (format : Formatter W)

/-- A line that a call writes when it comes after the calls. -/
inductive LineOf : Call W → Level × Text → Prop
  | log {self : LocalLogger} {globalContext : StringMap} {messageLevel : Level} {message : Text}
      {messageContext : StringMap} (hlevel : self.level = levelAt level calls)
      (hcontext : ∀ key, self.localContext.lookup key = madeAt world calls ∅ key)
      (hglobal : ∀ key, globalContext.lookup key = globalAt calls key)
      (hpasses : self.level.number ≤ messageLevel.number) :
      LineOf (.log messageLevel message messageContext)
        (messageLevel, format (worldAt world calls) messageLevel message globalContext
          self.localContext messageContext)
  | onLocal {index : ℕ} {self : LocalLogger} {before : List (Call W)} {localContext : StringMap}
      {after : List (Call W)} {globalContext : StringMap} {messageLevel : Level} {message : Text}
      {messageContext : StringMap}
      (hself : LocalAt world level calls index self before localContext after)
      (hglobal : ∀ key, globalContext.lookup key = globalAt calls key)
      (hpasses : self.level.number ≤ messageLevel.number) :
      LineOf (.onLocal index (.log messageLevel message messageContext))
        (messageLevel, format (worldAt world calls) messageLevel message globalContext
          self.localContext messageContext)

/-- The lines of all calls, in their order. -/
inductive Lines : List (Call W) → List (Level × Text) → Prop
  | nil : Lines [] []
  | silent {calls : List (Call W)} {lines : List (Level × Text)} {call : Call W}
      (hlines : Lines calls lines) (hsilent : ∀ line, ¬LineOf world level calls format call line) :
      Lines (calls ++ [call]) lines
  | line {calls : List (Call W)} {lines : List (Level × Text)} {call : Call W} {line : Level × Text}
      (hlines : Lines calls lines) (hline : LineOf world level calls format call line) :
      Lines (calls ++ [call]) (lines ++ [line])

end History

/-! ## The cells of the logger -/

section Cells

variable {format : Formatter W} {writer : Writer} {s next : Program W} {call : Call W}

theorem world_of_step (hstep : s.step format writer call = some next) :
    next.world = call.worldOf.getD s.world := by
  cases call with
  | onLocal index call =>
      obtain ⟨self, -, rfl⟩ := Option.map_eq_some_iff.mp hstep
      rfl
  | _ =>
      obtain rfl := Option.some.inj hstep
      rfl

theorem level_of_step (hstep : s.step format writer call = some next) :
    next.logger.level = call.levelOf.getD s.logger.level := by
  cases call with
  | onLocal index call =>
      obtain ⟨self, -, rfl⟩ := Option.map_eq_some_iff.mp hstep
      rfl
  | _ =>
      obtain rfl := Option.some.inj hstep
      rfl

theorem global_of_step (hstep : s.step format writer call = some next) :
    History.Follows s.logger.globalContext next.logger.globalContext call.globalChange := by
  cases call with
  | onLocal index call =>
      obtain ⟨self, -, rfl⟩ := Option.map_eq_some_iff.mp hstep
      rfl
  | _ =>
      obtain rfl := Option.some.inj hstep
      rfl

theorem generators_of_step (hstep : s.step format writer call = some next) :
    History.Follows s.logger.localContextGenerator.toFinmap
      next.logger.localContextGenerator.toFinmap call.generatorChange := by
  cases call with
  | onLocal index call =>
      obtain ⟨self, -, rfl⟩ := Option.map_eq_some_iff.mp hstep
      rfl
  | localContextGeneratorAdd key valueGenerator =>
      obtain rfl := Option.some.inj hstep
      exact (Finmap.insert_toFinmap (β := fun _ => W → Text) key valueGenerator _).symm
  | localContextGeneratorRemove key =>
      obtain rfl := Option.some.inj hstep
      exact (Finmap.erase_toFinmap key _).symm
  | _ =>
      obtain rfl := Option.some.inj hstep
      rfl

end Cells

/-- The values that the generators give take the place of those that are there. -/
theorem lookup_generated (entries : List (Sigma fun _ : Text => W → Text))
    (hnodup : entries.NodupKeys) (world : W) (context : StringMap) (key : Text) :
    (entries.foldl (fun made kg => made.insert kg.1 (kg.2 world)) context).lookup key =
      match entries.dlookup key with
      | some valueGenerator => some (valueGenerator world)
      | none => context.lookup key := by
  induction entries generalizing context with
  | nil => rfl
  | cons kg rest ih =>
      obtain ⟨hfirst, hrest⟩ := List.nodupKeys_cons.mp hnodup
      rw [List.foldl_cons, ih hrest]
      by_cases hkey : key = kg.1
      · subst hkey
        rw [List.dlookup_eq_none.mpr hfirst, List.dlookup_cons_eq, Finmap.lookup_insert]
      · rw [List.dlookup_cons_ne _ _ hkey, Finmap.lookup_insert_of_ne _ hkey]

/-! ## The local loggers -/

section Locals

variable {world : W} {level : Level} {calls : List (Call W)}

/-- A call on another logger leaves the local logger as it is, and one on itself changes it. -/
theorem LocalAt.concat {index : ℕ} {self : LocalLogger} {before : List (Call W)}
    {localContext : StringMap} {after : List (Call W)}
    (h : LocalAt world level calls index self before localContext after) (call : Call W) :
    LocalAt world level (calls ++ [call]) index
      ((call.localCall index).elim self self.after) before localContext (after ++ [call]) where
  split := by rw [h.split, List.append_assoc, List.cons_append]
  number := h.number
  level := by
    rw [History.latest_concat, ← h.level]
    unfold Call.localLevel
    cases call.localCall index with
    | none => rfl
    | some made => cases made <;> rfl
  -- a key has the value of its last change, or else the one it was made with
  context := by
    intro key
    have hafter : ((call.localCall index).elim self self.after).localContext.lookup key =
        ((call.localChange index).bind fun made => made.at key).getD
          (self.localContext.lookup key) := by
      unfold Call.localChange
      cases call.localCall index with
      | none => rfl
      | some made =>
          cases made with
          | contextAdd added value => exact Change.lookup_apply (.add added value) _ key
          | contextRemove removed => exact Change.lookup_apply (.remove removed) _ key
          | setLevel level => rfl
          | log messageLevel message messageContext => rfl
    rw [History.valueAt_concat, hafter, h.context]

/-- The local logger that a call makes. -/
def Program.newLocals (s : Program W) : Call W → List LocalLogger
  | .makeLocal localContext => [s.logger.local s.world localContext]
  | _ => []

theorem locals_of_step {format : Formatter W} {writer : Writer} {s next : Program W} {call : Call W}
    (hstep : s.step format writer call = some next) :
    next.locals = s.locals.mapIdx (fun index self =>
      (call.localCall index).elim self self.after) ++ s.newLocals call := by
  have hsame : s.locals.mapIdx (fun _ self => self) = s.locals := by
    apply List.ext_getElem?
    intro index
    simp
  cases call with
  -- one local logger changes, and the others stay at their places
  | onLocal changed call =>
      obtain ⟨self, hself, rfl⟩ := Option.map_eq_some_iff.mp hstep
      simp only [Program.newLocals, List.append_nil, Call.localCall]
      apply List.ext_getElem?
      intro index
      rw [List.getElem?_mapIdx, List.getElem?_set]
      split
      · rename_i heq
        subst heq
        obtain ⟨hlength, -⟩ := List.getElem?_eq_some_iff.mp hself
        rw [if_pos hlength, hself]
        simp
      · simp
  -- a new one comes last
  | makeLocal localContext =>
      obtain rfl := Option.some.inj hstep
      exact congrArg (· ++ _) hsame.symm
  | _ =>
      obtain rfl := Option.some.inj hstep
      exact hsame.symm.trans (List.append_nil _).symm

/-- What the history tells of the whole program. -/
structure Told (world : W) (level : Level) (calls : List (Call W)) (s : Program W) : Prop where
  sameWorld : s.world = worldAt world calls
  sameLevel : s.logger.level = levelAt level calls
  globalContext : ∀ key, s.logger.globalContext.lookup key = globalAt calls key
  generators : ∀ key, s.logger.localContextGenerator.lookup key = generatorAt calls key
  number : s.locals.length = calls.countP Call.isMakeLocal
  locals : ∀ index self, s.locals[index]? = some self → ∃ before localContext after,
    LocalAt world level calls index self before localContext after

theorem told_init (world : W) (level : Level) : Told world level [] (Program.init world level) where
  sameWorld := rfl
  sameLevel := rfl
  globalContext := fun _ => Finmap.lookup_empty _
  generators := fun _ => AList.lookup_empty _
  number := rfl
  locals := nofun

/-- A local logger as it is made. -/
theorem Told.made {s : Program W} (h : Told world level calls s) (localContext : StringMap) :
    (s.logger.local s.world localContext).level = levelAt level calls ∧
      ∀ key, (s.logger.local s.world localContext).localContext.lookup key =
        madeAt world calls localContext key := by
  refine ⟨h.sameLevel, fun key => ?_⟩
  refine (lookup_generated _ s.logger.localContextGenerator.nodupKeys s.world localContext
    key).trans ?_
  unfold madeAt
  rw [← h.generators, ← h.sameWorld]
  rfl

theorem Told.step {format : Formatter W} {writer : Writer} {s next : Program W} {call : Call W}
    (h : Told world level calls s) (hstep : s.step format writer call = some next) :
    Told world level (calls ++ [call]) next where
  sameWorld := by
    rw [world_of_step hstep, h.sameWorld]
    exact (History.latest_concat ..).symm
  sameLevel := by
    rw [level_of_step hstep, h.sameLevel]
    exact (History.latest_concat ..).symm
  globalContext := by
    intro key
    rw [(global_of_step hstep).lookup, h.globalContext]
    exact (History.valueAt_concat ..).symm
  generators := by
    intro key
    refine ((generators_of_step hstep).lookup key).trans ?_
    rw [Finmap.lookup_toFinmap, h.generators]
    exact (History.valueAt_concat ..).symm
  number := by
    rw [locals_of_step hstep, List.length_append, List.length_mapIdx, h.number, List.countP_append]
    cases call <;> rfl
  locals := by
    intro index self hself
    rw [locals_of_step hstep, List.getElem?_append, List.length_mapIdx] at hself
    split at hself
    · -- a local logger that was there before
      rw [List.getElem?_mapIdx] at hself
      obtain ⟨old, hold, rfl⟩ := Option.map_eq_some_iff.mp hself
      obtain ⟨before, localContext, after, hlocal⟩ := h.locals index old hold
      exact ⟨before, localContext, after ++ [call], hlocal.concat call⟩
    · -- the one that the call makes
      rename_i hindex
      cases call with
      | makeLocal localContext =>
          obtain ⟨hzero, rfl⟩ : index - s.locals.length = 0 ∧
              s.logger.local s.world localContext = self := by
            rw [Program.newLocals, List.getElem?_singleton] at hself
            simpa using hself
          obtain ⟨hlevel, hcontext⟩ := h.made localContext
          refine ⟨calls, localContext, [], rfl, ?_, hlevel, hcontext⟩
          rw [← h.number]
          omega
      | _ => cases hself

end Locals

/-! ## The lines -/

section Writing

variable {world : W} {level : Level} {calls : List (Call W)} {format : Formatter W}
  {writer : Writer}

/-- The history tells a local logger. -/
theorem LocalAt.unique {index : ℕ} {self other : LocalLogger} {before before' : List (Call W)}
    {localContext localContext' : StringMap} {after after' : List (Call W)}
    (h : LocalAt world level calls index self before localContext after)
    (hother : LocalAt world level calls index other before' localContext' after') :
    self = other := by
  have hcount : before.countP Call.isMakeLocal = before'.countP Call.isMakeLocal :=
    h.number.trans hother.number.symm
  obtain ⟨rfl, hmake, rfl⟩ := History.split_unique rfl rfl (h.split.symm.trans hother.split) hcount
  cases hmake
  have hlevel := h.level.trans hother.level.symm
  have hcontext : self.localContext = other.localContext :=
    Finmap.ext_lookup fun key => (h.context key).trans (hother.context key).symm
  cases self
  cases other
  rw [LocalLogger.mk.injEq]
  exact ⟨hlevel, hcontext⟩

theorem LineOf.unique {call : Call W} {line other : Level × Text}
    (hline : LineOf world level calls format call line)
    (hother : LineOf world level calls format call other) : line = other := by
  cases hline with
  | log hlevel hcontext hglobal _ =>
      cases hother with
      | log hlevel' hcontext' hglobal' _ =>
          rw [Finmap.ext_lookup fun key => (hglobal key).trans (hglobal' key).symm,
            Finmap.ext_lookup fun key => (hcontext key).trans (hcontext' key).symm]
  | onLocal hself hglobal _ =>
      cases hother with
      | onLocal hself' hglobal' _ =>
          rw [Finmap.ext_lookup fun key => (hglobal key).trans (hglobal' key).symm,
            hself.unique hself']

/-- What a call does to the streams. -/
def Prints (world : W) (level : Level) (calls : List (Call W)) (format : Formatter W)
    (writer : Writer) (call : Call W) (streams next : Streams) : Prop :=
  (next = streams ∧ ∀ line, ¬LineOf world level calls format call line) ∨
    ∃ line, LineOf world level calls format call line ∧
      next = writer.write line.1 line.2 streams

theorem Told.writes_log {s : Program W} (h : Told world level calls s) (messageLevel : Level)
    (message : Text) (messageContext : StringMap) :
    Prints world level calls format writer (.log messageLevel message messageContext) s.streams
      (s.logger.log format writer s.world messageLevel message messageContext s.streams) := by
  obtain ⟨hlevel, hcontext⟩ := h.made ∅
  unfold Logger.log
  split
  · rename_i hlow
    refine .inl ⟨rfl, fun line hline => ?_⟩
    cases hline with
    | log hlevel' _ _ hpasses =>
        rw [hlevel', ← h.sameLevel] at hpasses
        omega
  · rename_i hpasses
    refine .inr ⟨_, .log hlevel hcontext h.globalContext (Nat.le_of_not_lt hpasses), ?_⟩
    unfold LocalLogger.log
    rw [h.sameWorld]
    exact if_neg hpasses

theorem Told.writes_onLocal {s : Program W} (h : Told world level calls s) {index : ℕ}
    {self : LocalLogger} (hself : s.locals[index]? = some self) (messageLevel : Level)
    (message : Text) (messageContext : StringMap) :
    Prints world level calls format writer
      (.onLocal index (.log messageLevel message messageContext))
      s.streams (self.log format writer s.world s.logger.globalContext messageLevel message
        messageContext s.streams) := by
  obtain ⟨before, localContext, after, hlocal⟩ := h.locals index self hself
  unfold LocalLogger.log
  split
  · rename_i hlow
    refine .inl ⟨rfl, fun line hline => ?_⟩
    cases hline with
    | onLocal hother _ hpasses =>
        rw [← hlocal.unique hother] at hpasses
        omega
  · rename_i hpasses
    rw [h.sameWorld]
    exact .inr ⟨_, .onLocal hlocal h.globalContext (Nat.le_of_not_lt hpasses), rfl⟩

theorem Told.writes_of_step {s next : Program W} {call : Call W} (h : Told world level calls s)
    (hstep : s.step format writer call = some next) :
    Prints world level calls format writer call s.streams next.streams := by
  cases call with
  | log messageLevel message messageContext =>
      obtain rfl := Option.some.inj hstep
      exact h.writes_log messageLevel message messageContext
  | onLocal index call =>
      obtain ⟨self, hself, rfl⟩ := Option.map_eq_some_iff.mp hstep
      cases call with
      | log messageLevel message messageContext =>
          exact h.writes_onLocal hself messageLevel message messageContext
      | _ => exact .inl ⟨rfl, nofun⟩
  | _ =>
      obtain rfl := Option.some.inj hstep
      exact .inl ⟨rfl, nofun⟩

/-- What lines leave in the streams: on the console those from warnings on are apart. -/
def written (writer : Writer) (lines : List (Level × Text)) : Streams :=
  let put (kept : List (Level × Text)) : Text := kept.flatMap fun line => endl line.2
  match writer with
  | .console => {
      cout := put (lines.filter fun line => line.1.number < Level.warning.number)
      cerr := put (lines.filter fun line => Level.warning.number ≤ line.1.number)
      file := [] }
  | .file => { cout := [], cerr := [], file := put lines }

theorem written_concat (writer : Writer) (lines : List (Level × Text)) (line : Level × Text) :
    writer.write line.1 line.2 (written writer lines) = written writer (lines ++ [line]) := by
  cases writer with
  | console =>
      unfold Writer.write written
      by_cases hlow : line.1.number < Level.warning.number
      · have hnot := Nat.not_le_of_lt hlow
        simp [hlow, hnot, List.filter_append]
      · have hhigh := Nat.le_of_not_lt hlow
        simp [hlow, hhigh, List.filter_append]
  | file => simp [Writer.write, written]

theorem lines_concat_iff {call : Call W} {lines : List (Level × Text)} :
    Lines world level format (calls ++ [call]) lines ↔
      ∃ before, Lines world level format calls before ∧
        ((lines = before ∧ ∀ line, ¬LineOf world level calls format call line) ∨
          ∃ line, LineOf world level calls format call line ∧ lines = before ++ [line]) := by
  constructor
  · intro h
    generalize hall : calls ++ [call] = all at h
    cases h with
    | nil => exact absurd hall (List.concat_ne_nil _ _)
    | silent hlines hsilent =>
        obtain ⟨rfl, hcall⟩ := List.append_inj' hall rfl
        cases hcall
        exact ⟨_, hlines, .inl ⟨rfl, hsilent⟩⟩
    | line hlines hline =>
        obtain ⟨rfl, hcall⟩ := List.append_inj' hall rfl
        cases hcall
        exact ⟨_, hlines, .inr ⟨_, hline, rfl⟩⟩
  · rintro ⟨before, hbefore, ⟨rfl, hsilent⟩ | ⟨line, hline, rfl⟩⟩
    · exact .silent hbefore hsilent
    · exact .line hbefore hline

/-- The history tells the lines. -/
theorem Lines.unique {lines other : List (Level × Text)} (h : Lines world level format calls lines)
    (hother : Lines world level format calls other) : lines = other := by
  induction h generalizing other with
  | nil =>
      generalize hall : ([] : List (Call W)) = all at hother
      cases hother with
      | nil => rfl
      | silent _ _ => exact absurd hall.symm (List.concat_ne_nil _ _)
      | line _ _ => exact absurd hall.symm (List.concat_ne_nil _ _)
  | silent _ hsilent ih =>
      obtain ⟨before, hbefore, ⟨rfl, -⟩ | ⟨line, hline, -⟩⟩ := lines_concat_iff.mp hother
      · exact ih hbefore
      · exact absurd hline (hsilent line)
  | line _ hline ih =>
      obtain ⟨before, hbefore, ⟨-, hsilent⟩ | ⟨found, hfound, rfl⟩⟩ := lines_concat_iff.mp hother
      · exact absurd hline (hsilent _)
      · rw [ih hbefore, hline.unique hfound]

/-- After any run there is in the streams what the history tells, and nothing else: a line for
each message that the level lets pass, as it was set last, with the values of the contexts as
they were added last, in the order of the calls. -/
theorem logger_writes_history (format : Formatter W) (writer : Writer) (world : W) (level : Level)
    (calls : List (Call W)) {last : Program W}
    (hrun : Machine.run (Program.step format writer) (Program.init world level) calls = some last) :
    ∃ lines, Lines world level format calls lines ∧
      (∀ other, Lines world level format calls other → other = lines) ∧
      last.streams = written writer lines := by
  have hall : Told world level calls last ∧ ∃ lines, Lines world level format calls lines ∧
      last.streams = written writer lines := by
    refine Machine.run_induction (P := fun calls last => Told world level calls last ∧
      ∃ lines, Lines world level format calls lines ∧ last.streams = written writer lines)
      ⟨told_init world level, [], .nil, ?_⟩ ?_ hrun
    · cases writer <;> rfl
    · rintro calls mid call next ⟨htold, lines, hlines, hstreams⟩ hstep
      refine ⟨htold.step hstep, ?_⟩
      rcases htold.writes_of_step hstep with ⟨hsame, hsilent⟩ | ⟨line, hline, hwrite⟩
      · exact ⟨lines, .silent hlines hsilent, hsame.trans hstreams⟩
      · refine ⟨lines ++ [line], .line hlines hline, ?_⟩
        rw [hwrite, hstreams, written_concat]
  obtain ⟨-, lines, hlines, hstreams⟩ := hall
  exact ⟨lines, hlines, fun other hother => hother.unique hlines, hstreams⟩

end Writing

/-- The name of the level, and the message behind it. -/
def shortFormat : Formatter Unit := fun _ level message _ _ _ =>
  Text.ofString (levelName level) ++ message

/-- A local logger that is made before the level of its maker changes. -/
def twoLevels : List (Call Unit) :=
  [.makeLocal ∅, .setLevel .error, .log .warning [] ∅, .onLocal 0 (.log .warning [] ∅),
    .onLocal 0 (.log .info [] ∅), .onLocal 0 (.log .debug [] ∅)]

theorem logger_writes_history_twoLevels :
    ∃ lines, Lines () .info shortFormat twoLevels lines ∧
      (written .console lines).cout = Text.ofString "Info\n" ∧
      (written .console lines).cerr = Text.ofString "Warning\n" := by
  obtain ⟨lines, hlines, -, hstreams⟩ :=
    logger_writes_history shortFormat .console () .info twoLevels rfl
  exact ⟨lines, hlines, congrArg Streams.cout hstreams.symm, congrArg Streams.cerr hstreams.symm⟩

end ArmoniKApi.Cpp
