import ArmoniKApi.Library.History
import ArmoniKApi.Library.JsonAscii
import ArmoniKApi.Library.Machine
import Mathlib.Logic.Function.Basic

/-!
# The log of a Python worker

`ClefLogger` writes a line of JSON for each message on the loggers of the module `logging`.  The
keys `@t`, `@l`, `@mt` and `@x` are its own, and a key of the caller that begins with `@` gets one
more in front, as CLEF has it.

The model is the process: the loggers with their levels, and what stands on its standard output.

* `readLog_eq_told`: a reader of the output finds the messages that were let through, each with
  all that it was logged with.
* `stdout_eq_of_sameBut`: the level given to `setup_logging` decides nothing, as long as every
  logger has a level of its own.

## Strategy

The output is one text that grows, and the claim is about reading it again, so the parts of
the proof follow the way of a message:

* `payload_eq`: the dictionary that is printed has the keys of the logger, and then those of
  the caller, under `clefKey`.  Different keys of the caller are written under different names,
  none of which is a name of the logger (`clefKey_injective`, `clefKey_notMem_ownKeys`), so
  nothing takes the place of anything else.
* `readLine_writeObject`: a line is read back to the event (`Library.JsonAscii`), and the
  reader tells the properties from the names of CLEF by the number of signs in front.
* `linesOf_joinLines`: the lines can be told apart, since a line is printable and has no end of
  line in it.
* `adds_step` and `adds_run`: each call adds the line of its event, or nothing.

What is told (`told`) is computed from the calls, with the levels of the loggers at the time.
The text of an exception is whatever the formatter makes of it, and `str` may raise, which the
theorem excludes (`Call.HasTexts`).

For the second theorem two runs are compared step by step, with the invariant that they agree
on everything but the level of the root logger (`Agree.step`).
-/

namespace ArmoniKApi.Python.ClefLogger

/-! ## What is logged -/

/-- `exc_info`.  A `triple` is the type of an exception, the exception and its traceback, and
with `True` comes what `sys.exc_info()` returns. -/
inductive ExcInfo (Triple : Type)
  | none
  | flag (value : Bool) (sysExcInfo : Triple)
  | exception (triple : Triple)
  | tuple (triple : Triple)

/-- `if exc_info`, and the triple that is formatted. -/
def ExcInfo.toTriple? {Triple : Type} : ExcInfo Triple → Option Triple
  | .none => .none
  | .flag false _ => .none
  | .flag true sysExcInfo => some sysExcInfo
  | .exception triple => some triple
  | .tuple triple => some triple

/-- The names of the parameters of `log`. -/
def logParameters : List String := ["self", "level", "message", "exc_info"]

/-- What `**kwargs` of `log` collects: keyword arguments, each with what `str` gives for it, or
raises.  An argument with the name of a parameter is not among them, as Python passes it as that
parameter, or raises a `TypeError` at the call when the parameter has a value already. -/
structure Kwargs where
  items : List (String × Except String String)
  nodup : (items.map Prod.fst).Nodup
  notMem_logParameters : ∀ item ∈ items, item.1 ∉ logParameters

/-- An argument with its text. -/
def asText (item : String × Except String String) : Except String (String × String) :=
  item.2.map fun text => (item.1, text)

/-- The arguments with their texts, or what the first `str` that fails has raised. -/
def Kwargs.texts (kwargs : Kwargs) : Except String (List (String × String)) :=
  kwargs.items.mapM asText

/-- A dictionary of strings, in the order of its insertions. -/
abbrev Dict := List (String × String)

/-- `dict[key] = value`. -/
def setItem (dict : Dict) (key value : String) : Dict :=
  if key ∈ dict.map Prod.fst then
    dict.map fun entry => if entry.1 = key then (key, value) else entry
  else dict ++ [(key, value)]

/-- `k.startswith("@")`. -/
def startsWithAt (k : String) : Bool := k.toList.head? = some '@'

/-- The key under which an argument is written. -/
def clefKey (k : String) : String := if startsWithAt k then "@" ++ k else k

/-- `logging.getLevelName`. -/
def getLevelName (level : Int) : String :=
  if level = 50 then "CRITICAL"
  else if level = 40 then "ERROR"
  else if level = 30 then "WARNING"
  else if level = 20 then "INFO"
  else if level = 10 then "DEBUG"
  else if level = 0 then "NOTSET"
  else s!"Level {level}"

/-- A message for `log`, and the time at which it is logged. -/
structure Message (Triple : Type) where
  now : String
  level : Int
  message : String
  excInfo : ExcInfo Triple
  kwargs : Kwargs

section Payload

variable {Triple : Type} (formatException : Triple → List String)

/-- `payload["@x"]`. -/
def exceptionText (excInfo : ExcInfo Triple) : Option String :=
  excInfo.toTriple?.map fun triple => String.intercalate "\n" (formatException triple)

/-- `payload` before the keyword arguments. -/
def ownPayload (message : Message Triple) : Dict :=
  let payload := [("@t", message.now), ("@l", getLevelName message.level), ("@mt", message.message)]
  match exceptionText formatException message.excInfo with
  | none => payload
  | some text => setItem payload "@x" text

/-- `payload`, or what `str` has raised. -/
def payload (message : Message Triple) : Except String Dict :=
  message.kwargs.items.foldlM
    (fun payload item => item.2.map fun text => setItem payload (clefKey item.1) text)
    (ownPayload formatException message)

end Payload

/-! ## The process -/

/-- The loggers of the module `logging` that there are, with their levels, where the root logger
has the empty name, and what stands on the standard output. -/
structure Process where
  levels : String → Option Int
  workerLoggers : List String
  configured : Bool
  stdout : List Char

/-- The logger that `logging.getLogger` returns for a name.  From Python 3.9 on `"root"` is the
root logger, as the empty name is. -/
def loggerOf (name : String) : String := if name = "root" then "" else name

/-- The names above a name, from the nearest on. -/
def ancestors (name : String) : List String :=
  ((name.toList.inits.filter fun front => (front ++ ['.']).isPrefixOf name.toList).map
    String.ofList).reverse ++ [""]

/-- `getEffectiveLevel`: the first level that is not zero. -/
def getEffectiveLevel (levels : String → Option Int) (name : String) : Int :=
  ((name :: ancestors name).findSome? fun above =>
    (levels above).bind fun level => if level = 0 then none else some level).getD 0

/-- `isEnabledFor`, where `logging.disable` was not called. -/
def isEnabledFor (levels : String → Option Int) (name : String) (level : Int) : Bool :=
  0 < level && getEffectiveLevel levels name ≤ level

/-- What the program does.  A `ClefLogger` is the name that it was made with, and `info`, `debug`
and the others are `log` with their levels. -/
inductive Call (Triple : Type)
  | setupLogging (minlevel : Int)
  | getLogger (name : String)
  | init (name : Option String) (level : Int)
  | setLevel (name : String) (level : Int)
  | log (name : String) (message : Message Triple)

section Process

variable {Triple : Type} (formatException : Triple → List String)

/-- The level of a logger, which is there then. -/
def Process.setLevel (s : Process) (name : String) (level : Int) : Process :=
  { s with levels := Function.update s.levels (loggerOf name) (some level) }

/-- `ClefLogger.log`.  Without a handler nothing comes to the standard output. -/
def Process.log (s : Process) (name : String) (message : Message Triple) : Process :=
  if isEnabledFor s.levels (loggerOf name) message.level then
    match payload formatException message with
    | .ok payload =>
        if s.configured then
          { s with stdout := s.stdout ++ JsonAscii.writeObject payload ++ ['\n'] }
        else s
    | .error e => { s with stdout := s.stdout ++ s!"Couldn't log message : {e}\n".toList }
  else s

/-- One call.  A level is set and a message logged on a logger that there is. -/
def step (s : Process) : Call Triple → Option Process
  | .setupLogging minlevel =>
      some (if s.configured then s else { s.setLevel "" minlevel with configured := true })
  | .getLogger name =>
      some (if name ∈ s.workerLoggers then s
        else { s.setLevel name 20 with workerLoggers := s.workerLoggers ++ [name] })
  | .init name level => some (s.setLevel (name.getD "") level)
  | .setLevel name level => (s.levels (loggerOf name)).map fun _ => s.setLevel name level
  | .log name message =>
      (s.levels (loggerOf name)).map fun _ => s.log formatException name message

/-- The root logger is there from the start. -/
def start : Process where
  levels := Function.update (fun _ => none) "" (some 30)
  workerLoggers := []
  configured := false
  stdout := []

end Process

/-! ## The payload -/

theorem setItem_of_notMem {dict : Dict} {key : String} (hkey : key ∉ dict.map Prod.fst)
    (value : String) : setItem dict key value = dict ++ [(key, value)] :=
  if_neg hkey

theorem toList_clefKey (k : String) :
    (clefKey k).toList = if startsWithAt k then '@' :: k.toList else k.toList := by
  unfold clefKey
  split
  · rw [String.toList_append]
    rfl
  · rfl

/-- A key is told by what it is written under. -/
theorem clefKey_injective : Function.Injective clefKey := by
  intro k other heq
  have hlist := congrArg String.toList heq
  rw [toList_clefKey, toList_clefKey] at hlist
  by_cases hk : startsWithAt k <;> by_cases hother : startsWithAt other
  · rw [if_pos hk, if_pos hother] at hlist
    exact String.toList_inj.mp (List.cons.inj hlist).2
  · rw [if_pos hk, if_neg hother] at hlist
    exact absurd (by rw [startsWithAt, ← hlist]; rfl) hother
  · rw [if_neg hk, if_pos hother] at hlist
    exact absurd (by rw [startsWithAt, hlist]; rfl) hk
  · rw [if_neg hk, if_neg hother] at hlist
    exact String.toList_inj.mp hlist

/-- The keys of the logger. -/
def ownKeys : List String := ["@t", "@l", "@mt", "@x"]

theorem clefKey_notMem_ownKeys (k : String) : clefKey k ∉ ownKeys := by
  intro hmem
  have hown : ∀ key ∈ ownKeys, startsWithAt key ∧ key.toList.tail.head? ≠ some '@' := by decide
  obtain ⟨hat, hsecond⟩ := hown _ hmem
  rw [startsWithAt, decide_eq_true_eq, toList_clefKey] at hat
  rw [toList_clefKey] at hsecond
  by_cases hk : startsWithAt k
  · rw [if_pos hk] at hsecond
    exact hsecond (of_decide_eq_true hk)
  · rw [if_neg hk] at hat
    exact hk (decide_eq_true hat)

theorem foldlM_setItem {items : List (String × Except String String)}
    (hnodup : (items.map Prod.fst).Nodup) {dict : Dict}
    (hnew : ∀ item ∈ items, clefKey item.1 ∉ dict.map Prod.fst) :
    items.foldlM (fun payload item =>
        item.2.map fun text => setItem payload (clefKey item.1) text) dict =
      (items.mapM asText).map fun texts => dict ++ texts.map (Prod.map clefKey id) := by
  induction items generalizing dict with
  | nil => exact congrArg Except.ok (List.append_nil dict).symm
  | cons item items ih =>
      obtain ⟨k, value⟩ := item
      rw [List.map_cons, List.nodup_cons] at hnodup
      obtain ⟨hk, hrest⟩ := hnodup
      obtain ⟨hfirst, hothers⟩ := List.forall_mem_cons.mp hnew
      rw [List.foldlM_cons, List.mapM_cons]
      cases value with
      | error e => rfl
      | ok text =>
          -- two names never have one key, so that each item is a new one
          have hnext : ∀ item ∈ items,
              clefKey item.1 ∉ (dict ++ [(clefKey k, text)]).map Prod.fst := by
            intro item hitem
            rw [List.map_append, List.mem_append, not_or]
            refine ⟨hothers item hitem, fun hmem => hk ?_⟩
            have heq : item.1 = k := clefKey_injective (List.mem_singleton.mp hmem)
            exact heq ▸ (List.mem_map_of_mem hitem : item.1 ∈ items.map Prod.fst)
          have hih := ih hrest hnext
          rw [← setItem_of_notMem hfirst] at hih
          refine hih.trans ?_
          cases items.mapM asText with
          | error e => rfl
          | ok texts =>
              rw [setItem_of_notMem hfirst]
              exact congrArg Except.ok (List.append_assoc ..)

section Payload

variable {Triple : Type} (formatException : Triple → List String)

theorem ownPayload_eq (message : Message Triple) : ownPayload formatException message =
    [("@t", message.now), ("@l", getLevelName message.level), ("@mt", message.message)] ++
      (exceptionText formatException message.excInfo).toList.map fun text => ("@x", text) := by
  unfold ownPayload
  split
  · rename_i hnone
    rw [hnone]
    rfl
  · rename_i text hsome
    rw [hsome]
    exact setItem_of_notMem (show "@x" ∉ ["@t", "@l", "@mt"] by decide) text

theorem keys_ownPayload_subset (message : Message Triple) :
    (ownPayload formatException message).map Prod.fst ⊆ ownKeys := by
  rw [ownPayload_eq]
  cases exceptionText formatException message.excInfo with
  | none => exact show ["@t", "@l", "@mt"] ⊆ ownKeys by decide
  | some text => exact List.Subset.refl ownKeys

/-- The payload has the keys of the logger, and then those of the caller. -/
theorem payload_eq (message : Message Triple) :
    payload formatException message = message.kwargs.texts.map fun texts =>
      ownPayload formatException message ++ texts.map (Prod.map clefKey id) :=
  foldlM_setItem message.kwargs.nodup fun item _ hmem =>
    clefKey_notMem_ownKeys item.1 (keys_ownPayload_subset formatException message hmem)

end Payload

/-! ## What a reader finds -/

/-- An event of CLEF.  The properties are those of the caller. -/
structure Event where
  time : String
  level : String
  message : String
  exception : Option String
  properties : List (String × String)
  deriving DecidableEq

/-- A member that is a property.  A name that begins with one `@` is not one, and one that begins
with two has one too many. -/
def property (member : String × String) : Option (String × String) :=
  match member.1.toList with
  | '@' :: '@' :: rest => some (String.ofList ('@' :: rest), member.2)
  | '@' :: _ => none
  | _ => some member

/-- The event of a line. -/
def readLine (line : List Char) : Option Event := do
  let members ← JsonAscii.readObject line
  let time ← members.lookup "@t"
  let level ← members.lookup "@l"
  let message ← members.lookup "@mt"
  some ⟨time, level, message, members.lookup "@x", members.filterMap property⟩

/-- The lines of an output, each with its end. -/
def linesOf (output : List Char) : List (List Char) := (output.splitOn '\n').dropLast

/-- The events of an output. -/
def readLog (output : List Char) : Option (List Event) := (linesOf output).mapM readLine

theorem property_clefKey (item : String × String) :
    property (Prod.map clefKey id item) = some item := by
  obtain ⟨k, text⟩ := item
  by_cases hk : startsWithAt k
  · obtain ⟨rest, hrest⟩ := List.head?_eq_some_iff.mp (of_decide_eq_true hk)
    have hkey : (clefKey k).toList = '@' :: '@' :: rest := by
      rw [toList_clefKey, if_pos hk, hrest]
    have hback : String.ofList ('@' :: rest) = k := by
      rw [← hrest, String.ofList_toList]
    simp only [Prod.map, id, property, hkey, hback]
  · have hkey : clefKey k = k := if_neg hk
    rw [Prod.map, hkey, property]
    split
    · rename_i rest hrest
      exact absurd (decide_eq_true (congrArg List.head? hrest)) hk
    · rename_i rest _ hrest
      exact absurd (decide_eq_true (congrArg List.head? hrest)) hk
    · rfl

theorem lookup_clefKeys {key : String} (hkey : key ∈ ownKeys) (texts : List (String × String)) :
    (texts.map (Prod.map clefKey id)).lookup key = none := by
  refine List.lookup_eq_none_iff.mpr fun member hmember => ?_
  obtain ⟨item, -, rfl⟩ := List.mem_map.mp hmember
  refine bne_iff_ne.mpr fun heq => clefKey_notMem_ownKeys item.1 ?_
  have hown : key = clefKey item.1 := heq
  exact hown ▸ hkey

theorem property_own {key : String} (hkey : key ∈ ownKeys) (text : String) :
    property (key, text) = none := by
  simp only [ownKeys, List.mem_cons, List.not_mem_nil, or_false] at hkey
  rcases hkey with rfl | rfl | rfl | rfl
  all_goals simp [property]

section Read

variable {Triple : Type} (formatException : Triple → List String)

/-- The event of a message whose arguments have these texts. -/
def Message.event (message : Message Triple) (texts : List (String × String)) : Event :=
  ⟨message.now, getLevelName message.level, message.message,
    exceptionText formatException message.excInfo, texts⟩

theorem readLine_writeObject (message : Message Triple) (texts : List (String × String)) :
    readLine (JsonAscii.writeObject
        (ownPayload formatException message ++ texts.map (Prod.map clefKey id))) =
      some (message.event formatException texts) := by
  have hproperties : (texts.map (Prod.map clefKey id)).filterMap property = texts := by
    rw [List.filterMap_map]
    exact (congrArg (fun f => texts.filterMap f) (funext property_clefKey)).trans
      List.filterMap_some
  have hown : (ownPayload formatException message).filterMap property = [] :=
    List.filterMap_eq_nil_iff.mpr fun member hmember =>
      property_own (keys_ownPayload_subset formatException message (List.mem_map_of_mem hmember)) _
  have htexception : (ownPayload formatException message).lookup "@x" =
      exceptionText formatException message.excInfo := by
    rw [ownPayload_eq]
    cases exceptionText formatException message.excInfo with
    | none => rfl
    | some text => rfl
  -- a property never has the name of one of the four members
  have hx : ((ownPayload formatException message) ++ texts.map (Prod.map clefKey id)).lookup "@x" =
      exceptionText formatException message.excInfo := by
    rw [List.lookup_append, htexception, lookup_clefKeys (by decide), Option.or_none]
  have htime : ((ownPayload formatException message) ++ texts.map (Prod.map clefKey id)).lookup
      "@t" = some message.now := by
    rw [ownPayload_eq]
    rfl
  have hlevel : ((ownPayload formatException message) ++ texts.map (Prod.map clefKey id)).lookup
      "@l" = some (getLevelName message.level) := by
    rw [ownPayload_eq]
    rfl
  have hmessage : ((ownPayload formatException message) ++ texts.map (Prod.map clefKey id)).lookup
      "@mt" = some message.message := by
    rw [ownPayload_eq]
    rfl
  simp only [readLine, JsonAscii.readObject_writeObject, Option.bind_eq_bind, Option.bind_some,
    htime, hlevel, hmessage, hx, List.filterMap_append, hown, hproperties, List.nil_append,
    Message.event]

/-- The event that a call writes. -/
def event? (s : Process) : Call Triple → Option Event
  | .log name message =>
      if s.configured && isEnabledFor s.levels (loggerOf name) message.level then
        message.kwargs.texts.toOption.map (message.event formatException)
      else none
  | _ => none

/-- The events of the calls, one after the other. -/
def told (s : Process) : List (Call Triple) → List Event
  | [] => []
  | call :: calls =>
      (event? formatException s call).toList ++
        ((step formatException s call).map fun next => told next calls).getD []

/-- No `str` fails. -/
def Call.HasTexts : Call Triple → Prop
  | .log _ message => message.kwargs.texts.isOk
  | _ => True

/-- Lines with their ends. -/
def joinLines (lines : List (List Char)) : List Char := lines.flatMap fun line => line ++ ['\n']

theorem linesOf_joinLines {lines : List (List Char)} (hlines : ∀ line ∈ lines, '\n' ∉ line) :
    linesOf (joinLines lines) = lines := by
  have hsplit : (joinLines lines).splitOn '\n' = lines ++ [[]] := by
    induction lines with
    | nil => rfl
    | cons line lines ih =>
        obtain ⟨hline, hrest⟩ := List.forall_mem_cons.mp hlines
        have hcons : joinLines (line :: lines) = line ++ '\n' :: joinLines lines := by
          rw [joinLines, List.flatMap_cons, List.append_assoc]
          rfl
        rw [hcons, List.splitOn_append_cons_self_of_not_mem hline, ih hrest]
        rfl
  rw [linesOf, hsplit, List.dropLast_concat]

/-- What a part of a run adds to the output, told by its events. -/
def Adds (s next : Process) (events : List Event) : Prop :=
  ∃ lines, next.stdout = s.stdout ++ joinLines lines ∧ (∀ line ∈ lines, '\n' ∉ line) ∧
    lines.mapM readLine = some events

theorem adds_nothing {s next : Process} (h : next.stdout = s.stdout) : Adds s next [] :=
  ⟨[], h.trans (List.append_nil _).symm, List.forall_mem_nil _, rfl⟩

theorem Adds.trans {s mid next : Process} {events later : List Event} (h : Adds s mid events)
    (hlater : Adds mid next later) : Adds s next (events ++ later) := by
  obtain ⟨lines, hout, hlines, hread⟩ := h
  obtain ⟨more, hmore, hmoreLines, hmoreRead⟩ := hlater
  refine ⟨lines ++ more, ?_, List.forall_mem_append.mpr ⟨hlines, hmoreLines⟩, ?_⟩
  · rw [hmore, hout, joinLines, joinLines, joinLines, List.flatMap_append, List.append_assoc]
  · rw [List.mapM_append, hread, hmoreRead]
    rfl

theorem adds_log {s : Process} {name : String} {message : Message Triple}
    (htexts : message.kwargs.texts.isOk) :
    Adds s (s.log formatException name message)
      (event? formatException s (.log name message)).toList := by
  have hevent : event? formatException s (.log name message) =
      if s.configured && isEnabledFor s.levels (loggerOf name) message.level then
        message.kwargs.texts.toOption.map (message.event formatException)
      else none := rfl
  rw [hevent]
  unfold Process.log
  cases htext : message.kwargs.texts with
  | error e =>
      rw [htext] at htexts
      exact absurd htexts Bool.false_ne_true
  | ok texts =>
      rw [payload_eq, htext]
      -- a level that is too low, or a process without a handler, adds nothing
      by_cases hlevel : isEnabledFor s.levels (loggerOf name) message.level
      · rw [if_pos hlevel, hlevel, Bool.and_true]
        by_cases hconfigured : s.configured
        · rw [if_pos hconfigured]
          refine ⟨[JsonAscii.writeObject (ownPayload formatException message ++
            texts.map (Prod.map clefKey id))], ?_, ?_, ?_⟩
          · simp [Except.map, hconfigured, joinLines]
          · refine List.forall_mem_singleton.mpr fun hmem => ?_
            exact absurd (JsonAscii.isPrintable_writeObject _ _ hmem) (by decide)
          · rw [List.mapM_cons, readLine_writeObject]
            rfl
        · rw [if_neg hconfigured]
          exact adds_nothing (by simp [Except.map, hconfigured])
      · rw [if_neg hlevel, eq_false_of_ne_true hlevel, Bool.and_false]
        exact adds_nothing rfl

/-- What one call adds. -/
theorem adds_step {s next : Process} {call : Call Triple} (htexts : call.HasTexts)
    (hstep : step formatException s call = some next) :
    Adds s next (event? formatException s call).toList := by
  cases call with
  | setupLogging minlevel =>
      obtain ⟨rfl⟩ := hstep
      exact adds_nothing (by split <;> rfl)
  | getLogger name =>
      obtain ⟨rfl⟩ := hstep
      exact adds_nothing (by split <;> rfl)
  | init name level =>
      obtain ⟨rfl⟩ := hstep
      exact adds_nothing rfl
  | setLevel name level =>
      obtain ⟨_, -, rfl⟩ := Option.map_eq_some_iff.mp hstep
      exact adds_nothing rfl
  | log name message =>
      obtain ⟨_, -, rfl⟩ := Option.map_eq_some_iff.mp hstep
      exact adds_log formatException htexts

theorem adds_run {calls : List (Call Triple)} (htexts : ∀ call ∈ calls, call.HasTexts)
    {s last : Process} (hrun : Machine.run (step formatException) s calls = some last) :
    Adds s last (told formatException s calls) := by
  induction calls generalizing s with
  | nil =>
      obtain ⟨rfl⟩ := hrun
      exact adds_nothing rfl
  | cons call calls ih =>
      obtain ⟨hcall, hrest⟩ := List.forall_mem_cons.mp htexts
      obtain ⟨next, hstep, hnext⟩ := Option.bind_eq_some_iff.mp hrun
      rw [told, hstep]
      exact (adds_step formatException hcall hstep).trans (ih hrest hnext)

/-- A reader of the output finds what was logged and let through, message by message, each with
the arguments that it was logged with. -/
theorem readLog_eq_told {calls : List (Call Triple)} (htexts : ∀ call ∈ calls, call.HasTexts)
    {last : Process} (hrun : Machine.run (step formatException) start calls = some last) :
    readLog last.stdout = some (told formatException start calls) := by
  obtain ⟨lines, hout, hlines, hread⟩ := adds_run formatException htexts hrun
  have hstdout : last.stdout = joinLines lines := hout
  rw [readLog, hstdout, linesOf_joinLines hlines, hread]

/-- A message with an exception and an argument that begins with `@`, and one below the level. -/
def sampleCalls : List (Call (List String)) :=
  let kwargs : Kwargs := ⟨[("task", .ok "é"), ("@t", .ok "1")], by decide, by decide⟩
  [.setupLogging 40, .getLogger "w", .log "w" ⟨"0", 20, "said", .exception ["a", "b"], kwargs⟩,
    .log "w" ⟨"1", 10, "unsaid", .none, kwargs⟩]

theorem readLog_eq_told_sample :
    ∃ last, Machine.run (step id) start sampleCalls = some last ∧
      readLog last.stdout =
        some [⟨"0", "INFO", "said", some "a\nb", [("task", "é"), ("@t", "1")]⟩] := by
  have hsome : (Machine.run (step id) start sampleCalls).isSome := by decide
  refine ⟨_, (Option.some_get hsome).symm, ?_⟩
  rw [readLog_eq_told id ?_ (Option.some_get hsome).symm]
  · decide
  · simp only [sampleCalls, List.forall_mem_cons]
    exact ⟨trivial, trivial, rfl, rfl, List.forall_mem_nil _⟩

end Read

/-! ## The level of `setup_logging` -/

section Minlevel

variable {Triple : Type} (formatException : Triple → List String)

/-- The same call, up to the level given to `setup_logging`. -/
inductive SameBut : Call Triple → Call Triple → Prop
  | setupLogging (minlevel other : Int) : SameBut (.setupLogging minlevel) (.setupLogging other)
  | refl (call : Call Triple) : SameBut call call

/-- No logger loses its level, and the root logger is not logged on, under either of its names. -/
def Call.OnLevels : Call Triple → Prop
  | .init _ level => level ≠ 0
  | .setLevel _ level => level ≠ 0
  | .log name _ => name ≠ "" ∧ name ≠ "root"
  | _ => True

/-- Two processes that differ in the level of the root logger.  The others have levels, none of
which is 0. -/
structure Agree (s t : Process) : Prop where
  levels : ∀ name ≠ "", s.levels name = t.levels name ∧ s.levels name ≠ some 0
  root : (s.levels "").isSome ∧ (t.levels "").isSome
  workerLoggers : s.workerLoggers = t.workerLoggers
  configured : s.configured = t.configured
  stdout : s.stdout = t.stdout

variable {s t : Process}

theorem loggerOf_ne {name : String} (hname : name ≠ "" ∧ name ≠ "root") : loggerOf name ≠ "" := by
  rw [loggerOf, if_neg hname.2]
  exact hname.1

theorem Agree.setLevel (h : Agree s t) (name : String) {level other : Int}
    (hlevel : loggerOf name ≠ "" → level = other ∧ level ≠ 0) :
    Agree (s.setLevel name level) (t.setLevel name other) := by
  refine ⟨fun above habove => ?_, ?_, h.workerLoggers, h.configured, h.stdout⟩
  · by_cases heq : above = loggerOf name
    · obtain ⟨hsame, hzero⟩ := hlevel (heq ▸ habove)
      simp [Process.setLevel, heq, hsame, hsame ▸ hzero]
    · simp only [Process.setLevel, Function.update_of_ne heq]
      exact h.levels above habove
  · by_cases heq : "" = loggerOf name
    · simp [Process.setLevel, ← heq]
    · simp only [Process.setLevel, Function.update_of_ne heq]
      exact h.root

theorem Agree.isSome_eq (h : Agree s t) (name : String) :
    (s.levels name).isSome = (t.levels name).isSome := by
  by_cases hname : name = ""
  · rw [hname, h.root.1, h.root.2]
  · rw [(h.levels name hname).1]

theorem Agree.setupLogging (h : Agree s t) (minlevel other : Int) :
    Agree (if s.configured then s else { s.setLevel "" minlevel with configured := true })
      (if t.configured then t else { t.setLevel "" other with configured := true }) := by
  rw [← h.configured]
  split
  · exact h
  · have hset : Agree (s.setLevel "" minlevel) (t.setLevel "" other) := h.setLevel "" (absurd rfl)
    exact ⟨hset.levels, hset.root, hset.workerLoggers, rfl, hset.stdout⟩

/-- A level of its own decides. -/
theorem getEffectiveLevel_own {levels : String → Option Int} {name : String} {level : Int}
    (hlevel : levels name = some level) (hzero : level ≠ 0) :
    getEffectiveLevel levels name = level := by
  rw [getEffectiveLevel, List.findSome?_cons, hlevel, Option.bind_some, if_neg hzero]
  rfl

theorem Agree.log (h : Agree s t) {name : String} (hname : name ≠ "" ∧ name ≠ "root")
    {own : Int} (hown : s.levels (loggerOf name) = some own) (message : Message Triple) :
    Agree (s.log formatException name message) (t.log formatException name message) := by
  obtain ⟨hsame, hzero⟩ := h.levels (loggerOf name) (loggerOf_ne hname)
  have hne : own ≠ 0 := fun heq => hzero (heq ▸ hown)
  have henabled : isEnabledFor t.levels (loggerOf name) message.level =
      isEnabledFor s.levels (loggerOf name) message.level := by
    rw [isEnabledFor, isEnabledFor, getEffectiveLevel_own hown hne,
      getEffectiveLevel_own (hsame ▸ hown) hne]
  unfold Process.log
  rw [henabled, ← h.configured, ← h.stdout]
  split
  · split
    · split
      · exact ⟨h.levels, h.root, h.workerLoggers, rfl, rfl⟩
      · exact h
    · exact ⟨h.levels, h.root, h.workerLoggers, rfl, rfl⟩
  · exact h

/-- A call keeps two processes together. -/
theorem Agree.step (h : Agree s t) {call other : Call Triple} (hsame : SameBut call other)
    (hlevels : call.OnLevels) {next : Process}
    (hstep : step formatException s call = some next) :
    ∃ result, ClefLogger.step formatException t other = some result ∧ Agree next result := by
  cases hsame with
  -- the one call that differs sets the level of the root only
  | setupLogging minlevel other =>
      obtain ⟨rfl⟩ := hstep
      exact ⟨_, rfl, h.setupLogging minlevel other⟩
  | refl =>
      cases call with
      | setupLogging minlevel =>
          obtain ⟨rfl⟩ := hstep
          exact ⟨_, rfl, h.setupLogging minlevel minlevel⟩
      -- a logger that is there is returned, a new one has its own level
      | getLogger name =>
          obtain ⟨rfl⟩ := hstep
          refine ⟨_, rfl, ?_⟩
          rw [← h.workerLoggers]
          split
          · exact h
          · have hset := h.setLevel name fun _ => ⟨rfl, show (20 : Int) ≠ 0 by decide⟩
            exact ⟨hset.levels, hset.root, rfl, hset.configured, hset.stdout⟩
      | init name level =>
          obtain ⟨rfl⟩ := hstep
          exact ⟨_, rfl, h.setLevel _ fun _ => ⟨rfl, hlevels⟩⟩
      | setLevel name level =>
          obtain ⟨own, hown, rfl⟩ := Option.map_eq_some_iff.mp hstep
          have hthere := h.isSome_eq (loggerOf name)
          rw [hown] at hthere
          obtain ⟨there, hsome⟩ := Option.isSome_iff_exists.mp hthere.symm
          exact ⟨_, by rw [ClefLogger.step, hsome]; rfl, h.setLevel _ fun _ => ⟨rfl, hlevels⟩⟩
      -- the level of the logger itself decides, and that is the same in both
      | log name message =>
          obtain ⟨own, hown, rfl⟩ := Option.map_eq_some_iff.mp hstep
          have hthere : t.levels (loggerOf name) = some own :=
            (h.levels _ (loggerOf_ne hlevels)).1 ▸ hown
          exact ⟨_, by rw [ClefLogger.step, hthere]; rfl,
            h.log formatException hlevels hown message⟩

theorem Agree.run (h : Agree s t) {calls others : List (Call Triple)}
    (hsame : List.Forall₂ SameBut calls others) (hlevels : ∀ call ∈ calls, call.OnLevels)
    {last : Process} (hrun : Machine.run (ClefLogger.step formatException) s calls = some last) :
    ∃ result, Machine.run (ClefLogger.step formatException) t others = some result ∧
      Agree last result := by
  induction hsame generalizing s t with
  | nil =>
      obtain ⟨rfl⟩ := hrun
      exact ⟨t, rfl, h⟩
  | cons hcall _ ih =>
      obtain ⟨hfirst, hrest⟩ := List.forall_mem_cons.mp hlevels
      obtain ⟨next, hstep, hnext⟩ := Option.bind_eq_some_iff.mp hrun
      obtain ⟨mid, hmid, hagree⟩ := h.step formatException hcall hfirst hstep
      obtain ⟨result, hresult, hend⟩ := ih hagree hrest hnext
      exact ⟨result, Option.bind_eq_some_iff.mpr ⟨mid, hmid, hresult⟩, hend⟩

/-- The level given to `setup_logging` decides nothing.  Every logger has one of its own, and is
made with it.  Only on the root logger it decides, until a `ClefLogger` is made of that. -/
theorem stdout_eq_of_sameBut {calls others : List (Call Triple)}
    (hsame : List.Forall₂ SameBut calls others) (hlevels : ∀ call ∈ calls, call.OnLevels)
    {last : Process} (hrun : Machine.run (step formatException) start calls = some last) :
    ∃ result, Machine.run (step formatException) start others = some result ∧
      result.stdout = last.stdout := by
  have hstart : Agree start start := by
    refine ⟨fun name hname => ⟨rfl, ?_⟩, ⟨rfl, rfl⟩, rfl, rfl, rfl⟩
    simp [start, Function.update_of_ne hname]
  obtain ⟨result, hresult, hagree⟩ := hstart.run formatException hsame hlevels hrun
  exact ⟨result, hresult, hagree.stdout.symm⟩

theorem stdout_eq_of_sameBut_sample :
    ∃ last result, Machine.run (step id) start sampleCalls = some last ∧
      Machine.run (step id) start (.setupLogging 10 :: sampleCalls.tail) = some result ∧
        result.stdout = last.stdout := by
  have hsome : (Machine.run (step id) start sampleCalls).isSome := by decide
  have hrun := (Option.some_get hsome).symm
  have hsame : List.Forall₂ SameBut sampleCalls (.setupLogging 10 :: sampleCalls.tail) :=
    .cons (.setupLogging 40 10) (List.forall₂_same.mpr fun call _ => .refl call)
  obtain ⟨result, hresult, hout⟩ := stdout_eq_of_sameBut id hsame (by
    simp only [sampleCalls, List.forall_mem_cons]
    have hnamed : "w" ≠ "" ∧ "w" ≠ "root" := by decide
    exact ⟨trivial, trivial, hnamed, hnamed, List.forall_mem_nil _⟩) hrun
  exact ⟨_, result, hrun, hresult, hout⟩

end Minlevel

end ArmoniKApi.Python.ClefLogger
