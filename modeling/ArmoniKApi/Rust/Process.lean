import ArmoniKApi.Rust.CreateTasks

/-!
# The equality of task options and of process requests

`TaskOptions` has an equality of its own, which compares every field but the map
`options`.  The request to process a task compares its options with it.

Two values that are equal have the same encoding unless they differ in that map
and in nothing else (`equality_faithful_iff`).

`SameEncoding` leaves out the order in which a map is listed, as the encoding of a map has
none.  It is said first for the options, and then for requests in its terms.

* `TaskOptions.eq_iff`: equal options are the same, but for the map.
* `TaskOptions.sameEncoding_iff`: equal options have the same encoding just when their maps have
  the same entries.
* `ProcessRequest.eq_iff`, `ProcessRequest.sameEncoding_iff`: the same for requests, whose
  equality compares all other fields, and the options by their own equality.
-/

namespace ArmoniKApi.Rust

/-! ## Task options -/

namespace TaskOptions

/-- `PartialEq`. -/
protected def eq (self other : TaskOptions) : Bool :=
  self.maxDuration.seconds == other.maxDuration.seconds
    && self.maxDuration.nanos == other.maxDuration.nanos
    && self.maxRetries == other.maxRetries
    && self.priority == other.priority
    && self.partitionId == other.partitionId
    && self.applicationName == other.applicationName
    && self.applicationVersion == other.applicationVersion
    && self.applicationNamespace == other.applicationNamespace
    && self.applicationService == other.applicationService
    && self.engineType == other.engineType

/-- Equal values are the same but for the map. -/
theorem eq_iff (a b : TaskOptions) : a.eq b = true ↔ { a with options := b.options } = b := by
  obtain ⟨_, ⟨_, _⟩, _, _, _, _, _, _, _, _⟩ := a
  obtain ⟨_, ⟨_, _⟩, _, _, _, _, _, _, _, _⟩ := b
  simp only [TaskOptions.eq, Bool.and_eq_true, beq_iff_eq, TaskOptions.mk.injEq,
    Proto.Duration.mk.injEq, true_and, and_assoc]

/-- The encodings are the same, up to the order of the map. -/
structure SameEncoding (a b : Proto.TaskOptions) : Prop where
  options : a.options.Perm b.options
  others : { a with options := [] } = { b with options := [] }

/-- Equal values have the same encoding just when their maps have the same
entries. -/
theorem sameEncoding_iff {a b : TaskOptions} (heq : a.eq b = true) :
    SameEncoding (codec.encode a) (codec.encode b) ↔ a.options.Perm b.options := by
  rw [eq_iff] at heq
  constructor
  · intro hsame
    exact hsame.options
  · intro hperm
    refine ⟨hperm, ?_⟩
    rw [← heq]
    rfl

end TaskOptions

/-! ## Process requests -/

/-- `Configuration`. -/
structure Configuration where
  dataChunkMaxSize : Int
  deriving DecidableEq, Repr

/-- `From<Configuration>`. -/
def Configuration.toV3 (value : Configuration) : Proto.Configuration where
  dataChunkMaxSize := value.dataChunkMaxSize

/-- `process::Request`. -/
structure ProcessRequest where
  communicationToken : String
  sessionId : String
  taskId : String
  taskOptions : TaskOptions
  expectedOutputKeys : List String
  payloadId : String
  dataDependencies : List String
  dataFolder : String
  configuration : Configuration
  deriving Repr

namespace ProcessRequest

/-- Both message fields are always set. -/
def toV3 (value : ProcessRequest) : Proto.ProcessRequest where
  communicationToken := value.communicationToken
  sessionId := value.sessionId
  taskId := value.taskId
  taskOptions := TaskOptions.codec.encode value.taskOptions
  expectedOutputKeys := value.expectedOutputKeys
  payloadId := value.payloadId
  dataDependencies := value.dataDependencies
  dataFolder := value.dataFolder
  configuration := value.configuration.toV3

/-- The derived `PartialEq`. -/
protected def eq (self other : ProcessRequest) : Bool :=
  self.communicationToken == other.communicationToken
    && self.sessionId == other.sessionId
    && self.taskId == other.taskId
    && self.taskOptions.eq other.taskOptions
    && self.expectedOutputKeys == other.expectedOutputKeys
    && self.payloadId == other.payloadId
    && self.dataDependencies == other.dataDependencies
    && self.dataFolder == other.dataFolder
    && self.configuration == other.configuration

/-- The request with another map among its options. -/
def withOptions (self : ProcessRequest) (options : List (String × String)) : ProcessRequest :=
  { self with taskOptions := { self.taskOptions with options := options } }

theorem eq_iff (a b : ProcessRequest) :
    a.eq b = true ↔ a.withOptions b.taskOptions.options = b := by
  obtain ⟨_, _, _, _, _, _, _, _, _⟩ := a
  obtain ⟨_, _, _, _, _, _, _, _, _⟩ := b
  simp only [ProcessRequest.eq, Bool.and_eq_true, beq_iff_eq, TaskOptions.eq_iff, withOptions,
    ProcessRequest.mk.injEq, and_assoc]

/-- The two messages are the same but for what the encoding does not tell apart: the order
in which the options of the task are listed. -/
structure SameEncoding (a b : Proto.ProcessRequest) : Prop where
  taskOptions : TaskOptions.SameEncoding a.taskOptions b.taskOptions
  others : { a with taskOptions := default } = { b with taskOptions := default }

theorem sameEncoding_iff {a b : ProcessRequest} (heq : a.eq b = true) :
    SameEncoding a.toV3 b.toV3 ↔ a.taskOptions.options.Perm b.taskOptions.options := by
  rw [eq_iff] at heq
  have hoptions : a.taskOptions.eq b.taskOptions = true := by
    rw [TaskOptions.eq_iff]
    exact congrArg taskOptions heq
  have htaskOptions := TaskOptions.sameEncoding_iff hoptions
  constructor
  · intro hsame
    exact htaskOptions.mp hsame.taskOptions
  · intro hperm
    refine ⟨htaskOptions.mpr hperm, ?_⟩
    rw [← heq]
    rfl

end ProcessRequest

/-! ## What the equality keeps apart -/

/-- Values that are equal have the same encoding exactly when their maps have the
same entries, or when they differ in something else and so are not equal. -/
theorem equality_faithful_iff (a b : TaskOptions) (request other : ProcessRequest) :
    ((a.eq b = true → TaskOptions.SameEncoding (TaskOptions.codec.encode a)
        (TaskOptions.codec.encode b)) ↔
      a.options.Perm b.options ∨ { a with options := b.options } ≠ b) ∧
    ((request.eq other = true → ProcessRequest.SameEncoding request.toV3 other.toV3) ↔
      request.taskOptions.options.Perm other.taskOptions.options ∨
        request.withOptions other.taskOptions.options ≠ other) := by
  constructor
  · rw [Ne, ← TaskOptions.eq_iff, or_comm, ← imp_iff_not_or]
    exact forall_congr' TaskOptions.sameEncoding_iff
  · rw [Ne, ← ProcessRequest.eq_iff, or_comm, ← imp_iff_not_or]
    exact forall_congr' ProcessRequest.sameEncoding_iff

/-- Options with one entry in the map. -/
def oneOption (value : String) : TaskOptions where
  options := [("gpu", value)]
  maxDuration := infiniteDuration
  maxRetries := 1
  priority := 1
  partitionId := ""
  applicationName := ""
  applicationVersion := ""
  applicationNamespace := ""
  applicationService := ""
  engineType := ""

/-- A request whose task has one option. -/
def oneOptionRequest (value : String) : ProcessRequest where
  communicationToken := "token"
  sessionId := "session"
  taskId := "task"
  taskOptions := oneOption value
  expectedOutputKeys := ["output"]
  payloadId := "payload"
  dataDependencies := []
  dataFolder := "/data"
  configuration := ⟨80 * 1024⟩

/-- Options that differ in an entry of the map are equal, and so are the requests
that hold them. -/
theorem equality_ignores_options :
    (oneOption "0").eq (oneOption "1") = true ∧
      ¬ TaskOptions.SameEncoding (TaskOptions.codec.encode (oneOption "0"))
        (TaskOptions.codec.encode (oneOption "1")) ∧
      (oneOptionRequest "0").eq (oneOptionRequest "1") = true ∧
      ¬ ProcessRequest.SameEncoding (oneOptionRequest "0").toV3 (oneOptionRequest "1").toV3 := by
  have hdiffer : ¬ ([("gpu", "0")] : List (String × String)).Perm [("gpu", "1")] := by decide
  refine ⟨by decide, fun hsame => hdiffer hsame.options, by decide, fun hsame => ?_⟩
  exact hdiffer hsame.taskOptions.options

end ArmoniKApi.Rust
