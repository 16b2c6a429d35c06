import ArmoniKApi.Library.Json
import ArmoniKApi.Proto.Filters

/-!
# Service configs in JSON

`ServiceConfigExt.ToJson` writes the service config of a C# channel as JSON, by way
of dictionaries.  A reader of the gRPC schema expects a duration as decimal seconds
followed by `s`, and a status code by its gRPC name.  The code misses both in some
cases.

* The fraction of a duration is written with the format `" D9"`.  Its blank makes
  it a custom format of three literal characters, so that a second and a half is
  written `1. D9s`.
* A fraction is written only when the nanoseconds are positive, so that those of a
  negative duration are lost.
* The name of a status code is made from that of the C# enumeration by `ToUpper`,
  which puts no underscores between the words.

`readServiceConfig_toJson_iff` says that the config is read back exactly when the
backoffs are whole seconds and the names of the status codes have one word.

Numbers and names are written as in the invariant culture.  What the libraries do
is a parameter: Newtonsoft's `SerializeObject`, with what it makes of a double, and
protobuf's `Duration.FromTimeSpan`.

## Strategy

The text is read by a reader that is not in the repository.  What the schema asks for is
written as a reader of its own, member by member, and the theorem is about reading back: the
config that is read is the one that was written (`view`).

* A duration: `readDuration_of_nanos_nonpos` and `readDuration_of_nanos_pos` are the two
  branches of the code, and `readDuration_backoff_iff` says that the backoff is read back just
  if it is whole seconds.  `readDuration_decimal` shows that the format without the blank would
  do.
* A status code: `ofGrpcName_upperName_iff` looks at all codes.  A name of one word is the same
  in upper case; one of two words needs an underscore.
* A policy, a method config, a service config: one equivalence each, through the rules of the
  library for members that may be absent and for lists (`optional_backoff_iff`,
  `repeated_statuses_iff`).  The equivalences go up because every part is read by itself.

Null members, members that are missing and the order of members follow the serializer, whose
texts are a parameter with the one assumption that they are read as the value written.
-/

namespace ArmoniKApi.CSharp

/-! ## Service configs -/

/-- `StatusCode`. -/
inductive StatusCode
  | ok
  | cancelled
  | unknown
  | invalidArgument
  | deadlineExceeded
  | notFound
  | alreadyExists
  | permissionDenied
  | unauthenticated
  | resourceExhausted
  | failedPrecondition
  | aborted
  | outOfRange
  | unimplemented
  | internal
  | unavailable
  | dataLoss
  deriving DecidableEq, Repr

/-- A `TimeSpan`, in ticks of a hundred nanoseconds. -/
abbrev TimeSpan := Int

/-- `TimeSpan.TicksPerSecond`. -/
def ticksPerSecond : Int := 10000000

/-- `MethodName`. -/
structure MethodName where
  service : Option String
  method : Option String
  deriving DecidableEq, Repr

/-- `RetryPolicy`, with the type of the multiplier. -/
structure RetryPolicy (Double : Type) where
  maxAttempts : Option Int
  initialBackoff : Option TimeSpan
  maxBackoff : Option TimeSpan
  backoffMultiplier : Option Double
  retryableStatusCodes : List StatusCode

/-- `MethodConfig`. -/
structure MethodConfig (Double : Type) where
  names : List MethodName
  retryPolicy : Option (RetryPolicy Double)

/-- `ServiceConfig`. -/
structure ServiceConfig (Double : Type) where
  methodConfigs : List (MethodConfig Double)

variable {Double : Type}

/-! ## Durations and status codes as texts -/

/-- The characters with a meaning in a custom numeric format. -/
def formatSpecifiers : List Char :=
  ['0', '#', '.', ',', '%', '‰', 'E', 'e', '\\', '\'', '"', ';']

/-- The text has nothing with a meaning in it, so that it is shown as it is. -/
def isLiteral (text : List Char) : Bool := text.all fun c => !formatSpecifiers.contains c

/-- The numeric formats that occur: `D` with a precision, and a custom format of
literal characters. -/
inductive NumericFormat
  | decimal (precision : ℕ)
  | custom (text : List Char) (literal : isLiteral text)

/-- A letter followed by digits is a standard format, any other text is a custom
format. -/
def NumericFormat.parse : List Char → Option NumericFormat
  | [] => none
  | c :: precision =>
      if c.isAlpha && precision.all Char.isDigit then
        if c = 'D' then some (.decimal (Nat.ofDigitChars 10 precision 0)) else none
      else if hliteral : isLiteral (c :: precision) then
        some (.custom (c :: precision) hliteral)
      else none

/-- A custom format without a place for a digit shows its own text only. -/
def NumericFormat.write : NumericFormat → ℕ → List Char
  | .decimal precision, n => Decimal.padded precision n
  | .custom text _, _ => text

/-- The format of the nanoseconds, `" D9"`. -/
def nanosFormat : NumericFormat := (NumericFormat.parse [' ', 'D', '9']).get (by decide)

/-- `ToSimpleString`, with a format for the nanoseconds. -/
def simpleString (format : NumericFormat) (duration : Proto.Duration) : String :=
  toString duration.seconds ++
    if duration.nanos > 0 then
      String.ofList ('.' :: format.write duration.nanos.toNat ++ ['s'])
    else "s"

/-- `ToSimpleString`. -/
def toSimpleString (duration : Proto.Duration) : String := simpleString nanosFormat duration

namespace StatusCode

/-- `ToString`. -/
def toString : StatusCode → String
  | ok => "OK"
  | cancelled => "Cancelled"
  | unknown => "Unknown"
  | invalidArgument => "InvalidArgument"
  | deadlineExceeded => "DeadlineExceeded"
  | notFound => "NotFound"
  | alreadyExists => "AlreadyExists"
  | permissionDenied => "PermissionDenied"
  | unauthenticated => "Unauthenticated"
  | resourceExhausted => "ResourceExhausted"
  | failedPrecondition => "FailedPrecondition"
  | aborted => "Aborted"
  | outOfRange => "OutOfRange"
  | unimplemented => "Unimplemented"
  | internal => "Internal"
  | unavailable => "Unavailable"
  | dataLoss => "DataLoss"

/-- The name in gRPC. -/
def grpcName : StatusCode → String
  | ok => "OK"
  | cancelled => "CANCELLED"
  | unknown => "UNKNOWN"
  | invalidArgument => "INVALID_ARGUMENT"
  | deadlineExceeded => "DEADLINE_EXCEEDED"
  | notFound => "NOT_FOUND"
  | alreadyExists => "ALREADY_EXISTS"
  | permissionDenied => "PERMISSION_DENIED"
  | unauthenticated => "UNAUTHENTICATED"
  | resourceExhausted => "RESOURCE_EXHAUSTED"
  | failedPrecondition => "FAILED_PRECONDITION"
  | aborted => "ABORTED"
  | outOfRange => "OUT_OF_RANGE"
  | unimplemented => "UNIMPLEMENTED"
  | internal => "INTERNAL"
  | unavailable => "UNAVAILABLE"
  | dataLoss => "DATA_LOSS"

/-- All codes, in the order of their numbers. -/
def all : List StatusCode :=
  [ok, cancelled, unknown, invalidArgument, deadlineExceeded, notFound, alreadyExists,
    permissionDenied, unauthenticated, resourceExhausted, failedPrecondition, aborted, outOfRange,
    unimplemented, internal, unavailable, dataLoss]

/-- `status.ToString().ToUpper()`. -/
def upperName (status : StatusCode) : String :=
  String.ofList (status.toString.toList.map Char.toUpper)

/-- The code that has the name in gRPC. -/
def ofGrpcName (name : String) : Option StatusCode :=
  all.find? fun status => status.grpcName = name

/-- The name in gRPC has one word. -/
def OneWord (status : StatusCode) : Prop := '_' ∉ status.grpcName.toList

instance : DecidablePred OneWord :=
  fun status => inferInstanceAs (Decidable ('_' ∉ status.grpcName.toList))

theorem ofGrpcName_upperName_iff (status : StatusCode) :
    ofGrpcName status.upperName = some status ↔ status.OneWord := by
  cases status
  all_goals decide

end StatusCode

/-! ## The dictionaries -/

section ToJson

variable (fromTimeSpan : TimeSpan → Proto.Duration) (double : Double → Json)

/-- `ToDict` of a method name. -/
def MethodName.toDict (methodName : MethodName) : Json :=
  .object (Json.fields [
    ("service", methodName.service.map .string),
    ("method", methodName.method.map .string)])

/-- A backoff as the dictionary has it. -/
def backoff (span : TimeSpan) : Json := .string (toSimpleString (fromTimeSpan span))

/-- `ToDict` of a retry policy. -/
def RetryPolicy.toDict (retryPolicy : RetryPolicy Double) : Json :=
  .object (Json.fields [
    ("backoffMultiplier", retryPolicy.backoffMultiplier.map double),
    ("initialBackoff", retryPolicy.initialBackoff.map (backoff fromTimeSpan)),
    ("maxAttempts", retryPolicy.maxAttempts.map fun n => .number (Decimal.ofInt n) 0),
    ("maxBackoff", retryPolicy.maxBackoff.map (backoff fromTimeSpan)),
    ("retryableStatusCodes",
      if retryPolicy.retryableStatusCodes.length > 0 then
        some (.array (retryPolicy.retryableStatusCodes.map fun status => .string status.upperName))
      else none)])

/-- `ToDict` of a method config. -/
def MethodConfig.toDict (config : MethodConfig Double) : Json :=
  .object (Json.fields [
    ("name", some (.array (config.names.map MethodName.toDict))),
    ("retryPolicy", config.retryPolicy.map (RetryPolicy.toDict fromTimeSpan double))])

/-- `ToDict` of a service config. -/
def ServiceConfig.toDict (config : ServiceConfig Double) : Json :=
  .object (Json.fields [
    ("methodConfig",
      some (.array (config.methodConfigs.map (MethodConfig.toDict fromTimeSpan double))))])

/-- `ToJson`. -/
def ServiceConfig.toJson (serializeObject : Json → String) (config : ServiceConfig Double) :
    String :=
  serializeObject (config.toDict fromTimeSpan double)

end ToJson

/-! ## The schema

What a reader of the gRPC schema makes of a JSON text.  It checks the form of the
values, not their ranges. -/

namespace Grpc

/-- A retry policy, with backoffs in nanoseconds. -/
structure RetryPolicy where
  maxAttempts : Option Int
  initialBackoff : Option Int
  maxBackoff : Option Int
  retryableStatusCodes : List StatusCode
  deriving DecidableEq, Repr

/-- The method names that a config is for, and its retry policy. -/
structure MethodConfig where
  names : List MethodName
  retryPolicy : Option RetryPolicy
  deriving DecidableEq, Repr

/-- What a service config says, as gRPC reads it. -/
structure ServiceConfig where
  methodConfigs : List MethodConfig
  deriving DecidableEq, Repr

/-- A JSON string. -/
def readText : Json → Option String
  | .string text => some text
  | _ => none

/-- A JSON number that is an integer, without a fraction or an exponent. -/
def readInteger : Json → Option Int
  | .number value exponent => if exponent = 0 then value.toInt? else none
  | _ => none

/-- Decimal seconds with at most nine digits of a fraction, followed by `s`. -/
def readDuration : Json → Option Int
  | .string text => do
      let (value, rest) ← Decimal.read text.toList
      if rest = ['s'] ∧ value.fraction.length ≤ 9 then some (value.scaled 9) else none
  | _ => none

/-- A status code, by its name. -/
def readStatusCode : Json → Option StatusCode
  | .string name => StatusCode.ofGrpcName name
  | _ => none

/-- A service and a method, each of which may be absent. -/
def readMethodName : Json → Option MethodName
  | .object members => do
      let service ← Json.optional readText "service" members
      let method ← Json.optional readText "method" members
      some ⟨service, method⟩
  | _ => none

/-- The members may be absent, but each that is there must have its form. -/
def readRetryPolicy : Json → Option RetryPolicy
  | .object members => do
      let maxAttempts ← Json.optional readInteger "maxAttempts" members
      let initialBackoff ← Json.optional readDuration "initialBackoff" members
      let maxBackoff ← Json.optional readDuration "maxBackoff" members
      let retryableStatusCodes ← Json.repeated readStatusCode "retryableStatusCodes" members
      some ⟨maxAttempts, initialBackoff, maxBackoff, retryableStatusCodes⟩
  | _ => none

theorem readRetryPolicy_eq_some_iff {members : List (String × Json)} {policy : RetryPolicy} :
    readRetryPolicy (.object members) = some policy ↔
      Json.optional readInteger "maxAttempts" members = some policy.maxAttempts ∧
      Json.optional readDuration "initialBackoff" members = some policy.initialBackoff ∧
      Json.optional readDuration "maxBackoff" members = some policy.maxBackoff ∧
      Json.repeated readStatusCode "retryableStatusCodes" members =
        some policy.retryableStatusCodes := by
  constructor
  · intro hread
    obtain ⟨maxAttempts, hattempts, hread⟩ := Option.bind_eq_some_iff.mp hread
    obtain ⟨initialBackoff, hinitial, hread⟩ := Option.bind_eq_some_iff.mp hread
    obtain ⟨maxBackoff, hmax, hread⟩ := Option.bind_eq_some_iff.mp hread
    obtain ⟨retryableStatusCodes, hstatuses, hread⟩ := Option.bind_eq_some_iff.mp hread
    cases hread
    exact ⟨hattempts, hinitial, hmax, hstatuses⟩
  · rintro ⟨hattempts, hinitial, hmax, hstatuses⟩
    simp only [readRetryPolicy, hattempts, hinitial, hmax, hstatuses, Option.bind_eq_bind,
      Option.bind_some]

/-- The names, and the policy if there is one. -/
def readMethodConfig : Json → Option MethodConfig
  | .object members => do
      let names ← Json.repeated readMethodName "name" members
      let retryPolicy ← Json.optional readRetryPolicy "retryPolicy" members
      some ⟨names, retryPolicy⟩
  | _ => none

theorem readMethodConfig_eq_some_iff {members : List (String × Json)} {config : MethodConfig} :
    readMethodConfig (.object members) = some config ↔
      Json.repeated readMethodName "name" members = some config.names ∧
      Json.optional readRetryPolicy "retryPolicy" members = some config.retryPolicy := by
  constructor
  · intro hread
    obtain ⟨names, hnames, hread⟩ := Option.bind_eq_some_iff.mp hread
    obtain ⟨retryPolicy, hpolicy, hread⟩ := Option.bind_eq_some_iff.mp hread
    cases hread
    exact ⟨hnames, hpolicy⟩
  · rintro ⟨hnames, hpolicy⟩
    simp only [readMethodConfig, hnames, hpolicy, Option.bind_eq_bind, Option.bind_some]

/-- The method configs. -/
def readServiceConfig : Json → Option ServiceConfig
  | .object members => do
      let methodConfigs ← Json.repeated readMethodConfig "methodConfig" members
      some ⟨methodConfigs⟩
  | _ => none

theorem readServiceConfig_eq_some_iff {members : List (String × Json)}
    {config : ServiceConfig} :
    readServiceConfig (.object members) = some config ↔
      Json.repeated readMethodConfig "methodConfig" members = some config.methodConfigs := by
  constructor
  · intro hread
    obtain ⟨methodConfigs, hconfigs, hread⟩ := Option.bind_eq_some_iff.mp hread
    cases hread
    exact hconfigs
  · intro hconfigs
    simp only [readServiceConfig, hconfigs, Option.bind_eq_bind, Option.bind_some]

/-- Reads a JSON text. -/
def read (text : String) : Option ServiceConfig := do
  let value ← Json.read text.toList
  readServiceConfig value

end Grpc

/-- The policy as the schema has it.  The multiplier is left out. -/
def RetryPolicy.view (policy : RetryPolicy Double) : Grpc.RetryPolicy where
  maxAttempts := policy.maxAttempts
  initialBackoff := policy.initialBackoff.map (· * 100)
  maxBackoff := policy.maxBackoff.map (· * 100)
  retryableStatusCodes := policy.retryableStatusCodes

/-- The config as the schema has it. -/
def MethodConfig.view (config : MethodConfig Double) : Grpc.MethodConfig where
  names := config.names
  retryPolicy := config.retryPolicy.map RetryPolicy.view

/-- The config as the schema has it. -/
def ServiceConfig.view (config : ServiceConfig Double) : Grpc.ServiceConfig where
  methodConfigs := config.methodConfigs.map MethodConfig.view

/-! ## Reading durations back -/

/-- What protobuf documents of `Duration.FromTimeSpan`: the same length of time, with
a fraction of less than a second and of the sign of the seconds. -/
structure Represents (duration : Proto.Duration) (span : TimeSpan) : Prop where
  total : duration.seconds * 1000000000 + duration.nanos = span * 100
  fraction : -1000000000 < duration.nanos ∧ duration.nanos < 1000000000
  sign : (0 < duration.nanos → 0 ≤ duration.seconds) ∧
    (duration.nanos < 0 → duration.seconds ≤ 0)

theorem toList_simpleString (format : NumericFormat) (duration : Proto.Duration) :
    (simpleString format duration).toList =
      (Decimal.ofInt duration.seconds).write ++
        if duration.nanos > 0 then '.' :: format.write duration.nanos.toNat ++ ['s']
        else ['s'] := by
  rw [simpleString, String.toList_append, Decimal.write_ofInt]
  split
  · rw [String.toList_ofList]
  · rfl

theorem noNumber_unit : Decimal.NoNumber ['s'] := by
  rintro c ⟨⟩
  decide

/-- Without a fraction the seconds are read. -/
theorem readDuration_of_nanos_nonpos {format : NumericFormat} {duration : Proto.Duration}
    (hnanos : duration.nanos ≤ 0) :
    Grpc.readDuration (.string (simpleString format duration)) =
      some (duration.seconds * 1000000000) := by
  simp only [Grpc.readDuration, toList_simpleString, if_neg (Int.not_lt.mpr hnanos),
    Decimal.read_write_append _ noNumber_unit, Option.bind_eq_bind, Option.bind_some,
    Decimal.scaled_ofInt]
  rfl

/-- A fraction with the format of the code is not read. -/
theorem readDuration_of_nanos_pos {duration : Proto.Duration} (hnanos : 0 < duration.nanos) :
    Grpc.readDuration (.string (toSimpleString duration)) = none := by
  have hrest : Decimal.NoDigit [' ', 'D', '9', 's'] := by
    rintro c ⟨⟩
    decide
  have htext : (toSimpleString duration).toList =
      (Decimal.ofInt duration.seconds).write ++ ['.', ' ', 'D', '9', 's'] := by
    rw [toSimpleString, toList_simpleString, if_pos hnanos]
    rfl
  simp only [Grpc.readDuration, htext, Decimal.read_ofInt_point _ hrest, Option.bind_eq_bind,
    Option.bind_none]

/-- The format without the blank would do for durations that are not negative. -/
theorem readDuration_decimal {duration : Proto.Duration} {span : TimeSpan}
    (hspan : Represents duration span) (hnanos : 0 < duration.nanos) :
    Grpc.readDuration (.string (simpleString (.decimal 9) duration)) = some (span * 100) := by
  have htotal := hspan.total
  have hseconds := hspan.sign.1 hnanos
  have hfraction := hspan.fraction.2
  -- nine digits behind the point, whatever the nanoseconds are
  have hlength : (Decimal.padded 9 duration.nanos.toNat).length = 9 :=
    Decimal.length_padded (by decide) (by omega)
  let value : Decimal := ⟨false, duration.seconds.natAbs, Decimal.padded 9 duration.nanos.toNat,
    Decimal.isDigit_padded 9 _⟩
  have hne : value.fraction ≠ [] := by
    intro hnil
    rw [show value.fraction = Decimal.padded 9 duration.nanos.toNat from rfl] at hnil
    rw [hnil] at hlength
    cases hlength
  have htext : (simpleString (.decimal 9) duration).toList = value.write ++ ['s'] := by
    have hnegative : ¬duration.seconds < 0 := Int.not_lt.mpr hseconds
    rw [toList_simpleString, if_pos hnanos, Decimal.write, Decimal.write, if_neg hne]
    simp [value, Decimal.ofInt, hnegative, NumericFormat.write]
  have hscaled : value.scaled 9 = span * 100 := by
    have habs : (duration.seconds.natAbs : Int) = duration.seconds := by omega
    have hnat : (duration.nanos.toNat : Int) = duration.nanos := by omega
    simp only [value, Decimal.scaled, Decimal.ofDigitChars_padded, hlength, Bool.false_eq_true,
      if_false, Int.natCast_add, Int.natCast_mul, habs, hnat]
    omega
  simp only [Grpc.readDuration, htext, Decimal.read_write_append _ noNumber_unit,
    Option.bind_eq_bind, Option.bind_some, hscaled]
  exact if_pos ⟨trivial, Nat.le_of_eq hlength⟩

theorem readDuration_backoff_iff {fromTimeSpan : TimeSpan → Proto.Duration} {span : TimeSpan}
    (hspan : Represents (fromTimeSpan span) span) :
    Grpc.readDuration (backoff fromTimeSpan span) = some (span * 100) ↔
      ticksPerSecond ∣ span := by
  have htotal := hspan.total
  have hfraction := hspan.fraction
  unfold backoff
  rcases Int.lt_or_le 0 (fromTimeSpan span).nanos with hnanos | hnanos
  · rw [readDuration_of_nanos_pos hnanos]
    simp only [reduceCtorEq, false_iff, ticksPerSecond]
    omega
  · rw [toSimpleString, readDuration_of_nanos_nonpos hnanos, Option.some.injEq, ticksPerSecond]
    omega

/-! ## Reading configs back -/

/-- The backoffs are whole seconds, and the names of the status codes have one
word. -/
structure RetryPolicy.Plain (policy : RetryPolicy Double) : Prop where
  initialBackoff : ∀ span ∈ policy.initialBackoff, ticksPerSecond ∣ span
  maxBackoff : ∀ span ∈ policy.maxBackoff, ticksPerSecond ∣ span
  retryableStatusCodes : ∀ status ∈ policy.retryableStatusCodes, status.OneWord

theorem readMethodName_toDict (methodName : MethodName) :
    Grpc.readMethodName methodName.toDict = some methodName := by
  obtain ⟨service, method⟩ := methodName
  cases service
  all_goals cases method
  all_goals rfl

section ReadToJson

variable {fromTimeSpan : TimeSpan → Proto.Duration} {double : Double → Json}
  {members : List (String × Json)} {key : String}

theorem optional_attempts {attempts : Option Int}
    (hlookup : members.lookup key = attempts.map fun n => .number (Decimal.ofInt n) 0) :
    Json.optional Grpc.readInteger key members = some attempts := by
  have hread : Json.optional Grpc.readInteger key members = some (attempts.map id) := by
    refine (Json.optional_eq_some_iff (fun _ h => by cases h) hlookup).mpr fun n _ => ?_
    simp [Grpc.readInteger]
  rwa [Option.map_id] at hread

theorem optional_backoff_iff (hfrom : ∀ span, Represents (fromTimeSpan span) span)
    {span : Option TimeSpan} (hlookup : members.lookup key = span.map (backoff fromTimeSpan)) :
    Json.optional Grpc.readDuration key members = some (span.map (· * 100)) ↔
      ∀ given ∈ span, ticksPerSecond ∣ given := by
  rw [Json.optional_eq_some_iff (fun _ h => by cases h) hlookup]
  exact forall₂_congr fun given _ => readDuration_backoff_iff (hfrom given)

theorem repeated_statuses_iff {statuses : List StatusCode}
    (hlookup : members.lookup key =
      if statuses.length > 0 then
        some (.array (statuses.map fun status => .string status.upperName))
      else none) :
    Json.repeated Grpc.readStatusCode key members = some statuses ↔
      ∀ status ∈ statuses, status.OneWord := by
  have hcases : members.lookup key =
        some (.array (statuses.map fun status => .string status.upperName)) ∨
      statuses = [] ∧ members.lookup key = none := by
    rw [hlookup]
    split
    · exact Or.inl rfl
    · rename_i hempty
      exact Or.inr ⟨List.length_eq_zero_iff.mp (Nat.eq_zero_of_not_pos hempty), rfl⟩
  have hread : Json.repeated Grpc.readStatusCode key members = some (statuses.map id) ↔
      ∀ status ∈ statuses, status.OneWord := by
    rw [Json.repeated_eq_some_iff hcases]
    exact forall₂_congr fun status _ => status.ofGrpcName_upperName_iff
  rwa [List.map_id] at hread

theorem readRetryPolicy_toDict_iff (hfrom : ∀ span, Represents (fromTimeSpan span) span)
    (policy : RetryPolicy Double) :
    Grpc.readRetryPolicy (policy.toDict fromTimeSpan double) = some policy.view ↔
      policy.Plain := by
  rw [RetryPolicy.toDict, Grpc.readRetryPolicy_eq_some_iff, RetryPolicy.view,
    optional_backoff_iff hfrom (by simp [Json.lookup_fields_cons]),
    optional_backoff_iff hfrom (by simp [Json.lookup_fields_cons]),
    repeated_statuses_iff (by simp [Json.lookup_fields_cons])]
  constructor
  · rintro ⟨-, hinitial, hmax, hstatuses⟩
    exact ⟨hinitial, hmax, hstatuses⟩
  · intro hplain
    refine ⟨optional_attempts ?_, hplain.initialBackoff, hplain.maxBackoff,
      hplain.retryableStatusCodes⟩
    simp [Json.lookup_fields_cons]

theorem repeated_names {names : List MethodName}
    (hlookup : members.lookup key = some (.array (names.map MethodName.toDict))) :
    Json.repeated Grpc.readMethodName key members = some names := by
  have hread : Json.repeated Grpc.readMethodName key members = some (names.map id) :=
    (Json.repeated_eq_some_iff (Or.inl hlookup)).mpr fun name _ => readMethodName_toDict name
  rwa [List.map_id] at hread

theorem readMethodConfig_toDict_iff (hfrom : ∀ span, Represents (fromTimeSpan span) span)
    (config : MethodConfig Double) :
    Grpc.readMethodConfig (config.toDict fromTimeSpan double) = some config.view ↔
      ∀ policy ∈ config.retryPolicy, policy.Plain := by
  have hpolicy : ∀ members : List (String × Json), members.lookup "retryPolicy" =
      config.retryPolicy.map (RetryPolicy.toDict fromTimeSpan double) →
        (Json.optional Grpc.readRetryPolicy "retryPolicy" members =
            some (config.retryPolicy.map RetryPolicy.view) ↔
          ∀ policy ∈ config.retryPolicy, policy.Plain) := by
    intro members hlookup
    rw [Json.optional_eq_some_iff (fun _ h => by cases h) hlookup]
    exact forall₂_congr fun policy _ => readRetryPolicy_toDict_iff hfrom policy
  rw [MethodConfig.toDict, Grpc.readMethodConfig_eq_some_iff, MethodConfig.view,
    hpolicy _ (by simp [Json.lookup_fields_cons])]
  refine and_iff_right (repeated_names ?_)
  simp [Json.lookup_fields_cons]

theorem readServiceConfig_toDict_iff (hfrom : ∀ span, Represents (fromTimeSpan span) span)
    (config : ServiceConfig Double) :
    Grpc.readServiceConfig (config.toDict fromTimeSpan double) = some config.view ↔
      ∀ methodConfig ∈ config.methodConfigs, ∀ policy ∈ methodConfig.retryPolicy,
        policy.Plain := by
  have hconfigs : ∀ members : List (String × Json), members.lookup "methodConfig" =
      some (.array (config.methodConfigs.map (MethodConfig.toDict fromTimeSpan double))) →
        (Json.repeated Grpc.readMethodConfig "methodConfig" members =
            some (config.methodConfigs.map MethodConfig.view) ↔
          ∀ methodConfig ∈ config.methodConfigs, ∀ policy ∈ methodConfig.retryPolicy,
            policy.Plain) := by
    intro members hlookup
    rw [Json.repeated_eq_some_iff (Or.inl hlookup)]
    exact forall₂_congr fun methodConfig _ => readMethodConfig_toDict_iff hfrom methodConfig
  rw [ServiceConfig.toDict, Grpc.readServiceConfig_eq_some_iff, ServiceConfig.view,
    hconfigs _ (by simp [Json.lookup_fields_cons])]

end ReadToJson

/-- The config is read back from the JSON text if and only if every backoff is a
whole number of seconds and every status code has a name of one word. -/
theorem readServiceConfig_toJson_iff {fromTimeSpan : TimeSpan → Proto.Duration}
    (hfrom : ∀ span, Represents (fromTimeSpan span) span) {serializeObject : Json → String}
    (hserialize : ∀ value, Json.read (serializeObject value).toList = some value)
    (double : Double → Json) (config : ServiceConfig Double) :
    Grpc.read (config.toJson fromTimeSpan double serializeObject) = some config.view ↔
      ∀ methodConfig ∈ config.methodConfigs, ∀ policy ∈ methodConfig.retryPolicy,
        policy.Plain := by
  rw [Grpc.read, ServiceConfig.toJson, hserialize]
  exact readServiceConfig_toDict_iff hfrom config

/-! ## Configs that are read back, and configs that are not -/

/-- `FromTimeSpan`, with C#'s division towards 0. -/
def fromTimeSpan (span : TimeSpan) : Proto.Duration where
  seconds := span.tdiv ticksPerSecond
  nanos := span.tmod ticksPerSecond * 100

theorem represents_fromTimeSpan (span : TimeSpan) : Represents (fromTimeSpan span) span where
  total := by
    have hdivision := Int.mul_tdiv_add_tmod span ticksPerSecond
    simp only [fromTimeSpan, ticksPerSecond] at *
    omega
  fraction := by
    simp only [fromTimeSpan, ticksPerSecond, Int.tmod_eq_emod]
    split <;> omega
  sign := by
    have hsign : Int.sign 10000000 = 1 := rfl
    simp only [fromTimeSpan, ticksPerSecond, Int.tmod_eq_emod, Int.tdiv_eq_ediv, hsign]
    split <;> omega

/-- `SerializeObject`, without blanks. -/
def serializeObject (value : Json) : String := String.ofList value.write

theorem read_serializeObject (value : Json) :
    Json.read (serializeObject value).toList = some value := by
  rw [serializeObject, String.toList_ofList, Json.read_write]

/-- The config of the client's channels, with a double given as a decimal number. -/
def channelConfig (initialBackOff : TimeSpan) (retryableStatusCodes : List StatusCode) :
    ServiceConfig Decimal where
  methodConfigs := [{
    names := [⟨none, none⟩]
    retryPolicy := some {
      maxAttempts := some 5
      initialBackoff := some initialBackOff
      maxBackoff := some 50000000
      backoffMultiplier := some ⟨false, 1, ['5'], List.forall_mem_singleton.mpr rfl⟩
      retryableStatusCodes := retryableStatusCodes } }]

/-- `ToJson` with the libraries above. -/
def channelJson (initialBackOff : TimeSpan) (retryableStatusCodes : List StatusCode) : String :=
  (channelConfig initialBackOff retryableStatusCodes).toJson fromTimeSpan
    (fun value => .number value 0) serializeObject

/-- The defaults of the client. -/
theorem readServiceConfig_toJson_iff_defaults :
    Grpc.read (channelJson 10000000 [.unavailable, .aborted, .unknown]) =
      some (channelConfig 10000000 [.unavailable, .aborted, .unknown]).view := by
  refine (readServiceConfig_toJson_iff represents_fromTimeSpan read_serializeObject _ _).mpr ?_
  intro methodConfig hmethod policy hpolicy
  obtain rfl := List.mem_singleton.mp hmethod
  cases hpolicy
  refine ⟨?_, ?_, by decide⟩
  · rintro _ ⟨⟩
    decide
  · rintro _ ⟨⟩
    decide

/-- A second and a half is written so that it cannot be read, and so is
`DeadlineExceeded`; minus half a second is read as no time at all. -/
theorem channelJson_not_read :
    toSimpleString (fromTimeSpan 15000000) = "1. D9s" ∧
      Grpc.read (channelJson 15000000 [.unavailable]) = none ∧
      StatusCode.deadlineExceeded.upperName = "DEADLINEEXCEEDED" ∧
      Grpc.read (channelJson 10000000 [.deadlineExceeded]) = none ∧
      toSimpleString (fromTimeSpan (-5000000)) = "0s" ∧
      Grpc.read (channelJson (-5000000) [.unavailable]) ≠
        some (channelConfig (-5000000) [.unavailable]).view := by
  have hread : ∀ initialBackOff codes, Grpc.read (channelJson initialBackOff codes) =
      Grpc.readServiceConfig ((channelConfig initialBackOff codes).toDict fromTimeSpan
        fun value => .number value 0) := by
    intro initialBackOff codes
    rw [Grpc.read, channelJson, ServiceConfig.toJson, read_serializeObject]
    rfl
  refine ⟨by decide, ?_, by decide, ?_, by decide, ?_⟩
  · rw [hread]
    decide
  · rw [hread]
    decide
  · rw [hread]
    decide

end ArmoniKApi.CSharp
