import ArmoniKApi.Library.Fallible
import ArmoniKApi.Library.UriText
import Mathlib.Algebra.Group.Nat.Defs

/-!
# The configuration of a Rust client

`ClientConfig::from_config_args` reads the options of a client, which are texts, and
refuses those that make no sense.  The option `override_target_name` gives the server
another name than its endpoint.  It is a bare authority or a URI, and what it leaves
out comes from the endpoint:

```text
            scheme      authority                  path and query
authority   endpoint    override                   endpoint
URI         endpoint    override, else endpoint    override
```

`fromConfigArgs_overrideTarget` says that the target of an accepted configuration has
these parts.

The crate `http` reads and writes the URIs.  It is a parameter (`Http`), of which the
code relies on `Http.Lawful`: the parts of a URI are those that it was parsed into or
built from.  The files, the certificates in them and the durations of `humantime` are
parameters too.

An error is a value of `ConfigError`.  It carries the texts that the source puts into its
message, but not the error of the crate that caused it.

## Strategy

* `fromConfigArgs_eq_ok_iff`: the options are accepted if and only if each part of the
  configuration can be read (`IsReadFrom`, one field for each part).  All later results
  start from it and never look at the order in which the parts are read.
* `overrideParts_cases`: an override is a bare authority, or else a URI.  In the first case the
  path is missing and is filled in from the endpoint, in the second it is the authority that
  may be missing.
* `overrideTarget_eq`: the target is built from the parts, in either case.
* `textHttp` is an instance of `Http` on which the examples are evaluated.
-/

namespace ArmoniKApi.Rust

open Fallible

/-! ## URIs -/

/-- `http::uri::Parts`.  Each part is kept as its text. -/
structure UriParts where
  scheme : Option String
  authority : Option String
  pathAndQuery : Option String
  deriving DecidableEq, Repr

/-- What the code uses of the crate `http`. -/
structure Http where
  Uri : Type
  /-- `Uri::try_from`. -/
  parse : String → Option Uri
  /-- `str::parse::<Authority>`. -/
  parseAuthority : String → Option String
  scheme : Uri → Option String
  authority : Uri → Option String
  pathAndQuery : Uri → Option String
  /-- `Uri::host`. -/
  host : Uri → Option String
  /-- `Authority::host`. -/
  authorityHost : String → String
  intoParts : Uri → UriParts
  /-- `uri::Builder::build`. -/
  build : UriParts → Option Uri
  toString : Uri → String
  /-- `HeaderValue::from_str`. -/
  headerValue : String → Option String

/-- What the code relies on. -/
structure Http.Lawful (http : Http) : Prop where
  /-- A URI that was parsed is taken apart into what its accessors return. -/
  intoParts_of_parse : ∀ {text uri}, http.parse text = some uri →
    http.intoParts uri = ⟨http.scheme uri, http.authority uri, http.pathAndQuery uri⟩
  /-- It is not empty. -/
  isSome_of_parse : ∀ {text uri}, http.parse text = some uri →
    (http.authority uri).isSome ∨ (http.pathAndQuery uri).isSome
  /-- A URI that was built has the parts it was built from, if these are not empty. -/
  parts_of_build : ∀ {parts uri}, http.build parts = some uri →
    parts.authority.isSome ∨ parts.pathAndQuery.isSome →
      http.scheme uri = parts.scheme ∧ http.authority uri = parts.authority ∧
        http.pathAndQuery uri = parts.pathAndQuery
  /-- The host of a URI is that of its authority. -/
  host_eq : ∀ uri, http.host uri = (http.authority uri).map http.authorityHost

/-! ## URIs as texts -/

/-- A URI that has a scheme has all three parts, and one that has none has only one. -/
def UriParts.isComplete (parts : UriParts) : Bool :=
  match parts.scheme with
  | some _ => parts.authority.isSome && parts.pathAndQuery.isSome
  | none => !(parts.authority.isSome && parts.pathAndQuery.isSome)

/-- The parts of a URI, each as its text. -/
def textParts (uri : UriText) : UriParts where
  scheme := uri.scheme.map String.ofList
  authority := uri.authority.map String.ofList
  pathAndQuery := uri.path.map String.ofList

/-- A sample instance of the crate `http`, in which a URI is its text, split at the first
separators.  It accepts more texts than the crate does. -/
def textHttp : Http where
  Uri := UriText
  parse text := UriText.parse text.toList
  parseAuthority text := if UriText.isAuthority text.toList then some text else none
  scheme uri := (textParts uri).scheme
  authority uri := (textParts uri).authority
  pathAndQuery uri := (textParts uri).pathAndQuery
  host uri := uri.authority.map fun authority => String.ofList (UriText.host authority)
  authorityHost authority := String.ofList (UriText.host authority.toList)
  intoParts := textParts
  build parts :=
    if parts.isComplete then
      some ⟨parts.scheme.map String.toList, parts.authority.map String.toList,
        parts.pathAndQuery.map String.toList⟩
    else none
  toString uri := String.ofList (((uri.scheme.map (· ++ [':', '/', '/'])).getD []) ++
    uri.authority.getD [] ++ uri.path.getD [])
  headerValue text :=
    if text.toList.all fun c => c = '\t' || ' ' ≤ c && c ≤ '~' then some text else none

instance : DecidableEq textHttp.Uri := inferInstanceAs (DecidableEq UriText)

theorem textHttp_lawful : textHttp.Lawful where
  intoParts_of_parse _ := rfl
  isSome_of_parse h := by
    have hsome := UriText.isSome_of_parse h
    simpa [textHttp, textParts] using hsome
  parts_of_build := by
    intro parts uri h _
    dsimp only [textHttp] at h
    split at h
    · cases h
      simp [textHttp, textParts, Function.comp_def]
    · cases h
  host_eq uri := by
    simp [textHttp, textParts, Function.comp_def]

/-! ## Options -/

/-- A `Duration`, in nanoseconds. -/
abbrev Nanoseconds := ℕ

/-- `rustls::pki_types::CertificateDer`. -/
abbrev CertificateDer := List UInt8

/-- `rustls::pki_types::PrivateKeyDer`. -/
abbrev PrivateKeyDer := List UInt8

/-- `http::HeaderValue`. -/
abbrev HeaderValue := String

/-- `ClientConfigArgs`. -/
structure ClientConfigArgs where
  endpoint : String
  certPem : String
  keyPem : String
  caCert : String
  allowUnsafeConnection : Bool
  overrideTargetName : String
  connectTimeout : String
  timeout : String
  rateLimit : String
  tcpKeepalive : String
  tcpKeepaliveInterval : String
  tcpKeepaliveRetries : String
  tcpNagleAlgorithm : Bool
  http2KeepAliveInterval : String
  http2KeepAliveTimeout : String
  http2KeepAliveWhileIdle : Bool
  http2MaxHeaderListSize : String
  userAgent : String

/-- `ClientConfig`. -/
structure ClientConfig (http : Http) where
  endpoint : http.Uri
  allowUnsafeConnection : Bool
  identity : Option (CertificateDer × PrivateKeyDer)
  cacert : Option CertificateDer
  overrideTarget : Option http.Uri
  connectTimeout : Option Nanoseconds
  timeout : Option Nanoseconds
  rateLimit : Option (ℕ × Nanoseconds)
  tcpKeepalive : Option Nanoseconds
  tcpKeepaliveInterval : Option Nanoseconds
  tcpKeepaliveRetries : Option ℕ
  tcpNagleAlgorithm : Bool
  http2KeepAliveInterval : Option Nanoseconds
  http2KeepAliveTimeout : Option Nanoseconds
  http2KeepAliveWhileIdle : Bool
  http2MaxHeaderListSize : Option ℕ
  userAgent : Option HeaderValue

/-- `ConfigError`, without the errors of the crates that caused it. -/
inductive ConfigError
  | tls
  | uri (uri : String)
  | http (uri : String)
  | io (path : String)
  | incompatibleOptions (msg : String)
  | invalidDuration (value : String)
  | invalidRateLimitCount (value : String)
  | invalidInteger (value : String)
  | invalidUserAgent (value : String)
  deriving DecidableEq, Repr

/-- What reading a configuration comes to. -/
abbrev ConfigResult := Except ConfigError

/-- The file system, and what the other crates read. -/
structure Readers where
  /-- `std::fs::read_to_string`. -/
  readToString : String → Option String
  /-- `std::fs::read`. -/
  read : String → Option (List UInt8)
  /-- `CertificateDer::from_pem_slice`. -/
  certificate : List UInt8 → Option CertificateDer
  /-- `PrivateKeyDer::from_pem_slice`. -/
  privateKey : List UInt8 → Option PrivateKeyDer
  /-- `str::parse::<humantime::Duration>`. -/
  duration : String → Option Nanoseconds

/-- The options of a client that names only its endpoint and its override. -/
def plainArgs (endpoint overrideTargetName : String) : ClientConfigArgs where
  endpoint := endpoint
  certPem := ""
  keyPem := ""
  caCert := ""
  allowUnsafeConnection := false
  overrideTargetName := overrideTargetName
  connectTimeout := ""
  timeout := ""
  rateLimit := ""
  tcpKeepalive := ""
  tcpKeepaliveInterval := ""
  tcpKeepaliveRetries := ""
  tcpNagleAlgorithm := false
  http2KeepAliveInterval := ""
  http2KeepAliveTimeout := ""
  http2KeepAliveWhileIdle := false
  http2MaxHeaderListSize := ""
  userAgent := ""

/-- The configuration of such a client. -/
def plainConfig {http : Http} (endpoint : http.Uri) (overrideTarget : Option http.Uri) :
    ClientConfig http where
  endpoint := endpoint
  allowUnsafeConnection := false
  identity := none
  cacert := none
  overrideTarget := overrideTarget
  connectTimeout := some 60000000000
  timeout := none
  rateLimit := none
  tcpKeepalive := none
  tcpKeepaliveInterval := none
  tcpKeepaliveRetries := none
  tcpNagleAlgorithm := false
  http2KeepAliveInterval := none
  http2KeepAliveTimeout := none
  http2KeepAliveWhileIdle := false
  http2MaxHeaderListSize := none
  userAgent := none

/-- A machine without files, whose options have no durations. -/
def noFiles : Readers where
  readToString _ := none
  read _ := none
  certificate _ := none
  privateKey _ := none
  duration _ := none

/-! ## Reading the options -/

/-- `ResultExt::context`. -/
def context {α : Type} (result : Option α) (error : ConfigError) : ConfigResult α :=
  match result with
  | some value => return value
  | none => throw error

/-- `str::parse` for the unsigned integers of a width. -/
def parseUnsigned (width : ℕ) (text : String) : Option ℕ :=
  let digits := match text.toList with
    | '+' :: rest => rest
    | chars => chars
  let value := Nat.ofDigitChars 10 digits 0
  if !digits.isEmpty && digits.all Char.isDigit && value < 2 ^ width then some value else none

/-- An option that may be left empty. -/
def readOptional {α : Type} (text : String) (parse : String → Option α)
    (error : String → ConfigError) : ConfigResult (Option α) :=
  if text = "" then return none
  else return some (← context (parse text) (error text))

/-- The CA certificate. -/
def readCacert (readers : Readers) (path : String) : ConfigResult (Option CertificateDer) :=
  if path = "" then return none
  else do
    let pem ← context (readers.readToString path) (.io path)
    return some (← context (readers.certificate pem.toUTF8.toList) .tls)

/-- The certificate and the key of the client. -/
def readIdentity (readers : Readers) (certPath keyPath : String) :
    ConfigResult (Option (CertificateDer × PrivateKeyDer)) :=
  if certPath = "" ∧ keyPath = "" then return none
  else if certPath = "" ∨ keyPath = "" then
    throw (.incompatibleOptions ("`GrpcClient__CertPem=" ++ certPath ++
      "` and `GrpcClient__KeyPem=" ++ keyPath ++ "` must be either both empty or both set"))
  else do
    let certPem ← context (readers.readToString certPath) (.io certPath)
    let keyPem ← context (readers.read keyPath) (.io keyPath)
    let cert ← context (readers.certificate certPem.toUTF8.toList) .tls
    let key ← context (readers.privateKey keyPem) .tls
    return some (cert, key)

/-- The authority, and the path and query, under an override.  The error for an override
that cannot be parsed has the endpoint in its text. -/
def overrideParts (http : Http) (endpoint : http.Uri) (overrideTargetName : String) :
    ConfigResult (Option String × Option String) :=
  match http.parseAuthority overrideTargetName with
  | some auth => return (some auth, http.pathAndQuery endpoint)
  | none => do
      let uri ← context (http.parse overrideTargetName) (.uri (http.toString endpoint))
      return ((http.intoParts uri).authority, (http.intoParts uri).pathAndQuery)

/-- The URI that replaces the endpoint. -/
def overrideTarget (http : Http) (endpoint : http.Uri) (overrideTargetName : String) :
    ConfigResult (Option http.Uri) :=
  if overrideTargetName = "" then return none
  else do
    let parts ← overrideParts http endpoint overrideTargetName
    let uri : UriParts :=
      ⟨http.scheme endpoint, parts.1.or (http.authority endpoint), parts.2⟩
    return some (← context (http.build uri) (.http overrideTargetName))

/-- The rate limit.  A zero would make `tower` panic. -/
def readRateLimit (readers : Readers) (rateLimit : String) :
    ConfigResult (Option (ℕ × Nanoseconds)) :=
  if rateLimit = "" then return none
  else match (rateLimit.toList.splitOn '/').map String.ofList with
    | [count, duration] => do
        let limit ← context (parseUnsigned 64 count) (.invalidRateLimitCount count)
        let duration ← context (readers.duration duration) (.invalidDuration rateLimit)
        if limit = 0 ∨ duration = 0 then
          throw (.incompatibleOptions ("`GrpcClient__RateLimit=" ++ rateLimit ++
            "` has a zero count or duration. Both have to be above zero, as in `100/1s`; " ++
            "leave it empty for no rate limit"))
        else return some (limit, duration)
    | _ => throw (.incompatibleOptions
        ("Rate limit should be in the format `number/duration`, e.g. `100/1s`, but got `" ++
          rateLimit ++ "`"))

/-- `ClientConfig::from_config_args`. -/
def fromConfigArgs (http : Http) (readers : Readers) (args : ClientConfigArgs) :
    ConfigResult (ClientConfig http) := do
  let cacert ← readCacert readers args.caCert
  let identity ← readIdentity readers args.certPem args.keyPem
  let endpoint ← context (http.parse args.endpoint) (.uri args.endpoint)
  let overrideTarget ← overrideTarget http endpoint args.overrideTargetName
  let connectTimeout ← readOptional args.connectTimeout readers.duration .invalidDuration
  let timeout ← readOptional args.timeout readers.duration .invalidDuration
  let rateLimit ← readRateLimit readers args.rateLimit
  let tcpKeepalive ← readOptional args.tcpKeepalive readers.duration .invalidDuration
  let tcpKeepaliveInterval ←
    readOptional args.tcpKeepaliveInterval readers.duration .invalidDuration
  let tcpKeepaliveRetries ←
    readOptional args.tcpKeepaliveRetries (parseUnsigned 32) .invalidInteger
  let http2KeepAliveInterval ←
    readOptional args.http2KeepAliveInterval readers.duration .invalidDuration
  let http2KeepAliveTimeout ←
    readOptional args.http2KeepAliveTimeout readers.duration .invalidDuration
  let http2MaxHeaderListSize ←
    readOptional args.http2MaxHeaderListSize (parseUnsigned 32) .invalidInteger
  let userAgent ← readOptional args.userAgent http.headerValue .invalidUserAgent
  return {
    endpoint, identity, cacert, overrideTarget, timeout, rateLimit, tcpKeepalive,
    tcpKeepaliveInterval, tcpKeepaliveRetries, http2KeepAliveInterval, http2KeepAliveTimeout,
    http2MaxHeaderListSize, userAgent
    allowUnsafeConnection := args.allowUnsafeConnection
    -- a minute, unless the option says otherwise
    connectTimeout := some (connectTimeout.getD 60000000000)
    tcpNagleAlgorithm := args.tcpNagleAlgorithm
    http2KeepAliveWhileIdle := args.http2KeepAliveWhileIdle }

/-! ## Accepted configurations -/

theorem context_eq_ok_iff {α : Type} {result : Option α} {error : ConfigError} {value : α} :
    context result error = .ok value ↔ result = some value := by
  cases result with
  | none => exact iff_of_false nofun nofun
  | some found => exact Except.ok.injEq found value ▸ (Option.some.injEq found value ▸ Iff.rfl)

/-- What each part of a configuration was read from. -/
structure IsReadFrom (http : Http) (readers : Readers) (args : ClientConfigArgs)
    (config : ClientConfig http) : Prop where
  cacert : readCacert readers args.caCert = .ok config.cacert
  identity : readIdentity readers args.certPem args.keyPem = .ok config.identity
  endpoint : http.parse args.endpoint = some config.endpoint
  overrideTarget :
    overrideTarget http config.endpoint args.overrideTargetName = .ok config.overrideTarget
  connectTimeout : ∃ connectTimeout,
    readOptional args.connectTimeout readers.duration .invalidDuration = .ok connectTimeout ∧
      config.connectTimeout = some (connectTimeout.getD 60000000000)
  timeout : readOptional args.timeout readers.duration .invalidDuration = .ok config.timeout
  rateLimit : readRateLimit readers args.rateLimit = .ok config.rateLimit
  tcpKeepalive :
    readOptional args.tcpKeepalive readers.duration .invalidDuration = .ok config.tcpKeepalive
  tcpKeepaliveInterval :
    readOptional args.tcpKeepaliveInterval readers.duration .invalidDuration =
      .ok config.tcpKeepaliveInterval
  tcpKeepaliveRetries :
    readOptional args.tcpKeepaliveRetries (parseUnsigned 32) .invalidInteger =
      .ok config.tcpKeepaliveRetries
  http2KeepAliveInterval :
    readOptional args.http2KeepAliveInterval readers.duration .invalidDuration =
      .ok config.http2KeepAliveInterval
  http2KeepAliveTimeout :
    readOptional args.http2KeepAliveTimeout readers.duration .invalidDuration =
      .ok config.http2KeepAliveTimeout
  http2MaxHeaderListSize :
    readOptional args.http2MaxHeaderListSize (parseUnsigned 32) .invalidInteger =
      .ok config.http2MaxHeaderListSize
  userAgent :
    readOptional args.userAgent http.headerValue .invalidUserAgent = .ok config.userAgent
  allowUnsafeConnection : config.allowUnsafeConnection = args.allowUnsafeConnection
  tcpNagleAlgorithm : config.tcpNagleAlgorithm = args.tcpNagleAlgorithm
  http2KeepAliveWhileIdle : config.http2KeepAliveWhileIdle = args.http2KeepAliveWhileIdle

/-- The options are accepted exactly if each of them can be read. -/
theorem fromConfigArgs_eq_ok_iff {http : Http} {readers : Readers} {args : ClientConfigArgs}
    {config : ClientConfig http} :
    fromConfigArgs http readers args = .ok config ↔ IsReadFrom http readers args config := by
  constructor
  · intro h
    obtain ⟨cacert, hcacert, h⟩ := bind_eq_ok h
    obtain ⟨identity, hidentity, h⟩ := bind_eq_ok h
    obtain ⟨endpoint, hendpoint, h⟩ := bind_eq_ok h
    obtain ⟨target, htarget, h⟩ := bind_eq_ok h
    obtain ⟨connectTimeout, hconnectTimeout, h⟩ := bind_eq_ok h
    obtain ⟨timeout, htimeout, h⟩ := bind_eq_ok h
    obtain ⟨rateLimit, hrateLimit, h⟩ := bind_eq_ok h
    obtain ⟨tcpKeepalive, htcpKeepalive, h⟩ := bind_eq_ok h
    obtain ⟨tcpInterval, htcpInterval, h⟩ := bind_eq_ok h
    obtain ⟨tcpRetries, htcpRetries, h⟩ := bind_eq_ok h
    obtain ⟨interval, hinterval, h⟩ := bind_eq_ok h
    obtain ⟨keepTimeout, hkeepTimeout, h⟩ := bind_eq_ok h
    obtain ⟨maxSize, hmaxSize, h⟩ := bind_eq_ok h
    obtain ⟨userAgent, huserAgent, h⟩ := bind_eq_ok h
    obtain rfl := Except.ok.inj h
    exact ⟨hcacert, hidentity, context_eq_ok_iff.mp hendpoint, htarget,
      ⟨connectTimeout, hconnectTimeout, rfl⟩, htimeout, hrateLimit, htcpKeepalive, htcpInterval,
      htcpRetries, hinterval, hkeepTimeout, hmaxSize, huserAgent, rfl, rfl, rfl⟩
  · intro h
    obtain ⟨connectTimeout, hconnectTimeout, hsome⟩ := h.connectTimeout
    simp only [fromConfigArgs, bind_eq_ok_iff, context_eq_ok_iff]
    refine ⟨_, h.cacert, _, h.identity, _, h.endpoint, _, h.overrideTarget, _, hconnectTimeout, _,
      h.timeout, _, h.rateLimit, _, h.tcpKeepalive, _, h.tcpKeepaliveInterval, _,
      h.tcpKeepaliveRetries, _, h.http2KeepAliveInterval, _, h.http2KeepAliveTimeout, _,
      h.http2MaxHeaderListSize, _, h.userAgent, ?_⟩
    rw [← hsome, ← h.allowUnsafeConnection, ← h.tcpNagleAlgorithm, ← h.http2KeepAliveWhileIdle]
    rfl

/-- A client that names only its endpoint and its override is accepted if both can be
read. -/
theorem fromConfigArgs_plainArgs {http : Http} (readers : Readers)
    {name overrideTargetName : String} {endpoint : http.Uri} {target : Option http.Uri}
    (hendpoint : http.parse name = some endpoint)
    (htarget : overrideTarget http endpoint overrideTargetName = .ok target) :
    fromConfigArgs http readers (plainArgs name overrideTargetName) =
      .ok (plainConfig endpoint target) :=
  fromConfigArgs_eq_ok_iff.mpr ⟨rfl, rfl, hendpoint, htarget, ⟨none, rfl, rfl⟩, rfl, rfl, rfl, rfl,
    rfl, rfl, rfl, rfl, rfl, rfl, rfl, rfl⟩

/-! ## The override target -/

/-- An override is a bare authority, or else a URI. -/
theorem overrideParts_cases {http : Http} (hlawful : http.Lawful) {endpoint : http.Uri}
    {overrideTargetName : String} {parts : Option String × Option String}
    (h : overrideParts http endpoint overrideTargetName = .ok parts) :
    (∃ bare, http.parseAuthority overrideTargetName = some bare ∧
        parts = (some bare, http.pathAndQuery endpoint)) ∨
      (http.parseAuthority overrideTargetName = none ∧
        ∃ override, http.parse overrideTargetName = some override ∧
          parts = (http.authority override, http.pathAndQuery override)) := by
  unfold overrideParts at h
  cases hbare : http.parseAuthority overrideTargetName with
  | some bare =>
      rw [hbare] at h
      exact .inl ⟨bare, rfl, (Except.ok.inj h).symm⟩
  | none =>
      rw [hbare] at h
      obtain ⟨override, hparse, h⟩ := bind_eq_ok h
      have hparse := context_eq_ok_iff.mp hparse
      rw [hlawful.intoParts_of_parse hparse] at h
      exact .inr ⟨rfl, override, hparse, (Except.ok.inj h).symm⟩

/-- An override gives an authority or a path. -/
theorem isSome_of_overrideParts {http : Http} (hlawful : http.Lawful) {endpoint : http.Uri}
    {overrideTargetName : String} {parts : Option String × Option String}
    (h : overrideParts http endpoint overrideTargetName = .ok parts) :
    parts.1.isSome ∨ parts.2.isSome := by
  rcases overrideParts_cases hlawful h with ⟨bare, -, rfl⟩ | ⟨-, override, hparse, rfl⟩
  · exact .inl rfl
  · exact hlawful.isSome_of_parse hparse

/-- The target is built from the scheme of the endpoint and the parts of the override. -/
theorem overrideTarget_eq {http : Http} (hlawful : http.Lawful) {endpoint : http.Uri}
    {overrideTargetName : String} {found : Option http.Uri} (hname : overrideTargetName ≠ "")
    (h : overrideTarget http endpoint overrideTargetName = .ok found) :
    ∃ parts target, overrideParts http endpoint overrideTargetName = .ok parts ∧
      found = some target ∧ http.scheme target = http.scheme endpoint ∧
      http.authority target = parts.1.or (http.authority endpoint) ∧
      http.pathAndQuery target = parts.2 := by
  rw [overrideTarget, if_neg hname] at h
  obtain ⟨parts, hparts, h⟩ := bind_eq_ok h
  obtain ⟨target, hbuild, h⟩ := bind_eq_ok h
  have hsome : (parts.1.or (http.authority endpoint)).isSome ∨ parts.2.isSome := by
    rcases isSome_of_overrideParts hlawful hparts with hauthority | hpath
    · exact .inl (by simp [hauthority])
    · exact .inr hpath
  have hbuilt := hlawful.parts_of_build (context_eq_ok_iff.mp hbuild) hsome
  exact ⟨parts, target, hparts, (Except.ok.inj h).symm, hbuilt⟩

/-- A bare authority replaces that of the endpoint. -/
theorem overrideTarget_bare {http : Http} {endpoint target : http.Uri}
    {overrideTargetName bare : String} (hname : overrideTargetName ≠ "")
    (hbare : http.parseAuthority overrideTargetName = some bare)
    (hbuild : http.build ⟨http.scheme endpoint, some bare, http.pathAndQuery endpoint⟩ =
      some target) :
    overrideTarget http endpoint overrideTargetName = .ok (some target) := by
  rw [overrideTarget, if_neg hname, overrideParts, hbare]
  exact bind_eq_ok_iff.mpr ⟨_, rfl, bind_eq_ok_iff.mpr ⟨target, context_eq_ok_iff.mpr hbuild, rfl⟩⟩

/-- A client whose endpoint is a full URI and whose override is a bare authority is
accepted. -/
theorem fromConfigArgs_textHttp (readers : Readers) {name overrideTargetName : String}
    {scheme authority path : List Char}
    (hendpoint : UriText.parse name.toList = some ⟨some scheme, some authority, some path⟩)
    (hname : overrideTargetName ≠ "") (hbare : UriText.isAuthority overrideTargetName.toList) :
    fromConfigArgs textHttp readers (plainArgs name overrideTargetName) =
      .ok (plainConfig (⟨some scheme, some authority, some path⟩ : UriText)
        (some (⟨some scheme, some overrideTargetName.toList, some path⟩ : UriText)) :
          ClientConfig textHttp) := by
  refine fromConfigArgs_plainArgs readers hendpoint (overrideTarget_bare hname (if_pos hbare) ?_)
  simp [textHttp, textParts, UriParts.isComplete]

/-- An endpoint that is reached under an address, with a certificate for a name. -/
theorem fromConfigArgs_named :
    fromConfigArgs textHttp noFiles
        (plainArgs "https://10.0.0.1:5003/base" "server.example.com") =
      .ok (plainConfig (⟨some "https".toList, some "10.0.0.1:5003".toList,
          some "/base".toList⟩ : UriText)
        (some (⟨some "https".toList, some "server.example.com".toList,
          some "/base".toList⟩ : UriText)) : ClientConfig textHttp) := by
  have hendpoint : UriText.parse "https://10.0.0.1:5003/base".toList =
      some ⟨some "https".toList, some "10.0.0.1:5003".toList, some "/base".toList⟩ := by
    decide +kernel
  have hbare : UriText.isAuthority "server.example.com".toList := by decide +kernel
  exact fromConfigArgs_textHttp noFiles hendpoint (by decide) hbare

/-- The target of an accepted configuration: the scheme of the endpoint, the authority
of the override, else of the endpoint, and the path of the endpoint if the override is a
bare authority, else its own.  Without an override there is no target. -/
theorem fromConfigArgs_overrideTarget {http : Http} (hlawful : http.Lawful) {readers : Readers}
    {args : ClientConfigArgs} {config : ClientConfig http}
    (haccepted : fromConfigArgs http readers args = .ok config) :
    http.parse args.endpoint = some config.endpoint ∧
      (args.overrideTargetName = "" → config.overrideTarget = none) ∧
      (args.overrideTargetName ≠ "" →
        ∃ target, config.overrideTarget = some target ∧
          http.scheme target = http.scheme config.endpoint ∧
          ((∃ bare, http.parseAuthority args.overrideTargetName = some bare ∧
              http.authority target = some bare ∧
              http.pathAndQuery target = http.pathAndQuery config.endpoint) ∨
            (http.parseAuthority args.overrideTargetName = none ∧
              ∃ override, http.parse args.overrideTargetName = some override ∧
                http.authority target =
                  (http.authority override).or (http.authority config.endpoint) ∧
                http.pathAndQuery target = http.pathAndQuery override))) := by
  have hread := fromConfigArgs_eq_ok_iff.mp haccepted
  refine ⟨hread.endpoint, fun hname => ?_, fun hname => ?_⟩
  · have htarget := hread.overrideTarget
    rw [overrideTarget, if_pos hname] at htarget
    exact (Except.ok.inj htarget).symm
  · obtain ⟨parts, target, hparts, htarget, hscheme, hauthority, hpath⟩ :=
      overrideTarget_eq hlawful hname hread.overrideTarget
    refine ⟨target, htarget, hscheme, ?_⟩
    rcases overrideParts_cases hlawful hparts with
      ⟨bare, hbare, rfl⟩ | ⟨hbare, override, hparse, rfl⟩
    · exact .inl ⟨bare, hbare, hauthority, hpath⟩
    · exact .inr ⟨hbare, override, hparse, hauthority, hpath⟩

/-- The certificate keeps the scheme and the path of the endpoint. -/
theorem fromConfigArgs_overrideTarget_named :
    ∃ config target, fromConfigArgs textHttp noFiles
        (plainArgs "https://10.0.0.1:5003/base" "server.example.com") = .ok config ∧
      config.overrideTarget = some target ∧
      textParts target = ⟨some "https", some "server.example.com", some "/base"⟩ := by
  have haccepted := fromConfigArgs_named
  obtain ⟨-, -, htarget⟩ := fromConfigArgs_overrideTarget textHttp_lawful haccepted
  obtain ⟨found, hfound, -⟩ := htarget (by decide)
  refine ⟨_, found, haccepted, hfound, ?_⟩
  cases hfound
  rfl

end ArmoniKApi.Rust
