import ArmoniKApi.Rust.ClientConfig

/-!
# Connecting a Rust client

`https_connector` builds the connector of a configuration, TLS first and TCP on top,
and `connect` makes a channel of it.  Both return an error when they cannot go on.
Two of their steps expect to succeed instead, and panic if they do not:

* the user agent is expected to be a header value.  The configuration holds one, so
  that this never panics (`connect_ne_userAgent_panic`);
* the host of the override target is expected to be the name of a server.  The
  configuration has only checked that it is the host of an authority, and that is more:
  the addresses of version 6 keep their brackets, and a name may have characters that
  no domain has.

So an accepted configuration connects without a panic exactly if it has no override
target, or if the host that the override leads to is the name of a server
(`connect_ne_panic_iff`).

The crates `rustls` and `tonic` are parameters.  Of `tonic` the code relies on
`Tonic.Lawful`: a user agent is refused only if it cannot be converted.

```text
   connect
     https_connector
       TLS versions, CA certificate, identity      ConnectionError
       server name of the override target          panic
     settings of the endpoint, user agent          panic (never reached)
     connect_with_connector                        ConnectionError
```

## Strategy

A step comes to a value, an error or a panic (`Outcome`).  For each step before the server
name there is a lemma that it does not panic; `fixedServerName_eq_panic_iff` says when the
server name does.  That the TLS steps may fail first is why the claim speaks of every
machine: on one whose TLS can be set up (`Tls.permissive`) the server name is reached.

`host_overrideTarget` connects the two modules: the host of the target that was accepted by
`fromConfigArgs` is that of the override, or of the endpoint if the override has none.
-/

namespace ArmoniKApi.Rust

open Fallible

/-! ## Errors and panics -/

/-- `ConnectionError`, without the errors of the crates that caused it. -/
inductive ConnectionError (http : Http)
  | config (source : ConfigError)
  | transport (endpoint : http.Uri)
  | tls (endpoint : http.Uri)
  | io

/-- Why a connection was not made. -/
inductive Stop (http : Http)
  | error (error : ConnectionError http)
  | panic (message : String)

/-- What a step of `connect` comes to. -/
abbrev Outcome (http : Http) := Except (Stop http)

/-- `ResultExt::with_context`. -/
def withContext {http : Http} {α : Type} (result : Option α) (error : ConnectionError http) :
    Outcome http α :=
  match result with
  | some value => return value
  | none => throw (.error error)

/-- `Result::expect`. -/
def expect {http : Http} {α : Type} (result : Option α) (message : String) : Outcome http α :=
  match result with
  | some value => return value
  | none => throw (.panic message)

/-- The message of the `expect` on the server name. -/
def serverNameMessage : String := "A valid URI host should be a valid ServerName"

/-- The message of the `expect` on the user agent. -/
def userAgentMessage : String := "HeaderValue is already validated, conversion is infallible"

/-! ## TLS -/

/-- `rustls::pki_types::ServerName`. -/
abbrev ServerName := String

/-- How the certificate of the server is verified. -/
inductive Verifier
  | insecure
  | roots (cacert : CertificateDer)
  | nativeRoots
  deriving DecidableEq, Repr

/-- `rustls::ClientConfig`. -/
structure TlsConfig where
  verifier : Verifier
  clientAuthCert : Option (CertificateDer × PrivateKeyDer)
  deriving DecidableEq, Repr

/-- What `rustls` makes of the versions of its provider, of certificates and of the
machine. -/
structure Tls where
  /-- `with_safe_default_protocol_versions`. -/
  withSafeDefaultProtocolVersions : Option Unit
  /-- `RootCertStore::add`. -/
  addRoot : CertificateDer → Option Unit
  /-- `with_native_roots`. -/
  withNativeRoots : Option Unit
  /-- `with_client_auth_cert`. -/
  withClientAuthCert : CertificateDer → PrivateKeyDer → Option Unit

/-- The server verification of `https_connector`. -/
def tlsVerifier {http : Http} (tls : Tls) (config : ClientConfig http) : Outcome http Verifier :=
  if config.allowUnsafeConnection then return .insecure
  else match config.cacert with
    | some cacert => do
        withContext (tls.addRoot cacert) (.tls config.endpoint)
        return .roots cacert
    | none => do
        withContext tls.withNativeRoots .io
        return .nativeRoots

/-- The client identity of `https_connector`. -/
def tlsIdentity {http : Http} (tls : Tls) (config : ClientConfig http) :
    Outcome http (Option (CertificateDer × PrivateKeyDer)) :=
  match config.identity with
  | some (cert, key) => do
      withContext (tls.withClientAuthCert cert key) (.tls config.endpoint)
      return some (cert, key)
  | none => return none

/-- The TLS settings of `https_connector`. -/
def tlsConfig {http : Http} (tls : Tls) (config : ClientConfig http) :
    Outcome http TlsConfig := do
  withContext tls.withSafeDefaultProtocolVersions (.tls config.endpoint)
  let verifier ← tlsVerifier tls config
  let clientAuthCert ← tlsIdentity tls config
  return { verifier, clientAuthCert }

/-! ## The connector -/

/-- `HttpConnector`. -/
structure HttpConnector where
  enforceHttp : Bool
  nodelay : Bool
  keepalive : Option Nanoseconds
  keepaliveInterval : Option Nanoseconds
  keepaliveRetries : Option ℕ
  connectTimeout : Option Nanoseconds
  deriving DecidableEq, Repr

/-- `HttpsConnector<HttpConnector>`. -/
structure HttpsConnector where
  tlsConfig : TlsConfig
  /-- The name that `FixedServerNameResolver` gives. -/
  serverName : Option ServerName
  http : HttpConnector
  deriving DecidableEq, Repr

/-- The name that the certificate of the server is verified against, if the endpoint is
overridden.  `serverName` is `ServerName::try_from`. -/
def fixedServerName {http : Http} (serverName : String → Option ServerName)
    (config : ClientConfig http) : Outcome http (Option ServerName) :=
  match config.overrideTarget with
  | some hostname => do
      return some (← expect (serverName ((http.host hostname).getD "")) serverNameMessage)
  | none => return none

/-- The TCP settings of `https_connector`. -/
def httpConnector {http : Http} (config : ClientConfig http) : HttpConnector where
  enforceHttp := false
  nodelay := !config.tcpNagleAlgorithm
  keepalive := config.tcpKeepalive
  keepaliveInterval := config.tcpKeepaliveInterval
  keepaliveRetries := config.tcpKeepaliveRetries
  connectTimeout := config.connectTimeout

/-- `https_connector`. -/
def httpsConnector {http : Http} (serverName : String → Option ServerName) (tls : Tls)
    (config : ClientConfig http) : Outcome http HttpsConnector := do
  let tlsConfig ← tlsConfig tls config
  let serverName ← fixedServerName serverName config
  return { tlsConfig, serverName, http := httpConnector config }

/-! ## The channel -/

/-- What the code uses of `tonic`. -/
structure Tonic (http : Http) where
  Endpoint : Type
  Channel : Type
  /-- `Endpoint::from`. -/
  ofUri : http.Uri → Endpoint
  origin : http.Uri → Endpoint → Endpoint
  timeout : Nanoseconds → Endpoint → Endpoint
  rateLimit : ℕ × Nanoseconds → Endpoint → Endpoint
  http2KeepAliveInterval : Nanoseconds → Endpoint → Endpoint
  keepAliveTimeout : Nanoseconds → Endpoint → Endpoint
  keepAliveWhileIdle : Bool → Endpoint → Endpoint
  http2MaxHeaderListSize : ℕ → Endpoint → Endpoint
  /-- `user_agent`, for a value and its conversion into a header value. -/
  userAgent : {α : Type} → (α → Option HeaderValue) → α → Endpoint → Option Endpoint
  /-- `connect_with_connector`. -/
  connectWithConnector : HttpsConnector → Endpoint → Option Channel

/-- A user agent is accepted if it can be converted into a header value. -/
def Tonic.Lawful {http : Http} (tonic : Tonic http) : Prop :=
  ∀ {α : Type} (convert : α → Option HeaderValue) (value : α) (endpoint : tonic.Endpoint),
    (convert value).isSome → (tonic.userAgent convert value endpoint).isSome

/-- A setting that is made only if the configuration has a value for it. -/
def setting {α Endpoint : Type} (value : Option α) (set : α → Endpoint → Endpoint)
    (endpoint : Endpoint) : Endpoint :=
  match value with
  | some value => set value endpoint
  | none => endpoint

/-- The settings of `connect`, up to the user agent. -/
def transportEndpoint {http : Http} (tonic : Tonic http) (config : ClientConfig http) :
    tonic.Endpoint :=
  tonic.ofUri config.endpoint
    |> setting config.overrideTarget tonic.origin
    |> setting config.timeout tonic.timeout
    |> setting config.rateLimit tonic.rateLimit
    |> setting config.http2KeepAliveInterval tonic.http2KeepAliveInterval
    |> setting config.http2KeepAliveTimeout tonic.keepAliveTimeout
    |> tonic.keepAliveWhileIdle config.http2KeepAliveWhileIdle
    |> setting config.http2MaxHeaderListSize tonic.http2MaxHeaderListSize

/-- The user agent of `connect`.  It is a header value, which converts into itself. -/
def withUserAgent {http : Http} (tonic : Tonic http) (config : ClientConfig http)
    (endpoint : tonic.Endpoint) : Outcome http tonic.Endpoint :=
  match config.userAgent with
  | some ua => expect (tonic.userAgent (α := HeaderValue) some ua endpoint) userAgentMessage
  | none => return endpoint

/-- `connect`. -/
def connect {http : Http} (serverName : String → Option ServerName) (tonic : Tonic http)
    (tls : Tls) (config : ClientConfig http) : Outcome http tonic.Channel := do
  let https ← httpsConnector serverName tls config
  let endpoint ← withUserAgent tonic config (transportEndpoint tonic config)
  withContext (tonic.connectWithConnector https endpoint) (.transport config.endpoint)

/-! ## Panics -/

section Panics

variable {http : Http} {tls : Tls} {serverName : String → Option ServerName}
  {config : ClientConfig http} {message : String}

theorem withContext_ne_panic {α : Type} {result : Option α} {error : ConnectionError http} :
    withContext result error ≠ .error (.panic message) := by
  cases result with
  | some value => exact nofun
  | none => exact nofun

theorem expect_eq_panic_iff {α : Type} {result : Option α} {expected : String} :
    (expect result expected : Outcome http α) = .error (.panic message) ↔
      result = none ∧ expected = message := by
  cases result with
  | some value => exact iff_of_false nofun nofun
  | none => simp [expect, throw, throwThe, MonadExceptOf.throw]

theorem tlsVerifier_ne_panic : tlsVerifier tls config ≠ .error (.panic message) := by
  unfold tlsVerifier
  split
  · exact nofun
  · cases config.cacert with
    | some cacert => exact bind_ne_error withContext_ne_panic nofun
    | none => exact bind_ne_error withContext_ne_panic nofun

theorem tlsIdentity_ne_panic : tlsIdentity tls config ≠ .error (.panic message) := by
  unfold tlsIdentity
  cases config.identity with
  | some identity => exact bind_ne_error withContext_ne_panic nofun
  | none => exact nofun

/-- TLS may fail, but it does not panic. -/
theorem tlsConfig_ne_panic : tlsConfig tls config ≠ .error (.panic message) := by
  unfold tlsConfig
  apply bind_ne_error withContext_ne_panic
  intro _
  apply bind_ne_error tlsVerifier_ne_panic
  intro verifier
  exact bind_ne_error tlsIdentity_ne_panic nofun

/-- The server name panics on the host of the target. -/
theorem fixedServerName_eq_panic_iff :
    fixedServerName serverName config = .error (.panic message) ↔
      message = serverNameMessage ∧
        ∃ target, config.overrideTarget = some target ∧
          serverName ((http.host target).getD "") = none := by
  unfold fixedServerName
  cases htarget : config.overrideTarget with
  | none => exact iff_of_false nofun (by rintro ⟨-, target, h, -⟩; cases h)
  | some target =>
      constructor
      · intro h
        rcases bind_eq_error_iff.mp h with h | ⟨_, -, h⟩
        · obtain ⟨hname, hmessage⟩ := expect_eq_panic_iff.mp h
          exact ⟨hmessage.symm, target, rfl, hname⟩
        · cases h
      · rintro ⟨rfl, found, hfound, hname⟩
        cases hfound
        exact bind_eq_error_iff.mpr (.inl (expect_eq_panic_iff.mpr ⟨hname, rfl⟩))

/-- The connector panics where the server name does, if TLS has been set up. -/
theorem httpsConnector_eq_panic_iff :
    httpsConnector serverName tls config = .error (.panic message) ↔
      (∃ settings, tlsConfig tls config = .ok settings) ∧
        fixedServerName serverName config = .error (.panic message) := by
  constructor
  · intro h
    rcases bind_eq_error_iff.mp h with h | ⟨settings, hsettings, h⟩
    · exact absurd h tlsConfig_ne_panic
    rcases bind_eq_error_iff.mp h with h | ⟨_, -, h⟩
    · exact ⟨⟨settings, hsettings⟩, h⟩
    · cases h
  · rintro ⟨⟨settings, hsettings⟩, h⟩
    exact bind_eq_error_iff.mpr (.inr ⟨settings, hsettings, bind_eq_error_iff.mpr (.inl h)⟩)

/-- The user agent is a header value, so that it is accepted. -/
theorem withUserAgent_ne_panic {tonic : Tonic http} (htonic : tonic.Lawful)
    {endpoint : tonic.Endpoint} :
    withUserAgent tonic config endpoint ≠ .error (.panic message) := by
  unfold withUserAgent
  cases config.userAgent with
  | none => exact nofun
  | some ua =>
      intro h
      have hsome := htonic (α := HeaderValue) some ua endpoint rfl
      rw [(expect_eq_panic_iff.mp h).1] at hsome
      cases hsome

/-- A connection panics only where its connector does. -/
theorem connect_eq_panic {tonic : Tonic http} (htonic : tonic.Lawful)
    (h : connect serverName tonic tls config = .error (.panic message)) :
    httpsConnector serverName tls config = .error (.panic message) := by
  rcases bind_eq_error_iff.mp h with h | ⟨_, -, h⟩
  · exact h
  rcases bind_eq_error_iff.mp h with h | ⟨_, -, h⟩
  · exact absurd h (withUserAgent_ne_panic htonic)
  · exact absurd h withContext_ne_panic

theorem connect_ne_userAgent_panic {tonic : Tonic http} (htonic : tonic.Lawful) :
    connect serverName tonic tls config ≠ .error (.panic userAgentMessage) := by
  intro h
  have hname := (httpsConnector_eq_panic_iff.mp (connect_eq_panic htonic h)).2
  have hmessage := (fixedServerName_eq_panic_iff.mp hname).1
  exact absurd hmessage (by decide +kernel)

end Panics

/-! ## The name of the server -/

/-- The authority that an override gives, if it gives one. -/
def overrideAuthority (http : Http) (overrideTargetName : String) : Option String :=
  (http.parseAuthority overrideTargetName).or
    ((http.parse overrideTargetName).bind http.authority)

/-- The host that an override leads to: that of its own authority, else that of the
endpoint.  A host that is missing counts as the empty name. -/
def verifiedName (http : Http) (args : ClientConfigArgs) : String :=
  (((overrideAuthority http args.overrideTargetName).or
    ((http.parse args.endpoint).bind http.authority)).map http.authorityHost).getD ""

theorem overrideParts_fst {http : Http} (hlawful : http.Lawful) {endpoint : http.Uri}
    {overrideTargetName : String} {parts : Option String × Option String}
    (h : overrideParts http endpoint overrideTargetName = .ok parts) :
    parts.1 = overrideAuthority http overrideTargetName := by
  unfold overrideAuthority
  rcases overrideParts_cases hlawful h with ⟨bare, hbare, rfl⟩ | ⟨hbare, override, hparse, rfl⟩
  · rw [hbare, Option.some_or]
  · rw [hbare, hparse, Option.none_or, Option.bind_some]

section Accepted

variable {http : Http} {readers : Readers} {args : ClientConfigArgs} {config : ClientConfig http}

theorem overrideTarget_eq_none_iff (hread : IsReadFrom http readers args config) :
    config.overrideTarget = none ↔ args.overrideTargetName = "" := by
  have htarget := hread.overrideTarget
  constructor
  · intro hnone
    by_contra hname
    rw [overrideTarget, if_neg hname, hnone] at htarget
    obtain ⟨_, -, htarget⟩ := bind_eq_ok htarget
    obtain ⟨_, -, htarget⟩ := bind_eq_ok htarget
    cases htarget
  · intro hname
    rw [overrideTarget, if_pos hname] at htarget
    exact (Except.ok.inj htarget).symm

/-- The name that an accepted configuration verifies. -/
theorem host_overrideTarget (hlawful : http.Lawful) (hread : IsReadFrom http readers args config)
    {target : http.Uri} (htarget : config.overrideTarget = some target) :
    (http.host target).getD "" = verifiedName http args := by
  have hname : args.overrideTargetName ≠ "" := by
    rw [ne_eq, ← overrideTarget_eq_none_iff hread, htarget]
    exact nofun
  obtain ⟨parts, found, hparts, hfound, -, hauthority, -⟩ :=
    overrideTarget_eq hlawful hname hread.overrideTarget
  obtain rfl : target = found := Option.some.inj (htarget.symm.trans hfound)
  rw [hlawful.host_eq, hauthority, overrideParts_fst hlawful hparts, verifiedName, hread.endpoint,
    Option.bind_some]

/-- The server name of an accepted configuration is found unless it is overridden by a
host that names no server. -/
theorem fixedServerName_ne_panic_iff (hlawful : http.Lawful)
    (hread : IsReadFrom http readers args config) {serverName : String → Option ServerName} :
    fixedServerName serverName config ≠ .error (.panic serverNameMessage) ↔
      args.overrideTargetName = "" ∨ (serverName (verifiedName http args)).isSome := by
  rw [ne_eq, fixedServerName_eq_panic_iff, ← overrideTarget_eq_none_iff hread]
  cases htarget : config.overrideTarget with
  | none => simp
  | some target =>
      simp [host_overrideTarget hlawful hread htarget, Option.isSome_iff_ne_none]

end Accepted

/-- A machine on which TLS can always be set up. -/
def Tls.permissive : Tls where
  withSafeDefaultProtocolVersions := some ()
  addRoot _ := some ()
  withNativeRoots := some ()
  withClientAuthCert _ _ := some ()

theorem tlsConfig_permissive {http : Http} (config : ClientConfig http) :
    ∃ settings, tlsConfig .permissive config = .ok settings := by
  have hverifier : ∃ verifier, tlsVerifier .permissive config = .ok verifier := by
    unfold tlsVerifier
    split
    · exact ⟨_, rfl⟩
    · cases config.cacert with
      | some cacert => exact ⟨_, rfl⟩
      | none => exact ⟨_, rfl⟩
  have hidentity : ∃ identity, tlsIdentity .permissive config = .ok identity := by
    unfold tlsIdentity
    cases config.identity with
    | some identity => exact ⟨_, rfl⟩
    | none => exact ⟨_, rfl⟩
  obtain ⟨verifier, hverifier⟩ := hverifier
  obtain ⟨identity, hidentity⟩ := hidentity
  refine ⟨⟨verifier, identity⟩, bind_eq_ok_iff.mpr ⟨(), rfl, ?_⟩⟩
  exact bind_eq_ok_iff.mpr ⟨_, hverifier, bind_eq_ok_iff.mpr ⟨_, hidentity, rfl⟩⟩

/-! ## Connecting -/

/-- An accepted configuration connects on every machine without a panic exactly if it
overrides nothing, or overrides by a host that is the name of a server. -/
theorem connect_ne_panic_iff {http : Http} (hlawful : http.Lawful) {tonic : Tonic http}
    (htonic : tonic.Lawful) {serverName : String → Option ServerName} {readers : Readers}
    {args : ClientConfigArgs} {config : ClientConfig http}
    (haccepted : fromConfigArgs http readers args = .ok config) :
    ((∀ tls, httpsConnector serverName tls config ≠ .error (.panic serverNameMessage)) ∧
        ∀ tls, connect serverName tonic tls config ≠ .error (.panic userAgentMessage)) ↔
      args.overrideTargetName = "" ∨ (serverName (verifiedName http args)).isSome := by
  have hread := fromConfigArgs_eq_ok_iff.mp haccepted
  rw [← fixedServerName_ne_panic_iff hlawful hread]
  constructor
  · rintro ⟨hconnector, -⟩ hpanic
    exact hconnector .permissive
      (httpsConnector_eq_panic_iff.mpr ⟨tlsConfig_permissive config, hpanic⟩)
  · intro hname
    exact ⟨fun tls hpanic => hname (httpsConnector_eq_panic_iff.mp hpanic).2,
      fun tls => connect_ne_userAgent_panic htonic⟩

/-! ## Hosts as texts -/

/-- `ServerName::try_from`, on texts. -/
def textServerName (text : String) : Option ServerName :=
  if UriText.isServerName text.toList then some text else none

/-- A channel that has been connected, as what it was made of. -/
def plainTonic (http : Http) : Tonic http where
  Endpoint := Unit
  Channel := HttpsConnector
  ofUri _ := ()
  origin _ := id
  timeout _ := id
  rateLimit _ := id
  http2KeepAliveInterval _ := id
  keepAliveTimeout _ := id
  keepAliveWhileIdle _ := id
  http2MaxHeaderListSize _ := id
  userAgent convert value endpoint := (convert value).map fun _ => endpoint
  connectWithConnector https _ := some https

theorem plainTonic_lawful (http : Http) : (plainTonic http).Lawful := by
  intro α convert value endpoint hvalue
  exact Option.isSome_map.trans hvalue

/-- A client whose certificate has a name connects. -/
theorem connect_ne_panic_named :
    ∃ config, fromConfigArgs textHttp noFiles
        (plainArgs "https://10.0.0.1:5003/base" "server.example.com") = .ok config ∧
      (∀ tls, httpsConnector textServerName tls config ≠ .error (.panic serverNameMessage)) ∧
      ∀ tls, connect textServerName (plainTonic textHttp) tls config ≠
        .error (.panic userAgentMessage) := by
  have hname : (textServerName (verifiedName textHttp
      (plainArgs "https://10.0.0.1:5003/base" "server.example.com"))).isSome := by
    decide +kernel
  exact ⟨_, fromConfigArgs_named, (connect_ne_panic_iff textHttp_lawful
    (plainTonic_lawful textHttp) fromConfigArgs_named).mpr (.inr hname)⟩

/-- An override by a host in brackets panics on every machine whose TLS can be set up. -/
theorem httpsConnector_panics_of_bracket {readers : Readers} {args : ClientConfigArgs}
    {config : ClientConfig textHttp} (hread : IsReadFrom textHttp readers args config)
    (hname : args.overrideTargetName ≠ "") {rest : List Char}
    (hbracket : (verifiedName textHttp args).toList = '[' :: rest) {tls : Tls}
    (htls : ∃ settings, tlsConfig tls config = .ok settings) :
    httpsConnector textServerName tls config = .error (.panic serverNameMessage) := by
  have hrefused : textServerName (verifiedName textHttp args) = none := by
    rw [textServerName, hbracket, UriText.isServerName_bracket]
    rfl
  refine httpsConnector_eq_panic_iff.mpr ⟨htls, ?_⟩
  by_contra hpanic
  rcases (fixedServerName_ne_panic_iff textHttp_lawful hread).mp hpanic with hempty | hsome
  · exact hname hempty
  · rw [hrefused] at hsome
    cases hsome

/-- A client that overrides its endpoint by an address of version 6 panics, although its
options are accepted. -/
theorem httpsConnector_panics_on_ipv6 :
    ∃ config, fromConfigArgs textHttp noFiles (plainArgs "https://localhost:5003" "[::1]") =
        .ok config ∧
      httpsConnector textServerName .permissive config = .error (.panic serverNameMessage) := by
  have hendpoint : UriText.parse "https://localhost:5003".toList =
      some ⟨some "https".toList, some "localhost:5003".toList, some "/".toList⟩ := by
    decide +kernel
  have hbare : UriText.isAuthority "[::1]".toList := by decide +kernel
  have haccepted := fromConfigArgs_textHttp noFiles hendpoint (by decide) hbare
  have hbracket : (verifiedName textHttp (plainArgs "https://localhost:5003" "[::1]")).toList =
      '[' :: "::1]".toList := by
    decide +kernel
  exact ⟨_, haccepted, httpsConnector_panics_of_bracket (fromConfigArgs_eq_ok_iff.mp haccepted)
    (by decide) hbracket (tlsConfig_permissive _)⟩

end ArmoniKApi.Rust
