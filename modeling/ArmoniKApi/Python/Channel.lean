import ArmoniKApi.Library.Fallible
import ArmoniKApi.Library.GrpcTarget
import Mathlib.Data.List.TakeWhile

/-!
# The channels of the Python package

`create_channel` takes a URI apart with `urlparse`, and puts the target together from the
place and the path.  It does not look at a scheme that `urlparse` has found, other than for
`unix` and `https` in it.

* A URI with one of the schemes `http`, `https` and `unix` is put together as it was.
* A server without a scheme is a path for `urlparse`, and the target is this path.
* But a host of letters, digits, `+`, `-` and `.` that begins with a letter is a scheme for
  `urlparse`, and the target is the port alone.

`createChannel_right_iff` says for which URIs the channel is right.

## Strategy

Two programs read the same text, `urlparse` and gRPC, and they do not agree on what a scheme
is.  So the proof has a part for each of them.

```text
URI                 scheme, place, path of urlparse        target
http://host:port    http, host:port, -                     host:port
https://host:port   https, host:port, -                    host:port, secure
unix:path           unix, -, path                          unix:path
unix:///path        unix, -, /path                         unix:///path
host:port           host, -, port        if a scheme       port
host:port           -, -, host:port      otherwise         host:port
```

* `urlparse_eq` says what `urlparse` makes of a URI once its scheme and its place are known;
  the `urlparse_...` lemmas are the lines of the table.  `clean_eq` and `isUriChar` show that
  nothing is removed on the way.
* `isSchemeText_front` decides between the last two lines: what stands in front of the first
  colon is a scheme just if the host is one.
* `resolve_withUnix_ne` and `not_channelRight_of_scheme` show that the port alone is never the
  name of the server, whatever the names of gRPC are.

The certificates are loaded by a parameter, which may fail.
-/

namespace ArmoniKApi.Python

open GrpcTarget (Endpoint Naming HostPort unixScheme isName isHostChar)

variable {ε C : Type}

/-! ## `urlparse` -/

/-- `ParseResult`, with the parts that `create_channel` looks at. -/
structure ParseResult where
  scheme : List Char
  netloc : List Char
  path : List Char
  params : List Char
  query : List Char
  fragment : List Char
  deriving DecidableEq

/-- What the check of a place rejects.  It is there for brackets that do not belong to an
address, and for characters that look like others. -/
structure NetlocCheck where
  rejects : List Char → Bool
  rejects_nil : rejects [] = false
  rejects_hostPort : ∀ hp : HostPort, rejects hp.text = false

/-- The characters of a scheme. -/
def isSchemeChar (c : Char) : Bool := c.isAlphanum || c = '+' || c = '-' || c = '.'

/-- The text in front of a colon is a scheme. -/
def isSchemeText (text : List Char) : Bool :=
  (text.head?.any Char.isAlpha) && text.all isSchemeChar

/-- Characters are removed in front of a URI, and others everywhere in it. -/
def clean (url : List Char) : List Char :=
  (url.dropWhile fun c => c.toNat ≤ 32).filter fun c => !(['\t', '\r', '\n'].contains c)

/-- The scheme in lower case, and what follows it. -/
def splitScheme (url : List Char) : List Char × List Char :=
  let front := url.takeWhile fun c => c ≠ ':'
  if url.contains ':' && isSchemeText front then
    (front.map Char.toLower, url.drop (front.length + 1))
  else ([], url)

/-- The place between two slashes and the path, and what follows it. -/
def splitNetloc : List Char → List Char × List Char
  | '/' :: '/' :: rest =>
      (rest.takeWhile fun c => !UriText.isDelimiter c,
        rest.dropWhile fun c => !UriText.isDelimiter c)
  | url => ([], url)

/-- `url.split(c, 1)`, with nothing for a second part that is not there. -/
def splitFirst (c : Char) (url : List Char) : List Char × List Char :=
  (url.takeWhile fun d => d ≠ c, (url.dropWhile fun d => d ≠ c).drop 1)

/-- The parameters of the last segment of a path. -/
def splitParams (url : List Char) : List Char × List Char :=
  let segment := (url.splitOn '/').getLastD []
  let (last, params) := splitFirst ';' segment
  (url.take (url.length - segment.length) ++ last, params)

/-- `uses_params`. -/
def usesParams : List (List Char) :=
  ["", "ftp", "hdl", "prospero", "http", "imap", "https", "shttp", "rtsp", "rtsps", "rtspu", "sip",
    "sips", "mms", "sftp", "tel"].map String.toList

/-- `urllib.parse.urlparse`, which raises `ValueError` for a place that is rejected. -/
def urlparse (check : NetlocCheck) (url : List Char) : Option ParseResult :=
  let (scheme, rest) := splitScheme (clean url)
  let (netloc, rest) := splitNetloc rest
  let (rest, fragment) := splitFirst '#' rest
  let (path, query) := splitFirst '?' rest
  let (path, params) :=
    if scheme ∈ usesParams ∧ ';' ∈ path then splitParams path else (path, [])
  if check.rejects netloc then none else some ⟨scheme, netloc, path, params, query, fragment⟩

/-! ## `create_channel` -/

/-- A channel, with the credentials of a secure one. -/
structure Channel (C : Type) where
  target : List Char
  credentials : Option C

/-- What `create_channel` raises. -/
inductive ChannelError (ε : Type)
  | valueError
  | loading (error : ε)

/-- What stands for the endpoint when the scheme has `unix` in it. -/
def withUnix (scheme endpoint : List Char) : List Char :=
  if "unix".toList <:+: scheme then
    if endpoint.head? = some '/' then "unix://".toList ++ endpoint
    else "unix:".toList ++ endpoint
  else endpoint

/-- `create_channel`.  The credentials are made of the certificates, which are loaded only
for a secure channel. -/
def createChannel (check : NetlocCheck) (credentials : Except ε C) (uri : List Char) :
    Except (ChannelError ε) (Channel C) :=
  match urlparse check uri with
  | none => .error .valueError
  | some parsed =>
      let scheme := if parsed.scheme ≠ [] then parsed.scheme else "http".toList
      let endpoint := withUnix scheme (parsed.netloc ++ parsed.path)
      if "https".toList <:+: scheme then
        match credentials with
        | .error error => .error (.loading error)
        | .ok credentials => .ok ⟨endpoint, some credentials⟩
      else .ok ⟨endpoint, none⟩

/-! ## URIs -/

/-- The characters of the path of a URI. -/
def isPathChar (c : Char) : Bool :=
  (UriText.isAuthorityChar c && c ≠ '[' && c ≠ ']') || c = '/' || c = '%'

/-- The URIs that are meant for `create_channel`. -/
def IsUri : Endpoint → Prop
  | .unix path => path.head? ≠ some '/' ∧ ∀ c ∈ path, isPathChar c
  | .unixAbsolute path => ∀ c ∈ path, isPathChar c
  | .file _ => False
  | _ => True

/-- The characters of a URI without a query and a fragment. -/
def isUriChar (c : Char) : Bool := UriText.isAuthorityChar c || c = '/' || c = '%'

theorem isUriChar_of_isHostChar {c : Char} (hc : isHostChar c) : isUriChar c := by
  simp only [isHostChar, GrpcTarget.isNameChar, Bool.or_eq_true, decide_eq_true_eq] at hc
  rcases hc with (((((halphanum | rfl) | rfl) | rfl) | rfl) | rfl) | rfl
  · simp [isUriChar, UriText.isAuthorityChar, halphanum]
  all_goals decide

theorem isUriChar_of_isPathChar {c : Char} (hc : isPathChar c) : isUriChar c := by
  simp only [isPathChar, Bool.or_eq_true, Bool.and_eq_true] at hc
  simp only [isUriChar, Bool.or_eq_true]
  exact hc.imp_left (Or.imp_left fun h => h.1.1)

/-- Such a character is not a control character or a blank. -/
theorem lt_toNat_of_isUriChar {c : Char} (hc : isUriChar c) : 32 < c.toNat := by
  by_contra hle
  have hcontrol : ∀ n ≤ 32, isUriChar (Char.ofNat n) = false := by decide
  have hfalse := hcontrol c.toNat (by omega)
  rw [Char.ofNat_toNat, hc] at hfalse
  cases hfalse

theorem ne_of_isUriChar {c d : Char} (hc : isUriChar c) (hd : isUriChar d = false) : c ≠ d := by
  rintro rfl
  rw [hc] at hd
  cases hd

/-- Nothing is removed from a URI. -/
theorem clean_eq {url : List Char} (hurl : ∀ c ∈ url, isUriChar c) : clean url = url := by
  have hfront : (url.dropWhile fun c => c.toNat ≤ 32) = url := by
    cases url with
    | nil => rfl
    | cons c rest =>
        have hlt := lt_toNat_of_isUriChar (hurl c List.mem_cons_self)
        exact List.dropWhile_cons_of_neg (by simpa using hlt)
  rw [clean, hfront, List.filter_eq_self]
  intro c hc
  have hlt := lt_toNat_of_isUriChar (hurl c hc)
  simp only [List.contains_eq_mem, List.mem_cons, List.not_mem_nil, or_false, Bool.not_eq_true',
    decide_eq_false_iff_not, not_or]
  refine ⟨?_, ?_, ?_⟩ <;> (rintro rfl; exact absurd hlt (by decide))

theorem splitFirst_eq {c : Char} {url : List Char} (hurl : ∀ d ∈ url, d ≠ c) :
    splitFirst c url = (url, []) := by
  have hall : ∀ d ∈ url, (decide (d ≠ c)) = true := fun d hd => decide_eq_true (hurl d hd)
  rw [splitFirst, List.takeWhile_eq_self_iff.mpr hall, List.dropWhile_eq_nil_iff.mpr hall]
  rfl

theorem splitNetloc_eq {url : List Char} (hurl : ¬['/', '/'] <+: url) :
    splitNetloc url = ([], url) := by
  unfold splitNetloc
  split
  · exact absurd (by simp) hurl
  · rfl

/-- A scheme in front of a colon. -/
theorem splitScheme_eq {front rest : List Char} (hfront : isSchemeText front) :
    splitScheme (front ++ ':' :: rest) = (front.map Char.toLower, rest) := by
  have hcolon : ∀ c ∈ front, (decide (c ≠ ':')) = true := by
    intro c hc
    simp only [isSchemeText, Bool.and_eq_true, List.all_eq_true] at hfront
    apply decide_eq_true
    rintro rfl
    exact absurd (hfront.2 ':' hc) (by decide)
  have htake : (front ++ ':' :: rest).takeWhile (fun c => c ≠ ':') = front := by
    rw [List.takeWhile_append_of_pos hcolon, List.takeWhile_cons_of_neg (by decide),
      List.append_nil]
  have hcontains : (front ++ ':' :: rest).contains ':' = true := by simp
  simp only [splitScheme, htake, hcontains, hfront, Bool.and_self, if_true]
  rw [List.drop_append, List.drop_eq_nil_of_le (by omega), Nat.add_sub_cancel_left]
  rfl

/-- What `urlparse` makes of a URI whose scheme and whose place are known. -/
theorem urlparse_eq (check : NetlocCheck) {url scheme rest netloc path : List Char}
    (hurl : ∀ c ∈ url, isUriChar c) (hscheme : splitScheme url = (scheme, rest))
    (hnetloc : splitNetloc rest = (netloc, path)) (hcheck : check.rejects netloc = false)
    (hpath : ∀ c ∈ path, isUriChar c) (hparams : scheme ∈ usesParams → ';' ∉ path) :
    urlparse check url = some ⟨scheme, netloc, path, [], [], []⟩ := by
  have hfragment : splitFirst '#' path = (path, []) :=
    splitFirst_eq fun c hc => ne_of_isUriChar (hpath c hc) (by decide)
  have hquery : splitFirst '?' path = (path, []) :=
    splitFirst_eq fun c hc => ne_of_isUriChar (hpath c hc) (by decide)
  have hsplit : (if scheme ∈ usesParams ∧ ';' ∈ path then splitParams path else (path, [])) =
      (path, []) := if_neg fun h => hparams h.1 h.2
  simp [urlparse, clean_eq hurl, hscheme, hnetloc, hfragment, hquery, hsplit, hcheck]

/-! ## What is parsed -/

theorem isUriChar_hostPort (hp : HostPort) {c : Char} (hc : c ∈ hp.text) : isUriChar c :=
  isUriChar_of_isHostChar (hp.isHostChar_text hc)

theorem splitNetloc_hostPort (hp : HostPort) :
    splitNetloc ('/' :: '/' :: hp.text) = (hp.text, []) := by
  have hall : ∀ c ∈ hp.text, (!UriText.isDelimiter c) = true := by
    intro c hc
    have hhost := hp.isHostChar_text hc
    rw [Bool.not_eq_true']
    by_contra hdelimiter
    simp only [UriText.isDelimiter, Bool.not_eq_false, Bool.or_eq_true,
      decide_eq_true_eq] at hdelimiter
    rcases hdelimiter with (rfl | rfl) | rfl
    all_goals exact absurd hhost (by decide)
  rw [splitNetloc, List.takeWhile_eq_self_iff.mpr hall, List.dropWhile_eq_nil_iff.mpr hall]

/-- What stands in front of the first colon is a scheme just if the host is one. -/
theorem isSchemeText_front (hp : HostPort) :
    isSchemeText (hp.text.takeWhile fun c => c ≠ ':') = isSchemeText hp.host := by
  rcases hp.colon_cases with hcolon | ⟨rest, hhost⟩
  · have hall : ∀ c ∈ hp.host, (decide (c ≠ ':')) = true := by
      intro c hc
      apply decide_eq_true
      rintro rfl
      exact hcolon hc
    rw [HostPort.text, List.takeWhile_append_of_pos hall, List.takeWhile_cons_of_neg (by decide),
      List.append_nil]
  · rw [HostPort.text, hhost, List.cons_append, List.takeWhile_cons_of_pos (by decide)]
    rfl

/-- What `urlparse` makes of a URI with a scheme. -/
theorem urlparse_scheme (check : NetlocCheck) {front rest netloc path : List Char}
    (hfront : isSchemeText front) (hrest : ∀ c ∈ rest, isUriChar c)
    (hnetloc : splitNetloc rest = (netloc, path)) (hcheck : check.rejects netloc = false)
    (hpath : ∀ c ∈ path, isUriChar c)
    (hparams : front.map Char.toLower ∈ usesParams → ';' ∉ path) :
    urlparse check (front ++ ':' :: rest) =
      some ⟨front.map Char.toLower, netloc, path, [], [], []⟩ := by
  refine urlparse_eq check ?_ (splitScheme_eq hfront) hnetloc hcheck hpath hparams
  simp only [isSchemeText, Bool.and_eq_true, List.all_eq_true] at hfront
  intro c hc
  rcases List.mem_append.mp hc with hmem | hmem
  · have hchar := hfront.2 c hmem
    simp only [isSchemeChar, Bool.or_eq_true, decide_eq_true_eq] at hchar
    rcases hchar with ((halphanum | rfl) | rfl) | rfl
    · simp [isUriChar, UriText.isAuthorityChar, halphanum]
    all_goals decide
  · rcases List.mem_cons.mp hmem with rfl | hmem
    · decide
    · exact hrest c hmem

/-- The scheme of a web server, and its place. -/
theorem urlparse_web (check : NetlocCheck) {scheme : List Char} (hscheme : isSchemeText scheme)
    (hp : HostPort) :
    urlparse check (scheme ++ ':' :: '/' :: '/' :: hp.text) =
      some ⟨scheme.map Char.toLower, hp.text, [], [], [], []⟩ := by
  refine urlparse_scheme check hscheme ?_ (splitNetloc_hostPort hp)
    (check.rejects_hostPort hp) nofun (fun _ => List.not_mem_nil)
  intro c hc
  simp only [List.mem_cons] at hc
  rcases hc with rfl | rfl | hc
  · decide
  · decide
  · exact isUriChar_hostPort hp hc

theorem urlparse_unix (check : NetlocCheck) {path : List Char}
    (hhead : path.head? ≠ some '/') (hpath : ∀ c ∈ path, isPathChar c) :
    urlparse check (unixScheme ++ ':' :: path) = some ⟨unixScheme, [], path, [], [], []⟩ := by
  have hchars : ∀ c ∈ path, isUriChar c := fun c hc => isUriChar_of_isPathChar (hpath c hc)
  have hslashes : ¬['/', '/'] <+: path := by
    rintro ⟨rest, rfl⟩
    exact hhead rfl
  exact urlparse_scheme check (by decide) hchars (splitNetloc_eq hslashes) check.rejects_nil
    hchars (fun h => absurd h (by decide))

theorem urlparse_unixAbsolute (check : NetlocCheck) {path : List Char}
    (hpath : ∀ c ∈ path, isPathChar c) :
    urlparse check (unixScheme ++ ':' :: '/' :: '/' :: '/' :: path) =
      some ⟨unixScheme, [], '/' :: path, [], [], []⟩ := by
  have hchars : ∀ c ∈ '/' :: path, isUriChar c :=
    List.forall_mem_cons.mpr ⟨by decide, fun c hc => isUriChar_of_isPathChar (hpath c hc)⟩
  have hslashes : ∀ c ∈ '/' :: '/' :: '/' :: path, isUriChar c :=
    List.forall_mem_cons.mpr ⟨by decide, List.forall_mem_cons.mpr ⟨by decide, hchars⟩⟩
  exact urlparse_scheme check (by decide) hslashes rfl check.rejects_nil hchars
    (fun h => absurd h (by decide))

theorem splitNetloc_of_not_mem {text : List Char} (hslash : '/' ∉ text) :
    splitNetloc text = ([], text) :=
  splitNetloc_eq fun hslashes => hslash (hslashes.subset (by simp))

/-- A host that is a scheme for `urlparse`. -/
theorem urlparse_hostPort_scheme (check : NetlocCheck) {hp : HostPort}
    (hhost : isSchemeText hp.host) :
    urlparse check hp.text = some ⟨hp.host.map Char.toLower, [], hp.port, [], [], []⟩ := by
  have hport : ∀ c ∈ hp.port, c ∈ hp.text := fun c hc => by simp [HostPort.text, hc]
  have hchars : ∀ c ∈ hp.port, isUriChar c := fun c hc => isUriChar_hostPort hp (hport c hc)
  have hslash : '/' ∉ hp.port := fun hc => hp.not_mem_text (by decide) (hport '/' hc)
  exact urlparse_scheme check hhost hchars (splitNetloc_of_not_mem hslash) check.rejects_nil
    hchars fun _ hc => hp.not_mem_text (by decide) (hport ';' hc)

/-- Another host is part of the path. -/
theorem urlparse_hostPort_path (check : NetlocCheck) {hp : HostPort}
    (hhost : isSchemeText hp.host = false) :
    urlparse check hp.text = some ⟨[], [], hp.text, [], [], []⟩ := by
  have hscheme : splitScheme hp.text = ([], hp.text) := by
    simp only [splitScheme, isSchemeText_front, hhost, Bool.and_false, Bool.false_eq_true,
      if_false]
  exact urlparse_eq check (fun c hc => isUriChar_hostPort hp hc) hscheme
    (splitNetloc_of_not_mem (hp.not_mem_text (by decide))) check.rejects_nil
    (fun c hc => isUriChar_hostPort hp hc) fun _ => hp.not_mem_text (by decide)

/-! ## What is opened -/

/-- The channel is opened, for what the URI means. -/
def ChannelRight (naming : Naming) (check : NetlocCheck) (credentials : Except ε C)
    (endpoint : Endpoint) : Prop :=
  ∃ channel, createChannel check credentials endpoint.text = .ok channel ∧
    endpoint.OpenedBy naming channel.target channel.credentials.isSome

/-- Where `create_channel` is right. -/
def RightUri (naming : Naming) : Endpoint → Prop
  | .http hp | .https hp => naming.isScheme hp.host = false
  | .hostPort hp => naming.isScheme hp.host = false ∧ isSchemeText hp.host = false
  | _ => True

variable {naming : Naming} {check : NetlocCheck} {credentials : Except ε C}

/-- A channel that is opened is right if its target is, and it is secure when it has to be. -/
theorem channelRight_of_eq {endpoint : Endpoint} {target : List Char} {given : Option C}
    (hchannel : createChannel check credentials endpoint.text = .ok ⟨target, given⟩)
    (hsecure : given.isSome ↔ endpoint.IsHttps) :
    ChannelRight naming check credentials endpoint ↔
      naming.resolve target = endpoint.meaning naming := by
  constructor
  · rintro ⟨channel, hother, hopened⟩
    rw [hchannel, Except.ok.injEq] at hother
    rw [← hother] at hopened
    exact hopened.address
  · intro haddress
    exact ⟨_, hchannel, haddress, hsecure⟩

theorem createChannel_eq {c : C} (hload : credentials = .ok c) (scheme : List Char)
    {uri : List Char} {parsed : ParseResult} (hparse : urlparse check uri = some parsed)
    (hscheme : (if parsed.scheme ≠ [] then parsed.scheme else "http".toList) = scheme) :
    createChannel check credentials uri =
      .ok ⟨withUnix scheme (parsed.netloc ++ parsed.path),
        if "https".toList <:+: scheme then some c else none⟩ := by
  rw [createChannel, hparse]
  simp only [hscheme, hload]
  split
  · rfl
  · rfl

theorem withUnix_of_not {scheme : List Char} (hscheme : ¬"unix".toList <:+: scheme)
    (endpoint : List Char) : withUnix scheme endpoint = endpoint :=
  if_neg hscheme

theorem withUnix_relative {path : List Char} (hhead : path.head? ≠ some '/') :
    withUnix unixScheme path = unixScheme ++ ':' :: path := by
  rw [withUnix, if_pos (by decide), if_neg hhead]
  rfl

theorem withUnix_absolute (path : List Char) :
    withUnix unixScheme ('/' :: path) = unixScheme ++ ':' :: '/' :: '/' :: '/' :: path := by
  rw [withUnix, if_pos (by decide), if_pos List.head?_cons]
  rfl

theorem not_isDigit_of_isAlpha {c : Char} (halpha : c.isAlpha) : ¬c.isDigit := by
  intro hdigit
  unfold Char.isDigit at hdigit
  unfold Char.isAlpha Char.isUpper Char.isLower at halpha
  simp only [Bool.or_eq_true, Bool.and_eq_true, decide_eq_true_eq, UInt32.le_iff_toNat_le,
    ge_iff_le] at hdigit halpha
  have hnine : '9'.val.toNat = 57 := rfl
  have hupper : 'A'.val.toNat = 65 := rfl
  have hlower : 'a'.val.toNat = 97 := rfl
  omega

/-- The port alone is not the name of the server. -/
theorem resolve_withUnix_ne (naming : Naming) {hp : HostPort} (hhost : isSchemeText hp.host)
    (scheme : List Char) :
    naming.resolve (withUnix scheme hp.port) ≠ some (.tcp hp.host hp.port) := by
  have hslash : '/' ∉ hp.port := fun hc => absurd (hp.port_digits hc) (by decide)
  unfold withUnix
  split
  · have hhead : hp.port.head? ≠ some '/' := fun h => hslash (List.mem_of_mem_head? h)
    have hslashes : ¬['/', '/'] <+: hp.port := fun h => hslash (h.subset (by simp))
    have hpath := naming.resolve_path hp.port hslashes
    rw [if_neg hhead]
    show naming.resolve (unixScheme ++ ':' :: hp.port) ≠ _
    rw [hpath]
    cases naming.location hp.port with
    | none => exact nofun
    | some path => exact nofun
  · rw [naming.resolve_name hp.port hp.isName_port]
    intro h
    -- a host that is a scheme begins with a letter
    have hsame : hp.port = hp.host := by
      injection h with h
      injection h
    obtain ⟨c, rest, hcons⟩ := List.exists_cons_of_ne_nil hp.port_ne_nil
    rw [← hsame, isSchemeText, hcons, Bool.and_eq_true] at hhost
    have hdigit := hp.port_digits (c := c) (by simp [hcons])
    exact not_isDigit_of_isAlpha hhost.1 hdigit

theorem not_channelRight_of_scheme {c : C} (hload : credentials = .ok c) {hp : HostPort}
    (hhost : isSchemeText hp.host) : ¬ChannelRight naming check credentials (.hostPort hp) := by
  have hparse : urlparse check (Endpoint.hostPort hp).text = some ⟨_, _, _, [], [], []⟩ :=
    urlparse_hostPort_scheme check hhost
  have hchannel := createChannel_eq hload _ hparse rfl
  rintro ⟨channel, hother, hopened⟩
  rw [hchannel, Except.ok.injEq] at hother
  rw [← hother] at hopened
  exact resolve_withUnix_ne naming hhost _ hopened.address

/-- The channel is right just if no host is a scheme: neither for gRPC nor, where the URI has
no scheme, for `urlparse`. -/
theorem createChannel_right_iff (naming : Naming) (check : NetlocCheck)
    {credentials : Except ε C} {c : C} (hload : credentials = .ok c) (endpoint : Endpoint)
    (huri : IsUri endpoint) :
    ChannelRight naming check credentials endpoint ↔ RightUri naming endpoint := by
  cases endpoint with
  | http hp =>
      have hparse : urlparse check (Endpoint.http hp).text = some ⟨_, _, _, [], [], []⟩ :=
        urlparse_web check (by decide : isSchemeText ['h', 't', 't', 'p']) hp
      have hchannel := createChannel_eq hload "http".toList hparse rfl
      rw [withUnix_of_not (by decide), List.append_nil, if_neg (by decide)] at hchannel
      rw [channelRight_of_eq hchannel (iff_of_false Bool.false_ne_true id)]
      exact naming.resolve_text_iff hp
  | https hp =>
      have hparse : urlparse check (Endpoint.https hp).text = some ⟨_, _, _, [], [], []⟩ :=
        urlparse_web check (by decide : isSchemeText ['h', 't', 't', 'p', 's']) hp
      have hchannel := createChannel_eq hload "https".toList hparse rfl
      rw [withUnix_of_not (by decide), List.append_nil, if_pos (by decide)] at hchannel
      rw [channelRight_of_eq hchannel (iff_of_true rfl trivial)]
      exact naming.resolve_text_iff hp
  -- without a scheme `urlparse` takes a host that could be one for it
  | hostPort hp =>
      cases hhost : isSchemeText hp.host with
      | true =>
          refine iff_of_false (not_channelRight_of_scheme hload hhost) ?_
          exact fun h => absurd (hhost.symm.trans h.2) (by decide)
      | false =>
          have hparse : urlparse check (Endpoint.hostPort hp).text = some ⟨_, _, _, [], [], []⟩ :=
            urlparse_hostPort_path check hhost
          have hchannel := createChannel_eq hload "http".toList hparse rfl
          rw [withUnix_of_not (by decide), List.nil_append, if_neg (by decide)] at hchannel
          rw [channelRight_of_eq hchannel (iff_of_false Bool.false_ne_true id)]
          exact (naming.resolve_text_iff hp).trans (and_iff_left hhost).symm
  -- the path of a relative name is what stands behind the scheme
  | unix path =>
      have hparse : urlparse check (Endpoint.unix path).text = some ⟨_, _, _, [], [], []⟩ :=
        urlparse_unix check huri.1 huri.2
      have hchannel := createChannel_eq hload unixScheme hparse rfl
      rw [List.nil_append, withUnix_relative huri.1, if_neg (by decide)] at hchannel
      rw [channelRight_of_eq hchannel (iff_of_false Bool.false_ne_true id)]
      exact iff_of_true rfl trivial
  | unixAbsolute path =>
      have hparse : urlparse check (Endpoint.unixAbsolute path).text =
          some ⟨_, _, _, [], [], []⟩ := urlparse_unixAbsolute check huri
      have hchannel := createChannel_eq hload unixScheme hparse rfl
      rw [List.nil_append, withUnix_absolute, if_neg (by decide)] at hchannel
      rw [channelRight_of_eq hchannel (iff_of_false Bool.false_ne_true id)]
      exact iff_of_true rfl trivial
  | file path => exact huri.elim

/-- The check of a Python without one. -/
def noCheck : NetlocCheck := ⟨fun _ => false, rfl, fun _ => rfl⟩

theorem createChannel_right_iff_localhost :
    IsUri (.https .localhost) ∧
      (ChannelRight GrpcTarget.unixNaming noCheck (.ok () : Except Unit Unit) (.https .localhost) ↔
        RightUri GrpcTarget.unixNaming (.https .localhost)) :=
  ⟨trivial, createChannel_right_iff GrpcTarget.unixNaming noCheck rfl _ trivial⟩

/-- The target of `localhost:5001` is `5001`. -/
theorem createChannel_loses_host :
    ((createChannel noCheck (.ok () : Except Unit Unit) "localhost:5001".toList).toOption.map
        fun channel => channel.target) = some "5001".toList ∧
      ¬ChannelRight GrpcTarget.unixNaming noCheck (.ok () : Except Unit Unit)
        (.hostPort .localhost) :=
  ⟨by decide +kernel, not_channelRight_of_scheme rfl (by decide)⟩

end ArmoniKApi.Python
