import ArmoniKApi.Library.UriText

/-!
# The targets of gRPC channels

A channel is opened for a target.  This is a name with a scheme that gRPC has a resolver
for, or the host and the port of a server.  A socket of the file system is named by
`unix:path`, or by `unix://` and an absolute path.

A host that has the name of a scheme is taken for the scheme when its port follows it,
so that such a target is not the name of the server (`Naming.resolve_scheme`).

Users write an endpoint in more forms than gRPC reads: as the URI of a web server, or as
a path of the file system (`Endpoint`).  A client rewrites them into targets.

How gRPC resolves a target is not computed here, since the resolvers and the decoding of
percent signs are those of another library.  `Naming` holds what its documentation says, one
field for each form of a target, and a program is compared with any such naming:

```text
target             resolved to
unix:path          the socket `location path`, unless the path begins with two slashes
unix:///path       the socket `location /path`
unix://c...        nothing, when `c` is no slash
host:port          the server, unless the host is the name of a scheme
host               the server at the default port
```

`unixNaming` is a naming that can be evaluated, so that the fields can be met together.

The other half is about characters.  A host and a port are written with few of them
(`isHostChar_text`), so that a separator that is none of these does not occur (`not_mem_text`),
and a colon occurs in the host only inside brackets (`colon_cases`).  `host_of_eq` is what the
programs need: the text in front of the first colon is the host, if it is a name at all.

An endpoint has a text, as the user writes it, and a meaning, as the user means it.
`OpenedBy` compares the target that a program makes of the text with the meaning: the same
address, and a secure channel just for `https`.
-/

namespace GrpcTarget

/-! ## Hosts and ports -/

/-- The characters of the names of hosts and of addresses of version 4. -/
def isNameChar (c : Char) : Bool := c.isAlphanum || c = '-' || c = '_' || c = '.'

/-- The name of a host, or an address of version 4. -/
def isName (text : List Char) : Bool := !text.isEmpty && text.all isNameChar

/-- An address of version 6, the end of which may be written as an address of version 4. -/
def isAddress6 (text : List Char) : Bool :=
  let last := (text.splitOn ':').getLastD []
  text.all (fun c => c.isAlphanum || c = ':' || c = '.') &&
    (UriText.isIpv6 text || UriText.isIpv4 last &&
      UriText.isIpv6 (text.take (text.length - last.length) ++ ['0', ':', '0']))

/-- A host, where an address of version 6 stands in brackets. -/
def isHost : List Char → Bool
  | '[' :: rest => rest.getLast? = some ']' && isAddress6 rest.dropLast
  | text => isName text

/-- A port, of 16 bits. -/
def isPort (text : List Char) : Bool :=
  !text.isEmpty && text.all Char.isDigit && Nat.ofDigitChars 10 text 0 ≤ 65535

/-- The host and the port of a server. -/
structure HostPort where
  host : List Char
  port : List Char
  host_ok : isHost host
  port_ok : isPort port

/-- A host and a port, as they are written. -/
def HostPort.text (hp : HostPort) : List Char := hp.host ++ ':' :: hp.port

/-- The characters of a host and a port. -/
def isHostChar (c : Char) : Bool := isNameChar c || c = ':' || c = '[' || c = ']'

theorem isHost_cases {host : List Char} (hhost : isHost host) :
    isName host ∨ ∃ address, host = '[' :: address ++ [']'] ∧ isAddress6 address := by
  unfold isHost at hhost
  split at hhost
  · rename_i rest
    rw [Bool.and_eq_true, decide_eq_true_iff] at hhost
    obtain ⟨hlast, haddress⟩ := hhost
    refine .inr ⟨rest.dropLast, ?_, haddress⟩
    rw [List.cons_append, List.dropLast_append_getLast? _ hlast]
  · exact .inl hhost

namespace HostPort

variable (hp : HostPort)

theorem port_digits {c : Char} (hc : c ∈ hp.port) : c.isDigit := by
  have hport := hp.port_ok
  simp only [isPort, Bool.and_eq_true, List.all_eq_true] at hport
  exact hport.1.2 c hc

theorem port_ne_nil : hp.port ≠ [] := by
  intro hnil
  have hport := hp.port_ok
  rw [hnil] at hport
  exact absurd hport (by decide)

theorem host_ne_nil : hp.host ≠ [] := by
  intro hnil
  have hhost := hp.host_ok
  rw [hnil] at hhost
  exact absurd hhost (by decide)

theorem isName_port : isName hp.port := by
  simp only [isName, Bool.and_eq_true, Bool.not_eq_true', List.isEmpty_eq_false_iff,
    List.all_eq_true]
  refine ⟨hp.port_ne_nil, fun c hc => ?_⟩
  simp [isNameChar, Char.isAlphanum, hp.port_digits hc]

theorem isHostChar_host {c : Char} (hc : c ∈ hp.host) : isHostChar c := by
  rcases isHost_cases hp.host_ok with hname | ⟨address, hhost, haddress⟩
  · simp only [isName, Bool.and_eq_true, List.all_eq_true] at hname
    simp [isHostChar, hname.2 c hc]
  · simp only [isAddress6, Bool.and_eq_true, List.all_eq_true] at haddress
    rw [hhost, List.cons_append, List.mem_cons, List.mem_append, List.mem_singleton] at hc
    rcases hc with rfl | hinside | rfl
    · decide
    · have hchar := haddress.1 c hinside
      simp only [Bool.or_eq_true, decide_eq_true_eq] at hchar
      rcases hchar with (halphanum | rfl) | rfl
      · simp [isHostChar, isNameChar, halphanum]
      · decide
      · decide
    · decide

theorem isHostChar_text {c : Char} (hc : c ∈ hp.text) : isHostChar c := by
  rw [text, List.mem_append, List.mem_cons] at hc
  rcases hc with hhost | rfl | hport
  · exact hp.isHostChar_host hhost
  · decide
  · simp [isHostChar, isNameChar, Char.isAlphanum, hp.port_digits hport]

theorem not_mem_text {c : Char} (hc : isHostChar c = false) : c ∉ hp.text := by
  intro hmem
  rw [hp.isHostChar_text hmem] at hc
  cases hc

/-- Only the addresses in brackets have colons. -/
theorem colon_cases : ':' ∉ hp.host ∨ ∃ rest, hp.host = '[' :: rest := by
  rcases isHost_cases hp.host_ok with hname | ⟨address, hhost, -⟩
  · left
    intro hcolon
    simp only [isName, Bool.and_eq_true, List.all_eq_true] at hname
    exact absurd (hname.2 ':' hcolon) (by decide)
  · exact .inr ⟨_, hhost⟩

/-- What stands in front of the first colon is the host, if it is a name. -/
theorem host_of_eq {name rest : List Char} (hname : isName name)
    (htext : hp.text = name ++ ':' :: rest) : hp.host = name ∧ hp.port = rest := by
  simp only [isName, Bool.and_eq_true, Bool.not_eq_true', List.isEmpty_eq_false_iff,
    List.all_eq_true] at hname
  obtain ⟨hne, hchars⟩ := hname
  rcases hp.colon_cases with hcolon | ⟨inside, hhost⟩
  · have hname : ':' ∉ name := fun hmem => absurd (hchars ':' hmem) (by decide)
    exact Separator.append_cons_inj hcolon hname htext
  · -- a bracket does not begin a name
    obtain ⟨first, others, hfirst⟩ := List.exists_cons_of_ne_nil hne
    rw [text, hhost, hfirst, List.cons_append, List.cons_append, List.cons.injEq] at htext
    have hbracket := hchars first (hfirst ▸ List.mem_cons_self)
    rw [← htext.1] at hbracket
    exact absurd hbracket (by decide)

end HostPort

/-! ## Names -/

/-- What a target is the name of. -/
inductive Address
  | tcp (host port : List Char)
  | socket (path : List Char)
  deriving DecidableEq

/-- `unix`. -/
def unixScheme : List Char := ['u', 'n', 'i', 'x']

/-- The names of gRPC.  `location` is the path that is meant by the path of a URI, in which
characters may be percent-encoded, and `defaultPort` is the port of a server whose name
has none. -/
structure Naming where
  isScheme : List Char → Bool
  location : List Char → Option (List Char)
  defaultPort : List Char
  resolve : List Char → Option Address
  isScheme_unix : isScheme unixScheme
  resolve_path : ∀ path, ¬['/', '/'] <+: path →
    resolve (unixScheme ++ ':' :: path) = (location path).map .socket
  resolve_absolute : ∀ path,
    resolve (unixScheme ++ ':' :: '/' :: '/' :: '/' :: path) =
      (location ('/' :: path)).map .socket
  resolve_relative : ∀ c path, c ≠ '/' →
    resolve (unixScheme ++ ':' :: '/' :: '/' :: c :: path) = none
  resolve_hostPort : ∀ hp : HostPort, isScheme hp.host = false →
    resolve hp.text = some (.tcp hp.host hp.port)
  resolve_scheme : ∀ hp : HostPort, isScheme hp.host →
    resolve hp.text ≠ some (.tcp hp.host hp.port)
  resolve_name : ∀ name, isName name → resolve name = some (.tcp name defaultPort)

namespace Naming

variable (naming : Naming)

/-- A host and a port are the name of the server, unless the host is a scheme. -/
theorem resolve_text_iff (hp : HostPort) :
    naming.resolve hp.text = some (.tcp hp.host hp.port) ↔ naming.isScheme hp.host = false := by
  cases hscheme : naming.isScheme hp.host with
  | true => exact iff_of_false (naming.resolve_scheme hp hscheme) (by decide)
  | false => exact iff_of_true (naming.resolve_hostPort hp hscheme) rfl

/-- An absolute path with `unix` in front of it names its file, if it is not changed by
reading it as the path of a URI. -/
theorem resolve_file_iff (path : List Char) :
    naming.resolve (unixScheme ++ ':' :: '/' :: '/' :: '/' :: path) =
        some (.socket ('/' :: path)) ↔
      naming.location ('/' :: path) = some ('/' :: path) := by
  rw [naming.resolve_absolute]
  cases naming.location ('/' :: path) with
  | none => simp
  | some other => simp

end Naming

/-! ## A naming that only knows sockets -/

/-- The host and the port on both sides of the last colon. -/
def readHostPort (text : List Char) : Option Address :=
  let port := (text.reverse.takeWhile fun c => c ≠ ':').reverse
  let host := ((text.reverse.dropWhile fun c => c ≠ ':').drop 1).reverse
  if isHost host && isPort port then some (.tcp host port) else none

/-- What follows `unix:`. -/
def readSocket : List Char → Option Address
  | '/' :: '/' :: '/' :: path => some (.socket ('/' :: path))
  | '/' :: '/' :: _ => none
  | path => some (.socket path)

theorem readSocket_path {path : List Char} (hpath : ¬['/', '/'] <+: path) :
    readSocket path = some (.socket path) := by
  unfold readSocket
  split
  · exact absurd (by simp) hpath
  · exact absurd (by simp) hpath
  · rfl

theorem readHostPort_text (hp : HostPort) :
    readHostPort hp.text = some (.tcp hp.host hp.port) := by
  have hport : ∀ c ∈ hp.port.reverse, (decide (c ≠ ':')) = true := by
    intro c hc
    apply decide_eq_true
    rintro rfl
    exact absurd (hp.port_digits (List.mem_reverse.mp hc)) (by decide)
  have hreverse : hp.text.reverse = hp.port.reverse ++ ':' :: hp.host.reverse := by
    rw [HostPort.text, List.reverse_append, List.reverse_cons, List.append_assoc,
      List.singleton_append]
  rw [readHostPort, hreverse, List.takeWhile_append_of_pos hport,
    List.dropWhile_append_of_pos hport]
  simp [hp.host_ok, hp.port_ok]

/-- A server on the same machine. -/
def HostPort.localhost : HostPort where
  host := "localhost".toList
  port := "5001".toList
  host_ok := by decide
  port_ok := by decide

/-- The naming with `unix` for its only scheme, and paths that are not encoded. -/
def unixNaming : Naming where
  isScheme name := name = unixScheme
  location := some
  defaultPort := ['4', '4', '3']
  resolve text :=
    if unixScheme ++ [':'] <+: text then readSocket (text.drop 5)
    else if isName text then some (.tcp text ['4', '4', '3'])
    else readHostPort text
  isScheme_unix := by decide
  resolve_path path hpath := by
    rw [if_pos (by simp [unixScheme])]
    exact readSocket_path hpath
  resolve_absolute path := by
    rw [if_pos (by simp [unixScheme])]
    rfl
  resolve_relative c path hc := by
    rw [if_pos (by simp [unixScheme])]
    show readSocket ('/' :: '/' :: c :: path) = none
    unfold readSocket
    split
    · rename_i heq
      simp only [List.cons.injEq, true_and] at heq
      exact absurd heq.1 hc
    · rfl
    · rename_i hnot
      exact absurd rfl (hnot (c :: path))
  resolve_hostPort hp hhost := by
    have hcolon : ¬isName hp.text := by
      intro hname
      simp only [isName, Bool.and_eq_true, List.all_eq_true] at hname
      exact absurd (hname.2 ':' (by simp [HostPort.text])) (by decide)
    rw [if_neg, if_neg hcolon, readHostPort_text]
    rintro ⟨rest, hrest⟩
    rw [List.append_assoc, List.singleton_append] at hrest
    obtain ⟨hunix, -⟩ := hp.host_of_eq (by decide) hrest.symm
    rw [hunix] at hhost
    exact absurd hhost (by decide)
  resolve_scheme hp hhost := by
    have hunix : hp.host = unixScheme := of_decide_eq_true hhost
    have hport : ¬['/', '/'] <+: hp.port := by
      rintro ⟨rest, hrest⟩
      exact absurd (hp.port_digits (c := '/') (by simp [← hrest])) (by decide)
    rw [HostPort.text, hunix, if_pos (by simp [unixScheme])]
    show readSocket hp.port ≠ _
    rw [readSocket_path hport]
    intro h
    cases h
  resolve_name name hname := by
    rw [if_neg, if_pos hname]
    rintro ⟨rest, hrest⟩
    simp only [isName, Bool.and_eq_true, List.all_eq_true] at hname
    exact absurd (hname.2 ':' (by simp [← hrest])) (by decide)

/-! ## Endpoints -/

/-- The forms in which an endpoint is written. -/
inductive Endpoint
  | http (hp : HostPort)
  | https (hp : HostPort)
  | hostPort (hp : HostPort)
  | unix (path : List Char)
  | unixAbsolute (path : List Char)
  | file (path : List Char)

namespace Endpoint

/-- An endpoint with the scheme that it is written with. -/
def text : Endpoint → List Char
  | http hp => ['h', 't', 't', 'p', ':', '/', '/'] ++ hp.text
  | https hp => ['h', 't', 't', 'p', 's', ':', '/', '/'] ++ hp.text
  | hostPort hp => hp.text
  | unix path => unixScheme ++ ':' :: path
  | unixAbsolute path => unixScheme ++ ':' :: '/' :: '/' :: '/' :: path
  | file path => '/' :: path

/-- What is meant by an endpoint.  The last two forms but one are targets themselves. -/
def meaning (naming : Naming) : Endpoint → Option Address
  | http hp | https hp | hostPort hp => some (.tcp hp.host hp.port)
  | unix path => naming.resolve (unix path).text
  | unixAbsolute path => naming.resolve (unixAbsolute path).text
  | file path => some (.socket ('/' :: path))

/-- A secure channel is asked for. -/
def IsHttps : Endpoint → Prop
  | https _ => True
  | _ => False

/-- The endpoint is opened by a channel for the target. -/
structure OpenedBy (naming : Naming) (endpoint : Endpoint) (target : List Char) (secure : Bool) :
    Prop where
  address : naming.resolve target = endpoint.meaning naming
  secure_iff : secure ↔ endpoint.IsHttps

end Endpoint

end GrpcTarget
