import ArmoniKApi.Cpp.StringSearch
import ArmoniKApi.Library.GrpcTarget

/-!
# The endpoints of the C++ packages

Two functions rewrite an endpoint into a target of gRPC: the client's
`initialize_protocol_endpoint`, and the `normalize_address` of the worker.

* The scheme of a web server is cut off, and what is left is the target.
* A path of the file system gets the scheme `unix` in front of it.
* An endpoint that has the scheme `unix` gets it once more, in both functions.

`endpoints_right_iff` says for which endpoints the targets are right.

```text
endpoint            client                     worker
http://host:port    host:port                  host:port
https://host:port   host:port, secure          unix://https://host:port
host:port           host:port                  unix://host:port
unix:path           unix:unix:path             unix://unix:path
unix:///path        unix:unix:///path          unix://unix:///path
/path               unix:///path               unix:///path
```

The functions work on views of text in memory, with searches that go over the whole of it, so
the proofs have two parts.  The first is about the searches: that they end, and what their
positions say about the characters (`found_viewOf`, `returns_initialize`, `returns_rewritten`).
The second is about characters alone: a host and a port hold no scheme of a web server
(`not_infix_hostPort`), and there is no second scheme in a target that was not made with one
(`not_doubled_hostPort`, `not_doubled_file`, `doubled_unix`).

What gRPC makes of a target is a parameter, a `Naming` of the library.
-/

namespace ArmoniKApi.Cpp

open GrpcTarget (Endpoint Naming HostPort unixScheme isName)
open Loop (Returns)

/-! ## The code -/

/-- The view of the characters of a string. -/
def viewOf (chars : List Char) : StringView := ⟨chars, UInt64.ofNat chars.length⟩

/-- What `initialize_protocol_endpoint` does after its searches: the endpoint, and whether
it is one of https.  A character outside of a buffer is undefined. -/
def rewriteEndpoint (endpointView : StringView) (httpDelim httpsDelim unixDelim : SizeT) :
    Option (List Char × Bool) := do
  let isSocket ←
    if unixDelim = 0 then some true
    else do
      let first ← endpointView.data[0]?
      some (decide (first = '/' ∧ endpointView.find ':' 0 = npos))
  if isSocket then
    if endpointView.chars.head? = some '/' then
      some ("unix://".toList ++ endpointView.chars, false)
    else some ("unix:".toList ++ endpointView.chars, false)
  else if httpsDelim ≠ npos then some ((endpointView.substr (httpsDelim + 8) npos).chars, true)
  else if httpDelim ≠ npos then some ((endpointView.substr (httpDelim + 7) npos).chars, false)
  else some (endpointView.chars, false)

/-- `initialize_protocol_endpoint`.  The first of its searches is for nothing. -/
def initializeProtocolEndpoint (endpointView : StringView) (turns : ℕ) :
    Option (List Char × Bool) := do
  let _ ← endpointView.findNeedle (viewOf "://".toList) 0 turns
  let httpDelim ← endpointView.findNeedle (viewOf "http://".toList) 0 turns
  let httpsDelim ← endpointView.findNeedle (viewOf "https://".toList) 0 turns
  let unixDelim ← endpointView.findNeedle (viewOf "unix".toList) 0 turns
  rewriteEndpoint endpointView httpDelim httpsDelim unixDelim

/-- `operator==` of views. -/
def viewEq (lhs rhs : StringView) : Bool := lhs.size = rhs.size && lhs.chars = rhs.chars

/-- `starts_with`.  The second argument is the prefix. -/
def startsWith (s front : StringView) : Bool :=
  s.size ≥ front.size && viewEq (s.substr 0 front.size) front

/-- `normalize_address`. -/
def normalizeAddress (address : StringView) : List Char :=
  if startsWith address (viewOf "http://".toList) then (address.substr 7 npos).chars
  else "unix://".toList ++ address.chars

/-! ## The views of strings -/

theorem inBuffer_viewOf (chars : List Char) : (viewOf chars).InBuffer := by
  show (UInt64.ofNat chars.length).toNat ≤ chars.length
  rw [UInt64.toNat_ofNat']
  exact Nat.mod_le _ _

theorem chars_viewOf {chars : List Char} (hlength : chars.length < 18446744073709551616) :
    (viewOf chars).chars = chars := by
  show chars.take (UInt64.ofNat chars.length).toNat = chars
  rw [UInt64.toNat_ofNat', Nat.mod_eq_of_lt hlength, List.take_length]

theorem inMemory_viewOf {chars : List Char} (hlength : chars.length < 18446744073709551615) :
    (viewOf chars).InMemory := by
  refine ⟨inBuffer_viewOf chars, ?_⟩
  show (UInt64.ofNat chars.length).toNat < 18446744073709551615
  rw [UInt64.toNat_ofNat', Nat.mod_eq_of_lt (by omega)]
  exact hlength

namespace StringView

variable {self needle : StringView}

/-- The rest of a view, behind what is in front. -/
theorem chars_substr_append (hbuffer : self.InBuffer) {front rest : List Char}
    (hchars : self.chars = front ++ rest) {pos : SizeT} (hpos : pos.toNat = front.length) :
    (self.substr pos npos).chars = rest := by
  have hle : pos.toNat ≤ self.size.toNat := by
    rw [hpos, ← length_chars hbuffer, hchars, List.length_append]
    exact Nat.le_add_right _ _
  have hdrop : (self.substr pos npos).chars = self.chars.drop pos.toNat := by
    rw [chars, data_substr, toNat_size_substr, if_pos (.inl rfl), Nat.min_eq_left hle, chars,
      List.drop_take]
  rw [hdrop, hchars, hpos, List.drop_left]

/-- A search from the beginning finds a needle that stands there. -/
theorem Found.eq_zero_iff {result : SizeT} (hfound : self.Found needle 0 result) :
    result = 0 ↔ needle.chars <+: self.chars := by
  rcases hfound with hfirst | ⟨rfl, hnone⟩
  · constructor
    · rintro rfl
      exact hfirst.occurs.here
    · intro hprefix
      by_contra hne
      have hpositive : (0 : SizeT) < result :=
        UInt64.lt_of_le_of_ne hfirst.after_pos (Ne.symm hne)
      exact hfirst.least 0 (UInt64.le_refl 0) hpositive ⟨Nat.zero_le _, hprefix⟩
  · refine iff_of_false (by decide) fun hprefix => ?_
    exact hnone 0 (UInt64.le_refl 0) ⟨Nat.zero_le _, hprefix⟩

/-- It finds nothing where the needle does not stand at all. -/
theorem Found.eq_npos {result : SizeT} (hfound : self.Found needle 0 result)
    (hnot : ¬needle.chars <:+: self.chars) : result = npos := by
  rcases hfound with hfirst | ⟨rfl, -⟩
  · exact absurd (hfirst.occurs.here.isInfix.trans (List.drop_suffix _ _).isInfix) hnot
  · rfl

end StringView

open StringView (InMemory Found findNeedle_spec length_chars toNat_size_substr chars_substr)

theorem startsWith_iff {s front : StringView} (hs : s.InBuffer) (hfront : front.InBuffer) :
    startsWith s front ↔ front.chars <+: s.chars := by
  have hlength := length_chars hfront
  have hsub : (s.substr 0 front.size).chars = s.chars.take front.size.toNat :=
    chars_substr (Nat.zero_le _) (by
      show 0 + front.size.toNat < _
      rw [Nat.zero_add]
      exact front.size.toNat_lt)
  simp only [startsWith, viewEq, Bool.and_eq_true, decide_eq_true_eq, hsub, ge_iff_le,
    UInt64.le_iff_toNat_le]
  constructor
  · rintro ⟨-, -, hchars⟩
    rw [← hchars]
    exact List.take_prefix _ _
  · intro hprefix
    have hle := hprefix.length_le
    rw [hlength, length_chars hs] at hle
    refine ⟨hle, UInt64.toNat_inj.mp ?_, ?_⟩
    · have hsize := s.size.toNat_lt
      have hzero : (0 : SizeT).toNat = 0 := rfl
      rw [toNat_size_substr, hzero, Nat.zero_min, Nat.zero_add, Nat.sub_zero,
        Nat.mod_eq_of_lt front.size.toNat_lt]
      -- `substr` cuts its length down to what is left, which here is enough
      split
      · rename_i hcases
        rcases hcases with hnpos | hlt
        · rw [hnpos] at hle ⊢
          rw [StringView.toNat_npos] at hle ⊢
          omega
        · omega
      · rfl
    · rw [← hlength]
      exact (List.prefix_iff_eq_take.mp hprefix).symm

/-! ## What the searches find -/

variable {view : StringView}

/-- The searches end, so that the function does what follows them. -/
theorem returns_initialize (hview : view.InMemory) :
    ∃ httpDelim httpsDelim unixDelim,
      view.Found (viewOf "http://".toList) 0 httpDelim ∧
      view.Found (viewOf "https://".toList) 0 httpsDelim ∧
      view.Found (viewOf "unix".toList) 0 unixDelim ∧
      ∀ outcome, rewriteEndpoint view httpDelim httpsDelim unixDelim = some outcome →
        Returns (initializeProtocolEndpoint view) outcome := by
  obtain ⟨_, hdelim, -⟩ := findNeedle_spec hview (inBuffer_viewOf "://".toList) 0
  obtain ⟨httpDelim, hhttp, hhttpFound⟩ :=
    findNeedle_spec hview (inBuffer_viewOf "http://".toList) 0
  obtain ⟨httpsDelim, hhttps, hhttpsFound⟩ :=
    findNeedle_spec hview (inBuffer_viewOf "https://".toList) 0
  obtain ⟨unixDelim, hunix, hunixFound⟩ :=
    findNeedle_spec hview (inBuffer_viewOf "unix".toList) 0
  refine ⟨httpDelim, httpsDelim, unixDelim, hhttpFound, hhttpsFound, hunixFound, ?_⟩
  intro outcome houtcome
  refine hdelim.bind (hhttp.bind (hhttps.bind (hunix.bind ?_)))
  rw [houtcome]
  exact Loop.returns_pure outcome

theorem data_zero (hview : view.InMemory) {c : Char} {rest : List Char}
    (hchars : view.chars = c :: rest) : view.data[0]? = some c := by
  have hsize : 0 < view.size.toNat := by
    rw [← length_chars hview.inBuffer, hchars]
    exact Nat.succ_pos _
  obtain ⟨first, _, hfirst, hdrop, -⟩ := StringView.getElem?_data hview.inBuffer hsize
  rw [List.drop_zero, hchars] at hdrop
  rw [hfirst, (List.cons.inj hdrop).1]

section Rewriting

variable {httpDelim httpsDelim unixDelim : SizeT}

theorem rewriteEndpoint_unix (hunix : unixDelim = 0) (hhead : view.chars.head? ≠ some '/') :
    rewriteEndpoint view httpDelim httpsDelim unixDelim =
      some ("unix:".toList ++ view.chars, false) := by
  simp [rewriteEndpoint, hunix, hhead]

theorem rewriteEndpoint_file (hview : view.InMemory) {path : List Char}
    (hchars : view.chars = '/' :: path) (hcolon : ':' ∉ path) (hunix : unixDelim ≠ 0) :
    rewriteEndpoint view httpDelim httpsDelim unixDelim =
      some ("unix://".toList ++ view.chars, false) := by
  have hnone : view.find ':' 0 = npos := by
    by_contra hfound
    have hmem := (StringView.contains_iff hview.inBuffer ':').mp (decide_eq_true hfound)
    rw [hchars] at hmem
    simp [hcolon] at hmem
  simp [rewriteEndpoint, hunix, data_zero hview hchars, hnone, hchars]

/-- What is neither a name with the scheme `unix` nor a path. -/
theorem rewriteEndpoint_web (hview : view.InMemory) {c : Char} {rest : List Char}
    (hchars : view.chars = c :: rest) (hc : c ≠ '/') (hunix : unixDelim ≠ 0) :
    rewriteEndpoint view httpDelim httpsDelim unixDelim =
      some (if httpsDelim ≠ npos then ((view.substr (httpsDelim + 8) npos).chars, true)
        else if httpDelim ≠ npos then ((view.substr (httpDelim + 7) npos).chars, false)
        else (view.chars, false)) := by
  have hsocket : decide (c = '/' ∧ view.find ':' 0 = npos) = false :=
    decide_eq_false fun h => hc h.1
  simp only [rewriteEndpoint, if_neg hunix, data_zero hview hchars, Option.bind_eq_bind,
    Option.bind_some, hsocket, Bool.false_eq_true, if_false]
  by_cases hhttps : httpsDelim = npos
  · by_cases hhttp : httpDelim = npos
    · simp [hhttps, hhttp]
    · simp [hhttps, hhttp]
  · simp [hhttps]

end Rewriting

/-! ## The endpoints of a client -/

/-- The endpoints that are meant for `initialize_protocol_endpoint`: a path has no colon, and
a server does not begin with `unix`. -/
def IsEndpoint : Endpoint → Prop
  | .hostPort hp => ¬unixScheme <+: hp.text
  | .file path => ':' ∉ path
  | _ => True

/-- What `initialize_protocol_endpoint` makes of them. -/
def rewritten : Endpoint → List Char × Bool
  | .http hp => (hp.text, false)
  | .https hp => (hp.text, true)
  | .hostPort hp => (hp.text, false)
  | .file path => ("unix://".toList ++ (Endpoint.file path).text, false)
  | endpoint => ("unix:".toList ++ endpoint.text, false)

theorem secure_rewritten (endpoint : Endpoint) : (rewritten endpoint).2 ↔ endpoint.IsHttps := by
  cases endpoint with
  | https hp => exact iff_of_true rfl trivial
  | http hp => exact iff_of_false Bool.false_ne_true id
  | hostPort hp => exact iff_of_false Bool.false_ne_true id
  | unix path => exact iff_of_false Bool.false_ne_true id
  | unixAbsolute path => exact iff_of_false Bool.false_ne_true id
  | file path => exact iff_of_false Bool.false_ne_true id

theorem hostPort_cons (hp : HostPort) : ∃ c rest, hp.text = c :: rest ∧ c ≠ '/' := by
  obtain ⟨c, rest, hhost⟩ := List.exists_cons_of_ne_nil hp.host_ne_nil
  refine ⟨c, rest ++ ':' :: hp.port, by rw [HostPort.text, hhost, List.cons_append], ?_⟩
  rintro rfl
  exact absurd (hp.isHostChar_host (c := '/') (by simp [hhost])) (by decide)

/-- There is no scheme of a web server in a host and a port. -/
theorem not_infix_hostPort (hp : HostPort) (front : List Char) :
    ¬front ++ ['/', '/'] <:+: hp.text := by
  intro hinside
  exact hp.not_mem_text (by decide : GrpcTarget.isHostChar '/' = false)
    (hinside.subset (by simp))

theorem not_https_infix_http (hp : HostPort) :
    ¬"https://".toList <:+: (Endpoint.http hp).text := by
  have hrest := not_infix_hostPort hp ['h', 't', 't', 'p', 's', ':']
  simpa [Endpoint.text, List.infix_cons_iff] using hrest

/-- A search for a text tells whether the view begins with it, and finds nothing where the
view does not have it at all. -/
theorem found_viewOf {chars text : List Char} (htext : view.chars = text) {result : SizeT}
    (hlength : chars.length < 18446744073709551616)
    (hfound : view.Found (viewOf chars) 0 result) :
    (result = 0 ↔ chars <+: text) ∧ (¬chars <:+: text → result = npos) := by
  have hiff := hfound.eq_zero_iff
  have hnone := hfound.eq_npos
  rw [chars_viewOf hlength, htext] at hiff hnone
  exact ⟨hiff, hnone⟩

/-- The function ends, with the endpoint that is rewritten. -/
theorem returns_rewritten (hview : view.InMemory) {endpoint : Endpoint}
    (htext : view.chars = endpoint.text) (hendpoint : IsEndpoint endpoint) :
    Returns (initializeProtocolEndpoint view) (rewritten endpoint) := by
  obtain ⟨httpDelim, httpsDelim, unixDelim, hhttp, hhttps, hunix, hreturns⟩ :=
    returns_initialize hview
  obtain ⟨hhttpIff, hhttpNone⟩ := found_viewOf htext (by decide) hhttp
  obtain ⟨hhttpsIff, hhttpsNone⟩ := found_viewOf htext (by decide) hhttps
  obtain ⟨hunixIff, -⟩ := found_viewOf htext (by decide) hunix
  refine hreturns _ ?_
  cases endpoint with
  | http hp =>
      have hnot : unixDelim ≠ 0 := mt hunixIff.mp (by simp [Endpoint.text])
      have hzero : httpDelim = 0 := hhttpIff.mpr (by simp [Endpoint.text])
      have hrest : (view.substr (0 + 7) npos).chars = hp.text :=
        StringView.chars_substr_append hview.inBuffer htext rfl
      rw [rewriteEndpoint_web hview htext (by decide) hnot, hhttpsNone (not_https_infix_http hp),
        hzero, hrest]
      rfl
  | https hp =>
      have hnot : unixDelim ≠ 0 := mt hunixIff.mp (by simp [Endpoint.text])
      have hzero : httpsDelim = 0 := hhttpsIff.mpr (by simp [Endpoint.text])
      have hrest : (view.substr (0 + 8) npos).chars = hp.text :=
        StringView.chars_substr_append hview.inBuffer htext rfl
      rw [rewriteEndpoint_web hview htext (by decide) hnot, hzero, hrest]
      rfl
  -- no separator at all, so that the whole text is the target
  | hostPort hp =>
      obtain ⟨c, rest, hcons, hc⟩ := hostPort_cons hp
      have hnot : unixDelim ≠ 0 := mt hunixIff.mp hendpoint
      have hnoHttps := hhttpsNone (not_infix_hostPort hp ['h', 't', 't', 'p', 's', ':'])
      have hnoHttp := hhttpNone (not_infix_hostPort hp ['h', 't', 't', 'p', ':'])
      rw [rewriteEndpoint_web hview (htext.trans hcons) hc hnot, hnoHttps, hnoHttp, htext]
      rfl
  -- the scheme is there already, and one more is put in front of it
  | unix path =>
      have hzero : unixDelim = 0 := hunixIff.mpr (by simp [Endpoint.text, unixScheme])
      have hhead : view.chars.head? ≠ some '/' := by simp [htext, Endpoint.text, unixScheme]
      rw [rewriteEndpoint_unix hzero hhead, htext]
      rfl
  | unixAbsolute path =>
      have hzero : unixDelim = 0 := hunixIff.mpr (by simp [Endpoint.text, unixScheme])
      have hhead : view.chars.head? ≠ some '/' := by simp [htext, Endpoint.text, unixScheme]
      rw [rewriteEndpoint_unix hzero hhead, htext]
      rfl
  | file path =>
      have hnot : unixDelim ≠ 0 := mt hunixIff.mp (by simp [Endpoint.text])
      rw [rewriteEndpoint_file hview htext hendpoint hnot, htext]
      rfl

/-! ## Schemes -/

/-- The schemes in which endpoints are written. -/
def schemes : List (List Char) := [['h', 't', 't', 'p'], ['h', 't', 't', 'p', 's'], unixScheme]

/-- There is a scheme behind another one. -/
def Doubled (target : List Char) : Prop :=
  ∃ first ∈ schemes, ∃ second ∈ schemes, ∃ rest,
    target = first ++ ':' :: (second ++ ':' :: rest) ∨
      target = first ++ ':' :: '/' :: '/' :: (second ++ ':' :: rest)

theorem isName_of_mem_schemes {scheme : List Char} (hscheme : scheme ∈ schemes) :
    isName scheme ∧ ':' ∉ scheme := by
  revert scheme
  decide

theorem scheme_ne_slash {scheme rest path : List Char} (hscheme : scheme ∈ schemes) :
    '/' :: path ≠ scheme ++ ':' :: rest := by
  have hhead : ∀ name ∈ schemes, name ≠ [] ∧ name.head? ≠ some '/' := by decide
  obtain ⟨hne, hslash⟩ := hhead scheme hscheme
  obtain ⟨c, others, rfl⟩ := List.exists_cons_of_ne_nil hne
  intro h
  rw [List.cons_append, List.cons.injEq] at h
  exact hslash (congrArg some h.1.symm)

theorem not_doubled_hostPort (hp : HostPort) : ¬Doubled hp.text := by
  rintro ⟨first, hfirst, second, -, rest, htext | htext⟩
  · obtain ⟨-, hport⟩ := hp.host_of_eq (isName_of_mem_schemes hfirst).1 htext
    have hcolon := hp.port_digits (c := ':') (by simp [hport])
    exact absurd hcolon (by decide)
  · exact hp.not_mem_text (by decide : GrpcTarget.isHostChar '/' = false) (by simp [htext])

theorem not_doubled_file (path : List Char) :
    ¬Doubled ("unix://".toList ++ (Endpoint.file path).text) := by
  rintro ⟨first, hfirst, second, hsecond, rest, htext⟩
  obtain ⟨-, hcolon⟩ := isName_of_mem_schemes hfirst
  have hsplit : "unix://".toList ++ (Endpoint.file path).text =
      unixScheme ++ ':' :: '/' :: '/' :: '/' :: path := rfl
  rw [hsplit] at htext
  rcases htext with htext | htext
  · obtain ⟨-, hrest⟩ := Separator.append_cons_inj (by decide) hcolon htext
    exact scheme_ne_slash hsecond hrest
  · obtain ⟨-, hrest⟩ := Separator.append_cons_inj (by decide) hcolon htext
    simp only [List.cons.injEq, true_and] at hrest
    exact scheme_ne_slash hsecond hrest

theorem doubled_unix (path : List Char) :
    Doubled ("unix:".toList ++ (Endpoint.unix path).text) :=
  ⟨unixScheme, by decide, unixScheme, by decide, path, .inl rfl⟩

/-- Where `initialize_protocol_endpoint` is right. -/
def RightEndpoint (naming : Naming) : Endpoint → Prop
  | .http hp | .https hp | .hostPort hp => naming.isScheme hp.host = false
  | .file path => naming.location ('/' :: path) = some ('/' :: path)
  | .unix _ | .unixAbsolute _ => False

/-- The target of an endpoint has one scheme at most and names what the endpoint means, and
the channel is secure just for https. -/
def EndpointRight (naming : Naming) (endpoint : Endpoint) (view : StringView) : Prop :=
  ∃ target secure, Returns (initializeProtocolEndpoint view) (target, secure) ∧
    ¬Doubled target ∧ endpoint.OpenedBy naming target secure

theorem endpointRight_iff (naming : Naming) (hview : view.InMemory) {endpoint : Endpoint}
    (htext : view.chars = endpoint.text) (hendpoint : IsEndpoint endpoint) :
    EndpointRight naming endpoint view ↔ RightEndpoint naming endpoint := by
  have hreturns := returns_rewritten hview htext hendpoint
  have hright : EndpointRight naming endpoint view ↔
      ¬Doubled (rewritten endpoint).1 ∧
        endpoint.OpenedBy naming (rewritten endpoint).1 (rewritten endpoint).2 := by
    constructor
    · rintro ⟨target, secure, hother, h⟩
      have hsame := hreturns.unique hother
      rw [hsame]
      exact h
    · exact fun h => ⟨_, _, hreturns, h⟩
  rw [hright]
  cases endpoint with
  | http hp =>
      rw [RightEndpoint, ← naming.resolve_text_iff]
      exact ⟨fun h => h.2.address, fun h => ⟨not_doubled_hostPort hp, h, secure_rewritten _⟩⟩
  | https hp =>
      rw [RightEndpoint, ← naming.resolve_text_iff]
      exact ⟨fun h => h.2.address, fun h => ⟨not_doubled_hostPort hp, h, secure_rewritten _⟩⟩
  | hostPort hp =>
      rw [RightEndpoint, ← naming.resolve_text_iff]
      exact ⟨fun h => h.2.address, fun h => ⟨not_doubled_hostPort hp, h, secure_rewritten _⟩⟩
  -- `unix:unix:`, which no name resolver opens
  | unix path =>
      exact iff_of_false (fun h => h.1 (doubled_unix path)) id
  | unixAbsolute path =>
      exact iff_of_false (fun h => h.1 (doubled_unix _)) id
  | file path =>
      rw [RightEndpoint, ← naming.resolve_file_iff]
      exact ⟨fun h => h.2.address, fun h => ⟨not_doubled_file path, h, secure_rewritten _⟩⟩

/-! ## The addresses of a worker -/

/-- The addresses that are meant for `normalize_address`. -/
def IsAddress : Endpoint → Prop
  | .https _ | .hostPort _ => False
  | _ => True

/-- What `normalize_address` makes of them. -/
def normalized : Endpoint → List Char
  | .http hp => hp.text
  | endpoint => "unix://".toList ++ endpoint.text

theorem normalizeAddress_http (hbuffer : view.InBuffer) {rest : List Char}
    (hchars : view.chars = "http://".toList ++ rest) : normalizeAddress view = rest := by
  have hstarts : startsWith view (viewOf "http://".toList) := by
    rw [startsWith_iff hbuffer (inBuffer_viewOf _), chars_viewOf (by decide), hchars]
    exact List.prefix_append _ _
  rw [normalizeAddress, if_pos hstarts]
  exact StringView.chars_substr_append hbuffer hchars rfl

theorem normalizeAddress_other (hbuffer : view.InBuffer)
    (hchars : ¬"http://".toList <+: view.chars) :
    normalizeAddress view = "unix://".toList ++ view.chars := by
  have hstarts : ¬startsWith view (viewOf "http://".toList) := by
    rwa [startsWith_iff hbuffer (inBuffer_viewOf _), chars_viewOf (by decide)]
  rw [normalizeAddress, if_neg hstarts]

theorem normalizeAddress_eq (hbuffer : view.InBuffer) {endpoint : Endpoint}
    (htext : view.chars = endpoint.text) (haddress : IsAddress endpoint) :
    normalizeAddress view = normalized endpoint := by
  cases endpoint with
  | http hp => exact normalizeAddress_http hbuffer htext
  | https hp => exact haddress.elim
  | hostPort hp => exact haddress.elim
  | unix path =>
      rw [normalizeAddress_other hbuffer, htext]
      · rfl
      · simp [htext, Endpoint.text, unixScheme]
  | unixAbsolute path =>
      rw [normalizeAddress_other hbuffer, htext]
      · rfl
      · simp [htext, Endpoint.text, unixScheme]
  | file path =>
      rw [normalizeAddress_other hbuffer, htext]
      · rfl
      · simp [htext, Endpoint.text]

/-- The address names what is meant by it. -/
def SameAddress (naming : Naming) (endpoint : Endpoint) (view : StringView) : Prop :=
  naming.resolve (normalizeAddress view) = endpoint.meaning naming

/-- A target with the scheme `unix` is not changed when it is normalised once more. -/
def Unchanged (view : StringView) : Prop :=
  unixScheme ++ [':'] <+: normalizeAddress view →
    normalizeAddress (viewOf (normalizeAddress view)) = normalizeAddress view

/-- Where `normalize_address` keeps the address.  An address with the scheme `unix` becomes
the name of nothing. -/
def KeepsAddress (naming : Naming) : Endpoint → Prop
  | .http hp => naming.isScheme hp.host = false
  | .file path => naming.location ('/' :: path) = some ('/' :: path)
  | endpoint => endpoint.meaning naming = none

theorem sameAddress_iff (naming : Naming) (hbuffer : view.InBuffer) {endpoint : Endpoint}
    (htext : view.chars = endpoint.text) (haddress : IsAddress endpoint) :
    SameAddress naming endpoint view ↔ KeepsAddress naming endpoint := by
  rw [SameAddress, normalizeAddress_eq hbuffer htext haddress]
  cases endpoint with
  | http hp => exact naming.resolve_text_iff hp
  | https hp => exact haddress.elim
  | hostPort hp => exact haddress.elim
  | unix path =>
      have hnone := naming.resolve_relative 'u' ('n' :: 'i' :: 'x' :: ':' :: path) (by decide)
      exact (Eq.congr_left hnone).trans eq_comm
  | unixAbsolute path =>
      have hnone := naming.resolve_relative 'u'
        ('n' :: 'i' :: 'x' :: ':' :: '/' :: '/' :: '/' :: path) (by decide)
      exact (Eq.congr_left hnone).trans eq_comm
  | file path => exact naming.resolve_file_iff path

/-- A target with the scheme `unix` gets it once more. -/
theorem normalizeAddress_again_ne (rest : List Char) :
    normalizeAddress (viewOf ("unix:".toList ++ rest)) ≠ "unix:".toList ++ rest := by
  have hbuffer := inBuffer_viewOf ("unix:".toList ++ rest)
  have hchars : ¬"http://".toList <+: (viewOf ("unix:".toList ++ rest)).chars := by
    intro hprefix
    have hwhole := hprefix.trans (List.take_prefix _ _)
    simp [viewOf] at hwhole
  rw [normalizeAddress_other hbuffer hchars]
  intro h
  have hlength := congrArg List.length h
  have hsize : (viewOf ("unix:".toList ++ rest)).size.toNat =
      ("unix:".toList ++ rest).length % 18446744073709551616 := UInt64.toNat_ofNat'
  -- the sizes differ by the seven characters in front, also when they wrap
  rw [List.length_append, length_chars hbuffer, hsize] at hlength
  have hseven : "unix://".toList.length = 7 := by decide
  omega

theorem unchanged_iff (hbuffer : view.InBuffer) {endpoint : Endpoint}
    (htext : view.chars = endpoint.text) (haddress : IsAddress endpoint) :
    Unchanged view ↔ ∃ hp, endpoint = .http hp ∧ hp.host ≠ unixScheme := by
  rw [Unchanged, normalizeAddress_eq hbuffer htext haddress]
  cases endpoint with
  | http hp =>
      -- a host of the name `unix` is taken for the scheme at the second call
      by_cases hunix : hp.host = unixScheme
      · have htarget : normalized (.http hp) = "unix:".toList ++ hp.port := by
          rw [normalized, HostPort.text, hunix]
          rfl
        rw [htarget]
        refine iff_of_false (fun h => normalizeAddress_again_ne _ (h (List.prefix_append _ _))) ?_
        rintro ⟨other, hother, hne⟩
        cases hother
        exact hne hunix
      · refine iff_of_true ?_ ⟨hp, rfl, hunix⟩
        rintro ⟨rest, hrest⟩
        rw [List.append_assoc, List.singleton_append] at hrest
        exact absurd (hp.host_of_eq (by decide) hrest.symm).1 hunix
  | https hp => exact haddress.elim
  | hostPort hp => exact haddress.elim
  -- two slashes are put in front, and again at the second call
  | unix path =>
      have hne := normalizeAddress_again_ne ('/' :: '/' :: (Endpoint.unix path).text)
      exact iff_of_false (fun h => hne (h (List.prefix_append _ _))) nofun
  | unixAbsolute path =>
      have hne := normalizeAddress_again_ne ('/' :: '/' :: (Endpoint.unixAbsolute path).text)
      exact iff_of_false (fun h => hne (h (List.prefix_append _ _))) nofun
  | file path =>
      have hne := normalizeAddress_again_ne ('/' :: '/' :: (Endpoint.file path).text)
      exact iff_of_false (fun h => hne (h (List.prefix_append _ _))) nofun

/-! ## Both -/

/-- The target of a client is right just for servers whose host is not a scheme, and for paths
that are written as in a URI.  The target of a worker keeps the address just as often, and
is kept when it is normalised again just when it is the one of a server. -/
theorem endpoints_right_iff (naming : Naming) (hview : view.InMemory) (endpoint : Endpoint)
    (htext : view.chars = endpoint.text) :
    (IsEndpoint endpoint →
      (EndpointRight naming endpoint view ↔ RightEndpoint naming endpoint)) ∧
    (IsAddress endpoint →
      (SameAddress naming endpoint view ↔ KeepsAddress naming endpoint) ∧
        (Unchanged view ↔ ∃ hp, endpoint = .http hp ∧ hp.host ≠ unixScheme)) :=
  ⟨endpointRight_iff naming hview htext, fun haddress =>
    ⟨sameAddress_iff naming hview.inBuffer htext haddress,
      unchanged_iff hview.inBuffer htext haddress⟩⟩

theorem endpoints_right_iff_local :
    (viewOf "http://localhost:5001".toList).InMemory ∧
      (viewOf "http://localhost:5001".toList).chars = (Endpoint.http .localhost).text ∧
      (EndpointRight GrpcTarget.unixNaming (.http .localhost)
          (viewOf "http://localhost:5001".toList) ↔
        RightEndpoint GrpcTarget.unixNaming (.http .localhost)) ∧
      (SameAddress GrpcTarget.unixNaming (.http .localhost)
          (viewOf "http://localhost:5001".toList) ↔
        KeepsAddress GrpcTarget.unixNaming (.http .localhost)) ∧
      (Unchanged (viewOf "http://localhost:5001".toList) ↔
        ∃ hp, Endpoint.http .localhost = .http hp ∧ hp.host ≠ unixScheme) := by
  have hview : (viewOf "http://localhost:5001".toList).InMemory :=
    inMemory_viewOf (by decide)
  have htext : (viewOf "http://localhost:5001".toList).chars =
      (Endpoint.http .localhost).text := by
    rw [chars_viewOf (by decide)]
    decide
  obtain ⟨hendpoint, haddress⟩ :=
    endpoints_right_iff GrpcTarget.unixNaming hview (.http .localhost) htext
  exact ⟨hview, htext, hendpoint trivial, haddress trivial⟩

/-- A socket, whose scheme is doubled by both functions. -/
theorem socket_doubled :
    ¬EndpointRight GrpcTarget.unixNaming (.unix "/tmp/s".toList)
        (viewOf "unix:/tmp/s".toList) ∧
      ¬SameAddress GrpcTarget.unixNaming (.unixAbsolute "tmp/s".toList)
        (viewOf "unix:///tmp/s".toList) ∧
      ¬Unchanged (viewOf "unix:///tmp/s".toList) := by
  have hpath : (viewOf "unix:/tmp/s".toList).chars = (Endpoint.unix "/tmp/s".toList).text := by
    rw [chars_viewOf (by decide)]
    decide
  have habsolute : (viewOf "unix:///tmp/s".toList).chars =
      (Endpoint.unixAbsolute "tmp/s".toList).text := by
    rw [chars_viewOf (by decide)]
    decide
  refine ⟨?_, ?_, ?_⟩
  · rw [endpointRight_iff _ (inMemory_viewOf (by decide)) hpath trivial]
    exact id
  · rw [sameAddress_iff _ (inBuffer_viewOf _) habsolute trivial]
    show GrpcTarget.unixNaming.resolve (Endpoint.unixAbsolute "tmp/s".toList).text ≠ none
    decide
  · rw [unchanged_iff (inBuffer_viewOf _) habsolute trivial]
    exact nofun

end ArmoniKApi.Cpp
