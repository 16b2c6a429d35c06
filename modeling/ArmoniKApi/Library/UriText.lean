import ArmoniKApi.Library.Separator

/-!
# URIs and host names as texts

A reader of URIs in the three shapes that an HTTP client meets: a path alone, an
authority alone, and a full URI with scheme, authority and path.  The authority is
`userinfo@host:port`, of which only the host has to be there, and a host is either a
name or an IP address.  The addresses of version 6 contain colons, so that they stand
in brackets, and the brackets belong to the host (`host`).

A certificate names its server by a domain name or by an address without brackets
(`isServerName`).  So a host is not always the name of a server
(`isServerName_bracket`).

The reader is one of many that would do.  It stands for a parser of URIs in examples, where
a text has to be taken apart by computation, and it gives `isServerName` and `host` a meaning
that can be checked.  The theorems about programs take the parser as a parameter.

`isServerName_bracket` is the fact with consequences: brackets belong to the host of a URI and
to no name in a certificate, so a program that hands the host on as the name of the server has
no name for an address of version 6.  The proof goes through the three kinds of names, each of
which has no bracket among its characters.
-/

/-- The parts of a URI, as texts. -/
structure UriText where
  scheme : Option (List Char)
  authority : Option (List Char)
  path : Option (List Char)
  deriving DecidableEq

namespace UriText

/-! ## Authorities -/

/-- The characters of an authority.  The last one of the list is the apostrophe. -/
def isAuthorityChar (c : Char) : Bool :=
  c.isAlphanum || ['-', '.', '_', '~', '!', '$', '&', '(', ')', '*', '+', ',', ';', '=', ':', '@',
    '[', ']', Char.ofNat 39].contains c

/-- What follows the user information. -/
def hostPort (authority : List Char) : List Char :=
  (authority.splitOn '@').getLastD []

/-- The host, with the brackets of an address of version 6. -/
def host (authority : List Char) : List Char :=
  match hostPort authority with
  | '[' :: rest => '[' :: rest.takeWhile (fun c => c ≠ ']') ++ [']']
  | text => text.takeWhile fun c => c ≠ ':'

/-- What follows the host: nothing, or a port after a colon. -/
def isPort : List Char → Bool
  | [] => true
  | ':' :: port => port.all Char.isDigit
  | _ => false

/-- The text is an authority.  Only the user information may be percent-encoded. -/
def isAuthority (text : List Char) : Bool :=
  !(hostPort text).isEmpty && (hostPort text).all isAuthorityChar &&
    text.all (fun c => isAuthorityChar c || c = '%') && (host text).isPrefixOf (hostPort text) &&
    isPort ((hostPort text).drop (host text).length)

/-! ## URIs -/

/-- The characters that end an authority. -/
def isDelimiter (c : Char) : Bool := c = '/' || c = '?' || c = '#'

/-- A text that a scheme stands in front of. -/
def parseFull (scheme rest : List Char) : Option UriText :=
  let authority := rest.takeWhile fun c => !isDelimiter c
  let path := rest.dropWhile fun c => !isDelimiter c
  if !scheme.isEmpty && scheme.all Char.isAlphanum && isAuthority authority then
    some ⟨some scheme, some authority, some (if path.isEmpty then ['/'] else path)⟩
  else none

/-- The URI that a text is written for. -/
def parse (text : List Char) : Option UriText :=
  match Separator.split [':', '/', '/'] text with
  | [path] =>
      if path.head? = some '/' ∨ path = ['*'] then some ⟨none, none, some path⟩
      else if isAuthority path then some ⟨none, some path, none⟩
      else none
  | scheme :: rest => parseFull scheme ([':', '/', '/'].intercalate rest)
  | [] => none

/-- A URI has a place or a path. -/
theorem isSome_of_parse {text : List Char} {uri : UriText} (h : parse text = some uri) :
    uri.authority.isSome ∨ uri.path.isSome := by
  unfold parse at h
  split at h
  · split at h
    · cases h
      exact .inr rfl
    · split at h
      · cases h
        exact .inl rfl
      · cases h
  · unfold parseFull at h
    dsimp only at h
    split at h
    · cases h
      exact .inl rfl
    · cases h
  · cases h

/-! ## Names of servers -/

/-- A part of a domain name. -/
def isLabel (label : List Char) : Bool :=
  0 < label.length && label.length ≤ 63 &&
    label.all (fun c => c.isAlphanum || c = '-' || c = '_') &&
    label.head? ≠ some '-' && label.getLast? ≠ some '-'

/-- The parts of a domain name.  A dot may end it. -/
def labels (name : List Char) : List (List Char) :=
  match (name.splitOn '.').reverse with
  | [] :: rest => rest.reverse
  | _ => name.splitOn '.'

/-- A domain name.  Its last part is not a number. -/
def isDnsName (name : List Char) : Bool :=
  name.length ≤ 253 && (labels name).all isLabel && !((labels name).getLastD []).all Char.isDigit

/-- An address of version 4. -/
def isIpv4 (name : List Char) : Bool :=
  let octets := name.splitOn '.'
  octets.length = 4 && octets.all fun octet =>
    0 < octet.length && octet.length ≤ 3 && octet.all Char.isDigit &&
      Nat.ofDigitChars 10 octet 0 ≤ 255 && (octet.length = 1 || octet.head? ≠ some '0')

/-- The groups of an address of version 6, in hexadecimal digits. -/
def groups (text : List Char) : List (List Char) :=
  if text.isEmpty then [] else text.splitOn ':'

/-- One to four hexadecimal digits. -/
def isGroup (group : List Char) : Bool :=
  0 < group.length && group.length ≤ 4 &&
    group.all fun c => c.isDigit || ('a' ≤ c && c ≤ 'f') || ('A' ≤ c && c ≤ 'F')

/-- An address of version 6, in hexadecimal groups.  Two colons stand for groups of
zeros. -/
def isIpv6 (name : List Char) : Bool :=
  match Separator.split [':', ':'] name with
  | [all] => (groups all).length = 8 && (groups all).all isGroup
  | [front, back] =>
      (groups front ++ groups back).length ≤ 7 && (groups front ++ groups back).all isGroup
  | _ => false

/-- The name of a server, as a certificate has it. -/
def isServerName (name : List Char) : Bool := isDnsName name || isIpv4 name || isIpv6 name

theorem isDnsName_bracket (rest : List Char) : isDnsName ('[' :: rest) = false := by
  obtain ⟨first, others, hsplit⟩ :=
    Separator.exists_splitOn_cons (by decide : '[' ≠ '.') rest
  have hmem : '[' :: first ∈ labels ('[' :: rest) := by
    unfold labels
    split
    · rename_i pieces hpieces
      have hall : ('[' :: rest).splitOn '.' = pieces.reverse ++ [[]] := by
        rw [← List.reverse_reverse (('[' :: rest).splitOn '.'), hpieces, List.reverse_cons]
      have hfirst : '[' :: first ∈ pieces.reverse ++ [[]] := by
        rw [← hall, hsplit]
        exact List.mem_cons_self ..
      simpa using hfirst
    · rw [hsplit]
      exact List.mem_cons_self ..
  have hlabel : isLabel ('[' :: first) = false := by simp [isLabel]
  have hall : (labels ('[' :: rest)).all isLabel = false :=
    List.all_eq_false.mpr ⟨_, hmem, by simp [hlabel]⟩
  simp [isDnsName, hall]

theorem isIpv4_bracket (rest : List Char) : isIpv4 ('[' :: rest) = false := by
  obtain ⟨first, others, hsplit⟩ :=
    Separator.exists_splitOn_cons (by decide : '[' ≠ '.') rest
  simp [isIpv4, hsplit]

theorem isIpv6_bracket (rest : List Char) : isIpv6 ('[' :: rest) = false := by
  have hgroups : ∀ text, (groups ('[' :: text)).all isGroup = false := by
    intro text
    obtain ⟨first, others, hsplit⟩ :=
      Separator.exists_splitOn_cons (by decide : '[' ≠ ':') text
    simp [groups, hsplit, isGroup]
  obtain ⟨first, others, hsplit⟩ :=
    Separator.exists_split_cons (by decide : [':', ':'] ≠ []) (by decide : '[' ∉ [':', ':']) rest
  rw [isIpv6, hsplit]
  cases others with
  | nil => simp [hgroups]
  | cons back others =>
      cases others with
      | nil => simp [List.all_append, hgroups]
      | cons _ _ => rfl

/-- No server is named by what stands in brackets. -/
theorem isServerName_bracket (rest : List Char) : isServerName ('[' :: rest) = false := by
  simp [isServerName, isDnsName_bracket, isIpv4_bracket, isIpv6_bracket]

end UriText
