import ArmoniKApi.Library.Fallible
import ArmoniKApi.Library.Json
import Mathlib.Data.List.AList

/-!
# The lines of the CLEF log

`ClefFormatter` puts a JSON object together as a text, and has its strings escaped by the
debug format of the fmt library.  This is the format of a string of C++.

* The short escapes of C++ that it writes are also those of JSON.
* Control characters and bytes that are not UTF-8 are written in escapes that JSON does
  not have (`isForeign`).

One such escape in a message, a key or a value, and the line is not JSON at all
(`clefFormat_decodes_iff`).

## Strategy

The debug format belongs to fmt, and which characters above the ASCII ones it prints depends
on its version of Unicode.  It is a parameter (`DebugFormat`) with what its documentation says
of it: what is printed as it is, what gets a short escape, and what gets an escape in
hexadecimal digits.  `asciiFormat` is one such format, which can be evaluated.

* `readString_debug` reads a text as the debug format writes it: unit by unit, up to the first
  escape that is foreign to JSON.  It is an equivalence, so that one foreign escape is enough
  for the string to be refused.
* `clefFormat_eq` shows the line as an object of quoted texts, and `read_quoted` of the
  library reads such an object if it reads all of its texts.
* `decodes_of_mapM` looks the members up again.  The formatter puts three members in front of
  the entries and trusts that no entry has their names, so the keys must not begin with the
  sign of these names, and must differ from each other.
-/

namespace ArmoniKApi.Cpp

/-! ## Strings and their debug format -/

/-- A part of a `std::string` in UTF-8: a character, or a byte that belongs to none. -/
inductive Utf8Unit
  | char (c : Char)
  | byte (b : UInt8)
  deriving DecidableEq

/-- The contents of a `std::string`, which need not be UTF-8 throughout. -/
abbrev Text := List Utf8Unit

/-- The text of characters. -/
def Text.ofString (s : String) : Text := s.toList.map .char

/-- The characters of a text, if it is one of characters. -/
def Text.chars? (text : Text) : Option (List Char) :=
  text.mapM fun
    | .char c => some c
    | .byte _ => none

/-- The characters that are written with a backslash and a letter. -/
def shortEscapes : List (Char × Char) :=
  [('\t', 't'), ('\n', 'n'), ('\r', 'r'), ('"', '"'), ('\\', '\\')]

/-- An escape that JSON does not have. -/
def isForeign : List Char → Bool
  | '\\' :: 'x' :: _ => true
  | '\\' :: 'U' :: _ => true
  | '\\' :: 'u' :: '{' :: _ => true
  | _ => false

/-- What the debug format of fmt writes for the parts of a string.  Which characters above
the ASCII ones are written as they are depends on the version of Unicode; the others
are written with their codes. -/
structure DebugFormat where
  write : Char → List Char
  writeByte : UInt8 → List Char
  write_short : ∀ entry ∈ shortEscapes, write entry.1 = ['\\', entry.2]
  write_printed : ∀ c : Char, 32 ≤ c.toNat → c.toNat < 127 → c ≠ '"' → c ≠ '\\' → write c = [c]
  write_control : ∀ c : Char, c.toNat < 32 → shortEscapes.lookup c = none → isForeign (write c)
  write_above : ∀ c : Char, 127 ≤ c.toNat → write c = [c] ∨ isForeign (write c) ∨
    ∃ h₁ h₂ h₃ h₄, write c = ['\\', 'u', h₁, h₂, h₃, h₄] ∧ Json.readHex h₁ h₂ h₃ h₄ = some c
  writeByte_foreign : ∀ b, isForeign (writeByte b)

namespace DebugFormat

variable (fmt : DebugFormat)

/-- One unit in the debug format: a character is printed or escaped, and a byte is
escaped. -/
def writeUnit : Utf8Unit → List Char
  | .char c => fmt.write c
  | .byte b => fmt.writeByte b

/-- `{:?}`. -/
def debugString (text : Text) : List Char := '"' :: text.flatMap fmt.writeUnit ++ ['"']

end DebugFormat

/-! ## The code -/

/-- `Level`. -/
inductive Level
  | verbose
  | debug
  | info
  | warning
  | error
  | fatal
  deriving DecidableEq, Repr

/-- `level_name`. -/
def levelName : Level → String
  | .verbose => "Verbose"
  | .debug => "Debug"
  | .info => "Info"
  | .warning => "Warning"
  | .error => "Error"
  | .fatal => "Fatal"

/-- `Context`, with its entries in the order of the map. -/
abbrev Context := AList fun _ : Text => Text

/-- The entries of a context, in the order of the map. -/
def Context.pairs (context : Context) : List (Text × Text) :=
  context.entries.map fun entry => (entry.1, entry.2)

/-- The characters of a time, and of the nanoseconds behind it. -/
def isTimeChar (c : Char) : Bool := c.isDigit || c = '-' || c = ':' || c = 'T'

/-- What fmt writes for the time: `{:%FT%T}` and `{:09}`. -/
structure Now where
  time : List Char
  ns : List Char
  time_chars : time.all isTimeChar
  ns_chars : ns.all isTimeChar

/-- The entries of the three contexts. -/
def allPairs (globalContext localContext messageContext : Context) : List (Text × Text) :=
  globalContext.pairs ++ localContext.pairs ++ messageContext.pairs

/-- `ClefFormatter::format`. -/
def clefFormat (fmt : DebugFormat) (now : Now) (level : Level) (message : Text)
    (globalContext localContext messageContext : Context) : List Char :=
  "\x7b\"@t\": \"".toList ++ now.time ++ ['.'] ++ now.ns ++ "Z\", \"@mt\": ".toList ++
    fmt.debugString message ++ ", \"@l\": ".toList ++
    fmt.debugString (Text.ofString (levelName level)) ++
    (allPairs globalContext localContext messageContext).flatMap (fun kv =>
      ", ".toList ++ fmt.debugString kv.1 ++ ": ".toList ++ fmt.debugString kv.2) ++ ['}']

/-! ## What JSON reads -/

theorem readString_foreign {text : List Char} (hforeign : isForeign text) (rest : List Char) :
    Json.readString (text ++ rest) = none := by
  unfold isForeign at hforeign
  split at hforeign
  · rfl
  · rfl
  · rename_i tail
    -- four digits would have to follow, and a brace is none
    simp only [List.cons_append]
    rcases tail ++ rest with _ | ⟨_, _ | ⟨_, _ | ⟨_, _⟩⟩⟩
    all_goals rfl
  · cases hforeign

namespace DebugFormat

variable (fmt : DebugFormat)

/-- A character that is written as it is. -/
theorem readString_itself {c : Char} (hplain : Json.IsPlain c) (hwrite : fmt.write c = [c])
    (rest : List Char) :
    Json.readString (fmt.write c ++ rest) =
      if isForeign (fmt.write c) then none
      else (Json.readString rest).map fun result => (c :: result.1, result.2) := by
  have hforeign : isForeign [c] = false := by simp [isForeign]
  rw [hwrite, hforeign, List.singleton_append]
  exact Json.readString_plain hplain rest

/-- A character is read back, unless JSON does not have its escape. -/
theorem readString_write (c : Char) (rest : List Char) :
    Json.readString (fmt.write c ++ rest) =
      if isForeign (fmt.write c) then none
      else (Json.readString rest).map fun result => (c :: result.1, result.2) := by
  by_cases hforeign : isForeign (fmt.write c)
  · rw [if_pos hforeign]
    exact readString_foreign hforeign rest
  cases hshort : shortEscapes.lookup c with
  | some letter =>
      obtain ⟨before, after, htable, -⟩ := List.lookup_eq_some_iff.mp hshort
      have hentry : (c, letter) ∈ shortEscapes := by
        rw [htable]
        exact List.mem_append_right _ List.mem_cons_self
      have hjson : ∀ entry ∈ shortEscapes, entry ∈ Json.shortEscapes := by decide
      rw [if_neg hforeign, fmt.write_short _ hentry]
      exact Json.readString_short (hjson _ hentry) rest
  -- no short escape: a control character, a printed one, or one above ASCII
  | none =>
      have hquote : c ≠ '"' := by
        rintro rfl
        exact absurd hshort (by decide)
      have hbackslash : c ≠ '\\' := by
        rintro rfl
        exact absurd hshort (by decide)
      rcases Nat.lt_or_ge c.toNat 32 with hcontrol | hprinted
      · exact absurd (fmt.write_control c hcontrol hshort) hforeign
      have hplain : Json.IsPlain c := ⟨hprinted, hquote, hbackslash⟩
      rcases Nat.lt_or_ge c.toNat 127 with hascii | habove
      · exact fmt.readString_itself hplain
          (fmt.write_printed c hprinted hascii hquote hbackslash) rest
      rcases fmt.write_above c habove with hwrite | hother | ⟨h₁, h₂, h₃, h₄, hwrite, hcode⟩
      · exact fmt.readString_itself hplain hwrite rest
      · exact absurd hother hforeign
      · rw [if_neg hforeign, hwrite]
        simp only [List.cons_append, List.nil_append, Json.readString, hcode,
          Option.bind_eq_bind, Option.bind_some]

/-- The character of a unit, unless its escape is foreign to JSON. -/
def decodeUnit : Utf8Unit → Option Char
  | .char c => if isForeign (fmt.write c) then none else some c
  | .byte _ => none

theorem readString_debug (text : Text) (rest : List Char) :
    Json.readString (text.flatMap fmt.writeUnit ++ '"' :: rest) =
      (text.mapM fmt.decodeUnit).map fun chars => (chars, rest) := by
  induction text with
  | nil => rfl
  | cons unit text ih =>
      rw [List.flatMap_cons, List.append_assoc, List.mapM_cons]
      cases unit with
      | byte b =>
          exact readString_foreign (fmt.writeByte_foreign b) _
      | char c =>
          rw [writeUnit, readString_write, ih, decodeUnit]
          split
          · rfl
          · cases text.mapM fmt.decodeUnit with
            | none => rfl
            | some chars => rfl

/-- A text, as the debug format writes it. -/
def quoted (text : Text) : Json.Quoted :=
  ⟨text.flatMap fmt.writeUnit, text.mapM fmt.decodeUnit, fmt.readString_debug text⟩

end DebugFormat

/-! ## The members of the object -/

theorem isPlain_of_isDigit {c : Char} (hdigit : c.isDigit) : Json.IsPlain c := by
  refine ⟨?_, ?_, ?_⟩
  · simp only [Char.isDigit, Bool.and_eq_true, decide_eq_true_eq, ge_iff_le,
      UInt32.le_iff_toNat_le] at hdigit
    have hzero : '0'.val.toNat = 48 := rfl
    show 32 ≤ c.val.toNat
    omega
  · rintro rfl
    exact absurd hdigit (by decide)
  · rintro rfl
    exact absurd hdigit (by decide)

/-- The time, between its quotation marks. -/
def Now.text (now : Now) : List Char := now.time ++ '.' :: (now.ns ++ ['Z'])

theorem isPlain_of_isTimeChar {c : Char} (hc : isTimeChar c) : Json.IsPlain c := by
  simp only [isTimeChar, Bool.or_eq_true, decide_eq_true_eq] at hc
  rcases hc with ((hdigit | rfl) | rfl) | rfl
  · exact isPlain_of_isDigit hdigit
  all_goals decide

theorem Now.isPlain (now : Now) : ∀ c ∈ now.text, Json.IsPlain c := by
  intro c hc
  simp only [text, List.mem_append, List.mem_cons, List.not_mem_nil, or_false] at hc
  rcases hc with htime | rfl | hns | rfl
  · exact isPlain_of_isTimeChar (List.all_eq_true.mp now.time_chars c htime)
  · decide
  · exact isPlain_of_isTimeChar (List.all_eq_true.mp now.ns_chars c hns)
  · decide

/-- The members of the object that is written. -/
def members (fmt : DebugFormat) (now : Now) (level : Level) (message : Text)
    (pairs : List (Text × Text)) : List (Json.Quoted × Json.Quoted) :=
  (.plain ['@', 't'] (Json.isPlain_of_all (by decide)), .plain now.text now.isPlain) ::
    (.plain ['@', 'm', 't'] (Json.isPlain_of_all (by decide)), fmt.quoted message) ::
    (.plain ['@', 'l'] (Json.isPlain_of_all (by decide)),
      fmt.quoted (.ofString (levelName level))) ::
    pairs.map fun kv => (fmt.quoted kv.1, fmt.quoted kv.2)

theorem clefFormat_eq (fmt : DebugFormat) (now : Now) (level : Level) (message : Text)
    (globalContext localContext messageContext : Context) :
    clefFormat fmt now level message globalContext localContext messageContext =
      '{' :: ([',', ' '].intercalate ((members fmt now level message
        (allPairs globalContext localContext messageContext)).map Json.writeQuoted) ++ ['}']) := by
  have hopen : "\x7b\"@t\": \"".toList = ['{', '"', '@', 't', '"', ':', ' ', '"'] := by decide
  have hmessage : "Z\", \"@mt\": ".toList =
      ['Z', '"', ',', ' ', '"', '@', 'm', 't', '"', ':', ' '] := by decide
  have hlevel : ", \"@l\": ".toList = [',', ' ', '"', '@', 'l', '"', ':', ' '] := by decide
  have hcomma : ", ".toList = [',', ' '] := by decide
  have hcolon : ": ".toList = [':', ' '] := by decide
  rw [members, List.map_cons, List.map_cons, List.map_cons, Json.intercalate_cons_eq_flatMap]
  unfold clefFormat
  simp only [hopen, hmessage, hlevel, hcomma, hcolon, Json.Quoted.plain, DebugFormat.quoted,
    DebugFormat.debugString, Now.text]
  simp [List.flatMap_map, Json.writeQuoted]

theorem read_clefFormat (fmt : DebugFormat) (now : Now) (level : Level) (message : Text)
    (globalContext localContext messageContext : Context) :
    Json.read (clefFormat fmt now level message globalContext localContext messageContext) =
      ((members fmt now level message
        (allPairs globalContext localContext messageContext)).mapM Json.quotedMember).map
          Json.object := by
  rw [clefFormat_eq]
  exact Json.read_quoted _

/-! ## Texts that are read back -/

/-- A text of characters, none of which is written in an escape that JSON does not have. -/
def Readable (fmt : DebugFormat) (text : Text) : Prop :=
  ∀ unit ∈ text, ∃ c, unit = .char c ∧ isForeign (fmt.write c) = false

section Texts

variable {fmt : DebugFormat} {text : Text} {chars : List Char}

theorem decodeUnit_eq_some_iff {unit : Utf8Unit} {c : Char} :
    fmt.decodeUnit unit = some c ↔ unit = .char c ∧ isForeign (fmt.write c) = false := by
  cases unit with
  | byte b => exact iff_of_false nofun nofun
  | char d =>
      rw [DebugFormat.decodeUnit]
      split
      · rename_i hforeign
        refine iff_of_false nofun ?_
        rintro ⟨hsame, hother⟩
        cases hsame
        rw [hforeign] at hother
        cases hother
      · rename_i hforeign
        rw [Option.some.injEq, Utf8Unit.char.injEq]
        refine ⟨?_, And.left⟩
        rintro rfl
        exact ⟨rfl, Bool.eq_false_iff.mpr hforeign⟩

theorem exists_chars_iff : (∃ chars, (fmt.quoted text).chars = some chars) ↔ Readable fmt text := by
  have hunits : (∃ chars, (fmt.quoted text).chars = some chars) ↔ _ := Fallible.exists_mapM_iff
  rw [hunits]
  simp only [decodeUnit_eq_some_iff]
  rfl

/-- What is read is the text. -/
theorem chars?_of_quoted (h : (fmt.quoted text).chars = some chars) : text.chars? = some chars := by
  have hmap : text.mapM fmt.decodeUnit = some chars := h
  clear h
  induction text generalizing chars with
  | nil => exact hmap
  | cons unit text ih =>
      obtain ⟨c, rest, hc, hrest, rfl⟩ := Fallible.mapM_cons_eq_some_iff.mp hmap
      obtain ⟨rfl, -⟩ := decodeUnit_eq_some_iff.mp hc
      exact Fallible.mapM_cons_eq_some_iff.mpr ⟨c, rest, rfl, ih hrest, rfl⟩

/-- The text is made of its characters. -/
theorem eq_of_chars? (h : text.chars? = some chars) : text = chars.map .char := by
  induction text generalizing chars with
  | nil =>
      cases h
      rfl
  | cons unit text ih =>
      obtain ⟨c, rest, hc, hrest, rfl⟩ := Fallible.mapM_cons_eq_some_iff.mp h
      cases unit with
      | byte b => cases hc
      | char d =>
          cases hc
          rw [ih hrest, List.map_cons]

theorem chars_levelName (fmt : DebugFormat) (level : Level) :
    (fmt.quoted (.ofString (levelName level))).chars = some (levelName level).toList := by
  have hall : (levelName level).toList.all fun c => Json.IsPlain c ∧ c.toNat < 127 := by
    cases level
    all_goals decide +kernel
  have hletters : ∀ c ∈ (levelName level).toList, Json.IsPlain c ∧ c.toNat < 127 :=
    fun c hc => of_decide_eq_true (List.all_eq_true.mp hall c hc)
  show ((levelName level).toList.map Utf8Unit.char).mapM fmt.decodeUnit = _
  generalize (levelName level).toList = letters at hletters ⊢
  induction letters with
  | nil => rfl
  | cons c rest ih =>
      obtain ⟨⟨hplain, hascii⟩, hrest⟩ := List.forall_mem_cons.mp hletters
      have hwrite :=
        fmt.write_printed c hplain.printed hascii hplain.ne_quote hplain.ne_backslash
      have hforeign : isForeign (fmt.write c) = false := by simp [hwrite, isForeign]
      exact Fallible.mapM_cons_eq_some_iff.mpr
        ⟨c, rest, decodeUnit_eq_some_iff.mpr ⟨rfl, hforeign⟩, ih hrest, rfl⟩

end Texts

/-! ## The object -/

/-- The line is an object with the message, the level and the entries of the contexts. -/
def Decodes (line : List Char) (level : Level) (message : Text) (pairs : List (Text × Text)) :
    Prop :=
  ∃ members, Json.read line = some (.object members) ∧
    (∃ chars, message.chars? = some chars ∧
      members.lookup "@mt" = some (.string (String.ofList chars))) ∧
    members.lookup "@l" = some (.string (levelName level)) ∧
    ∀ kv ∈ pairs, ∃ key value, kv.1.chars? = some key ∧ kv.2.chars? = some value ∧
      members.lookup (String.ofList key) = some (.string (String.ofList value))

theorem quotedMember_eq_some_iff {member : Json.Quoted × Json.Quoted} {result : String × Json} :
    Json.quotedMember member = some result ↔
      ∃ key value, member.1.chars = some key ∧ member.2.chars = some value ∧
        result = (String.ofList key, .string (String.ofList value)) := by
  constructor
  · intro h
    obtain ⟨key, hkey, h⟩ := Option.bind_eq_some_iff.mp h
    obtain ⟨value, hvalue, h⟩ := Option.bind_eq_some_iff.mp h
    exact ⟨key, value, hkey, hvalue, (Option.some.inj h).symm⟩
  · rintro ⟨key, value, hkey, hvalue, rfl⟩
    rw [Json.quotedMember, hkey, hvalue]
    rfl

variable {fmt : DebugFormat} {now : Now} {level : Level} {message : Text}
  {pairs : List (Text × Text)}

/-- All members are read just if all texts are. -/
theorem exists_members_iff (now : Now) (level : Level) :
    (∃ results, (members fmt now level message pairs).mapM Json.quotedMember = some results) ↔
      Readable fmt message ∧ ∀ kv ∈ pairs, Readable fmt kv.1 ∧ Readable fmt kv.2 := by
  have hmember : ∀ member : Json.Quoted × Json.Quoted,
      (∃ result, Json.quotedMember member = some result) ↔
        (∃ chars, member.1.chars = some chars) ∧ ∃ chars, member.2.chars = some chars := by
    intro member
    simp only [quotedMember_eq_some_iff]
    constructor
    · rintro ⟨_, key, value, hkey, hvalue, -⟩
      exact ⟨⟨key, hkey⟩, value, hvalue⟩
    · rintro ⟨⟨key, hkey⟩, value, hvalue⟩
      exact ⟨_, key, value, hkey, hvalue, rfl⟩
  rw [Fallible.exists_mapM_iff, members, List.forall_mem_cons, List.forall_mem_cons,
    List.forall_mem_cons, List.forall_mem_map]
  simp only [hmember, exists_chars_iff]
  have hplain : ∀ {text : List Char} (hplain : ∀ c ∈ text, Json.IsPlain c),
      ∃ chars, (Json.Quoted.plain text hplain).chars = some chars := fun _ => ⟨_, rfl⟩
  -- the keys, the time and the level can always be read
  have hlevel : Readable fmt (.ofString (levelName level)) :=
    exists_chars_iff.mp ⟨_, chars_levelName fmt level⟩
  constructor
  · rintro ⟨-, ⟨-, hmessage⟩, -, hpairs⟩
    exact ⟨hmessage, hpairs⟩
  · rintro ⟨hmessage, hpairs⟩
    exact ⟨⟨hplain _, hplain _⟩, ⟨hplain _, hmessage⟩, ⟨hplain _, hlevel⟩, hpairs⟩

/-- An entry is found under its key, if no other entry has the key. -/
theorem lookup_pairs {results : List (String × Json)}
    (hresults : (pairs.map fun kv => (fmt.quoted kv.1, fmt.quoted kv.2)).mapM Json.quotedMember =
      some results) (hdistinct : (pairs.map Prod.fst).Nodup) {kv : Text × Text} (hkv : kv ∈ pairs) :
    ∃ key value, kv.1.chars? = some key ∧ kv.2.chars? = some value ∧
      results.lookup (String.ofList key) = some (.string (String.ofList value)) := by
  induction pairs generalizing results with
  | nil => cases hkv
  | cons first pairs ih =>
      rw [List.map_cons] at hresults
      obtain ⟨result, others, hresult, hothers, rfl⟩ := Fallible.mapM_cons_eq_some_iff.mp hresults
      obtain ⟨key, value, hkey, hvalue, rfl⟩ := quotedMember_eq_some_iff.mp hresult
      rw [List.map_cons, List.nodup_cons] at hdistinct
      rcases List.mem_cons.mp hkv with rfl | hrest
      · exact ⟨key, value, chars?_of_quoted hkey, chars?_of_quoted hvalue, List.lookup_cons_self⟩
      · obtain ⟨otherKey, otherValue, hotherKey, hotherValue, hlookup⟩ :=
          ih hothers hdistinct.2 hrest
        refine ⟨otherKey, otherValue, hotherKey, hotherValue, ?_⟩
        have hne : String.ofList otherKey ≠ String.ofList key := by
          intro hsame
          rw [String.ofList_injective hsame] at hotherKey
          have htext := (eq_of_chars? hotherKey).trans (eq_of_chars? (chars?_of_quoted hkey)).symm
          exact hdistinct.1 (htext ▸ List.mem_map_of_mem hrest)
        rw [List.lookup_cons, beq_eq_false_iff_ne.mpr hne]
        exact hlookup

/-- The members that the formatter adds, in front of the entries. -/
theorem members_of_mapM {results : List (String × Json)}
    (hresults : (members fmt now level message pairs).mapM Json.quotedMember = some results) :
    ∃ time chars rest, message.chars? = some chars ∧
      (pairs.map fun kv => (fmt.quoted kv.1, fmt.quoted kv.2)).mapM Json.quotedMember =
        some rest ∧
      results = ("@t", time) :: ("@mt", .string (String.ofList chars)) ::
        ("@l", .string (levelName level)) :: rest := by
  obtain ⟨time, afterTime, htime, hafterTime, rfl⟩ := Fallible.mapM_cons_eq_some_iff.mp hresults
  obtain ⟨text, afterText, htext, hafterText, rfl⟩ :=
    Fallible.mapM_cons_eq_some_iff.mp hafterTime
  obtain ⟨name, rest, hname, hrest, rfl⟩ := Fallible.mapM_cons_eq_some_iff.mp hafterText
  obtain ⟨keyT, timeChars, hkeyT, -, rfl⟩ := quotedMember_eq_some_iff.mp htime
  obtain ⟨keyMt, chars, hkeyMt, hchars, rfl⟩ := quotedMember_eq_some_iff.mp htext
  obtain ⟨keyL, nameChars, hkeyL, hnameChars, rfl⟩ := quotedMember_eq_some_iff.mp hname
  cases hkeyT
  cases hkeyMt
  cases hkeyL
  rw [chars_levelName] at hnameChars
  cases hnameChars
  refine ⟨.string (String.ofList timeChars), chars, rest, chars?_of_quoted hchars, hrest, ?_⟩
  rw [String.ofList_toList]

/-- They do not hide an entry, whose key does not begin with their sign. -/
theorem decodes_of_mapM {line : List Char} {results : List (String × Json)}
    (hresults : (members fmt now level message pairs).mapM Json.quotedMember = some results)
    (hread : Json.read line = some (.object results))
    (hat : ∀ kv ∈ pairs, kv.1.head? ≠ some (.char '@'))
    (hdistinct : (pairs.map Prod.fst).Nodup) : Decodes line level message pairs := by
  obtain ⟨time, chars, rest, hchars, hrest, rfl⟩ := members_of_mapM hresults
  refine ⟨_, hread, ⟨chars, hchars, ?_⟩, ?_, ?_⟩
  · rw [List.lookup_cons, show ("@mt" == "@t") = false by decide]
    exact List.lookup_cons_self
  · rw [List.lookup_cons, show ("@l" == "@t") = false by decide, List.lookup_cons,
      show ("@l" == "@mt") = false by decide]
    exact List.lookup_cons_self
  · intro kv hkv
    obtain ⟨key, value, hkey, hvalue, hlookup⟩ := lookup_pairs hrest hdistinct hkv
    refine ⟨key, value, hkey, hvalue, ?_⟩
    -- the three members before the entries all begin with `@`
    have hne : ∀ name : String, name.toList.head? = some '@' →
        (String.ofList key == name) = false := by
      intro name hname
      rw [beq_eq_false_iff_ne]
      rintro rfl
      rw [String.toList_ofList] at hname
      apply hat kv hkv
      rw [eq_of_chars? hkey, List.head?_map, hname]
      rfl
    rw [List.lookup_cons, hne "@t" (by decide), List.lookup_cons, hne "@mt" (by decide),
      List.lookup_cons, hne "@l" (by decide)]
    exact hlookup

/-- The line is right just if JSON has the escapes of all its texts. -/
theorem clefFormat_decodes_iff (fmt : DebugFormat) (now : Now) (level : Level) (message : Text)
    (globalContext localContext messageContext : Context)
    (hat : ∀ kv ∈ allPairs globalContext localContext messageContext,
      kv.1.head? ≠ some (.char '@'))
    (hdistinct : ((allPairs globalContext localContext messageContext).map Prod.fst).Nodup) :
    Decodes (clefFormat fmt now level message globalContext localContext messageContext) level
        message (allPairs globalContext localContext messageContext) ↔
      Readable fmt message ∧
        ∀ kv ∈ allPairs globalContext localContext messageContext,
          Readable fmt kv.1 ∧ Readable fmt kv.2 := by
  rw [← exists_members_iff now level]
  have hread := read_clefFormat fmt now level message globalContext localContext messageContext
  constructor
  · rintro ⟨_, hobject, -⟩
    rw [hobject] at hread
    obtain ⟨results, hresults, -⟩ := Option.map_eq_some_iff.mp hread.symm
    exact ⟨results, hresults⟩
  · rintro ⟨results, hresults⟩
    rw [hresults] at hread
    exact decodes_of_mapM hresults hread hat hdistinct

/-! ## A format -/

theorem lookup_shortEscapes_eq_none {c : Char} (hprinted : 32 ≤ c.toNat) (hquote : c ≠ '"')
    (hbackslash : c ≠ '\\') : shortEscapes.lookup c = none := by
  rw [List.lookup_eq_none_iff]
  intro entry hentry
  have hother : entry.1.toNat < 32 ∨ entry.1 = '"' ∨ entry.1 = '\\' := by
    revert entry
    decide
  rw [bne_iff_ne]
  rintro rfl
  rcases hother with hcontrol | hsame | hsame
  · omega
  · exact hquote hsame
  · exact hbackslash hsame

/-- A byte in hexadecimal. -/
def hexEscape (code : Nat) : List Char :=
  ['\\', 'x', Nat.digitChar (code / 16), Nat.digitChar (code % 16)]

/-- Every character above the ASCII ones is printed. -/
def asciiWrite (c : Char) : List Char :=
  match shortEscapes.lookup c with
  | some letter => ['\\', letter]
  | none => if c.toNat < 32 ∨ c.toNat = 127 then hexEscape c.toNat else [c]

theorem asciiWrite_short : ∀ entry ∈ shortEscapes, asciiWrite entry.1 = ['\\', entry.2] := by
  decide

theorem asciiWrite_printed (c : Char) (hprinted : 32 ≤ c.toNat) (hascii : c.toNat < 127)
    (hquote : c ≠ '"') (hbackslash : c ≠ '\\') : asciiWrite c = [c] := by
  rw [asciiWrite, lookup_shortEscapes_eq_none hprinted hquote hbackslash]
  exact if_neg (by omega)

theorem asciiWrite_control (c : Char) (hcontrol : c.toNat < 32)
    (hshort : shortEscapes.lookup c = none) : isForeign (asciiWrite c) := by
  rw [asciiWrite, hshort]
  simp only [hcontrol, true_or, if_true, hexEscape, isForeign]

theorem asciiWrite_above (c : Char) (habove : 127 ≤ c.toNat) :
    asciiWrite c = [c] ∨ isForeign (asciiWrite c) := by
  have hlookup : shortEscapes.lookup c = none := by
    refine lookup_shortEscapes_eq_none (by omega) ?_ ?_
    all_goals
      rintro rfl
      exact absurd habove (by decide)
  rw [asciiWrite, hlookup]
  by_cases hdelete : c.toNat = 127
  · exact .inr (by simp [hdelete, hexEscape, isForeign])
  · exact .inl (if_neg (by omega))

/-- The debug format, for the version of Unicode in which every character above the ASCII
ones is printed. -/
def asciiFormat : DebugFormat where
  write := asciiWrite
  writeByte b := hexEscape b.toNat
  write_short := asciiWrite_short
  write_printed := asciiWrite_printed
  write_control := asciiWrite_control
  write_above c habove := (asciiWrite_above c habove).imp_right .inl
  writeByte_foreign _ := rfl

/-- Midnight. -/
def midnight : Now where
  time := "2024-01-01T00:00:00".toList
  ns := "000000000".toList
  time_chars := by decide
  ns_chars := by decide

/-- One entry. -/
def sessionContext : Context :=
  (∅ : Context).insert (.ofString "sessionId") (.ofString "s \"1\"")

theorem clefFormat_decodes_iff_session :
    (∀ kv ∈ allPairs sessionContext ∅ ∅, kv.1.head? ≠ some (.char '@')) ∧
      ((allPairs sessionContext ∅ ∅).map Prod.fst).Nodup ∧
      (Decodes (clefFormat asciiFormat midnight .info (.ofString "done") sessionContext ∅ ∅) .info
          (.ofString "done") (allPairs sessionContext ∅ ∅) ↔
        Readable asciiFormat (.ofString "done") ∧
          ∀ kv ∈ allPairs sessionContext ∅ ∅,
            Readable asciiFormat kv.1 ∧ Readable asciiFormat kv.2) := by
  have hat : ∀ kv ∈ allPairs sessionContext ∅ ∅, kv.1.head? ≠ some (.char '@') := by
    decide +kernel
  have hdistinct : ((allPairs sessionContext ∅ ∅).map Prod.fst).Nodup := by decide +kernel
  exact ⟨hat, hdistinct,
    clefFormat_decodes_iff asciiFormat midnight .info _ sessionContext ∅ ∅ hat hdistinct⟩

/-- A bell in a message. -/
theorem clefFormat_control :
    ¬Decodes (clefFormat asciiFormat midnight .info [.char '\x07'] ∅ ∅ ∅) .info [.char '\x07']
      (allPairs ∅ ∅ ∅) := by
  rintro ⟨_, hread, -⟩
  rw [read_clefFormat] at hread
  obtain ⟨results, hresults, -⟩ := Option.map_eq_some_iff.mp hread
  obtain ⟨hmessage, -⟩ := (exists_members_iff _ _).mp ⟨results, hresults⟩
  obtain ⟨c, hc, hforeign⟩ := hmessage (.char '\x07') (List.mem_singleton_self _)
  cases hc
  exact absurd hforeign (by decide)

end ArmoniKApi.Cpp
