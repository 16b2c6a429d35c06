import ArmoniKApi.Library.Json

/-!
# JSON objects of strings, in ASCII

A writer that keeps to printable ASCII writes every other character of a string as the code
units of UTF-16, each in an escape of four digits.  A reader takes the units together again: a
high surrogate and the low one behind it are one character, and a surrogate alone is none.

* `readObject_writeObject`: an object of strings is read back, whatever the strings are.
* `isPrintable_writeObject`: its text is on one line.

The characters outside of the basic plane are the obstacle: the writer splits them into two
escapes, and a reader that takes escape by escape cannot give the character back.  The proof
goes through the list of code units, which both sides have in common:

* `units` and `decode` are inverse on characters (`decode_flatMap_units`), because a character
  is never a surrogate (`not_surrogate`) and the two units of a pair are told apart by their
  ranges (`IsHigh`, `IsLow`);
* every unit is read back from its escape (`readUnits_unicodeEscape`), and so are the units of
  a text, short escapes and plain characters included (`readUnits_flatMap_escape`).

Then the string is read back whatever its characters are, and an object of strings is too.
That a text is printable is shown character by character, from the digits up.
-/

namespace JsonAscii

open Json (skipBlanks skipBlanks_cons shortEscapes unescape)

/-! ## Code units -/

/-- The first code unit of a pair of surrogates. -/
def IsHigh (u : ℕ) : Prop := 0xD800 ≤ u ∧ u < 0xDC00

/-- The second code unit of a pair of surrogates. -/
def IsLow (u : ℕ) : Prop := 0xDC00 ≤ u ∧ u < 0xE000

instance (u : ℕ) : Decidable (IsHigh u) := inferInstanceAs (Decidable (_ ∧ _))

instance (u : ℕ) : Decidable (IsLow u) := inferInstanceAs (Decidable (_ ∧ _))

/-- The code units of a character. -/
def units (c : Char) : List ℕ :=
  if c.toNat < 0x10000 then [c.toNat]
  else [0xD800 + (c.toNat - 0x10000) / 0x400, 0xDC00 + (c.toNat - 0x10000) % 0x400]

/-- The characters of code units. -/
def decode : List ℕ → Option (List Char)
  | [] => some []
  | [u] => if IsHigh u ∨ IsLow u then none else some [Char.ofNat u]
  | u :: v :: rest =>
      if IsHigh u then
        if IsLow v then
          (decode rest).map (Char.ofNat (0x10000 + (u - 0xD800) * 0x400 + (v - 0xDC00)) :: ·)
        else none
      else if IsLow u then none
      else (decode (v :: rest)).map (Char.ofNat u :: ·)

theorem not_surrogate (c : Char) : ¬IsHigh c.toNat ∧ ¬IsLow c.toNat := by
  unfold IsHigh IsLow
  rcases c.valid with hlow | hhigh
  · have hcode : c.toNat < 0xD800 := hlow
    omega
  · have hcode : 0xDFFF < c.toNat := hhigh.1
    omega

theorem toNat_lt (c : Char) : c.toNat < 0x110000 := by
  rcases c.valid with hlow | hhigh
  · have hcode : c.toNat < 0xD800 := hlow
    omega
  · exact hhigh.2

theorem decode_cons {u : ℕ} (hhigh : ¬IsHigh u) (hlow : ¬IsLow u) (rest : List ℕ) :
    decode (u :: rest) = (decode rest).map (Char.ofNat u :: ·) := by
  cases rest with
  | nil => simp [decode, hhigh, hlow]
  | cons v rest => rw [decode, if_neg hhigh, if_neg hlow]

theorem decode_units_append (c : Char) (rest : List ℕ) :
    decode (units c ++ rest) = (decode rest).map (c :: ·) := by
  unfold units
  split
  · rw [List.singleton_append, decode_cons (not_surrogate c).1 (not_surrogate c).2,
      Char.ofNat_toNat]
  · rename_i hlarge
    have hcode := toNat_lt c
    have hhigh : IsHigh (0xD800 + (c.toNat - 0x10000) / 0x400) := by
      unfold IsHigh
      omega
    have hlow : IsLow (0xDC00 + (c.toNat - 0x10000) % 0x400) := by
      unfold IsLow
      omega
    have hsum : 0x10000 + (0xD800 + (c.toNat - 0x10000) / 0x400 - 0xD800) * 0x400 +
        (0xDC00 + (c.toNat - 0x10000) % 0x400 - 0xDC00) = c.toNat := by
      omega
    rw [List.cons_append, List.singleton_append, decode, if_pos hhigh, if_pos hlow, hsum,
      Char.ofNat_toNat]

theorem decode_flatMap_units (text : List Char) : decode (text.flatMap units) = some text := by
  induction text with
  | nil => rfl
  | cons c text ih => rw [List.flatMap_cons, decode_units_append, ih, Option.map_some]

/-! ## Strings -/

/-- The escape of a code unit. -/
def unicodeEscape (u : ℕ) : List Char :=
  ['\\', 'u', Nat.digitChar (u / 4096), Nat.digitChar (u / 256 % 16), Nat.digitChar (u / 16 % 16),
    Nat.digitChar (u % 16)]

/-- The characters that are printed in ASCII. -/
def IsPrintable (c : Char) : Prop := 32 ≤ c.toNat ∧ c.toNat < 127

instance (c : Char) : Decidable (IsPrintable c) := inferInstanceAs (Decidable (_ ∧ _))

/-- Writes a character of a string. -/
def escape (c : Char) : List Char :=
  match shortEscapes.lookup c with
  | some letter => ['\\', letter]
  | none => if IsPrintable c then [c] else (units c).flatMap unicodeEscape

/-- A text between quotation marks, with escapes for all that is not ASCII. -/
def writeString (value : String) : List Char := '"' :: (value.toList.flatMap escape ++ ['"'])

/-- The number of four hexadecimal digits. -/
def readHex (a b c d : Char) : Option ℕ := do
  some (4096 * (← Json.hexValue a) + 256 * (← Json.hexValue b) + 16 * (← Json.hexValue c) +
    (← Json.hexValue d))

/-- Reads the code units of the rest of a string, after the quotation mark. -/
def readUnits : List Char → Option (List ℕ × List Char)
  | [] => none
  | '"' :: rest => some ([], rest)
  | '\\' :: 'u' :: a :: b :: c :: d :: rest => do
      let u ← readHex a b c d
      (readUnits rest).map fun result => (u :: result.1, result.2)
  | '\\' :: letter :: rest => do
      let char ← unescape letter
      (readUnits rest).map fun result => (units char ++ result.1, result.2)
  | c :: rest =>
      if c.toNat < 32 ∨ c = '\\' then none
      else (readUnits rest).map fun result => (units c ++ result.1, result.2)

theorem hexValue_digitChar : ∀ n < 16, Json.hexValue (Nat.digitChar n) = some n := by
  decide

theorem readUnits_unicodeEscape {u : ℕ} (hu : u < 0x10000) (rest : List Char) :
    readUnits (unicodeEscape u ++ rest) =
      (readUnits rest).map fun result => (u :: result.1, result.2) := by
  have hsum : 4096 * (u / 4096) + 256 * (u / 256 % 16) + 16 * (u / 16 % 16) + u % 16 = u := by
    omega
  have hread : readHex (Nat.digitChar (u / 4096)) (Nat.digitChar (u / 256 % 16))
      (Nat.digitChar (u / 16 % 16)) (Nat.digitChar (u % 16)) = some u := by
    simp only [readHex, hexValue_digitChar _ (show u / 4096 < 16 by omega),
      hexValue_digitChar _ (Nat.mod_lt _ (by decide)), Option.bind_eq_bind, Option.bind_some, hsum]
  rw [unicodeEscape]
  simp only [List.cons_append, List.nil_append, readUnits, hread, Option.bind_eq_bind,
    Option.bind_some]

theorem units_lt (c : Char) : ∀ u ∈ units c, u < 0x10000 := by
  have hcode := toNat_lt c
  unfold units
  split
  · simpa
  · simp only [List.mem_cons, List.not_mem_nil, or_false]
    rintro u (hu | hu)
    · omega
    · omega

theorem readUnits_flatMap_unicodeEscape {codes : List ℕ} (hcodes : ∀ u ∈ codes, u < 0x10000)
    (rest : List Char) : readUnits (codes.flatMap unicodeEscape ++ rest) =
      (readUnits rest).map fun result => (codes ++ result.1, result.2) := by
  induction codes with
  | nil => simp
  | cons u codes ih =>
      obtain ⟨hu, hrest⟩ := List.forall_mem_cons.mp hcodes
      rw [List.flatMap_cons, List.append_assoc, readUnits_unicodeEscape hu, ih hrest,
        Option.map_map]
      rfl

theorem readUnits_escape_append (c : Char) (rest : List Char) :
    readUnits (escape c ++ rest) =
      (readUnits rest).map fun result => (units c ++ result.1, result.2) := by
  unfold escape
  split
  · rename_i letter hletter
    obtain ⟨before, after, htable, -⟩ := List.lookup_eq_some_iff.mp hletter
    have hentry : (c, letter) ∈ shortEscapes := by
      rw [htable]
      exact List.mem_append_right _ List.mem_cons_self
    simp only [shortEscapes, List.mem_cons, List.not_mem_nil, or_false] at hentry
    rcases hentry with h | h | h | h | h | h | h
    all_goals
      obtain ⟨rfl, rfl⟩ := Prod.mk.inj h
      rfl
  · rename_i hplain
    split
    · rename_i hprintable
      have hquote : c ≠ '"' := fun heq => absurd (heq ▸ hplain) (by decide)
      have hbackslash : c ≠ '\\' := fun heq => absurd (heq ▸ hplain) (by decide)
      rw [List.singleton_append, readUnits, if_neg]
      · exact not_or.mpr ⟨Nat.not_lt.mpr hprintable.1, hbackslash⟩
      · exact hquote
      · exact fun _ _ _ _ _ h => absurd h hbackslash
      · exact fun _ _ h => absurd h hbackslash
    · exact readUnits_flatMap_unicodeEscape (units_lt c) rest

theorem readUnits_flatMap_escape (text rest : List Char) :
    readUnits (text.flatMap escape ++ '"' :: rest) = some (text.flatMap units, rest) := by
  induction text with
  | nil => rfl
  | cons c text ih =>
      rw [List.flatMap_cons, List.append_assoc, readUnits_escape_append, ih]
      rfl

/-- Reads a string. -/
def readString (text : List Char) : Option (String × List Char) :=
  match skipBlanks text with
  | '"' :: rest => do
      let (codes, rest) ← readUnits rest
      let chars ← decode codes
      some (String.ofList chars, rest)
  | _ => none

theorem readString_writeString_append (value : String) (rest : List Char) :
    readString (writeString value ++ rest) = some (value, rest) := by
  have htext : writeString value ++ rest =
      '"' :: (value.toList.flatMap escape ++ '"' :: rest) := by
    rw [writeString, List.cons_append, List.append_assoc, List.singleton_append]
  rw [htext, readString, skipBlanks_cons (by decide)]
  simp only [readUnits_flatMap_escape, decode_flatMap_units, Option.bind_eq_bind, Option.bind_some,
    String.ofList_toList]

/-! ## Objects -/

/-- Writes a member, with a blank behind the colon. -/
def writeMember (member : String × String) : List Char :=
  writeString member.1 ++ ':' :: ' ' :: writeString member.2

/-- Writes an object, with blanks behind the commas. -/
def writeObject (members : List (String × String)) : List Char :=
  '{' :: ([',', ' '].intercalate (members.map writeMember) ++ ['}'])

/-- A member of an object whose values are strings, and what follows it. -/
def readMember (text : List Char) : Option ((String × String) × List Char) := do
  let (key, rest) ← readString text
  match skipBlanks rest with
  | ':' :: rest => do
      let (value, rest) ← readString rest
      some ((key, value), rest)
  | _ => none

/-- Reads a text with one object of strings. -/
def readObject (text : List Char) : Option (List (String × String)) :=
  match skipBlanks text with
  | '{' :: rest => do
      let (members, rest) ← Json.readList readMember '}' rest
      if skipBlanks rest = [] then some members else none
  | _ => none

theorem readString_blank (text : List Char) : readString ([' '] ++ text) = readString text := by
  have hskip : skipBlanks ([' '] ++ text) = skipBlanks text :=
    List.dropWhile_cons_of_pos (by decide)
  rw [readString, readString, hskip]

theorem readMember_writeMember_append (member : String × String) (rest : List Char) :
    readMember (writeMember member ++ rest) = some (member, rest) := by
  have htext : writeMember member ++ rest =
      writeString member.1 ++ ':' :: ([' '] ++ (writeString member.2 ++ rest)) := by
    simp [writeMember]
  rw [htext, readMember, readString_writeString_append]
  simp only [Option.bind_eq_bind, Option.bind_some,
    skipBlanks_cons (show Json.isBlank ':' = false by decide), readString_blank,
    readString_writeString_append]

/-- An object is read back. -/
theorem readObject_writeObject (members : List (String × String)) :
    readObject (writeObject members) = some members := by
  have hblank (text : List Char) : readMember ([' '] ++ text) = readMember text := by
    rw [readMember, readMember, readString_blank]
  have hlist : Json.readList readMember '}'
      ([',', ' '].intercalate (members.map writeMember) ++ ['}']) =
        (members.mapM some).map fun items => (items, []) :=
    Json.readList_mapM (.inr rfl) hblank
      (fun member _ rest _ => readMember_writeMember_append member rest)
      (fun member _ => ⟨_, _, rfl, by decide⟩) []
  have hall : members.mapM (m := Option) (fun member => pure (id member)) =
      some (members.map id) := List.mapM_pure
  rw [List.map_id] at hall
  rw [show members.mapM some = some members from hall] at hlist
  rw [writeObject, readObject, skipBlanks_cons (by decide)]
  simp only [hlist]
  rfl

/-! ## The characters of a text -/

theorem isPrintable_digitChar : ∀ n < 16, IsPrintable (Nat.digitChar n) := by
  decide

theorem isPrintable_unicodeEscape {u : ℕ} (hu : u < 0x10000) :
    ∀ c ∈ unicodeEscape u, IsPrintable c := by
  simp only [unicodeEscape, List.forall_mem_cons]
  refine ⟨by decide, by decide, ?_, ?_, ?_, ?_, List.forall_mem_nil _⟩
  all_goals exact isPrintable_digitChar _ (by omega)

theorem isPrintable_escape (c : Char) : ∀ written ∈ escape c, IsPrintable written := by
  unfold escape
  split
  · rename_i letter hletter
    obtain ⟨before, after, htable, -⟩ := List.lookup_eq_some_iff.mp hletter
    have hentry : (c, letter) ∈ shortEscapes := by
      rw [htable]
      exact List.mem_append_right _ List.mem_cons_self
    simp only [shortEscapes, List.mem_cons, List.not_mem_nil, or_false] at hentry
    rcases hentry with h | h | h | h | h | h | h
    all_goals
      obtain ⟨rfl, rfl⟩ := Prod.mk.inj h
      exact List.forall_mem_cons.mpr ⟨by decide, List.forall_mem_singleton.mpr (by decide)⟩
  · split
    · rename_i hprintable
      exact List.forall_mem_singleton.mpr hprintable
    · intro written hwritten
      obtain ⟨u, hu, hmem⟩ := List.mem_flatMap.mp hwritten
      exact isPrintable_unicodeEscape (units_lt c u hu) written hmem

theorem isPrintable_writeString (value : String) :
    ∀ c ∈ writeString value, IsPrintable c := by
  rw [writeString, List.forall_mem_cons, List.forall_mem_append]
  refine ⟨by decide, fun c hc => ?_, List.forall_mem_singleton.mpr (by decide)⟩
  obtain ⟨source, -, hwritten⟩ := List.mem_flatMap.mp hc
  exact isPrintable_escape source c hwritten

theorem isPrintable_writeMember (member : String × String) :
    ∀ c ∈ writeMember member, IsPrintable c := by
  rw [writeMember, List.forall_mem_append, List.forall_mem_cons, List.forall_mem_cons]
  exact ⟨isPrintable_writeString _, by decide, by decide, isPrintable_writeString _⟩

theorem isPrintable_writeObject (members : List (String × String)) :
    ∀ c ∈ writeObject members, IsPrintable c := by
  rw [writeObject, List.forall_mem_cons, List.forall_mem_append]
  refine ⟨by decide, ?_, List.forall_mem_singleton.mpr (by decide)⟩
  cases members with
  | nil => exact List.forall_mem_nil _
  | cons member members =>
      rw [List.map_cons, Json.intercalate_cons_eq_flatMap, List.forall_mem_append]
      refine ⟨isPrintable_writeMember member, fun c hc => ?_⟩
      obtain ⟨text, htext, hmem⟩ := List.mem_flatMap.mp hc
      obtain ⟨other, -, rfl⟩ := List.mem_map.mp htext
      rcases List.mem_append.mp hmem with hmem | hmem
      · obtain rfl | rfl := List.mem_pair.mp hmem
        · decide
        · decide
      · exact isPrintable_writeMember other c hmem

end JsonAscii
