import ArmoniKApi.Library.Decimal
import Mathlib.Data.List.Basic

/-!
# JSON texts

The values of JSON, a reader of their texts and a writer without blanks.  The
reader skips blanks between the tokens, and refuses an escaped surrogate.  It takes
a bound on the nesting, for which the length of the text is enough.

`Json.read_write` says that a value that was written is read back.  After that
come the readers of a value by a schema: a member of an object that may be absent,
and a list.

A round trip for a whole grammar needs a statement for the text in front of any other text,
or no induction goes through.  So every lemma has the form: reading `write v ++ rest` gives
`v` and `rest`, as long as `rest` does not go on with the value.  What may follow depends on
the kind of the value:

```text
string     anything, behind its quotation mark
number     nothing that goes on with it
list       anything, behind its bracket
```

`Closed` is the condition that serves them all: after a value comes the end, a comma or a
closing bracket.

* Strings: `readString_escape_append` reads one escaped character, `readString_writeString`
  all of them.
* Lists: arrays and objects are both read by `readList`, so that `readItems_mapM` and
  `readList_append` are proved once, for any texts that begin a value and any gap behind the
  commas.
* Values: the reader takes a bound on the nesting.  `ReadsBack` says that every bound from the
  length of the text on is enough, and `readsBack` is the induction over the value, through
  the items of arrays and the members of objects (`induct`).

The last two sections are for other writers and other readers.  `read_quoted` is an
equivalence about an object of strings whose texts come from elsewhere, and may be no strings
of JSON.  `optional_eq_some_iff` and `repeated_eq_some_iff` say when a member that is absent,
null or a list is read as it should be.
-/

/-- A JSON value.  A number has an exponent, 0 when there is none. -/
inductive Json
  | null
  | bool (value : Bool)
  | number (value : Decimal) (exponent : Int)
  | string (value : String)
  | array (items : List Json)
  | object (members : List (String × Json))

namespace Json

/-- Induction over the items of arrays and the values of objects. -/
@[elab_as_elim, induction_eliminator]
theorem induct {motive : Json → Prop} (null : motive .null)
    (bool : ∀ value, motive (.bool value))
    (number : ∀ value exponent, motive (.number value exponent))
    (string : ∀ value, motive (.string value))
    (array : ∀ items, (∀ item ∈ items, motive item) → motive (.array items))
    (object : ∀ members, (∀ member ∈ members, motive member.2) → motive (.object members))
    (value : Json) : motive value :=
  @Json.rec motive (fun items => ∀ item ∈ items, motive item)
    (fun members => ∀ member ∈ members, motive member.2) (fun member => motive member.2)
    null bool number string array object (List.forall_mem_nil _)
    (fun _ _ hitem hrest => List.forall_mem_cons.mpr ⟨hitem, hrest⟩) (List.forall_mem_nil _)
    (fun _ _ hmember hrest => List.forall_mem_cons.mpr ⟨hmember, hrest⟩) (fun _ _ h => h) value

/-! ## Leaves -/

mutual

/-- The scalars of a value in their order, with the names and the indices that lead to
them. -/
def leaves : Json → List (List String × Json)
  | .array items => leavesOfItems 0 items
  | .object members => leavesOfMembers members
  | .null => [([], .null)]
  | .bool value => [([], .bool value)]
  | .number value exponent => [([], .number value exponent)]
  | .string value => [([], .string value)]

/-- The leaves of the items of an array, from the given index on. -/
def leavesOfItems : ℕ → List Json → List (List String × Json)
  | _, [] => []
  | i, item :: rest =>
      item.leaves.map (fun leaf => (toString i :: leaf.1, leaf.2)) ++ leavesOfItems (i + 1) rest

/-- The leaves of the members of an object. -/
def leavesOfMembers : List (String × Json) → List (List String × Json)
  | [] => []
  | (name, value) :: rest =>
      value.leaves.map (fun leaf => (name :: leaf.1, leaf.2)) ++ leavesOfMembers rest

end

/-! ## Strings -/

/-- The letters of the short escapes. -/
def shortEscapes : List (Char × Char) :=
  [('"', '"'), ('\\', '\\'), ('\x08', 'b'), ('\x0c', 'f'), ('\n', 'n'), ('\r', 'r'), ('\t', 't')]

/-- Writes a character of a string. -/
def escape (c : Char) : List Char :=
  match shortEscapes.lookup c with
  | some letter => ['\\', letter]
  | none =>
      if c.toNat < 32 then
        ['\\', 'u', '0', '0', Nat.digitChar (c.toNat / 16), Nat.digitChar (c.toNat % 16)]
      else [c]

/-- A text between quotation marks, with escapes. -/
def writeString (value : String) : List Char := '"' :: value.toList.flatMap escape ++ ['"']

/-- The character that a letter stands for after a backslash. -/
def unescape (letter : Char) : Option Char :=
  if letter = '/' then some '/'
  else (shortEscapes.find? fun entry => entry.2 = letter).map Prod.fst

/-- The value of a hexadecimal digit. -/
def hexValue (c : Char) : Option ℕ :=
  if c.isDigit then some (c.toNat - 48)
  else if 'a' ≤ c ∧ c ≤ 'f' then some (c.toNat - 87)
  else if 'A' ≤ c ∧ c ≤ 'F' then some (c.toNat - 55)
  else none

/-- The character with a code of four hexadecimal digits. -/
def readHex (a b c d : Char) : Option Char := do
  let code := 4096 * (← hexValue a) + 256 * (← hexValue b) + 16 * (← hexValue c) + (← hexValue d)
  if code.isValidChar then some (Char.ofNat code) else none

/-- Reads the rest of a string, after the quotation mark. -/
def readString : List Char → Option (List Char × List Char)
  | [] => none
  | '"' :: rest => some ([], rest)
  | '\\' :: 'u' :: a :: b :: c :: d :: rest => do
      let char ← readHex a b c d
      (readString rest).map fun result => (char :: result.1, result.2)
  | '\\' :: letter :: rest => do
      let char ← unescape letter
      (readString rest).map fun result => (char :: result.1, result.2)
  | c :: rest =>
      if c.toNat < 32 ∨ c = '\\' then none
      else (readString rest).map fun result => (c :: result.1, result.2)

theorem readString_short {entry : Char × Char} (hentry : entry ∈ shortEscapes) (rest : List Char) :
    readString ('\\' :: entry.2 :: rest) =
      (readString rest).map fun result => (entry.1 :: result.1, result.2) := by
  simp only [shortEscapes, List.mem_cons, List.not_mem_nil, or_false] at hentry
  rcases hentry with rfl | rfl | rfl | rfl | rfl | rfl | rfl
  all_goals rfl

theorem readHex_digitChar : ∀ n < 32,
    readHex '0' '0' (Nat.digitChar (n / 16)) (Nat.digitChar (n % 16)) = some (Char.ofNat n) := by
  decide

/-- A character that a string has as it is. -/
structure IsPlain (c : Char) : Prop where
  printed : 32 ≤ c.toNat
  ne_quote : c ≠ '"'
  ne_backslash : c ≠ '\\'

instance : DecidablePred IsPlain := fun c =>
  decidable_of_iff (32 ≤ c.toNat ∧ c ≠ '"' ∧ c ≠ '\\')
    ⟨fun h => ⟨h.1, h.2.1, h.2.2⟩, fun h => ⟨h.printed, h.ne_quote, h.ne_backslash⟩⟩

theorem isPlain_of_all {text : List Char} (htext : text.all fun c => decide (IsPlain c)) :
    ∀ c ∈ text, IsPlain c :=
  fun c hc => of_decide_eq_true (List.all_eq_true.mp htext c hc)

theorem readString_plain {c : Char} (hc : IsPlain c) (rest : List Char) :
    readString (c :: rest) = (readString rest).map fun result => (c :: result.1, result.2) := by
  have hstep : ¬(c.toNat < 32 ∨ c = '\\') :=
    not_or.mpr ⟨Nat.not_lt.mpr hc.printed, hc.ne_backslash⟩
  rw [readString, if_neg hstep]
  · exact hc.ne_quote
  · exact fun _ _ _ _ _ h => absurd h hc.ne_backslash
  · exact fun _ _ h => absurd h hc.ne_backslash

theorem readString_escape_append (c : Char) (rest : List Char) :
    readString (escape c ++ rest) =
      (readString rest).map fun result => (c :: result.1, result.2) := by
  unfold escape
  split
  · rename_i letter hletter
    obtain ⟨before, after, htable, -⟩ := List.lookup_eq_some_iff.mp hletter
    have hentry : (c, letter) ∈ shortEscapes := by
      rw [htable]
      exact List.mem_append_right _ List.mem_cons_self
    exact readString_short hentry rest
  · rename_i hplain
    split
    · rename_i hcontrol
      simp only [List.cons_append, List.nil_append, readString, readHex_digitChar _ hcontrol,
        Char.ofNat_toNat, Option.bind_eq_bind, Option.bind_some]
    · rename_i hcontrol
      refine readString_plain ⟨Nat.le_of_not_lt hcontrol, ?_, ?_⟩ rest
      · rintro rfl
        exact absurd hplain (by decide)
      · rintro rfl
        exact absurd hplain (by decide)

theorem readString_writeString (value : String) (rest : List Char) :
    readString (value.toList.flatMap escape ++ '"' :: rest) = some (value.toList, rest) := by
  induction value.toList with
  | nil => rfl
  | cons c chars ih =>
      rw [List.flatMap_cons, List.append_assoc, readString_escape_append, ih]
      rfl

/-! ## Numbers -/

/-- After a value the text ends, or goes on with the next one or with the end of a
list. -/
def Closed (text : List Char) : Prop := ∀ c ∈ text.head?, c = ',' ∨ c = ']' ∨ c = '}'

theorem closed_cons {c : Char} (hc : c = ',' ∨ c = ']' ∨ c = '}') (text : List Char) :
    Closed (c :: text) := by
  rintro _ ⟨⟩
  exact hc

theorem Closed.noNumber {text : List Char} (h : Closed text) : Decimal.NoNumber text := by
  intro c hc
  rcases h c hc with rfl | rfl | rfl
  all_goals decide

/-- Writes a number. -/
def writeNumber (value : Decimal) (exponent : Int) : List Char :=
  value.write ++ if exponent = 0 then [] else 'e' :: (Decimal.ofInt exponent).write

/-- Reads an exponent, if there is one. -/
def readExponent : List Char → Option (Int × List Char)
  | [] => some (0, [])
  | c :: rest =>
      if c = 'e' ∨ c = 'E' then do
        let digits := if rest.head? = some '+' then rest.tail else (Decimal.readMinus rest).2
        let (exponent, rest') ← Decimal.readNat digits
        some (if (Decimal.readMinus rest).1 then -exponent else exponent, rest')
      else some (0, c :: rest)

/-- Reads a number. -/
def readNumber (text : List Char) : Option (Json × List Char) := do
  let (value, rest) ← Decimal.read text
  let (exponent, rest) ← readExponent rest
  some (.number value exponent, rest)

theorem readExponent_closed {rest : List Char} (hrest : Closed rest) :
    readExponent rest = some (0, rest) := by
  cases rest with
  | nil => rfl
  | cons c rest =>
      have hc : ¬(c = 'e' ∨ c = 'E') := by
        rcases hrest c rfl with rfl | rfl | rfl
        all_goals decide
      rw [readExponent, if_neg hc]

theorem readExponent_write_append (exponent : Int) {rest : List Char} (hrest : Closed rest) :
    readExponent ('e' :: ((Decimal.ofInt exponent).write ++ rest)) = some (exponent, rest) := by
  have hdigits := Decimal.readNat_toDigits_append exponent.natAbs hrest.noNumber.noDigit
  simp only [readExponent, true_or, if_true]
  -- a minus is written, but never a plus
  by_cases hneg : exponent < 0
  · have hwrite : (Decimal.ofInt exponent).write = '-' :: Nat.toDigits 10 exponent.natAbs := by
      simp [Decimal.write, Decimal.ofInt, hneg]
    have habs : -(exponent.natAbs : Int) = exponent := by omega
    have hplus : '-' ≠ '+' := by decide
    simp only [hwrite, List.cons_append, List.head?_cons, Option.some.injEq, if_neg hplus,
      Decimal.readMinus, hdigits, Option.bind_eq_bind, Option.bind_some, if_true, habs]
  · have hwrite : (Decimal.ofInt exponent).write = Nat.toDigits 10 exponent.natAbs := by
      simp [Decimal.write, Decimal.ofInt, hneg]
    have habs : (exponent.natAbs : Int) = exponent := by omega
    have hplus : (Nat.toDigits 10 exponent.natAbs ++ rest).head? ≠ some '+' := by
      have hall := Decimal.isDigit_toDigits exponent.natAbs
      cases hn : Nat.toDigits 10 exponent.natAbs with
      | nil => exact absurd hn Nat.toDigits_ne_nil
      | cons c digits =>
          rw [hn] at hall
          rintro ⟨⟩
          exact absurd (hall '+' List.mem_cons_self) (by decide)
    rw [hwrite, if_neg hplus, Decimal.readMinus_digits_append]
    simp only [hdigits, Option.bind_eq_bind, Option.bind_some, Bool.false_eq_true, if_false, habs]

theorem readNumber_writeNumber_append (value : Decimal) (exponent : Int) {rest : List Char}
    (hrest : Closed rest) :
    readNumber (writeNumber value exponent ++ rest) = some (.number value exponent, rest) := by
  unfold readNumber writeNumber
  rw [List.append_assoc]
  split
  · rename_i hzero
    rw [List.nil_append, Decimal.read_write_append value hrest.noNumber]
    simp [readExponent_closed hrest, hzero]
  · have hexponent : Decimal.NoNumber
        ('e' :: (Decimal.ofInt exponent).write ++ rest) := by
      rintro _ ⟨⟩
      decide
    rw [Decimal.read_write_append value hexponent]
    simp [readExponent_write_append exponent hrest]

/-! ## Lists

The items of an array and the members of an object: texts with commas between
them, up to a closing bracket. -/

/-- The blanks that may stand between the parts of a value. -/
def isBlank (c : Char) : Bool := c = ' ' ∨ c = '\t' ∨ c = '\n' ∨ c = '\r'

/-- What follows the blanks. -/
def skipBlanks (text : List Char) : List Char := text.dropWhile isBlank

theorem skipBlanks_cons {c : Char} (hc : isBlank c = false) (text : List Char) :
    skipBlanks (c :: text) = c :: text :=
  List.dropWhile_cons_of_neg (by simp [hc])

variable {α : Type}

/-- Reads an item after another, up to the bracket. -/
def readItems (readItem : List Char → Option (α × List Char)) (bracket : Char) :
    ℕ → List Char → Option (List α × List Char)
  | 0, _ => none
  | fuel + 1, text => do
      let (item, rest) ← readItem text
      match skipBlanks rest with
      | [] => none
      | c :: rest =>
          if c = bracket then some ([item], rest)
          else if c = ',' then
            (readItems readItem bracket fuel rest).map fun result => (item :: result.1, result.2)
          else none

/-- Reads a list that may be empty. -/
def readList (readItem : List Char → Option (α × List Char)) (bracket : Char)
    (text : List Char) : Option (List α × List Char) :=
  match skipBlanks text with
  | [] => none
  | c :: rest =>
      if c = bracket then some ([], rest) else readItems readItem bracket text.length text

/-- The text begins a value. -/
def Begins (text : List Char) : Prop :=
  ∃ c rest, text = c :: rest ∧ isBlank c = false ∧ c ≠ ']' ∧ c ≠ '}'

theorem begins_intercalate_append {text : List Char} (h : Begins text) (sep : List Char)
    (texts : List (List Char)) (rest : List Char) :
    Begins (sep.intercalate (text :: texts) ++ rest) := by
  obtain ⟨c, text, rfl, hc⟩ := h
  cases texts with
  | nil => exact ⟨c, text ++ rest, by simp, hc⟩
  | cons second texts =>
      refine ⟨c, text ++ sep ++ sep.intercalate (second :: texts) ++ rest, ?_, hc⟩
      simp [List.intercalate_cons_cons]

theorem length_le_intercalate {text : List Char} {texts : List (List Char)} (h : text ∈ texts) :
    text.length ≤ ([','].intercalate texts).length := by
  induction texts with
  | nil => cases h
  | cons first texts ih =>
      cases texts with
      | nil =>
          cases List.mem_singleton.mp h
          simp
      | cons second texts =>
          rw [List.intercalate_cons_cons, List.length_append, List.length_append]
          rcases List.mem_cons.mp h with rfl | hrest
          · omega
          · have hlength := ih hrest
            omega

theorem count_le_intercalate {texts : List (List Char)} (h : ∀ text ∈ texts, Begins text)
    (sep : List Char) : texts.length ≤ (sep.intercalate texts).length := by
  induction texts with
  | nil => exact Nat.zero_le _
  | cons first texts ih =>
      obtain ⟨⟨c, rest, rfl, -⟩, hrest⟩ := List.forall_mem_cons.mp h
      have hlength := ih hrest
      cases texts with
      | nil => simp
      | cons second texts =>
          rw [List.intercalate_cons_cons, List.length_append, List.length_append,
            List.length_cons]
          simp only [List.length_cons] at *
          omega

section Lists

variable {readItem : List Char → Option (α × List Char)} {writeItem : α → List Char}
  {bracket : Char} {items : List α}

theorem skipBlanks_bracket (hbracket : bracket = ']' ∨ bracket = '}') (text : List Char) :
    skipBlanks (bracket :: text) = bracket :: text := by
  rcases hbracket with rfl | rfl
  all_goals exact skipBlanks_cons (by decide) text

/-- The texts between the commas are read as the items, if each of them is.  A gap may
follow the commas. -/
theorem readItems_mapM {T : Type} {text : T → List Char} {item : T → Option α} {gap : List Char}
    {sources : List T} (hbracket : bracket = ']' ∨ bracket = '}')
    (hgap : ∀ text, readItem (gap ++ text) = readItem text)
    (hread : ∀ source ∈ sources, ∀ rest, Closed rest →
      readItem (text source ++ rest) = (item source).map fun a => (a, rest))
    (hne : sources ≠ []) {fuel : ℕ} (hfuel : sources.length ≤ fuel) (rest : List Char) :
    readItems readItem bracket fuel
        ((',' :: gap).intercalate (sources.map text) ++ bracket :: rest) =
      (sources.mapM item).map fun items => (items, rest) := by
  induction sources generalizing fuel with
  -- the last item, which the bracket follows
  | nil => exact absurd rfl hne
  | cons source others ih =>
      obtain ⟨hsource, hothers⟩ := List.forall_mem_cons.mp hread
      obtain ⟨fuel, rfl⟩ := Nat.exists_eq_add_of_le' (Nat.one_le_of_lt hfuel)
      cases others with
      | nil =>
          rw [List.map_singleton, List.intercalate_singleton, readItems,
            hsource _ (closed_cons (Or.inr hbracket) rest)]
          cases hitem : item source with
          | none => simp [hitem]
          | some a => simp [hitem, skipBlanks_bracket hbracket]
      -- a comma follows, and a gap before the next item
      | cons second others =>
          have hcomma : ',' ≠ bracket := by
            rcases hbracket with rfl | rfl
            all_goals decide
          have hrest := ih hothers (List.cons_ne_nil _ _) (Nat.le_of_succ_le_succ hfuel)
          have hskip : ∀ text, readItems readItem bracket fuel (gap ++ text) =
              readItems readItem bracket fuel text := by
            intro text
            cases fuel with
            | zero => rfl
            | succ fuel => rw [readItems, readItems, hgap]
          rw [List.map_cons, List.map_cons, List.intercalate_cons_cons, ← List.map_cons,
            List.append_assoc, List.append_assoc, List.cons_append, readItems,
            hsource _ (closed_cons (Or.inl rfl) _), List.mapM_cons]
          cases hitem : item source with
          | none => rfl
          | some a =>
              simp only [Option.map_some, Option.bind_eq_bind, Option.bind_some,
                skipBlanks_cons (show isBlank ',' = false by decide), if_neg hcomma, if_true,
                hskip, hrest]
              cases (second :: others).mapM item with
              | none => rfl
              | some items => rfl

theorem readList_mapM {T : Type} {text : T → List Char} {item : T → Option α} {gap : List Char}
    {sources : List T} (hbracket : bracket = ']' ∨ bracket = '}')
    (hgap : ∀ text, readItem (gap ++ text) = readItem text)
    (hread : ∀ source ∈ sources, ∀ rest, Closed rest →
      readItem (text source ++ rest) = (item source).map fun a => (a, rest))
    (hbegins : ∀ source ∈ sources, Begins (text source)) (rest : List Char) :
    readList readItem bracket
        ((',' :: gap).intercalate (sources.map text) ++ bracket :: rest) =
      (sources.mapM item).map fun items => (items, rest) := by
  cases sources with
  | nil => simp [readList, skipBlanks_bracket hbracket]
  | cons source others =>
      have hcount := count_le_intercalate (List.forall_mem_map.mpr hbegins) (',' :: gap)
      -- there are at most as many items as there are characters
      have hfuel : (source :: others).length ≤
          ((',' :: gap).intercalate ((source :: others).map text) ++ bracket :: rest).length := by
        rw [List.length_map] at hcount
        rw [List.length_append]
        exact Nat.le_add_right_of_le hcount
      have hitems := readItems_mapM hbracket hgap hread (List.cons_ne_nil _ _) hfuel rest
      obtain ⟨c, tail, htext, hblank, hsquare, hcurly⟩ :=
        begins_intercalate_append (hbegins source List.mem_cons_self) (',' :: gap)
          (others.map text) (bracket :: rest)
      have hne : c ≠ bracket := by
        rcases hbracket with rfl | rfl
        · exact hsquare
        · exact hcurly
      rw [List.map_cons] at hitems ⊢
      rw [htext] at hitems ⊢
      unfold readList
      rw [skipBlanks_cons hblank]
      exact (if_neg hne).trans hitems

theorem readList_append (hbracket : bracket = ']' ∨ bracket = '}')
    (hread : ∀ item ∈ items, ∀ rest, Closed rest →
      readItem (writeItem item ++ rest) = some (item, rest))
    (hbegins : ∀ item ∈ items, Begins (writeItem item)) (rest : List Char) :
    readList readItem bracket ([','].intercalate (items.map writeItem) ++ bracket :: rest) =
      some (items, rest) := by
  have hsome : ∀ item ∈ items, ∀ rest, Closed rest →
      readItem (writeItem item ++ rest) = (some item).map fun a => (a, rest) := hread
  rw [readList_mapM hbracket (fun _ => rfl) hsome hbegins rest]
  have hitems : items.mapM (m := Option) (fun item => pure (id item)) = some (items.map id) :=
    List.mapM_pure
  rw [List.map_id] at hitems
  exact congrArg (Option.map fun items => (items, rest)) hitems

end Lists

/-! ## Values -/

mutual

/-- Writes a value, without blanks. -/
def write : Json → List Char
  | .null => ['n', 'u', 'l', 'l']
  | .bool true => ['t', 'r', 'u', 'e']
  | .bool false => ['f', 'a', 'l', 's', 'e']
  | .number value exponent => writeNumber value exponent
  | .string value => writeString value
  | .array items => '[' :: [','].intercalate (writeAll items) ++ [']']
  | .object members => '{' :: [','].intercalate (writeMembers members) ++ ['}']

/-- The items of an array, each as it is written. -/
def writeAll : List Json → List (List Char)
  | [] => []
  | item :: rest => item.write :: writeAll rest

/-- The members of an object, each as it is written. -/
def writeMembers : List (String × Json) → List (List Char)
  | [] => []
  | (key, value) :: rest => (writeString key ++ ':' :: value.write) :: writeMembers rest

end

/-- A member of an object. -/
def writeMember (member : String × Json) : List Char :=
  writeString member.1 ++ ':' :: member.2.write

theorem writeAll_eq_map (items : List Json) : writeAll items = items.map write := by
  induction items with
  | nil => rfl
  | cons item rest ih => rw [writeAll, ih, List.map_cons]

theorem writeMembers_eq_map (members : List (String × Json)) :
    writeMembers members = members.map writeMember := by
  induction members with
  | nil => rfl
  | cons member rest ih => rw [writeMembers, ih, List.map_cons, writeMember]

/-- Reads the member of an object. -/
def readMember (readValue : List Char → Option (Json × List Char)) (text : List Char) :
    Option ((String × Json) × List Char) :=
  match skipBlanks text with
  | '"' :: rest => do
      let (key, rest) ← readString rest
      match skipBlanks rest with
      | ':' :: rest =>
          (readValue rest).map fun result => ((String.ofList key, result.1), result.2)
      | _ => none
  | _ => none

/-- Reads a value nested at most so deep. -/
def readValue : ℕ → List Char → Option (Json × List Char)
  | 0, _ => none
  | fuel + 1, text =>
      match skipBlanks text with
      | [] => none
      | c :: rest =>
          if c = '"' then
            (readString rest).map fun result => (.string (String.ofList result.1), result.2)
          else if c = '[' then
            (readList (readValue fuel) ']' rest).map fun result => (.array result.1, result.2)
          else if c = '{' then
            (readList (readMember (readValue fuel)) '}' rest).map fun result =>
              (.object result.1, result.2)
          else if c = 'n' then
            (['u', 'l', 'l'].isPrefixOf? rest).map fun rest => (.null, rest)
          else if c = 't' then
            (['r', 'u', 'e'].isPrefixOf? rest).map fun rest => (.bool true, rest)
          else if c = 'f' then
            (['a', 'l', 's', 'e'].isPrefixOf? rest).map fun rest => (.bool false, rest)
          else readNumber (c :: rest)

/-- Reads a text with one value. -/
def read (text : List Char) : Option Json := do
  let (value, rest) ← readValue text.length text
  if skipBlanks rest = [] then some value else none

/-- A number begins with none of the characters that the other values begin with. -/
theorem head_writeNumber (value : Decimal) (exponent : Int) : ∃ c rest,
    writeNumber value exponent = c :: rest ∧ (c = '-' ∨ c.isDigit) := by
  obtain ⟨c, rest, hwrite, hc⟩ := value.head_write
  exact ⟨c, _, by rw [writeNumber, hwrite, List.cons_append], hc⟩

theorem ne_of_startsNumber {c other : Char} (hc : c = '-' ∨ c.isDigit)
    (hother : other ≠ '-' ∧ other.isDigit = false) : c ≠ other := by
  rintro rfl
  rcases hc with hminus | hdigit
  · exact hother.1 hminus
  · exact absurd hdigit (by simp [hother.2])

theorem isBlank_of_startsNumber {c : Char} (hc : c = '-' ∨ c.isDigit) : isBlank c = false := by
  have hblank : ∀ other : Char, other ≠ '-' ∧ other.isDigit = false → c ≠ other :=
    fun other hother => ne_of_startsNumber hc hother
  simp [isBlank, hblank ' ' (by decide), hblank '\t' (by decide), hblank '\n' (by decide),
    hblank '\r' (by decide)]

theorem begins_write (value : Json) : Begins value.write := by
  cases value with
  | null => exact ⟨_, _, rfl, by decide⟩
  | bool value =>
      cases value
      all_goals exact ⟨_, _, rfl, by decide⟩
  | number value exponent =>
      obtain ⟨c, rest, hwrite, hc⟩ := head_writeNumber value exponent
      exact ⟨c, rest, hwrite, isBlank_of_startsNumber hc, ne_of_startsNumber hc (by decide),
        ne_of_startsNumber hc (by decide)⟩
  | string value => exact ⟨_, _, rfl, by decide⟩
  | array items => exact ⟨_, _, rfl, by decide⟩
  | object members => exact ⟨_, _, rfl, by decide⟩

theorem begins_writeMember (member : String × Json) : Begins (writeMember member) :=
  ⟨_, _, rfl, by decide⟩

theorem readMember_writeMember_append {readValue : List Char → Option (Json × List Char)}
    {member : String × Json} {rest : List Char}
    (hread : readValue (member.2.write ++ rest) = some (member.2, rest)) :
    readMember readValue (writeMember member ++ rest) = some (member, rest) := by
  have hkey := readString_writeString member.1 (':' :: (member.2.write ++ rest))
  have htext : writeMember member ++ rest =
      '"' :: (member.1.toList.flatMap escape ++ '"' :: ':' :: (member.2.write ++ rest)) := by
    simp [writeMember, writeString]
  unfold readMember
  rw [htext, skipBlanks_cons (by decide)]
  simp only [hkey, Option.bind_eq_bind, Option.bind_some,
    skipBlanks_cons (show isBlank ':' = false by decide), hread, Option.map_some,
    String.ofList_toList]

/-- The value is read back from the beginning of a text, if the bound on the nesting
is at least the length of what was written. -/
def ReadsBack (value : Json) : Prop :=
  ∀ fuel ≥ value.write.length, ∀ rest, Closed rest →
    readValue fuel (value.write ++ rest) = some (value, rest)

theorem readsBack_of_succ {value : Json}
    (hread : ∀ fuel, value.write.length ≤ fuel + 1 → ∀ rest, Closed rest →
      readValue (fuel + 1) (value.write ++ rest) = some (value, rest)) : value.ReadsBack := by
  intro fuel hfuel
  obtain ⟨c, text, hwrite, -⟩ := begins_write value
  cases fuel with
  | zero =>
      rw [hwrite] at hfuel
      exact absurd hfuel (Nat.not_succ_le_zero _)
  | succ fuel => exact hread fuel hfuel

theorem readsBack_number (value : Decimal) (exponent : Int) :
    (number value exponent).ReadsBack := by
  refine readsBack_of_succ fun fuel _ rest hrest => ?_
  obtain ⟨c, text, hwrite, hc⟩ := head_writeNumber value exponent
  have hread := readNumber_writeNumber_append value exponent hrest
  rw [hwrite, List.cons_append] at hread
  rw [write, hwrite, List.cons_append, readValue, skipBlanks_cons (isBlank_of_startsNumber hc)]
  simp only [ne_of_startsNumber hc (show '"' ≠ '-' ∧ '"'.isDigit = false by decide),
    ne_of_startsNumber hc (show '[' ≠ '-' ∧ '['.isDigit = false by decide),
    ne_of_startsNumber hc (show '{' ≠ '-' ∧ '{'.isDigit = false by decide),
    ne_of_startsNumber hc (show 'n' ≠ '-' ∧ 'n'.isDigit = false by decide),
    ne_of_startsNumber hc (show 't' ≠ '-' ∧ 't'.isDigit = false by decide),
    ne_of_startsNumber hc (show 'f' ≠ '-' ∧ 'f'.isDigit = false by decide), if_false, hread]

theorem readsBack_array {items : List Json} (hitems : ∀ item ∈ items, item.ReadsBack) :
    (array items).ReadsBack := by
  refine readsBack_of_succ fun fuel hfuel rest _ => ?_
  rw [write, writeAll_eq_map] at hfuel ⊢
  have hitem : ∀ item ∈ items, ∀ text, Closed text →
      readValue fuel (item.write ++ text) = some (item, text) := by
    intro item hitem text htext
    have hlength := length_le_intercalate (List.mem_map.mpr ⟨item, hitem, rfl⟩ :
      item.write ∈ items.map write)
    refine hitems item hitem fuel ?_ text htext
    simp only [List.cons_append, List.length_cons, List.length_append] at hfuel
    omega
  have hread := readList_append (Or.inl rfl) hitem (fun item _ => begins_write item) rest
  simp [readValue, skipBlanks_cons, isBlank, hread]

theorem readsBack_object {members : List (String × Json)}
    (hmembers : ∀ member ∈ members, member.2.ReadsBack) : (object members).ReadsBack := by
  refine readsBack_of_succ fun fuel hfuel rest _ => ?_
  rw [write, writeMembers_eq_map] at hfuel ⊢
  have hmember : ∀ member ∈ members, ∀ text, Closed text →
      readMember (readValue fuel) (writeMember member ++ text) = some (member, text) := by
    intro member hmember text htext
    have hlength := length_le_intercalate (List.mem_map.mpr ⟨member, hmember, rfl⟩ :
      writeMember member ∈ members.map writeMember)
    refine readMember_writeMember_append (hmembers member hmember fuel ?_ text htext)
    simp only [writeMember, List.cons_append, List.length_cons, List.length_append] at hfuel hlength
    omega
  have hread := readList_append (Or.inr rfl) hmember (fun member _ => begins_writeMember member)
    rest
  simp [readValue, skipBlanks_cons, isBlank, hread]

/-- Every value is read back. -/
theorem readsBack (value : Json) : value.ReadsBack := by
  induction value with
  | null =>
      refine readsBack_of_succ fun fuel _ rest _ => ?_
      have hword : ['u', 'l', 'l'].isPrefixOf? ('u' :: 'l' :: 'l' :: rest) = some rest :=
        List.isPrefixOf?_eq_some_iff_append_eq.mpr rfl
      simp [write, readValue, skipBlanks_cons, isBlank, hword]
  | bool value =>
      refine readsBack_of_succ fun fuel _ rest _ => ?_
      have htrue : ['r', 'u', 'e'].isPrefixOf? ('r' :: 'u' :: 'e' :: rest) = some rest :=
        List.isPrefixOf?_eq_some_iff_append_eq.mpr rfl
      have hfalse : ['a', 'l', 's', 'e'].isPrefixOf? ('a' :: 'l' :: 's' :: 'e' :: rest) =
          some rest := List.isPrefixOf?_eq_some_iff_append_eq.mpr rfl
      cases value with
      | true => simp [write, readValue, skipBlanks_cons, isBlank, htrue]
      | false => simp [write, readValue, skipBlanks_cons, isBlank, hfalse]
  | number value exponent => exact readsBack_number value exponent
  | string value =>
      refine readsBack_of_succ fun fuel _ rest _ => ?_
      simp [write, writeString, readValue, skipBlanks_cons, isBlank,
        readString_writeString value rest]
  -- the two nested cases use the reading of lists
  | array items ih => exact readsBack_array ih
  | object members ih => exact readsBack_object ih

theorem read_write (value : Json) : read value.write = some value := by
  have hread := readsBack value value.write.length le_rfl [] (fun _ hc => by cases hc)
  rw [List.append_nil] at hread
  unfold read
  rw [hread]
  show (if skipBlanks [] = [] then some value else none) = some value
  exact if_pos rfl

/-! ## Objects of strings

Another writer may use other escapes and put a blank behind the separators, and what it
writes for a string may be no string of JSON. -/

/-- What stands between two quotation marks, and what it is read as. -/
structure Quoted where
  text : List Char
  chars : Option (List Char)
  reads : ∀ rest, readString (text ++ '"' :: rest) = chars.map fun chars => (chars, rest)

theorem readString_plain_append {text : List Char} (hplain : ∀ c ∈ text, IsPlain c)
    (rest : List Char) : readString (text ++ '"' :: rest) = some (text, rest) := by
  induction text with
  | nil => rfl
  | cons c text ih =>
      obtain ⟨hc, htext⟩ := List.forall_mem_cons.mp hplain
      rw [List.cons_append, readString_plain hc, ih htext]
      rfl

/-- A text without escapes. -/
def Quoted.plain (text : List Char) (hplain : ∀ c ∈ text, IsPlain c) : Quoted :=
  ⟨text, some text, readString_plain_append hplain⟩

/-- The text of a member whose value is a string. -/
def writeQuoted (member : Quoted × Quoted) : List Char :=
  '"' :: (member.1.text ++ '"' :: ':' :: ' ' :: '"' :: (member.2.text ++ ['"']))

/-- The member that such a text is read as. -/
def quotedMember (member : Quoted × Quoted) : Option (String × Json) := do
  let key ← member.1.chars
  let value ← member.2.chars
  some (String.ofList key, .string (String.ofList value))

theorem readMember_blank (readValue : List Char → Option (Json × List Char)) (text : List Char) :
    readMember readValue ([' '] ++ text) = readMember readValue text := by
  have hskip : skipBlanks ([' '] ++ text) = skipBlanks text :=
    List.dropWhile_cons_of_pos (by decide)
  rw [readMember, readMember, hskip]

theorem readMember_writeQuoted (member : Quoted × Quoted) (fuel : ℕ) (rest : List Char) :
    readMember (readValue (fuel + 1)) (writeQuoted member ++ rest) =
      (quotedMember member).map fun member => (member, rest) := by
  obtain ⟨key, value⟩ := member
  have hkey := key.reads (':' :: ' ' :: '"' :: (value.text ++ '"' :: rest))
  have hvalue := value.reads rest
  have htext : writeQuoted (key, value) ++ rest =
      '"' :: (key.text ++ '"' :: ':' :: ' ' :: '"' :: (value.text ++ '"' :: rest)) := by
    simp [writeQuoted]
  have hblank : skipBlanks (' ' :: '"' :: (value.text ++ '"' :: rest)) =
      '"' :: (value.text ++ '"' :: rest) := by
    rw [skipBlanks, List.dropWhile_cons_of_pos (by decide)]
    exact skipBlanks_cons (by decide) _
  unfold readMember
  rw [htext, skipBlanks_cons (by decide)]
  simp only [hkey]
  -- a text that does not read is what the whole member is then
  cases hchars : key.chars with
  | none => simp [quotedMember, hchars]
  | some chars =>
      simp only [Option.map_some, Option.bind_eq_bind, Option.bind_some,
        skipBlanks_cons (show isBlank ':' = false by decide), readValue, hblank, if_true, hvalue]
      cases hvalueChars : value.chars with
      | none => simp [quotedMember, hchars, hvalueChars]
      | some valueChars => simp [quotedMember, hchars, hvalueChars]

theorem intercalate_cons_eq_flatMap (sep text : List Char) (texts : List (List Char)) :
    sep.intercalate (text :: texts) = text ++ texts.flatMap fun next => sep ++ next := by
  induction texts generalizing text with
  | nil => simp
  | cons next texts ih =>
      rw [List.intercalate_cons_cons, ih, List.flatMap_cons, List.append_assoc, List.append_assoc]

/-- The object is read if all of its strings are. -/
theorem read_quoted (members : List (Quoted × Quoted)) :
    read ('{' :: ([',', ' '].intercalate (members.map writeQuoted) ++ ['}'])) =
      (members.mapM quotedMember).map object := by
  obtain ⟨fuel, hfuel⟩ : ∃ fuel,
      ('{' :: ([',', ' '].intercalate (members.map writeQuoted) ++ ['}'])).length = fuel + 2 :=
    ⟨([',', ' '].intercalate (members.map writeQuoted)).length, by simp⟩
  have hlist := readList_mapM (.inr rfl) (readMember_blank (readValue (fuel + 1)))
    (fun member _ rest _ => readMember_writeQuoted member fuel rest)
    (fun member (_ : member ∈ members) => ⟨_, _, rfl, by decide⟩) []
  rw [read, hfuel, readValue, skipBlanks_cons (by decide)]
  have hquote : '{' ≠ '"' := by decide
  have hsquare : '{' ≠ '[' := by decide
  simp only [if_neg hquote, if_neg hsquare, if_true, hlist]
  cases members.mapM quotedMember with
  | none => rfl
  | some members => rfl

/-! ## Reading by a schema

A schema reads the members of an object by their keys.  A member that is absent or
null is not set, or is an empty list. -/

variable {β : Type}

/-- The members of an object, without the keys that have no value. -/
def fields : List (String × Option Json) → List (String × Json)
  | [] => []
  | (_, none) :: rest => fields rest
  | (key, some value) :: rest => (key, value) :: fields rest

@[simp] theorem lookup_fields_nil (key : String) : (fields []).lookup key = none := rfl

theorem lookup_fields_cons (key other : String) (value : Option Json)
    (rest : List (String × Option Json)) :
    (fields ((other, value) :: rest)).lookup key =
      if key = other then value.or ((fields rest).lookup key) else (fields rest).lookup key := by
  cases value with
  | none =>
      rw [fields, Option.none_or, ite_self]
  | some value =>
      rw [fields, List.lookup_cons]
      split_ifs with hkey
      · rw [beq_iff_eq.mpr hkey]
        rfl
      · rw [beq_eq_false_iff_ne.mpr hkey]

/-- Reads a member that may be absent. -/
def optional (read : Json → Option β) (key : String) (members : List (String × Json)) :
    Option (Option β) :=
  match members.lookup key with
  | none => some none
  | some .null => some none
  | some value => (read value).map some

/-- Reads a list. -/
def repeated (read : Json → Option β) (key : String) (members : List (String × Json)) :
    Option (List β) :=
  match members.lookup key with
  | none => some []
  | some .null => some []
  | some (.array items) => items.mapM read
  | some _ => none

section Schema

variable {read : Json → Option β} {write : α → Json} {view : α → β} {key : String}
  {members : List (String × Json)}

/-- An optional member is read as it should be if and only if its value is. -/
theorem optional_eq_some_iff {value : Option α} (hnull : ∀ a, write a ≠ .null)
    (hlookup : members.lookup key = value.map write) :
    optional read key members = some (value.map view) ↔
      ∀ a ∈ value, read (write a) = some (view a) := by
  unfold optional
  rw [hlookup]
  cases value with
  | none => simp
  | some a =>
      simp only [Option.map_some]
      split
      · rename_i heq
        cases heq
      · rename_i heq
        exact absurd (Option.some.inj heq) (hnull a)
      · rename_i other _ heq
        cases heq
        simp [Option.map_eq_some_iff]

theorem mapM_map_eq_some_iff {items : List α} :
    (items.map write).mapM read = some (items.map view) ↔
      ∀ a ∈ items, read (write a) = some (view a) := by
  induction items with
  | nil => simp
  | cons a rest ih =>
      rw [List.forall_mem_cons, ← ih, List.map_cons, List.mapM_cons]
      constructor
      · intro hread
        obtain ⟨b, hfirst, hrest⟩ := Option.bind_eq_some_iff.mp hread
        obtain ⟨others, hothers, heq⟩ := Option.bind_eq_some_iff.mp hrest
        obtain ⟨rfl, rfl⟩ := List.cons.inj (Option.some.inj heq)
        exact ⟨hfirst, hothers⟩
      · rintro ⟨hfirst, hrest⟩
        rw [hfirst, hrest]
        rfl

/-- A list is read as it should be if and only if its items are. -/
theorem repeated_eq_some_iff {items : List α}
    (hlookup : members.lookup key = some (.array (items.map write)) ∨
      items = [] ∧ members.lookup key = none) :
    repeated read key members = some (items.map view) ↔
      ∀ a ∈ items, read (write a) = some (view a) := by
  unfold repeated
  rcases hlookup with hlookup | ⟨rfl, hlookup⟩
  · rw [hlookup]
    exact mapM_map_eq_some_iff
  · rw [hlookup]
    simp

end Schema

end Json
