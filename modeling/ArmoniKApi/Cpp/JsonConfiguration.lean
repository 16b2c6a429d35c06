import ArmoniKApi.Cpp.Configuration
import ArmoniKApi.Library.Json

/-!
# Loading a JSON file into a C++ configuration

`populate` walks through a document and sets a key for each string.  It throws at a
scalar that is not a string, and `fromPath` catches this, as it does when the file
cannot be read.  What was set before stays set.

The key of a string is made of the names and the indices on the way to it, with a
separator after each, but not while the key is still empty: names that are empty at
the beginning leave no trace.  Two strings may have the same key, and then the last
one wins.

## Strategy

A document is read as the list of its leaves, each with the path that leads to it
(`Json.leaves`).  On that list everything is about keys and values:

* `populate_eq` turns the two mutual loops of `populate` into one loop over the leaves,
  under the keys that `populate` makes on its way, and `keyFrom_eq` says what these keys
  are: the names of the path joined by the separator, without the empty ones at its
  beginning (`leafKey`).
* `setEach` sets one value after the other, so what a key has in the end is the last value
  for it (`lastValue`, `lookup_setEach`).

`fromPath_allOrNothing_iff` then says for which documents and configurations the file is
stored entirely, or not at all.  Its condition speaks of the paths of the document and of
what the configuration holds before.  For a file of strings without empty names at the
beginning it comes down to this: strings whose joined paths are the same are equal
(`storesCleanly_iff_of_plain`).
-/

namespace ArmoniKApi.Cpp.Utils

/-! ## The code -/

/-- `simdjson_error`. -/
structure SimdjsonError where
  what : String

/-- The configuration after a call, and the exception if there was one. -/
abbrev Populated := Configuration × Option SimdjsonError

/-- Goes on if there was no exception. -/
def Populated.andThen (result : Populated) (next : Configuration → Populated) : Populated :=
  match result.2 with
  | none => next result.1
  | some _ => result

/-- `previous_prefix`. -/
def previousPrefix (key : String) : String := if key = "" then "" else key ++ "__"

section

-- what `get_string` throws for a scalar that is not a string
variable (incorrectType : SimdjsonError)

mutual

/-- `populate`. -/
def populate (config : Configuration) (key : String) : Json → Populated
  | .array items => populateItems config (previousPrefix key) 0 items
  | .object members => populateMembers config (previousPrefix key) members
  | .string value => (config.set key value, none)
  | .null => (config, some incorrectType)
  | .bool _ => (config, some incorrectType)
  | .number _ _ => (config, some incorrectType)

/-- The loop over an array. -/
def populateItems (config : Configuration) (previous : String) : ℕ → List Json → Populated
  | _, [] => (config, none)
  | i, child :: rest =>
      (populate config (previous ++ toString i) child).andThen fun config =>
        populateItems config previous (i + 1) rest

/-- The loop over an object. -/
def populateMembers (config : Configuration) (previous : String) :
    List (String × Json) → Populated
  | [] => (config, none)
  | (name, value) :: rest =>
      (populate config (previous ++ name) value).andThen fun config =>
        populateMembers config previous rest

end

/-- `fromPath`: the configuration, and what is written to the standard error.  `load` is
the parser's. -/
def fromPath (load : String → Except SimdjsonError Json) (config : Configuration)
    (filepath : String) : Configuration × String :=
  let logged (e : SimdjsonError) := "Unable to load json file " ++ filepath ++ " : " ++ e.what
  match load filepath with
  | .error e => (config, logged e)
  | .ok elem =>
      match populate incorrectType config "" elem with
      | (config, none) => (config, "")
      | (config, some e) => (config, logged e)

/-! ## The leaves, one after the other -/

/-- Sets the strings of a list of leaves, up to the first leaf that is not a string. -/
def setLeaves (config : Configuration) : List (String × Json) → Populated
  | [] => (config, none)
  | (key, .string value) :: rest => setLeaves (config.set key value) rest
  | _ :: _ => (config, some incorrectType)

theorem setLeaves_append (config : Configuration) (first rest : List (String × Json)) :
    setLeaves incorrectType config (first ++ rest) =
      (setLeaves incorrectType config first).andThen fun config =>
        setLeaves incorrectType config rest := by
  induction first generalizing config with
  | nil => rfl
  | cons leaf first ih =>
      obtain ⟨key, value⟩ := leaf
      cases value with
      | string value => exact ih (config.set key value)
      | _ => rfl

/-- The names and the indices of a path, joined by the separator. -/
def pathKey (path : List String) : String := "__".intercalate path

/-- What a path leaves of itself in a key: the names that are empty at its beginning leave
no trace, and the others are joined. -/
def leafKey (path : List String) : String := pathKey (path.dropWhile (· = ""))

/-- The key of a leaf, from the key of the value that has it. -/
def keyFrom (key : String) (path : List String) : String :=
  path.foldl (fun key name => previousPrefix key ++ name) key

theorem populate_eq (config : Configuration) (key : String) (elem : Json) :
    populate incorrectType config key elem =
      setLeaves incorrectType config
        (elem.leaves.map fun leaf => (keyFrom key leaf.1, leaf.2)) := by
  induction elem generalizing config key with
  | null => rfl
  | bool value => rfl
  | number value exponent => rfl
  | string value => rfl
  -- the items are gone through in order, under their indices
  | array items ih =>
      rw [populate, Json.leaves]
      generalize 0 = i
      induction items generalizing config i with
      | nil => rfl
      | cons child rest ihrest =>
          rw [populateItems, Json.leavesOfItems, List.map_append, setLeaves_append, List.map_map,
            ih child List.mem_cons_self]
          congr 1
          funext config
          exact ihrest (fun item hitem => ih item (List.mem_cons_of_mem child hitem)) config (i + 1)
  -- the members are gone through in order, under their names
  | object members ih =>
      rw [populate, Json.leaves]
      induction members generalizing config with
      | nil => rfl
      | cons member rest ihrest =>
          obtain ⟨name, value⟩ := member
          rw [populateMembers, Json.leavesOfMembers, List.map_append, setLeaves_append,
            List.map_map, ih (name, value) List.mem_cons_self]
          congr 1
          funext config
          exact ihrest (fun member hmember => ih member (List.mem_cons_of_mem _ hmember)) config

/-- Names after a key that is not empty are all joined. -/
theorem keyFrom_of_ne {key : String} (hkey : key ≠ "") (path : List String) :
    keyFrom key path = pathKey (key :: path) := by
  induction path generalizing key with
  | nil => exact String.intercalate_singleton.symm
  | cons name rest ih =>
      have hnext : previousPrefix key ++ name = key ++ "__" ++ name := by
        rw [previousPrefix, if_neg hkey]
      have hne : key ++ "__" ++ name ≠ "" := by
        simp [hkey]
      rw [keyFrom, List.foldl_cons, hnext]
      refine (ih hne).trans ?_
      rw [pathKey, String.intercalate_cons_append, pathKey, String.intercalate_cons_cons]

/-- The key that `populate` makes on the way to a leaf. -/
theorem keyFrom_eq (path : List String) : keyFrom "" path = leafKey path := by
  induction path with
  | nil => rfl
  | cons name rest ih =>
      have hfirst : previousPrefix "" ++ name = name := String.empty_append
      rw [keyFrom, List.foldl_cons, hfirst, leafKey]
      by_cases hname : name = ""
      -- the key is still empty, so the next name has no separator before it
      · rw [hname, List.dropWhile_cons_of_pos (by decide)]
        exact ih
      · rw [List.dropWhile_cons_of_neg (by simpa using hname)]
        exact keyFrom_of_ne hname rest

theorem leafKey_of_plain {path : List String} (hplain : path.head? ≠ some "") :
    leafKey path = pathKey path := by
  cases path with
  | nil => rfl
  | cons name rest =>
      have hname : name ≠ "" := fun h => hplain (congrArg some h)
      rw [leafKey, List.dropWhile_cons_of_neg (by simpa using hname)]

/-! ## What is written -/

/-- The strings before the first leaf that is not a string. -/
def firstStrings : List (String × Json) → List (String × String)
  | (key, .string value) :: rest => (key, value) :: firstStrings rest
  | _ => []

/-- The strings of a document up to the first scalar that is none, in the order of the
document, under the keys that their paths leave. -/
def strings (elem : Json) : List (String × String) :=
  firstStrings (elem.leaves.map fun leaf => (leafKey leaf.1, leaf.2))

/-- Sets all the values. -/
def setEach (config : Configuration) (items : List (String × String)) : Configuration :=
  items.foldl (fun config item => config.set item.1 item.2) config

theorem setLeaves_fst (config : Configuration) (leaves : List (String × Json)) :
    (setLeaves incorrectType config leaves).1 = setEach config (firstStrings leaves) := by
  induction leaves generalizing config with
  | nil => rfl
  | cons leaf rest ih =>
      obtain ⟨key, value⟩ := leaf
      cases value with
      | string value => exact ih (config.set key value)
      | _ => rfl

theorem fromPath_of_error {load : String → Except SimdjsonError Json} {filepath : String}
    {e : SimdjsonError} (hload : load filepath = .error e) (config : Configuration) :
    (fromPath incorrectType load config filepath).1 = config := by
  unfold fromPath
  rw [hload]

theorem fromPath_of_ok {load : String → Except SimdjsonError Json} {filepath : String}
    {elem : Json} (hload : load filepath = .ok elem) (config : Configuration) :
    (fromPath incorrectType load config filepath).1 = setEach config (strings elem) := by
  have hkeys : (fun leaf : List String × Json => (leafKey leaf.1, leaf.2)) =
      fun leaf => (keyFrom "" leaf.1, leaf.2) :=
    funext fun leaf => by rw [keyFrom_eq]
  rw [strings, hkeys, ← setLeaves_fst incorrectType, ← populate_eq, fromPath, hload]
  dsimp only
  split <;> rename_i hpopulate <;> rw [hpopulate]

end

/-- The last value that a list has for a key. -/
def lastValue (items : List (String × String)) : Layers.Layer String String :=
  Layers.top (items.map Layers.single)

/-- The key has the value, whatever the environment says. -/
def Holds (config : Configuration) (key value : String) : Prop :=
  config.options.lookup key = some value ∧
    (config.useEnvironment = true → key ∈ config.aboveEnvKeys)

/-- The key is as it was. -/
def SameAt (before after : Configuration) (key : String) : Prop :=
  after.options.lookup key = before.options.lookup key ∧
    (key ∈ after.aboveEnvKeys ↔ key ∈ before.aboveEnvKeys)

theorem lastValue_cons (item : String × String) (items : List (String × String)) (key : String) :
    lastValue (item :: items) key =
      (lastValue items key).or (if key = item.1 then some item.2 else none) :=
  Layers.top_cons _ _ key

theorem lastValue_eq_none_iff {items : List (String × String)} {key : String} :
    lastValue items key = none ↔ key ∉ items.map Prod.fst := by
  induction items with
  | nil => exact iff_of_true rfl List.not_mem_nil
  | cons item items ih =>
      rw [lastValue_cons, Option.or_eq_none_iff, ih, List.map_cons, List.mem_cons, not_or, and_comm]
      simp

/-- The last value is one of those that are set. -/
theorem mem_of_lastValue {items : List (String × String)} {key value : String}
    (hlast : lastValue items key = some value) : (key, value) ∈ items := by
  induction items with
  | nil => cases hlast
  | cons item items ih =>
      rw [lastValue_cons, Option.or_eq_some_iff] at hlast
      rcases hlast with hlater | ⟨-, hitem⟩
      · exact List.mem_cons_of_mem item (ih hlater)
      · split at hitem
        · rename_i hkey
          cases hitem
          rw [hkey]
          exact List.mem_cons_self
        · cases hitem

theorem lookup_setEach (config : Configuration) (items : List (String × String)) (key : String) :
    (setEach config items).options.lookup key =
      (lastValue items key).or (config.options.lookup key) := by
  induction items generalizing config with
  | nil => rfl
  | cons item items ih =>
      have hset : (config.set item.1 item.2).options.lookup key =
          if key = item.1 then some item.2 else config.options.lookup key := by
        show (config.options.insert item.1 item.2).lookup key = _
        split
        · rename_i hkey
          rw [hkey, AList.lookup_insert]
        · rename_i hkey
          exact AList.lookup_insert_ne hkey
      rw [lastValue_cons, Option.or_assoc]
      refine (ih _).trans ?_
      rw [hset]
      split <;> rfl

theorem useEnvironment_setEach (config : Configuration) (items : List (String × String)) :
    (setEach config items).useEnvironment = config.useEnvironment := by
  induction items generalizing config with
  | nil => rfl
  | cons item items ih => exact ih (config.set item.1 item.2)

theorem mem_aboveEnvKeys_setEach (config : Configuration) (items : List (String × String))
    (key : String) :
    key ∈ (setEach config items).aboveEnvKeys ↔
      key ∈ config.aboveEnvKeys ∨ config.useEnvironment = true ∧ key ∈ items.map Prod.fst := by
  induction items generalizing config with
  | nil => simp [setEach]
  | cons item items ih =>
      refine (ih (config.set item.1 item.2)).trans ?_
      cases huse : config.useEnvironment with
      | false => simp [Configuration.set, huse]
      | true => simp [Configuration.set, huse, or_assoc, or_left_comm]

/-- A key has its last value. -/
theorem holds_setEach_iff {config : Configuration} {items : List (String × String)}
    {key value : String} :
    Holds (setEach config items) key value ↔
      (lastValue items key).elim (Holds config key value) fun last => last = value := by
  unfold Holds
  rw [lookup_setEach, useEnvironment_setEach, mem_aboveEnvKeys_setEach]
  cases hlast : lastValue items key with
  | none =>
      have hkey := lastValue_eq_none_iff.mp hlast
      simp [hkey]
  | some last =>
      have habove (huse : config.useEnvironment = true) :
          key ∈ config.aboveEnvKeys ∨ config.useEnvironment = true ∧ key ∈ items.map Prod.fst :=
        .inr ⟨huse, List.mem_map_of_mem (mem_of_lastValue hlast)⟩
      exact ⟨fun hholds => Option.some.inj hholds.1, fun h => ⟨congrArg some h, habove⟩⟩

/-- A key is as it was if it is not set, or has its last value already. -/
theorem sameAt_setEach_iff {config : Configuration} {items : List (String × String)}
    {key : String} :
    SameAt config (setEach config items) key ↔
      ∀ last, lastValue items key = some last → Holds config key last := by
  unfold SameAt Holds
  rw [lookup_setEach, mem_aboveEnvKeys_setEach]
  cases hlast : lastValue items key with
  | none =>
      have hkey := lastValue_eq_none_iff.mp hlast
      simp [hkey]
  | some last =>
      have hkey := List.mem_map_of_mem (f := Prod.fst) (mem_of_lastValue hlast)
      constructor
      · rintro ⟨hvalue, habove⟩ _ ⟨⟩
        exact ⟨hvalue.symm, fun huse => habove.mp (.inr ⟨huse, hkey⟩)⟩
      · intro hholds
        obtain ⟨hvalue, habove⟩ := hholds last rfl
        exact ⟨hvalue.symm, fun h => h.elim id fun hset => habove hset.1, .inl⟩

/-! ## All or nothing -/

/-- Every scalar of the document is a string, so that `get_string` does not throw
anywhere. -/
def OnlyStrings (elem : Json) : Prop := ∀ leaf ∈ elem.leaves, ∃ value, leaf.2 = .string value

/-- Each leaf is stored, and every other key is as it was. -/
structure Stores (elem : Json) (before after : Configuration) : Prop where
  strings : OnlyStrings elem
  stored : ∀ path value, (path, Json.string value) ∈ elem.leaves →
    Holds after (pathKey path) value
  others : ∀ key, (∀ leaf ∈ elem.leaves, pathKey leaf.1 ≠ key) → SameAt before after key
  environment : after.useEnvironment = before.useEnvironment

/-- Every key is as it was, and so is the use of the environment. -/
structure Unchanged (before after : Configuration) : Prop where
  keys : ∀ key, SameAt before after key
  environment : after.useEnvironment = before.useEnvironment

/-- The document is stored, or it cannot be loaded and nothing changes. -/
def AllOrNothing (loaded : Except SimdjsonError Json) (before after : Configuration) : Prop :=
  (∃ elem, loaded = .ok elem ∧ Stores elem before after) ∨
    (∀ elem, loaded = .ok elem → ¬OnlyStrings elem) ∧ Unchanged before after

/-- Of the strings under the key that the path of a leaf spells, the last is the leaf's own
value, or there is none and the configuration has the value already; and where a path
leaves a key that the path of no leaf spells, the configuration has the last value for that
key already.  Both are about the document and the configuration before. -/
structure StoresCleanly (config : Configuration) (elem : Json) : Prop where
  stored : ∀ path value, (path, Json.string value) ∈ elem.leaves →
    (lastValue (strings elem) (pathKey path)).elim (Holds config (pathKey path) value)
      fun last => last = value
  others : ∀ key last, lastValue (strings elem) key = some last →
    (∀ leaf ∈ elem.leaves, pathKey leaf.1 ≠ key) → Holds config key last

theorem stores_setEach_iff {config : Configuration} {elem : Json} :
    Stores elem config (setEach config (strings elem)) ↔
      OnlyStrings elem ∧ StoresCleanly config elem := by
  constructor
  · rintro ⟨hstrings, hstored, hothers, -⟩
    refine ⟨hstrings, ?_, ?_⟩
    · intro path value hleaf
      exact holds_setEach_iff.mp (hstored path value hleaf)
    · intro key last hlast hkey
      exact sameAt_setEach_iff.mp (hothers key hkey) last hlast
  · rintro ⟨hstrings, hstored, hothers⟩
    refine ⟨hstrings, ?_, ?_, useEnvironment_setEach config _⟩
    · intro path value hleaf
      exact holds_setEach_iff.mpr (hstored path value hleaf)
    · intro key hkey
      exact sameAt_setEach_iff.mpr fun last hlast => hothers key last hlast hkey

theorem unchanged_setEach_iff {config : Configuration} {items : List (String × String)} :
    Unchanged config (setEach config items) ↔
      ∀ key last, lastValue items key = some last → Holds config key last := by
  constructor
  · rintro ⟨hkeys, -⟩ key
    exact sameAt_setEach_iff.mp (hkeys key)
  · intro hholds
    exact ⟨fun key => sameAt_setEach_iff.mpr (hholds key), useEnvironment_setEach config items⟩

theorem allOrNothing_ok_iff {elem : Json} {before after : Configuration} :
    AllOrNothing (.ok elem) before after ↔
      Stores elem before after ∨ ¬OnlyStrings elem ∧ Unchanged before after := by
  simp [AllOrNothing]

/-- When a load is all or nothing, for any document. -/
theorem allOrNothing_iff (incorrectType : SimdjsonError)
    (load : String → Except SimdjsonError Json) (config : Configuration) (filepath : String) :
    AllOrNothing (load filepath) config (fromPath incorrectType load config filepath).1 ↔
      ∀ elem, load filepath = .ok elem →
        (OnlyStrings elem → StoresCleanly config elem) ∧
        (¬OnlyStrings elem → ∀ key last, lastValue (strings elem) key = some last →
          Holds config key last) := by
  cases hload : load filepath with
  | error e =>
      rw [fromPath_of_error incorrectType hload]
      refine iff_of_true (.inr ⟨nofun, fun key => ⟨rfl, Iff.rfl⟩, rfl⟩) nofun
  | ok elem =>
      rw [fromPath_of_ok incorrectType hload]
      rw [allOrNothing_ok_iff, stores_setEach_iff, unchanged_setEach_iff]
      constructor
      · rintro (⟨hstrings, hclean⟩ | ⟨hother, hholds⟩) _ ⟨⟩
        · exact ⟨fun _ => hclean, fun h => absurd hstrings h⟩
        · exact ⟨fun h => absurd h hother, fun _ => hholds⟩
      · intro hcond
        obtain ⟨hclean, hholds⟩ := hcond elem rfl
        by_cases hstrings : OnlyStrings elem
        · exact .inl ⟨hstrings, hclean hstrings⟩
        · exact .inr ⟨hstrings, hholds hstrings⟩

/-! ## Files of strings -/

theorem mem_firstStrings_iff {leaves : List (String × Json)}
    (hstrings : ∀ leaf ∈ leaves, ∃ value, leaf.2 = .string value) {key value : String} :
    (key, value) ∈ firstStrings leaves ↔ (key, Json.string value) ∈ leaves := by
  induction leaves with
  | nil => exact iff_of_false List.not_mem_nil List.not_mem_nil
  | cons leaf rest ih =>
      obtain ⟨⟨first, hfirst⟩, hrest⟩ := List.forall_mem_cons.mp hstrings
      obtain ⟨other, json⟩ := leaf
      cases hfirst
      rw [firstStrings, List.mem_cons, List.mem_cons, ih hrest]
      simp

theorem mem_strings_iff {elem : Json} (hstrings : OnlyStrings elem)
    (hplain : ∀ leaf ∈ elem.leaves, leaf.1.head? ≠ some "") (key value : String) :
    (key, value) ∈ strings elem ↔
      ∃ path, (path, Json.string value) ∈ elem.leaves ∧ pathKey path = key := by
  have hkeys : (elem.leaves.map fun leaf => (leafKey leaf.1, leaf.2)) =
      elem.leaves.map fun leaf => (pathKey leaf.1, leaf.2) := by
    refine List.map_congr_left fun leaf hleaf => ?_
    rw [leafKey_of_plain (hplain leaf hleaf)]
  have hmapped : ∀ leaf ∈ elem.leaves.map fun leaf => (pathKey leaf.1, leaf.2),
      ∃ value, leaf.2 = Json.string value := by
    intro leaf hleaf
    obtain ⟨original, horiginal, rfl⟩ := List.mem_map.mp hleaf
    exact hstrings original horiginal
  rw [strings, hkeys, mem_firstStrings_iff hmapped, List.mem_map]
  simp [Prod.ext_iff, and_comm]

/-- Without empty names at the beginning of a path it is enough, and needed, that leaves
with the same key are equal. -/
theorem storesCleanly_iff_of_plain {config : Configuration} {elem : Json}
    (hstrings : OnlyStrings elem) (hplain : ∀ leaf ∈ elem.leaves, leaf.1.head? ≠ some "") :
    StoresCleanly config elem ↔
      ∀ a ∈ elem.leaves, ∀ b ∈ elem.leaves, pathKey a.1 = pathKey b.1 → a.2 = b.2 := by
  have hwrites (key value : String) := mem_strings_iff hstrings hplain key value
  -- every leaf is written, so that its key has a last value
  have hlast (path : List String) (value : String)
      (hleaf : (path, Json.string value) ∈ elem.leaves) :
      ∃ last, lastValue (strings elem) (pathKey path) = some last := by
    refine Option.ne_none_iff_exists'.mp fun hnone => ?_
    have hwrite := (hwrites (pathKey path) value).mpr ⟨path, hleaf, rfl⟩
    exact lastValue_eq_none_iff.mp hnone (List.mem_map_of_mem (f := Prod.fst) hwrite)
  constructor
  · rintro ⟨hstored, -⟩ a ha b hb hkey
    obtain ⟨valuea, hvaluea⟩ := hstrings a ha
    obtain ⟨valueb, hvalueb⟩ := hstrings b hb
    have hleafa : (a.1, Json.string valuea) ∈ elem.leaves := hvaluea ▸ ha
    have hleafb : (b.1, Json.string valueb) ∈ elem.leaves := hvalueb ▸ hb
    obtain ⟨last, hwrite⟩ := hlast a.1 valuea hleafa
    have hsamea := hstored a.1 valuea hleafa
    have hsameb := hstored b.1 valueb hleafb
    rw [← hkey] at hsameb
    rw [hwrite, Option.elim_some] at hsamea hsameb
    rw [hvaluea, hvalueb, ← hsamea, ← hsameb]
  -- the last value of a key was written for a leaf, and all leaves of the key agree with it
  · intro hagree
    refine ⟨?_, ?_⟩
    · intro path value hleaf
      obtain ⟨last, hwrite⟩ := hlast path value hleaf
      obtain ⟨other, hother, hkey⟩ := (hwrites _ last).mp (mem_of_lastValue hwrite)
      rw [hwrite]
      exact Json.string.inj (hagree _ hother _ hleaf hkey)
    · intro key last hwrite hnone
      obtain ⟨path, hleaf, hkey⟩ := (hwrites key last).mp (mem_of_lastValue hwrite)
      exact absurd hkey (hnone _ hleaf)

/-! ## The result -/

/-- Loading is all or nothing exactly if the file cannot be read, or it has nothing but
strings and stores them cleanly, or it has something else and the strings before that
have been in the configuration before.  In a file of strings in which no path begins with
an empty name, the strings are stored cleanly exactly if those whose joined paths are the
same are equal. -/
theorem fromPath_allOrNothing_iff (incorrectType : SimdjsonError)
    (load : String → Except SimdjsonError Json) (config : Configuration) (filepath : String) :
    (AllOrNothing (load filepath) config (fromPath incorrectType load config filepath).1 ↔
      ∀ elem, load filepath = .ok elem →
        (OnlyStrings elem → StoresCleanly config elem) ∧
        (¬OnlyStrings elem → ∀ key last, lastValue (strings elem) key = some last →
          Holds config key last)) ∧
    ∀ elem, load filepath = .ok elem → OnlyStrings elem →
      (∀ leaf ∈ elem.leaves, leaf.1.head? ≠ some "") →
        (AllOrNothing (load filepath) config (fromPath incorrectType load config filepath).1 ↔
          ∀ a ∈ elem.leaves, ∀ b ∈ elem.leaves, pathKey a.1 = pathKey b.1 → a.2 = b.2) := by
  refine ⟨allOrNothing_iff incorrectType load config filepath, ?_⟩
  intro elem hload hstrings hplain
  rw [allOrNothing_iff, hload, ← storesCleanly_iff_of_plain hstrings hplain]
  constructor
  · exact fun hcond => (hcond elem rfl).1 hstrings
  · rintro hclean _ ⟨⟩
    exact ⟨fun _ => hclean, fun hother => absurd hstrings hother⟩

/-- A string, and another one below a name. -/
def nested : Json := .object [("a", .string "x"), ("b", .object [("c", .string "y")])]

theorem fromPath_allOrNothing_iff_nested :
    AllOrNothing (.ok nested) Configuration.empty
        (fromPath ⟨"INCORRECT_TYPE"⟩ (fun _ => .ok nested) Configuration.empty "a.json").1 ∧
      (fromPath ⟨"INCORRECT_TYPE"⟩ (fun _ => .ok nested) Configuration.empty
        "a.json").1.options.lookup "b__c" = some "y" := by
  have hleaves : nested.leaves = [(["a"], .string "x"), (["b", "c"], .string "y")] := rfl
  have hiff := (fromPath_allOrNothing_iff ⟨"INCORRECT_TYPE"⟩ (fun _ => .ok nested)
    Configuration.empty "a.json").2 nested rfl
  have hapart : pathKey ["a"] ≠ pathKey ["b", "c"] := by decide
  refine ⟨(hiff ?_ ?_).mpr ?_, by decide⟩
  · simp [OnlyStrings, hleaves]
  · simp [hleaves]
  · simp [hleaves, hapart, hapart.symm]

/-- A number after a string. -/
theorem fromPath_half_applied :
    ¬AllOrNothing (.ok (.object [("a", .string "x"), ("b", .number (.ofInt 1) 0)]))
      Configuration.empty
      (fromPath ⟨"INCORRECT_TYPE"⟩
        (fun _ => .ok (.object [("a", .string "x"), ("b", .number (.ofInt 1) 0)]))
        Configuration.empty "appsettings.json").1 := by
  rintro (⟨_, ⟨⟩, hstores⟩ | ⟨-, hunchanged⟩)
  · obtain ⟨value, hvalue⟩ := hstores.strings (["b"], .number (.ofInt 1) 0)
      (List.mem_cons_of_mem _ List.mem_cons_self)
    cases hvalue
  · have hkey := (hunchanged.keys "a").1
    revert hkey
    decide

end ArmoniKApi.Cpp.Utils
