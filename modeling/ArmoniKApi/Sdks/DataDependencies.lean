import ArmoniKApi.Library.ReadCache
import Mathlib.Data.List.Dedup
import Mathlib.Data.List.Forall2

/-!
# The data dependencies of a worker's task

A worker finds its data dependencies in files of the data folder, and reads a file when
it is asked for.  The Python worker keeps the ids as the keys of a dictionary.  The C#
worker keeps the list as it came, and answers from three places:

* `Count`, `Keys`, `Values` and the enumeration go through the list, with its
  duplicates;
* `ContainsKey` and `TryGetValue` look into the list;
* the indexer looks at the folder only, where there are files that are no dependencies.

Both read each file once.  The Python worker always answers as the map from the ids to
the contents does, and `dataDependencies_map_iff` says when the C# worker does so too.

## Strategy

* Both dictionaries fill a `ReadCache`.  An access keeps it sound
  (`CSharp.ReadFromFolderDict.sound`, `Python.LazyLoadDict.sound`), and so does a series of them
  (`sound_answers`), whose log of the reads then has no file twice.
* An access to a sound cache is answered as if nothing had been read.
  `CSharp.ReadFromFolderDict.right_iff` and `Python.LazyLoadDict.right` are about one access, by
  cases on it.  What goes through the whole list comes down to `isListing_iff_nodup`.
* So a series of accesses is right if each of them is (`behavesAsMap_answers_iff`).

`FromList` is the condition for the C# worker, access by access.
-/

namespace ArmoniKApi

/-- What the data folder holds under a name. -/
abbrev DataFolder := String → Option (List UInt8)

/-- What a worker has read of its data folder. -/
abbrev DataCache := ReadCache String (List UInt8)

/-- An access to the data dependencies: the indexer, `ContainsKey` or `in`,
`TryGetValue` or `get`, and what goes through all of them. -/
inductive Access
  | lookup (key : String)
  | contains (key : String)
  | tryGetValue (key : String)
  | keys
  | items
  | values
  | count

/-- The exceptions of a lookup. -/
inductive LookupError
  | keyNotFound
  | fileNotFound
  deriving DecidableEq

/-- What an access returns, or the exception. -/
inductive Answer
  | raised (error : LookupError)
  | value (bytes : List UInt8)
  | member (found : Bool)
  | found (bytes : Option (List UInt8))
  | keys (keys : List String)
  | items (items : List (String × List UInt8))
  | values (values : List (List UInt8))
  | count (n : ℕ)
  deriving DecidableEq

/-- The answer to what was read, or to a file that is missing. -/
def Answer.ofRead {V : Type} (answer : V → Answer) : Option V → Answer
  | none => .raised .fileNotFound
  | some read => answer read

/-! ## The C# worker -/

namespace CSharp.ReadFromFolderDict

variable (files : DataFolder) (dataDependencies : List String)

/-- An access to a `ReadFromFolderDict`. -/
def access (data : DataCache) : Access → Answer × DataCache
  | .lookup key => (Answer.ofRead .value (data.load files key).1, (data.load files key).2)
  | .contains key => (.member (dataDependencies.contains key), data)
  | .tryGetValue key =>
      if dataDependencies.contains key then
        (Answer.ofRead (fun bytes => .found (some bytes)) (data.load files key).1,
          (data.load files key).2)
      else (.found none, data)
  | .keys => (.keys dataDependencies, data)
  | .items => (Answer.ofRead .items (data.loadAll files dataDependencies).1,
      (data.loadAll files dataDependencies).2)
  | .values => (Answer.ofRead (fun items => .values (items.map Prod.snd))
      (data.loadAll files dataDependencies).1, (data.loadAll files dataDependencies).2)
  | .count => (.count dataDependencies.length, data)

end CSharp.ReadFromFolderDict

/-! ## The Python worker -/

namespace Python.LazyLoadDict

/-- The keys of `_data`, which has `None` for a file that was not read. -/
def dataKeys (ids : List String) : List String := ids.eraseDups

variable (files : DataFolder) (ids : List String)

/-- `__getitem__`. -/
def getItem (data : DataCache) (key : String) : Except LookupError (List UInt8) × DataCache :=
  if key ∉ dataKeys ids then (.error .keyNotFound, data)
  else
    match data.load files key with
    | (none, data) => (.error .fileNotFound, data)
    | (some bytes, data) => (.ok bytes, data)

/-- An access to a `LazyLoadDict`.  A `Mapping` finds out whether it has a key by looking
it up. -/
def access (data : DataCache) : Access → Answer × DataCache
  | .lookup key =>
      match getItem files ids data key with
      | (.ok bytes, data) => (.value bytes, data)
      | (.error error, data) => (.raised error, data)
  | .contains key =>
      match getItem files ids data key with
      | (.ok _, data) => (.member true, data)
      | (.error .keyNotFound, data) => (.member false, data)
      | (.error error, data) => (.raised error, data)
  | .tryGetValue key =>
      match getItem files ids data key with
      | (.ok bytes, data) => (.found (some bytes), data)
      | (.error .keyNotFound, data) => (.found none, data)
      | (.error error, data) => (.raised error, data)
  | .keys => (.keys (dataKeys ids), data)
  | .items => (Answer.ofRead .items (data.loadAll files (dataKeys ids)).1,
      (data.loadAll files (dataKeys ids)).2)
  | .values => (Answer.ofRead (fun items => .values (items.map Prod.snd))
      (data.loadAll files (dataKeys ids)).1, (data.loadAll files (dataKeys ids)).2)
  | .count => (.count (dataKeys ids).length, data)

end Python.LazyLoadDict

/-! ## The map from the ids to the contents -/

/-- The ids, each once, with their contents. -/
structure IsListing (ids : List String) (files : DataFolder)
    (items : List (String × List UInt8)) : Prop where
  nodup : (items.map Prod.fst).Nodup
  mem_iff : ∀ key bytes, (key, bytes) ∈ items ↔ key ∈ ids ∧ files key = some bytes

/-- The answer is the one of the map. -/
def Right (ids : List String) (files : DataFolder) (answer : Answer) : Access → Prop
  | .lookup key =>
      (key ∈ ids → ∃ bytes, files key = some bytes ∧ answer = .value bytes) ∧
        (key ∉ ids → ∃ error, answer = .raised error)
  | .contains key => answer = .member (decide (key ∈ ids))
  | .tryGetValue key => answer = .found (if key ∈ ids then files key else none)
  | .keys => ∃ keys, answer = .keys keys ∧ keys.Nodup ∧ ∀ key, key ∈ keys ↔ key ∈ ids
  | .items => ∃ items, answer = .items items ∧ IsListing ids files items
  | .values => ∃ items, answer = .values (items.map Prod.snd) ∧ IsListing ids files items
  | .count => answer = .count ids.dedup.length

/-- The answers to a series of accesses, and what was read. -/
def answers (access : DataCache → Access → Answer × DataCache) :
    DataCache → List Access → List Answer × DataCache
  | data, [] => ([], data)
  | data, first :: rest =>
      ((access data first).1 :: (answers access (access data first).2 rest).1,
        (answers access (access data first).2 rest).2)

/-- Every answer is right, and no file was read twice. -/
structure BehavesAsMap (ids : List String) (files : DataFolder) (accesses : List Access)
    (outcome : List Answer × DataCache) : Prop where
  right : List.Forall₂ (fun answer access => Right ids files answer access) outcome.1 accesses
  reads : outcome.2.reads.Nodup

/-! ## Single answers -/

variable {files : DataFolder}

theorem nodup_eraseDups {α : Type} [DecidableEq α] (items : List α) : items.eraseDups.Nodup := by
  induction hlength : items.length using Nat.strongRecOn generalizing items with
  | _ n ih =>
      cases items with
      | nil => exact List.nodup_nil
      | cons item rest =>
          rw [List.eraseDups_cons, List.nodup_cons]
          constructor
          · rw [List.mem_eraseDups]
            simp
          · refine ih _ ?_ _ rfl
            have hle := List.length_filter_le (fun other => !other == item) rest
            rw [List.length_cons] at hlength
            omega

/-- A list with the same elements as another, each once, is as long as the other without
duplicates. -/
theorem length_eq_of_mem_iff {α : Type} [DecidableEq α] {items others : List α}
    (hnodup : items.Nodup) (hmem : ∀ item, item ∈ items ↔ item ∈ others) :
    items.length = others.dedup.length := by
  refine ((List.perm_ext_iff_of_nodup hnodup (List.nodup_dedup others)).mpr ?_).length_eq
  intro item
  rw [hmem item, List.mem_dedup]

/-- Keys without duplicates are listed with their contents. -/
theorem isListing_of_keys {ids keys : List String} (hkeys : ∀ key, key ∈ keys ↔ key ∈ ids)
    (hnodup : keys.Nodup) {items : List (String × List UInt8)} (hnames : items.map Prod.fst = keys)
    (hright : ∀ item ∈ items, files item.1 = some item.2) : IsListing ids files items := by
  refine ⟨hnames ▸ hnodup, ?_⟩
  intro key bytes
  constructor
  · intro hitem
    refine ⟨(hkeys key).mp ?_, hright _ hitem⟩
    rw [← hnames]
    exact List.mem_map_of_mem (f := Prod.fst) hitem
  · rintro ⟨hid, hbytes⟩
    have hkey := (hkeys key).mpr hid
    rw [← hnames] at hkey
    obtain ⟨⟨_, other⟩, hitem, rfl⟩ := List.mem_map.mp hkey
    have hother := hright _ hitem
    rw [hbytes] at hother
    cases hother
    exact hitem

/-- A listing has an item for each id. -/
theorem IsListing.length_eq {ids : List String} {items : List (String × List UInt8)}
    (hlisting : IsListing ids files items) (hfiles : ∀ id ∈ ids, files id ≠ none) :
    items.length = ids.dedup.length := by
  rw [← List.length_map (f := Prod.fst)]
  refine length_eq_of_mem_iff hlisting.nodup fun key => ?_
  constructor
  · intro hkey
    obtain ⟨item, hitem, rfl⟩ := List.mem_map.mp hkey
    exact ((hlisting.mem_iff _ _).mp hitem).1
  · intro hkey
    obtain ⟨bytes, hbytes⟩ := Option.ne_none_iff_exists'.mp (hfiles key hkey)
    exact List.mem_map_of_mem (f := Prod.fst) ((hlisting.mem_iff key bytes).mpr ⟨hkey, hbytes⟩)

/-- The C# worker answers from the list if the list has no duplicates, and from the folder
if there is no file that is not in the list. -/
def FromList (ids : List String) (files : DataFolder) : Access → Prop
  | .lookup key => key ∈ ids ∨ files key = none
  | .contains _ => True
  | .tryGetValue _ => True
  | .keys => ids.Nodup
  | .items => ids.Nodup
  | .values => ids.Nodup
  | .count => ids.Nodup

variable {ids : List String} {data : DataCache}

theorem length_dedup_iff : ids.length = ids.dedup.length ↔ ids.Nodup := by
  rw [← List.dedup_eq_self]
  constructor
  · intro hlength
    exact (List.dedup_sublist ids).eq_of_length hlength.symm
  · intro hsame
    rw [hsame]

/-- What goes through the list is a listing if the list has no duplicates. -/
theorem isListing_iff_nodup {items : List (String × List UInt8)}
    (hnames : items.map Prod.fst = ids) (hright : ∀ item ∈ items, files item.1 = some item.2) :
    IsListing ids files items ↔ ids.Nodup :=
  ⟨fun hlisting => hnames ▸ hlisting.nodup,
    fun hnodup => isListing_of_keys (fun _ => Iff.rfl) hnodup hnames hright⟩

/-- There are as many values as ids in the list. -/
theorem nodup_of_listed_values (hfiles : ∀ id ∈ ids, files id ≠ none)
    {items others : List (String × List UInt8)} (hnames : items.map Prod.fst = ids)
    (hvalues : items.map Prod.snd = others.map Prod.snd) (hlisting : IsListing ids files others) :
    ids.Nodup := by
  have hlength := congrArg List.length hvalues
  rw [List.length_map, List.length_map, hlisting.length_eq hfiles,
    ← List.length_map (f := Prod.fst), hnames] at hlength
  exact length_dedup_iff.mp hlength

/-- An access to the C# map leaves its cache sound. -/
theorem CSharp.ReadFromFolderDict.sound (hdata : data.Sound files) (request : Access) :
    (access files ids data request).2.Sound files := by
  cases request with
  | lookup key => exact hdata.load key
  | contains key => exact hdata
  | tryGetValue key =>
      rw [access]
      split
      · exact hdata.load key
      · exact hdata
  | keys => exact hdata
  | items => exact hdata.loadAll ids
  | values => exact hdata.loadAll ids
  | count => exact hdata

/-- The indexer of the C# worker looks at the folder only. -/
theorem CSharp.ReadFromFolderDict.lookup_right_iff (hfiles : ∀ id ∈ ids, files id ≠ none)
    (hdata : data.Sound files) (key : String) :
    Right ids files (access files ids data (.lookup key)).1 (.lookup key) ↔
      key ∈ ids ∨ files key = none := by
  simp only [Right, CSharp.ReadFromFolderDict.access, hdata.load_fst]
  cases hfile : files key with
  | none =>
      refine iff_of_true ⟨fun hkey => absurd hfile (hfiles key hkey), fun _ => ?_⟩ (.inr rfl)
      exact ⟨.fileNotFound, rfl⟩
  | some bytes =>
      constructor
      · rintro ⟨-, hraised⟩
        by_contra hnot
        obtain ⟨error, herror⟩ := hraised fun hkey => hnot (.inl hkey)
        cases herror
      · rintro (hkey | hnone)
        · exact ⟨fun _ => ⟨bytes, rfl, rfl⟩, fun hnot => absurd hkey hnot⟩
        · cases hnone

/-- What the C# worker answers, whatever it has read. -/
theorem CSharp.ReadFromFolderDict.right_iff (hfiles : ∀ id ∈ ids, files id ≠ none)
    (hdata : data.Sound files) (request : Access) :
    Right ids files (access files ids data request).1 request ↔ FromList ids files request := by
  obtain ⟨items, hitems, hnames, hright⟩ := hdata.exists_loadAll_eq hfiles
  have hlisting := isListing_iff_nodup hnames hright
  cases request with
  | lookup key => exact lookup_right_iff hfiles hdata key
  -- these two look into the list first
  | contains key => simp [Right, FromList, CSharp.ReadFromFolderDict.access]
  | tryGetValue key =>
      refine iff_of_true ?_ trivial
      by_cases hkey : key ∈ ids
      · obtain ⟨bytes, hbytes⟩ := Option.ne_none_iff_exists'.mp (hfiles key hkey)
        simp [Right, CSharp.ReadFromFolderDict.access, hkey, hdata.load_fst, hbytes, Answer.ofRead]
      · simp [Right, CSharp.ReadFromFolderDict.access, hkey]
  -- what goes through the list shows its duplicates
  | keys =>
      constructor
      · rintro ⟨_, ⟨⟩, hnodup, -⟩
        exact hnodup
      · intro hnodup
        exact ⟨ids, rfl, hnodup, fun _ => Iff.rfl⟩
  | items =>
      simp only [Right, FromList, CSharp.ReadFromFolderDict.access, hitems, Answer.ofRead]
      constructor
      · rintro ⟨_, ⟨⟩, hitemsListing⟩
        exact hlisting.mp hitemsListing
      · intro hnodup
        exact ⟨items, rfl, hlisting.mpr hnodup⟩
  | values =>
      simp only [Right, FromList, CSharp.ReadFromFolderDict.access, hitems, Answer.ofRead]
      constructor
      · rintro ⟨others, hvalues, hothers⟩
        exact nodup_of_listed_values hfiles hnames (Answer.values.inj hvalues) hothers
      · intro hnodup
        exact ⟨items, rfl, hlisting.mpr hnodup⟩
  | count =>
      simp only [Right, FromList, CSharp.ReadFromFolderDict.access, Answer.count.injEq]
      exact length_dedup_iff

/-- What is found in the Python map, and what has been read then. -/
theorem Python.LazyLoadDict.getItem_sound (hdata : data.Sound files) (key : String) :
    (getItem files ids data key).2.Sound files := by
  have hload := hdata.load key
  rw [getItem]
  split
  · exact hdata
  · split
    · rename_i hread
      rwa [hread] at hload
    · rename_i hread
      rwa [hread] at hload

/-- An access to the Python map leaves its cache sound. -/
theorem Python.LazyLoadDict.sound (hdata : data.Sound files) (request : Access) :
    (access files ids data request).2.Sound files := by
  cases request with
  -- these three differ in what they make of what was found
  | lookup key | contains key | tryGetValue key =>
      have hitem : (getItem files ids data key).2.Sound files := getItem_sound hdata key
      rw [access]
      split
      all_goals
        rename_i hfound
        rwa [hfound] at hitem
  | keys => exact hdata
  | items => exact hdata.loadAll _
  | values => exact hdata.loadAll _
  | count => exact hdata

/-- The Python worker finds the ids, and nothing else. -/
theorem Python.LazyLoadDict.getItem_cases (hfiles : ∀ id ∈ ids, files id ≠ none)
    (hdata : data.Sound files) (key : String) :
    (key ∈ ids ∧ ∃ bytes, files key = some bytes ∧
        getItem files ids data key = (.ok bytes, (data.load files key).2)) ∨
      key ∉ ids ∧ getItem files ids data key = (.error .keyNotFound, data) := by
  have hkey : key ∈ dataKeys ids ↔ key ∈ ids := List.mem_eraseDups
  by_cases hid : key ∈ ids
  · obtain ⟨bytes, hbytes⟩ := Option.ne_none_iff_exists'.mp (hfiles key hid)
    have hload : data.load files key = (some bytes, (data.load files key).2) :=
      Prod.ext ((hdata.load_fst key).trans hbytes) rfl
    refine .inl ⟨hid, bytes, hbytes, ?_⟩
    rw [getItem, if_neg (not_not_intro (hkey.mpr hid)), hload]
  · exact .inr ⟨hid, if_pos fun h => hid (hkey.mp h)⟩

/-- What the Python worker answers, whatever it has read. -/
theorem Python.LazyLoadDict.right (hfiles : ∀ id ∈ ids, files id ≠ none)
    (hdata : data.Sound files) (request : Access) :
    Right ids files (access files ids data request).1 request := by
  have hkeys (key : String) : key ∈ dataKeys ids ↔ key ∈ ids := List.mem_eraseDups
  have hnodup : (dataKeys ids).Nodup := nodup_eraseDups ids
  obtain ⟨items, hitems, hnames, hright⟩ :=
    hdata.exists_loadAll_eq fun key hkey => hfiles key ((hkeys key).mp hkey)
  have hlisting := isListing_of_keys hkeys hnodup hnames hright
  cases request with
  | lookup key =>
      rw [access]
      rcases getItem_cases hfiles hdata key with ⟨hid, bytes, hbytes, hitem⟩ | ⟨hid, hitem⟩
      · rw [hitem]
        exact ⟨fun _ => ⟨bytes, hbytes, rfl⟩, fun hnot => absurd hid hnot⟩
      · rw [hitem]
        exact ⟨fun h => absurd h hid, fun _ => ⟨.keyNotFound, rfl⟩⟩
  -- `in` and `get` look the key up and catch the error
  | contains key =>
      rw [access, Right]
      rcases getItem_cases hfiles hdata key with ⟨hid, bytes, hbytes, hitem⟩ | ⟨hid, hitem⟩
      · rw [hitem, decide_eq_true hid]
      · rw [hitem, decide_eq_false hid]
  | tryGetValue key =>
      rw [access, Right]
      rcases getItem_cases hfiles hdata key with ⟨hid, bytes, hbytes, hitem⟩ | ⟨hid, hitem⟩
      · rw [hitem, if_pos hid, hbytes]
      · rw [hitem, if_neg hid]
  -- a dictionary has each id once
  | keys => exact ⟨dataKeys ids, rfl, hnodup, hkeys⟩
  | items =>
      refine ⟨items, ?_, hlisting⟩
      rw [access, hitems]
      rfl
  | values =>
      refine ⟨items, ?_, hlisting⟩
      rw [access, hitems]
      rfl
  | count => exact congrArg Answer.count (length_eq_of_mem_iff hnodup hkeys)

/-! ## Series of accesses -/

section Series

variable {access : DataCache → Access → Answer × DataCache}
  (hsound : ∀ data : DataCache, data.Sound files →
    ∀ request, (access data request).2.Sound files)

include hsound

/-- A series of accesses leaves the cache sound. -/
theorem sound_answers (hdata : data.Sound files) (accesses : List Access) :
    (answers access data accesses).2.Sound files := by
  induction accesses generalizing data with
  | nil => exact hdata
  | cons first rest ih => exact ih (hsound data hdata first)

/-- The answers are right one by one, because no answer depends on what was read. -/
theorem behavesAsMap_answers_iff {Expected : Access → Prop}
    (hright : ∀ data : DataCache, data.Sound files →
      ∀ request, Right ids files (access data request).1 request ↔ Expected request)
    (hdata : data.Sound files) (accesses : List Access) :
    BehavesAsMap ids files accesses (answers access data accesses) ↔
      ∀ request ∈ accesses, Expected request := by
  have hanswers : List.Forall₂ (fun answer request => Right ids files answer request)
      (answers access data accesses).1 accesses ↔ ∀ request ∈ accesses, Expected request := by
    induction accesses generalizing data with
    | nil => exact iff_of_true .nil (List.forall_mem_nil _)
    | cons first rest ih =>
        rw [answers, List.forall₂_cons, List.forall_mem_cons, hright data hdata,
          ih (hsound data hdata first)]
  exact ⟨fun hbehaves => hanswers.mp hbehaves.right,
    fun hexpected => ⟨hanswers.mpr hexpected, (sound_answers hsound hdata accesses).nodup⟩⟩

end Series

/-- A series of accesses to the C# map. -/
theorem CSharp.ReadFromFolderDict.behavesAsMap_iff (hfiles : ∀ id ∈ ids, files id ≠ none)
    (accesses : List Access) :
    BehavesAsMap ids files accesses (answers (access files ids) .empty accesses) ↔
      ∀ request ∈ accesses, FromList ids files request :=
  behavesAsMap_answers_iff (fun _ hdata => sound hdata) (fun _ hdata => right_iff hfiles hdata)
    .empty accesses

/-- A series of accesses to the Python map. -/
theorem Python.LazyLoadDict.behavesAsMap (hfiles : ∀ id ∈ ids, files id ≠ none)
    (accesses : List Access) :
    BehavesAsMap ids files accesses (answers (access files ids) .empty accesses) := by
  have hright (data : DataCache) (hdata : data.Sound files) (request : Access) :
      Right ids files (access files ids data request).1 request ↔ True :=
    iff_of_true (right hfiles hdata request) trivial
  exact (behavesAsMap_answers_iff (fun _ hdata => sound hdata) hright .empty accesses).mpr
    fun _ _ => trivial

/-- The data dependencies of the C# worker behave as the map from the ids to the contents
exactly if the list has no duplicates where it is gone through, and the keys that are
looked up are in the list or name no file.  Those of the Python worker always do. -/
theorem dataDependencies_map_iff (hfiles : ∀ id ∈ ids, files id ≠ none) (accesses : List Access) :
    (BehavesAsMap ids files accesses
        (answers (CSharp.ReadFromFolderDict.access files ids) .empty accesses) ↔
      ∀ request ∈ accesses, FromList ids files request) ∧
    BehavesAsMap ids files accesses
      (answers (Python.LazyLoadDict.access files ids) .empty accesses) :=
  ⟨CSharp.ReadFromFolderDict.behavesAsMap_iff hfiles accesses,
    Python.LazyLoadDict.behavesAsMap hfiles accesses⟩

/-- Two ids and a third file. -/
def threeFiles : DataFolder := fun name =>
  if name = "a" then some [1] else if name = "b" then some [] else
    if name = "payload" then some [2] else none

theorem dataDependencies_map_two :
    BehavesAsMap ["a", "b"] threeFiles [.count, .items, .lookup "a"]
        (answers (CSharp.ReadFromFolderDict.access threeFiles ["a", "b"]) .empty
          [.count, .items, .lookup "a"]) ∧
      BehavesAsMap ["a", "b"] threeFiles [.count, .items, .lookup "a"]
        (answers (Python.LazyLoadDict.access threeFiles ["a", "b"]) .empty
          [.count, .items, .lookup "a"]) ∧
      BehavesAsMap ["a", "a"] threeFiles [.count, .keys, .lookup "payload"]
        (answers (Python.LazyLoadDict.access threeFiles ["a", "a"]) .empty
          [.count, .keys, .lookup "payload"]) := by
  obtain ⟨hcsharp, hpython⟩ :=
    @dataDependencies_map_iff threeFiles ["a", "b"] (by decide) [.count, .items, .lookup "a"]
  obtain ⟨-, htwice⟩ :=
    @dataDependencies_map_iff threeFiles ["a", "a"] (by decide) [.count, .keys, .lookup "payload"]
  exact ⟨hcsharp.mpr (by simp [FromList]), hpython, htwice⟩

/-- An id that comes twice is counted twice, and a file that is no dependency is found. -/
theorem dataDependencies_no_map :
    ¬BehavesAsMap ["a", "a"] threeFiles [.count]
        (answers (CSharp.ReadFromFolderDict.access threeFiles ["a", "a"]) .empty [.count]) ∧
      ¬BehavesAsMap ["a"] threeFiles [.lookup "payload"]
        (answers (CSharp.ReadFromFolderDict.access threeFiles ["a"]) .empty
          [.lookup "payload"]) := by
  have htwice : ∀ id ∈ ["a", "a"], threeFiles id ≠ none := by decide
  have honce : ∀ id ∈ ["a"], threeFiles id ≠ none := by decide
  constructor
  · rw [CSharp.ReadFromFolderDict.behavesAsMap_iff htwice]
    simp [FromList]
  · rw [CSharp.ReadFromFolderDict.behavesAsMap_iff honce]
    simp [FromList, threeFiles]

end ArmoniKApi
