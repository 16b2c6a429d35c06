import ArmoniKApi.Cpp.StringView
import ArmoniKApi.Cpp.TaskHandler

/-!
# Joining the data folder and the id of a result

`pathJoin` trims both of its texts, and looks at the last character of the first one to
see whether a separator is missing.

* A folder of blanks is trimmed to nothing, and the index of its last character wraps
  (`lastAccess`).
* Ids that differ only in the blanks around them are trimmed to the same text, and their
  files are the same.

`pathJoin_iff` says that the paths are right everywhere else.

Trimming is what makes the function go wrong, and the proofs are about what it leaves:
`TrimOf` says that a text is its trimmed self between blanks, and that the trimmed text begins
and ends with no blank, or is empty.

```text
trimmed folder         path
empty                  the access is out of range
ends in a separator    the folder, then the id
anything else          the folder, a separator, then the id
```

`Joined` covers the last two lines at once, by way of the folder without the separator at its
end (`FolderBase`).  The id is trimmed as well, so two ids are told apart in the path just if
they differ in more than the blanks around them.
-/

namespace ArmoniKApi.Cpp

/-! ## The access to the last character -/

/-- `tmp[tmp.length() - 1]`, with an index that wraps. -/
def lastAccess (tmp : List Char) : Option Char :=
  tmp[(UInt64.ofNat tmp.length - 1).toNat]?

/-- It is out of range just when the string is empty. -/
theorem lastAccess_isSome_iff (tmp : List Char) : (lastAccess tmp).isSome ↔ tmp ≠ [] := by
  rw [lastAccess, ← Option.ne_none_iff_isSome, Ne, List.getElem?_eq_none_iff, UInt64.toNat_sub,
    UInt64.toNat_ofNat', ← List.length_pos_iff]
  show ¬tmp.length ≤
    (18446744073709551616 - 1 + tmp.length % 18446744073709551616) % 18446744073709551616 ↔ _
  omega

/-! ## Trimming -/

/-- What is left of a text without the blanks around it. -/
structure TrimOf (text trimmed : List Char) : Prop where
  parts : ∃ front back, text = front ++ trimmed ++ back ∧ (∀ c ∈ front, isSpace c) ∧
    ∀ c ∈ back, isSpace c
  first : ∀ c ∈ trimmed.head?, isSpace c = false
  last : ∀ c ∈ trimmed.getLast?, isSpace c = false

theorem head?_dropWhile_isSpace {s : List Char} {c : Char} (hc : c ∈ (s.dropWhile isSpace).head?) :
    isSpace c = false := by
  have hnot := List.head?_dropWhile_not isSpace s
  rw [Option.mem_def] at hc
  rw [hc] at hnot
  exact hnot

theorem trimOf_trimCopy (text : List Char) : TrimOf text (trimCopy text) := by
  refine ⟨trimCopy_parts text, fun c hc => head?_dropWhile_isSpace hc, ?_⟩
  intro c hc
  -- the last character is one that the first pass has kept
  have hsuffix : trimCopy text <:+ (text.reverse.dropWhile isSpace).reverse :=
    List.dropWhile_suffix isSpace
  obtain ⟨front, hfront⟩ := hsuffix
  refine head?_dropWhile_isSpace (s := text.reverse) ?_
  rw [← List.getLast?_reverse, ← hfront, Option.mem_def, List.getLast?_append, hc]
  rfl

/-! ## The joined path -/

/-- A folder without the separator at its end, if it has one. -/
def FolderBase (folder base : List Char) : Prop :=
  folder = base ∧ base.getLast? ≠ some '/' ∨ folder = base ++ ['/']

/-- The folder, one separator and the id. -/
def Joined (p1 p2 path : String) : Prop :=
  ∃ folder id base, TrimOf p1.toList folder ∧ TrimOf p2.toList id ∧ FolderBase folder base ∧
    path.toList = base ++ '/' :: id

theorem exists_folderBase {p1 : String} (hfolder : trimCopy p1.toList ≠ []) :
    ∃ base, FolderBase (trimCopy p1.toList) base ∧
      ∀ p2, pathJoin p1 p2 = some (String.ofList (base ++ '/' :: trimCopy p2.toList)) := by
  have hsplit := (List.dropLast_concat_getLast hfolder).symm
  have hlast := List.getLast?_eq_some_getLast hfolder
  unfold pathJoin
  by_cases hslash : (trimCopy p1.toList).getLast hfolder = '/'
  · rw [hslash] at hsplit
    refine ⟨_, .inr hsplit, fun p2 => ?_⟩
    rw [hlast, hslash]
    conv_lhs => simp only [ne_eq, not_true_eq_false, if_false]; rw [hsplit]
    rw [List.append_assoc, List.singleton_append]
  · refine ⟨_, .inl ⟨rfl, ?_⟩, fun p2 => ?_⟩
    · rw [hlast]
      exact fun h => hslash (Option.some.inj h)
    · rw [hlast]
      simp only [ne_eq, hslash, not_false_eq_true, if_true]
      rw [List.append_assoc, List.singleton_append]

theorem pathJoin_blank {p1 : String} (hblank : trimCopy p1.toList = []) (p2 : String) :
    pathJoin p1 p2 = none := by
  rw [pathJoin, hblank]
  rfl

/-- The paths of two ids are right: nothing is read out of range, each path is the folder and
the id with one separator between them, and different ids have different paths. -/
structure RightPaths (p1 p2 other : String) : Prop where
  inRange : (lastAccess (trimCopy p1.toList)).isSome
  joined : ∃ path path', pathJoin p1 p2 = some path ∧ pathJoin p1 other = some path' ∧
    Joined p1 p2 path ∧ Joined p1 other path' ∧ (p2 ≠ other → path ≠ path')

/-- They are right just when the folder is not blank, and the ids differ in more than the
blanks around them. -/
theorem pathJoin_iff (p1 p2 other : String) :
    RightPaths p1 p2 other ↔
      trimCopy p1.toList ≠ [] ∧ (trimCopy p2.toList = trimCopy other.toList → p2 = other) := by
  by_cases hfolder : trimCopy p1.toList = []
  · refine iff_of_false (fun hright => ?_) fun h => h.1 hfolder
    exact (lastAccess_isSome_iff _).mp hright.inRange hfolder
  · obtain ⟨base, hbase, hjoin⟩ := exists_folderBase hfolder
    have hjoined : ∀ id, Joined p1 id (String.ofList (base ++ '/' :: trimCopy id.toList)) :=
      fun id => ⟨_, _, base, trimOf_trimCopy _, trimOf_trimCopy _, hbase, String.toList_ofList⟩
    constructor
    · rintro ⟨-, path, path', hpath, hpath', -, -, hdistinct⟩
      refine ⟨hfolder, fun htrim => ?_⟩
      by_contra hne
      rw [hjoin, Option.some.injEq] at hpath hpath'
      rw [← hpath, ← hpath', htrim] at hdistinct
      exact hdistinct hne rfl
    · rintro ⟨-, hdistinct⟩
      refine ⟨(lastAccess_isSome_iff _).mpr hfolder, _, _, hjoin p2, hjoin other, hjoined p2,
        hjoined other, fun hne hsame => hne (hdistinct ?_)⟩
      have hlists := String.ofList_injective hsame
      exact (List.cons.inj (List.append_cancel_left hlists)).2

/-- A folder without a name, and two ids with one file. -/
theorem pathJoin_wrong :
    ¬RightPaths "" "result" "other" ∧ ¬RightPaths "/data" "result" "result " := by
  constructor
  · intro hright
    exact absurd hright.inRange (by decide)
  · intro hright
    obtain ⟨path, path', hpath, hpath', -, -, hdistinct⟩ := hright.joined
    have hfirst : pathJoin "/data" "result" = some "/data/result" := by decide +kernel
    have hsecond : pathJoin "/data" "result " = some "/data/result" := by decide +kernel
    rw [hfirst, Option.some.injEq] at hpath
    rw [hsecond, Option.some.injEq] at hpath'
    exact hdistinct (by decide) (hpath.symm.trans hpath')

end ArmoniKApi.Cpp
