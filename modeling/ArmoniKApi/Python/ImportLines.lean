import ArmoniKApi.Python.FixImports
import Mathlib.Data.List.Chain
import Mathlib.Data.List.TakeWhile

/-!
# The imports that are written

* `uppathLevels_relpath` and `downpath_relpath`: what is found in the text of a relative path.
* `replaceDots_from`: what the replacement of `from ...` leaves of the dots.
* `resolve_importLine_iff` and `resolve_fromLine_iff`: when a line that is written leads to the
  module that it is written for.
* `Written.not_matched`: it is not gone over again.

The script finds its way with texts: `os.path.relpath` gives a path, and what is
counted and taken apart is that path.  The first part of the module says what the path of
a directory below the root looks like, that is, so many `..` and then the way down:

```text
   ../../b/c        two levels up, then the way down through b and c
```

A number of dots is then written for the levels, and one replacement, of `from ...` by
`from ..`, goes over the whole line.  Of three dots or more, one goes.  When nothing but dots and
names stands in the line, no other place of it is hit.

## Strategy

A line is written, replaced, and read again by Python.  Each of the three is described by
what it does to the number of dots, so that the question whether the line leads to the right
module becomes one about numbers:

* `importLine_relpath`, `fromLine_relpath`: how many dots are written (`writtenDots`).
* `replaceDots_from`: how many of them are left (`dotsLeft`).
* `readRelative_from`, `resolve_replaceDots`: where a line with that many dots leads.
-/

namespace ArmoniKApi.Python.FixImports

open RelativePath (climb descent commonLength)

/-! ## Relative paths -/

/-- The way down, after a separator. -/
def below (names : List Text) : Text :=
  if names = [] then [] else '/' :: "/".toList.intercalate names

/-- The levels above the first. -/
def climbText : ℕ → Text → Text
  | 0, tail => tail
  | levels + 1, tail => '/' :: ("..".toList ++ climbText levels tail)

theorem intercalate_replicate (levels : ℕ) (names : List Text) :
    "/".toList.intercalate (List.replicate (levels + 1) "..".toList ++ names) =
      "..".toList ++ climbText levels (below names) := by
  induction levels with
  | zero =>
      cases names with
      | nil => rfl
      | cons name names => rfl
  | succ levels ih =>
      rw [List.replicate_succ, List.cons_append, List.intercalate_cons_of_ne_nil (by simp), ih]
      rfl

theorem split_climbText (levels : ℕ) {tail : Text} (htail : ¬"..".toList <:+: tail) :
    Separator.split "..".toList (climbText levels tail) =
      List.replicate levels "/".toList ++ [tail] := by
  induction levels with
  | zero => exact Separator.split_eq_singleton htail
  | succ levels ih =>
      have hslash : ¬"..".toList <+: '/' :: ("..".toList ++ climbText levels tail) := by
        intro hprefix
        exact absurd (List.cons_prefix_cons.mp hprefix).1 (by decide)
      rw [climbText, Separator.split_cons hslash, Separator.split_append (by decide), ih]
      rfl

/-- There are no two dots in a row in any of the names. -/
def NoDots (names : List Text) : Prop := ∀ name ∈ names, ¬"..".toList <:+: name

theorem NoDots.intercalate {names : List Text} (h : NoDots names) :
    ¬"..".toList <:+: "/".toList.intercalate names := by
  intro hfound
  obtain ⟨name, hname, hdots⟩ :=
    Separator.exists_of_infix_intercalate (by decide) (show '/' ∉ "..".toList by decide) hfound
  exact h name hname hdots

theorem NoDots.below {names : List Text} (h : NoDots names) : ¬"..".toList <:+: below names := by
  unfold FixImports.below
  split
  · exact fun hfound => absurd hfound.length_le (by decide)
  · intro hfound
    rcases List.infix_cons_iff.mp hfound with hstart | hlater
    · exact absurd (List.cons_prefix_cons.mp hstart).1 (by decide)
    · exact h.intercalate hlater

theorem noDots_of_isName {names : List Text} (h : ∀ name ∈ names, IsName name) : NoDots names :=
  fun name hname hfound =>
    (h name hname).dot_notMem (hfound.subset (show '.' ∈ "..".toList by decide))

theorem isName_of_mem_names {dir : Dir} {name : Text} (h : name ∈ dir.names) : IsName name := by
  obtain ⟨source, -, rfl⟩ := List.mem_map.mp h
  exact source.2

/-- The way down ends as the path does. -/
theorem descent_subset (path start : List Text) : descent path start ⊆ path :=
  (List.drop_sublist ..).subset

theorem isName_descent (path : Dir) (start : List Text) :
    ∀ name ∈ descent path.names start, IsName name :=
  fun _ hname => isName_of_mem_names (descent_subset _ _ hname)

section Relpath

variable {path start : List Text}

theorem relpath_of_climb {levels : ℕ} (h : climb path start = levels + 1) :
    relpath path start = "..".toList ++ climbText levels (below (descent path start)) := by
  rw [relpath, h, if_neg (by simp), intercalate_replicate]

/-- The pieces of a relative path. -/
theorem split_relpath (hdots : NoDots (descent path start)) :
    Separator.split "..".toList (relpath path start) =
      match climb path start with
      | 0 => [relpath path start]
      | levels + 1 =>
          [] :: (List.replicate levels "/".toList ++ [below (descent path start)]) := by
  cases hclimb : climb path start with
  | zero =>
      refine Separator.split_eq_singleton fun hfound => ?_
      rw [relpath, hclimb, List.replicate_zero, List.nil_append] at hfound
      split at hfound
      · exact absurd hfound.length_le (by decide)
      · exact hdots.intercalate hfound
  | succ levels =>
      rw [relpath_of_climb hclimb, Separator.split_append (by decide),
        split_climbText levels hdots.below]

/-- The number of levels is found. -/
theorem uppathLevels_relpath (hdots : NoDots (descent path start)) :
    uppathLevels (relpath path start) = climb path start := by
  rw [uppathLevels, Separator.count, split_relpath hdots]
  cases climb path start with
  | zero => rfl
  | succ levels => simp

end Relpath

/-- Two directories below the root have where the script runs in common. -/
theorem relpath_abspath (place : Place) (target dir : Dir) :
    relpath (place.abspath target) (place.abspath dir) = relpath target.names dir.names := by
  rw [relpath, Place.abspath, Place.abspath, RelativePath.climb_append,
    RelativePath.descent_append, relpath]

/-- A package, as it is written. -/
def dotted (names : List Text) : Text := ".".toList.intercalate names

theorem head?_dotted {names : List Text} (hnames : ∀ name ∈ names, IsName name) :
    (dotted names).head? ≠ some '.' := by
  cases names with
  | nil => simp [dotted]
  | cons name names =>
      obtain ⟨hname, -⟩ := List.forall_mem_cons.mp hnames
      obtain ⟨c, rest, rfl⟩ := List.exists_cons_of_ne_nil hname.ne_nil
      have hdot : c ≠ '.' := fun heq => hname.dot_notMem (heq ▸ List.mem_cons_self)
      cases names <;> simpa [dotted] using hdot

theorem dotted_ne_nil {names : List Text} (hnames : ∀ name ∈ names, IsName name)
    (hne : names ≠ []) : dotted names ≠ [] := by
  obtain ⟨name, names, rfl⟩ := List.exists_cons_of_ne_nil hne
  have hname := (hnames name List.mem_cons_self).ne_nil
  cases names <;> simp [dotted, hname]

theorem isSpace_dotted {names : List Text} (hnames : ∀ name ∈ names, IsName name) :
    ∀ c ∈ dotted names, isSpace c = false := by
  intro c hc
  rcases Separator.mem_or_of_mem_intercalate hc with hsep | ⟨name, hname, hmem⟩
  · rw [List.mem_singleton.mp hsep]
    rfl
  · exact (hnames name hname).isSpace_eq c hmem

theorem packageNames_dotted {names : List Text} (hnames : ∀ name ∈ names, IsName name) :
    packageNames (dotted names) = names := by
  by_cases hne : names = []
  · rw [hne]
    rfl
  · rw [packageNames, if_neg (dotted_ne_nil hnames hne), dotted]
    exact List.splitOn_intercalate '.' (fun name hname => (hnames name hname).dot_notMem) hne

/-- So is the way down, which begins with one more dot when there are levels above it. -/
theorem downpath_relpath {path start : List Text}
    (hnames : ∀ name ∈ descent path start, IsName name) :
    (if downpath (relpath path start) = ".".toList then [] else downpath (relpath path start)) =
      if climb path start = 0 ∨ descent path start = [] then dotted (descent path start)
      else '.' :: dotted (descent path start) := by
  -- the separators become dots, and in names there are none
  have hmap : ("/".toList.intercalate (descent path start)).map
      (fun c => if c = '/' ∨ c = '\\' then '.' else c) = dotted (descent path start) := by
    have hsame : (descent path start).map
        (List.map fun c => if c = '/' ∨ c = '\\' then '.' else c) = descent path start := by
      refine (List.map_congr_left fun name hname => ?_).trans (List.map_id _)
      have hname := hnames name hname
      refine (List.map_congr_left fun c hc => if_neg ?_).trans (List.map_id _)
      rintro (rfl | rfl)
      · exact hname.slash_notMem hc
      · exact hname.backslash_notMem hc
    rw [Separator.map_intercalate, hsame]
    rfl
  unfold downpath
  rw [split_relpath (noDots_of_isName hnames)]
  cases hclimb : climb path start with
  -- no level above: the path is the way down itself, or `.`
  | zero =>
      have hpath : relpath path start = if descent path start = [] then ".".toList
          else "/".toList.intercalate (descent path start) := by
        rw [relpath, hclimb]
        rfl
      by_cases hnil : descent path start = []
      · rw [hpath, if_pos hnil, hnil]
        rfl
      · simp only [hpath, if_neg hnil, List.getLastD_cons, List.getLastD_nil, hmap]
        rw [if_neg fun heq : dotted _ = ".".toList => head?_dotted hnames (by rw [heq]; rfl)]
        simp
  -- the way down is the last of the pieces between the `..`
  | succ levels =>
      have hlast : ([] :: (List.replicate levels "/".toList ++
          [below (descent path start)])).getLastD [] = below (descent path start) := by
        rw [List.getLastD_cons, List.getLastD_concat]
      simp only [hlast]
      by_cases hnil : descent path start = []
      · rw [hnil]
        rfl
      · rw [below, if_neg hnil, List.map_cons, hmap]
        simp [hnil, dotted_ne_nil hnames hnil]

/-! ## The line that is written -/

/-- No blank has a dot behind it. -/
def NoDotAfterBlank (text : Text) : Prop := text.IsChain fun a b => ¬(a = ' ' ∧ b = '.')

instance (text : Text) : Decidable (NoDotAfterBlank text) :=
  inferInstanceAs (Decidable (List.IsChain _ _))

theorem NoDotAfterBlank.not_found {text : Text} (h : NoDotAfterBlank text) :
    ¬" .".toList <:+: text := by
  rintro ⟨front, back, heq⟩
  have hpair : NoDotAfterBlank (front ++ ' ' :: '.' :: back) := by
    rwa [← heq, List.append_assoc] at h
  exact (List.isChain_append_cons_cons.mp hpair).2.1 ⟨rfl, rfl⟩

theorem noDotAfterBlank_of_notMem {text : Text} (h : ' ' ∉ text) : NoDotAfterBlank text := by
  induction text with
  | nil => exact .nil
  | cons a rest ih =>
      rw [List.mem_cons, not_or] at h
      exact List.isChain_cons.mpr ⟨fun b _ hab => h.1 hab.1.symm, ih h.2⟩

theorem NoDotAfterBlank.append {front back : Text} (hfront : NoDotAfterBlank front)
    (hback : NoDotAfterBlank back) (hhead : front.getLast? ≠ some ' ' ∨ back.head? ≠ some '.') :
    NoDotAfterBlank (front ++ back) := by
  refine List.isChain_append.mpr ⟨hfront, hback, fun a ha b hb hab => ?_⟩
  obtain ⟨rfl, rfl⟩ := hab
  rcases hhead with hlast | hhead
  · exact hlast ha
  · exact hhead hb

theorem not_infix_dots {rest : Text} (hrest : ¬" .".toList <:+: rest) (dots : ℕ) :
    ¬"from ...".toList <:+: List.replicate dots '.' ++ rest := by
  intro hfound
  have hnone : 'f' ∉ List.replicate dots '.' := fun hmem =>
    absurd (List.eq_of_mem_replicate hmem) (by decide)
  have hall : "from ...".toList <:+: rest := (Separator.infix_append_of_head hnone rest).mp hfound
  exact hrest ((show " .".toList <:+: "from ...".toList by decide).trans hall)

theorem head?_of_replicate_starts {a : Char} {few many : ℕ} (hlt : few < many) {rest : Text}
    (h : List.replicate many a <+: List.replicate few a ++ rest) : rest.head? = some a := by
  obtain ⟨more, rfl⟩ := Nat.exists_eq_add_of_lt hlt
  rw [Nat.add_assoc, List.replicate_add, List.prefix_append_right_inj] at h
  obtain ⟨back, rfl⟩ := h
  rfl

/-- Of three dots or more, one goes. -/
def dotsLeft (dots : ℕ) : ℕ := if 3 ≤ dots then dots - 1 else dots

theorem replaceDots_from {rest : Text} (hrest : ¬" .".toList <:+: rest)
    (hhead : rest.head? ≠ some '.') (dots : ℕ) :
    replaceDots ("from ".toList ++ (List.replicate dots '.' ++ rest)) =
      "from ".toList ++ (List.replicate (dotsLeft dots) '.' ++ rest) := by
  have hnone := not_infix_dots hrest
  unfold replaceDots dotsLeft
  split
  -- three dots or more: the first three are hit, and the others are not
  · rename_i hdots
    obtain ⟨more, rfl⟩ := Nat.exists_eq_add_of_le hdots
    have hmany : "from ".toList ++ (List.replicate (3 + more) '.' ++ rest) =
        "from ...".toList ++ (List.replicate more '.' ++ rest) := by
      rw [List.replicate_add, List.append_assoc, ← List.append_assoc]
      rfl
    have hfew : "from ".toList ++ (List.replicate (2 + more) '.' ++ rest) =
        "from ..".toList ++ (List.replicate more '.' ++ rest) := by
      rw [List.replicate_add, List.append_assoc, ← List.append_assoc]
      rfl
    rw [hmany, Separator.replace_append (by decide), Separator.replace_of_not_infix (hnone more),
      show 3 + more - 1 = 2 + more by omega, hfew]
  · rename_i hdots
    refine Separator.replace_of_not_infix (fun hfound => ?_) _
    -- fewer dots: there would have to be others, behind them or in the rest
    rcases List.infix_cons_iff.mp hfound with hprefix | hfound
    · have hthree : List.replicate 3 '.' <+: List.replicate dots '.' ++ rest :=
        (List.prefix_append_right_inj "from ".toList).mp hprefix
      exact hhead (head?_of_replicate_starts (by omega) hthree)
    · have hlater : "from ...".toList <:+: List.replicate dots '.' ++ rest :=
        (Separator.infix_append_of_head (show 'f' ∉ "rom ".toList by decide) _).mp hfound
      exact hnone dots hlater

/-! ## Reading it again -/

theorem takeWhile_append_of_head {p : Char → Bool} {front back : Text}
    (hfront : ∀ c ∈ front, p c = true) (hback : ∀ c ∈ back.head?, p c = false) :
    (front ++ back).takeWhile p = front := by
  rw [List.takeWhile_append_of_pos hfront]
  cases back with
  | nil => exact List.append_nil front
  | cons c back =>
      rw [List.takeWhile_cons_of_neg (by simp [hback c rfl]), List.append_nil]

theorem IsName.space_notMem {text : Text} (h : IsName text) : ' ' ∉ text := fun hmem =>
  absurd (h.isSpace_eq ' ' hmem) (by decide)

theorem IsName.head?_ne {text : Text} (h : IsName text) : text.head? ≠ some '.' := fun hhead =>
  h.dot_notMem (List.mem_of_mem_head? hhead)

/-- ` as name`, when there is another name. -/
def asClause (asName : Text) : Text := if asName = [] then [] else " as ".toList ++ asName

/-- What stands behind the dots. -/
def afterDots (package name asName : Text) : Text :=
  package ++ (" import ".toList ++ (name ++ (asClause asName ++ ['\n'])))

section Read

variable {package name asName : Text} (hpackage : ∀ c ∈ package, isSpace c = false)
  (hdot : package.head? ≠ some '.') (hname : IsName name) (hasName : asName = [] ∨ IsName asName)

include hname hasName in
theorem noDotAfterBlank_line : NoDotAfterBlank (name ++ (asClause asName ++ ['\n'])) := by
  have hend : NoDotAfterBlank (asClause asName ++ ['\n']) := by
    unfold asClause
    split
    · exact .singleton _
    · rename_i hne
      have hasName := hasName.resolve_left hne
      rw [List.append_assoc]
      refine .append (by decide) ?_ (.inr fun hhead => ?_)
      · exact (noDotAfterBlank_of_notMem hasName.space_notMem).append (.singleton _)
          (.inr (by decide))
      · rw [List.head?_append_of_ne_nil _ hasName.ne_nil] at hhead
        exact hasName.head?_ne hhead
  exact (noDotAfterBlank_of_notMem hname.space_notMem).append hend
    (.inl fun hlast => hname.space_notMem (List.mem_of_getLast? hlast))

include hpackage hname hasName in
theorem noDotAfterBlank_afterDots : NoDotAfterBlank (afterDots package name asName) := by
  have hspace : ' ' ∉ package := fun hmem => absurd (hpackage ' ' hmem) (by decide)
  have hline := noDotAfterBlank_line hname hasName
  have himport : NoDotAfterBlank (" import ".toList ++ (name ++ (asClause asName ++ ['\n']))) := by
    refine .append (by decide) hline (.inr fun hhead => ?_)
    rw [List.head?_append_of_ne_nil _ hname.ne_nil] at hhead
    exact hname.head?_ne hhead
  exact (noDotAfterBlank_of_notMem hspace).append himport
    (.inl fun hlast => hspace (List.mem_of_getLast? hlast))

include hdot in
theorem head?_afterDots : (afterDots package name asName).head? ≠ some '.' := by
  unfold afterDots
  cases package with
  | nil => simp
  | cons c package => simpa using hdot

include hpackage hdot hname hasName in
/-- The parts are found again. -/
theorem readRelative_from (dots : ℕ) :
    readRelative ("from ".toList ++ (List.replicate dots '.' ++ afterDots package name asName)) =
      some ⟨dots, packageNames package, name, if asName = [] then name else asName⟩ := by
  -- what is taken first are the dots, as none stands behind them
  have hdots : (List.replicate dots '.' ++ afterDots package name asName).takeWhile (· = '.') =
      List.replicate dots '.' := by
    refine takeWhile_append_of_head (fun c hc => ?_) fun c hc => ?_
    · exact decide_eq_true (List.eq_of_mem_replicate hc)
    · exact decide_eq_false fun heq => head?_afterDots hdot (heq ▸ hc)
  have hpath : (afterDots package name asName).takeWhile (fun c => !isSpace c) = package := by
    refine takeWhile_append_of_head (fun c hc => by simp [hpackage c hc]) fun c hc => ?_
    obtain rfl : ' ' = c := Option.some.inj hc
    rfl
  have hmodule : (name ++ (asClause asName ++ ['\n'])).takeWhile (fun c => !isSpace c) = name := by
    refine takeWhile_append_of_head (fun c hc => by simp [hname.isSpace_eq c hc]) fun c hc => ?_
    unfold asClause at hc
    split at hc
    · obtain rfl : '\n' = c := Option.some.inj hc
      rfl
    · obtain rfl : ' ' = c := Option.some.inj hc
      rfl
  have hfront : (List.replicate dots '.' ++ afterDots package name asName).drop dots =
      afterDots package name asName := List.drop_left' List.length_replicate
  have hafter : (afterDots package name asName).drop package.length =
      " import ".toList ++ (name ++ (asClause asName ++ ['\n'])) := List.drop_left
  have hend : (name ++ (asClause asName ++ ['\n'])).drop name.length = asClause asName ++ ['\n'] :=
    List.drop_left
  -- now the parts are taken one by one
  unfold readRelative
  rw [List.dropPrefix?_append_of_beq _ (beq_self_eq_true _)]
  simp only [Option.bind_eq_bind, Option.bind_some, hdots, List.length_replicate, hfront, hpath,
    hafter, List.dropPrefix?_append_of_beq _ (beq_self_eq_true _), hmodule, hend]
  -- `as name` is there or not
  rcases hasName with rfl | hasName
  · rfl
  · have hclause : asClause asName ++ ['\n'] = " as ".toList ++ (asName ++ ['\n']) := by
      rw [asClause, if_neg hasName.ne_nil, List.append_assoc]
    have hlast : (asName ++ ['\n']).takeWhile (fun c => !isSpace c) = asName := by
      refine takeWhile_append_of_head (fun c hc => by simp [hasName.isSpace_eq c hc]) fun c hc => ?_
      obtain rfl : '\n' = c := Option.some.inj hc
      rfl
    have hne : " as ".toList ++ (asName ++ ['\n']) ≠ ['\n'] := fun heq =>
      absurd (List.cons.inj heq).1 (by decide)
    rw [hclause, if_neg hne, if_neg hasName.ne_nil,
      List.dropPrefix?_append_of_beq _ (beq_self_eq_true _), Option.bind_some, hlast]

end Read

/-! ## Where the import leads -/

theorem length_names (dir : Dir) : dir.names.length = dir.length := List.length_map ..

section Resolve

variable {package name asName : Text} (hpackage : ∀ c ∈ package, isSpace c = false)
  (hdot : package.head? ≠ some '.') (hname : IsName name) (hasName : asName = [] ∨ IsName asName)

include hpackage hdot hname hasName in
theorem resolve_replaceDots {dir : Dir} {dots : ℕ} (hdots : 0 < dots)
    (hle : dotsLeft dots - 1 ≤ dir.length) :
    resolve dir (replaceDots ("from ".toList ++
        (List.replicate dots '.' ++ afterDots package name asName))) =
      some ⟨dir.names.take (dir.length - (dotsLeft dots - 1)) ++ packageNames package,
        name, if asName = [] then name else asName⟩ := by
  have hblank := (noDotAfterBlank_afterDots hpackage hname hasName).not_found
  have hpos : dotsLeft dots ≠ 0 := by
    unfold dotsLeft
    split <;> omega
  rw [replaceDots_from hblank (head?_afterDots hdot), resolve,
    readRelative_from hpackage hdot hname hasName]
  simp only [Option.bind_eq_bind, Option.bind_some, hpos, false_or, Nat.not_lt.mpr hle, if_false]

include hpackage hdot hname hasName in
theorem resolve_eq_none {dir : Dir} {dots : ℕ} (hlt : dir.length < dotsLeft dots - 1) :
    resolve dir (replaceDots ("from ".toList ++
      (List.replicate dots '.' ++ afterDots package name asName))) = none := by
  have hblank := (noDotAfterBlank_afterDots hpackage hname hasName).not_found
  rw [replaceDots_from hblank (head?_afterDots hdot), resolve,
    readRelative_from hpackage hdot hname hasName]
  simp only [Option.bind_eq_bind, Option.bind_some, hlt, or_true, if_true]

end Resolve

/-- The dots before one of them goes: the one that stands in any case, one for each level, and one
before the way down from above. -/
def writtenDots (target dir : List Text) : ℕ :=
  if climb target dir = 0 ∨ descent target dir = [] then climb target dir + 1
  else climb target dir + 2

theorem importLine_relpath {target dir : List Text}
    (hnames : ∀ name ∈ descent target dir, IsName name) (name asName : Text) :
    importLine (relpath target dir) name asName =
      replaceDots ("from ".toList ++ (List.replicate (writtenDots target dir) '.' ++
        afterDots (dotted (descent target dir)) name asName)) := by
  rw [importLine, uppathLevels_relpath (noDots_of_isName hnames), downpath_relpath hnames]
  refine congrArg replaceDots ?_
  unfold writtenDots
  split
  · rw [List.replicate_succ]
    simp only [afterDots, asClause, List.append_assoc, List.cons_append]
    rfl
  · rw [List.replicate_succ, List.replicate_succ']
    simp only [afterDots, asClause, List.append_assoc, List.cons_append, List.nil_append]
    rfl

theorem dotsLeft_of_descent {target dir : List Text} (h : descent target dir ≠ []) :
    dotsLeft (writtenDots target dir) = climb target dir + 1 := by
  by_cases hclimb : climb target dir = 0
  · have hwritten : writtenDots target dir = climb target dir + 1 := if_pos (.inl hclimb)
    rw [dotsLeft, hwritten, if_neg (by omega)]
  · have hwritten : writtenDots target dir = climb target dir + 2 :=
      if_neg (not_or.mpr ⟨hclimb, h⟩)
    rw [dotsLeft, hwritten, if_pos (by omega)]
    rfl

theorem dotsLeft_of_above {target dir : List Text} (h : descent target dir = []) :
    dotsLeft (writtenDots target dir) =
      if 2 ≤ climb target dir then climb target dir else climb target dir + 1 := by
  have hwritten : writtenDots target dir = climb target dir + 1 := if_pos (.inr h)
  rw [dotsLeft, hwritten]
  split <;> split <;> omega

/-- The line for `import` leads to the module, unless this is in a directory two levels above or
more: then it leads to the directory below that one. -/
theorem resolve_importLine_iff {name asName : Text} (hname : IsName name)
    (hasName : asName = [] ∨ IsName asName) (place : Place) (target dir : Dir) :
    resolve dir (importLine (relpath (place.abspath target) (place.abspath dir)) name asName) =
        some ⟨target.names, name, if asName = [] then name else asName⟩ ↔
      ¬(target.names <+: dir.names ∧ target.length + 2 ≤ dir.length) := by
  have hnames := isName_descent target dir.names
  have hlength := length_names dir
  have hclimb : climb target.names dir.names ≤ dir.length := by
    rw [← hlength]
    exact Nat.sub_le ..
  have hwritten : 0 < writtenDots target.names dir.names := by
    unfold writtenDots
    split <;> exact Nat.succ_pos _
  have hleft : dotsLeft (writtenDots target.names dir.names) - 1 ≤ dir.length := by
    by_cases hnil : descent target.names dir.names = []
    · rw [dotsLeft_of_above hnil]
      split <;> omega
    · rw [dotsLeft_of_descent hnil]
      exact hclimb
  have hback := RelativePath.take_append_descent target.names dir.names
  rw [hlength] at hback
  rw [relpath_abspath, importLine_relpath hnames, resolve_replaceDots (isSpace_dotted hnames)
    (head?_dotted hnames) hname hasName hwritten hleft, packageNames_dotted hnames]
  -- straight above, or down again from somewhere above
  by_cases hnil : descent target.names dir.names = []
  · have hwithin := (RelativePath.descent_eq_nil_iff target.names dir.names).mp hnil
    have hlevels := RelativePath.climb_of_within hwithin
    rw [hlength, length_names] at hlevels
    rw [dotsLeft_of_above hnil]
    -- from two levels on the replacement takes one of the dots away
    by_cases hfar : 2 ≤ climb target.names dir.names
    · refine iff_of_false (fun heq => ?_) fun hnot => hnot ⟨hwithin, by omega⟩
      have hdirs := congrArg (fun i : Import => i.dir.length) (Option.some.inj heq)
      simp only [hnil, if_pos hfar, List.append_nil, length_names, List.length_take] at hdirs
      omega
    · refine iff_of_true ?_ fun h => hfar (by omega)
      rw [if_neg hfar, Nat.add_sub_cancel, hback]
  · rw [dotsLeft_of_descent hnil, Nat.add_sub_cancel, hback]
    exact iff_of_true rfl fun h =>
      hnil ((RelativePath.descent_eq_nil_iff target.names dir.names).mpr h.1)

section From

variable {package name : Text} (hpackage : ∀ c ∈ package, isSpace c = false)
  (hdot : package.head? ≠ some '.') (hname : IsName name)

theorem Place.noDots_descent (place : Place) (start : List Text) :
    NoDots (descent place.root start) :=
  fun name hname => place.not_dots name (descent_subset _ _ hname)

theorem fromLine_relpath (place : Place) (start : List Text) (package name : Text) :
    fromLine (relpath place.root start) package name =
      replaceDots ("from ".toList ++ (List.replicate (climb place.root start + 1) '.' ++
        afterDots package name [])) := by
  rw [fromLine, uppathLevels_relpath (place.noDots_descent start), List.replicate_succ]
  simp only [afterDots, asClause, List.append_assoc, List.cons_append]
  rfl

/-- The levels from a file to the root of the tree are those that are written for it.  Written are
the levels from where the file would be, if the tree were where the script runs, to the root, and
of two or more of them one goes. -/
def Place.Reaches (place : Place) (dir : Dir) : Prop :=
  commonLength place.root (place.abspath dir) = place.cwd.length ∧ dir.length ≤ 1 ∨
    commonLength place.root (place.abspath dir) + 1 = place.cwd.length ∧ 1 ≤ dir.length

include hpackage hdot hname in
/-- The line for `from` leads to the module, if the levels are right. -/
theorem resolve_fromLine_iff (place : Place) (dir : Dir) :
    resolve dir (fromLine (relpath place.root (place.abspath dir)) package name) =
        some ⟨packageNames package, name, name⟩ ↔ place.Reaches dir := by
  have hclimb := RelativePath.climb_add_commonLength place.root (place.abspath dir)
  have hlength : (place.abspath dir).length = place.cwd.length + dir.length := by
    rw [Place.abspath, List.length_append, length_names]
  have hleft : dotsLeft (climb place.root (place.abspath dir) + 1) =
      if 2 ≤ climb place.root (place.abspath dir) then climb place.root (place.abspath dir)
      else climb place.root (place.abspath dir) + 1 := by
    rw [dotsLeft]
    split <;> split <;> omega
  have hreaches : place.Reaches dir ↔
      dotsLeft (climb place.root (place.abspath dir) + 1) - 1 = dir.length := by
    rw [hleft, Place.Reaches]
    split <;> omega
  rw [fromLine_relpath, hreaches]
  by_cases hle : dotsLeft (climb place.root (place.abspath dir) + 1) - 1 ≤ dir.length
  · rw [resolve_replaceDots hpackage hdot hname (.inl rfl) (Nat.add_one_pos _) hle,
      Option.some.injEq, Import.mk.injEq, List.append_left_eq_self, List.take_eq_nil_iff,
      ← List.length_eq_zero_iff, length_names]
    simp only [if_true, and_true]
    omega
  · -- it leads out of the tree
    refine iff_of_false (fun hsome => ?_) fun heq => hle heq.le
    rw [resolve_eq_none hpackage hdot hname (.inl rfl) (Nat.not_le.mp hle)] at hsome
    cases hsome

end From

/-! ## What becomes of a line -/

theorem matchFrom_eq_some {line package name : Text} (h : matchFrom line = some (package, name)) :
    (∀ c ∈ package, isSpace c = false) ∧ package.head? ≠ some '.' := by
  unfold matchFrom at h
  simp only [Option.bind_eq_bind, Option.bind_eq_some_iff, Option.ite_none_right_eq_some,
    Option.some.injEq, Prod.mk.injEq] at h
  obtain ⟨_, -, _, -, _, -, _, -, _, -, _, -, ⟨-, hdot, -⟩, rfl, -⟩ := h
  refine ⟨fun c hc => ?_, hdot⟩
  simpa using List.mem_takeWhile_imp hc

/-- A line that is written. -/
inductive Written : Text → Prop
  | mk {dots : ℕ} {package name asName : Text} (hdots : 0 < dots)
    (hpackage : ∀ c ∈ package, isSpace c = false) (hdot : package.head? ≠ some '.')
    (hname : IsName name) (hasName : asName = [] ∨ IsName asName) :
    Written ("from ".toList ++ (List.replicate dots '.' ++ afterDots package name asName))

/-- A line that is written is not gone over again. -/
theorem Written.not_matched {line : Text} (h : Written line) :
    matchImport line = none ∧ matchFrom line = none := by
  obtain ⟨hdots, -, -, -, -⟩ := h
  rename_i dots package name asName
  obtain ⟨dots, rfl⟩ := Nat.exists_eq_succ_of_ne_zero hdots.ne'
  refine ⟨rfl, ?_⟩
  by_contra hsome
  obtain ⟨parts, hparts⟩ := Option.ne_none_iff_exists'.mp hsome
  unfold matchFrom at hparts
  simp only [Option.bind_eq_bind, Option.bind_eq_some_iff, Option.ite_none_right_eq_some] at hparts
  obtain ⟨line, hline, rest, hrest, _, -, _, -, _, -, _, -, ⟨-, hdot, -⟩, -⟩ := hparts
  have hfrom : some (' ' :: (List.replicate (dots + 1) '.' ++ afterDots package name asName)) =
      some line := hline
  obtain rfl := Option.some.inj hfrom
  have hblank : some (List.replicate (dots + 1) '.' ++ afterDots package name asName) =
      some rest := hrest
  obtain rfl := Option.some.inj hblank
  exact hdot rfl

end ArmoniKApi.Python.FixImports
