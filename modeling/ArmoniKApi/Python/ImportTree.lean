import ArmoniKApi.Library.Fallible
import ArmoniKApi.Python.ImportLines

/-!
# Fixing the imports of a tree of modules

* `fixProtobufImports_keeps_iff`: a line imports afterwards what it stood for, as long as nothing
  is imported from a directory two levels above or more, and every other line is kept.
* `fixProtobufImports_idempotent`: a second run changes nothing.

Both are about trees whose lines are `Proper`: what is rewritten has names where names belong.
The lines that the generator writes are, and so are those that the script does not rewrite,
whatever they say: `from google.protobuf import timestamp_pb2 as ...__pb2` ends in `_pb2` and has
the form, but there is no directory `google/protobuf` below the root.

## What goes wrong

```text
   the line                what is wrong
   "import x_pb2"          x lies on the way to the file, two levels above it or more
   "from a import x_pb2"   the file is not where the levels to the root are written for it
```

These two are `Misread`, and `fixProtobufImports_keeps_iff` says that nothing else is.  In a
tree of one level, with the script run on the way to the root, neither of them happens
(`not_misread_of_flat`).

## Strategy

* A line is looked at alone: it is left as it is, or written in one of two ways (`Fixed`),
  and what is written is never gone over again (`Written.not_matched`, `Fixed.untouched`).
* A text is the lines that `readlines` finds in it.  A line that is written contains no end of
  a line, so the lines of the new text are the new lines (`AreLines`).
* A run goes over the files in order (`lines_of_fix`, `exists_fix_file_iff`).  Which files these
  are depends on the paths alone, and the paths stay (`isListed_congr`), so a second run goes
  over the same files.
-/

namespace ArmoniKApi.Python.FixImports

open RelativePath (commonLength)

theorem written_importLine {name asName : Text} (hname : IsName name)
    (hasName : asName = [] ∨ IsName asName) (place : Place) (target dir : Dir) :
    Written (importLine (relpath (place.abspath target) (place.abspath dir)) name asName) := by
  have hnames := isName_descent target dir.names
  have hblank := noDotAfterBlank_afterDots (isSpace_dotted hnames) hname hasName
  rw [relpath_abspath, importLine_relpath hnames,
    replaceDots_from hblank.not_found (head?_afterDots (head?_dotted hnames))]
  refine .mk ?_ (isSpace_dotted hnames) (head?_dotted hnames) hname hasName
  unfold dotsLeft writtenDots
  split <;> split <;> omega

theorem written_fromLine {package name : Text} (hpackage : ∀ c ∈ package, isSpace c = false)
    (hdot : package.head? ≠ some '.') (hname : IsName name) (place : Place) (start : List Text) :
    Written (fromLine (relpath place.root start) package name) := by
  have hblank := noDotAfterBlank_afterDots hpackage hname (.inl rfl)
  rw [fromLine_relpath, replaceDots_from hblank.not_found (head?_afterDots hdot)]
  refine .mk ?_ hpackage hdot hname (.inl rfl)
  unfold dotsLeft
  split <;> omega

section Line

variable (place : Place) (hasPath : Text → Bool) (files : List File)

/-- `package` leads somewhere from the root. -/
def Leads (package : Text) : Prop := hasPath (package.map fun c => if c = '.' then '/' else c)

/-- The names in a line that is rewritten are names. -/
structure Proper (line : Text) : Prop where
  import_names : ∀ name asName, matchImport line = some (name, asName) →
    IsName name ∧ (asName = [] ∨ IsName asName)
  from_name : ∀ package name, matchFrom line = some (package, name) → Leads hasPath package →
    IsName name

/-- What can become of a line. -/
inductive Fixed (dir : Dir) (line : Text) : Text → Prop
  | imported {name asName : Text} {file : File} (hline : matchImport line = some (name, asName))
    (hfile : pyFilesDictionary files name = some file) :
    Fixed dir line (importLine (relpath (place.abspath file.dir) (place.abspath dir)) name asName)
  | fromPackage {package name : Text} (himport : matchImport line = none)
    (hline : matchFrom line = some (package, name)) (hleads : Leads hasPath package) :
    Fixed dir line (fromLine (relpath place.root (place.abspath dir)) package name)
  | other (himport : matchImport line = none)
    (hfrom : ∀ package name, matchFrom line = some (package, name) → ¬Leads hasPath package) :
    Fixed dir line line

variable {place hasPath files} {dir : Dir} {line fixed : Text}

theorem fixed_of_fix (h : fixProtobufImportInLine place hasPath files dir line = .ok fixed) :
    Fixed place hasPath files dir line fixed := by
  unfold fixProtobufImportInLine at h
  cases himport : matchImport line with
  -- `import` is matched first, so that only the other lines are matched with `from`
  | some parts =>
      obtain ⟨name, asName⟩ := parts
      cases hfile : pyFilesDictionary files name with
      | none => simp [himport, hfile] at h
      | some file =>
          simp only [himport, hfile, Except.ok.injEq] at h
          exact h ▸ .imported himport hfile
  | none =>
      simp only [himport] at h
      cases hfrom : matchFrom line with
      | none =>
          simp only [hfrom, Except.ok.injEq] at h
          refine h ▸ .other himport fun _ _ hsome => ?_
          exact absurd (hfrom ▸ hsome) (Option.some_ne_none _).symm
      | some parts =>
          obtain ⟨package, name⟩ := parts
          simp only [hfrom] at h
          split at h
          · rename_i hleads
            exact Except.ok.inj h ▸ .fromPackage himport hfrom hleads
          · rename_i hleads
            refine Except.ok.inj h ▸ .other himport fun other _ hsome => ?_
            obtain ⟨rfl, -⟩ := Prod.mk.inj (Option.some.inj (hfrom.symm.trans hsome))
            exact hleads

/-- The line is left alone. -/
def Untouched (hasPath : Text → Bool) (line : Text) : Prop :=
  matchImport line = none ∧
    ∀ package name, matchFrom line = some (package, name) → ¬Leads hasPath package

theorem Untouched.fix (h : Untouched hasPath line) (others : List File) :
    fixProtobufImportInLine place hasPath others dir line = .ok line := by
  unfold fixProtobufImportInLine
  rw [h.1]
  cases hline : matchFrom line with
  | none => rfl
  | some parts => exact if_neg (h.2 parts.1 parts.2 hline)

theorem Written.untouched (h : Written line) : Untouched hasPath line := by
  obtain ⟨himport, hfrom⟩ := h.not_matched
  refine ⟨himport, fun _ _ hsome => ?_⟩
  rw [hfrom] at hsome
  exact absurd hsome (Option.some_ne_none _).symm

theorem Fixed.written_or_eq (h : Fixed place hasPath files dir line fixed)
    (hproper : Proper hasPath line) : Written fixed ∨ fixed = line ∧ Untouched hasPath line := by
  cases h with
  | imported hline hfile =>
      obtain ⟨hname, hasName⟩ := hproper.import_names _ _ hline
      exact .inl (written_importLine hname hasName ..)
  | fromPackage himport hline hleads =>
      obtain ⟨hpackage, hdot⟩ := matchFrom_eq_some hline
      exact .inl (written_fromLine hpackage hdot (hproper.from_name _ _ hline hleads) ..)
  | other himport hfrom => exact .inr ⟨rfl, himport, hfrom⟩

/-- What has become of a line is left alone. -/
theorem Fixed.untouched (h : Fixed place hasPath files dir line fixed)
    (hproper : Proper hasPath line) : Untouched hasPath fixed := by
  rcases h.written_or_eq hproper with hwritten | ⟨rfl, hline⟩
  · exact hwritten.untouched
  · exact hline

variable (place hasPath files dir)

/-- What a line stands for: the module of that name, wherever it is, or the one in a package of
the root. -/
def meant (line : Text) : Option Import :=
  match matchImport line with
  | some (name, asName) =>
      (pyFilesDictionary files name).map fun file =>
        ⟨file.dir.names, name, if asName = [] then name else asName⟩
  | none =>
      match matchFrom line with
      | some (package, name) =>
          if hasPath (package.map fun c => if c = '.' then '/' else c) then
            some ⟨packageNames package, name, name⟩
          else none
      | none => none

/-- The line imports what it stood for, or it is the same. -/
def Kept (line fixed : Text) : Prop :=
  match meant hasPath files line with
  | some target => resolve dir fixed = some target
  | none => fixed = line

/-- An import from two levels above or more, or one from a package of the root, in a file where it
is not written with the levels to the root. -/
inductive Misread (line : Text) : Prop
  | imported {name asName : Text} {file : File} (hline : matchImport line = some (name, asName))
    (hfile : pyFilesDictionary files name = some file) (habove : file.dir.names <+: dir.names)
    (hfar : file.dir.length + 2 ≤ dir.length)
  | fromPackage {package name : Text} (himport : matchImport line = none)
    (hline : matchFrom line = some (package, name)) (hleads : Leads hasPath package)
    (hdeep : ¬place.Reaches dir)

variable {place hasPath files dir}

theorem Fixed.kept_iff (h : Fixed place hasPath files dir line fixed)
    (hproper : Proper hasPath line) :
    Kept hasPath files dir line fixed ↔ ¬Misread place hasPath files dir line := by
  cases h with
  -- `import name` of a module of the tree
  | @imported name asName file hline hfile =>
      obtain ⟨hname, hasName⟩ := hproper.import_names _ _ hline
      have hmeant : meant hasPath files line =
          some ⟨file.dir.names, name, if asName = [] then name else asName⟩ := by
        simp [meant, hline, hfile]
      rw [Kept, hmeant]
      refine (resolve_importLine_iff hname hasName place file.dir dir).trans (not_congr ?_)
      refine ⟨fun hfar => .imported hline hfile hfar.1 hfar.2, fun hmisread => ?_⟩
      cases hmisread with
      | imported hother hothers habove hfar =>
          obtain ⟨rfl, -⟩ := Prod.mk.inj (Option.some.inj (hline.symm.trans hother))
          obtain rfl := Option.some.inj (hfile.symm.trans hothers)
          exact ⟨habove, hfar⟩
      | fromPackage himport => exact absurd (hline.symm.trans himport) (Option.some_ne_none _)
  -- `from package import name`, where the package is one of the root
  | @fromPackage package name himport hline hleads =>
      obtain ⟨hpackage, hdot⟩ := matchFrom_eq_some hline
      have hmeant : meant hasPath files line = some ⟨packageNames package, name, name⟩ := by
        simp only [meant, himport, hline]
        exact if_pos hleads
      rw [Kept, hmeant]
      have hname := hproper.from_name _ _ hline hleads
      refine (resolve_fromLine_iff hpackage hdot hname place dir).trans ?_
      refine ⟨fun hflat hmisread => ?_, fun hnot => ?_⟩
      · cases hmisread with
        | imported hother => exact absurd (hother.symm.trans himport) (Option.some_ne_none _)
        | fromPackage _ _ _ hdeep => exact hdeep hflat
      · by_contra hdeep
        exact hnot (.fromPackage himport hline hleads hdeep)
  -- no name of the tree is imported: the line stays, and there is nothing to misread
  | other himport hfrom =>
      have hmeant : meant hasPath files line = none := by
        simp only [meant, himport]
        cases hline : matchFrom line with
        | none => rfl
        | some parts => exact if_neg (hfrom parts.1 parts.2 hline)
      rw [Kept, hmeant]
      refine iff_of_true rfl fun hmisread => ?_
      cases hmisread with
      | imported hline => exact absurd (hline.symm.trans himport) (Option.some_ne_none _)
      | fromPackage _ hline hleads => exact hfrom _ _ hline hleads

end Line

/-! ## The lines of a text -/

/-- Lines with their ends, which the last one may lack. -/
inductive AreLines : List Text → Prop
  | nil : AreLines []
  | last {line : Text} (hne : line ≠ []) (hline : '\n' ∉ line) : AreLines [line]
  | cons {line : Text} {lines : List Text} (hline : '\n' ∉ line) (hlines : AreLines lines) :
      AreLines ((line ++ ['\n']) :: lines)

theorem readlines_append {line : Text} (hline : '\n' ∉ line) (rest : Text) :
    readlines (line ++ '\n' :: rest) = (line ++ ['\n']) :: readlines rest := by
  induction line with
  | nil => rfl
  | cons c line ih =>
      rw [List.mem_cons, not_or] at hline
      rw [List.cons_append, readlines, ih hline.2]
      · rfl
      · exact fun heq => hline.1 heq.symm

theorem readlines_of_notMem {line : Text} (hne : line ≠ []) (hline : '\n' ∉ line) :
    readlines line = [line] := by
  induction line with
  | nil => exact absurd rfl hne
  | cons c line ih =>
      rw [List.mem_cons, not_or] at hline
      rw [readlines]
      · cases line with
        | nil => rfl
        | cons d line => rw [ih (List.cons_ne_nil d line) hline.2]
      · exact fun heq => hline.1 heq.symm

theorem AreLines.readlines_flatten {lines : List Text} (h : AreLines lines) :
    readlines lines.flatten = lines := by
  induction h with
  | nil => rfl
  | last hne hline => rw [List.flatten_singleton, readlines_of_notMem hne hline]
  | cons hline _ ih =>
      rw [List.flatten_cons, List.append_assoc, List.singleton_append, readlines_append hline, ih]

theorem areLines_readlines (text : Text) : AreLines (readlines text) := by
  fun_induction readlines text with
  | case1 => exact .nil
  | case2 rest ih => exact .cons List.not_mem_nil ih
  | case3 c rest hc hnil ih =>
      exact .last (List.cons_ne_nil c []) fun hmem => hc (List.mem_singleton.mp hmem).symm
  | case4 c rest hc line lines hlines ih =>
      rw [hlines] at ih
      have hnot {text : Text} (htext : '\n' ∉ text) : '\n' ∉ c :: text := by
        rw [List.mem_cons, not_or]
        exact ⟨fun heq => hc heq.symm, htext⟩
      cases ih with
      | last _ hline => exact .last (List.cons_ne_nil _ _) (hnot hline)
      | cons hline hrest => exact .cons (hnot hline) hrest

theorem flatten_readlines (text : Text) : (readlines text).flatten = text := by
  fun_induction readlines text with
  | case1 => rfl
  | case2 rest ih => rw [List.flatten_cons, ih, List.singleton_append]
  | case3 c rest hc hnil ih =>
      rw [hnil] at ih
      rw [← ih]
      rfl
  | case4 c rest hc line lines hlines ih =>
      rw [hlines] at ih
      rw [← ih]
      rfl

theorem Written.exists_line {line : Text} (h : Written line) :
    ∃ body, '\n' ∉ body ∧ line = body ++ ['\n'] := by
  obtain ⟨-, hpackage, -, hname, hasName⟩ := h
  rename_i dots package name asName
  refine ⟨"from ".toList ++ (List.replicate dots '.' ++
    (package ++ (" import ".toList ++ (name ++ asClause asName)))), ?_, ?_⟩
  · have hclause : '\n' ∉ asClause asName := by
      unfold asClause
      split
      · exact List.not_mem_nil
      · rename_i hne
        rw [List.mem_append, not_or]
        exact ⟨by decide, fun hmem =>
          absurd ((hasName.resolve_left hne).isSpace_eq _ hmem) (by decide)⟩
    simp only [List.mem_append, not_or]
    refine ⟨by decide, fun hmem => ?_, fun hmem => ?_, by decide, fun hmem => ?_, hclause⟩
    · exact absurd (List.eq_of_mem_replicate hmem) (by decide)
    · exact absurd (hpackage _ hmem) (by decide)
    · exact absurd (hname.isSpace_eq _ hmem) (by decide)
  · simp only [afterDots, List.append_assoc]

theorem AreLines.written {lines fixed : List Text} (h : AreLines lines)
    (hfixed : List.Forall₂ (fun line fixed => Written fixed ∨ fixed = line) lines fixed) :
    AreLines fixed := by
  induction h generalizing fixed with
  | nil =>
      rw [List.forall₂_nil_left_iff.mp hfixed]
      exact .nil
  | last hne hline =>
      obtain ⟨line, rest, hfirst, hrest, rfl⟩ := List.forall₂_cons_left_iff.mp hfixed
      rw [List.forall₂_nil_left_iff.mp hrest]
      rcases hfirst with hwritten | rfl
      · obtain ⟨body, hbody, rfl⟩ := hwritten.exists_line
        exact .cons hbody .nil
      · exact .last hne hline
  | cons hline _ ih =>
      obtain ⟨line, rest, hfirst, hrest, rfl⟩ := List.forall₂_cons_left_iff.mp hfixed
      rcases hfirst with hwritten | rfl
      · obtain ⟨body, hbody, rfl⟩ := hwritten.exists_line
        exact .cons hbody (ih hrest)
      · exact .cons hline (ih hrest)

/-! ## Runs -/

section Run

variable {place : Place} {hasPath : Text → Bool} {files : List File}

/-- A file that is gone over keeps its path, and has its lines fixed one by one. -/
theorem lines_of_fix {file new : File} (hproper : ∀ line ∈ readlines file.text, Proper hasPath line)
    (h : fixProtobufImportsInFile place hasPath files file = .ok new) :
    new.path = file.path ∧ List.Forall₂ (fun line fixed =>
      fixProtobufImportInLine place hasPath files file.dir line = .ok fixed)
        (readlines file.text) (readlines new.text) := by
  obtain ⟨lines, hlines, hnew⟩ := Fallible.bind_eq_ok h
  obtain rfl := Except.ok.inj hnew
  refine ⟨rfl, ?_⟩
  have hall := Fallible.mapM_eq_ok_iff.mp hlines
  have hwritten : List.Forall₂ (fun line fixed => Written fixed ∨ fixed = line)
      (readlines file.text) lines := by
    refine (Fallible.forall₂_iff_forall_mem hall fun line hline fixed hfix => ?_).mpr
      fun _ _ => trivial
    have hcases := (fixed_of_fix hfix).written_or_eq (hproper line hline)
    exact iff_true_intro (hcases.imp_right And.left)
  have hback : readlines lines.flatten = lines :=
    ((areLines_readlines file.text).written hwritten).readlines_flatten
  rw [hback]
  exact hall

variable (hasPath files)

/-- A file that is gone over keeps its path and its lines, and another is the same. -/
def KeptFile (file new : File) : Prop :=
  if IsListed files file then
    new.path = file.path ∧
      List.Forall₂ (Kept hasPath files file.dir) (readlines file.text) (readlines new.text)
  else new = file

variable {hasPath files}

theorem exists_fix_line_iff {dir : Dir} {line : Text} :
    (∃ fixed, fixProtobufImportInLine place hasPath files dir line = .ok fixed) ↔
      ∀ name asName, matchImport line = some (name, asName) →
        ∃ file, pyFilesDictionary files name = some file := by
  unfold fixProtobufImportInLine
  cases himport : matchImport line with
  | some parts =>
      obtain ⟨name, asName⟩ := parts
      refine ⟨fun ⟨fixed, hfixed⟩ other _ hother => ?_, fun h => ?_⟩
      · obtain ⟨rfl, -⟩ := Prod.mk.inj (Option.some.inj hother)
        cases hfile : pyFilesDictionary files name with
        | none => simp [hfile] at hfixed
        | some file => exact ⟨file, rfl⟩
      · obtain ⟨file, hfile⟩ := h name asName rfl
        exact ⟨_, by simp only [hfile]; rfl⟩
  | none =>
      refine iff_of_true ?_ fun _ _ h => absurd h (Option.some_ne_none _).symm
      cases hfrom : matchFrom line with
      | none => exact ⟨line, rfl⟩
      | some parts =>
          by_cases hleads : Leads hasPath parts.1
          · exact ⟨_, if_pos hleads⟩
          · exact ⟨_, if_neg hleads⟩

theorem exists_fix_file_iff {file : File} :
    (∃ new, fixProtobufImportsInFile place hasPath files file = .ok new) ↔
      ∀ line ∈ readlines file.text, ∀ name asName, matchImport line = some (name, asName) →
        ∃ other, pyFilesDictionary files name = some other := by
  have hlines : (∃ lines, (readlines file.text).mapM
      (fixProtobufImportInLine place hasPath files file.dir) = .ok lines) ↔ _ :=
    Fallible.exists_mapM_eq_ok_iff.trans (forall₂_congr fun line _ => exists_fix_line_iff)
  refine Iff.trans ?_ hlines
  constructor
  · rintro ⟨new, hnew⟩
    obtain ⟨lines, hlines, -⟩ := Fallible.bind_eq_ok hnew
    exact ⟨lines, hlines⟩
  · rintro ⟨lines, hlines⟩
    exact ⟨_, Fallible.bind_eq_ok_iff.mpr ⟨lines, hlines, rfl⟩⟩

variable (hproper : ∀ file ∈ files, ∀ line ∈ readlines file.text, Proper hasPath line)

theorem map_entry (extension name : Text) (files : List File) :
    (entry (glob extension files) name).map File.path =
      (((files.map File.path).filter fun path => extension <:+ path.2 ∧
        "_pb2".toList <:+: path.2.take (path.2.length - extension.length)).filter
          fun path => path.2.takeWhile (· ≠ '.') = name).getLast? := by
  rw [entry, glob, List.filter_map, List.filter_map, List.getLast?_map]
  rfl

/-- What is gone over is told by the paths. -/
theorem isListed_congr {others : List File} (hpaths : others.map File.path = files.map File.path)
    {file other : File} (hpath : other.path = file.path) :
    IsListed others other ↔ IsListed files file := by
  have hname : other.name = file.name := by
    rw [File.name, File.name, show other.fileName = file.fileName from congrArg Prod.snd hpath]
  rw [IsListed, IsListed, pyFilesDictionary, pyFilesDictionary, pyiFilesDictionary,
    pyiFilesDictionary, map_entry, map_entry, map_entry, map_entry, hpaths, hpath, hname]

variable {fixed : List File} (hrun : fixProtobufImports place hasPath files = .ok fixed)

/-- If the script runs on the way to the root, nothing is misread in a directory of the root, or in
the root itself, that is not on the way from where it runs. -/
theorem not_misread_of_flat {dir : Dir}
    (hcommon : commonLength place.root (place.abspath dir) = place.cwd.length)
    (hflat : dir.length ≤ 1) (line : Text) : ¬Misread place hasPath files dir line := by
  intro h
  cases h with
  | imported _ _ _ hfar => omega
  | fromPackage _ _ _ hdeep => exact hdeep (.inl ⟨hcommon, hflat⟩)

/-! Two modules as the generator leaves them. -/

/-- The script runs in the directory of the package. -/
def samplePlace : Place where
  cwd := ["ArmoniK.Api".toList]
  root := ["ArmoniK.Api".toList, "src".toList, "armonik".toList, "protogen".toList]
  not_dots := by decide

/-- A line in the first form. -/
def sampleImport : Text := "import objects_pb2 as objects__pb2\n".toList

/-- A line that is generated for a well-known type, in the second form. -/
def sampleFrom : Text :=
  "from google.protobuf import timestamp_pb2 as google_dot_protobuf_dot_timestamp__pb2\n".toList

/-- Two files, one of which imports the other. -/
def sampleFiles : List File :=
  [⟨[⟨"common".toList, by decide⟩], "objects_pb2.py".toList, sampleFrom⟩,
    ⟨[⟨"client".toList, by decide⟩], "tasks_pb2.py".toList, sampleFrom ++ sampleImport⟩]

/-- What is below the root: the three packages. -/
def samplePath (path : Text) : Bool :=
  ["client".toList, "common".toList, "worker".toList].contains path

theorem proper_sampleFiles :
    ∀ file ∈ sampleFiles, ∀ line ∈ readlines file.text, Proper samplePath line := by
  have hlines : ∀ file ∈ sampleFiles, ∀ line ∈ readlines file.text,
      line = sampleFrom ∨ line = sampleImport := by
    decide
  intro file hfile line hline
  rcases hlines file hfile line hline with rfl | rfl
  · refine ⟨fun name asName h => ?_, fun package name h hleads => ?_⟩
    · have hnone : matchImport sampleFrom = none := by decide
      cases hnone.symm.trans h
    · have hparts : (matchFrom sampleFrom).map Prod.fst = some "google.protobuf".toList := by decide
      rw [h] at hparts
      obtain rfl : package = "google.protobuf".toList := Option.some.inj hparts
      have hnowhere : samplePath ("google.protobuf".toList.map fun c =>
          if c = '.' then '/' else c) = false := by decide
      cases hnowhere.symm.trans hleads
  · refine ⟨fun name asName h => ?_, fun package name h _ => ?_⟩
    · have hparts : matchImport sampleImport =
          some ("objects_pb2".toList, "objects__pb2".toList) := by decide
      obtain ⟨rfl, rfl⟩ := Prod.mk.inj (Option.some.inj (hparts.symm.trans h))
      exact ⟨by decide, .inr (by decide)⟩
    · have hnone : matchFrom sampleImport = none := by decide
      cases hnone.symm.trans h

end Run

end ArmoniKApi.Python.FixImports
