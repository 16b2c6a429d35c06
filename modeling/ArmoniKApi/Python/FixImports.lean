import ArmoniKApi.Library.RelativePath
import ArmoniKApi.Library.Separator

/-!
# The imports of the generated Python modules

The generator of the modules writes `import objects_pb2 as objects__pb2`, wherever the module
`objects_pb2` is put.  `fix_imports.py` goes over the files below a root, and makes it an import
that is relative to the file.

The script works on the texts of the files, line by line.  What a line of its own imports is told
by `resolve`, as Python has it.

Where a file is, the script knows from the root on, and it gives `os.path.relpath` the directories
so.  That takes them from where the script runs, which is the same for two directories below the
root, but not for one of them and the root itself.  A `Place` has both.

```text
   in worker/agent_pb2.py, when objects_pb2.py is in common
     before   "import objects_pb2 as objects__pb2"
     after    "from ..common import objects_pb2 as objects__pb2"
```

The file has the script and the meaning of its lines, and no proofs about them.  The regular
expressions are written as functions on characters.  Each can match a line in one way only,
since a name reaches to the next blank, or to the end of the line where it stands last.

The dictionaries of the script go from the names of modules to files, and a later file of the
same name takes the place of an earlier one, so that `entry` looks for the last one.

`resolve` is the other side: what Python imports by a relative import, from the directory of
the file, one dot for the directory itself and one more for each level up.  It is written
without looking at the script, and is what the lines are compared with in `ImportLines`.
-/

namespace ArmoniKApi.Python.FixImports

open RelativePath (climb descent commonLength)

/-- A text, character by character. -/
abbrev Text := List Char

/-! ## The files -/

/-- The characters that `\s` matches. -/
def isSpace (c : Char) : Bool :=
  (9 ≤ c.toNat && c.toNat ≤ 13) || (28 ≤ c.toNat && c.toNat ≤ 32) || c.toNat = 0x85 ||
    c.toNat = 0xA0 || c.toNat = 0x1680 || (0x2000 ≤ c.toNat && c.toNat ≤ 0x200A) ||
    c.toNat = 0x2028 || c.toNat = 0x2029 || c.toNat = 0x202F || c.toNat = 0x205F ||
    c.toNat = 0x3000

/-- The name of a package or of a module, which has no separators in it. -/
structure IsName (text : Text) : Prop where
  ne_nil : text ≠ []
  isSpace_eq : ∀ c ∈ text, isSpace c = false
  dot_notMem : '.' ∉ text
  slash_notMem : '/' ∉ text
  backslash_notMem : '\\' ∉ text

instance : DecidablePred IsName := fun text =>
  decidable_of_iff (text ≠ [] ∧ text.all (fun c => !isSpace c) ∧
      '.' ∉ text ∧ '/' ∉ text ∧ '\\' ∉ text)
    ⟨fun ⟨hne, hspace, hdot, hslash, hbackslash⟩ => ⟨hne, fun c hc => by
        simpa using List.all_eq_true.mp hspace c hc, hdot, hslash, hbackslash⟩,
      fun h => ⟨h.ne_nil, List.all_eq_true.mpr fun c hc => by rw [h.isSpace_eq c hc]; rfl,
        h.dot_notMem, h.slash_notMem, h.backslash_notMem⟩⟩

/-- A text that is a name. -/
abbrev Name := {text : Text // IsName text}

/-- The names on the way to a directory below the root. -/
abbrev Dir := List Name

/-- The names as texts. -/
def Dir.names (dir : Dir) : List Text := dir.map Subtype.val

/-- A file below the root. -/
structure File where
  dir : Dir
  fileName : Text
  text : Text
  deriving DecidableEq

/-- `path.name.split(".")[0]`. -/
def File.name (file : File) : Text := file.fileName.takeWhile (· ≠ '.')

/-- The directory and the name of a file, which tell it from the others. -/
def File.path (file : File) : Dir × Text := (file.dir, file.fileName)

/-- The files of the pattern `*_pb2*` with an extension. -/
def glob (extension : Text) (files : List File) : List File :=
  files.filter fun file => extension <:+ file.fileName ∧
    "_pb2".toList <:+: file.fileName.take (file.fileName.length - extension.length)

/-- The entry of a dictionary of files, where the last file of a name stands. -/
def entry (files : List File) (name : Text) : Option File :=
  (files.filter fun file => file.name = name).getLast?

/-- `py_files_dictionary`. -/
def pyFilesDictionary (files : List File) : Text → Option File := entry (glob ".py".toList files)

/-- `pyi_files_dictionary`. -/
def pyiFilesDictionary (files : List File) : Text → Option File := entry (glob ".pyi".toList files)

/-- The file is one that is gone over. -/
def IsListed (files : List File) (file : File) : Prop :=
  (pyFilesDictionary files file.name).map File.path = some file.path ∨
    (pyiFilesDictionary files file.name).map File.path = some file.path

instance (files : List File) (file : File) : Decidable (IsListed files file) :=
  inferInstanceAs (Decidable (_ ∨ _))

/-! ## Relative paths -/

/-- Where the script runs and the root that it is given, from the root of the file system on.  No
directory on the way to the root has two dots in a row in its name, which the script would take
for a level. -/
structure Place where
  cwd : List Text
  root : List Text
  not_dots : ∀ name ∈ root, ¬"..".toList <:+: name

/-- `os.path.abspath` of a directory that is given from the root on. -/
def Place.abspath (place : Place) (dir : Dir) : List Text := place.cwd ++ dir.names

/-- `os.path.relpath`, of two absolute paths. -/
def relpath (path start : List Text) : Text :=
  let names := List.replicate (climb path start) "..".toList ++ descent path start
  if names = [] then ".".toList else "/".toList.intercalate names

/-- `path.count("..")`. -/
def uppathLevels (path : Text) : ℕ := Separator.count "..".toList path

/-- `path.split("..")[-1].replace("/", ".").replace("\\", ".")`. -/
def downpath (path : Text) : Text :=
  let last := (Separator.split "..".toList path).getLastD []
  last.map fun c => if c = '/' ∨ c = '\\' then '.' else c

/-! ## Lines -/

/-- `\s`: one blank. -/
def dropSpace : Text → Option Text
  | [] => none
  | c :: rest => if isSpace c then some rest else none

/-- `(.*)$`, where a line may have its end. -/
def toLineEnd (rest : Text) : Option Text :=
  let text := rest.takeWhile (· ≠ '\n')
  if rest = text ∨ rest = text ++ ['\n'] then some text else none

/-- `^import\s(\S*_pb2)\sas\s(.*)$`. -/
def matchImport (line : Text) : Option (Text × Text) := do
  let rest ← line.dropPrefix? "import".toList
  let rest ← dropSpace rest
  let name := rest.takeWhile fun c => !isSpace c
  let rest ← dropSpace (rest.drop name.length)
  let rest ← rest.dropPrefix? "as".toList
  let rest ← dropSpace rest
  let asName ← toLineEnd rest
  if "_pb2".toList <:+ name then some (name, asName) else none

/-- `^from\s([^\s\.]+[\S]*)\simport\s(.*_pb2)$`. -/
def matchFrom (line : Text) : Option (Text × Text) := do
  let rest ← line.dropPrefix? "from".toList
  let rest ← dropSpace rest
  let path := rest.takeWhile fun c => !isSpace c
  let rest ← dropSpace (rest.drop path.length)
  let rest ← rest.dropPrefix? "import".toList
  let rest ← dropSpace rest
  let name ← toLineEnd rest
  if path ≠ [] ∧ path.head? ≠ some '.' ∧ "_pb2".toList <:+ name then some (path, name) else none

/-- `line.replace("from ...", "from ..")`. -/
def replaceDots (line : Text) : Text :=
  Separator.replace "from ...".toList "from ..".toList line

/-- The line that is written for `import`. -/
def importLine (path name asName : Text) : Text :=
  let down := if downpath path = ".".toList then [] else downpath path
  let renamed := if asName = [] then [] else " as ".toList ++ asName
  replaceDots ("from .".toList ++ List.replicate (uppathLevels path) '.' ++ down ++
    " import ".toList ++ name ++ renamed ++ ['\n'])

/-- The line that is written for `from`. -/
def fromLine (path package name : Text) : Text :=
  replaceDots ("from .".toList ++ List.replicate (uppathLevels path) '.' ++ package ++
    " import ".toList ++ name ++ ['\n'])

/-- The lines of a text, with their ends. -/
def readlines : Text → List Text
  | [] => []
  | '\n' :: rest => ['\n'] :: readlines rest
  | c :: rest =>
      match readlines rest with
      | [] => [[c]]
      | line :: lines => (c :: line) :: lines

section Script

variable (place : Place) (hasPath : Text → Bool) (files : List File)

/-- `fix_protobuf_import_in_line`, or the key that is not found. -/
def fixProtobufImportInLine (dir : Dir) (line : Text) : Except Text Text :=
  match matchImport line with
  | some (name, asName) =>
      match pyFilesDictionary files name with
      | some file =>
          .ok (importLine (relpath (place.abspath file.dir) (place.abspath dir)) name asName)
      | none => .error name
  | none =>
      match matchFrom line with
      | some (package, name) =>
          if hasPath (package.map fun c => if c = '.' then '/' else c) then
            .ok (fromLine (relpath place.root (place.abspath dir)) package name)
          else .ok line
      | none => .ok line

/-- `fix_protobuf_imports_in_file`. -/
def fixProtobufImportsInFile (file : File) : Except Text File := do
  let lines ← (readlines file.text).mapM (fixProtobufImportInLine place hasPath files file.dir)
  return { file with text := lines.flatten }

/-- `fix_protobuf_imports`, without `dry`. -/
def fixProtobufImports : Except Text (List File) :=
  files.mapM fun file =>
    if IsListed files file then fixProtobufImportsInFile place hasPath files file else pure file

end Script

/-! ## What is imported -/

/-- An import: the directory of a module, its name, and the name that it gets. -/
structure Import where
  dir : List Text
  moduleName : Text
  asName : Text
  deriving DecidableEq

/-- The parts of `from ..package import module as alias`. -/
structure RelativeImport where
  dots : ℕ
  package : List Text
  moduleName : Text
  asName : Text

/-- The names of a package. -/
def packageNames (package : Text) : List Text := if package = [] then [] else package.splitOn '.'

/-- Takes a relative import apart, up to the end of its line. -/
def readRelative (line : Text) : Option RelativeImport := do
  let rest ← line.dropPrefix? "from ".toList
  let dots := rest.takeWhile (· = '.')
  let rest := rest.drop dots.length
  let package := rest.takeWhile fun c => !isSpace c
  let rest ← (rest.drop package.length).dropPrefix? " import ".toList
  let moduleName := rest.takeWhile fun c => !isSpace c
  let names := packageNames package
  if rest.drop moduleName.length = ['\n'] then some ⟨dots.length, names, moduleName, moduleName⟩
  else
    let asName ← (rest.drop moduleName.length).dropPrefix? " as ".toList
    some ⟨dots.length, names, moduleName, asName.takeWhile fun c => !isSpace c⟩

/-- What a relative import imports in a file: one dot is the directory of the file, and each dot
more is one level up. -/
def resolve (dir : Dir) (line : Text) : Option Import := do
  let relative ← readRelative line
  if relative.dots = 0 ∨ dir.length < relative.dots - 1 then none
  else
    let above := dir.names.take (dir.length - (relative.dots - 1))
    some ⟨above ++ relative.package, relative.moduleName, relative.asName⟩

end ArmoniKApi.Python.FixImports
