import Mathlib.Data.List.Basic

/-!
# Paths

A path is written with separators between the names that lead to a file.
Separators that follow each other count as one, and one at the end counts for
nothing, so several texts are written for one path (`SlashPath.ofChars`).

Links, and the names "." and "..", are not followed: paths are compared as they
are written.

A text is compared with another by the path it is written for, and a program that joins a
folder and a name is right if the path of the result is the child of the folder:

* `ofChars_join`, `ofChars_concat_slash` and `ofChars_append` are the three ways to join, with
  a separator put in, with one at the end of the folder, and behind such a folder;
* `child_inj` says that different names give different files, and `folder_eq_of_child_eq` that
  a file is in one folder.

A name has no separator and is not empty, which is asked where it is used.
-/

/-- Where a path starts, and the names on the way. -/
structure SlashPath where
  absolute : Bool
  names : List (List Char)
  deriving DecidableEq

namespace SlashPath

/-- The names between the separators. -/
def namesOf (text : List Char) : List (List Char) :=
  (text.splitOn '/').filter fun name => !name.isEmpty

/-- The path that a text is written for. -/
def ofChars (text : List Char) : SlashPath where
  absolute := decide (text.head? = some '/')
  names := namesOf text

/-- The file with a name in a folder. -/
def child (folder : SlashPath) (name : List Char) : SlashPath where
  absolute := folder.absolute
  names := folder.names ++ [name]

theorem child_inj {folder : SlashPath} {first second : List Char} :
    folder.child first = folder.child second ↔ first = second := by
  simp [child]

theorem folder_eq_of_child_eq {first second : SlashPath} {name other : List Char}
    (h : first.child name = second.child other) : first = second := by
  rw [child, child, SlashPath.mk.injEq] at h
  obtain ⟨habsolute, hnames⟩ := h
  cases first
  cases second
  simp only [SlashPath.mk.injEq]
  exact ⟨habsolute, List.append_inj_left' hnames rfl⟩

/-! ## Names -/

@[simp] theorem namesOf_nil : namesOf [] = [] := rfl

theorem namesOf_append_slash (front rest : List Char) :
    namesOf (front ++ '/' :: rest) = namesOf front ++ namesOf rest := by
  have hslash : ('/' == '/') = true := beq_self_eq_true _
  rw [namesOf, List.splitOn_append_cons_of_beq front rest hslash, List.filter_append]
  rfl

theorem namesOf_slash (rest : List Char) : namesOf ('/' :: rest) = namesOf rest :=
  namesOf_append_slash [] rest

theorem namesOf_name {name : List Char} (hname : '/' ∉ name) (hne : name ≠ []) :
    namesOf name = [name] := by
  rw [namesOf, List.splitOn_eq_singleton hname]
  simp [List.isEmpty_eq_false_iff.mpr hne]

/-- The names hold everything but the separators. -/
theorem flatten_namesOf (text : List Char) : (namesOf text).flatten = text.filter (· ≠ '/') := by
  rw [namesOf, List.flatten_filter_not_isEmpty]
  induction text with
  | nil => rfl
  | cons c rest ih =>
      rw [List.splitOn_cons_eq_if_modifyHead]
      by_cases hslash : c = '/'
      · subst hslash
        simpa using ih
      · obtain ⟨first, others, hsplit⟩ :=
          List.exists_cons_of_ne_nil (List.splitOn_ne_nil '/' rest)
        rw [hsplit] at ih ⊢
        simp only [beq_iff_eq, hslash, if_false, List.modifyHead_cons, List.flatten_cons,
          List.cons_append, List.filter_cons, ne_eq, not_false_eq_true, decide_true, if_true]
        rw [← List.flatten_cons, ih]

/-! ## Joining -/

theorem ofChars_name {name : List Char} (hname : '/' ∉ name) (hne : name ≠ []) :
    ofChars name = (ofChars []).child name := by
  have hhead : name.head? ≠ some '/' := fun hslash => hname (List.mem_of_mem_head? hslash)
  simp [ofChars, child, namesOf_name hname hne, hhead]

/-- A name after a folder and a separator. -/
theorem ofChars_join {folder name : List Char} (hfolder : folder ≠ []) (hname : '/' ∉ name)
    (hne : name ≠ []) : ofChars (folder ++ '/' :: name) = (ofChars folder).child name := by
  obtain ⟨first, rest, rfl⟩ := List.exists_cons_of_ne_nil hfolder
  rw [ofChars, namesOf_append_slash, namesOf_name hname hne]
  rfl

/-- A separator at the end. -/
theorem ofChars_concat_slash {folder : List Char} (hfolder : folder ≠ []) :
    ofChars (folder ++ ['/']) = ofChars folder := by
  obtain ⟨first, rest, rfl⟩ := List.exists_cons_of_ne_nil hfolder
  rw [ofChars, namesOf_append_slash, namesOf_nil, List.append_nil]
  rfl

/-- A name after a folder that ends in a separator. -/
theorem ofChars_append {folder name : List Char} (hlast : folder.getLast? = some '/')
    (hname : '/' ∉ name) (hne : name ≠ []) :
    ofChars (folder ++ name) = (ofChars folder).child name := by
  obtain ⟨front, rfl⟩ := List.getLast?_eq_some_iff.mp hlast
  have hnames : namesOf (front ++ ['/'] ++ name) = namesOf (front ++ ['/']) ++ [name] := by
    rw [List.append_assoc, List.singleton_append, namesOf_append_slash, namesOf_append_slash,
      namesOf_nil, List.append_nil, namesOf_name hname hne]
  have hhead : (front ++ ['/'] ++ name).head? = (front ++ ['/']).head? := by
    cases front <;> rfl
  rw [ofChars, hnames, hhead]
  rfl

end SlashPath
