import Mathlib.Data.List.Infix

/-!
# Cutting a text at a separator

`split sep text` cuts a text wherever the text `sep` stands in it, from left to
right.  Overlapping occurrences are not counted twice, so the cut goes on after
the last character of an occurrence.

A text that is written with escapes is not the text itself, but a separator may
not notice.  It does not when each character that is escaped, and each character
of its escape, is foreign to the separator (`Transparent`): then the separator
stands in the one text just when it stands in the other (`infix_flatMap_iff`).

Two questions are asked of the separators in a text, and the library answers them apart.

How many pieces are there?  `one_lt_length_split_iff` and `length_splitOn` count them, for a
separator of any length and for a single character.  A text is cut from the left: a separator
at the front is taken off by `split_append`, and where none begins, the character goes to the
first piece by `split_cons`.

Where can a separator stand in a text that was put together?  It cannot reach over a character
that it has not got: `infix_append_of_foreign`, `infix_of_infix_append_cons` and
`exists_of_infix_intercalate` find it inside one part.  `Transparent` is this for texts that
are written character by character, and `infix_flatMap_iff` goes both ways: an escape hides no
separator and makes none.
-/

namespace Separator

variable {α : Type*}

/-! ## Cutting -/

section Split

variable [DecidableEq α]

/-- The pieces of a text whose first `skip` characters belong to a separator. -/
def splitFrom (sep : List α) : ℕ → List α → List (List α)
  | _, [] => [[]]
  | skip + 1, _ :: rest => splitFrom sep skip rest
  | 0, a :: rest =>
      if sep <+: a :: rest then [] :: splitFrom sep (sep.length - 1) rest
      else (splitFrom sep 0 rest).modifyHead (a :: ·)

/-- The pieces of a text between the separators. -/
def split (sep text : List α) : List (List α) := splitFrom sep 0 text

theorem length_splitFrom_pos (sep : List α) (skip : ℕ) (text : List α) :
    0 < (splitFrom sep skip text).length := by
  induction text generalizing skip with
  | nil => simp [splitFrom]
  | cons a rest ih =>
      cases skip with
      | succ skip => exact ih skip
      | zero =>
          rw [splitFrom]
          split
          · exact Nat.succ_pos _
          · rw [List.length_modifyHead]
            exact ih 0

/-- There is a second piece just when there is a separator. -/
theorem one_lt_length_split_iff {sep : List α} (hsep : sep ≠ []) (text : List α) :
    1 < (split sep text).length ↔ sep <:+: text := by
  unfold split
  induction text with
  | nil => simp [splitFrom, hsep]
  | cons a rest ih =>
      rw [List.infix_cons_iff, ← ih, splitFrom]
      split
      case isTrue hprefix =>
          have hpos := length_splitFrom_pos sep (sep.length - 1) rest
          rw [List.length_cons]
          exact iff_of_true (Nat.succ_lt_succ hpos) (.inl hprefix)
      case isFalse hprefix =>
          rw [List.length_modifyHead]
          exact ⟨.inr, fun h => h.resolve_left hprefix⟩

/-- There is one piece more than there are separators. -/
theorem length_splitOn (sep : α) (text : List α) :
    (text.splitOn sep).length = text.count sep + 1 := by
  induction text with
  | nil => rfl
  | cons a rest ih =>
      rw [List.splitOn_cons_eq_if_modifyHead, List.count_cons]
      split
      · rw [List.length_cons, ih]
      · rw [List.length_modifyHead, ih, Nat.add_zero]

/-- There is no separator in a piece. -/
theorem not_mem_of_mem_splitOn {sep : α} {text piece : List α} (hpiece : piece ∈ text.splitOn sep) :
    sep ∉ piece := by
  induction text generalizing piece with
  | nil =>
      rw [List.splitOn_nil, List.mem_singleton] at hpiece
      rw [hpiece]
      exact List.not_mem_nil
  | cons a rest ih =>
      rw [List.splitOn_cons_eq_if_modifyHead] at hpiece
      split at hpiece
      · rcases List.mem_cons.mp hpiece with hnil | hrest
        · rw [hnil]
          exact List.not_mem_nil
        · exact ih hrest
      · rename_i ha
        obtain ⟨first, pieces, hsplit⟩ := List.exists_cons_of_ne_nil (List.splitOn_ne_nil sep rest)
        rw [hsplit] at ih hpiece
        rcases List.mem_cons.mp hpiece with hfirst | hlater
        · rw [hfirst]
          exact List.not_mem_cons_of_ne_of_not_mem (fun h => ha (beq_iff_eq.mpr h.symm))
            (ih List.mem_cons_self)
        · exact ih (List.mem_cons_of_mem first hlater)

theorem splitFrom_append (sep front rest : List α) :
    splitFrom sep front.length (front ++ rest) = splitFrom sep 0 rest := by
  induction front with
  | nil => rfl
  | cons a front ih => exact ih

theorem split_append {sep : List α} (hsep : sep ≠ []) (rest : List α) :
    split sep (sep ++ rest) = [] :: split sep rest := by
  cases sep with
  | nil => exact absurd rfl hsep
  | cons a sep =>
      have hprefix : a :: sep <+: a :: (sep ++ rest) := List.prefix_append (a :: sep) rest
      rw [split, List.cons_append, splitFrom, if_pos hprefix]
      exact congrArg ([] :: ·) (splitFrom_append (a :: sep) sep rest)

theorem split_cons {sep rest : List α} {a : α} (h : ¬sep <+: a :: rest) :
    split sep (a :: rest) = (split sep rest).modifyHead (a :: ·) :=
  if_neg h

theorem split_eq_singleton {sep text : List α} (h : ¬sep <:+: text) : split sep text = [text] := by
  induction text with
  | nil => rfl
  | cons a rest ih =>
      rw [List.infix_cons_iff, not_or] at h
      rw [split_cons h.1, ih h.2]
      rfl

/-- How often a separator stands in a text. -/
def count (sep text : List α) : ℕ := (split sep text).length - 1

/-- A text with another one for each separator. -/
def replace (sep new text : List α) : List α := new.intercalate (split sep text)

theorem replace_of_not_infix {sep text : List α} (h : ¬sep <:+: text) (new : List α) :
    replace sep new text = text := by
  rw [replace, split_eq_singleton h, List.intercalate_singleton]

theorem replace_append {sep : List α} (hsep : sep ≠ []) (new rest : List α) :
    replace sep new (sep ++ rest) = new ++ replace sep new rest := by
  have hpos := length_splitFrom_pos sep 0 rest
  rw [replace, replace, split_append hsep]
  cases hrest : split sep rest with
  | nil => simp [split] at hrest; simp [hrest] at hpos
  | cons first others => simp [List.intercalate]

/-- The piece between the first two separators of one character. -/
theorem getElem?_one_splitOn {sep : α} {first second : List α} (rest : List α)
    (hfirst : sep ∉ first) (hsecond : sep ∉ second) :
    ((first ++ sep :: (second ++ sep :: rest)).splitOn sep)[1]? = some second := by
  rw [List.splitOn_append_cons_self_of_not_mem hfirst,
    List.splitOn_append_cons_self_of_not_mem hsecond]
  rfl

/-- The first separator is in one place. -/
theorem append_cons_inj {sep : α} {first second rest others : List α} (hfirst : sep ∉ first)
    (hsecond : sep ∉ second) (heq : first ++ sep :: rest = second ++ sep :: others) :
    first = second ∧ rest = others := by
  have hpieces := congrArg (List.splitOn sep) heq
  rw [List.splitOn_append_cons_self_of_not_mem hfirst,
    List.splitOn_append_cons_self_of_not_mem hsecond] at hpieces
  obtain ⟨rfl, -⟩ := List.cons.inj hpieces
  exact ⟨rfl, (List.cons.inj (List.append_cancel_left heq)).2⟩

/-- The first piece keeps a first character that is foreign to the separator. -/
theorem exists_split_cons {sep : List α} (hsep : sep ≠ []) {a : α} (ha : a ∉ sep)
    (rest : List α) : ∃ first others, split sep (a :: rest) = (a :: first) :: others := by
  have hprefix : ¬ sep <+: a :: rest := by
    cases sep with
    | nil => exact absurd rfl hsep
    | cons b sep =>
        rw [List.cons_prefix_cons]
        rintro ⟨rfl, -⟩
        exact ha (List.mem_cons_self ..)
  have hpos := length_splitFrom_pos sep 0 rest
  rw [split, splitFrom, if_neg hprefix]
  cases hrest : splitFrom sep 0 rest with
  | nil => simp [hrest] at hpos
  | cons first others => exact ⟨first, others, rfl⟩

theorem exists_splitOn_cons {sep a : α} (ha : a ≠ sep) (rest : List α) :
    ∃ first others, (a :: rest).splitOn sep = (a :: first) :: others := by
  rw [List.splitOn_cons_eq_if_modifyHead, if_neg (by simpa using ha)]
  cases hrest : rest.splitOn sep with
  | nil => exact absurd hrest (List.splitOn_ne_nil sep rest)
  | cons first others => exact ⟨first, others, rfl⟩

end Split

/-! ## Joining -/

theorem mem_or_of_mem_intercalate {sep : List α} {texts : List (List α)} {a : α}
    (h : a ∈ sep.intercalate texts) : a ∈ sep ∨ ∃ text ∈ texts, a ∈ text := by
  induction texts with
  | nil => exact absurd h List.not_mem_nil
  | cons text texts ih =>
      cases texts with
      | nil =>
          rw [List.intercalate_singleton] at h
          exact .inr ⟨text, List.mem_cons_self, h⟩
      | cons next texts =>
          rw [List.intercalate_cons_cons, List.mem_append, List.mem_append] at h
          rcases h with (htext | hsep) | hrest
          · exact .inr ⟨text, List.mem_cons_self, htext⟩
          · exact .inl hsep
          · exact (ih hrest).imp_right fun ⟨other, hother, ha⟩ =>
              ⟨other, List.mem_cons_of_mem _ hother, ha⟩

/-- A separator does not reach over an element that it has not got. -/
theorem infix_of_infix_append_cons {sep front back : List α} {a : α} (hsep : sep ≠ [])
    (ha : a ∉ sep) (h : sep <:+: front ++ a :: back) : sep <:+: front ∨ sep <:+: back := by
  induction front with
  | nil =>
      rcases List.infix_cons_iff.mp h with hstart | hback
      · cases sep with
        | nil => exact absurd rfl hsep
        | cons b sep =>
            have hsame : b = a := (List.cons_prefix_cons.mp hstart).1
            exact absurd (hsame ▸ List.mem_cons_self) ha
      · exact .inr hback
  | cons b front ih =>
      rcases List.infix_cons_iff.mp h with hstart | hlater
      · -- what is longer than the front has the element in it
        rcases Nat.lt_or_ge (b :: front).length sep.length with hlong | hshort
        · have hall : (b :: front) ++ [a] <+: (b :: front) ++ a :: back := ⟨back, by simp⟩
          have hreach : (b :: front) ++ [a] <+: sep := by
            refine List.prefix_of_prefix_length_le hall hstart ?_
            rw [List.length_append, List.length_singleton]
            exact hlong
          have hmem : a ∈ (b :: front) ++ [a] := List.mem_append_right _ (List.mem_singleton_self a)
          exact absurd (hreach.subset hmem) ha
        · exact .inl (List.prefix_of_prefix_length_le hstart (List.prefix_append ..) hshort).isInfix
      · exact (ih hlater).imp_left fun hfront => hfront.trans (List.suffix_cons ..).isInfix

theorem exists_of_infix_intercalate {sep : List α} {a : α} {texts : List (List α)}
    (hsep : sep ≠ []) (ha : a ∉ sep) (h : sep <:+: [a].intercalate texts) :
    ∃ text ∈ texts, sep <:+: text := by
  induction texts with
  | nil => exact absurd (List.infix_nil.mp h) hsep
  | cons text texts ih =>
      by_cases hnil : texts = []
      · subst hnil
        rw [List.intercalate_singleton] at h
        exact ⟨text, List.mem_cons_self, h⟩
      · rw [List.intercalate_cons_of_ne_nil hnil, List.append_assoc] at h
        rcases infix_of_infix_append_cons hsep ha h with htext | hothers
        · exact ⟨text, List.mem_cons_self, htext⟩
        · obtain ⟨other, hother, hfound⟩ := ih hothers
          exact ⟨other, List.mem_cons_of_mem _ hother, hfound⟩

theorem map_intercalate {β : Type*} (f : α → β) (sep : List α) (texts : List (List α)) :
    (sep.intercalate texts).map f = (sep.map f).intercalate (texts.map (List.map f)) := by
  induction texts with
  | nil => rfl
  | cons text texts ih =>
      cases texts with
      | nil => simp
      | cons next texts => simpa using ih

/-! ## Where a separator can stand -/

/-- A separator does not begin at, or reach over, a foreign character. -/
theorem infix_append_of_foreign {sep front : List α} (hsep : sep ≠ [])
    (hfront : ∀ a ∈ front, a ∉ sep) (text : List α) :
    sep <:+: front ++ text ↔ sep <:+: text := by
  induction front with
  | nil => rfl
  | cons a rest ih =>
      have hrest := ih fun b hb => hfront b (List.mem_cons_of_mem _ hb)
      rw [List.cons_append, List.infix_cons_iff, hrest]
      refine ⟨fun h => h.resolve_left fun hprefix => ?_, .inr⟩
      -- the separator would begin with the foreign character
      cases sep with
      | nil => exact hsep rfl
      | cons b sep =>
          obtain ⟨rfl, -⟩ := List.cons_prefix_cons.mp hprefix
          exact hfront b (List.mem_cons_self ..) (List.mem_cons_self ..)

/-- A separator begins with its first character. -/
theorem infix_append_of_head {a : α} {sep front : List α} (ha : a ∉ front) (text : List α) :
    a :: sep <:+: front ++ text ↔ a :: sep <:+: text := by
  induction front with
  | nil => rfl
  | cons b front ih =>
      rw [List.mem_cons, not_or] at ha
      rw [List.cons_append, List.infix_cons_iff, ih ha.2]
      exact or_iff_right fun hprefix => ha.1 (List.cons_prefix_cons.mp hprefix).1

theorem infix_append_foreign {sep back : List α} (hsep : sep ≠ [])
    (hback : ∀ a ∈ back, a ∉ sep) (text : List α) :
    sep <:+: text ++ back ↔ sep <:+: text := by
  have hsep' : sep.reverse ≠ [] := by simpa using hsep
  have hback' : ∀ a ∈ back.reverse, a ∉ sep.reverse := by simpa using hback
  have hreverse := infix_append_of_foreign hsep' hback' text.reverse
  rwa [← List.reverse_append, List.reverse_infix, List.reverse_infix] at hreverse

/-- Characters are written as they are, or they are foreign to the separator and
so is all that is written for them. -/
def Transparent (sep : List α) (escape : α → List α) : Prop :=
  ∀ a, escape a = [a] ∨ a ∉ sep ∧ escape a ≠ [] ∧ ∀ b ∈ escape a, b ∉ sep

theorem prefix_flatMap_iff {sep : List α} {escape : α → List α} (h : Transparent sep escape)
    (text : List α) : sep <+: text.flatMap escape ↔ sep <+: text := by
  induction text generalizing sep with
  | nil => simp
  | cons a rest ih =>
      cases sep with
      | nil => simp
      | cons b sep =>
          rw [List.flatMap_cons, List.cons_prefix_cons]
          rcases h a with hplain | ⟨ha, hne, hescape⟩
          · have htail : Transparent sep escape := by
              intro c
              rcases h c with hc | ⟨hc, hne, hescape⟩
              · exact .inl hc
              · exact .inr ⟨fun hmem => hc (List.mem_cons_of_mem _ hmem), hne,
                  fun d hd hmem => hescape d hd (List.mem_cons_of_mem _ hmem)⟩
            rw [hplain, List.singleton_append, List.cons_prefix_cons, ih htail]
          · obtain ⟨c, cs, hcs⟩ := List.exists_cons_of_ne_nil hne
            rw [hcs, List.cons_append, List.cons_prefix_cons]
            refine iff_of_false (fun hprefix => ?_) fun hprefix => ?_
            · exact hescape c (by simp [hcs]) (by simp [ hprefix.1])
            · exact ha (by simp [ hprefix.1])

/-- Escapes that a separator does not notice. -/
theorem infix_flatMap_iff {sep : List α} {escape : α → List α} (hsep : sep ≠ [])
    (h : Transparent sep escape) (text : List α) :
    sep <:+: text.flatMap escape ↔ sep <:+: text := by
  induction text with
  | nil => rfl
  | cons a rest ih =>
      rcases h a with hplain | ⟨ha, -, hescape⟩
      · have hprefix := prefix_flatMap_iff h (a :: rest)
        rw [List.flatMap_cons, hplain, List.singleton_append] at hprefix ⊢
        rw [List.infix_cons_iff, List.infix_cons_iff, hprefix, ih]
      · have hforeign : ∀ b ∈ [a], b ∉ sep := by
          intro b hb
          rwa [List.mem_singleton.mp hb]
        rw [List.flatMap_cons, infix_append_of_foreign hsep hescape, ih,
          ← infix_append_of_foreign hsep hforeign, List.singleton_append]

end Separator
