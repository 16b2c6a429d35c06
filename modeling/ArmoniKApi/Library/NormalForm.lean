import Mathlib.Data.List.Basic

/-!
# Disjunctive normal forms as lists of lists

A disjunctive normal form over a type `L` of literals is a list of
conjunctions, each a list of literals.  It is `Proper` when there is at least
one conjunction and none of them is empty: such a form can be written down
without the constants true and false.

The three connectives stay inside the normal form.  A disjunction appends; a
conjunction takes every pair of conjunctions, one from each side; a negation
turns each conjunction into the disjunction of its inverted literals and
multiplies these out from left to right.  For each connective there are three
facts: what it means (`holds_…`), that it keeps a form proper (`Proper.…`), and
where its literals come from (`Over.…`).

```text
(a ∧ b) ∨ c            [[a, b], [c]]
and (d)                [[a, b, d], [c, d]]
negated                [[¬a, ¬c], [¬b, ¬c]]
```

Negation is the hard one, since it is a loop over the conjunctions with an accumulator.
`holds_negateFrom` is its invariant: the accumulator, and the negations of the conjunctions
that are still to come, hold together just if the result does.  `holds_negate` starts it, and
`holds_negate_of_complement` reads it under an assignment in which inverting a literal is
negating it.

Nothing here asks the literals to be anything in particular.  A program supplies `inv` for its
own literals, and uses `Over` to carry along what every literal of a form satisfies.
-/

namespace NormalForm

variable {L : Type*}

/-- The truth value of a normal form under an assignment to its literals. -/
def holds (v : L → Bool) (form : List (List L)) : Bool :=
  form.any fun conj => conj.all v

/-- The conjunction of two normal forms, multiplied out. -/
def conjunction (first second : List (List L)) : List (List L) :=
  second.flatMap fun right => first.map fun left => left ++ right

/-- The negation of one conjunction: the disjunction of its inverted literals. -/
def dual (inv : L → L) (conj : List L) : List (List L) :=
  conj.map fun literal => [inv literal]

/-- Multiply the negations of further conjunctions into `acc`. -/
def negateFrom (inv : L → L) (acc form : List (List L)) : List (List L) :=
  form.foldl (fun current conj => conjunction current (dual inv conj)) acc

/-- The negation of a normal form. -/
def negate (inv : L → L) : List (List L) → List (List L)
  | [] => [[]]
  | conj :: rest => negateFrom inv (dual inv conj) rest

/-- At least one conjunction, and no empty conjunction. -/
structure Proper (form : List (List L)) : Prop where
  ne_nil : form ≠ []
  conj_ne_nil : ∀ conj ∈ form, conj ≠ []

/-- Every literal of the form satisfies `P`. -/
def Over (P : L → Prop) (form : List (List L)) : Prop :=
  ∀ conj ∈ form, ∀ literal ∈ conj, P literal

/-! ## Meaning -/

@[simp] theorem holds_singleton (v : L → Bool) (literal : L) :
    holds v [[literal]] = v literal := by
  simp [holds]

theorem holds_append (v : L → Bool) (first second : List (List L)) :
    holds v (first ++ second) = (holds v first || holds v second) := by
  simp [holds]

theorem holds_conjunction (v : L → Bool) (first second : List (List L)) :
    holds v (conjunction first second) = (holds v first && holds v second) := by
  rw [Bool.eq_iff_iff]
  simp only [holds, conjunction, List.any_flatMap, List.any_map, Bool.and_eq_true,
    List.any_eq_true, Function.comp_apply, List.all_append]
  constructor
  · rintro ⟨right, hright, left, hleft, hholds⟩
    exact ⟨⟨left, hleft, hholds.1⟩, ⟨right, hright, hholds.2⟩⟩
  · rintro ⟨⟨left, hleft, hholdsLeft⟩, ⟨right, hright, hholdsRight⟩⟩
    exact ⟨right, hright, left, hleft, hholdsLeft, hholdsRight⟩

theorem holds_congr {v w : L → Bool} {form : List (List L)}
    (h : Over (fun literal => v literal = w literal) form) : holds v form = holds w form := by
  rw [Bool.eq_iff_iff]
  simp only [holds, List.any_eq_true, List.all_eq_true]
  refine exists_congr fun conj => and_congr_right fun hconj => ?_
  exact forall₂_congr fun literal hliteral => by rw [h conj hconj literal hliteral]

/-- De Morgan for one conjunction. -/
theorem holds_dual (v : L → Bool) (inv : L → L) (conj : List L) :
    holds v (dual inv conj) = !conj.all fun literal => !v (inv literal) := by
  simp [holds, dual, List.any_map, Function.comp_def, List.not_all_eq_any_not]

theorem holds_negateFrom (v : L → Bool) (inv : L → L) (acc form : List (List L)) :
    holds v (negateFrom inv acc form) =
      (holds v acc && !holds (fun literal => !v (inv literal)) form) := by
  induction form generalizing acc with
  | nil => simp [negateFrom, holds]
  | cons conj rest ih =>
      let w := fun literal => !v (inv literal)
      calc holds v (negateFrom inv acc (conj :: rest))
          = holds v (negateFrom inv (conjunction acc (dual inv conj)) rest) := rfl
        _ = (holds v (conjunction acc (dual inv conj)) && !holds w rest) := ih _
        _ = ((holds v acc && !conj.all w) && !holds w rest) := by
            rw [holds_conjunction, holds_dual]
        _ = (holds v acc && !holds w (conj :: rest)) := by
            simp [holds, Bool.and_assoc]

/-- De Morgan: a negated form holds when the form does not, of literals read as
the negations of their inverses. -/
theorem holds_negate (v : L → Bool) (inv : L → L) (form : List (List L)) :
    holds v (negate inv form) = !holds (fun literal => !v (inv literal)) form := by
  cases form with
  | nil => simp [negate, holds]
  | cons conj rest =>
      rw [negate, holds_negateFrom, holds_dual]
      simp [holds]

/-- Under an assignment that makes `inv` a complement on the literals of the form,
`negate` is the negation. -/
theorem holds_negate_of_complement {v : L → Bool} {inv : L → L} {form : List (List L)}
    (hinv : Over (fun literal => v (inv literal) = !v literal) form) :
    holds v (negate inv form) = !holds v form := by
  have hcongr : holds (fun literal => !v (inv literal)) form = holds v form :=
    holds_congr fun conj hconj literal hliteral => by simp [hinv conj hconj literal hliteral]
  rw [holds_negate, hcongr]

/-- Negating twice changes the form, but under no assignment its meaning, if
inverting a literal twice gives it back. -/
theorem holds_negate_negate (v : L → Bool) {inv : L → L} {form : List (List L)}
    (hinv : Over (fun literal => inv (inv literal) = literal) form) :
    holds v (negate inv (negate inv form)) = holds v form := by
  rw [holds_negate, holds_negate, Bool.not_not]
  exact holds_congr fun conj hconj literal hliteral => by simp [hinv conj hconj literal hliteral]

/-! ## Proper forms stay proper -/

theorem Proper.singleton (literal : L) : Proper [[literal]] :=
  ⟨by simp, by simp⟩

theorem Proper.append {first second : List (List L)} (hfirst : Proper first)
    (hsecond : Proper second) : Proper (first ++ second) := by
  refine ⟨by simp [hfirst.ne_nil], fun conj hconj => ?_⟩
  rcases List.mem_append.mp hconj with hconj | hconj
  · exact hfirst.conj_ne_nil conj hconj
  · exact hsecond.conj_ne_nil conj hconj

theorem Proper.conjunction {first second : List (List L)} (hfirst : Proper first)
    (hsecond : Proper second) : Proper (conjunction first second) := by
  constructor
  · obtain ⟨left, hleft⟩ := List.exists_mem_of_ne_nil _ hfirst.ne_nil
    obtain ⟨right, hright⟩ := List.exists_mem_of_ne_nil _ hsecond.ne_nil
    refine List.ne_nil_of_mem (a := left ++ right) ?_
    simp only [NormalForm.conjunction, List.mem_flatMap, List.mem_map]
    exact ⟨right, hright, left, hleft, rfl⟩
  · intro conj hconj
    simp only [NormalForm.conjunction, List.mem_flatMap, List.mem_map] at hconj
    obtain ⟨right, -, left, hleft, rfl⟩ := hconj
    simp [hfirst.conj_ne_nil left hleft]

theorem Proper.dual {inv : L → L} {conj : List L} (hconj : conj ≠ []) :
    Proper (dual inv conj) := by
  refine ⟨by simpa [NormalForm.dual] using hconj, fun inverted hinverted => ?_⟩
  simp only [NormalForm.dual, List.mem_map] at hinverted
  obtain ⟨literal, -, rfl⟩ := hinverted
  simp

theorem Proper.negateFrom {inv : L → L} {acc form : List (List L)} (hacc : Proper acc)
    (hform : ∀ conj ∈ form, conj ≠ []) : Proper (negateFrom inv acc form) := by
  induction form generalizing acc with
  | nil => exact hacc
  | cons conj rest ih =>
      exact ih (hacc.conjunction (Proper.dual (hform conj (List.mem_cons_self ..))))
        fun other hother => hform other (List.mem_cons_of_mem _ hother)

theorem Proper.negate {inv : L → L} {form : List (List L)} (hform : Proper form) :
    Proper (negate inv form) := by
  cases form with
  | nil => exact absurd rfl hform.ne_nil
  | cons conj rest =>
      exact Proper.negateFrom (Proper.dual (hform.conj_ne_nil conj (List.mem_cons_self ..)))
        fun other hother => hform.conj_ne_nil other (List.mem_cons_of_mem _ hother)

/-! ## The literals of a form -/

theorem Over.mono {P Q : L → Prop} {form : List (List L)} (h : Over P form)
    (himp : ∀ literal, P literal → Q literal) : Over Q form :=
  fun conj hconj literal hliteral => himp literal (h conj hconj literal hliteral)

theorem over_singleton {P : L → Prop} {literal : L} : Over P [[literal]] ↔ P literal := by
  simp [Over]

theorem over_append {P : L → Prop} {first second : List (List L)} :
    Over P (first ++ second) ↔ Over P first ∧ Over P second := by
  simp [Over, or_imp, forall_and]

theorem over_cons {P : L → Prop} {conj : List L} {rest : List (List L)} :
    Over P (conj :: rest) ↔ (∀ literal ∈ conj, P literal) ∧ Over P rest := by
  simp [Over]

theorem Over.conjunction {P : L → Prop} {first second : List (List L)} (hfirst : Over P first)
    (hsecond : Over P second) : Over P (conjunction first second) := by
  intro conj hconj literal hliteral
  simp only [NormalForm.conjunction, List.mem_flatMap, List.mem_map] at hconj
  obtain ⟨right, hright, left, hleft, rfl⟩ := hconj
  rcases List.mem_append.mp hliteral with hliteral | hliteral
  · exact hfirst left hleft literal hliteral
  · exact hsecond right hright literal hliteral

theorem over_conjunction_iff {P : L → Prop} {first second : List (List L)} (hfirst : first ≠ [])
    (hsecond : second ≠ []) :
    Over P (conjunction first second) ↔ Over P first ∧ Over P second := by
  refine ⟨fun h => ?_, fun h => h.1.conjunction h.2⟩
  -- every conjunction stands in some product, since the other form has one too
  have hproduct : ∀ left ∈ first, ∀ right ∈ second, ∀ literal ∈ left ++ right, P literal := by
    intro left hleft right hright
    refine h (left ++ right) ?_
    simp only [NormalForm.conjunction, List.mem_flatMap, List.mem_map]
    exact ⟨right, hright, left, hleft, rfl⟩
  obtain ⟨someLeft, hsomeLeft⟩ := List.exists_mem_of_ne_nil _ hfirst
  obtain ⟨someRight, hsomeRight⟩ := List.exists_mem_of_ne_nil _ hsecond
  refine ⟨fun left hleft literal hliteral => ?_, fun right hright literal hliteral => ?_⟩
  · exact hproduct left hleft someRight hsomeRight literal (List.mem_append_left _ hliteral)
  · exact hproduct someLeft hsomeLeft right hright literal (List.mem_append_right _ hliteral)

theorem Over.dual {P : L → Prop} {inv : L → L} {conj : List L}
    (hconj : ∀ literal ∈ conj, P (inv literal)) : Over P (dual inv conj) := by
  intro inverted hinverted other hother
  simp only [NormalForm.dual, List.mem_map] at hinverted
  obtain ⟨literal, hliteral, rfl⟩ := hinverted
  rw [List.mem_singleton] at hother
  exact hother ▸ hconj literal hliteral

theorem Over.negateFrom {P : L → Prop} {inv : L → L} {acc form : List (List L)}
    (hacc : Over P acc) (hform : Over (fun literal => P (inv literal)) form) :
    Over P (negateFrom inv acc form) := by
  induction form generalizing acc with
  | nil => exact hacc
  | cons conj rest ih =>
      rw [over_cons] at hform
      exact ih (hacc.conjunction (Over.dual hform.1)) hform.2

theorem Over.negate {P : L → Prop} {inv : L → L} {form : List (List L)}
    (hform : Over (fun literal => P (inv literal)) form) : Over P (negate inv form) := by
  cases form with
  | nil => simp [Over, NormalForm.negate]
  | cons conj rest =>
      rw [over_cons] at hform
      exact Over.negateFrom (Over.dual hform.1) hform.2

end NormalForm
