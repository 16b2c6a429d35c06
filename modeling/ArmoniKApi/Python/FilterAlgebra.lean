import ArmoniKApi.Library.Fallible
import ArmoniKApi.Library.NormalForm
import ArmoniKApi.Python.FilterLeaf

/-!
# Combined Python filters are normal forms, and mean what they say

A combination of filters is kept as an OR of ANDs of leaves.  This file
connects the operators of `Filter.lean` to the normal forms of
`Library/NormalForm.lean`, whose literals are leaf filters: `Formed f form`
says that the filter `f` is a leaf or a combination that holds the proper
normal form `form`.  `&` multiplies two forms out, `|` appends them and `~`
negates one (`Formed.and`, `Formed.or`, `Formed.invert`).

`~` needs an inverse operator for every leaf of the form, and raises a
`FilterError` if there is none (`Formed.invert_error`).

`Normal f form` says in addition that the leaves are fully defined.  Then
`to_message` writes the form down (`Normal.toMessage`).

`Formed` and `Normal` are inductive, with a constructor for a leaf and one for a combination,
because the code treats the two in different ways until `to_disjunction` has wrapped a leaf.
Each operation has a lemma for the exact value it returns, as an equation in the Python monad.

```text
operation      on forms                        lemma
f | g          first ++ second                 Formed.or
f & g          conjunction first second        Formed.and
~f             negate inverse form             Formed.invert, if every leaf has an inverse
```

Negation is the one with loops.  `invertItems_eq` is the innermost one, over a conjunction;
`invertRest_cons` is one turn of the loop over the conjunctions, where the accumulator is
itself a filter that is multiplied with `&=`, and `invertRest_eq` is the induction over the
turns, with the accumulator generalized.  The `_error` lemmas follow the same recursion to the
first leaf without an inverse.
-/

namespace ArmoniKApi.Python

open Fallible NormalForm

/-! ## Combinations -/

/-- A conjunction as a Python list of filters. -/
def conjValue (conj : List Filter) : PyValue := .list (conj.map .filter)

/-- The value of a combination: a list of lists of filters. -/
def formValue (form : List (List Filter)) : PyValue := .list (form.map conjValue)

/-- The combination that holds a normal form. -/
def combination (disjunctionType conjunctionType : MessageType)
    (form : List (List Filter)) : Filter where
  cls := .filter
  field := none
  disjunctionMessageType := disjunctionType
  conjunctionMessageType := conjunctionType
  messageType := disjunctionType
  innerMessageType := none
  operator := none
  value := formValue form

/-- The filter is a combination in disjunctive normal form: a non-empty list of
non-empty lists of leaves. -/
def InNormalForm (disjunctionType conjunctionType : MessageType) (f : Filter) : Prop :=
  ∃ form, Proper form ∧ Over (IsLeaf disjunctionType conjunctionType) form ∧
    f = combination disjunctionType conjunctionType form

/-- The filter is a leaf, or a combination that holds the normal form. -/
inductive Formed (disjunctionType conjunctionType : MessageType) :
    Filter → List (List Filter) → Prop
  | leaf {f : Filter} (h : IsBuilt disjunctionType conjunctionType f) :
      Formed disjunctionType conjunctionType f [[f]]
  | combined {form : List (List Filter)} (hproper : Proper form)
      (hleaves : Over (IsBuilt disjunctionType conjunctionType) form) :
      Formed disjunctionType conjunctionType
        (combination disjunctionType conjunctionType form) form

/-- The filter is a fully defined leaf, or a combination that holds the normal form
of such leaves. -/
inductive Normal (disjunctionType conjunctionType : MessageType) :
    Filter → List (List Filter) → Prop
  | leaf {f : Filter} (h : IsLeaf disjunctionType conjunctionType f) :
      Normal disjunctionType conjunctionType f [[f]]
  | combined {form : List (List Filter)} (hproper : Proper form)
      (hleaves : Over (IsLeaf disjunctionType conjunctionType) form) :
      Normal disjunctionType conjunctionType
        (combination disjunctionType conjunctionType form) form

theorem isEmpty_combination {d c : MessageType} {form : List (List Filter)} (h : Proper form) :
    (combination d c form).isEmpty = false := by
  rcases form with _ | ⟨conj, rest⟩
  · exact absurd rfl h.ne_nil
  · rcases conj with _ | ⟨leaf, conj⟩
    · exact absurd rfl (h.conj_ne_nil [] (List.mem_cons_self ..))
    · rfl

namespace Formed

variable {d c : MessageType} {f g : Filter} {form other : List (List Filter)}

theorem proper (h : Formed d c f form) : Proper form := by
  cases h with
  | leaf h => exact Proper.singleton _
  | combined hproper hleaves => exact hproper

theorem leaves (h : Formed d c f form) : Over (IsBuilt d c) form := by
  cases h with
  | leaf h => exact over_singleton.mpr h
  | combined hproper hleaves => exact hleaves

theorem disjunctionMessageType (h : Formed d c f form) : f.disjunctionMessageType = d := by
  cases h with
  | leaf h => exact h.disjunctionMessageType
  | combined => rfl

theorem conjunctionMessageType (h : Formed d c f form) : f.conjunctionMessageType = c := by
  cases h with
  | leaf h => exact h.conjunctionMessageType
  | combined => rfl

theorem disjunction (h : Formed d c f form) (forms : List (List Filter)) :
    f.disjunction (formValue forms) = combination d c forms := by
  simp only [FilterOf.disjunction, h.disjunctionMessageType, h.conjunctionMessageType]
  rfl

theorem checkCompatible (hf : Formed d c f form) (hg : Formed d c g other) :
    f.checkCompatible g = .ok () := by
  simp only [FilterOf.checkCompatible, hf.disjunctionMessageType, hg.disjunctionMessageType,
    hf.conjunctionMessageType, hg.conjunctionMessageType, and_self, if_true]
  rfl

/-- `to_disjunction` wraps a leaf and returns a combination as it is. -/
theorem toDisjunction (h : Formed d c f form) (hempty : f.isEmpty = false) :
    f.toDisjunction = .ok (combination d c form) := by
  cases h with
  | leaf h =>
      simp only [FilterOf.toDisjunction, hempty, h.operator_eq]
      exact congrArg Except.ok ((Formed.leaf h).disjunction [[f]])
  | combined hproper hleaves =>
      simp only [FilterOf.toDisjunction, hempty]
      rfl

/-! ## The operators on normal forms -/

/-- `|` appends. -/
theorem or (hf : Formed d c f form) (hg : Formed d c g other) (hfempty : f.isEmpty = false)
    (hgempty : g.isEmpty = false) : f.or g = .ok (combination d c (form ++ other)) := by
  simp only [FilterOf.or, hf.checkCompatible hg, hf.toDisjunction hfempty,
    hg.toDisjunction hgempty]
  have hvalue : (formValue form).concat (formValue other) = .ok (formValue (form ++ other)) := by
    simp only [formValue, PyValue.concat, List.map_append]
    rfl
  calc _ = (do return f.disjunction (← (formValue form).concat (formValue other))) := rfl
    _ = .ok (f.disjunction (formValue (form ++ other))) := by rw [hvalue]; rfl
    _ = _ := by rw [hf.disjunction]

/-- `&` multiplies out. -/
theorem and (hf : Formed d c f form) (hg : Formed d c g other) (hfempty : f.isEmpty = false)
    (hgempty : g.isEmpty = false) : f.and g = .ok (combination d c (conjunction form other)) := by
  -- `right` is in the outer loop, as it is in `conjunction`
  have hinner : ∀ right ∈ other,
      (do let left ← (← f.toDisjunction).value.iterate
          left.mapM fun c1 => c1.concat (conjValue right) : PyResult (List PyValue)) =
        .ok (form.map fun left => conjValue (left ++ right)) := by
    intro right _
    have hconcat : (form.map conjValue).mapM (fun c1 => c1.concat (conjValue right)) =
        .ok (form.map fun left => conjValue (left ++ right)) :=
      mapM_map_eq_ok fun left _ => by
        simp only [conjValue, PyValue.concat, List.map_append]
        rfl
    rw [hf.toDisjunction hfempty]
    exact hconcat
  have hproducts : ((other.map conjValue).mapM fun c2 => do
        let left ← (← f.toDisjunction).value.iterate
        left.mapM fun c1 => PyValue.concat c1 c2) =
      .ok (other.map fun right => form.map fun left => conjValue (left ++ right)) :=
    mapM_map_eq_ok hinner
  have hflatten : (other.map fun right => form.map fun left => conjValue (left ++ right)).flatten =
      (conjunction form other).map conjValue := by
    simp only [conjunction, List.flatMap_def, List.map_flatten, List.map_map,
      Function.comp_def]
  calc f.and g
      = (do let products ← (other.map conjValue).mapM fun c2 => do
              let left ← (← f.toDisjunction).value.iterate
              left.mapM fun c1 => c1.concat c2
            return f.disjunction (.list products.flatten)) := by
        simp only [FilterOf.and, hf.checkCompatible hg, hg.toDisjunction hgempty]
        rfl
    _ = .ok (f.disjunction (.list ((conjunction form other).map conjValue))) := by
        rw [hproducts, ← hflatten]
        rfl
    _ = _ := congrArg Except.ok (hf.disjunction _)

theorem or_formed (hf : Formed d c f form) (hg : Formed d c g other) :
    Formed d c (combination d c (form ++ other)) (form ++ other) :=
  .combined (hf.proper.append hg.proper) (over_append.mpr ⟨hf.leaves, hg.leaves⟩)

theorem and_formed (hf : Formed d c f form) (hg : Formed d c g other) :
    Formed d c (combination d c (conjunction form other)) (conjunction form other) :=
  .combined (hf.proper.conjunction hg.proper) (hf.leaves.conjunction hg.leaves)

end Formed

/-! ## Negation -/

variable {d c : MessageType}

theorem invertItems_eq {conj : List Filter} (hleaves : ∀ leaf ∈ conj, IsBuilt d c leaf)
    (hinv : ∀ leaf ∈ conj, leaf.HasInverse) :
    invertItems (conj.map .filter) = .ok ((dual FilterOf.inverse conj).map conjValue) := by
  induction conj with
  | nil =>
      rw [List.map_nil, invertItems]
      rfl
  | cons leaf rest ih =>
      have hrest := ih (fun other hother => hleaves other (List.mem_cons_of_mem _ hother))
        fun other hother => hinv other (List.mem_cons_of_mem _ hother)
      have hleaf := (hleaves leaf (List.mem_cons_self ..)).invert_eq
        (hinv leaf (List.mem_cons_self ..))
      simp only [List.map_cons, invertItems, PyValue.invert, hleaf, hrest]
      rfl

/-- A conjunction with a leaf that has no inverse. -/
theorem invertItems_error {conj : List Filter} (hleaves : ∀ leaf ∈ conj, IsBuilt d c leaf)
    (hno : ¬∀ leaf ∈ conj, leaf.HasInverse) :
    RaisesFilterError (invertItems (conj.map .filter)) := by
  induction conj with
  | nil => exact absurd (List.forall_mem_nil _) hno
  | cons leaf rest ih =>
      have hleaf := hleaves leaf (List.mem_cons_self ..)
      simp only [List.map_cons, invertItems, PyValue.invert]
      by_cases hinv : leaf.HasInverse
      · have hrest : ¬∀ other ∈ rest, other.HasInverse :=
          fun hall => hno (List.forall_mem_cons.mpr ⟨hinv, hall⟩)
        obtain ⟨filter, message, herror⟩ :=
          ih (fun other hother => hleaves other (List.mem_cons_of_mem _ hother)) hrest
        rw [hleaf.invert_eq hinv, herror]
        exact ⟨filter, message, rfl⟩
      · obtain ⟨filter, message, herror⟩ := hleaf.invert_error hinv
        rw [herror]
        exact ⟨filter, message, rfl⟩

/-- The negation of one conjunction. -/
theorem formed_dual {conj : List Filter} (hconj : conj ≠ [])
    (hleaves : ∀ leaf ∈ conj, IsBuilt d c leaf) (hinv : ∀ leaf ∈ conj, leaf.HasInverse) :
    Formed d c (combination d c (dual FilterOf.inverse conj))
      (dual FilterOf.inverse conj) :=
  .combined (Proper.dual hconj)
    (Over.dual fun leaf hleaf => (hleaves leaf hleaf).inverse (hinv leaf hleaf))

/-- One step of the loop of `__invert__`: `new_filter &= …`. -/
theorem invertRest_cons {self : Filter} {forms acc : List (List Filter)} {conj : List Filter}
    (form : List (List Filter)) (hself : Formed d c self forms)
    (hacc : Formed d c (combination d c acc) acc) (hconj : conj ≠ [])
    (hleaves : ∀ leaf ∈ conj, IsBuilt d c leaf) (hinv : ∀ leaf ∈ conj, leaf.HasInverse) :
    Formed d c (combination d c (conjunction acc (dual FilterOf.inverse conj)))
        (conjunction acc (dual FilterOf.inverse conj)) ∧
      invertRest self (combination d c acc) ((conj :: form).map conjValue) =
        invertRest self (combination d c (conjunction acc (dual FilterOf.inverse conj)))
          (form.map conjValue) := by
  have hdual := formed_dual hconj hleaves hinv
  refine ⟨hacc.and_formed hdual, ?_⟩
  calc invertRest self (combination d c acc) ((conj :: form).map conjValue)
      = (do let negated ← invertItems (conj.map .filter)
            let newFilter ← (combination d c acc).and (self.disjunction (.list negated))
            invertRest self newFilter (form.map conjValue)) := by
        rw [List.map_cons, invertRest, conjValue, invertConj]
    _ = (do let newFilter ← (combination d c acc).and
              (combination d c (dual FilterOf.inverse conj))
            invertRest self newFilter (form.map conjValue)) := by
        rw [invertItems_eq hleaves hinv, ← hself.disjunction (dual FilterOf.inverse conj)]
        rfl
    _ = _ := by
        rw [hacc.and hdual (isEmpty_combination hacc.proper) (isEmpty_combination hdual.proper)]
        rfl

theorem invertRest_eq {self : Filter} {forms acc form : List (List Filter)}
    (hself : Formed d c self forms) (hacc : Formed d c (combination d c acc) acc)
    (hproper : ∀ conj ∈ form, conj ≠ []) (hleaves : Over (IsBuilt d c) form)
    (hinv : Over FilterOf.HasInverse form) :
    invertRest self (combination d c acc) (form.map conjValue) =
      .ok (combination d c (negateFrom FilterOf.inverse acc form)) := by
  induction form generalizing acc with
  | nil =>
      rw [List.map_nil, invertRest]
      rfl
  | cons conj rest ih =>
      rw [over_cons] at hleaves hinv
      -- the accumulator stays the combination of a normal form
      obtain ⟨hnext, hstep⟩ := invertRest_cons rest hself hacc
        (hproper conj (List.mem_cons_self ..)) hleaves.1 hinv.1
      rw [hstep]
      exact ih hnext (fun other hother => hproper other (List.mem_cons_of_mem _ hother))
        hleaves.2 hinv.2

/-- The loop raises at the first conjunction with a leaf that has no inverse. -/
theorem invertRest_error {self : Filter} {forms acc form : List (List Filter)}
    (hself : Formed d c self forms) (hacc : Formed d c (combination d c acc) acc)
    (hproper : ∀ conj ∈ form, conj ≠ []) (hleaves : Over (IsBuilt d c) form)
    (hno : ¬Over FilterOf.HasInverse form) :
    RaisesFilterError (invertRest self (combination d c acc) (form.map conjValue)) := by
  induction form generalizing acc with
  | nil => exact absurd (List.forall_mem_nil _) hno
  | cons conj rest ih =>
      rw [over_cons] at hleaves hno
      by_cases hinv : ∀ leaf ∈ conj, leaf.HasInverse
      · obtain ⟨hnext, hstep⟩ := invertRest_cons rest hself hacc
          (hproper conj (List.mem_cons_self ..)) hleaves.1 hinv
        rw [hstep]
        exact ih hnext (fun other hother => hproper other (List.mem_cons_of_mem _ hother))
          hleaves.2 fun hrest => hno ⟨hinv, hrest⟩
      · obtain ⟨filter, message, herror⟩ := invertItems_error hleaves.1 hinv
        rw [List.map_cons, invertRest, conjValue, invertConj, herror]
        exact ⟨filter, message, rfl⟩

namespace Formed

variable {f g : Filter} {form : List (List Filter)}

/-- `~` on a combination goes through its conjunctions. -/
theorem invert_combination (hproper : Proper form) :
    (combination d c form).invert =
      (invertConjs (combination d c form) (form.map conjValue)).mapError
        (combination d c form).rewrapError := by
  have hempty := isEmpty_combination (d := d) (c := c) hproper
  calc (combination d c form).invert
      = (invertValue (combination d c form) (formValue form)).mapError
          (combination d c form).rewrapError :=
        FilterOf.invert_of_no_operator (by simp [combination]) rfl hempty
    _ = _ := by rw [formValue, invertValue]

/-- `~` negates the normal form. -/
theorem invert (h : Formed d c f form) (hinv : Over FilterOf.HasInverse form) :
    ∃ g, f.invert = .ok g ∧ Formed d c g (negate FilterOf.inverse form) ∧
      g.isEmpty = f.isEmpty := by
  cases h with
  | leaf h =>
      have hf := over_singleton.mp hinv
      exact ⟨f.inverse, h.invert_eq hf, .leaf (h.inverse hf), h.inverse_isEmpty⟩
  | combined hproper hleaves =>
      have hself := Formed.combined hproper hleaves
      have hnegated : Over (fun leaf => IsBuilt d c leaf.inverse) form :=
        fun conj hconj leaf hleaf =>
          (hleaves conj hconj leaf hleaf).inverse (hinv conj hconj leaf hleaf)
      refine ⟨_, ?_, .combined hproper.negate (Over.negate hnegated),
        (isEmpty_combination hproper.negate).trans (isEmpty_combination hproper).symm⟩
      rw [invert_combination hproper]
      rcases form with _ | ⟨conj, rest⟩
      · exact absurd rfl hproper.ne_nil
      rw [over_cons] at hleaves hinv
      have hfirst := formed_dual (hproper.conj_ne_nil conj (List.mem_cons_self ..)) hleaves.1 hinv.1
      have hrest := invertRest_eq hself hfirst
        (fun other hother => hproper.conj_ne_nil other (List.mem_cons_of_mem _ hother))
        hleaves.2 hinv.2
      rw [List.map_cons, invertConjs, conjValue, invertConj, invertItems_eq hleaves.1 hinv.1]
      calc _ = (invertRest (combination d c (conj :: rest))
              ((combination d c (conj :: rest)).disjunction
                (formValue (dual FilterOf.inverse conj))) (rest.map conjValue)).mapError
              (combination d c (conj :: rest)).rewrapError := rfl
        _ = _ := by
            rw [hself.disjunction, hrest]
            rfl

/-- `~` raises if a leaf of the form has no inverse. -/
theorem invert_error (h : Formed d c f form) (hno : ¬Over FilterOf.HasInverse form) :
    RaisesFilterError f.invert := by
  cases h with
  | leaf h => exact h.invert_error fun hinv => hno (over_singleton.mpr hinv)
  | combined hproper hleaves =>
      have hself := Formed.combined hproper hleaves
      rw [invert_combination hproper]
      -- the `except` clause makes one `FilterError` of another
      have hconjs : RaisesFilterError
          (invertConjs (combination d c form) (form.map conjValue)) := by
        rcases form with _ | ⟨conj, rest⟩
        · exact absurd rfl hproper.ne_nil
        rw [over_cons] at hleaves hno
        rw [List.map_cons, invertConjs, conjValue, invertConj]
        by_cases hinv : ∀ leaf ∈ conj, leaf.HasInverse
        · have hfirst :=
            formed_dual (hproper.conj_ne_nil conj (List.mem_cons_self ..)) hleaves.1 hinv
          obtain ⟨filter, message, herror⟩ := invertRest_error hself hfirst
            (fun other hother => hproper.conj_ne_nil other (List.mem_cons_of_mem _ hother))
            hleaves.2 fun hrest => hno ⟨hinv, hrest⟩
          refine ⟨filter, message, ?_⟩
          rw [invertItems_eq hleaves.1 hinv, ← herror, ← hself.disjunction]
          rfl
        · obtain ⟨filter, message, herror⟩ := invertItems_error hleaves.1 hinv
          rw [herror]
          exact ⟨filter, message, rfl⟩
      obtain ⟨filter, message, herror⟩ := hconjs
      rw [herror]
      exact ⟨_, _, rfl⟩

/-- A filter whose leaves are fully defined. -/
theorem normal (h : Formed d c f form) (hleaves : Over (IsLeaf d c) form) :
    Normal d c f form := by
  cases h with
  | leaf h => exact .leaf (over_singleton.mp hleaves)
  | combined hproper _ => exact .combined hproper hleaves

end Formed

namespace Normal

variable {f g : Filter} {form other : List (List Filter)}

theorem formed (h : Normal d c f form) : Formed d c f form := by
  cases h with
  | leaf h => exact .leaf h.isBuilt
  | combined hproper hleaves => exact .combined hproper (hleaves.mono fun _ h => h.isBuilt)

theorem proper (h : Normal d c f form) : Proper form := h.formed.proper

theorem leaves (h : Normal d c f form) : Over (IsLeaf d c) form := by
  cases h with
  | leaf h => exact over_singleton.mpr h
  | combined hproper hleaves => exact hleaves

theorem isLeaf_or_inNormalForm (h : Normal d c f form) : IsLeaf d c f ∨ InNormalForm d c f := by
  cases h with
  | leaf h => exact .inl h
  | combined hproper hleaves => exact .inr ⟨_, hproper, hleaves, rfl⟩

theorem isEmpty (h : Normal d c f form) : f.isEmpty = false := by
  cases h with
  | leaf h => exact h.isEmpty
  | combined hproper hleaves => exact isEmpty_combination hproper

theorem toDisjunction (h : Normal d c f form) :
    f.toDisjunction = .ok (combination d c form) := h.formed.toDisjunction h.isEmpty

/-- `|` appends. -/
theorem or (hf : Normal d c f form) (hg : Normal d c g other) :
    f.or g = .ok (combination d c (form ++ other)) :=
  hf.formed.or hg.formed hf.isEmpty hg.isEmpty

/-- `&` multiplies out. -/
theorem and (hf : Normal d c f form) (hg : Normal d c g other) :
    f.and g = .ok (combination d c (conjunction form other)) :=
  hf.formed.and hg.formed hf.isEmpty hg.isEmpty

theorem or_normal (hf : Normal d c f form) (hg : Normal d c g other) :
    Normal d c (combination d c (form ++ other)) (form ++ other) :=
  .combined (hf.proper.append hg.proper) (over_append.mpr ⟨hf.leaves, hg.leaves⟩)

theorem and_normal (hf : Normal d c f form) (hg : Normal d c g other) :
    Normal d c (combination d c (conjunction form other)) (conjunction form other) :=
  .combined (hf.proper.conjunction hg.proper) (hf.leaves.conjunction hg.leaves)

/-- `~` negates the normal form. -/
theorem invert (h : Normal d c f form) (hinv : Over FilterOf.HasInverse form) :
    ∃ g, f.invert = .ok g ∧ Normal d c g (negate FilterOf.inverse form) := by
  obtain ⟨g, hg, hformed, -⟩ := h.formed.invert hinv
  have hnegated : Over (fun leaf => IsLeaf d c leaf.inverse) form :=
    fun conj hconj leaf hleaf =>
      (h.leaves conj hconj leaf hleaf).inverse (hinv conj hconj leaf hleaf)
  exact ⟨g, hg, hformed.normal (Over.negate hnegated)⟩

/-- `~` succeeds only if every leaf of the form has an inverse. -/
theorem hasInverse_of_invert (h : Normal d c f form) (hok : f.invert = .ok g) :
    Over FilterOf.HasInverse form := by
  by_contra hno
  obtain ⟨filter, message, herror⟩ := h.formed.invert_error hno
  cases herror.symm.trans hok

end Normal

/-! ## Messages -/

/-- The message of a normal form. -/
def formMessage (disjunctionType conjunctionType : MessageType) (form : List (List Filter)) :
    DisjunctionMessage where
  messageType := disjunctionType
  or := form.map fun conj => ⟨conjunctionType, conj.map FilterOf.condition⟩

section Emitted

/-! The messages of a form whose leaves emit `condition`. -/

variable {condition : Filter → BasicMessage}

theorem holds_map (v : BasicMessage → Bool) (form : List (List Filter)) :
    DisjunctionMessage.holds v ⟨d, form.map fun conj => ⟨c, conj.map condition⟩⟩ =
      holds (fun leaf => v (condition leaf)) form := by
  simp only [DisjunctionMessage.holds, holds, List.any_map, Function.comp_def, List.all_map]

theorem toConjunctionMessage_eq {self : Filter} {conj : List Filter}
    (hself : self.conjunctionMessageType = c)
    (hleaves : ∀ leaf ∈ conj, leaf.toBasicMessage = .ok (condition leaf)) :
    self.toConjunctionMessage (conjValue conj) = .ok ⟨c, conj.map condition⟩ := by
  have hitems : (conj.map PyValue.filter).mapM FilterOf.itemMessage =
      .ok (conj.map condition) :=
    mapM_map_eq_ok fun leaf hleaf => hleaves leaf hleaf
  calc self.toConjunctionMessage (conjValue conj)
      = (do return ⟨self.conjunctionMessageType,
          ← (conj.map PyValue.filter).mapM FilterOf.itemMessage⟩) := rfl
    _ = _ := by
        rw [hitems, hself]
        rfl

theorem disjunctionToMessage_eq {form : List (List Filter)}
    (hleaves : Over (fun leaf => leaf.toBasicMessage = .ok (condition leaf)) form) :
    (combination d c form).disjunctionToMessage =
      .ok ⟨d, form.map fun conj => ⟨c, conj.map condition⟩⟩ := by
  have hconjs : (form.map conjValue).mapM (combination d c form).toConjunctionMessage =
      .ok (form.map fun conj => ⟨c, conj.map condition⟩) :=
    mapM_map_eq_ok fun conj hconj => toConjunctionMessage_eq rfl (hleaves conj hconj)
  calc (combination d c form).disjunctionToMessage
      = (do return ⟨d, ← (form.map conjValue).mapM (combination d c form).toConjunctionMessage⟩) :=
        rfl
    _ = _ := by
        rw [hconjs]
        rfl

end Emitted

theorem formMessage_holds (v : BasicMessage → Bool) (form : List (List Filter)) :
    (formMessage d c form).holds v = holds (fun leaf => v leaf.condition) form :=
  holds_map v form

/-- What a filter emits, its combination emits. -/
theorem Formed.toMessage {f : Filter} {form : List (List Filter)} (h : Formed d c f form)
    (hempty : f.isEmpty = false) :
    f.toMessage = (combination d c form).disjunctionToMessage := by
  have hcombination : (combination d c form).isDisjunction = true := by
    simp [FilterOf.isDisjunction, combination]
  have hwrapped := h.toDisjunction hempty
  unfold FilterOf.toMessage
  cases h with
  | leaf hleaf =>
      rw [hleaf.isDisjunction, hwrapped]
      exact if_pos hcombination
  | combined hproper hleaves => rw [if_pos hcombination]

/-- `to_message` emits the normal form. -/
theorem Normal.toMessage {f : Filter} {form : List (List Filter)} (h : Normal d c f form) :
    f.toMessage = .ok (formMessage d c form) := by
  rw [h.formed.toMessage h.isEmpty]
  exact disjunctionToMessage_eq (h.leaves.mono fun _ hleaf => hleaf.toBasicMessage)

end ArmoniKApi.Python
