import ArmoniKApi.Python.FilterEmits

/-!
# When a filter can be negated

`~` raises a `FilterError` on a filter that has neither operator nor value, and on
one that says `startswith` or `endswith` somewhere, since these operators have no
inverse.  On every other filter that users build it succeeds, and `~(~f)` means
what `f` means (`invert_iff`).

The two forms are not the same.  A combination of `n` conjunctions of `m` leaves
has a negation of `m ^ n` conjunctions, and negating that one gives a form larger
still, with the leaves of the first.

`Fresh` are the filters that nothing has been compared with, `Combined` those that
users build from them.  The meaning of a filter is read off its leaves
(`FilterOf.holds`), so that a filter with a value that no message can hold has one
too.

## Strategy

Negating twice cannot give the same filter, so the statement is about meanings, and there are
two: under assignments to the leaves, which every combination has, and under assignments to
the conditions that are emitted, if it can be emitted (`FilterOf.emitted`).

* `Combined` is the derivation of what users build, and `HoldsForm` its invariant: the filter
  holds some normal form.  Each operator keeps it (`and`, `or`, `invert`, `xor`).
* `Formed.over_hasInverse_iff` reads off a form whether it can be negated: every leaf has an
  inverse, or `startswith` or `endswith` stands somewhere.  The library's `over_conjunction_iff`
  makes this an equivalence for products as well.
* `invert_invert`: the leaves of a negation are inverses of the leaves, and these have inverses
  again, so `~(~f)` is there whenever `~f` is.
* `means_of_negated_twice` is the library's `holds_negate_negate`, over the leaves and over the
  conditions they emit.
* `IsBlank.of_fresh_or_combined` finds the filters with nothing to negate.
-/

namespace ArmoniKApi.Python

open Fallible NormalForm
open Proto (FilterBooleanOperator)

/-! ## What users build -/

/-- The filter has the defaults of its class: `BooleanFilter` compares with `True`,
and the others have neither operator nor value. -/
def FilterOf.HasDefaults (f : Filter) : Prop :=
  if f.cls = .boolean then
    f.operator = some (.simple FilterBooleanOperator.is.number) ∧ f.value = .bool true
  else
    f.operator = none ∧ f.value = .none

/-- A filter that nothing has been compared with.  On a field, its message is not
that of a disjunction. -/
structure Fresh (disjunctionType conjunctionType : MessageType) (f : Filter) : Prop where
  disjunctionMessageType : f.disjunctionMessageType = disjunctionType
  conjunctionMessageType : f.conjunctionMessageType = conjunctionType
  messageType_ne : f.cls ≠ .filter → f.messageType ≠ disjunctionType
  defaults : f.HasDefaults

/-- The class declares an operator for the comparison.  `BooleanFilter` declares its
`!=` as a method. -/
def FilterClass.Declares (cls : FilterClass) (comparison : Comparison) : Prop :=
  (∃ n, cls.operatorOf comparison = some (.simple n)) ∨ cls = .boolean ∧ comparison = .ne

/-- The leaves that comparisons build, and their combinations.  `*`, `+` and `-` are
`&`, `|` and `~`. -/
inductive Combined (disjunctionType conjunctionType : MessageType) : Filter → Prop
  | leaf {f leaf : Filter} {comparison : Comparison} {value : PyValue}
      (hf : Fresh disjunctionType conjunctionType f) (hdeclares : f.cls.Declares comparison)
      (hok : f.compare value comparison = .ok leaf) : Combined disjunctionType conjunctionType leaf
  | and {f g result : Filter} (hf : Combined disjunctionType conjunctionType f)
      (hg : Combined disjunctionType conjunctionType g) (hok : f.and g = .ok result) :
      Combined disjunctionType conjunctionType result
  | or {f g result : Filter} (hf : Combined disjunctionType conjunctionType f)
      (hg : Combined disjunctionType conjunctionType g) (hok : f.or g = .ok result) :
      Combined disjunctionType conjunctionType result
  | invert {f result : Filter} (hf : Combined disjunctionType conjunctionType f)
      (hok : f.invert = .ok result) : Combined disjunctionType conjunctionType result
  | xor {f g result : Filter} (hf : Combined disjunctionType conjunctionType f)
      (hg : Combined disjunctionType conjunctionType g) (hok : f.xor g = .ok result) :
      Combined disjunctionType conjunctionType result

/-! ## The leaves of a filter -/

/-- The filter that an object is. -/
def PyValue.filter? : PyValue → Option Filter
  | .filter f => some f
  | _ => Option.none

/-- The filters of a conjunction. -/
def PyValue.filters : PyValue → List Filter
  | .list items => items.filterMap PyValue.filter?
  | _ => []

/-- The conjunctions of a filter.  A filter with an operator, or without a list, is
its only leaf. -/
def FilterOf.form (f : Filter) : List (List Filter) :=
  match f.operator, f.value with
  | none, .list conjs => conjs.map PyValue.filters
  | _, _ => [[f]]

/-- The truth value of a filter under an assignment to its leaves. -/
def FilterOf.holds (v : Filter → Bool) (f : Filter) : Bool := NormalForm.holds v f.form

/-- Some leaf of the filter says `startswith` or `endswith`. -/
def FilterOf.SomeLacksInverse (f : Filter) : Prop :=
  ∃ conj ∈ f.form, ∃ leaf ∈ conj, leaf.LacksInverse

variable {d c : MessageType} {f g result : Filter} {form : List (List Filter)}

theorem filters_conjValue (conj : List Filter) : (conjValue conj).filters = conj := by
  calc (conjValue conj).filters = (conj.map PyValue.filter).filterMap PyValue.filter? := rfl
    _ = conj.filterMap some := List.filterMap_map
    _ = conj := List.filterMap_some

theorem Formed.form_eq (h : Formed d c f form) : f.form = form := by
  cases h with
  | leaf h =>
      unfold FilterOf.form
      rw [h.operator_eq]
  | combined hproper hleaves =>
      calc (combination d c form).form = (form.map conjValue).map PyValue.filters := rfl
        _ = form := by simp [Function.comp_def, filters_conjValue]

/-- Every leaf has an inverse, or `startswith` or `endswith` stands somewhere. -/
theorem Formed.over_hasInverse_iff (h : Formed d c f form) :
    Over FilterOf.HasInverse form ↔ ¬f.SomeLacksInverse := by
  unfold FilterOf.SomeLacksInverse
  rw [h.form_eq]
  constructor
  · rintro hinv ⟨conj, hconj, leaf, hleaf, hlacks⟩
    have hbuilt := h.leaves conj hconj leaf hleaf
    exact hbuilt.not_hasInverse_iff.mpr hlacks (hinv conj hconj leaf hleaf)
  · intro hno conj hconj leaf hleaf
    have hbuilt := h.leaves conj hconj leaf hleaf
    by_contra hinv
    exact hno ⟨conj, hconj, leaf, hleaf, hbuilt.not_hasInverse_iff.mp hinv⟩

/-! ## Fresh filters -/

theorem FilterClass.Declares.ne_filter {cls : FilterClass} {comparison : Comparison}
    (h : cls.Declares comparison) : cls ≠ .filter := by
  rintro rfl
  rcases h with ⟨n, hn⟩ | ⟨hcls, -⟩
  · cases comparison <;> cases hn
  · cases hcls

/-- What the class has taken, it takes again and leaves it as it is. -/
theorem sanitizeValue_sanitized {value sanitized : PyValue}
    (hok : f.sanitizeValue value = .ok sanitized) :
    f.sanitizeValue sanitized = .ok sanitized := by
  unfold FilterOf.sanitizeValue at hok
  split at hok
  all_goals first
    | exact absurd hok FilterOf.wrongValueType_ne_ok
    | cases hok
  all_goals
    rename_i hcls
    simp only [FilterOf.sanitizeValue, hcls]
    rfl

namespace Fresh

/-- A boolean field is a leaf from the start. -/
theorem isBuilt (h : Fresh d c f) (hcls : f.cls = .boolean) : IsBuilt d c f := by
  have hdefaults := h.defaults
  rw [FilterOf.HasDefaults, if_pos hcls] at hdefaults
  have hne : f.cls ≠ .filter := by
    rw [hcls]
    exact nofun
  refine ⟨hne, h.disjunctionMessageType, h.conjunctionMessageType, h.messageType_ne hne,
    ⟨_, ?_, hdefaults.1⟩, ?_⟩
  · rw [hcls]
    exact List.mem_cons_self ..
  · rw [hdefaults.2]
    exact FilterOf.sanitizeValue_of_boolean hcls true

theorem isBlank (h : Fresh d c f) (hcls : f.cls ≠ .boolean) : IsBlank d c f := by
  have hdefaults := h.defaults
  rw [FilterOf.HasDefaults, if_neg hcls] at hdefaults
  exact ⟨hcls, h.disjunctionMessageType, h.conjunctionMessageType, hdefaults.1, hdefaults.2⟩

/-- A leaf that a comparison builds. -/
theorem isBuilt_of_compare (h : Fresh d c f) {comparison : Comparison} {value : PyValue}
    (hdeclares : f.cls.Declares comparison) (hok : f.compare value comparison = .ok result) :
    IsBuilt d c result := by
  by_cases hcls : f.cls = .boolean
  · have hbuilt := h.isBuilt hcls
    obtain ⟨b, hval, -⟩ := hbuilt.boolean_cases hcls
    have hvalue : f.value ≠ .none := by
      rw [hval]
      exact nofun
    rcases compare_of_value_ne hvalue hok with ⟨-, rfl | hinvert⟩ | ⟨-, other, hwith⟩
    · exact hbuilt
    · have hinv : f.HasInverse := ⟨_, hbuilt.complementary_of_boolean hcls⟩
      rw [hbuilt.invert_eq hinv] at hinvert
      exact Except.ok.inj hinvert ▸ hbuilt.inverse hinv
    · -- the `!=` of `BooleanFilter`
      obtain ⟨-, -, sanitized, hsanitized, rfl⟩ := withOperation_eq_ok hwith
      refine ⟨hbuilt.cls_ne, h.disjunctionMessageType, h.conjunctionMessageType,
        hbuilt.messageType_ne, ⟨FilterBooleanOperator.is.number, ?_, ?_⟩,
        FilterOf.sanitizeValue_of_same (f := f) rfl (sanitizeValue_sanitized hsanitized)⟩
      · rw [hcls]
        exact List.mem_cons_self ..
      · rw [hcls]
        rfl
  · have hblank := h.isBlank hcls
    have hne := hdeclares.ne_filter
    obtain ⟨hoperator, -, sanitized, hsanitized, rfl⟩ := compare_of_value hblank.value hcls hok
    have hmem : ∃ n ∈ f.cls.operators, f.cls.operatorOf comparison = some (.simple n) := by
      rcases operatorOf_cases hne hcls hoperator with hsimple | ⟨harray, hspecial⟩
      · exact hsimple
      · rcases hdeclares with ⟨n, hn⟩ | ⟨hboolean, -⟩
        · rw [harray] at hn
          rcases hspecial with rfl | rfl <;> cases hn
        · exact absurd hboolean hcls
    exact ⟨hne, h.disjunctionMessageType, h.conjunctionMessageType, h.messageType_ne hne, hmem,
      FilterOf.sanitizeValue_of_same (f := f) rfl (sanitizeValue_sanitized hsanitized)⟩

end Fresh

/-! ## Combined filters hold normal forms -/

theorem Formed.nonempty_of_and {other : List (List Filter)} (hf : Formed d c f form)
    (hg : Formed d c g other) (hok : f.and g = .ok result) :
    f.isEmpty = false ∧ g.isEmpty = false := by
  have hcompatible := hf.checkCompatible hg
  cases hgempty : g.isEmpty with
  | true =>
      rw [FilterOf.and, hcompatible, FilterOf.toDisjunction_of_isEmpty hgempty] at hok
      cases hok
  | false =>
      cases hfempty : f.isEmpty with
      | true =>
          obtain ⟨conj, rest, rfl⟩ := List.exists_cons_of_ne_nil hg.proper.ne_nil
          rw [FilterOf.and, hcompatible, hg.toDisjunction hgempty,
            FilterOf.toDisjunction_of_isEmpty hfempty] at hok
          cases hok
      | false => exact ⟨rfl, rfl⟩

theorem Formed.nonempty_of_or {other : List (List Filter)} (hf : Formed d c f form)
    (hg : Formed d c g other) (hok : f.or g = .ok result) :
    f.isEmpty = false ∧ g.isEmpty = false := by
  have hcompatible := hf.checkCompatible hg
  cases hfempty : f.isEmpty with
  | true =>
      rw [FilterOf.or, hcompatible, FilterOf.toDisjunction_of_isEmpty hfempty] at hok
      cases hok
  | false =>
      cases hgempty : g.isEmpty with
      | true =>
          rw [FilterOf.or, hcompatible, hf.toDisjunction hfempty,
            FilterOf.toDisjunction_of_isEmpty hgempty] at hok
          cases hok
      | false => exact ⟨rfl, rfl⟩

/-- The filter holds some normal form. -/
def HoldsForm (disjunctionType conjunctionType : MessageType) (f : Filter) : Prop :=
  ∃ form, Formed disjunctionType conjunctionType f form

namespace HoldsForm

theorem and (hf : HoldsForm d c f) (hg : HoldsForm d c g) (hok : f.and g = .ok result) :
    HoldsForm d c result := by
  obtain ⟨left, hleft⟩ := hf
  obtain ⟨right, hright⟩ := hg
  obtain ⟨hfempty, hgempty⟩ := hleft.nonempty_of_and hright hok
  rw [hleft.and hright hfempty hgempty] at hok
  exact ⟨_, Except.ok.inj hok ▸ hleft.and_formed hright⟩

theorem or (hf : HoldsForm d c f) (hg : HoldsForm d c g) (hok : f.or g = .ok result) :
    HoldsForm d c result := by
  obtain ⟨left, hleft⟩ := hf
  obtain ⟨right, hright⟩ := hg
  obtain ⟨hfempty, hgempty⟩ := hleft.nonempty_of_or hright hok
  rw [hleft.or hright hfempty hgempty] at hok
  exact ⟨_, Except.ok.inj hok ▸ hleft.or_formed hright⟩

theorem invert (hf : HoldsForm d c f) (hok : f.invert = .ok result) : HoldsForm d c result := by
  obtain ⟨form, hform⟩ := hf
  by_cases hinv : Over FilterOf.HasInverse form
  · obtain ⟨g, hg, hnegated, -⟩ := hform.invert hinv
    rw [hg] at hok
    exact ⟨_, Except.ok.inj hok ▸ hnegated⟩
  · obtain ⟨filter, message, herror⟩ := hform.invert_error hinv
    cases herror.symm.trans hok

/-- `a ^ b` is `(a & ~b) | (~a & b)`. -/
theorem xor (hf : HoldsForm d c f) (hg : HoldsForm d c g) (hok : f.xor g = .ok result) :
    HoldsForm d c result := by
  obtain ⟨invertedRight, hinvertedRight, hok⟩ := bind_eq_ok hok
  obtain ⟨left, hleft, hok⟩ := bind_eq_ok hok
  obtain ⟨invertedLeft, hinvertedLeft, hok⟩ := bind_eq_ok hok
  obtain ⟨right, hright, hok⟩ := bind_eq_ok hok
  have hfirst := hf.and (hg.invert hinvertedRight) hleft
  have hsecond := (hf.invert hinvertedLeft).and hg hright
  exact hfirst.or hsecond hok

end HoldsForm

theorem Combined.holdsForm (h : Combined d c f) : HoldsForm d c f := by
  induction h with
  | leaf hf hdeclares hok => exact ⟨_, .leaf (hf.isBuilt_of_compare hdeclares hok)⟩
  | and hf hg hok ihf ihg => exact ihf.and ihg hok
  | or hf hg hok ihf ihg => exact ihf.or ihg hok
  | invert hf hok ihf => exact ihf.invert hok
  | xor hf hg hok ihf ihg => exact ihf.xor ihg hok

/-! ## Negating twice -/

/-- What a leaf emits, when it emits something. -/
def FilterOf.emitted (leaf : Filter) : BasicMessage :=
  match leaf.toBasicMessage with
  | .ok message => message
  | .error _ => leaf.condition

theorem FilterOf.toBasicMessage_eq_emitted {leaf : Filter} {message : BasicMessage}
    (hok : leaf.toBasicMessage = .ok message) : leaf.toBasicMessage = .ok leaf.emitted := by
  rw [FilterOf.emitted, hok]

/-- A combination emits only if each of its leaves does. -/
theorem over_emitted_of_disjunctionToMessage {message : DisjunctionMessage}
    (hok : (combination d c form).disjunctionToMessage = .ok message) :
    Over (fun leaf => leaf.toBasicMessage = .ok leaf.emitted) form := by
  have hconjs : ∃ conjs, (form.map conjValue).mapM (combination d c form).toConjunctionMessage =
      .ok conjs := by
    obtain ⟨items, hitems, hok⟩ := bind_eq_ok hok
    cases hitems
    obtain ⟨conjs, hconjs, -⟩ := bind_eq_ok hok
    exact ⟨conjs, hconjs⟩
  obtain ⟨conjs, hconjs⟩ := hconjs
  intro conj hconj leaf hleaf
  obtain ⟨conjMessage, hconjMessage⟩ :=
    exists_of_mapM_eq_ok hconjs (conjValue conj) (List.mem_map_of_mem hconj)
  obtain ⟨items, hitems, hbasics⟩ := bind_eq_ok hconjMessage
  cases hitems
  obtain ⟨basics, hbasics, -⟩ := bind_eq_ok hbasics
  obtain ⟨basic, hbasic⟩ := exists_of_mapM_eq_ok hbasics (.filter leaf) (List.mem_map_of_mem hleaf)
  exact FilterOf.toBasicMessage_eq_emitted hbasic

namespace Formed

/-- A filter that emits is not empty. -/
theorem isEmpty_of_toMessage (h : Formed d c f form) {message : DisjunctionMessage}
    (hok : f.toMessage = .ok message) : f.isEmpty = false := by
  cases h with
  | leaf hleaf =>
      by_contra hempty
      rw [FilterOf.toMessage, hleaf.isDisjunction,
        FilterOf.toDisjunction_of_isEmpty (Bool.of_not_eq_false hempty)] at hok
      cases hok
  | combined hproper hleaves => exact isEmpty_combination hproper

/-- The filter means the other: under every assignment to its leaves, and under
every assignment to the conditions that it emits. -/
theorem means_of_negated_twice {h : Filter} (hf : Formed d c f form)
    (hh : Formed d c h (negate FilterOf.inverse (negate FilterOf.inverse form)))
    (hinv : Over FilterOf.HasInverse form) (hempty : h.isEmpty = f.isEmpty) :
    (∀ v, h.holds v = f.holds v) ∧
      ∀ message, f.toMessage = .ok message →
        ∃ message', h.toMessage = .ok message' ∧ ∀ v, message'.holds v = message.holds v := by
  have hinverse : Over (fun leaf => leaf.inverse.inverse = leaf) form :=
    fun conj hconj leaf hleaf =>
      (hf.leaves conj hconj leaf hleaf).inverse_inverse (hinv conj hconj leaf hleaf)
  constructor
  · intro v
    rw [FilterOf.holds, FilterOf.holds, hf.form_eq, hh.form_eq]
    exact holds_negate_negate v hinverse
  · intro message hmessage
    have hfempty := hf.isEmpty_of_toMessage hmessage
    have hcombination := (hf.toMessage hfempty).symm.trans hmessage
    have hemitted := over_emitted_of_disjunctionToMessage hcombination
    -- the leaves of the new form are those of `form`
    have htwice : Over (fun leaf => leaf.inverse.inverse.toBasicMessage =
        .ok leaf.inverse.inverse.emitted) form := by
      intro conj hconj leaf hleaf
      rw [hinverse conj hconj leaf hleaf]
      exact hemitted conj hconj leaf hleaf
    refine ⟨_, (hh.toMessage (hempty.trans hfempty)).trans
      (disjunctionToMessage_eq (Over.negate (Over.negate htwice))), fun v => ?_⟩
    rw [disjunctionToMessage_eq hemitted] at hcombination
    obtain rfl := Except.ok.inj hcombination
    rw [holds_map, holds_map]
    exact holds_negate_negate _ hinverse

/-- `~(~f)` is there whenever `~f` is. -/
theorem invert_invert (hf : Formed d c f form) (hinv : Over FilterOf.HasInverse form) :
    ∃ g h, f.invert = .ok g ∧ g.invert = .ok h ∧ h.isEmpty = f.isEmpty ∧
      Formed d c h (negate FilterOf.inverse (negate FilterOf.inverse form)) := by
  obtain ⟨g, hg, hformedg, hemptyg⟩ := hf.invert hinv
  have hinverse : Over (fun leaf => leaf.inverse.HasInverse) form :=
    fun conj hconj leaf hleaf =>
      (hf.leaves conj hconj leaf hleaf).hasInverse_inverse (hinv conj hconj leaf hleaf)
  obtain ⟨h, hh, hformedh, hemptyh⟩ := hformedg.invert (Over.negate hinverse)
  exact ⟨g, h, hg, hh, hemptyh.trans hemptyg, hformedh⟩

end Formed

/-! ## When `~` raises -/

/-- Nothing was compared with the filter, and it has no default. -/
theorem IsBlank.of_fresh_or_combined (hf : Fresh d c f ∨ Combined d c f) :
    IsBlank d c f ∨ HoldsForm d c f := by
  rcases hf with hfresh | hcombined
  · by_cases hcls : f.cls = .boolean
    · exact .inr ⟨_, .leaf (hfresh.isBuilt hcls)⟩
    · exact .inl (hfresh.isBlank hcls)
  · exact .inr hcombined.holdsForm

theorem Formed.defined (h : Formed d c f form) : ¬(f.operator = none ∧ f.value = .none) := by
  cases h with
  | leaf h =>
      rintro ⟨hoperator, -⟩
      rw [h.operator_eq] at hoperator
      cases hoperator
  | combined hproper hleaves => exact fun hnone => nomatch hnone.2

/-- `~f` raises a `FilterError` if there is nothing to negate or some leaf has no
inverse, and only then.  Otherwise it succeeds, and so does `~(~f)`, which means
what `f` means. -/
theorem invert_iff (hf : Fresh d c f ∨ Combined d c f) :
    (RaisesFilterError f.invert ↔
        f.operator = none ∧ f.value = .none ∨ f.SomeLacksInverse) ∧
      (¬(f.operator = none ∧ f.value = .none ∨ f.SomeLacksInverse) →
        ∃ g h, f.invert = .ok g ∧ g.invert = .ok h ∧ (∀ v, h.holds v = f.holds v) ∧
          ∀ message, f.toMessage = .ok message →
            ∃ message', h.toMessage = .ok message' ∧
              ∀ v, message'.holds v = message.holds v) := by
  rcases IsBlank.of_fresh_or_combined hf with hblank | ⟨form, hform⟩
  · have hnothing : f.operator = none ∧ f.value = .none := ⟨hblank.operator, hblank.value⟩
    exact ⟨iff_of_true ⟨_, _, hblank.invert⟩ (.inl hnothing),
      fun hsome => absurd (.inl hnothing) hsome⟩
  · have hdefined := hform.defined
    by_cases hinv : Over FilterOf.HasInverse form
    · have hno := hform.over_hasInverse_iff.mp hinv
      obtain ⟨g, h, hg, hh, hempty, htwice⟩ := hform.invert_invert hinv
      refine ⟨iff_of_false ?_ (not_or.mpr ⟨hdefined, hno⟩), fun _ => ?_⟩
      · rintro ⟨filter, message, herror⟩
        cases hg.symm.trans herror
      · exact ⟨g, h, hg, hh, hform.means_of_negated_twice htwice hinv hempty⟩
    · have hlacks := not_not.mp fun hno => hinv (hform.over_hasInverse_iff.mpr hno)
      exact ⟨iff_of_true (hform.invert_error hinv) (.inr hlacks),
        fun hno => absurd (.inr hlacks) hno⟩

/-! ## The fields of a service -/

/-- What users start from is fresh. -/
theorem Proxy.fresh {service : Service} (h : Proxy service f) :
    Fresh service.main.disjunctionMessageType service.main.conjunctionMessageType f := by
  cases h with
  | field hwrapper hcall =>
      have hfits := Service.fits hwrapper
      obtain ⟨ftype, enumName, number, hentry, rfl⟩ := FilterWrapper.exists_entry_of_call hcall
      refine ⟨?_, ?_, fun _ => ?_, ?_⟩
      · cases ftype <;> exact hfits.disjunctionMessageType
      · cases ftype <;> exact hfits.conjunctionMessageType
      · cases ftype <;> exact hfits.basicMessageType_ne
      · cases ftype <;> exact ⟨rfl, rfl⟩
  -- a key gives a field only where the wrapper has an arm for keys
  | @key wrapper item _ hwrapper hitem =>
      have hfits := Service.fits hwrapper
      unfold FilterWrapper.getItem at hitem
      split at hitem
      · cases hitem
      · cases hitem
        exact ⟨hfits.disjunctionMessageType, hfits.conjunctionMessageType,
          fun _ => hfits.basicMessageType_ne, ⟨rfl, rfl⟩⟩
  -- `Task.error`, of tasks alone
  | error hservice =>
      subst hservice
      exact ⟨rfl, rfl, fun _ => by decide, ⟨rfl, rfl⟩⟩
  | wrapper hwrapper =>
      have hfits := Service.fits hwrapper
      exact ⟨hfits.disjunctionMessageType, hfits.conjunctionMessageType, fun hne => absurd rfl hne,
        ⟨rfl, rfl⟩⟩

/-- `~(Session.session_id == "s")` can be negated again, and
`~(Session.session_id == "s" | Session.session_id.startswith("t"))` raises. -/
theorem invert_iff_sessionId :
    ∃ named started either, SessionFilter.sessionId.eq (.str "s") = .ok named ∧
      SessionFilter.sessionId.startswith (.str "t") = .ok started ∧
      named.or started = .ok either ∧
      (∃ g h, named.invert = .ok g ∧ g.invert = .ok h ∧ ∀ v, h.holds v = named.holds v) ∧
      RaisesFilterError either.invert := by
  have hproxy : Proxy .sessions SessionFilter.sessionId :=
    @Proxy.field .sessions sessionFilter "session_id" _ (by simp [Service.wrappers]) rfl
  have hnamed : SessionFilter.sessionId.compare (.str "s") .eq = .ok _ := rfl
  have hstarted : SessionFilter.sessionId.compare (.str "t") .startswith = .ok _ := rfl
  have hleaf := Combined.leaf hproxy.fresh (.inl ⟨_, rfl⟩) hnamed
  have heither := Combined.or hleaf (.leaf hproxy.fresh (.inl ⟨_, rfl⟩) hstarted) rfl
  refine ⟨_, _, _, hnamed, hstarted, rfl, ?_, ?_⟩
  · obtain ⟨g, h, hg, hh, hholds, -⟩ := (invert_iff (.inr hleaf)).2 (by
      rintro (⟨hnone, -⟩ | ⟨conj, hconj, leaf, hmem, hlacks⟩)
      · cases hnone
      · obtain rfl := List.mem_singleton.mp hconj
        obtain rfl := List.mem_singleton.mp hmem
        exact absurd hlacks.2 (by decide))
    exact ⟨g, h, hg, hh, hholds⟩
  · exact (invert_iff (.inr heither)).1.mpr (.inr ⟨_,
      List.mem_cons_of_mem _ (List.mem_cons_self ..), _, List.mem_cons_self .., rfl, .inl rfl⟩)

end ArmoniKApi.Python
