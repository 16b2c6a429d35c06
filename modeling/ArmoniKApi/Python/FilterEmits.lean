import ArmoniKApi.Python.FilterAlgebra
import ArmoniKApi.Python.FilterFields

/-!
# Which filters can be emitted

A user starts from the fields of a service and applies comparisons and the
operators `&`, `|`, `~` and `^` in any order.  `Obtained` collects what comes out
when nothing raises, for a given repertoire of comparisons, and `Emits` says that
turning two such filters into messages or combining them raises at most a
`FilterError`.

Two comparisons return a filter that is not fit to be emitted.

* `ArrayFilter` declares neither `==` nor `!=` and inherits the objects that
  stand for them, so the comparison returns a filter whose operator is no number.
  `to_disjunction` does not wrap it, and `to_message` calls itself for ever.
* A number need not fit the field of its message.

`filters_emit_iff` says that these are all: every filter emits just when the
repertoire has no such comparison.

## Strategy

What a user writes is a derivation, and the induction is over `Obtained`.  Its invariant is
`Kept`: a filter is blank, as the fields are before a comparison, or it is in normal form.

```text
step                     from           to
a sound comparison       blank          a leaf, in normal form
a boolean comparison     normal form    itself, or its negation
&, |, ^                  normal form    normal form; with a blank one a `FilterError`
~                        normal form    normal form; of a blank one a `FilterError`
```

* `Kept.compare`, `Kept.and`, `Kept.or`, `Kept.invert` and `Kept.xor` are the lines of the
  table, and `Kept.emits` reads the result off the invariant.
* `compare_of_value` and `compare_of_value_ne` invert the comparisons of a filter without a
  value and of one with a value; the rest of the file does not unfold them.
* For the converse, a comparison that is not sound returns a filter without a message:
  `toMessage_of_array_compare` is the recursion that does not end, `toMessage_of_large_compare`
  the number that does not fit.  `sound_of_emits` puts the two together.

The repertoire of comparisons is a parameter, so that the theorem says which repertoires are
safe and not only that some are.
-/

namespace ArmoniKApi.Python

open Fallible NormalForm
open Proto (FilterStringOperator)

/-! ## Building filters -/

/-- The comparisons that users write, as operators and as methods. -/
inductive Comparison
  | eq
  | ne
  | lt
  | le
  | gt
  | ge
  | contains
  | startswith
  | endswith
  deriving DecidableEq, Repr

/-- `self == value`, `self.contains(value)` and so on.  Only `StringFilter` has
`startswith` and `endswith`. -/
def FilterOf.compare (self : Filter) (value : PyValue) : Comparison → PyResult Filter
  | .eq => self.eq value
  | .ne => self.ne value
  | .lt => self.lt value
  | .le => self.le value
  | .gt => self.gt value
  | .ge => self.ge value
  | .contains => self.contains value
  | .startswith => if self.cls = .string then self.startswith value else throw .attributeError
  | .endswith => if self.cls = .string then self.endswith value else throw .attributeError

/-- The values of the type of a field.  Those of a status field are the numbers
of its enumeration, and a `bool` is an `int`. -/
def FilterClass.Takes : FilterClass → PyValue → Prop
  | .string, .str _ | .array, .str _ | .boolean, .bool _ => True
  | .status, .int _ | .status, .bool _ | .number, .int _ | .number, .bool _ => True
  | .date, .datetime _ | .date, .timestamp _ => True
  | .duration, .timedelta _ | .duration, .duration _ => True
  | _, _ => False

/-- A filter is compared with the values of its field, or, when it is defined
already, with a `bool`. -/
def FilterOf.Takes (self : Filter) (value : PyValue) : Prop :=
  self.cls.Takes value ∨ ∃ b, value = .bool b

/-- The filters of a service that a user obtains with the comparisons of a
repertoire and the operators. -/
inductive Obtained (repertoire : Filter → Comparison → PyValue → Prop) (service : Service) :
    Filter → Prop
  | proxy {f : Filter} (hproxy : Proxy service f) : Obtained repertoire service f
  | compare {f result : Filter} {comparison : Comparison} {value : PyValue}
      (hf : Obtained repertoire service f) (htakes : f.Takes value)
      (hrepertoire : repertoire f comparison value)
      (hok : f.compare value comparison = .ok result) : Obtained repertoire service result
  | and {f g result : Filter} (hf : Obtained repertoire service f)
      (hg : Obtained repertoire service g) (hok : f.and g = .ok result) :
      Obtained repertoire service result
  | or {f g result : Filter} (hf : Obtained repertoire service f)
      (hg : Obtained repertoire service g) (hok : f.or g = .ok result) :
      Obtained repertoire service result
  | invert {f result : Filter} (hf : Obtained repertoire service f)
      (hok : f.invert = .ok result) : Obtained repertoire service result
  | xor {f g result : Filter} (hf : Obtained repertoire service f)
      (hg : Obtained repertoire service g) (hok : f.xor g = .ok result) :
      Obtained repertoire service result

/-! ## Emitting -/

/-- It returns, or raises a `FilterError`. -/
def AtMostFilterError {α : Type} (result : PyResult α) : Prop :=
  ∀ error, result = .error error → ∃ filter message, error = .filterError filter message

/-- The first filter has a message, and the two can be combined, or a
`FilterError` says why not. -/
structure Emits (f g : Filter) : Prop where
  toMessage : AtMostFilterError f.toMessage
  and : AtMostFilterError (f.and g)
  or : AtMostFilterError (f.or g)

/-- The comparison is not one of the two kinds that no message can hold: `==` or
`!=` on an array field, and a number that does not fit. -/
structure FilterOf.Sound (f : Filter) (comparison : Comparison) (value : PyValue) : Prop where
  operator : f.cls = .array → f.value = .none → comparison ≠ .eq ∧ comparison ≠ .ne
  number : ∀ n, value = .int n → (f.cls = .number → inInt64 n) ∧ (f.cls = .status → inInt32 n)

/-! ## Blank filters -/

theorem atMostFilterError_ok {α : Type} (a : α) : AtMostFilterError (.ok a : PyResult α) := by
  intro error herror
  cases herror

theorem atMostFilterError_error {α : Type} (filter : Option Filter) (message : FilterMessage) :
    AtMostFilterError (.error (.filterError filter message) : PyResult α) := by
  intro error herror
  cases herror
  exact ⟨filter, message, rfl⟩

theorem FilterOf.isEmpty_of_value {f : Filter} (hvalue : f.value = .none) : f.isEmpty = true := by
  rw [FilterOf.isEmpty, hvalue]

theorem FilterOf.toDisjunction_of_isEmpty {f : Filter} (hempty : f.isEmpty = true) :
    f.toDisjunction = .error (.filterError (some f) .emptyFilter) := by
  rw [FilterOf.toDisjunction, if_pos hempty]
  rfl

/-- `_change_operation` with `override` makes a filter of the same class. -/
theorem withOperation_eq_ok {f result : Filter} {value : PyValue} {operator : Option Operator}
    {operatorStr : String} (hok : f.withOperation value operator operatorStr = .ok result) :
    operator ≠ none ∧ f.isDisjunction = false ∧ ∃ sanitized, f.sanitizeValue value = .ok sanitized ∧
      result = { f with operator := operator, value := sanitized } := by
  unfold FilterOf.withOperation at hok
  split at hok
  · cases hok
  · rename_i hguard
    rw [not_or, Bool.not_eq_true] at hguard
    obtain ⟨sanitized, hsanitized, hresult⟩ := bind_eq_ok hok
    cases hresult
    exact ⟨hguard.1, hguard.2, sanitized, hsanitized, rfl⟩

/-! ## Comparing a blank filter -/

/-- The operator that a comparison stands for. -/
def FilterClass.operatorOf (cls : FilterClass) : Comparison → Option Operator
  | .eq => cls.eq_
  | .ne => cls.ne_
  | .lt => cls.lt_
  | .le => cls.le_
  | .gt => cls.gt_
  | .ge => cls.ge_
  | .contains => cls.contains_
  | .startswith =>
      if cls = .string then some (.simple FilterStringOperator.startsWith.number) else none
  | .endswith =>
      if cls = .string then some (.simple FilterStringOperator.endsWith.number) else none

/-- The class has a method for the comparison. -/
def FilterClass.Offers (cls : FilterClass) (comparison : Comparison) : Prop :=
  comparison = .startswith ∨ comparison = .endswith → cls = .string

/-- The `!=` of `BooleanFilter` aside, a comparison calls `_change_operation`. -/
theorem exists_compare_eq {f : Filter} {comparison : Comparison} (value : PyValue)
    (hoffers : f.cls.Offers comparison) (hne : f.cls = .boolean → comparison ≠ .ne) :
    ∃ operatorStr, f.compare value comparison =
      f.changeOperation value (f.cls.operatorOf comparison) operatorStr := by
  cases comparison with
  | ne =>
      have hcls : f.cls ≠ .boolean := fun hboolean => hne hboolean rfl
      rw [FilterOf.compare, FilterOf.ne, if_neg hcls]
      exact ⟨_, rfl⟩
  | startswith =>
      have hstring := hoffers (.inl rfl)
      rw [FilterOf.compare, if_pos hstring, FilterClass.operatorOf, if_pos hstring]
      exact ⟨_, rfl⟩
  | endswith =>
      have hstring := hoffers (.inr rfl)
      rw [FilterOf.compare, if_pos hstring, FilterClass.operatorOf, if_pos hstring]
      exact ⟨_, rfl⟩
  | _ => exact ⟨_, rfl⟩

theorem exists_changeOperation_of_compare {f result : Filter} {comparison : Comparison}
    {value : PyValue} (hne : f.cls = .boolean → comparison ≠ .ne)
    (hok : f.compare value comparison = .ok result) :
    ∃ operatorStr,
      f.changeOperation value (f.cls.operatorOf comparison) operatorStr = .ok result := by
  have hoffers : f.cls.Offers comparison := by
    rintro (rfl | rfl)
    all_goals
      by_contra hstring
      rw [FilterOf.compare, if_neg hstring] at hok
      cases hok
  obtain ⟨operatorStr, hcompare⟩ := exists_compare_eq value hoffers hne
  exact ⟨operatorStr, hcompare ▸ hok⟩

/-- What a comparison of a blank filter returns. -/
theorem compare_of_value {f result : Filter} {comparison : Comparison} {value : PyValue}
    (hvalue : f.value = .none) (hcls : f.cls ≠ .boolean)
    (hok : f.compare value comparison = .ok result) :
    f.cls.operatorOf comparison ≠ none ∧ f.isDisjunction = false ∧
      ∃ sanitized, f.sanitizeValue value = .ok sanitized ∧
        result = { f with operator := f.cls.operatorOf comparison, value := sanitized } := by
  obtain ⟨operatorStr, hchange⟩ :=
    exists_changeOperation_of_compare (fun hboolean => absurd hboolean hcls) hok
  rw [FilterOf.changeOperation, hvalue] at hchange
  exact withOperation_eq_ok hchange

/-- The operators are numbers of the class, but for `==` and `!=` on arrays. -/
theorem operatorOf_cases {cls : FilterClass} {comparison : Comparison} (hcls : cls ≠ .filter)
    (hboolean : cls ≠ .boolean) (hne : cls.operatorOf comparison ≠ none) :
    (∃ n ∈ cls.operators, cls.operatorOf comparison = some (.simple n)) ∨
      cls = .array ∧ (comparison = .eq ∨ comparison = .ne) := by
  cases cls <;> cases comparison <;> first
    | exact absurd rfl hcls
    | exact absurd rfl hboolean
    | exact absurd rfl hne
    | exact .inr ⟨rfl, .inl rfl⟩
    | exact .inr ⟨rfl, .inr rfl⟩
    | exact .inl ⟨_, by decide, rfl⟩

/-- A value that a field takes becomes a value that its message can hold. -/
theorem accepts_of_sanitizeValue {f : Filter} {value sanitized : PyValue}
    (hcls : f.cls ≠ .filter) (htakes : f.Takes value)
    (hnumber : ∀ n, value = .int n →
      (f.cls = .number → inInt64 n) ∧ (f.cls = .status → inInt32 n))
    (hok : f.sanitizeValue value = .ok sanitized) : f.cls.Accepts sanitized := by
  unfold FilterOf.Takes at htakes
  unfold FilterOf.sanitizeValue at hok
  split at hok
  all_goals first
    | exact absurd hok FilterOf.wrongValueType_ne_ok
    | cases hok
  case h_1.refl hfilter => exact absurd hfilter hcls
  case h_2.refl hstatus =>
      -- the one class that looks at no value
      rw [hstatus] at htakes ⊢
      rcases htakes with htakes | ⟨b, rfl⟩
      · cases sanitized with
        | int n => exact (hnumber n rfl).2 hstatus
        | bool b => trivial
        | _ => cases htakes
      · trivial
  case h_7.refl n hclass =>
      rw [hclass]
      exact (hnumber n rfl).1 hclass
  all_goals
    rename_i hclass
    rw [hclass]
    trivial

/-! ## What stays true of the filters of a service -/

/-- A blank filter, or one in normal form. -/
inductive Kept (disjunctionType conjunctionType : MessageType) (f : Filter) : Prop
  | field (hfield : IsField disjunctionType conjunctionType f)
  | wrapper (hwrapper : IsWrapper disjunctionType conjunctionType f)
  | normal {form : List (List Filter)}
      (hnormal : Normal disjunctionType conjunctionType f form)

/-- A blank filter, of either kind. -/
structure IsBlank (disjunctionType conjunctionType : MessageType) (f : Filter) : Prop where
  cls_ne : f.cls ≠ .boolean
  disjunctionMessageType : f.disjunctionMessageType = disjunctionType
  conjunctionMessageType : f.conjunctionMessageType = conjunctionType
  operator : f.operator = none
  value : f.value = .none

section Kept

variable {d c : MessageType} {f g result : Filter} {form : List (List Filter)}

theorem IsField.isBlank (h : IsField d c f) : IsBlank d c f :=
  ⟨h.cls_ne_boolean, h.disjunctionMessageType, h.conjunctionMessageType, h.operator, h.value⟩

theorem IsWrapper.isBlank (h : IsWrapper d c f) : IsBlank d c f :=
  ⟨by simp [h.cls], h.disjunctionMessageType, h.conjunctionMessageType, h.operator, h.value⟩

theorem Kept.cases (h : Kept d c f) : IsBlank d c f ∨ ∃ form, Normal d c f form := by
  cases h with
  | field hfield => exact .inl hfield.isBlank
  | wrapper hwrapper => exact .inl hwrapper.isBlank
  | normal hnormal => exact .inr ⟨_, hnormal⟩

theorem Kept.messageTypes (h : Kept d c f) :
    f.disjunctionMessageType = d ∧ f.conjunctionMessageType = c := by
  rcases h.cases with hblank | ⟨form, hnormal⟩
  · exact ⟨hblank.disjunctionMessageType, hblank.conjunctionMessageType⟩
  · exact ⟨hnormal.formed.disjunctionMessageType, hnormal.formed.conjunctionMessageType⟩

theorem Kept.checkCompatible (hf : Kept d c f) (hg : Kept d c g) :
    f.checkCompatible g = .ok () := by
  obtain ⟨hfd, hfc⟩ := hf.messageTypes
  obtain ⟨hgd, hgc⟩ := hg.messageTypes
  rw [FilterOf.checkCompatible, hfd, hfc, hgd, hgc, if_pos ⟨rfl, rfl⟩]
  rfl

theorem IsBlank.toDisjunction (h : IsBlank d c f) :
    f.toDisjunction = .error (.filterError (some f) .emptyFilter) :=
  FilterOf.toDisjunction_of_isEmpty (FilterOf.isEmpty_of_value h.value)

/-- `~` raises on a blank filter. -/
theorem IsBlank.invert (h : IsBlank d c f) :
    f.invert = .error (.filterError (some f) .cannotInvertEmpty) := by
  have hempty := FilterOf.isEmpty_of_value h.value
  have hcls := h.cls_ne
  have hoperator := h.operator
  cases f
  rw [FilterOf.invert]
  simp only at hcls hoperator
  subst hoperator
  rw [if_neg hcls, if_pos rfl, hempty, if_pos rfl]
  rfl

/-- `|` of two filters. -/
theorem Kept.or_cases (hf : Kept d c f) (hg : Kept d c g) :
    (∃ result form, f.or g = .ok result ∧ Normal d c result form) ∨
      ∃ filter message, f.or g = .error (.filterError filter message) := by
  have hcompatible := hf.checkCompatible hg
  rcases hf.cases with hblank | ⟨left, hleft⟩
  · refine .inr ⟨some f, .emptyFilter, ?_⟩
    rw [FilterOf.or, hcompatible, hblank.toDisjunction]
    rfl
  rcases hg.cases with hblank | ⟨right, hright⟩
  · refine .inr ⟨some g, .emptyFilter, ?_⟩
    rw [FilterOf.or, hcompatible, hleft.toDisjunction, hblank.toDisjunction]
    rfl
  · exact .inl ⟨_, _, hleft.or hright, hleft.or_normal hright⟩

/-- `&` of two filters. -/
theorem Kept.and_cases (hf : Kept d c f) (hg : Kept d c g) :
    (∃ result form, f.and g = .ok result ∧ Normal d c result form) ∨
      ∃ filter message, f.and g = .error (.filterError filter message) := by
  have hcompatible := hf.checkCompatible hg
  rcases hg.cases with hblank | ⟨right, hright⟩
  · refine .inr ⟨some g, .emptyFilter, ?_⟩
    rw [FilterOf.and, hcompatible, hblank.toDisjunction]
    rfl
  rcases hf.cases with hblank | ⟨left, hleft⟩
  · -- the first conjunction of `g` already asks for those of `f`
    obtain ⟨conj, rest, rfl⟩ := List.exists_cons_of_ne_nil hright.proper.ne_nil
    refine .inr ⟨some f, .emptyFilter, ?_⟩
    rw [FilterOf.and, hcompatible, hright.toDisjunction, hblank.toDisjunction]
    rfl
  · exact .inl ⟨_, _, hleft.and hright, hleft.and_normal hright⟩

theorem Kept.or (hf : Kept d c f) (hg : Kept d c g) (hok : f.or g = .ok result) :
    Kept d c result := by
  rcases hf.or_cases hg with ⟨other, form, heq, hnormal⟩ | ⟨filter, message, herror⟩
  · cases heq.symm.trans hok
    exact .normal hnormal
  · cases herror.symm.trans hok

theorem Kept.and (hf : Kept d c f) (hg : Kept d c g) (hok : f.and g = .ok result) :
    Kept d c result := by
  rcases hf.and_cases hg with ⟨other, form, heq, hnormal⟩ | ⟨filter, message, herror⟩
  · cases heq.symm.trans hok
    exact .normal hnormal
  · cases herror.symm.trans hok

theorem Kept.invert (hf : Kept d c f) (hok : f.invert = .ok result) : Kept d c result := by
  rcases hf.cases with hblank | ⟨form, hnormal⟩
  · cases hblank.invert.symm.trans hok
  · obtain ⟨other, heq, hother⟩ := hnormal.invert (hnormal.hasInverse_of_invert hok)
    cases heq.symm.trans hok
    exact .normal hother

theorem Kept.xor (hf : Kept d c f) (hg : Kept d c g) (hok : f.xor g = .ok result) :
    Kept d c result := by
  obtain ⟨invertedRight, hinvertedRight, hok⟩ := bind_eq_ok hok
  obtain ⟨left, hleft, hok⟩ := bind_eq_ok hok
  obtain ⟨invertedLeft, hinvertedLeft, hok⟩ := bind_eq_ok hok
  obtain ⟨right, hright, hok⟩ := bind_eq_ok hok
  have hkeptLeft := hf.and (hg.invert hinvertedRight) hleft
  have hkeptRight := (hf.invert hinvertedLeft).and hg hright
  exact hkeptLeft.or hkeptRight hok

/-! ## Comparing any filter -/

theorem Normal.value_ne (h : Normal d c f form) : f.value ≠ .none := by
  cases h with
  | leaf hleaf =>
      intro hvalue
      have haccepts := hleaf.value
      rw [hvalue] at haccepts
      cases hcls : f.cls <;> rw [hcls] at haccepts <;> cases haccepts
  | combined => exact nofun

/-- A filter that is defined can only be kept or negated. -/
theorem changeDefined_eq_ok {value : PyValue} {operator : Option Operator}
    (hok : f.changeDefined value operator = .ok result) :
    (∃ b, value = .bool b) ∧ (result = f ∨ f.invert = .ok result) := by
  have hreassigned : FilterOf.changeDefined.reassigned f ≠ .ok result := by
    unfold FilterOf.changeDefined.reassigned
    split <;> exact nofun
  unfold FilterOf.changeDefined at hok
  split at hok
  · rename_i b
    refine ⟨⟨b, rfl⟩, ?_⟩
    -- `== True` and `!= False` keep the filter, the other two negate it
    split at hok
    · split at hok
      · cases hok
        exact .inl rfl
      · exact .inr hok
    · split at hok
      · split at hok
        · exact .inr hok
        · cases hok
          exact .inl rfl
      · exact absurd hok hreassigned
  · exact absurd hok hreassigned

/-- What a comparison of a filter with a value returns. -/
theorem compare_of_value_ne {comparison : Comparison} {value : PyValue} (hvalue : f.value ≠ .none)
    (hok : f.compare value comparison = .ok result) :
    ((∃ b, value = .bool b) ∧ (result = f ∨ f.invert = .ok result)) ∨
      f.cls = .boolean ∧ ∃ b, f.withOperation (.bool b) f.cls.eq_ "!=" = .ok result := by
  by_cases hne : f.cls = .boolean ∧ comparison = .ne
  · obtain ⟨hcls, rfl⟩ := hne
    rw [FilterOf.compare, FilterOf.ne, if_pos hcls] at hok
    obtain ⟨truth, -, hok⟩ := bind_eq_ok hok
    exact .inr ⟨hcls, _, hok⟩
  · obtain ⟨operatorStr, hchange⟩ :=
      exists_changeOperation_of_compare (fun hcls heq => hne ⟨hcls, heq⟩) hok
    unfold FilterOf.changeOperation at hchange
    split at hchange
    · contradiction
    · exact .inl (changeDefined_eq_ok hchange)

/-- A sound comparison of a field makes a leaf of it. -/
theorem IsField.compare (h : IsField d c f) {comparison : Comparison} {value : PyValue}
    (htakes : f.Takes value) (hsound : f.Sound comparison value)
    (hok : f.compare value comparison = .ok result) : IsLeaf d c result := by
  obtain ⟨hne, -, sanitized, hsanitized, rfl⟩ :=
    compare_of_value h.value h.cls_ne_boolean hok
  have haccepts := accepts_of_sanitizeValue h.cls_ne htakes hsound.number hsanitized
  have hoperator : ∃ n ∈ f.cls.operators, f.cls.operatorOf comparison = some (.simple n) := by
    rcases operatorOf_cases h.cls_ne h.cls_ne_boolean hne with hsimple | ⟨harray, hspecial⟩
    · exact hsimple
    · obtain ⟨heq, hne⟩ := hsound.operator harray h.value
      rcases hspecial with hspecial | hspecial
      · exact absurd hspecial heq
      · exact absurd hspecial hne
  exact ⟨h.cls_ne, h.field, h.disjunctionMessageType, h.conjunctionMessageType,
    h.messageType_ne, h.innerMessageType, hoperator, haccepts⟩

/-- The `!=` of `BooleanFilter` gives a boolean leaf another value. -/
theorem IsLeaf.ne_of_boolean (h : IsLeaf d c f) (hcls : f.cls = .boolean) {b : Bool}
    (hok : f.withOperation (.bool b) f.cls.eq_ "!=" = .ok result) : IsLeaf d c result := by
  have haccepts : f.cls.Accepts (.bool b) := by
    rw [hcls]
    trivial
  have hoperator : ∃ n ∈ f.cls.operators, f.cls.eq_ = some (.simple n) := by
    rw [hcls]
    exact ⟨_, List.mem_cons_self .., rfl⟩
  obtain ⟨-, -, sanitized, hsanitized, rfl⟩ := withOperation_eq_ok hok
  rw [sanitizeValue_of_accepts f haccepts] at hsanitized
  cases hsanitized
  exact ⟨h.cls_ne, h.field, h.disjunctionMessageType, h.conjunctionMessageType, h.messageType_ne,
    h.innerMessageType, hoperator, haccepts⟩

theorem Kept.compare (hf : Kept d c f) {comparison : Comparison} {value : PyValue}
    (htakes : f.Takes value) (hsound : f.Sound comparison value)
    (hok : f.compare value comparison = .ok result) : Kept d c result := by
  cases hf with
  | field hfield => exact .normal (.leaf (hfield.compare htakes hsound hok))
  | wrapper hwrapper =>
      obtain ⟨-, hdisjunction, -⟩ :=
        compare_of_value hwrapper.value hwrapper.isBlank.cls_ne hok
      have hsame : f.messageType = f.disjunctionMessageType :=
        hwrapper.messageType.trans hwrapper.disjunctionMessageType.symm
      rw [FilterOf.isDisjunction, decide_eq_false_iff_not] at hdisjunction
      exact absurd hsame hdisjunction
  | normal hnormal =>
      rcases compare_of_value_ne hnormal.value_ne hok with
        ⟨-, rfl | hinvert⟩ | ⟨hcls, b, hwith⟩
      · exact .normal hnormal
      · exact Kept.invert (.normal hnormal) hinvert
      · cases hnormal with
        | leaf hleaf => exact .normal (.leaf (hleaf.ne_of_boolean hcls hwith))
        | combined => cases hcls

/-! ## Emitting what was kept -/

theorem Kept.toMessage (hf : Kept d c f) : AtMostFilterError f.toMessage := by
  cases hf with
  | field hfield =>
      have hdisjunction : f.isDisjunction = false := by
        rw [FilterOf.isDisjunction, hfield.disjunctionMessageType, decide_eq_false_iff_not]
        exact hfield.messageType_ne
      rw [FilterOf.toMessage, hdisjunction, hfield.isBlank.toDisjunction]
      exact atMostFilterError_error _ _
  | wrapper hwrapper =>
      have hdisjunction : f.isDisjunction = true := by
        rw [FilterOf.isDisjunction, hwrapper.disjunctionMessageType, decide_eq_true_eq]
        exact hwrapper.messageType
      rw [FilterOf.toMessage, if_pos hdisjunction, FilterOf.disjunctionToMessage, hwrapper.value]
      exact atMostFilterError_ok _
  | normal hnormal =>
      rw [hnormal.toMessage]
      exact atMostFilterError_ok _

theorem Kept.emits (hf : Kept d c f) (hg : Kept d c g) : Emits f g := by
  refine ⟨hf.toMessage, ?_, ?_⟩
  · rcases hf.and_cases hg with ⟨result, form, heq, -⟩ | ⟨filter, message, herror⟩
    · rw [heq]
      exact atMostFilterError_ok _
    · rw [herror]
      exact atMostFilterError_error _ _
  · rcases hf.or_cases hg with ⟨result, form, heq, -⟩ | ⟨filter, message, herror⟩
    · rw [heq]
      exact atMostFilterError_ok _
    · rw [herror]
      exact atMostFilterError_error _ _

end Kept

/-! ## Comparisons that no message can hold -/

section Sound

variable {f result : Filter} {comparison : Comparison} {value : PyValue}

/-- `to_disjunction` does not wrap a filter whose operator is no number. -/
theorem toMessage_of_special (hdisjunction : f.isDisjunction = false) (hempty : f.isEmpty = false)
    (hoperator : ∀ n, f.operator ≠ some (.simple n)) : f.toMessage = .error .recursionError := by
  have hsame : f.toDisjunction = .ok f := by
    unfold FilterOf.toDisjunction
    rw [if_neg (by simp [hempty])]
    split
    · rename_i n hsimple
      exact absurd hsimple (hoperator n)
    · rfl
  rw [FilterOf.toMessage, hdisjunction, hsame]
  show (if f.isDisjunction = true then _ else _) = _
  rw [hdisjunction]
  rfl

/-- A leaf without a message of its own. -/
theorem toMessage_of_leaf {n : Int} {error : PyError} (hdisjunction : f.isDisjunction = false)
    (hempty : f.isEmpty = false) (hoperator : f.operator = some (.simple n))
    (herror : f.toBasicMessage = .error error) : f.toMessage = .error error := by
  -- a leaf is put into a disjunction of one conjunction, and the error comes back through both
  let wrapped := f.disjunction (.list [.list [.filter f]])
  have hwrapped : f.toDisjunction = .ok wrapped := by
    rw [FilterOf.toDisjunction, hempty, hoperator]
    rfl
  have hwrappedDisjunction : wrapped.isDisjunction = true := by
    simp [wrapped, FilterOf.isDisjunction, FilterOf.disjunction]
  have hitems : [PyValue.filter f].mapM FilterOf.itemMessage = .error error :=
    mapM_singleton_error herror
  have hconj : wrapped.toConjunctionMessage (.list [.filter f]) = .error error := by
    calc wrapped.toConjunctionMessage (.list [.filter f])
        = (do return ⟨wrapped.conjunctionMessageType,
            ← [PyValue.filter f].mapM FilterOf.itemMessage⟩) := rfl
      _ = _ := by
          rw [hitems]
          rfl
  have hconjs : [PyValue.list [.filter f]].mapM wrapped.toConjunctionMessage = .error error :=
    mapM_singleton_error hconj
  calc f.toMessage
      = (if wrapped.isDisjunction then wrapped.disjunctionToMessage
          else throw .recursionError) := by
        rw [FilterOf.toMessage, hdisjunction, hwrapped]
        rfl
    _ = wrapped.disjunctionToMessage := if_pos hwrappedDisjunction
    _ = (do return ⟨wrapped.disjunctionMessageType,
          ← [PyValue.list [.filter f]].mapM wrapped.toConjunctionMessage⟩) := rfl
    _ = _ := by
        rw [hconjs]
        rfl

/-- A number that does not fit. -/
theorem toBasicMessage_of_large {n : Int} (hvalue : f.value = .int n)
    (hlarge : f.cls = .number ∧ inInt64 n = false ∨ f.cls = .status ∧ inInt32 n = false) :
    f.toBasicMessage = .error .typeError ∨ f.toBasicMessage = .error .valueError := by
  unfold FilterOf.toBasicMessage
  rcases hlarge with ⟨hcls, hlarge⟩ | ⟨hcls, hlarge⟩
  all_goals
    rw [hcls, hvalue]
    simp only [FilterClass.innerMessageTypeAttr]
    split
    · exact .inl rfl
    · right
      simp only [innerValue, hlarge]
      rfl

theorem exists_str_of_sanitizeValue {sanitized : PyValue} (harray : f.cls = .array)
    (hok : f.sanitizeValue value = .ok sanitized) : ∃ s, sanitized = .str s := by
  unfold FilterOf.sanitizeValue at hok
  rw [harray] at hok
  cases value with
  | str s =>
      cases hok
      exact ⟨s, rfl⟩
  | _ => exact absurd hok FilterOf.wrongValueType_ne_ok

/-- An array field compared with `==` or `!=`. -/
theorem toMessage_of_array_compare (harray : f.cls = .array) (hvalue : f.value = .none)
    (hcomparison : comparison = .eq ∨ comparison = .ne)
    (hok : f.compare value comparison = .ok result) :
    result.toMessage = .error .recursionError := by
  have hboolean : f.cls ≠ .boolean := by simp [harray]
  obtain ⟨-, hdisjunction, sanitized, hsanitized, rfl⟩ := compare_of_value hvalue hboolean hok
  obtain ⟨s, rfl⟩ := exists_str_of_sanitizeValue harray hsanitized
  apply toMessage_of_special
  · exact hdisjunction
  · rfl
  · intro n hsimple
    rcases hcomparison with rfl | rfl
    all_goals
      rw [harray] at hsimple
      cases hsimple

/-- A number field, or a status field, compared with a number that does not fit. -/
theorem toMessage_of_large_compare {n : Int}
    (hlarge : f.cls = .number ∧ inInt64 n = false ∨ f.cls = .status ∧ inInt32 n = false)
    (hok : f.compare (.int n) comparison = .ok result) :
    result.toMessage = .error .typeError ∨ result.toMessage = .error .valueError := by
  have hcls : f.cls = .number ∨ f.cls = .status := hlarge.imp And.left And.left
  have hboolean : f.cls ≠ .boolean := by rcases hcls with hcls | hcls <;> simp [hcls]
  -- a field that was compared before takes no second number
  by_cases hvalue : f.value = .none
  · obtain ⟨hne, hdisjunction, sanitized, hsanitized, rfl⟩ :=
      compare_of_value hvalue hboolean hok
    have hint : sanitized = .int n := by
      unfold FilterOf.sanitizeValue at hsanitized
      rcases hcls with hcls | hcls <;> rw [hcls] at hsanitized <;> cases hsanitized <;> rfl
    subst hint
    have hsimple : ∃ k, f.cls.operatorOf comparison = some (.simple k) := by
      have hfilter : f.cls ≠ .filter := by rcases hcls with hcls | hcls <;> simp [hcls]
      rcases operatorOf_cases hfilter hboolean hne with ⟨k, -, hk⟩ | ⟨harray, -⟩
      · exact ⟨k, hk⟩
      · rcases hcls with hcls | hcls <;> cases hcls.symm.trans harray
    obtain ⟨k, hk⟩ := hsimple
    rw [hk]
    have hmessage := toBasicMessage_of_large
      (f := { f with operator := some (.simple k), value := .int n }) rfl hlarge
    exact hmessage.imp (toMessage_of_leaf hdisjunction rfl rfl)
      (toMessage_of_leaf hdisjunction rfl rfl)
  · rcases compare_of_value_ne hvalue hok with ⟨⟨b, hb⟩, -⟩ | ⟨hcls, -⟩
    · cases hb
    · exact absurd hcls hboolean

/-- What a comparison returns can be emitted only if it is sound. -/
theorem sound_of_emits (hok : f.compare value comparison = .ok result)
    (hemits : AtMostFilterError result.toMessage) : f.Sound comparison value := by
  have hlarge {n : Int} (hn : value = .int n)
      (h : f.cls = .number ∧ inInt64 n = false ∨ f.cls = .status ∧ inInt32 n = false) : False := by
    subst hn
    rcases toMessage_of_large_compare h hok with herror | herror
    all_goals
      obtain ⟨filter, message, hfilter⟩ := hemits _ herror
      cases hfilter
  constructor
  · intro harray hvalue
    -- what `==` and `!=` make of an array field ends in a `RecursionError`
    have hspecial (h : comparison = .eq ∨ comparison = .ne) : False := by
      obtain ⟨filter, message, hfilter⟩ :=
        hemits _ (toMessage_of_array_compare harray hvalue h hok)
      cases hfilter
    exact ⟨fun heq => hspecial (.inl heq), fun hne => hspecial (.inr hne)⟩
  · intro n hn
    constructor
    · intro hcls
      exact Bool.of_not_eq_false fun hfits => hlarge hn (.inl ⟨hcls, hfits⟩)
    · intro hcls
      exact Bool.of_not_eq_false fun hfits => hlarge hn (.inr ⟨hcls, hfits⟩)

end Sound

/-! ## Every filter of a service -/

/-- All comparisons of a repertoire that return are sound. -/
def SoundRepertoire (repertoire : Filter → Comparison → PyValue → Prop) (service : Service) :
    Prop :=
  ∀ f comparison value, Obtained repertoire service f → f.Takes value →
    repertoire f comparison value → (∃ result, f.compare value comparison = .ok result) →
      f.Sound comparison value

theorem Obtained.kept {repertoire : Filter → Comparison → PyValue → Prop} {service : Service}
    (hsound : SoundRepertoire repertoire service) {f : Filter}
    (hf : Obtained repertoire service f) :
    Kept service.main.disjunctionMessageType service.main.conjunctionMessageType f := by
  induction hf with
  | proxy hproxy =>
      rcases hproxy.cases with hfield | hwrapper | hleaf
      · exact .field hfield
      · exact .wrapper hwrapper
      · exact .normal (.leaf hleaf)
  | compare hf htakes hrepertoire hok ih =>
      exact ih.compare htakes (hsound _ _ _ hf htakes hrepertoire ⟨_, hok⟩) hok
  | and hf hg hok ihf ihg => exact ihf.and ihg hok
  | or hf hg hok ihf ihg => exact ihf.or ihg hok
  | invert hf hok ihf => exact ihf.invert hok
  | xor hf hg hok ihf ihg => exact ihf.xor ihg hok

/-- All filters of a service can be emitted and combined, or a `FilterError` says
why not, just when no comparison on the way is `==` or `!=` on an array field or
has a number that does not fit. -/
theorem filters_emit_iff (repertoire : Filter → Comparison → PyValue → Prop) (service : Service) :
    (∀ f g, Obtained repertoire service f → Obtained repertoire service g → Emits f g) ↔
      SoundRepertoire repertoire service := by
  constructor
  · intro hemits f comparison value hf htakes hrepertoire ⟨result, hok⟩
    have hresult := Obtained.compare hf htakes hrepertoire hok
    exact sound_of_emits hok (hemits result result hresult hresult).toMessage
  · intro hsound f g hf hg
    exact (hf.kept hsound).emits (hg.kept hsound)

/-- `Session.partition_ids`. -/
def SessionFilter.partitionIds : Filter :=
  sessionFilter.array (.enum "session_raw_field" "SESSION_RAW_ENUM_FIELD_PARTITION_IDS"
    Proto.SessionRawEnumField.partitionIds.number)

/-- `Session.session_id`. -/
def SessionFilter.sessionId : Filter :=
  sessionFilter.string (.enum "session_raw_field" "SESSION_RAW_ENUM_FIELD_SESSION_ID"
    Proto.SessionRawEnumField.sessionId.number)

/-- A field of a session, compared with `==`. -/
theorem obtained_eq {name : String} {f result : Filter} {value : PyValue}
    (hfield : sessionFilter.call name = .ok f) (htakes : f.Takes value)
    (hok : f.eq value = .ok result) : Obtained (fun _ _ _ => True) .sessions result := by
  have hwrapper : sessionFilter ∈ Service.sessions.wrappers := by simp [Service.wrappers]
  have hcompare : f.compare value .eq = .ok result := hok
  exact .compare (.proxy (.field hwrapper hfield)) htakes trivial hcompare

/-- The sessions of a partition, asked for with `==`. -/
theorem partition_ids_equality_never_emits :
    ∃ f g, Obtained (fun _ _ _ => True) .sessions f ∧ Obtained (fun _ _ _ => True) .sessions g ∧
      f.toMessage = .error .recursionError ∧ f.and g = .error .typeError ∧
      f.or g = .error .typeError ∧ ¬ Emits f g := by
  have hpartitions : sessionFilter.call "partition_ids" = .ok SessionFilter.partitionIds := rfl
  have hid : sessionFilter.call "session_id" = .ok SessionFilter.sessionId := rfl
  have hf : SessionFilter.partitionIds.eq (.str "p") = .ok _ := rfl
  have hg : SessionFilter.sessionId.eq (.str "s") = .ok _ := rfl
  have htakesf : SessionFilter.partitionIds.Takes (.str "p") := .inl trivial
  have htakesg : SessionFilter.sessionId.Takes (.str "s") := .inl trivial
  refine ⟨_, _, obtained_eq hpartitions htakesf hf, obtained_eq hid htakesg hg,
    rfl, rfl, rfl, fun hemits => ?_⟩
  obtain ⟨filter, message, herror⟩ := hemits.toMessage _ rfl
  cases herror

end ArmoniKApi.Python
