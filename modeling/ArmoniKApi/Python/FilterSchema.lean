import ArmoniKApi.Library.Codec
import ArmoniKApi.Python.FilterEmits

/-!
# Filters and the schema of their service

A message that `to_message` returns is put together from the classes and the fields that the
filters carry with them.  This file reads it with the schema of the listing services, in which
every part has its type: the fields of a service, the arms of its conditions, a value of the
type of its arm.

* `Obtained.keptOf`: whatever the fields that a user starts from have in common, and keep when
  they get an operator and a value, the leaves of all filters of the service have in common.
* `Schema.exists_filters`: so it is enough to read the conditions on the fields of a service.

## Strategy

A filter is built from its fields by operators that do not look at the fields, so a property
that concerns the field of a leaf is carried along unchanged.  `OfField` is this kind of
property, and `KeptOf` the invariant of `FilterEmits` with it: the induction over what a user
obtains is done once, in `Obtained.keptOf`, for any such property.

The schema is a reader.  `Schema.readBasic` takes a condition only if the message types have
the declared names and the field and the value are of its kinds, so a filter that is read is
one that the service can be sent.  `Arms` gives for each class the type of the values under its
arm, and `Arms.Reads` compares what is read with what was put in.

* `Schema.Covers` asks that the schema has the fields of a service, which is checked against
  the tables where a service is given.
* `Schema.Fits.exists_readBasic` reads one leaf, and `Schema.exists_filters` a whole message,
  with an equivalence about the values in it.
-/

namespace ArmoniKApi.Python

open Fallible NormalForm

/-! ## The leaves of a filter -/

/-- A blank filter, or one in normal form, on fields that satisfy `P`. -/
inductive KeptOf (P : Filter → Prop) (disjunctionType conjunctionType : MessageType)
    (f : Filter) : Prop
  | field (hfield : IsField disjunctionType conjunctionType f) (hproperty : P f)
  | wrapper (hwrapper : IsWrapper disjunctionType conjunctionType f)
  | normal {form : List (List Filter)} (hnormal : Normal disjunctionType conjunctionType f form)
      (hleaves : Over P form)

/-- The property is about the field of a filter, not about its operator and value. -/
def OfField (P : Filter → Prop) : Prop :=
  ∀ f operator value, P f → P { f with operator := operator, value := value }

section KeptOf

variable {P : Filter → Prop} {d c : MessageType} {f g result : Filter}

theorem OfField.inverse (hP : OfField P) (h : P f) : P f.inverse := by
  unfold FilterOf.inverse
  split
  · exact hP f f.operator _ h
  · exact hP f _ f.value h

/-- What can be wrapped is in normal form. -/
theorem KeptOf.exists_normal (hf : KeptOf P d c f) (hok : f.toDisjunction = .ok result) :
    ∃ form, Normal d c f form ∧ Over P form := by
  cases hf with
  | field hfield => cases hfield.isBlank.toDisjunction.symm.trans hok
  | wrapper hwrapper => cases hwrapper.isBlank.toDisjunction.symm.trans hok
  | normal hnormal hleaves => exact ⟨_, hnormal, hleaves⟩

theorem KeptOf.or (hf : KeptOf P d c f) (hg : KeptOf P d c g) (hok : f.or g = .ok result) :
    KeptOf P d c result := by
  have hsteps := hok
  obtain ⟨_, -, hsteps⟩ := bind_eq_ok hsteps
  obtain ⟨left, hleft, hsteps⟩ := bind_eq_ok hsteps
  obtain ⟨right, hright, -⟩ := bind_eq_ok hsteps
  obtain ⟨form, hform, hleaves⟩ := hf.exists_normal hleft
  obtain ⟨other, hother, hothers⟩ := hg.exists_normal hright
  cases (hform.or hother).symm.trans hok
  exact .normal (hform.or_normal hother) (over_append.mpr ⟨hleaves, hothers⟩)

theorem KeptOf.and (hf : KeptOf P d c f) (hg : KeptOf P d c g) (hok : f.and g = .ok result) :
    KeptOf P d c result := by
  have hsteps := hok
  obtain ⟨_, -, hsteps⟩ := bind_eq_ok hsteps
  obtain ⟨right, hright, hsteps⟩ := bind_eq_ok hsteps
  obtain ⟨other, hother, hothers⟩ := hg.exists_normal hright
  rw [hother.toDisjunction] at hright
  cases hright
  -- the first conjunction of `g` asks for those of `f`
  obtain ⟨conj, rest, rfl⟩ := List.exists_cons_of_ne_nil hother.proper.ne_nil
  obtain ⟨conjs, hconjs, hsteps⟩ := bind_eq_ok hsteps
  cases hconjs
  obtain ⟨products, hproducts, -⟩ := bind_eq_ok hsteps
  obtain ⟨product, hproduct⟩ := exists_of_mapM_eq_ok hproducts (conjValue conj)
    (List.mem_cons_self ..)
  obtain ⟨left, hleft, -⟩ := bind_eq_ok hproduct
  obtain ⟨form, hform, hleaves⟩ := hf.exists_normal hleft
  cases (hform.and hother).symm.trans hok
  exact .normal (hform.and_normal hother) (hleaves.conjunction hothers)

theorem KeptOf.invert (hP : OfField P) (hf : KeptOf P d c f) (hok : f.invert = .ok result) :
    KeptOf P d c result := by
  cases hf with
  | field hfield => cases hfield.isBlank.invert.symm.trans hok
  | wrapper hwrapper => cases hwrapper.isBlank.invert.symm.trans hok
  | normal hnormal hleaves =>
      obtain ⟨other, heq, hother⟩ := hnormal.invert (hnormal.hasInverse_of_invert hok)
      cases heq.symm.trans hok
      exact .normal hother (Over.negate (hleaves.mono fun _ hleaf => hP.inverse hleaf))

theorem KeptOf.xor (hP : OfField P) (hf : KeptOf P d c f) (hg : KeptOf P d c g)
    (hok : f.xor g = .ok result) : KeptOf P d c result := by
  obtain ⟨invertedRight, hinvertedRight, hok⟩ := bind_eq_ok hok
  obtain ⟨left, hleft, hok⟩ := bind_eq_ok hok
  obtain ⟨invertedLeft, hinvertedLeft, hok⟩ := bind_eq_ok hok
  obtain ⟨right, hright, hok⟩ := bind_eq_ok hok
  have hkeptLeft := hf.and (hg.invert hP hinvertedRight) hleft
  have hkeptRight := (hf.invert hP hinvertedLeft).and hg hright
  exact hkeptLeft.or hkeptRight hok

theorem KeptOf.compare (hP : OfField P) (hf : KeptOf P d c f) {comparison : Comparison}
    {value : PyValue} (htakes : f.Takes value) (hsound : f.Sound comparison value)
    (hok : f.compare value comparison = .ok result) : KeptOf P d c result := by
  cases hf with
  | field hfield hproperty =>
      have hleaf := hfield.compare htakes hsound hok
      obtain ⟨-, -, sanitized, -, rfl⟩ := compare_of_value hfield.value hfield.cls_ne_boolean hok
      exact .normal (.leaf hleaf) (over_singleton.mpr (hP f _ _ hproperty))
  -- a wrapper is a disjunction, and those are not compared with values
  | wrapper hwrapper =>
      obtain ⟨-, hdisjunction, -⟩ :=
        compare_of_value hwrapper.value hwrapper.isBlank.cls_ne hok
      have hsame : f.messageType = f.disjunctionMessageType :=
        hwrapper.messageType.trans hwrapper.disjunctionMessageType.symm
      rw [FilterOf.isDisjunction, decide_eq_false_iff_not] at hdisjunction
      exact absurd hsame hdisjunction
  -- a filter that is defined is kept, negated, or a boolean leaf that is compared again
  | normal hnormal hleaves =>
      rcases compare_of_value_ne hnormal.value_ne hok with
        ⟨-, rfl | hinvert⟩ | ⟨hcls, b, hwith⟩
      · exact .normal hnormal hleaves
      · exact KeptOf.invert hP (.normal hnormal hleaves) hinvert
      · cases hnormal with
        | leaf hleaf =>
            have hresult := hleaf.ne_of_boolean hcls hwith
            obtain ⟨-, -, sanitized, -, rfl⟩ := withOperation_eq_ok hwith
            exact .normal (.leaf hresult)
              (over_singleton.mpr (hP f _ _ (over_singleton.mp hleaves)))
        | combined => cases hcls

/-- A message is the message of a form over leaves that satisfy `P`. -/
theorem KeptOf.exists_form (hf : KeptOf P d c f) {message : DisjunctionMessage}
    (hok : f.toMessage = .ok message) :
    ∃ form, Over (IsLeaf d c) form ∧ Over P form ∧ message = formMessage d c form := by
  cases hf with
  | field hfield =>
      have hdisjunction : f.isDisjunction = false := by
        rw [FilterOf.isDisjunction, hfield.disjunctionMessageType, decide_eq_false_iff_not]
        exact hfield.messageType_ne
      rw [FilterOf.toMessage, hdisjunction, hfield.isBlank.toDisjunction] at hok
      cases hok
  | wrapper hwrapper =>
      have hdisjunction : f.isDisjunction = true := by
        rw [FilterOf.isDisjunction, hwrapper.disjunctionMessageType, decide_eq_true_eq]
        exact hwrapper.messageType
      rw [FilterOf.toMessage, if_pos hdisjunction, FilterOf.disjunctionToMessage, hwrapper.value,
        hwrapper.disjunctionMessageType] at hok
      cases hok
      exact ⟨[], List.forall_mem_nil _, List.forall_mem_nil _, rfl⟩
  | normal hnormal hleaves =>
      cases hnormal.toMessage.symm.trans hok
      exact ⟨_, hnormal.leaves, hleaves, rfl⟩

/-- What holds of the fields that users find holds of the leaves of every filter. -/
theorem Obtained.keptOf {repertoire : Filter → Comparison → PyValue → Prop} {service : Service}
    (hsound : SoundRepertoire repertoire service) (hP : OfField P)
    (hproxy : ∀ p, Proxy service p → p.cls ≠ .filter → P p) {f : Filter}
    (hf : Obtained repertoire service f) :
    KeptOf P service.main.disjunctionMessageType service.main.conjunctionMessageType f := by
  induction hf with
  | proxy hfound =>
      rcases hfound.cases with hfield | hwrapper | hleaf
      · exact .field hfield (hproxy _ hfound hfield.cls_ne)
      · exact .wrapper hwrapper
      · exact .normal (.leaf hleaf) (over_singleton.mpr (hproxy _ hfound hleaf.cls_ne))
  | compare hf htakes hrepertoire hok ih =>
      exact ih.compare hP htakes (hsound _ _ _ hf htakes hrepertoire ⟨_, hok⟩) hok
  | and hf hg hok ihf ihg => exact ihf.and ihg hok
  | or hf hg hok ihf ihg => exact ihf.or ihg hok
  | invert hf hok ihf => exact ihf.invert hP hok
  | xor hf hg hok ihf ihg => exact ihf.xor hP ihg hok

end KeptOf

/-! ## The schema of a service -/

/-- The arms of `value_condition` that a service has. -/
structure Arms (C : Type) where
  string : Option (Proto.FilterString → C)
  number : Option (Proto.FilterNumber → C)
  boolean : Option (Proto.FilterBoolean → C)
  status : Option (Proto.FilterStatus → C)
  date : Option (Proto.FilterDate → C)
  array : Option (Proto.FilterArray → C)
  duration : Option (Proto.FilterDuration → C)

/-- A value and an operator, under an arm that takes values of that type. -/
def Arms.condition {C : Type} (arms : Arms C) (attr : InnerAttr) (value : PyValue)
    (operator : Int) : Option C :=
  match attr, value with
  | .filter_string, .str s => arms.string.map fun arm => arm ⟨s, operator⟩
  | .filter_number, .int n => arms.number.map fun arm => arm ⟨n, operator⟩
  | .filter_boolean, .bool b => arms.boolean.map fun arm => arm ⟨b, operator⟩
  | .filter_status, .int n => arms.status.map fun arm => arm ⟨n, operator⟩
  | .filter_date, .timestamp t => arms.date.map fun arm => arm ⟨some t, operator⟩
  | .filter_array, .str s => arms.array.map fun arm => arm ⟨s, operator⟩
  | .filter_duration, .duration d => arms.duration.map fun arm => arm ⟨some d, operator⟩
  | _, _ => none

/-- The filter messages that a service declares, with the names of their types. -/
structure Schema (F C : Type) where
  filters : MessageType
  filtersAnd : MessageType
  filterField : MessageType
  filterStatus : Option MessageType
  field : FieldMessage → Option F
  arms : Arms C

namespace Schema

variable {F C : Type} (self : Schema F C)

/-- The type of the message under an arm. -/
def innerType : InnerAttr → Option MessageType
  | .filter_string => some "FilterString"
  | .filter_number => some "FilterNumber"
  | .filter_boolean => some "FilterBoolean"
  | .filter_status => self.filterStatus
  | .filter_date => some "FilterDate"
  | .filter_array => some "FilterArray"
  | .filter_duration => some "FilterDuration"

/-- A condition that a service takes: the types have the names that it declares, and the
field and the value are of its kinds. -/
def readBasic (message : BasicMessage) : Option (Proto.FilterField F C) :=
  if message.messageType = self.filterField ∧
      self.innerType message.attr = some message.inner.messageType then do
    let field ← self.field (← message.field)
    let condition ← self.arms.condition message.attr message.inner.value message.inner.operator
    return ⟨some field, some condition⟩
  else
    none

/-- A conjunction of such conditions. -/
def readConjunction (message : ConjunctionMessage) : Option (Proto.FiltersAnd F C) :=
  if message.messageType = self.filtersAnd then do
    return ⟨← message.and.mapM self.readBasic⟩
  else
    none

/-- A filter that a service takes. -/
def read (message : DisjunctionMessage) : Option (Proto.Filters F C) :=
  if message.messageType = self.filters then do
    return ⟨← message.or.mapM self.readConjunction⟩
  else
    none

end Schema

/-- The number of the status that a condition asks for, if it is one on a status. -/
def InnerAttr.status? : InnerAttr → PyValue → Option Int
  | .filter_status, .int n => some n
  | _, _ => none

/-- The field message that an entry of a table stands for. -/
def FieldEntry.message (arm : String) : FieldEntry → Option FieldMessage
  | .field _ name number => some (.enum arm name number)
  | .na _ => none

/-! ## Reading the filters of a service -/

/-- The field of the filter is one of the schema, and satisfies `K`. -/
structure Schema.Fits {F C : Type} (schema : Schema F C) (K : F → Prop) (attrs : List InnerAttr)
    (f : Filter) : Prop where
  messageType : f.messageType = schema.filterField
  field : ∃ field found, f.field = some field ∧ schema.field field = some found ∧ K found
  arm : ∃ attr ∈ attrs, f.cls.innerMessageTypeAttr = some attr ∧
    f.innerMessageType = schema.innerType attr

/-- Under each of the arms the values of a class have a condition, which satisfies `K` just if
the value does, together with the arm, satisfy `R`. -/
def Arms.Reads {C : Type} (arms : Arms C) (attrs : List InnerAttr) (K : C → Prop)
    (R : InnerAttr → PyValue → Prop) : Prop :=
  ∀ (cls : FilterClass), ∀ attr ∈ attrs, cls.innerMessageTypeAttr = some attr →
    ∀ value : PyValue, cls.Accepts value → ∀ operator ∈ cls.operators,
      ∃ condition, arms.condition attr (value.stored attr) operator = some condition ∧
        (K condition ↔ R attr (value.stored attr))

section Reading

variable {F C : Type} {schema : Schema F C} {KF : F → Prop} {KC : C → Prop}
  {R : InnerAttr → PyValue → Prop} {attrs : List InnerAttr}

theorem Schema.fits_ofField : OfField (schema.Fits KF attrs) :=
  fun _ _ _ h => ⟨h.messageType, h.field, h.arm⟩

/-- The schema has the fields of a service, and they satisfy `K`. -/
structure Schema.Covers {F C : Type} (schema : Schema F C) (service : Service) (K : F → Prop) :
    Prop where
  filters : service.main.disjunctionMessageType = schema.filters
  filtersAnd : service.main.conjunctionMessageType = schema.filtersAnd
  types : ∀ wrapper ∈ service.wrappers, wrapper.basicMessageType = schema.filterField ∧
    wrapper.statusType = schema.filterStatus
  fields : ∀ wrapper ∈ service.wrappers, ∀ entry ∈ wrapper.fields,
    ∀ message ∈ entry.2.message wrapper.fieldArm, ∃ found ∈ schema.field message, K found
  keys : ∀ wrapper ∈ service.wrappers, ∀ arm ∈ wrapper.keyArm,
    ∀ item, ∃ found ∈ schema.field (.generic arm item), K found
  error : service = .tasks →
    ∀ message ∈ OutputFilter.error.field, ∃ found ∈ schema.field message, K found

/-- The filter of a wrapper on a field that the schema has. -/
theorem Schema.Covers.fits_vtable {service : Service} (h : schema.Covers service KF)
    {wrapper : FilterWrapper} (hwrapper : wrapper ∈ service.wrappers) (ftype : FType)
    {field : FieldMessage} (hfield : ∃ found ∈ schema.field field, KF found)
    (harm : ∃ attr ∈ service.arms, ftype.cls.innerMessageTypeAttr = some attr) :
    schema.Fits KF service.arms (wrapper.vtable ftype field) := by
  obtain ⟨htype, hstatus⟩ := h.types wrapper hwrapper
  obtain ⟨found, hfound, hkept⟩ := hfield
  obtain ⟨attr, hmem, hattr⟩ := harm
  have hinner : (wrapper.vtable ftype field).innerMessageType = schema.innerType attr := by
    cases ftype <;> cases hattr
    case status => exact hstatus
    all_goals rfl
  refine ⟨?_, ⟨field, found, ?_, hfound, hkept⟩, attr, hmem, ?_, hinner⟩
  · cases ftype <;> exact htype
  · cases ftype <;> rfl
  · rw [FilterWrapper.vtable_cls]
    exact hattr

/-- The fields that users find. -/
theorem Schema.Covers.fits {service : Service} (h : schema.Covers service KF) {p : Filter}
    (hproxy : Proxy service p) (hcls : p.cls ≠ .filter) : schema.Fits KF service.arms p := by
  have hstring : ∃ attr ∈ service.arms, FType.str.cls.innerMessageTypeAttr = some attr := by
    cases service <;> decide
  cases hproxy with
  | field hwrapper hcall =>
      obtain ⟨ftype, enumName, number, hentry, rfl⟩ := FilterWrapper.exists_entry_of_call hcall
      exact h.fits_vtable hwrapper ftype (h.fields _ hwrapper _ hentry _ rfl)
        ((Service.fits hwrapper).fields _ hentry ftype rfl).2
  | @key wrapper item _ hwrapper hitem =>
      unfold FilterWrapper.getItem at hitem
      cases harm : wrapper.keyArm with
      | none =>
          rw [harm] at hitem
          cases hitem
      | some arm =>
          rw [harm] at hitem
          cases hitem
          exact h.fits_vtable hwrapper .str (h.keys wrapper hwrapper arm harm item) hstring
  | error hservice =>
      subst hservice
      have hwrapper : outputFilter ∈ Service.tasks.wrappers := by simp [Service.wrappers]
      exact h.fits_vtable hwrapper .str (h.error rfl _ rfl) hstring
  | wrapper hwrapper => exact absurd rfl hcls

/-- The condition of a leaf. -/
theorem Schema.Fits.exists_readBasic {f : Filter} {d c : MessageType}
    (h : schema.Fits KF attrs f) (hleaf : IsLeaf d c f) (harms : schema.arms.Reads attrs KC R) :
    ∃ item, schema.readBasic f.condition = some item ∧
      ((Codec.Present KF item.field ∧ Codec.Present KC item.valueCondition) ↔
        R f.condition.attr f.condition.inner.value) := by
  obtain ⟨field, found, hfield, hfound, hkept⟩ := h.field
  obtain ⟨attr, hmem, hattr, htype⟩ := h.arm
  obtain ⟨condition, hcondition, hiff⟩ := harms f.cls attr hmem hattr f.value hleaf.value
    f.operatorNumber hleaf.isBuilt.operatorNumber_mem
  obtain ⟨innerType, hinner⟩ := Option.isSome_iff_exists.mp hleaf.innerMessageType
  -- what the leaf writes: its field, and the condition under its arm
  have hmessage : f.condition = ⟨schema.filterField, some field, attr,
      ⟨innerType, f.value.stored attr, f.operatorNumber⟩⟩ := by
    rw [FilterOf.condition, hattr, hfield, hinner, h.messageType]
    rfl
  refine ⟨⟨some found, some condition⟩, ?_, ?_⟩
  · rw [hmessage, Schema.readBasic, if_pos ⟨rfl, htype.symm.trans hinner⟩]
    show (do
      let field ← schema.field field
      let condition ← schema.arms.condition attr (f.value.stored attr) f.operatorNumber
      return (⟨some field, some condition⟩ : Proto.FilterField F C)) = _
    rw [hfound, hcondition]
    rfl
  · rw [hmessage]
    constructor
    · rintro ⟨-, _, heq, hcond⟩
      cases heq
      exact hiff.mp hcond
    · intro hR
      exact ⟨⟨found, rfl, hkept⟩, condition, rfl, hiff.mpr hR⟩

/-- Every message of a filter is one of the schema.  Its conditions satisfy `KC` just if their
values satisfy `R`. -/
theorem Schema.exists_filters {service : Service}
    {repertoire : Filter → Comparison → PyValue → Prop}
    (hsound : SoundRepertoire repertoire service) (hcovers : schema.Covers service KF)
    (harms : schema.arms.Reads service.arms KC R) {f : Filter} (hf : Obtained repertoire service f)
    {message : DisjunctionMessage} (hok : f.toMessage = .ok message) :
    ∃ filters, schema.read message = some filters ∧
      ((∀ conj ∈ filters.or, ∀ item ∈ conj.and,
          Codec.Present KF item.field ∧ Codec.Present KC item.valueCondition) ↔
        ∀ conj ∈ message.or, ∀ item ∈ conj.and, R item.attr item.inner.value) := by
  obtain ⟨form, hleaves, hfits, rfl⟩ :=
    (hf.keptOf hsound Schema.fits_ofField fun _ => hcovers.fits).exists_form hok
  -- from the leaves to the conjunctions, and from these to the filter
  have hconj : ∀ message ∈ (formMessage service.main.disjunctionMessageType
        service.main.conjunctionMessageType form).or,
      ∃ conj, schema.readConjunction message = some conj ∧
        ((∀ item ∈ conj.and,
            Codec.Present KF item.field ∧ Codec.Present KC item.valueCondition) ↔
          ∀ item ∈ message.and, R item.attr item.inner.value) := by
    intro message hmessage
    obtain ⟨leaves, hmem, rfl⟩ := List.mem_map.mp hmessage
    have hitem : ∀ message ∈ leaves.map FilterOf.condition,
        ∃ item, schema.readBasic message = some item ∧
          ((Codec.Present KF item.field ∧ Codec.Present KC item.valueCondition) ↔
            R message.attr message.inner.value) :=
      List.forall_mem_map.mpr fun leaf hleaf =>
        (hfits leaves hmem leaf hleaf).exists_readBasic (hleaves leaves hmem leaf hleaf) harms
    obtain ⟨items, hitems, hiff⟩ := exists_mapM_forall_iff hitem
    refine ⟨⟨items⟩, ?_, hiff⟩
    rw [Schema.readConjunction, if_pos hcovers.filtersAnd, hitems]
    rfl
  obtain ⟨conjs, hconjs, hiff⟩ := exists_mapM_forall_iff hconj
  refine ⟨⟨conjs⟩, ?_, hiff⟩
  rw [Schema.read]
  show (if service.main.disjunctionMessageType = schema.filters then _ else none) = _
  rw [if_pos hcovers.filters, hconjs]
  rfl

end Reading

end ArmoniKApi.Python
