import ArmoniKApi.Python.Filter

/-!
# Leaf filters and their inverses

A leaf filter stands for one condition, a field compared with a value.  `IsBuilt`
says that its operator is one of its class and that the class has taken its
value, and `IsLeaf` that it is fully defined: a message can hold the value too.
Conditions come in complementary pairs (`Complementary`), by operator or, for
booleans, by value; a leaf whose condition has a complement has an inverse, and
`~` returns it (`IsBuilt.invert_eq`), while `~` raises a `FilterError` on every
other leaf (`IsBuilt.invert_error`).

Complementary conditions are defined by a table of pairs of operators for each arm, and a leaf
has an inverse if its class declares the other operator of its pair.  The proofs never go
through all pairs of operators: `oppositeOperator` is the other one of a pair, and three facts
about it, each checked by computation over the finitely many operators, carry the rest:

* `oppositeOperator_spec`: it is complementary to the operator, if that is in a pair;
* `oppositeOperator_oppositeOperator`: the opposite of the opposite is the operator;
* `mem_operators_of_complementary`: the operators of a pair belong to the class.

`invertOperation_cases` follows the branches of `__invert__` by the operator of the leaf.
Booleans go their own way, since they have one operator and are negated by value
(`boolean_cases`, `complementary_of_boolean`).

`IsBuilt` and `IsLeaf` differ in the value.  A class takes some values that no message can
hold, such as a number that is too large; a leaf with such a value can be negated and combined
and only fails when it is emitted, so most lemmas are about `IsBuilt`.
-/

namespace ArmoniKApi.Python

open Proto (FilterStringOperator FilterStatusOperator FilterDateOperator FilterNumberOperator
  FilterBooleanOperator FilterArrayOperator FilterDurationOperator)

/-- It raises a `FilterError`. -/
def RaisesFilterError {α : Type} (result : PyResult α) : Prop :=
  ∃ filter message, result = .error (.filterError filter message)

/-! ## Conditions and their complements -/

/-- The pairs of complementary operators under each arm of the oneof. -/
def complementaryOperators : InnerAttr → List (Int × Int)
  | .filter_string =>
      [(FilterStringOperator.equal.number, FilterStringOperator.notEqual.number),
        (FilterStringOperator.contains.number, FilterStringOperator.notContains.number)]
  | .filter_number =>
      [(FilterNumberOperator.equal.number, FilterNumberOperator.notEqual.number),
        (FilterNumberOperator.lessThan.number, FilterNumberOperator.greaterThanOrEqual.number),
        (FilterNumberOperator.lessThanOrEqual.number, FilterNumberOperator.greaterThan.number)]
  | .filter_boolean => []
  | .filter_status =>
      [(FilterStatusOperator.equal.number, FilterStatusOperator.notEqual.number)]
  | .filter_date =>
      [(FilterDateOperator.equal.number, FilterDateOperator.notEqual.number),
        (FilterDateOperator.before.number, FilterDateOperator.afterOrEqual.number),
        (FilterDateOperator.beforeOrEqual.number, FilterDateOperator.after.number)]
  | .filter_array =>
      [(FilterArrayOperator.contains.number, FilterArrayOperator.notContains.number)]
  | .filter_duration =>
      [(FilterDurationOperator.equal.number, FilterDurationOperator.notEqual.number),
        (FilterDurationOperator.shorterThan.number,
          FilterDurationOperator.longerThanOrEqual.number),
        (FilterDurationOperator.shorterThanOrEqual.number,
          FilterDurationOperator.longerThan.number)]

/-- The operators that have a complement under an arm of the oneof. -/
def pairedOperators (attr : InnerAttr) : List Int :=
  (complementaryOperators attr).flatMap fun pair => [pair.1, pair.2]

/-- Two conditions on the same field that are complements of each other: the
same value under complementary operators, or IS `b` and IS not `b`. -/
inductive Complementary : BasicMessage → BasicMessage → Prop
  | operators {messageType field attr innerType value operator operator'}
      (h : (operator, operator') ∈ complementaryOperators attr ∨
        (operator', operator) ∈ complementaryOperators attr) :
      Complementary ⟨messageType, field, attr, ⟨innerType, value, operator⟩⟩
        ⟨messageType, field, attr, ⟨innerType, value, operator'⟩⟩
  | boolean {messageType field innerType} (b : Bool) :
      Complementary
        ⟨messageType, field, .filter_boolean,
          ⟨innerType, .bool b, FilterBooleanOperator.is.number⟩⟩
        ⟨messageType, field, .filter_boolean,
          ⟨innerType, .bool !b, FilterBooleanOperator.is.number⟩⟩

/-- An assignment that makes every condition and its complement complementary. -/
def Respects (v : BasicMessage → Bool) : Prop :=
  ∀ condition complement, Complementary condition complement →
    v complement = !v condition

/-! ## Leaves -/

/-- The numbers of the operators of a class. -/
def FilterClass.operators : FilterClass → List Int
  | .filter => []
  | .string =>
      [FilterStringOperator.equal, .notEqual, .contains, .notContains, .startsWith,
        .endsWith].map FilterStringOperator.number
  | .status => [FilterStatusOperator.equal, .notEqual].map FilterStatusOperator.number
  | .date =>
      [FilterDateOperator.equal, .notEqual, .before, .beforeOrEqual, .afterOrEqual,
        .after].map FilterDateOperator.number
  | .number =>
      [FilterNumberOperator.equal, .notEqual, .lessThan, .lessThanOrEqual, .greaterThanOrEqual,
        .greaterThan].map FilterNumberOperator.number
  | .boolean => [FilterBooleanOperator.is].map FilterBooleanOperator.number
  | .array => [FilterArrayOperator.contains, .notContains].map FilterArrayOperator.number
  | .duration =>
      [FilterDurationOperator.equal, .notEqual, .shorterThan, .shorterThanOrEqual,
        .longerThanOrEqual, .longerThan].map FilterDurationOperator.number

/-- The values that the message of a class can hold. -/
def FilterClass.Accepts : FilterClass → PyValue → Prop
  | .string, .str _ | .array, .str _ | .boolean, .bool _ => True
  | .status, .int n => inInt32 n
  | .number, .int n => inInt64 n
  | .status, .bool _ | .number, .bool _ => True
  | .date, .timestamp _ | .duration, .duration _ => True
  | _, _ => False

/-- What a message holds for a value: a `bool` becomes a number where one is
expected. -/
def PyValue.stored : InnerAttr → PyValue → PyValue
  | .filter_number, .bool b | .filter_status, .bool b => .int (if b then 1 else 0)
  | _, value => value

/-- A fully defined leaf filter, with the given disjunction and conjunction
message types. -/
structure IsLeaf (disjunctionType conjunctionType : MessageType) (f : Filter) : Prop where
  cls_ne : f.cls ≠ .filter
  field : f.field.isSome
  disjunctionMessageType : f.disjunctionMessageType = disjunctionType
  conjunctionMessageType : f.conjunctionMessageType = conjunctionType
  messageType_ne : f.messageType ≠ disjunctionType
  innerMessageType : f.innerMessageType.isSome
  operator : ∃ n ∈ f.cls.operators, f.operator = some (.simple n)
  value : f.cls.Accepts f.value

/-- A leaf as a comparison leaves it.  A class may take a value that no message can
hold, such as a number that is too large. -/
structure IsBuilt (disjunctionType conjunctionType : MessageType) (f : Filter) : Prop where
  cls_ne : f.cls ≠ .filter
  disjunctionMessageType : f.disjunctionMessageType = disjunctionType
  conjunctionMessageType : f.conjunctionMessageType = conjunctionType
  messageType_ne : f.messageType ≠ disjunctionType
  operator : ∃ n ∈ f.cls.operators, f.operator = some (.simple n)
  value : f.sanitizeValue f.value = .ok f.value

/-- The number of the operator of a leaf. -/
def FilterOf.operatorNumber (f : Filter) : Int :=
  match f.operator with
  | some (.simple n) => n
  | _ => 0

/-- The basic condition of a leaf. -/
def FilterOf.condition (f : Filter) : BasicMessage :=
  let attr := f.cls.innerMessageTypeAttr.getD .filter_string
  ⟨f.messageType, f.field, attr,
    ⟨f.innerMessageType.getD "", f.value.stored attr, f.operatorNumber⟩⟩

/-- The leaf has an inverse operator in its class. -/
def FilterOf.HasInverse (f : Filter) : Prop :=
  ∃ complement, Complementary f.condition complement

/-- The operator is one of those that a class declares without an inverse. -/
def FilterOf.LacksInverse (f : Filter) : Prop :=
  f.cls = .string ∧
    (f.operator = some (.simple FilterStringOperator.startsWith.number) ∨
      f.operator = some (.simple FilterStringOperator.endsWith.number))

/-- The other operator of a complementary pair, or `operator` itself. -/
def oppositeOperator (attr : InnerAttr) (operator : Int) : Int :=
  match (complementaryOperators attr).find? fun pair => pair.1 = operator with
  | some pair => pair.2
  | none =>
      match (complementaryOperators attr).find? fun pair => pair.2 = operator with
      | some pair => pair.1
      | none => operator

/-- The leaf for the complement of a leaf. -/
def FilterOf.inverse (f : Filter) : Filter :=
  match f.cls, f.value with
  | .boolean, .bool b => { f with value := .bool !b }
  | cls, _ =>
      { f with
        operator := some (.simple
          (oppositeOperator (cls.innerMessageTypeAttr.getD .filter_string) f.operatorNumber)) }

/-! ## Negating a leaf -/

theorem Complementary.symm {condition complement : BasicMessage}
    (h : Complementary condition complement) : Complementary complement condition := by
  cases h with
  | operators h => exact .operators h.symm
  | @boolean messageType field innerType b =>
      have h : Complementary
          ⟨messageType, field, .filter_boolean,
            ⟨innerType, .bool !b, FilterBooleanOperator.is.number⟩⟩
          ⟨messageType, field, .filter_boolean,
            ⟨innerType, .bool !!b, FilterBooleanOperator.is.number⟩⟩ := .boolean !b
      rwa [Bool.not_not] at h

theorem mem_pairedOperators {attr : InnerAttr} {operator : Int} :
    operator ∈ pairedOperators attr ↔
      ∃ other, (operator, other) ∈ complementaryOperators attr ∨
        (other, operator) ∈ complementaryOperators attr := by
  simp only [pairedOperators, List.mem_flatMap, List.mem_cons, List.not_mem_nil, or_false]
  constructor
  · rintro ⟨pair, hpair, rfl | rfl⟩
    · exact ⟨pair.2, .inl hpair⟩
    · exact ⟨pair.1, .inr hpair⟩
  · rintro ⟨other, hpair | hpair⟩
    · exact ⟨_, hpair, .inl rfl⟩
    · exact ⟨_, hpair, .inr rfl⟩

/-- Only conditions with an operator of a complementary pair, or boolean ones,
have a complement. -/
theorem Complementary.operator_mem {condition complement : BasicMessage}
    (h : Complementary condition complement) (hattr : condition.attr ≠ .filter_boolean) :
    condition.inner.operator ∈ pairedOperators condition.attr := by
  cases h with
  | operators h => exact mem_pairedOperators.mpr ⟨_, h⟩
  | boolean => exact absurd rfl hattr

theorem oppositeOperator_spec {attr : InnerAttr} {operator : Int}
    (h : operator ∈ pairedOperators attr) :
    (operator, oppositeOperator attr operator) ∈ complementaryOperators attr ∨
      (oppositeOperator attr operator, operator) ∈ complementaryOperators attr := by
  unfold oppositeOperator
  -- the two searches of the definition, and a pair that neither of them finds
  cases hfirst : (complementaryOperators attr).find? fun pair => pair.1 = operator with
  | some pair =>
      have hpair : pair.1 = operator := by simpa using List.find?_some hfirst
      exact .inl (by simpa [← hpair] using List.mem_of_find?_eq_some hfirst)
  | none =>
      cases hsecond : (complementaryOperators attr).find? fun pair => pair.2 = operator with
      | some pair =>
          have hpair : pair.2 = operator := by simpa using List.find?_some hsecond
          exact .inr (by simpa [← hpair] using List.mem_of_find?_eq_some hsecond)
      | none =>
          rw [List.find?_eq_none] at hfirst hsecond
          rcases mem_pairedOperators.mp h with ⟨other, h | h⟩
          · exact absurd (hfirst _ h) (by simp)
          · exact absurd (hsecond _ h) (by simp)

/-- The opposite of the opposite is the operator. -/
theorem oppositeOperator_oppositeOperator {attr : InnerAttr} {operator : Int}
    (h : operator ∈ pairedOperators attr) :
    oppositeOperator attr (oppositeOperator attr operator) = operator := by
  revert operator
  cases attr <;> decide

/-- The operators of a complementary pair belong to the class. -/
theorem mem_operators_of_complementary {cls : FilterClass} {attr : InnerAttr}
    (hattr : cls.innerMessageTypeAttr = some attr) {pair : Int × Int}
    (hpair : pair ∈ complementaryOperators attr) :
    pair.1 ∈ cls.operators ∧ pair.2 ∈ cls.operators := by
  cases cls
    <;> simp only [FilterClass.innerMessageTypeAttr, Option.some.injEq, reduceCtorEq] at hattr
    <;> subst hattr <;> revert pair <;> decide

theorem sanitizeValue_of_accepts (self : Filter) {value : PyValue}
    (h : self.cls.Accepts value) : self.sanitizeValue value = .ok value := by
  unfold FilterOf.sanitizeValue
  cases hcls : self.cls <;> cases value <;> first | rfl | simp [FilterClass.Accepts, hcls] at h

theorem FilterOf.wrongValueType_ne_ok {self : Filter} {filter : Option Filter}
    {expected : String} {value result : PyValue} :
    self.wrongValueType filter expected value ≠ .ok result := by
  unfold FilterOf.wrongValueType
  cases self.fieldName <;> exact nofun

theorem FilterOf.sanitizeValue_of_boolean {f : Filter} (hcls : f.cls = .boolean) (b : Bool) :
    f.sanitizeValue (.bool b) = .ok (.bool b) :=
  sanitizeValue_of_accepts f (by simp [hcls, FilterClass.Accepts])

/-- Whether a value stays as it is depends on the class. -/
theorem FilterOf.sanitizeValue_of_same {f g : Filter} {value : PyValue} (hcls : g.cls = f.cls)
    (h : f.sanitizeValue value = .ok value) : g.sanitizeValue value = .ok value := by
  unfold FilterOf.sanitizeValue at h ⊢
  rw [hcls]
  split at h <;> first | exact h | exact absurd h wrongValueType_ne_ok

theorem innerValue_of_accepts {cls : FilterClass} {attr : InnerAttr} {value : PyValue}
    (hattr : cls.innerMessageTypeAttr = some attr) (h : cls.Accepts value) :
    innerValue attr value = .ok (value.stored attr) := by
  cases cls <;> simp only [FilterClass.innerMessageTypeAttr, Option.some.injEq, reduceCtorEq]
    at hattr <;> subst hattr <;> cases value <;>
    simp only [FilterClass.Accepts] at h <;> simp [innerValue, h] <;> rfl

theorem inInt32_of_mem_operators {cls : FilterClass} {n : Int} (h : n ∈ cls.operators) :
    inInt32 n = true := by
  revert n
  cases cls <;> decide

theorem IsLeaf.isBuilt {d c : MessageType} {f : Filter} (h : IsLeaf d c f) : IsBuilt d c f :=
  ⟨h.cls_ne, h.disjunctionMessageType, h.conjunctionMessageType, h.messageType_ne, h.operator,
    sanitizeValue_of_accepts f h.value⟩

namespace IsBuilt

variable {d c : MessageType} {f : Filter}

theorem exists_attr (h : IsBuilt d c f) : ∃ attr, f.cls.innerMessageTypeAttr = some attr := by
  have := h.cls_ne
  cases hcls : f.cls <;> simp_all [FilterClass.innerMessageTypeAttr]

theorem operatorNumber_mem (h : IsBuilt d c f) : f.operatorNumber ∈ f.cls.operators := by
  obtain ⟨n, hn, hoperator⟩ := h.operator
  simpa [FilterOf.operatorNumber, hoperator] using hn

theorem operator_eq (h : IsBuilt d c f) : f.operator = some (.simple f.operatorNumber) := by
  obtain ⟨n, -, hoperator⟩ := h.operator
  simp [FilterOf.operatorNumber, hoperator]

theorem isDisjunction (h : IsBuilt d c f) : f.isDisjunction = false := by
  simp [FilterOf.isDisjunction, h.disjunctionMessageType, h.messageType_ne]

/-- `_change_operation` accepts a value that the class takes as it is. -/
theorem withOperation (h : IsBuilt d c f) {value : PyValue}
    (hvalue : f.sanitizeValue value = .ok value) (operator : Operator) (operatorStr : String) :
    f.withOperation value (some operator) operatorStr =
      .ok { f with operator := some operator, value := value } := by
  simp only [FilterOf.withOperation, h.isDisjunction, hvalue]
  rfl

theorem condition_attr (h : IsBuilt d c f) :
    f.cls.innerMessageTypeAttr = some f.condition.attr := by
  obtain ⟨attr, hattr⟩ := h.exists_attr
  simp [FilterOf.condition, hattr]

theorem attr_ne_boolean (h : IsBuilt d c f) (hcls : f.cls ≠ .boolean) :
    f.condition.attr ≠ .filter_boolean := by
  have hattr := h.condition_attr
  intro hboolean
  cases hf : f.cls <;> simp_all [FilterClass.innerMessageTypeAttr]

end IsBuilt

namespace IsLeaf

variable {d c : MessageType} {f : Filter}

theorem operator_eq (h : IsLeaf d c f) : f.operator = some (.simple f.operatorNumber) :=
  h.isBuilt.operator_eq

theorem isEmpty (h : IsLeaf d c f) : f.isEmpty = false := by
  have hvalue := h.value
  unfold FilterOf.isEmpty
  cases hcls : f.cls <;> cases hval : f.value <;> simp_all [FilterClass.Accepts]

/-- `_change_operation` accepts the value that the leaf already has. -/
theorem withOperation (h : IsLeaf d c f) {value : PyValue} (hvalue : f.cls.Accepts value)
    (operator : Operator) (operatorStr : String) :
    f.withOperation value (some operator) operatorStr =
      .ok { f with operator := some operator, value := value } :=
  h.isBuilt.withOperation (sanitizeValue_of_accepts f hvalue) operator operatorStr

end IsLeaf

/-- `~` on a leaf takes one of two paths. -/
theorem FilterOf.invert_of_operator {f : Filter} (hoperator : f.operator ≠ none) :
    f.invert = if f.cls = .boolean then f.invertBoolean else f.invertOperation := by
  cases f
  rw [FilterOf.invert]
  simp only at hoperator
  simp only [hoperator, if_false]

/-- `~` on a combination. -/
theorem FilterOf.invert_of_no_operator {f : Filter} (hcls : f.cls ≠ .boolean)
    (hoperator : f.operator = none) (hempty : f.isEmpty = false) :
    f.invert = (invertValue f f.value).mapError f.rewrapError := by
  cases f
  rw [FilterOf.invert]
  simp only at hcls hoperator
  simp only [hcls, hoperator, if_true, if_false]
  rw [hoperator] at hempty
  rw [hempty]
  rfl

/-- A comparison of a filter that has a value. -/
theorem FilterOf.changeOperation_of_value_ne {f : Filter} {value : PyValue}
    {operator : Option Operator} {operatorStr : String} (hvalue : f.value ≠ .none) :
    f.changeOperation value operator operatorStr = f.changeDefined value operator := by
  unfold FilterOf.changeOperation
  split
  · contradiction
  · rfl

theorem FilterOf.condition_of_boolean {f : Filter} (hcls : f.cls = .boolean) :
    f.condition = ⟨f.messageType, f.field, .filter_boolean,
      ⟨f.innerMessageType.getD "", f.value, f.operatorNumber⟩⟩ := by
  simp only [FilterOf.condition, hcls]
  rfl

theorem FilterOf.inverse_of_boolean {f : Filter} {b : Bool} (hcls : f.cls = .boolean)
    (hval : f.value = .bool b) : f.inverse = { f with value := .bool !b } := by
  simp only [FilterOf.inverse, hcls, hval]

theorem FilterOf.inverse_of_ne_boolean {f : Filter} (hcls : f.cls ≠ .boolean) :
    f.inverse = { f with
      operator := some (.simple (oppositeOperator f.condition.attr f.operatorNumber)) } := by
  unfold FilterOf.inverse
  split
  · contradiction
  · rfl

namespace IsBuilt

variable {d c : MessageType} {f : Filter}

/-- Outside `BooleanFilter`, the leaves with an inverse are those whose
operator belongs to a complementary pair. -/
theorem hasInverse_iff (h : IsBuilt d c f) (hcls : f.cls ≠ .boolean) :
    f.HasInverse ↔ f.operatorNumber ∈ pairedOperators f.condition.attr := by
  constructor
  · rintro ⟨complement, hcomplement⟩
    exact hcomplement.operator_mem (h.attr_ne_boolean hcls)
  · intro hmem
    obtain ⟨other, hother⟩ := mem_pairedOperators.mp hmem
    exact ⟨_, .operators hother⟩

/-- The branch of `__invert__` that the operator of a leaf selects. -/
theorem invertOperation_cases (h : IsBuilt d c f) (hcls : f.cls ≠ .boolean) :
    (f.operatorNumber ∈ pairedOperators f.condition.attr ∧
      ∃ operatorStr, f.invertOperation = f.withOperation f.value
        (some (.simple (oppositeOperator f.condition.attr f.operatorNumber))) operatorStr) ∨
    (f.operatorNumber ∉ pairedOperators f.condition.attr ∧ f.LacksInverse ∧
      RaisesFilterError f.invertOperation) := by
  have hattr := h.condition_attr
  have hmem := h.operatorNumber_mem
  have hoperator := h.operator_eq
  generalize f.condition.attr = attr at *
  generalize f.operatorNumber = n at *
  unfold FilterOf.invertOperation FilterOf.LacksInverse
  rw [hoperator]
  -- with the class and the operator known, the chain of comparisons computes
  cases hf : f.cls <;> simp only [hf, FilterClass.innerMessageTypeAttr, Option.some.injEq,
    reduceCtorEq] at hattr hcls <;> subst hattr <;>
    simp only [hf, FilterClass.operators, List.map_cons, List.map_nil, List.mem_cons,
      List.not_mem_nil, or_false] at hmem
  case string =>
      rcases hmem with rfl | rfl | rfl | rfl | rfl | rfl
      · exact .inl ⟨by decide, _, rfl⟩
      · exact .inl ⟨by decide, _, rfl⟩
      · exact .inl ⟨by decide, _, rfl⟩
      · exact .inl ⟨by decide, _, rfl⟩
      -- `startswith` and `endswith` reach the `FilterError` at the end of the chain
      · exact .inr ⟨by decide, ⟨rfl, .inl rfl⟩, _, _, rfl⟩
      · exact .inr ⟨by decide, ⟨rfl, .inr rfl⟩, _, _, rfl⟩
  case status => rcases hmem with rfl | rfl <;> exact .inl ⟨by decide, _, rfl⟩
  case date =>
      rcases hmem with rfl | rfl | rfl | rfl | rfl | rfl <;> exact .inl ⟨by decide, _, rfl⟩
  case number =>
      rcases hmem with rfl | rfl | rfl | rfl | rfl | rfl <;> exact .inl ⟨by decide, _, rfl⟩
  case boolean => exact absurd rfl hcls
  case array => rcases hmem with rfl | rfl <;> exact .inl ⟨by decide, _, rfl⟩
  case duration =>
      rcases hmem with rfl | rfl | rfl | rfl | rfl | rfl <;> exact .inl ⟨by decide, _, rfl⟩

/-- The value of a boolean leaf, and its operator. -/
theorem boolean_cases (h : IsBuilt d c f) (hcls : f.cls = .boolean) :
    ∃ b, f.value = .bool b ∧ f.operatorNumber = FilterBooleanOperator.is.number := by
  have hvalue := h.value
  have hmem := h.operatorNumber_mem
  rw [hcls] at hmem
  unfold FilterOf.sanitizeValue at hvalue
  rw [hcls] at hvalue
  cases hval : f.value with
  | bool b => exact ⟨b, rfl, by simpa [FilterClass.operators] using hmem⟩
  | _ =>
      rw [hval] at hvalue
      exact absurd hvalue FilterOf.wrongValueType_ne_ok

/-- IS `b` and IS not `b` are complements: a boolean leaf always has an inverse. -/
theorem complementary_of_boolean (h : IsBuilt d c f) (hcls : f.cls = .boolean) :
    Complementary f.condition f.inverse.condition := by
  obtain ⟨b, hval, hoperator⟩ := h.boolean_cases hcls
  rw [FilterOf.inverse_of_boolean hcls hval, FilterOf.condition_of_boolean hcls,
    FilterOf.condition_of_boolean (f := { f with value := .bool !b }) hcls, hval]
  simp only [FilterOf.operatorNumber] at hoperator ⊢
  rw [hoperator]
  exact .boolean b

/-- The condition of the inverse leaf is the complement of the condition. -/
theorem complementary_inverse (h : IsBuilt d c f) (hinv : f.HasInverse) :
    Complementary f.condition f.inverse.condition := by
  by_cases hcls : f.cls = .boolean
  · exact h.complementary_of_boolean hcls
  · rw [FilterOf.inverse_of_ne_boolean hcls]
    exact .operators (oppositeOperator_spec ((h.hasInverse_iff hcls).mp hinv))

theorem inverse_cls (h : IsBuilt d c f) : f.inverse.cls = f.cls := by
  by_cases hcls : f.cls = .boolean
  · obtain ⟨b, hval, -⟩ := h.boolean_cases hcls
    rw [FilterOf.inverse_of_boolean hcls hval]
  · rw [FilterOf.inverse_of_ne_boolean hcls]

/-- The inverse of a leaf is a leaf. -/
theorem inverse (h : IsBuilt d c f) (hinv : f.HasInverse) : IsBuilt d c f.inverse := by
  by_cases hcls : f.cls = .boolean
  · obtain ⟨b, hval, -⟩ := h.boolean_cases hcls
    rw [FilterOf.inverse_of_boolean hcls hval]
    exact ⟨h.cls_ne, h.disjunctionMessageType, h.conjunctionMessageType, h.messageType_ne,
      h.operator, FilterOf.sanitizeValue_of_boolean (f := { f with value := .bool !b }) hcls !b⟩
  · rw [FilterOf.inverse_of_ne_boolean hcls]
    refine ⟨h.cls_ne, h.disjunctionMessageType, h.conjunctionMessageType, h.messageType_ne,
      ⟨_, ?_, rfl⟩, ?_⟩
    · rcases oppositeOperator_spec ((h.hasInverse_iff hcls).mp hinv) with hpair | hpair
      · exact (mem_operators_of_complementary h.condition_attr hpair).2
      · exact (mem_operators_of_complementary h.condition_attr hpair).1
    · exact FilterOf.sanitizeValue_of_same (f := f) rfl h.value

theorem hasInverse_inverse (h : IsBuilt d c f) (hinv : f.HasInverse) :
    f.inverse.HasInverse :=
  ⟨_, (h.complementary_inverse hinv).symm⟩

/-- The inverse is as empty as the leaf. -/
theorem inverse_isEmpty (h : IsBuilt d c f) : f.inverse.isEmpty = f.isEmpty := by
  by_cases hcls : f.cls = .boolean
  · obtain ⟨b, hval, -⟩ := h.boolean_cases hcls
    rw [FilterOf.inverse_of_boolean hcls hval, FilterOf.isEmpty, FilterOf.isEmpty, hval]
  · rw [FilterOf.inverse_of_ne_boolean hcls]
    rfl

/-- Inverting twice gives the leaf back. -/
theorem inverse_inverse (h : IsBuilt d c f) (hinv : f.HasInverse) : f.inverse.inverse = f := by
  by_cases hcls : f.cls = .boolean
  · obtain ⟨b, hval, -⟩ := h.boolean_cases hcls
    rw [FilterOf.inverse_of_boolean hcls hval,
      FilterOf.inverse_of_boolean (f := { f with value := .bool !b }) (b := !b) hcls rfl,
      Bool.not_not, ← hval]
  · have hcls' : f.inverse.cls ≠ .boolean := by rwa [h.inverse_cls]
    have hopposite := oppositeOperator_oppositeOperator ((h.hasInverse_iff hcls).mp hinv)
    rw [FilterOf.inverse_of_ne_boolean hcls', FilterOf.inverse_of_ne_boolean hcls]
    exact (congrArg (fun n => { f with operator := some (.simple n) }) hopposite).trans
      (by rw [← h.operator_eq])

/-- `BooleanFilter.__invert__` negates the value. -/
theorem invertBoolean_eq (h : IsBuilt d c f) (hcls : f.cls = .boolean) :
    f.invertBoolean = .ok f.inverse := by
  obtain ⟨b, hval, hoperator⟩ := h.boolean_cases hcls
  have hsanitized := FilterOf.sanitizeValue_of_boolean hcls !b
  have hwith := h.withOperation hsanitized (.simple FilterBooleanOperator.is.number) "=="
  calc f.invertBoolean
      = f.withOperation (.bool !b) (some (.simple FilterBooleanOperator.is.number)) "==" := by
        simp only [FilterOf.invertBoolean, hval, hcls, PyValue.truth, FilterClass.eq_]
        rfl
    _ = .ok f.inverse := by
        rw [hwith, FilterOf.inverse_of_boolean hcls hval, ← hoperator, ← h.operator_eq]

/-- `~` inverts a leaf that has an inverse. -/
theorem invert_eq (h : IsBuilt d c f) (hinv : f.HasInverse) : f.invert = .ok f.inverse := by
  rw [FilterOf.invert_of_operator (by simp [h.operator_eq])]
  by_cases hcls : f.cls = .boolean
  · rw [if_pos hcls, h.invertBoolean_eq hcls]
  · rw [if_neg hcls]
    rcases h.invertOperation_cases hcls with ⟨-, operatorStr, heq⟩ | ⟨hmem, -⟩
    · rw [heq, h.withOperation h.value, FilterOf.inverse_of_ne_boolean hcls]
    · exact absurd ((h.hasInverse_iff hcls).mp hinv) hmem

/-- The leaves without an inverse are those of `startswith` and `endswith`. -/
theorem not_hasInverse_iff (h : IsBuilt d c f) : ¬f.HasInverse ↔ f.LacksInverse := by
  by_cases hcls : f.cls = .boolean
  · refine iff_of_false (fun hinv => hinv ⟨_, h.complementary_of_boolean hcls⟩) fun hlacks => ?_
    rw [FilterOf.LacksInverse, hcls] at hlacks
    cases hlacks.1
  · rw [h.hasInverse_iff hcls]
    rcases h.invertOperation_cases hcls with ⟨hmem, -⟩ | ⟨hmem, hlacks, -⟩
    · refine iff_of_false (fun hno => hno hmem) fun ⟨hstring, hlacks⟩ => ?_
      have hattr := h.condition_attr
      rw [hstring] at hattr
      rw [← Option.some.inj hattr] at hmem
      rcases hlacks with hoperator | hoperator
      all_goals
        rw [h.operator_eq, Option.some.injEq, Operator.simple.injEq] at hoperator
        rw [hoperator] at hmem
        exact absurd hmem (by decide)
    · exact iff_of_true hmem hlacks

/-- `~` raises on a leaf that has none. -/
theorem invert_error (h : IsBuilt d c f) (hinv : ¬f.HasInverse) : RaisesFilterError f.invert := by
  have hcls : f.cls ≠ .boolean := fun hcls => hinv ⟨_, h.complementary_of_boolean hcls⟩
  rw [FilterOf.invert_of_operator (by simp [h.operator_eq]), if_neg hcls]
  rcases h.invertOperation_cases hcls with ⟨hmem, -⟩ | ⟨-, -, herror⟩
  · exact absurd ((h.hasInverse_iff hcls).mpr hmem) hinv
  · exact herror

end IsBuilt

namespace IsLeaf

variable {d c : MessageType} {f : Filter}

/-- The inverse of a fully defined leaf is fully defined. -/
theorem inverse (h : IsLeaf d c f) (hinv : f.HasInverse) : IsLeaf d c f.inverse := by
  have hbuilt := h.isBuilt.inverse hinv
  by_cases hcls : f.cls = .boolean
  · obtain ⟨b, hval, -⟩ := h.isBuilt.boolean_cases hcls
    rw [FilterOf.inverse_of_boolean hcls hval] at hbuilt ⊢
    exact ⟨h.cls_ne, h.field, h.disjunctionMessageType, h.conjunctionMessageType,
      h.messageType_ne, h.innerMessageType, hbuilt.operator, by simp [hcls, FilterClass.Accepts]⟩
  · rw [FilterOf.inverse_of_ne_boolean hcls] at hbuilt ⊢
    exact ⟨h.cls_ne, h.field, h.disjunctionMessageType, h.conjunctionMessageType,
      h.messageType_ne, h.innerMessageType, hbuilt.operator, h.value⟩

/-- `to_basic_message` of a leaf is its condition. -/
theorem toBasicMessage (h : IsLeaf d c f) : f.toBasicMessage = .ok f.condition := by
  obtain ⟨innerType, hinner⟩ := Option.isSome_iff_exists.mp h.innerMessageType
  have hattr := h.isBuilt.condition_attr
  simp only [FilterOf.toBasicMessage, hattr, hinner, innerValue_of_accepts hattr h.value,
    h.operator_eq, innerOperator, inInt32_of_mem_operators h.isBuilt.operatorNumber_mem]
  simp only [FilterOf.condition, hinner, Option.getD_some]
  rfl

end IsLeaf

/-! ## Leaves from comparisons -/

/-- The leaf `Result.result_id == id`. -/
def resultIdIs (id : String) : Filter :=
  { ResultFilter.resultId with
    operator := some (.simple FilterStringOperator.equal.number), value := .str id }

theorem hasInverse_resultIdIs (id : String) : (resultIdIs id).HasInverse := by
  have hpair : (FilterStringOperator.equal.number, FilterStringOperator.notEqual.number) ∈
      complementaryOperators .filter_string := by decide
  exact ⟨_, .operators (.inl hpair)⟩

theorem resultId_eq (id : String) : ResultFilter.resultId.eq (.str id) = .ok (resultIdIs id) := rfl

theorem isLeaf_resultIdIs (id : String) :
    IsLeaf "results.Filters" "results.FiltersAnd" (resultIdIs id) :=
  ⟨by simp [resultIdIs, ResultFilter.resultId, ResultFilter.fieldFilter], rfl, rfl, rfl,
    by simp [resultIdIs, ResultFilter.resultId, ResultFilter.fieldFilter], rfl,
    ⟨_, List.mem_cons_self .., rfl⟩, trivial⟩

end ArmoniKApi.Python
