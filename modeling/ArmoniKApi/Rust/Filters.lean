import ArmoniKApi.Proto.Filters
import ArmoniKApi.Rust.Enums

/-!
# Filters of the Rust client

The shapes that the five listing services share: a condition on a value, and
the filter itself, a disjunction of conjunctions of conditions on fields.  The
source writes them with the macros `impl_filter_condition` and `impl_filter`;
here they are parametrised by the codecs of what they hold.

Beside each codec stands the predicate of the wire values that it reads back
unchanged: nothing is absent, and every enumeration holds the number of a value.

```text
   Or      list of And
   And     list of Field
   Field   a field, and a condition
             the condition: a value, and an operator
```

`Field.codec_lawful`, `And.codec_lawful` and `Or.codec_lawful` climb this tree, each from the
lemma of the level below.  A service supplies two codecs, of its fields and of its conditions,
and a lemma for each; the rest is here.
-/

namespace ArmoniKApi.Rust

open Codec (Known Present)

variable {V V' Op E F F' C C' : Type}

/-! ## Conditions on a value -/

/-- A value and an operator: what `impl_filter_condition` declares for each kind of
value. -/
structure FilterCondition (V Op : Type) where
  value : V
  operator : Op
  deriving DecidableEq, Repr

instance [Inhabited V] [Inhabited Op] : Inhabited (FilterCondition V Op) := ⟨⟨default, default⟩⟩

namespace FilterCondition

/-- The value and the operator, each on its own. -/
def codec (value : Codec V V') (operator : Codec Op Int) :
    Codec (FilterCondition V Op) (Proto.FilterCondition V') where
  encode := fun cond => ⟨value.encode cond.value, operator.encode cond.operator⟩
  decode := fun cond => ⟨value.decode cond.value, operator.decode cond.operator⟩

/-- The value is one that comes back, and the operator has a number that is known. -/
def WellFormed (P : V' → Prop) (number : E → Int) (cond : Proto.FilterCondition V') : Prop :=
  P cond.value ∧ Known number cond.operator

theorem codec_lawful {value : Codec V V'} {operator : Codec Op Int} {P : V' → Prop}
    {number : E → Int} (hvalue : value.Lawful P) (hoperator : operator.Lawful (Known number)) :
    (codec value operator).Lawful (WellFormed P number) where
  decode_encode := by
    intro ⟨v, op⟩
    exact congrArg₂ FilterCondition.mk (hvalue.decode_encode v) (hoperator.decode_encode op)
  encode_decode := by
    intro ⟨v, op⟩ ⟨hv, hop⟩
    exact congrArg₂ Proto.FilterCondition.mk (hvalue.encode_decode v hv)
      (hoperator.encode_decode op hop)

end FilterCondition

/-! The members of the family.  The `value` of a date or a duration is an
optional message, read with `unwrap_or_default`. -/

instance : Inhabited Proto.Timestamp := ⟨⟨0, 0⟩⟩
instance : Inhabited Proto.Duration := ⟨⟨0, 0⟩⟩

/-- `FilterString`. -/
abbrev FilterString := FilterCondition String FilterStringOperator

/-- `FilterNumber`. -/
abbrev FilterNumber := FilterCondition Int FilterNumberOperator

/-- `FilterArray`. -/
abbrev FilterArray := FilterCondition String FilterArrayOperator

/-- `FilterBoolean`. -/
abbrev FilterBoolean := FilterCondition Bool FilterBooleanOperator

/-- `FilterDate`. -/
abbrev FilterDate := FilterCondition Proto.Timestamp FilterDateOperator

/-- `FilterDuration`. -/
abbrev FilterDuration := FilterCondition Proto.Duration FilterDurationOperator

/-- `FilterStatus`, over the enumeration of the service. -/
abbrev FilterStatus (T : Type) := FilterCondition T FilterStatusOperator

/-- The text is moved as it is. -/
def FilterString.codec : Codec FilterString Proto.FilterString :=
  FilterCondition.codec (.id String) FilterStringOperator.codec

/-- The number is moved as it is. -/
def FilterNumber.codec : Codec FilterNumber Proto.FilterNumber :=
  FilterCondition.codec (.id Int) FilterNumberOperator.codec

/-- The text is moved as it is. -/
def FilterArray.codec : Codec FilterArray Proto.FilterArray :=
  FilterCondition.codec (.id String) FilterArrayOperator.codec

/-- The truth value is moved as it is. -/
def FilterBoolean.codec : Codec FilterBoolean Proto.FilterBoolean :=
  FilterCondition.codec (.id Bool) FilterBooleanOperator.codec

/-- The date is always written, and read as the default when it is absent. -/
def FilterDate.codec : Codec FilterDate Proto.FilterDate :=
  FilterCondition.codec (Codec.id Proto.Timestamp).option FilterDateOperator.codec

/-- The duration is always written, and read as the default when it is absent. -/
def FilterDuration.codec : Codec FilterDuration Proto.FilterDuration :=
  FilterCondition.codec (Codec.id Proto.Duration).option FilterDurationOperator.codec

/-- The status goes by its number. -/
def FilterStatus.codec {T : Type} (status : Codec T Int) :
    Codec (FilterStatus T) Proto.FilterStatus :=
  FilterCondition.codec status FilterStatusOperator.codec

/-- A scalar is always there. -/
abbrev ScalarWellFormed (number : E → Int) : Proto.FilterCondition V' → Prop :=
  FilterCondition.WellFormed (fun _ => True) number

/-- A date or a duration has a value. -/
abbrev MessageWellFormed (number : E → Int) : Proto.FilterCondition (Option V') → Prop :=
  FilterCondition.WellFormed (Present fun _ => True) number

/-- The status is a number of `status`. -/
abbrev StatusWellFormed (status : E → Int) : Proto.FilterStatus → Prop :=
  FilterCondition.WellFormed (Known status) Proto.FilterStatusOperator.number

theorem FilterString.codec_lawful :
    FilterString.codec.Lawful (ScalarWellFormed Proto.FilterStringOperator.number) :=
  FilterCondition.codec_lawful (Codec.id_lawful String) FilterStringOperator.codec_lawful

theorem FilterNumber.codec_lawful :
    FilterNumber.codec.Lawful (ScalarWellFormed Proto.FilterNumberOperator.number) :=
  FilterCondition.codec_lawful (Codec.id_lawful Int) FilterNumberOperator.codec_lawful

theorem FilterArray.codec_lawful :
    FilterArray.codec.Lawful (ScalarWellFormed Proto.FilterArrayOperator.number) :=
  FilterCondition.codec_lawful (Codec.id_lawful String) FilterArrayOperator.codec_lawful

theorem FilterBoolean.codec_lawful :
    FilterBoolean.codec.Lawful (ScalarWellFormed Proto.FilterBooleanOperator.number) :=
  FilterCondition.codec_lawful (Codec.id_lawful Bool) FilterBooleanOperator.codec_lawful

theorem FilterDate.codec_lawful :
    FilterDate.codec.Lawful (MessageWellFormed Proto.FilterDateOperator.number) :=
  FilterCondition.codec_lawful (Codec.id_lawful Proto.Timestamp).option
    FilterDateOperator.codec_lawful

theorem FilterDuration.codec_lawful :
    FilterDuration.codec.Lawful (MessageWellFormed Proto.FilterDurationOperator.number) :=
  FilterCondition.codec_lawful (Codec.id_lawful Proto.Duration).option
    FilterDurationOperator.codec_lawful

theorem FilterStatus.codec_lawful {T : Type} {status : Codec T Int} {number : E → Int}
    (hstatus : status.Lawful (Known number)) :
    (FilterStatus.codec status).Lawful (StatusWellFormed number) :=
  FilterCondition.codec_lawful hstatus FilterStatusOperator.codec_lawful

/-! ## The nested filter -/

namespace Filter

/-- What `impl_filter` declares as a condition on a field. -/
structure Field (F C : Type) where
  field : F
  condition : C
  deriving DecidableEq, Repr

/-- The conditions that must hold together. -/
structure And (F C : Type) where
  and : List (Field F C)
  deriving DecidableEq, Repr

/-- The conjunctions of which one must hold. -/
structure Or (F C : Type) where
  or : List (And F C)
  deriving DecidableEq, Repr

section Codec

variable [Inhabited F] [Inhabited C] (field : Codec F F') (condition : Codec C C')

/-- `field = option field, condition = option value_condition`. -/
def Field.codec : Codec (Field F C) (Proto.FilterField F' C') where
  encode := fun value =>
    ⟨field.option.encode value.field, condition.option.encode value.condition⟩
  decode := fun value =>
    ⟨field.option.decode value.field, condition.option.decode value.valueCondition⟩

/-- `list and`. -/
def And.codec : Codec (And F C) (Proto.FiltersAnd F' C') where
  encode := fun value => ⟨(Field.codec field condition).list.encode value.and⟩
  decode := fun value => ⟨(Field.codec field condition).list.decode value.and⟩

/-- `list or`. -/
def Or.codec : Codec (Or F C) (Proto.Filters F' C') where
  encode := fun value => ⟨(And.codec field condition).list.encode value.or⟩
  decode := fun value => ⟨(And.codec field condition).list.decode value.or⟩

end Codec

section WellFormed

variable (P : F' → Prop) (Q : C' → Prop)

/-- Both the field and the condition are there, and well formed. -/
def Field.WellFormed (value : Proto.FilterField F' C') : Prop :=
  Present P value.field ∧ Present Q value.valueCondition

/-- Every condition of the conjunction is well formed. -/
def And.WellFormed (value : Proto.FiltersAnd F' C') : Prop :=
  ∀ item ∈ value.and, Field.WellFormed P Q item

/-- Every conjunction of the filter is well formed. -/
def Or.WellFormed (value : Proto.Filters F' C') : Prop :=
  ∀ item ∈ value.or, And.WellFormed P Q item

end WellFormed

section Lawful

variable [Inhabited F] [Inhabited C] {field : Codec F F'} {condition : Codec C C'}
  {P : F' → Prop} {Q : C' → Prop}

theorem Field.codec_lawful (hfield : field.Lawful P) (hcondition : condition.Lawful Q) :
    (Field.codec field condition).Lawful (Field.WellFormed P Q) where
  decode_encode := by
    intro ⟨f, c⟩
    exact congrArg₂ Field.mk (hfield.option.decode_encode f) (hcondition.option.decode_encode c)
  encode_decode := by
    intro ⟨f, c⟩ ⟨hf, hc⟩
    exact congrArg₂ Proto.FilterField.mk (hfield.option.encode_decode f hf)
      (hcondition.option.encode_decode c hc)

theorem And.codec_lawful (hfield : field.Lawful P) (hcondition : condition.Lawful Q) :
    (And.codec field condition).Lawful (And.WellFormed P Q) where
  decode_encode := by
    intro ⟨items⟩
    exact congrArg And.mk ((Field.codec_lawful hfield hcondition).list.decode_encode items)
  encode_decode := by
    intro ⟨items⟩ hitems
    exact congrArg Proto.FiltersAnd.mk
      ((Field.codec_lawful hfield hcondition).list.encode_decode items hitems)

/-- A filter is read back as it was written, branch by branch and condition by
condition. -/
theorem Or.codec_lawful (hfield : field.Lawful P) (hcondition : condition.Lawful Q) :
    (Or.codec field condition).Lawful (Or.WellFormed P Q) where
  decode_encode := by
    intro ⟨items⟩
    exact congrArg Or.mk ((And.codec_lawful hfield hcondition).list.decode_encode items)
  encode_decode := by
    intro ⟨items⟩ hitems
    exact congrArg Proto.Filters.mk
      ((And.codec_lawful hfield hcondition).list.encode_decode items hitems)

end Lawful

end Filter

end ArmoniKApi.Rust
