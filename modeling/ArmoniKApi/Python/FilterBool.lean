import ArmoniKApi.Python.FilterExpr
import ArmoniKApi.Python.FilterFields

/-!
# Comparing a filter with a boolean

A filter that has a value is not compared with `True` or `False` but returned or
negated: `f == True` and `f != False` should mean `f`, and `f == False` and
`f != True` should mean `~f` (`BooleanLaw`).

`_change_operation` does so for every class.  `BooleanFilter` has its own `!=`,
which puts the negated boolean in the place of the value whatever the value was.
For a filter that compares with `True`, as a boolean field does from the start,
this comes to the same.  For a negated one it does not, and `booleanLaw_iff` says
that these filters are all that break the law.

```text
comparison     any other class       BooleanFilter
f == True      f                     f
f == False     ~f                    ~f
f != False     f                     the leaf, with value `not False`
f != True      ~f                    the leaf, with value `not True`
```

The last two lines of the right column are right for a leaf that has the value `True`, and
swap their meanings for one that has the value `False`, which is what `~` makes of a boolean
field.  The proof is this table: `booleanLaw_of_ne_boolean` is the left column,
`IsLeaf.booleanLaw` and `IsLeaf.not_booleanLaw` are the two halves of the right one.

Meanings are compared under every assignment to the conditions (`SameMeaning`), errors
included, so that a filter whose value no message can hold is not excluded.  For the leaf that
breaks the law one assignment is enough, and it can be one that makes complementary conditions
complementary (`Respects`).
-/

namespace ArmoniKApi.Python

open Proto (FilterBooleanOperator)

variable {d c : MessageType} {f g : Filter}

/-! ## The law -/

/-- The filter has a value, and a boolean filter is a leaf: it has its operator
from the start. -/
structure Defined (f : Filter) : Prop where
  value : f.value ≠ .none
  boolean : f.cls = .boolean → ∃ d c, IsLeaf d c f

/-- Every leaf and every combination is defined. -/
theorem Normal.defined {form : List (List Filter)} (h : Normal d c f form) : Defined f := by
  cases h with
  | leaf hleaf =>
      refine ⟨fun hnone => ?_, fun _ => ⟨d, c, hleaf⟩⟩
      have hvalue := hleaf.value
      rw [hnone] at hvalue
      cases hcls : f.cls <;> rw [hcls] at hvalue <;> exact hvalue
  | combined hproper hleaves =>
      exact ⟨fun h => (by cases h), fun h => (by cases h)⟩

/-- Under the assignments, both filters have messages of the same truth value, or
`to_message` raises the same error for both. -/
def SameMeaning (Assigned : (BasicMessage → Bool) → Prop) (f g : Filter) : Prop :=
  ∀ v, Assigned v → f.toMessage.map (·.holds v) = g.toMessage.map (·.holds v)

theorem SameMeaning.refl (Assigned : (BasicMessage → Bool) → Prop) (f : Filter) :
    SameMeaning Assigned f f := fun _ _ => rfl

/-- The four comparisons with a boolean mean the filter or its negation, if it has
one. -/
structure BooleanLaw (Assigned : (BasicMessage → Bool) → Prop) (f : Filter) : Prop where
  eq_true : ∃ g, f.eq (.bool true) = .ok g ∧ SameMeaning Assigned g f
  ne_false : ∃ g, f.ne (.bool false) = .ok g ∧ SameMeaning Assigned g f
  eq_false : ∀ inverted, f.invert = .ok inverted →
    ∃ g, f.eq (.bool false) = .ok g ∧ SameMeaning Assigned g inverted
  ne_true : ∀ inverted, f.invert = .ok inverted →
    ∃ g, f.ne (.bool true) = .ok g ∧ SameMeaning Assigned g inverted

/-! ## The comparisons -/

theorem FilterClass.eq_ne_none (cls : FilterClass) : cls.eq_ ≠ none := by cases cls <;> decide

theorem FilterClass.ne_ne_none (cls : FilterClass) : cls.ne_ ≠ none := by cases cls <;> decide

theorem FilterClass.ne_ne_eq (cls : FilterClass) : cls.ne_ ≠ cls.eq_ := by cases cls <;> decide

theorem FilterOf.eq_bool (hvalue : f.value ≠ .none) (b : Bool) :
    f.eq (.bool b) = if b then .ok f else f.invert := by
  unfold FilterOf.eq
  rw [changeOperation_of_value_ne hvalue]
  exact if_pos ⟨rfl, f.cls.eq_ne_none⟩

/-- Outside `BooleanFilter`. -/
theorem FilterOf.ne_bool (hvalue : f.value ≠ .none) (hcls : f.cls ≠ .boolean) (b : Bool) :
    f.ne (.bool b) = if b then f.invert else .ok f := by
  unfold FilterOf.ne
  rw [if_neg hcls, changeOperation_of_value_ne hvalue]
  refine (if_neg fun h => f.cls.ne_ne_eq h.1).trans ?_
  exact if_pos ⟨rfl, f.cls.ne_ne_none⟩

/-- The `!=` of `BooleanFilter` gives the leaf the negated boolean. -/
theorem IsLeaf.ne_bool (h : IsLeaf d c f) (hcls : f.cls = .boolean) (b : Bool) :
    f.ne (.bool b) = .ok { f with value := .bool !b } := by
  obtain ⟨-, -, hoperator⟩ := h.isBuilt.boolean_cases hcls
  have haccepts : f.cls.Accepts (.bool !b) := by simp [hcls, FilterClass.Accepts]
  have hwith := h.withOperation haccepts (.simple FilterBooleanOperator.is.number) "!="
  calc f.ne (.bool b)
      = f.withOperation (.bool !b) (some (.simple FilterBooleanOperator.is.number)) "!=" := by
        simp only [FilterOf.ne, hcls, PyValue.truth, FilterClass.eq_, if_true]
        rfl
    _ = .ok { f with value := .bool !b } := by rw [hwith, ← hoperator, ← h.operator_eq]

/-- The meaning of a leaf is the truth value of its condition. -/
theorem IsLeaf.meaning (h : IsLeaf d c f) (v : BasicMessage → Bool) :
    f.toMessage.map (·.holds v) = .ok (v f.condition) := by
  rw [(Normal.leaf h).toMessage]
  exact congrArg Except.ok ((formMessage_holds v _).trans (NormalForm.holds_singleton _ _))

/-! ## When the law holds -/

/-- Outside `BooleanFilter` the comparisons return the filter or negate it. -/
theorem booleanLaw_of_ne_boolean {Assigned : (BasicMessage → Bool) → Prop}
    (hvalue : f.value ≠ .none) (hcls : f.cls ≠ .boolean) : BooleanLaw Assigned f where
  eq_true := ⟨f, FilterOf.eq_bool hvalue true, .refl _ f⟩
  ne_false := ⟨f, FilterOf.ne_bool hvalue hcls false, .refl _ f⟩
  eq_false inverted hinverted :=
    ⟨inverted, (FilterOf.eq_bool hvalue false).trans hinverted, .refl _ inverted⟩
  ne_true inverted hinverted :=
    ⟨inverted, (FilterOf.ne_bool hvalue hcls true).trans hinverted, .refl _ inverted⟩

/-- A boolean filter that compares with `True` has the value that its `!=` puts. -/
theorem IsLeaf.booleanLaw {Assigned : (BasicMessage → Bool) → Prop} (h : IsLeaf d c f)
    (hcls : f.cls = .boolean) (htrue : f.value = .bool true) : BooleanLaw Assigned f := by
  have hvalue := (Normal.leaf h).defined.value
  have hsame : { f with value := PyValue.bool true } = f := by rw [← htrue]
  have hinvert : f.invert = .ok { f with value := .bool false } := by
    rw [h.isBuilt.invert_eq ⟨_, h.isBuilt.complementary_of_boolean hcls⟩,
      FilterOf.inverse_of_boolean hcls htrue]
    rfl
  refine ⟨⟨f, FilterOf.eq_bool hvalue true, .refl _ f⟩, ⟨f, ?_, .refl _ f⟩, ?_, ?_⟩
  · rw [h.ne_bool hcls]
    exact congrArg Except.ok hsame
  · intro inverted hinverted
    exact ⟨inverted, (FilterOf.eq_bool hvalue false).trans hinverted, .refl _ inverted⟩
  · intro inverted hinverted
    refine ⟨inverted, ?_, .refl _ inverted⟩
    rw [h.ne_bool hcls, ← hinverted, hinvert]
    rfl

/-- For a negated boolean filter `f != False` is no longer negated. -/
theorem IsLeaf.not_booleanLaw {Assigned : (BasicMessage → Bool) → Prop} (h : IsLeaf d c f)
    (hcls : f.cls = .boolean) (hfalse : f.value = .bool false)
    (hassigned : Assigned FilterExpr.firstOfPair) : ¬BooleanLaw Assigned f := by
  intro hlaw
  obtain ⟨g, hg, hsame⟩ := hlaw.ne_false
  rw [h.ne_bool hcls] at hg
  obtain rfl := Except.ok.inj hg
  have hinverse : f.inverse = { f with value := .bool !false } :=
    FilterOf.inverse_of_boolean hcls hfalse
  have hleaf : IsLeaf d c { f with value := .bool !false } := by
    rw [← hinverse]
    exact h.inverse ⟨_, h.isBuilt.complementary_of_boolean hcls⟩
  -- The conditions are complements of each other, so no assignment gives both one value.
  have hcomplement := h.isBuilt.complementary_of_boolean hcls
  rw [hinverse] at hcomplement
  have hrespects := FilterExpr.respects_firstOfPair _ _ hcomplement
  have hmeaning := hsame _ hassigned
  rw [hleaf.meaning, h.meaning, Except.ok.injEq, hrespects] at hmeaning
  exact absurd hmeaning (by cases FilterExpr.firstOfPair f.condition <;> decide)

/-- The law holds of a filter unless it is a negated boolean filter, be it under
every assignment or under those alone that make complements complementary. -/
theorem booleanLaw_iff (h : Defined f) :
    (BooleanLaw (fun _ => True) f ↔ ¬(f.cls = .boolean ∧ f.value = .bool false)) ∧
      (BooleanLaw Respects f ↔ ¬(f.cls = .boolean ∧ f.value = .bool false)) := by
  have hiff : ∀ Assigned : (BasicMessage → Bool) → Prop, Assigned FilterExpr.firstOfPair →
      (BooleanLaw Assigned f ↔ ¬(f.cls = .boolean ∧ f.value = .bool false)) := by
    intro Assigned hassigned
    by_cases hcls : f.cls = .boolean
    · obtain ⟨d, c, hleaf⟩ := h.boolean hcls
      obtain ⟨b, hb, -⟩ := hleaf.isBuilt.boolean_cases hcls
      cases b with
      | false =>
          refine ⟨fun hlaw => ?_, fun hnot => absurd ⟨hcls, hb⟩ hnot⟩
          exact absurd hlaw (hleaf.not_booleanLaw hcls hb hassigned)
      | true =>
          refine ⟨fun _ hnegated => ?_, fun _ => hleaf.booleanLaw hcls hb⟩
          rw [hb] at hnegated
          cases hnegated.2
    · exact ⟨fun _ hnegated => hcls hnegated.1, fun _ => booleanLaw_of_ne_boolean h.value hcls⟩
  exact ⟨hiff _ trivial, hiff _ FilterExpr.respects_firstOfPair⟩

/-- The filter `Session.client_submission`. -/
def clientSubmission : Filter :=
  sessionFilter.bool (.enum "session_raw_field" "SESSION_RAW_ENUM_FIELD_CLIENT_SUBMISSION"
    Proto.SessionRawEnumField.clientSubmission.number)

theorem isLeaf_clientSubmission :
    IsLeaf "sessions.Filters" "sessions.FiltersAnd" clientSubmission :=
  ⟨by decide, rfl, rfl, rfl, by decide, rfl, ⟨_, List.mem_cons_self .., rfl⟩, trivial⟩

theorem booleanLaw_iff_clientSubmission : BooleanLaw Respects clientSubmission := by
  refine (booleanLaw_iff (Normal.leaf isLeaf_clientSubmission).defined).2.mpr fun h => ?_
  cases h.2

/-- `~Session.client_submission != False` is `Session.client_submission`. -/
theorem not_booleanLaw_clientSubmission :
    ∃ f, sessionFilter.call "client_submission" = .ok clientSubmission ∧
      clientSubmission.invert = .ok f ∧ f.ne (.bool false) = .ok clientSubmission ∧
      Defined f ∧ ¬BooleanLaw (fun _ => True) f ∧ ¬BooleanLaw Respects f := by
  have hleaf : IsLeaf "sessions.Filters" "sessions.FiltersAnd" clientSubmission.inverse :=
    isLeaf_clientSubmission.inverse
      ⟨_, isLeaf_clientSubmission.isBuilt.complementary_of_boolean rfl⟩
  refine ⟨clientSubmission.inverse, rfl, ?_, hleaf.ne_bool rfl false,
    (Normal.leaf hleaf).defined, ?_, ?_⟩
  · exact isLeaf_clientSubmission.isBuilt.invert_eq
      ⟨_, isLeaf_clientSubmission.isBuilt.complementary_of_boolean rfl⟩
  · exact hleaf.not_booleanLaw rfl rfl trivial
  · exact hleaf.not_booleanLaw rfl rfl FilterExpr.respects_firstOfPair

end ArmoniKApi.Python
