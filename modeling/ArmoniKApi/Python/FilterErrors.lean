import ArmoniKApi.Python.FilterInvert

/-!
# Which error a value of the wrong type raises

A filter that is compared with a value of a type it does not accept should raise a
`FilterError`.  The message of that error names the field, and the name is looked up
in the text format of the field's message: on its second line, after the mark
`ENUM_FIELD_`.

* A field of an enumeration has the mark in its name.
* An option that users filter by its key has it only if the key does.  On any other
  key the lookup raises an `IndexError`, and no `FilterError` is raised
  (`exists_fieldName_iff`).

The `!=` of `BooleanFilter` does not look at the type at all.  It takes the negation
of whatever it gets, and only a filter refuses that with a `FilterError`.

`StatusFilter` declares no `value_type_`, so `_sanitize_value` lets every value pass: the
comparison is built, and it is left to `to_message` to refuse the value.

`compare_raises_iff` says that there are no other exceptions to the rule.

## Strategy

The name of a field is looked up in a text that protobuf writes, so this is a question about
texts.  The second line of the text is either the name of an enum value or a key in quotes,
and the key may have any characters, which are escaped.

* `transparent_escapeChar` says that the mark does not notice the escapes: none of their
  characters occurs in it.  So the mark is in the escaped key just if it is in the key.
* `newline_notMem_escaped` keeps an escaped key on one line, and `visible_escaped` lets spaces
  be taken out before or after.
* `exists_fieldName_of_enum` and `exists_fieldName_of_key` are the two kinds of fields, and
  `exists_fieldName_iff` puts them together.

Then every field that users find is one of the two (`Proxy.exists_field`), by going through
the tables.  On the way of a comparison the first error decides (`raises_bind_iff`), so the
result depends on whether the type is looked at (`raises_withOperation_iff`,
`raises_withOperation_status_iff`, `raises_compare_boolean_iff`) and on whether the message of
the error can be built (`raises_wrongValueType_iff`).
-/

namespace ArmoniKApi.Python

open Proto (FilterBooleanOperator)

/-! ## Names in the text format -/

/-- The mark that ends the prefix of an enum name. -/
def fieldMark : List Char := "ENUM_FIELD_".toList

/-- A text without its spaces. -/
def visible (text : List Char) : List Char := text.filter fun c => c ≠ ' '

/-- The characters of the escapes. -/
def escapeAlphabet : List Char :=
  ['\\', 'n', 'r', 't', '"', '\'', '0', '1', '2', '3', '4', '5', '6', '7']

/-- A property of the characters of a text, checked one by one. -/
theorem forall_mem_of_all {p : Char → Prop} [DecidablePred p] {text : List Char}
    (h : text.all fun c => p c) : ∀ c ∈ text, p c := by
  simpa using h

theorem digitChar_mem_escapeAlphabet {n : ℕ} (h : n < 8) :
    Nat.digitChar n ∈ escapeAlphabet := by
  revert n
  decide

/-- A character is written as it is, or as an escape. -/
theorem escapeChar_cases (c : Char) :
    (escapeChar c = [c] ∧ c ≠ '\n') ∨
      (c ∉ fieldMark ∧ c ≠ ' ' ∧ escapeChar c ≠ [] ∧ ∀ b ∈ escapeChar c, b ∈ escapeAlphabet) := by
  unfold escapeChar
  split_ifs with hnewline hreturn htab hquote hcontrol
  · subst hnewline
    exact .inr ⟨by decide, by decide, nofun, forall_mem_of_all (by decide)⟩
  · subst hreturn
    exact .inr ⟨by decide, by decide, nofun, forall_mem_of_all (by decide)⟩
  · subst htab
    exact .inr ⟨by decide, by decide, nofun, forall_mem_of_all (by decide)⟩
  · rcases hquote with rfl | rfl | rfl <;>
    exact .inr ⟨by decide, by decide, nofun, forall_mem_of_all (by decide)⟩
  · refine .inr ⟨fun hmem => ?_, fun hspace => ?_, by simp, ?_⟩
    · have hletters : ∀ b ∈ fieldMark, ¬(b.toNat < 32 ∨ b.toNat = 127) :=
        forall_mem_of_all (by decide)
      exact hletters c hmem hcontrol
    · subst hspace
      exact absurd hcontrol (by decide)
    · have hfirst : c.toNat / 64 < 8 := by omega
      have hsecond : c.toNat / 8 % 8 < 8 := Nat.mod_lt _ (by decide)
      have hthird : c.toNat % 8 < 8 := Nat.mod_lt _ (by decide)
      simp only [List.forall_mem_cons]
      exact ⟨by decide, digitChar_mem_escapeAlphabet hfirst, digitChar_mem_escapeAlphabet hsecond,
        digitChar_mem_escapeAlphabet hthird, by simp⟩
  · exact .inl ⟨rfl, hnewline⟩

/-- The mark does not notice the escapes. -/
theorem transparent_escapeChar : Separator.Transparent fieldMark escapeChar := by
  have hforeign : ∀ b ∈ escapeAlphabet, b ∉ fieldMark := forall_mem_of_all (by decide)
  intro c
  rcases escapeChar_cases c with ⟨hplain, -⟩ | ⟨hc, -, hne, hescape⟩
  · exact .inl hplain
  · exact .inr ⟨hc, hne, fun b hb => hforeign b (hescape b hb)⟩

/-- An escaped text has one line. -/
theorem newline_notMem_escaped (text : List Char) : '\n' ∉ text.flatMap escapeChar := by
  rw [List.mem_flatMap]
  rintro ⟨c, -, hmem⟩
  rcases escapeChar_cases c with ⟨hplain, hne⟩ | ⟨-, -, -, hescape⟩
  · rw [hplain, List.mem_singleton] at hmem
    exact hne hmem.symm
  · exact absurd (hescape _ hmem) (by decide)

/-- Spaces can be taken out before or after. -/
theorem visible_escaped (text : List Char) :
    visible (text.flatMap escapeChar) = (visible text).flatMap escapeChar := by
  induction text with
  | nil => rfl
  | cons c rest ih =>
      have hcons : visible ((c :: rest).flatMap escapeChar) =
          visible (escapeChar c) ++ (visible rest).flatMap escapeChar := by
        rw [← ih]
        simp [visible]
      rw [hcons]
      by_cases hspace : c = ' '
      · subst hspace
        rfl
      · have hkept : visible (escapeChar c) = escapeChar c := by
          refine List.filter_eq_self.mpr fun b hb => ?_
          rw [decide_eq_true_eq]
          rintro rfl
          rcases escapeChar_cases c with ⟨hplain, -⟩ | ⟨-, -, -, hescape⟩
          · rw [hplain, List.mem_singleton] at hb
            exact hspace hb.symm
          · exact absurd (hescape _ hb) (by decide)
        have hcons : visible (c :: rest) = c :: visible rest := by simp [visible, hspace]
        rw [hkept, hcons, List.flatMap_cons]

/-! ## The second line -/

/-- The mark stands in the second line of the text, if the name is found. -/
theorem exists_fieldName_of_lines {f : Filter} {front line rest : List Char}
    (htext : visible f.fieldText.toList = front ++ '\n' :: (line ++ '\n' :: rest))
    (hfront : '\n' ∉ front) (hline : '\n' ∉ line) :
    (∃ name, f.fieldName = .ok name) ↔ fieldMark <:+: line := by
  have hmark : fieldMark ≠ [] := by decide
  rw [← Separator.one_lt_length_split_iff hmark]
  have hsecond : ((f.fieldText.toList.filter fun c => c ≠ ' ').splitOn '\n')[1]? = some line := by
    rw [← visible, htext]
    exact Separator.getElem?_one_splitOn rest hfront hline
  unfold FilterOf.fieldName fieldMark
  rw [hsecond]
  generalize "ENUM_FIELD_".toList = mark
  dsimp only
  cases hpiece : (Separator.split mark line)[1]? with
  | none =>
      refine iff_of_false ?_ ?_
      · rintro ⟨name, hname⟩
        cases hname
      · rw [not_lt]
        exact List.getElem?_eq_none_iff.mp hpiece
  | some name => exact iff_of_true ⟨_, rfl⟩ (List.getElem?_eq_some_iff.mp hpiece).1

/-- The text is one line and has the mark. -/
def Marked (text : List Char) : Prop := '\n' ∉ text ∧ fieldMark <:+: visible text

instance (text : List Char) : Decidable (Marked text) := by
  unfold Marked
  infer_instance

/-- The field is an enum value with the mark in its name, or a key. -/
def FieldMessage.WellNamed : FieldMessage → Prop
  | .enum arm name number => '\n' ∉ arm.toList ∧ number ≠ 0 ∧ Marked name.toList
  | .generic arm _ => '\n' ∉ arm.toList

/-- The field is a key without the mark.  Spaces in the key do not count. -/
def FieldMessage.Nameless : FieldMessage → Prop
  | .enum _ _ _ => False
  | .generic _ key => ¬fieldMark <:+: visible key.toList

theorem newline_notMem_visible {text : List Char} (h : '\n' ∉ text) : '\n' ∉ visible text :=
  fun hmem => h (List.mem_of_mem_filter hmem)

/-- An enum name is the second line of the text. -/
theorem exists_fieldName_of_enum {f : Filter} {arm name : String} {number : Int}
    (hfield : f.field = some (.enum arm name number)) (harm : '\n' ∉ arm.toList)
    (hnumber : number ≠ 0) (hname : '\n' ∉ name.toList) :
    (∃ name, f.fieldName = .ok name) ↔ fieldMark <:+: visible name.toList := by
  have hfront : '\n' ∉ visible arm.toList ++ ['\x7b'] := by
    simpa using newline_notMem_visible harm
  have hline : '\n' ∉ "field:".toList ++ visible name.toList := by
    simpa using newline_notMem_visible hname
  have hforeign : ∀ b ∈ "field:".toList, b ∉ fieldMark := forall_mem_of_all (by decide)
  have hlines : visible f.fieldText.toList = (visible arm.toList ++ ['\x7b']) ++
      '\n' :: (("field:".toList ++ visible name.toList) ++ '\n' :: ['\x7d', '\n']) := by
    rw [FilterOf.fieldText, hfield]
    simp [FieldMessage.text, hnumber, visible]
  rw [exists_fieldName_of_lines hlines hfront hline,
    Separator.infix_append_of_foreign (by decide) hforeign]

/-- A key is the second line of the text, in quotes and with escapes.  The empty key is
not printed, and the second line is the closing brace. -/
theorem exists_fieldName_of_key {f : Filter} {arm key : String}
    (hfield : f.field = some (.generic arm key)) (harm : '\n' ∉ arm.toList) :
    (∃ name, f.fieldName = .ok name) ↔ fieldMark <:+: visible key.toList := by
  have hfront : '\n' ∉ visible arm.toList ++ ['\x7b'] := by
    simpa using newline_notMem_visible harm
  -- an empty key is not printed at all
  by_cases hkey : key = ""
  · subst hkey
    have hlines : visible f.fieldText.toList = (visible arm.toList ++ ['\x7b']) ++
        '\n' :: (['\x7d'] ++ '\n' :: []) := by
      rw [FilterOf.fieldText, hfield]
      simp [FieldMessage.text, visible]
    rw [exists_fieldName_of_lines hlines hfront (by decide)]
    exact iff_of_false (by decide) (by decide)
  · let escaped := (visible key.toList).flatMap escapeChar
    have hescaped : '\n' ∉ escaped := newline_notMem_escaped _
    have hline : '\n' ∉ "field:\"".toList ++ (escaped ++ ['"']) := by simpa using hescaped
    have hforeign : ∀ b ∈ "field:\"".toList, b ∉ fieldMark := forall_mem_of_all (by decide)
    have hquote : ∀ b ∈ ['"'], b ∉ fieldMark := forall_mem_of_all (by decide)
    have hlines : visible f.fieldText.toList = (visible arm.toList ++ ['\x7b']) ++
        '\n' :: (("field:\"".toList ++ (escaped ++ ['"'])) ++ '\n' :: ['\x7d', '\n']) := by
      have htext : f.fieldText = (FieldMessage.generic arm key).text := by
        rw [FilterOf.fieldText, hfield]
      rw [htext, FieldMessage.text, if_neg hkey]
      have hvisible := visible_escaped key.toList
      unfold visible at hvisible
      simpa [visible, escapeText, escaped] using hvisible
    rw [exists_fieldName_of_lines hlines hfront hline,
      Separator.infix_append_of_foreign (by decide) hforeign,
      Separator.infix_append_foreign (by decide) hquote,
      Separator.infix_flatMap_iff (by decide) transparent_escapeChar]

/-- The name of a field is found, unless it is a key without the mark. -/
theorem exists_fieldName_iff {f : Filter} {field : FieldMessage} (hfield : f.field = some field)
    (hnamed : field.WellNamed) : (∃ name, f.fieldName = .ok name) ↔ ¬field.Nameless := by
  cases field with
  | enum arm name number =>
      obtain ⟨harm, hnumber, hname, hmem⟩ := hnamed
      rw [exists_fieldName_of_enum hfield harm hnumber hname]
      exact iff_of_true hmem fun h => h
  | generic arm key =>
      rw [exists_fieldName_of_key hfield hnamed]
      exact not_not.symm

/-! ## The fields of a service -/

/-- The entry gives a field that is printed, with the mark. -/
def FieldEntry.Marked : FieldEntry → Prop
  | .field _ name number => number ≠ 0 ∧ Python.Marked name.toList
  | .na _ => True

instance (entry : FieldEntry) : Decidable entry.Marked := by
  cases entry <;> unfold FieldEntry.Marked <;> infer_instance

theorem FilterWrapper.newline_notMem_arm {service : Service} {wrapper : FilterWrapper}
    (hwrapper : wrapper ∈ service.wrappers) :
    '\n' ∉ wrapper.fieldArm.toList ∧ ∀ arm ∈ wrapper.keyArm, '\n' ∉ arm.toList := by
  revert wrapper
  cases service <;> decide +kernel

theorem marked_of_mem_optionFields : ∀ entry ∈ optionFields, entry.2.Marked := by decide +kernel

/-- The names of the tables have the mark. -/
theorem FilterWrapper.marked {service : Service} {wrapper : FilterWrapper}
    (hwrapper : wrapper ∈ service.wrappers) : ∀ entry ∈ wrapper.fields, entry.2.Marked := by
  cases service with
  | tasks =>
      simp only [Service.wrappers, List.mem_cons, List.not_mem_nil, or_false] at hwrapper
      rcases hwrapper with rfl | rfl | rfl
      · decide +kernel
      · exact marked_of_mem_optionFields
      · exact List.forall_mem_nil _
  | sessions =>
      simp only [Service.wrappers, List.mem_cons, List.not_mem_nil, or_false] at hwrapper
      rcases hwrapper with rfl | rfl
      · decide +kernel
      · exact marked_of_mem_optionFields
  | _ =>
      obtain rfl := List.mem_singleton.mp hwrapper
      decide +kernel

theorem FilterWrapper.vtable_field (self : FilterWrapper) (ftype : FType) (field : FieldMessage) :
    (self.vtable ftype field).field = some field := by
  cases ftype <;> rfl

/-- Every field that users find is well named, and only the keys, which are strings,
can be without a name. -/
theorem Proxy.exists_field {service : Service} {f : Filter} (h : Proxy service f)
    (htyped : f.cls ≠ .filter) :
    ∃ field, f.field = some field ∧ field.WellNamed ∧ (field.Nameless → f.cls = .string) := by
  cases h with
  | field hwrapper hcall =>
      obtain ⟨ftype, enumName, number, hentry, rfl⟩ := FilterWrapper.exists_entry_of_call hcall
      exact ⟨_, FilterWrapper.vtable_field .., ⟨(FilterWrapper.newline_notMem_arm hwrapper).1,
        FilterWrapper.marked hwrapper _ hentry⟩, False.elim⟩
  | @key wrapper item _ hwrapper hitem =>
      have harms := (FilterWrapper.newline_notMem_arm hwrapper).2
      unfold FilterWrapper.getItem at hitem
      split at hitem
      · cases hitem
      · rename_i arm harm
        cases hitem
        exact ⟨_, rfl, harms arm harm, fun _ => rfl⟩
  | error hservice =>
      have hmarked : Marked "TASK_SUMMARY_ENUM_FIELD_ERROR".toList := by decide +kernel
      exact ⟨_, rfl, ⟨by decide +kernel, by decide, hmarked⟩, False.elim⟩
  | wrapper hwrapper => exact absurd rfl htyped

/-! ## Values of the wrong type -/

/-- Filters with a type of their own, but for status filters, look at the type of a
value. -/
theorem sanitizeValue_of_wrongType {f : Filter} {value : PyValue} (htyped : f.cls ≠ .filter)
    (hstatus : f.cls ≠ .status) (hvalue : ¬f.cls.Takes value) :
    ∃ filter expected, f.sanitizeValue value = f.wrongValueType filter expected value := by
  unfold FilterOf.sanitizeValue
  split
  all_goals first
    | exact ⟨_, _, rfl⟩
    | (rename_i hcls
       first
        | exact absurd hcls htyped
        | exact absurd hcls hstatus
        | (rw [hcls] at hvalue
           exact absurd trivial hvalue))

theorem fieldName_error {f : Filter} {error : PyError} (herror : f.fieldName = .error error) :
    error = .indexError := by
  unfold FilterOf.fieldName at herror
  split at herror
  · exact (Except.error.inj herror).symm
  · split at herror
    · exact (Except.error.inj herror).symm
    · cases herror

/-- The `FilterError` is raised if the name of the field is found. -/
theorem raises_wrongValueType_iff {f : Filter} {filter : Option Filter} {expected : String}
    {value : PyValue} :
    RaisesFilterError (f.wrongValueType filter expected value) ↔
      ∃ name, f.fieldName = .ok name := by
  unfold FilterOf.wrongValueType
  cases hname : f.fieldName with
  | ok name => exact iff_of_true ⟨_, _, rfl⟩ ⟨name, rfl⟩
  | error error =>
      obtain rfl := fieldName_error hname
      exact iff_of_false (fun ⟨_, _, herror⟩ => nomatch herror) fun ⟨_, hok⟩ => nomatch hok

theorem fieldName_of_nameless {f : Filter} {field : FieldMessage}
    (hfield : f.field = some field) (hnamed : field.WellNamed) (hnameless : field.Nameless) :
    f.fieldName = .error .indexError := by
  cases hname : f.fieldName with
  | ok name => exact absurd hnameless ((exists_fieldName_iff hfield hnamed).mp ⟨name, hname⟩)
  | error error => rw [fieldName_error hname]

/-- What comes after never fails, so the error is that of the first step. -/
theorem raises_bind_iff {α β : Type} {x : PyResult α} {next : α → PyResult β}
    (hnext : ∀ a, x = .ok a → ∃ b, next a = .ok b) :
    RaisesFilterError (x >>= next) ↔ RaisesFilterError x := by
  cases x with
  | ok a =>
      obtain ⟨b, hb⟩ := hnext a rfl
      refine iff_of_false (fun ⟨_, _, herror⟩ => ?_) fun ⟨_, _, herror⟩ => nomatch herror
      cases hb.symm.trans herror
  | error error =>
      constructor
      · rintro ⟨filter, message, herror⟩
        cases herror
        exact ⟨filter, message, rfl⟩
      · rintro ⟨filter, message, herror⟩
        cases herror
        exact ⟨filter, message, rfl⟩

/-- `_change_operation` on a field, for a value of the wrong type. -/
theorem raises_withOperation_iff {f : Filter} {field : FieldMessage} {value : PyValue}
    {operator : Option Operator} {operatorStr : String} (hfield : f.field = some field)
    (hnamed : field.WellNamed) (hdisjunction : f.isDisjunction = false)
    (htyped : f.cls ≠ .filter) (hstatus : f.cls ≠ .status) (hvalue : ¬f.cls.Takes value) :
    RaisesFilterError (f.withOperation value operator operatorStr) ↔
      ¬(field.Nameless ∧ operator ≠ none) := by
  obtain ⟨filter, expected, hsanitize⟩ := sanitizeValue_of_wrongType htyped hstatus hvalue
  unfold FilterOf.withOperation
  cases operator with
  | none =>
      rw [if_pos (.inl rfl)]
      exact iff_of_true ⟨_, _, rfl⟩ fun h => h.2 rfl
  | some operator =>
      have hname : RaisesFilterError (f.wrongValueType filter expected value) ↔
          ¬field.Nameless :=
        raises_wrongValueType_iff.trans (exists_fieldName_iff hfield hnamed)
      rw [if_neg (by simp [hdisjunction]), hsanitize, and_iff_left (Option.some_ne_none _), ← hname]
      exact raises_bind_iff fun sanitized hok => absurd hok FilterOf.wrongValueType_ne_ok

/-- `_change_operation` on a status field lets every value pass. -/
theorem raises_withOperation_status_iff {f : Filter} {value : PyValue}
    {operator : Option Operator} {operatorStr : String} (hcls : f.cls = .status)
    (hdisjunction : f.isDisjunction = false) :
    RaisesFilterError (f.withOperation value operator operatorStr) ↔ operator = none := by
  unfold FilterOf.withOperation
  cases operator with
  | none =>
      rw [if_pos (.inl rfl)]
      exact iff_of_true ⟨_, _, rfl⟩ rfl
  | some operator =>
      have hsanitize : f.sanitizeValue value = .ok value := by
        unfold FilterOf.sanitizeValue
        rw [hcls]
        rfl
      rw [if_neg (by simp [hdisjunction]), hsanitize]
      exact iff_of_false (fun ⟨_, _, herror⟩ => nomatch herror) (Option.some_ne_none _)

/-- `not` refuses a filter with a `FilterError`, and nothing else. -/
theorem raises_truth_iff {value : PyValue} :
    RaisesFilterError value.truth ↔ ∃ g, value = .filter g := by
  constructor
  · rintro ⟨filter, message, herror⟩
    unfold PyValue.truth at herror
    split at herror
    all_goals first
      | exact ⟨_, rfl⟩
      | cases herror
  · rintro ⟨g, rfl⟩
    exact ⟨_, _, rfl⟩

/-- The operators of a status field are the two equalities. -/
theorem operatorOf_status_eq_none_iff {comparison : Comparison} :
    FilterClass.status.operatorOf comparison = none ↔
      ¬(comparison = .eq ∨ comparison = .ne) := by
  cases comparison <;> simp [FilterClass.operatorOf, FilterClass.eq_, FilterClass.ne_,
    FilterClass.lt_, FilterClass.le_, FilterClass.gt_, FilterClass.ge_, FilterClass.contains_]

/-- A boolean field, which has a value from the start. -/
theorem raises_compare_boolean_iff {d c : MessageType} {f : Filter} (h : IsBuilt d c f)
    (hcls : f.cls = .boolean) {comparison : Comparison} (hoffers : f.cls.Offers comparison)
    {value : PyValue} (hvalue : ¬f.cls.Takes value) :
    RaisesFilterError (f.compare value comparison) ↔
      ¬(comparison = .ne ∧ ∀ g, value ≠ .filter g) := by
  by_cases hne : comparison = .ne
  · subst hne
    have hoperator : f.cls.eq_ = some (.simple FilterBooleanOperator.is.number) := by
      rw [hcls]
      rfl
    have hnext : ∀ truth, value.truth = .ok truth →
        ∃ g, f.withOperation (.bool !truth) f.cls.eq_ "!=" = .ok g := by
      intro truth _
      rw [hoperator]
      exact ⟨_, h.withOperation (FilterOf.sanitizeValue_of_boolean hcls !truth) _ _⟩
    rw [FilterOf.compare, FilterOf.ne, if_pos hcls, and_iff_right rfl, raises_bind_iff hnext,
      raises_truth_iff]
    exact not_forall_not.symm
  · obtain ⟨b, hval, -⟩ := h.boolean_cases hcls
    have hset : f.value ≠ .none := by
      rw [hval]
      intro hnone
      cases hnone
    obtain ⟨operatorStr, hcompare⟩ := exists_compare_eq value hoffers fun _ => hne
    refine iff_of_true ?_ fun hnot => hne hnot.1
    rw [hcompare, FilterOf.changeOperation_of_value_ne hset]
    -- only a `bool` can be compared with a filter that has a value
    have hreassigned : RaisesFilterError (FilterOf.changeDefined.reassigned f) := by
      unfold FilterOf.changeDefined.reassigned
      split <;> exact ⟨_, _, rfl⟩
    unfold FilterOf.changeDefined
    split
    · rw [hcls] at hvalue
      exact absurd trivial hvalue
    · exact hreassigned

/-- Every comparison with a value of the wrong type raises a `FilterError`, except for
a key without the mark, whose name is not found, for the `!=` of a boolean field with
anything but a filter, and for the `==` and `!=` of a status field, which take any value. -/
theorem compare_raises_iff {service : Service} {f : Filter} (hproxy : Proxy service f)
    (htyped : f.cls ≠ .filter) {comparison : Comparison} (hoffers : f.cls.Offers comparison)
    {value : PyValue} (hvalue : ¬f.cls.Takes value) :
    RaisesFilterError (f.compare value comparison) ↔
      ¬((∃ field, f.field = some field ∧ field.Nameless) ∧
          f.cls.operatorOf comparison ≠ none) ∧
        ¬(f.cls = .boolean ∧ comparison = .ne ∧ ∀ g, value ≠ .filter g) ∧
        ¬(f.cls = .status ∧ (comparison = .eq ∨ comparison = .ne)) := by
  obtain ⟨field, hfield, hnamed, hstring⟩ := hproxy.exists_field htyped
  have hexists : (∃ other, f.field = some other ∧ other.Nameless) ↔ field.Nameless := by
    simp [hfield]
  rw [hexists]
  -- booleans have a `__ne__` of their own, and statuses no type for their values
  by_cases hcls : f.cls = .boolean
  · have hno : ¬field.Nameless := by
      intro hnameless
      cases hcls.symm.trans (hstring hnameless)
    have hstatus : ¬(f.cls = .status ∧ (comparison = .eq ∨ comparison = .ne)) := by
      rintro ⟨hstatus, -⟩
      cases hcls.symm.trans hstatus
    rw [raises_compare_boolean_iff (hproxy.fresh.isBuilt hcls) hcls hoffers hvalue,
      and_iff_right fun hnameless => hno hnameless.1, and_iff_right hcls, and_iff_left hstatus]
  · have hblank := hproxy.fresh.isBlank hcls
    have hdisjunction : f.isDisjunction = false := by
      rw [FilterOf.isDisjunction, hblank.disjunctionMessageType, decide_eq_false_iff_not]
      exact hproxy.fresh.messageType_ne htyped
    obtain ⟨operatorStr, hcompare⟩ :=
      exists_compare_eq value hoffers fun hboolean => absurd hboolean hcls
    have hboolean : ¬(f.cls = .boolean ∧ comparison = .ne ∧ ∀ g, value ≠ .filter g) :=
      fun h => hcls h.1
    rw [hcompare, FilterOf.changeOperation, hblank.value, and_iff_right hboolean]
    by_cases hstatus : f.cls = .status
    · have hno : ¬(field.Nameless ∧ f.cls.operatorOf comparison ≠ none) := by
        rintro ⟨hnameless, -⟩
        cases hstatus.symm.trans (hstring hnameless)
      refine (raises_withOperation_status_iff hstatus hdisjunction).trans ?_
      rw [and_iff_right hno, and_iff_right hstatus, hstatus]
      exact operatorOf_status_eq_none_iff
    · rw [and_iff_left fun h => hstatus h.1]
      exact raises_withOperation_iff hfield hnamed hdisjunction htyped hstatus hvalue

/-- A date compared with a text. -/
theorem compare_raises_iff_created_at :
    ∃ f, sessionFilter.call "created_at" = .ok f ∧ RaisesFilterError (f.lt (.str "today")) := by
  have hproxy : Proxy .sessions (sessionFilter.date (.enum "session_raw_field"
      "SESSION_RAW_ENUM_FIELD_CREATED_AT" Proto.SessionRawEnumField.createdAt.number)) :=
    @Proxy.field .sessions sessionFilter "created_at" _ (by simp [Service.wrappers]) rfl
  have hoffers : FilterClass.date.Offers .lt := by rintro (h | h) <;> cases h
  have hvalue : ¬FilterClass.date.Takes (.str "today") := id
  have htyped : FilterClass.date ≠ .filter := by decide
  refine ⟨_, rfl, (compare_raises_iff hproxy htyped hoffers hvalue).mpr ⟨?_, ?_, ?_⟩⟩
  · rintro ⟨⟨field, hfield, hnameless⟩, -⟩
    cases hfield
    exact hnameless
  · rintro ⟨hcls, -⟩
    cases hcls
  · rintro ⟨hcls, -⟩
    cases hcls

/-- `Task.options["key"] == 3` raises an `IndexError`, and
`Session.client_submission != "no"` and `Task.status == "foo"` raise nothing. -/
theorem option_key_raises_indexError :
    (∃ f, taskOptionFilter.getItem "key" = .ok f ∧ Proxy .tasks f ∧ f.cls.Offers .eq ∧
      ¬f.cls.Takes (.int 3) ∧ f.compare (.int 3) .eq = .error .indexError ∧
      ¬RaisesFilterError (f.compare (.int 3) .eq)) ∧
    (∃ f g, sessionFilter.call "client_submission" = .ok f ∧ Proxy .sessions f ∧
      f.cls.Offers .ne ∧ ¬f.cls.Takes (.str "no") ∧ f.compare (.str "no") .ne = .ok g ∧
      ¬RaisesFilterError (f.compare (.str "no") .ne)) ∧
    ∃ f g, taskFilter.call "status" = .ok f ∧ Proxy .tasks f ∧ f.cls.Offers .eq ∧
      ¬f.cls.Takes (.str "foo") ∧ f.compare (.str "foo") .eq = .ok g ∧
      ¬RaisesFilterError (f.compare (.str "foo") .eq) := by
  refine ⟨?_, ?_, ?_⟩
  -- the message of the error asks for the name of the field, and there is none
  · let key := taskOptionFilter.string (.generic "task_option_generic_field" "key")
    have hproxy : Proxy .tasks key :=
      @Proxy.key .tasks taskOptionFilter "key" _ (by simp [Service.wrappers]) rfl
    have harm : '\n' ∉ "task_option_generic_field".toList := by decide +kernel
    have hunmarked : ¬fieldMark <:+: visible "key".toList := by decide
    have hname : key.fieldName = .error .indexError := fieldName_of_nameless rfl harm hunmarked
    have hcompare : key.compare (.int 3) .eq = .error .indexError := by
      calc key.compare (.int 3) .eq
          = (do let sanitized ← key.wrongValueType none "str" (.int 3)
                return { key with
                  operator := FilterClass.string.eq_, value := sanitized }) := rfl
        _ = .error .indexError := by
            rw [FilterOf.wrongValueType, hname]
            rfl
    refine ⟨key, rfl, hproxy, fun _ => rfl, id, hcompare, ?_⟩
    · rintro ⟨filter, message, herror⟩
      cases hcompare.symm.trans herror
  -- `__ne__` of a boolean filter does not look at the type
  · let submission := sessionFilter.bool (.enum "session_raw_field"
      "SESSION_RAW_ENUM_FIELD_CLIENT_SUBMISSION" Proto.SessionRawEnumField.clientSubmission.number)
    have hproxy : Proxy .sessions submission :=
      @Proxy.field .sessions sessionFilter "client_submission" _ (by simp [Service.wrappers]) rfl
    have hcompare : submission.compare (.str "no") .ne = .ok _ := rfl
    refine ⟨submission, _, rfl, hproxy, ?_, id, hcompare, ?_⟩
    · rintro (h | h) <;> cases h
    · rintro ⟨filter, message, herror⟩
      cases hcompare.symm.trans herror
  -- `StatusFilter` has no `value_type_`
  · let status := taskFilter.status (.enum "task_summary_field" "TASK_SUMMARY_ENUM_FIELD_STATUS"
      Proto.TaskSummaryEnumField.status.number)
    have hproxy : Proxy .tasks status :=
      @Proxy.field .tasks taskFilter "status" _ (by simp [Service.wrappers]) rfl
    have hcompare : status.compare (.str "foo") .eq = .ok _ := rfl
    refine ⟨status, _, rfl, hproxy, ?_, id, hcompare, ?_⟩
    · rintro (h | h) <;> cases h
    · rintro ⟨filter, message, herror⟩
      cases hcompare.symm.trans herror

end ArmoniKApi.Python
