import ArmoniKApi.Python.FilterAlgebra

/-!
# Filter expressions

A user writes an expression over leaf filters with the operators `&`, `|`, `~`,
`^`, `*`, `+` and unary `-`, Python evaluates it (`FilterExpr.build`), and
`to_message` turns the result into the message that is sent.  `FilterExpr.holds`
is what the expression means, given the truth values of the conditions of its
leaves, and `toMessage_holds` says that the message means the same.

Negations are computed from the inside out, so a leaf is negated as soon as it
stands under one `~`, however many there are; `FilterExpr.Negatable` asks for an
inverse there and nowhere else.

`form` computes the normal form of an expression without Python, by the connectives of the
library, and the two halves of the claim are about it:

* `build_eq`: an expression with an inverse under every negation builds the combination of its
  form, or its leaf.  The induction is over the expression, one operator of `FilterAlgebra` a
  case; `xor_eq` is the one that evaluates a part twice.
* `negatable_of_build`: an expression that is built has these inverses.  The parts that are
  computed on the way have to be built as well (`intermediates`), so the induction goes over
  these.
* `holds_form`: the form means what the expression means, under assignments that make
  complementary conditions complementary on the leaves that are negated.

`over_form` carries a property of leaves through all of this, if the inverse of a leaf has it
too.  The example has all the operators in it, and an assignment that is not constant.
-/

namespace ArmoniKApi.Python

open Fallible NormalForm

/-- An expression over leaves of type `L`. -/
inductive FilterExpr (L : Type)
  | leaf (f : L)
  | and (left right : FilterExpr L)
  | or (left right : FilterExpr L)
  | invert (expr : FilterExpr L)
  | xor (left right : FilterExpr L)
  | mul (left right : FilterExpr L)
  | add (left right : FilterExpr L)
  | neg (expr : FilterExpr L)

/-- A fully defined leaf filter. -/
abbrev Leaf (disjunctionType conjunctionType : MessageType) :=
  { f : Filter // IsLeaf disjunctionType conjunctionType f }

namespace FilterExpr

variable {d c : MessageType}

/-- The filter that Python builds. -/
def build : FilterExpr (Leaf d c) → PyResult Filter
  | leaf f => return f.1
  | and left right => do (← left.build).and (← right.build)
  | or left right => do (← left.build).or (← right.build)
  | invert expr => do (← expr.build).invert
  | xor left right => do (← left.build).xor (← right.build)
  | mul left right => do (← left.build).mul (← right.build)
  | add left right => do (← left.build).add (← right.build)
  | neg expr => do (← expr.build).neg

/-- The truth value of the expression. -/
def holds (v : BasicMessage → Bool) : FilterExpr (Leaf d c) → Bool
  | leaf f => v f.1.condition
  | and left right | mul left right => left.holds v && right.holds v
  | or left right | add left right => left.holds v || right.holds v
  | invert expr | neg expr => !expr.holds v
  | xor left right => left.holds v ^^ right.holds v

/-- Every leaf of the expression satisfies `P`. -/
def Leaves (P : Filter → Prop) : FilterExpr (Leaf d c) → Prop
  | leaf f => P f.1
  | and left right | or left right | xor left right | mul left right | add left right =>
      left.Leaves P ∧ right.Leaves P
  | invert expr | neg expr => expr.Leaves P

/-- Every leaf to which a negation is applied has an inverse. -/
def Negatable : FilterExpr (Leaf d c) → Prop
  | leaf _ => True
  | and left right | or left right | mul left right | add left right =>
      left.Negatable ∧ right.Negatable
  | invert expr | neg expr => expr.Negatable ∧ expr.Leaves FilterOf.HasInverse
  | xor left right =>
      (left.Negatable ∧ right.Negatable) ∧
        left.Leaves FilterOf.HasInverse ∧ right.Leaves FilterOf.HasInverse

/-- The expressions whose values are computed on the way: the parts of the
expression and, for `a ^ b`, the parts of `(a & (~b)) | ((~a) & b)`. -/
def intermediates : FilterExpr (Leaf d c) → List (FilterExpr (Leaf d c))
  | leaf f => [.leaf f]
  | and left right => .and left right :: (left.intermediates ++ right.intermediates)
  | or left right => .or left right :: (left.intermediates ++ right.intermediates)
  | invert expr => .invert expr :: expr.intermediates
  | xor left right =>
      [.xor left right, .and left (.invert right), .and (.invert left) right, .invert right,
        .invert left] ++ (left.intermediates ++ right.intermediates)
  | mul left right => .mul left right :: (left.intermediates ++ right.intermediates)
  | add left right => .add left right :: (left.intermediates ++ right.intermediates)
  | neg expr => .neg expr :: expr.intermediates

/-- The normal form of the expression. -/
def form : FilterExpr (Leaf d c) → List (List Filter)
  | leaf f => [[f.1]]
  | and left right | mul left right => conjunction left.form right.form
  | or left right | add left right => left.form ++ right.form
  | invert expr | neg expr => negate FilterOf.inverse expr.form
  | xor left right =>
      conjunction left.form (negate FilterOf.inverse right.form) ++
        conjunction (negate FilterOf.inverse left.form) right.form

/-! ## What an expression builds -/

theorem form_proper (e : FilterExpr (Leaf d c)) : Proper e.form := by
  induction e with
  | leaf f => exact Proper.singleton _
  | and left right ihleft ihright | mul left right ihleft ihright =>
      exact ihleft.conjunction ihright
  | or left right ihleft ihright | add left right ihleft ihright => exact ihleft.append ihright
  | invert expr ih | neg expr ih => exact ih.negate
  | xor left right ihleft ihright =>
      exact (ihleft.conjunction ihright.negate).append (ihleft.negate.conjunction ihright)

/-- What every leaf satisfies, and its inverse then too, every leaf of the
normal form satisfies. -/
theorem over_form {P : Filter → Prop} (hinverse : ∀ f, P f → P f.inverse)
    {e : FilterExpr (Leaf d c)} (h : e.Leaves P) : Over P e.form := by
  have hnegate : ∀ {form : List (List Filter)}, Over P form →
      Over P (negate FilterOf.inverse form) :=
    fun hform => Over.negate (hform.mono hinverse)
  induction e with
  | leaf f => exact over_singleton.mpr h
  | and left right ihleft ihright | mul left right ihleft ihright =>
      exact (ihleft h.1).conjunction (ihright h.2)
  | or left right ihleft ihright | add left right ihleft ihright =>
      exact over_append.mpr ⟨ihleft h.1, ihright h.2⟩
  | invert expr ih | neg expr ih => exact hnegate (ih h)
  | xor left right ihleft ihright =>
      exact over_append.mpr ⟨(ihleft h.1).conjunction (hnegate (ihright h.2)),
        (hnegate (ihleft h.1)).conjunction (ihright h.2)⟩

theorem Leaves.isLeaf_and {P : Filter → Prop} {e : FilterExpr (Leaf d c)} (h : e.Leaves P) :
    e.Leaves fun f => IsLeaf d c f ∧ P f := by
  induction e with
  | leaf f => exact ⟨f.2, h⟩
  | and left right ihleft ihright | or left right ihleft ihright | xor left right ihleft ihright
  | mul left right ihleft ihright | add left right ihleft ihright =>
      exact ⟨ihleft h.1, ihright h.2⟩
  | invert expr ih | neg expr ih => exact ih h

/-- When every leaf of an expression has an inverse, so has every leaf of its
normal form. -/
theorem Leaves.over_form {e : FilterExpr (Leaf d c)} (h : e.Leaves FilterOf.HasInverse) :
    Over (fun f => IsLeaf d c f ∧ f.HasInverse) e.form :=
  FilterExpr.over_form
    (fun _ hf => ⟨hf.1.inverse hf.2, hf.1.isBuilt.hasInverse_inverse hf.2⟩) h.isLeaf_and

/-- The converse, which needs an inverse under every negation. -/
theorem leaves_of_over_form {e : FilterExpr (Leaf d c)} (hnegatable : e.Negatable)
    (h : Over FilterOf.HasInverse e.form) : e.Leaves FilterOf.HasInverse := by
  induction e with
  | leaf f => exact over_singleton (P := FilterOf.HasInverse).mp h
  | and left right ihleft ihright | mul left right ihleft ihright =>
      rw [form, over_conjunction_iff left.form_proper.ne_nil right.form_proper.ne_nil] at h
      exact ⟨ihleft hnegatable.1 h.1, ihright hnegatable.2 h.2⟩
  | or left right ihleft ihright | add left right ihleft ihright =>
      rw [form, over_append] at h
      exact ⟨ihleft hnegatable.1 h.1, ihright hnegatable.2 h.2⟩
  | invert expr ih | neg expr ih => exact hnegatable.2
  | xor left right ihleft ihright => exact hnegatable.2

/-- `^` on normal forms. -/
theorem xor_eq {f g : Filter} {left right : List (List Filter)} (hf : Normal d c f left)
    (hg : Normal d c g right) (hleft : Over FilterOf.HasInverse left)
    (hright : Over FilterOf.HasInverse right) :
    ∃ h, f.xor g = .ok h ∧ Normal d c h (conjunction left (negate FilterOf.inverse right) ++
      conjunction (negate FilterOf.inverse left) right) := by
  obtain ⟨nf, hnf, hnormalf⟩ := hf.invert hleft
  obtain ⟨ng, hng, hnormalg⟩ := hg.invert hright
  -- `(self & (~other)) | ((~self) & other)`
  have hfirst := hf.and_normal hnormalg
  have hsecond := hnormalf.and_normal hg
  refine ⟨_, ?_, hfirst.or_normal hsecond⟩
  rw [FilterOf.xor, hng, hnf]
  calc _ = (do let a ← f.and ng
               let b ← nf.and g
               a.or b) := rfl
    _ = _ := by
        rw [hf.and hnormalg, hnormalf.and hg]
        exact hfirst.or hsecond

/-- An expression with an inverse under every negation builds its normal form. -/
theorem build_eq {e : FilterExpr (Leaf d c)} (h : e.Negatable) :
    ∃ f, e.build = .ok f ∧ Normal d c f e.form := by
  induction e with
  | leaf f => exact ⟨f.1, rfl, .leaf f.2⟩
  | and left right ihleft ihright | mul left right ihleft ihright =>
      obtain ⟨f, hf, hnormalf⟩ := ihleft h.1
      obtain ⟨g, hg, hnormalg⟩ := ihright h.2
      refine ⟨_, ?_, hnormalf.and_normal hnormalg⟩
      rw [build, hf, hg, ← hnormalf.and hnormalg]
      rfl
  | or left right ihleft ihright | add left right ihleft ihright =>
      obtain ⟨f, hf, hnormalf⟩ := ihleft h.1
      obtain ⟨g, hg, hnormalg⟩ := ihright h.2
      refine ⟨_, ?_, hnormalf.or_normal hnormalg⟩
      rw [build, hf, hg, ← hnormalf.or hnormalg]
      rfl
  -- the one case that can fail: a leaf of the operand may have no inverse
  | invert expr ih | neg expr ih =>
      obtain ⟨f, hf, hnormalf⟩ := ih h.1
      obtain ⟨g, hg, hnormalg⟩ := hnormalf.invert (h.2.over_form.mono fun _ hleaf => hleaf.2)
      refine ⟨g, ?_, hnormalg⟩
      rw [build, hf, ← hg]
      rfl
  -- `^` inverts both of its operands
  | xor left right ihleft ihright =>
      obtain ⟨f, hf, hnormalf⟩ := ihleft h.1.1
      obtain ⟨g, hg, hnormalg⟩ := ihright h.1.2
      obtain ⟨result, hresult, hnormal⟩ := xor_eq hnormalf hnormalg
        (h.2.1.over_form.mono fun _ hleaf => hleaf.2) (h.2.2.over_form.mono fun _ hleaf => hleaf.2)
      refine ⟨result, ?_, hnormal⟩
      rw [build, hf, hg, ← hresult]
      rfl

/-- Python builds an expression only if every negated leaf has an inverse. -/
theorem negatable_of_build {e : FilterExpr (Leaf d c)} {f : Filter} (hok : e.build = .ok f) :
    e.Negatable := by
  induction e generalizing f with
  | leaf f => trivial
  | and left right ihleft ihright | mul left right ihleft ihright
  | or left right ihleft ihright | add left right ihleft ihright =>
      obtain ⟨a, ha, hok⟩ := bind_eq_ok hok
      obtain ⟨b, hb, -⟩ := bind_eq_ok hok
      exact ⟨ihleft ha, ihright hb⟩
  | invert expr ih | neg expr ih =>
      -- what is inverted was built, so it is the normal form that `build_eq` gives
      obtain ⟨a, ha, hok⟩ := bind_eq_ok hok
      obtain ⟨a', ha', hnormal⟩ := build_eq (ih ha)
      obtain rfl : a = a' := Except.ok.inj (ha.symm.trans ha')
      exact ⟨ih ha, leaves_of_over_form (ih ha) (hnormal.hasInverse_of_invert hok)⟩
  | xor left right ihleft ihright =>
      obtain ⟨a, ha, hok⟩ := bind_eq_ok hok
      obtain ⟨b, hb, hok⟩ := bind_eq_ok hok
      obtain ⟨a', ha', hnormala⟩ := build_eq (ihleft ha)
      obtain ⟨b', hb', hnormalb⟩ := build_eq (ihright hb)
      obtain rfl : a = a' := Except.ok.inj (ha.symm.trans ha')
      obtain rfl : b = b' := Except.ok.inj (hb.symm.trans hb')
      -- `^` inverts its right operand first, and the left one after the first `&`
      obtain ⟨invertedRight, hinvertedRight, hok⟩ := bind_eq_ok hok
      obtain ⟨first, -, hok⟩ := bind_eq_ok hok
      obtain ⟨invertedLeft, hinvertedLeft, -⟩ := bind_eq_ok hok
      exact ⟨⟨ihleft ha, ihright hb⟩,
        leaves_of_over_form (ihleft ha) (hnormala.hasInverse_of_invert hinvertedLeft),
        leaves_of_over_form (ihright hb) (hnormalb.hasInverse_of_invert hinvertedRight)⟩

/-! ## What an expression means -/

theorem holds_form {v : BasicMessage → Bool} (hv : Respects v) {e : FilterExpr (Leaf d c)}
    (h : e.Negatable) : NormalForm.holds (fun f => v f.condition) e.form = e.holds v := by
  have hnegate : ∀ {expr : FilterExpr (Leaf d c)}, expr.Leaves FilterOf.HasInverse →
      NormalForm.holds (fun f => v f.condition) (negate FilterOf.inverse expr.form) =
        !NormalForm.holds (fun f => v f.condition) expr.form := by
    intro expr hleaves
    exact holds_negate_of_complement (hleaves.over_form.mono fun f hf =>
      hv _ _ (hf.1.isBuilt.complementary_inverse hf.2))
  induction e with
  | leaf f => exact holds_singleton _ _
  | and left right ihleft ihright | mul left right ihleft ihright =>
      rw [form, holds_conjunction, ihleft h.1, ihright h.2, holds]
  | or left right ihleft ihright | add left right ihleft ihright =>
      rw [form, holds_append, ihleft h.1, ihright h.2, holds]
  | invert expr ih | neg expr ih =>
      rw [form, hnegate h.2, ih h.1, holds]
  | xor left right ihleft ihright =>
      rw [form, holds_append, holds_conjunction, holds_conjunction, hnegate h.2.1, hnegate h.2.2,
        ihleft h.1.1, ihright h.1.2, holds]
      cases left.holds v <;> cases right.holds v <;> rfl

theorem Negatable.intermediates {e : FilterExpr (Leaf d c)} (h : e.Negatable) :
    ∀ s ∈ e.intermediates, s.Negatable := by
  induction e with
  | leaf f =>
      intro s hs
      obtain rfl := List.mem_singleton.mp hs
      exact h
  | and left right ihleft ihright | mul left right ihleft ihright
  | or left right ihleft ihright | add left right ihleft ihright =>
      intro s hs
      rcases List.mem_cons.mp hs with rfl | hs
      · exact h
      rcases List.mem_append.mp hs with hs | hs
      · exact ihleft h.1 s hs
      · exact ihright h.2 s hs
  | invert expr ih | neg expr ih =>
      intro s hs
      rcases List.mem_cons.mp hs with rfl | hs
      · exact h
      · exact ih h.1 s hs
  | xor left right ihleft ihright =>
      intro s hs
      obtain ⟨⟨hleft, hright⟩, hinvleft, hinvright⟩ := h
      rcases List.mem_append.mp hs with hs | hs
      · simp only [List.mem_cons, List.not_mem_nil, or_false] at hs
        -- the five filters that `^` itself computes
        rcases hs with rfl | rfl | rfl | rfl | rfl
        · exact ⟨⟨hleft, hright⟩, hinvleft, hinvright⟩
        · exact ⟨hleft, hright, hinvright⟩
        · exact ⟨⟨hleft, hinvleft⟩, hright⟩
        · exact ⟨hright, hinvright⟩
        · exact ⟨hleft, hinvleft⟩
      rcases List.mem_append.mp hs with hs | hs
      · exact ihleft hleft s hs
      · exact ihright hright s hs

/-- An expression can be built when every negated leaf has an inverse, and only
then.  The message of what is built has the truth value of the expression, and
every filter built on the way is a leaf or in disjunctive normal form. -/
theorem toMessage_holds (e : FilterExpr (Leaf d c)) :
    ((∃ f, e.build = .ok f) ↔ e.Negatable) ∧
    ∀ f, e.build = .ok f →
      (∃ message, f.toMessage = .ok message ∧
        ∀ v, Respects v → message.holds v = e.holds v) ∧
      ∀ s ∈ e.intermediates, ∃ g, s.build = .ok g ∧ (IsLeaf d c g ∨ InNormalForm d c g) := by
  refine ⟨⟨fun ⟨f, hf⟩ => negatable_of_build hf, fun h => ?_⟩, fun f hf => ?_⟩
  · obtain ⟨f, hf, -⟩ := build_eq h
    exact ⟨f, hf⟩
  have hnegatable := negatable_of_build hf
  constructor
  · obtain ⟨f', hf', hnormal⟩ := build_eq hnegatable
    obtain rfl : f = f' := Except.ok.inj (hf.symm.trans hf')
    refine ⟨_, hnormal.toMessage, fun v hv => ?_⟩
    rw [formMessage_holds, holds_form hv hnegatable]
  · intro s hs
    obtain ⟨g, hg, hnormal⟩ := build_eq (hnegatable.intermediates s hs)
    exact ⟨g, hg, hnormal.isLeaf_or_inNormalForm⟩

/-- The assignment that makes the first operator of every pair true. -/
def firstOfPair (condition : BasicMessage) : Bool :=
  if condition.attr = .filter_boolean then
    match condition.inner.value with
    | .bool b => b
    | _ => false
  else
    condition.inner.operator ∈ (complementaryOperators condition.attr).map Prod.fst

theorem respects_firstOfPair : Respects firstOfPair := by
  have hdisjoint : ∀ attr, ∀ pair ∈ complementaryOperators attr,
      pair.1 ∈ (complementaryOperators attr).map Prod.fst ∧
        pair.2 ∉ (complementaryOperators attr).map Prod.fst := by
    intro attr
    cases attr <;> decide
  intro condition complement h
  cases h with
  | boolean b => rfl
  | @operators _ _ attr _ value operator operator' h =>
      have hattr : attr ≠ .filter_boolean := by
        rintro rfl
        simp [complementaryOperators] at h
      rcases h with h | h
      · simp only [firstOfPair, if_neg hattr, hdisjoint attr _ h]
        rfl
      · simp only [firstOfPair, if_neg hattr, hdisjoint attr _ h]
        rfl

/-- `(~(id == "a" & id == "b")) ^ (-(id == "c"))`. -/
def sampleExpr : FilterExpr (Leaf "results.Filters" "results.FiltersAnd") :=
  .xor (.invert (.and (.leaf ⟨_, isLeaf_resultIdIs "a"⟩) (.leaf ⟨_, isLeaf_resultIdIs "b"⟩)))
    (.neg (.leaf ⟨_, isLeaf_resultIdIs "c"⟩))

theorem toMessage_holds_sampleExpr :
    ∃ f message, sampleExpr.build = .ok f ∧ f.toMessage = .ok message ∧
      message.holds firstOfPair = sampleExpr.holds firstOfPair := by
  have hnegatable : sampleExpr.Negatable :=
    ⟨⟨⟨⟨trivial, trivial⟩, hasInverse_resultIdIs _, hasInverse_resultIdIs _⟩,
      trivial, hasInverse_resultIdIs _⟩,
      ⟨hasInverse_resultIdIs _, hasInverse_resultIdIs _⟩, hasInverse_resultIdIs _⟩
  obtain ⟨hbuild, hspec⟩ := toMessage_holds sampleExpr
  obtain ⟨f, hf⟩ := hbuild.mpr hnegatable
  obtain ⟨⟨message, hmessage, hholds⟩, -⟩ := hspec f hf
  exact ⟨f, message, hf, hmessage, hholds _ respects_firstOfPair⟩

end FilterExpr

end ArmoniKApi.Python
