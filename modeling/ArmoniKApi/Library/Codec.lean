import Mathlib.Data.List.Basic

/-!
# Codecs between domain values and wire values

A codec is a pair of functions, `encode` from a domain type to a wire type and
`decode` back.  It is lawful for a set of well-formed wire values when decoding
an encoded value gives it back, and encoding a decoded value gives back every
well-formed wire value.

Wire formats are put together from optional fields, lists and enumerations;
there is one codec for each, with a lemma that says when it is lawful.

The two halves of `Lawful` are not alike.  What the domain side writes is always read back, but
a message from elsewhere may hold what no domain value is written as: an absent message where
one is expected, or the number of an enumeration value that this version does not know.
`Lawful` therefore takes a condition on wire values, and each way to put codecs together says
what becomes of it:

```text
option    a field that is always written     present, and its value well formed
optional  a field that may be absent         its value well formed, if there is one
list      a repeated field                   all its items well formed
enum      a number                           the number is known
```

`lawful_known` reduces an enumeration to two checks over its finitely many values, which are
closed by computation where it is used.  The last section asks the question for a single wire
value: `Keeps` says that it is written back as it was read, which is decidable.
-/

/-- A pair of conversions between `A` and `B`. -/
structure Codec (A B : Type*) where
  encode : A → B
  decode : B → A

namespace Codec

variable {A B E : Type*}

/-- The conversions are inverse to each other, on all values of `A` and on the
well-formed values of `B`. -/
structure Lawful (codec : Codec A B) (WellFormed : B → Prop) : Prop where
  decode_encode : ∀ a, codec.decode (codec.encode a) = a
  encode_decode : ∀ b, WellFormed b → codec.encode (codec.decode b) = b

/-- A value that goes on the wire as it is. -/
def id (A : Type*) : Codec A A where
  encode := fun a => a
  decode := fun a => a

theorem id_lawful (A : Type*) : (id A).Lawful fun _ => True where
  decode_encode := fun _ => rfl
  encode_decode := fun _ _ => rfl

/-! ## Optional fields -/

/-- A field that is always written, and read with a default when absent. -/
def option [Inhabited A] (codec : Codec A B) : Codec A (Option B) where
  encode := fun a => some (codec.encode a)
  decode := fun field => field.elim default codec.decode

/-- The field is there, and satisfies `P`. -/
def Present (P : B → Prop) (field : Option B) : Prop :=
  ∃ b, field = some b ∧ P b

theorem Lawful.option [Inhabited A] {codec : Codec A B} {P : B → Prop} (h : codec.Lawful P) :
    codec.option.Lawful (Present P) where
  decode_encode := h.decode_encode
  encode_decode := by
    rintro _ ⟨b, rfl, hb⟩
    exact congrArg some (h.encode_decode b hb)

/-- A field that may be absent on either side. -/
def optional (codec : Codec A B) : Codec (Option A) (Option B) where
  encode := Option.map codec.encode
  decode := Option.map codec.decode

theorem Lawful.optional {codec : Codec A B} {P : B → Prop} (h : codec.Lawful P) :
    codec.optional.Lawful fun field => ∀ b ∈ field, P b where
  decode_encode := by
    intro field
    cases field with
    | none => rfl
    | some a => exact congrArg some (h.decode_encode a)
  encode_decode := by
    intro field hfield
    cases field with
    | none => rfl
    | some b => exact congrArg some (h.encode_decode b (hfield b rfl))

/-! ## Lists -/

/-- A repeated field. -/
def list (codec : Codec A B) : Codec (List A) (List B) where
  encode := List.map codec.encode
  decode := List.map codec.decode

theorem Lawful.list {codec : Codec A B} {P : B → Prop} (h : codec.Lawful P) :
    codec.list.Lawful fun items => ∀ item ∈ items, P item where
  decode_encode := by
    intro items
    induction items with
    | nil => rfl
    | cons item rest ih => exact congrArg₂ List.cons (h.decode_encode item) ih
  encode_decode := by
    intro items hitems
    induction items with
    | nil => rfl
    | cons item rest ih =>
        have hrest := ih fun other hother => hitems other (List.mem_cons_of_mem _ hother)
        have hitem := h.encode_decode item (hitems item (List.mem_cons_self ..))
        exact congrArg₂ List.cons hitem hrest

/-! ## Enumerations -/

/-- `n` is the number of a value of the enumeration. -/
def Known (number : E → Int) (n : Int) : Prop :=
  ∃ value, number value = n

/-- It is enough to look at the values of the two enumerations. -/
theorem lawful_known {codec : Codec A Int} {number : E → Int}
    (hdomain : ∀ a, codec.decode (codec.encode a) = a)
    (hwire : ∀ value, codec.encode (codec.decode (number value)) = number value) :
    codec.Lawful (Known number) where
  decode_encode := hdomain
  encode_decode := by
    rintro _ ⟨value, rfl⟩
    exact hwire value

/-! ## What is kept -/

/-- The value is written back as it was read. -/
def Keeps (codec : Codec A B) (b : B) : Prop :=
  codec.encode (codec.decode b) = b

instance [DecidableEq B] (codec : Codec A B) (b : B) : Decidable (codec.Keeps b) :=
  inferInstanceAs (Decidable (_ = _))

theorem option_keeps_iff [Inhabited A] {codec : Codec A B} {field : Option B} :
    codec.option.Keeps field ↔ Present codec.Keeps field := by
  constructor
  · intro h
    cases field with
    | none => cases h
    | some b => exact ⟨b, rfl, Option.some.inj h⟩
  · rintro ⟨b, rfl, hb⟩
    exact congrArg some hb

theorem list_keeps_iff {codec : Codec A B} {items : List B} :
    codec.list.Keeps items ↔ ∀ item ∈ items, codec.Keeps item := by
  induction items with
  | nil => exact iff_of_true rfl (List.forall_mem_nil _)
  | cons item rest ih =>
      rw [List.forall_mem_cons, ← ih]
      exact iff_of_eq (List.cons.injEq ..)

/-- An enumeration keeps the numbers that it knows. -/
theorem keeps_iff_known {codec : Codec A Int} {number : E → Int}
    (h : codec.Lawful (Known number)) (hencode : ∀ a, Known number (codec.encode a)) {n : Int} :
    codec.Keeps n ↔ Known number n := by
  constructor
  · intro hkept
    exact hkept ▸ hencode (codec.decode n)
  · exact h.encode_decode n

end Codec
