import Mathlib.Algebra.Ring.Int.Defs
import Mathlib.Algebra.Ring.Nat
import Mathlib.Data.List.DropRight
import Mathlib.Data.List.TakeWhile

/-!
# Decimal numbers

Numbers as they are written in texts: an optional minus, the digits of the whole
part, and possibly a point with the digits of a fraction.  Reading takes the
number at the beginning of a text, and leaves the rest.

Reading gives back what was written, provided that the rest does not go on with
the number: `Decimal.read_write_append`.

A reader that takes as many digits as it can is right only if the text behind the number does
not begin with a digit or a point.  That condition is `NoNumber`, and it is a hypothesis of
every lemma that reads a number in front of something else.

* `readNat_toDigits_append` is the whole part, `readFraction_write_append` the fraction, and
  `readMinus_digits_append` the sign; `read_digits_append` and `read_write_append` put them
  together.
* `ofDigitChars_take`, `ofDigitChars_lt` and `ofDigitChars_rdropWhile_zero` are about the value
  of digits: the first of them, their bound, and what the zeros at the end contribute.
* `scaled` counts in units of the last decimal place and `padded` writes a number with a fixed
  count of digits, which is how durations are written in nanoseconds.
-/

/-- A decimal number, with the digits of its fraction as they are written. -/
structure Decimal where
  negative : Bool
  whole : ℕ
  fraction : List Char
  digits : ∀ c ∈ fraction, c.isDigit
  deriving DecidableEq, Repr

namespace Decimal

/-! ## Digits -/

/-- The text does not begin with a digit. -/
def NoDigit (text : List Char) : Prop := ∀ c ∈ text.head?, c.isDigit = false

theorem takeWhile_digits_append {digits rest : List Char} (hdigits : ∀ c ∈ digits, c.isDigit)
    (hrest : NoDigit rest) : (digits ++ rest).takeWhile Char.isDigit = digits := by
  rw [List.takeWhile_append_of_pos hdigits]
  cases rest with
  | nil => exact List.append_nil _
  | cons c rest =>
      have hc := hrest c rfl
      rw [List.takeWhile_cons_of_neg (by simp [hc]), List.append_nil]

theorem dropWhile_digits_append {digits rest : List Char} (hdigits : ∀ c ∈ digits, c.isDigit)
    (hrest : NoDigit rest) : (digits ++ rest).dropWhile Char.isDigit = rest := by
  rw [List.dropWhile_append_of_pos hdigits]
  cases rest with
  | nil => rfl
  | cons c rest =>
      have hc := hrest c rfl
      rw [List.dropWhile_cons_of_neg (by simp [hc])]

/-- Reads a natural number. -/
def readNat (text : List Char) : Option (ℕ × List Char) :=
  if text.takeWhile Char.isDigit = [] then none
  else some (Nat.ofDigitChars 10 (text.takeWhile Char.isDigit) 0, text.dropWhile Char.isDigit)

theorem isDigit_toDigits (n : ℕ) : ∀ c ∈ Nat.toDigits 10 n, c.isDigit :=
  fun _ hc => Nat.isDigit_of_mem_toDigits (by decide) (by decide) hc

theorem readNat_toDigits_append (n : ℕ) {rest : List Char} (hrest : NoDigit rest) :
    readNat (Nat.toDigits 10 n ++ rest) = some (n, rest) := by
  unfold readNat
  rw [takeWhile_digits_append (isDigit_toDigits n) hrest,
    dropWhile_digits_append (isDigit_toDigits n) hrest, if_neg Nat.toDigits_ne_nil,
    Nat.ofDigitChars_ten_toDigits]

theorem ofDigitChars_lt {digits : List Char} (hdigits : ∀ c ∈ digits, c.isDigit) :
    Nat.ofDigitChars 10 digits 0 < 10 ^ digits.length := by
  induction digits with
  | nil => exact Nat.one_pos
  | cons c digits ih =>
      obtain ⟨hc, hrest⟩ := List.forall_mem_cons.mp hdigits
      have hle : c.toNat - '0'.toNat ≤ 9 := by
        have hnine : c.toNat ≤ 57 := (Char.isDigit_iff_toNat.mp hc).2
        show c.toNat - 48 ≤ 9
        omega
      have hmul := Nat.mul_le_mul_left (10 ^ digits.length) hle
      have hlt := ih hrest
      rw [Nat.ofDigitChars_cons, Nat.mul_zero, Nat.zero_add,
        Nat.ofDigitChars_eq_ofDigitChars_zero, List.length_cons, Nat.pow_succ]
      omega

/-- The first of the digits are the number without its last digits. -/
theorem ofDigitChars_take {digits : List Char} (hdigits : ∀ c ∈ digits, c.isDigit) (n : ℕ) :
    Nat.ofDigitChars 10 (digits.take n) 0 =
      Nat.ofDigitChars 10 digits 0 / 10 ^ (digits.length - n) := by
  have hlt := ofDigitChars_lt fun c hc => hdigits c (List.mem_of_mem_drop (i := n) hc)
  rw [List.length_drop] at hlt
  have hsplit : Nat.ofDigitChars 10 (digits.take n ++ digits.drop n) 0 =
      Nat.ofDigitChars 10 digits 0 := by
    rw [List.take_append_drop]
  rw [Nat.ofDigitChars_append, Nat.ofDigitChars_eq_ofDigitChars_zero, List.length_drop] at hsplit
  rw [← hsplit, Nat.mul_add_div (Nat.pow_pos (by decide)), Nat.div_eq_of_lt hlt, Nat.add_zero]

/-- The zeros at the end of digits multiply the number by powers of ten. -/
theorem ofDigitChars_rdropWhile_zero (digits : List Char) :
    Nat.ofDigitChars 10 digits 0 =
      10 ^ (digits.length - (digits.rdropWhile (· = '0')).length) *
        Nat.ofDigitChars 10 (digits.rdropWhile (· = '0')) 0 := by
  induction digits using List.reverseRecOn with
  | nil => rfl
  | append_singleton digits c ih =>
      by_cases hc : c = '0'
      · have hle := (List.rdropWhile_prefix (p := (· = '0')) (l := digits)).length_le
        have hzero : Nat.ofDigitChars 10 (digits ++ [c]) 0 =
            10 * Nat.ofDigitChars 10 digits 0 := by
          rw [hc, Nat.ofDigitChars_append]
          rfl
        rw [hzero, List.rdropWhile_concat_pos _ _ _ (by simpa using hc), List.length_append,
          List.length_singleton, Nat.succ_sub hle, Nat.pow_succ', Nat.mul_assoc, ← ih]
      · rw [List.rdropWhile_concat_neg _ _ _ (by simpa using hc), Nat.sub_self, Nat.pow_zero,
          Nat.one_mul]

/-! ## Reading and writing -/

/-- The minus of a text, and what follows it. -/
def readMinus : List Char → Bool × List Char
  | '-' :: rest => (true, rest)
  | text => (false, text)

/-- Reads the fraction, if there is a point. -/
def readFraction (negative : Bool) (whole : ℕ) : List Char → Option (Decimal × List Char)
  | '.' :: rest =>
      if rest.takeWhile Char.isDigit = [] then none
      else some (⟨negative, whole, rest.takeWhile Char.isDigit,
        fun _ hc => List.mem_takeWhile_imp hc⟩, rest.dropWhile Char.isDigit)
  | rest => some (⟨negative, whole, [], List.forall_mem_nil _⟩, rest)

/-- Reads a decimal number. -/
def read (text : List Char) : Option (Decimal × List Char) := do
  let (whole, rest) ← readNat (readMinus text).2
  readFraction (readMinus text).1 whole rest

/-- Writes a decimal number, without a point when there is no fraction. -/
def write (d : Decimal) : List Char :=
  (if d.negative then ['-'] else []) ++ Nat.toDigits 10 d.whole ++
    (if d.fraction = [] then [] else '.' :: d.fraction)

/-- The text does not go on with a number. -/
def NoNumber (text : List Char) : Prop := ∀ c ∈ text.head?, c.isDigit = false ∧ c ≠ '.'

theorem NoNumber.noDigit {text : List Char} (h : NoNumber text) : NoDigit text :=
  fun c hc => (h c hc).1

theorem readFraction_write_append (d : Decimal) {rest : List Char} (hrest : NoNumber rest) :
    readFraction d.negative d.whole
      ((if d.fraction = [] then [] else '.' :: d.fraction) ++ rest) = some (d, rest) := by
  obtain ⟨negative, whole, fraction, hdigits⟩ := d
  split
  · rename_i hnil
    subst hnil
    -- the rest does not begin with a point
    cases rest with
    | nil => rfl
    | cons c rest =>
        have hc := (hrest c rfl).2
        simp [readFraction, hc]
  · rename_i hne
    simp only [List.cons_append, readFraction, takeWhile_digits_append hdigits hrest.noDigit,
      dropWhile_digits_append hdigits hrest.noDigit, if_neg hne]

theorem readMinus_digits_append (n : ℕ) (rest : List Char) :
    readMinus (Nat.toDigits 10 n ++ rest) = (false, Nat.toDigits 10 n ++ rest) := by
  have hdigits := isDigit_toDigits n
  cases hn : Nat.toDigits 10 n with
  | nil => exact absurd hn Nat.toDigits_ne_nil
  | cons c digits =>
      rw [hn] at hdigits
      have hc := hdigits c List.mem_cons_self
      have hminus : c ≠ '-' := by
        rintro rfl
        exact absurd hc (by decide)
      simp [readMinus, hminus]

/-- Reading goes on with the fraction after the digits of the whole part. -/
theorem read_digits_append (negative : Bool) (whole : ℕ) {rest : List Char}
    (hrest : NoDigit rest) :
    read ((if negative then ['-'] else []) ++ Nat.toDigits 10 whole ++ rest) =
      readFraction negative whole rest := by
  have hminus : readMinus ((if negative then ['-'] else []) ++ Nat.toDigits 10 whole ++ rest) =
      (negative, Nat.toDigits 10 whole ++ rest) := by
    cases negative with
    | false => exact readMinus_digits_append whole rest
    | true => rfl
  unfold read
  rw [hminus, readNat_toDigits_append whole hrest]
  rfl

theorem read_write_append (d : Decimal) {rest : List Char} (hrest : NoNumber rest) :
    read (d.write ++ rest) = some (d, rest) := by
  have hfraction : NoDigit ((if d.fraction = [] then [] else '.' :: d.fraction) ++ rest) := by
    split
    · exact hrest.noDigit
    · rintro c ⟨⟩
      decide
  rw [write, List.append_assoc, read_digits_append _ _ hfraction]
  exact readFraction_write_append d hrest

/-- A number begins with a minus or a digit. -/
theorem head_write (d : Decimal) : ∃ c rest, d.write = c :: rest ∧ (c = '-' ∨ c.isDigit) := by
  unfold write
  cases d.negative with
  | true => exact ⟨'-', _, rfl, Or.inl rfl⟩
  | false =>
      have hdigits := isDigit_toDigits d.whole
      cases hn : Nat.toDigits 10 d.whole with
      | nil => exact absurd hn Nat.toDigits_ne_nil
      | cons c digits =>
          rw [hn] at hdigits
          exact ⟨c, _, rfl, Or.inr (hdigits c List.mem_cons_self)⟩

/-! ## Values -/

/-- The integer as a decimal number. -/
def ofInt (n : Int) : Decimal := ⟨decide (n < 0), n.natAbs, [], List.forall_mem_nil _⟩

/-- The value, when there is no fraction. -/
def toInt? (d : Decimal) : Option Int :=
  if d.fraction = [] then some (if d.negative then -d.whole else d.whole) else none

@[simp] theorem toInt?_ofInt (n : Int) : (ofInt n).toInt? = some n := by
  simp only [toInt?, ofInt, if_true, decide_eq_true_eq, Option.some.injEq]
  split <;> omega

/-- An integer is written as usual. -/
theorem write_ofInt (n : Int) : (ofInt n).write = (toString n).toList := by
  cases n with
  | ofNat n => simp [write, ofInt, toString, Int.repr]
  | negSucc n => simp [write, ofInt, toString, Int.repr]

/-- A point needs digits after it. -/
theorem read_ofInt_point (n : Int) {rest : List Char} (hrest : NoDigit rest) :
    read ((ofInt n).write ++ '.' :: rest) = none := by
  have hpoint : NoDigit ('.' :: rest) := by
    rintro c ⟨⟩
    decide
  have hnone : rest.takeWhile Char.isDigit = [] :=
    takeWhile_digits_append (List.forall_mem_nil _) hrest
  rw [write, ofInt, if_pos rfl, List.append_nil, read_digits_append _ _ hpoint, readFraction,
    if_pos hnone]

/-- The value, counted in units of the last of so many decimal places. -/
def scaled (places : ℕ) (d : Decimal) : Int :=
  let units : ℕ := d.whole * 10 ^ places +
    Nat.ofDigitChars 10 d.fraction 0 * 10 ^ (places - d.fraction.length)
  if d.negative then -units else units

theorem scaled_ofInt (places : ℕ) (n : Int) : (ofInt n).scaled places = n * 10 ^ places := by
  simp only [scaled, ofInt, Nat.ofDigitChars_nil, Nat.zero_mul, Nat.add_zero, decide_eq_true_eq,
    Int.natCast_mul]
  have hpow : ((10 ^ places : ℕ) : Int) = 10 ^ places := Int.natCast_pow 10 places
  rw [hpow]
  split
  · rw [← Int.neg_mul]
    congr 1
    omega
  · congr 1
    omega

/-- Digits filled up with zeros on the left to a given length. -/
def padded (precision n : ℕ) : List Char :=
  List.replicate (precision - (Nat.toDigits 10 n).length) '0' ++ Nat.toDigits 10 n

theorem isDigit_padded (precision n : ℕ) : ∀ c ∈ padded precision n, c.isDigit := by
  intro c hc
  rcases List.mem_append.mp hc with hzero | hdigit
  · rw [List.eq_of_mem_replicate hzero]
    decide
  · exact isDigit_toDigits n c hdigit

theorem ofDigitChars_padded (precision n : ℕ) :
    Nat.ofDigitChars 10 (padded precision n) 0 = n := by
  rw [padded, Nat.ofDigitChars_append, Nat.ofDigitChars_replicate_zero, Nat.mul_zero,
    Nat.ofDigitChars_ten_toDigits]

theorem length_padded {precision n : ℕ} (hpos : 0 < precision) (hn : n < 10 ^ precision) :
    (padded precision n).length = precision := by
  have hlength := (Nat.length_toDigits_le_iff (by decide) hpos).mpr hn
  rw [padded, List.length_append, List.length_replicate]
  omega

end Decimal
