import ArmoniKApi.Cpp.ChannelArguments
import ArmoniKApi.Cpp.StringView
import ArmoniKApi.Library.Decimal
import ArmoniKApi.Library.Separator

/-!
# Timespans of the C++ packages

`duration_from_timespan` reads a text of the form `[-][d.]hh:mm:ss[.fffffffff]`.  It
splits the text at the colons, then its first and its last section at the dots, and
hands each piece to `strtol`.

* A text of the documented form gives the duration that it says
  (`durationFromTimespan_text`), whatever its length, as long as no number overflows.
* The numbers of colons and of dots are all that is checked
  (`durationFromTimespan_throws_iff`).  `strtol` reads a number at the beginning of a
  piece, or 0 if there is none, so that any letters between two colons are accepted.

## Strategy

The function trusts `strtol` with each piece, so there are two kinds of facts: what the
pieces of a text are, and what `strtol` makes of a piece.

```text
-        12.      03       :04      :05      .6
sign     days     hours    minutes  seconds  nanoseconds, cut or filled to nine digits
```

* `split_eq_three` gives the sections between the colons, `daysAndHours_cases` and
  `secondsAndNanos_cases` the pieces between the dots.  They are equivalences, from which
  both halves of the file are proved.
* `strtol_eq` reads a piece of digits with or without a minus.  The sign belongs to the first
  piece of the text only, and every part is multiplied by it (`signOf_leading`).
* `nanosOf_eq` is the fraction: nine digits, whether the text has fewer or more.  Cutting is
  `value_cut`, filling is `value_filled`.
* `durationFromValues_eq` adds up.  The machine sums do not overflow because all parts have
  one sign and the total fits (`Fits.parts`), so no condition on single parts is needed.

The second half asks which texts of another form are accepted.  `RightSeparators` is what the
function looks at, and `mem_text` lists the characters of the documented form, so that a text
with letters is neither of that form nor rejected.
-/

namespace ArmoniKApi.Cpp

open MachineInt
open Proto (Duration)

/-! ## The code -/

/-- `std::invalid_argument`. -/
structure InvalidArgument where
  message : String
  deriving DecidableEq

/-- The sign of a number, and what follows it. -/
def readSign : List Char → ℤ × List Char
  | '-' :: rest => (-1, rest)
  | '+' :: rest => (1, rest)
  | text => (1, text)

/-- `strtol`, with the base 10.  It goes to the nearest `long` when the number is out of
range, and returns 0 when there is none. -/
def strtol (text : List Char) : ℤ :=
  let (sign, rest) := readSign (text.dropWhile isSpace)
  clamp longHalf (sign * Nat.ofDigitChars 10 (rest.takeWhile Char.isDigit) 0)

/-- `parse_long`. -/
def parseLong (sv : StringView) : ℤ := strtol sv.chars

/-- `duration_from_values`.  Overflow is undefined. -/
def durationFromValues (days hours minutes seconds nanoseconds : ℤ) : Option Duration := do
  let days ← checked longHalf (days * 86400)
  let hours ← checked longHalf (3600 * hours)
  let sum ← checked longHalf (days + hours)
  let minutes ← checked longHalf (60 * minutes)
  let sum ← checked longHalf (sum + minutes)
  let sum ← checked longHalf (sum + seconds)
  return ⟨sum, nanoseconds⟩

/-- The exception of `duration_from_timespan`. -/
def invalidTimespan : InvalidArgument :=
  ⟨"timespan is not of the format [-][d.]hh:mm:ss[.fffffffff]"⟩

/-- The sign, which is looked for in the first piece only. -/
def signOf (subsplit : List StringView) : ℤ :=
  if subsplit.head?.any (·.contains '-') then -1 else 1

/-- The days and the hours. -/
def daysAndHours (sign : ℤ) : List StringView → Except InvalidArgument (ℤ × Option ℤ)
  | [hours] => .ok (0, some (parseLong hours))
  | [days, hours] => .ok (parseLong days, checked longHalf (sign * parseLong hours))
  | _ => .error invalidTimespan

/-- The nanoseconds: nine digits, cut or filled up with zeros.  The cast to `int` wraps. -/
def nanosOf (sign : ℤ) (fraction : StringView) : Option ℤ :=
  if 9 ≤ fraction.size then
    checked intHalf (sign * wrap intHalf (parseLong (fraction.substr 0 9)))
  else
    checked intHalf (sign * wrap intHalf
      (strtol (fraction.chars ++ List.replicate (9 - fraction.size).toNat '0')))

/-- The seconds and the nanoseconds. -/
def secondsAndNanos (sign : ℤ) : List StringView → Except InvalidArgument (Option ℤ × Option ℤ)
  | [seconds] => .ok (checked longHalf (sign * parseLong seconds), some 0)
  | [seconds, fraction] =>
      .ok (checked longHalf (sign * parseLong seconds), nanosOf sign fraction)
  | _ => .error invalidTimespan

/-- `duration_from_timespan`.  There is no duration after an overflow. -/
def durationFromTimespan (timespan : StdString) : Except InvalidArgument (Option Duration) :=
  match (StringView.ofString timespan).split ':' with
  | [first, middle, last] => do
      let subsplit := first.split '.'
      let sign := signOf subsplit
      let (days, hours) ← daysAndHours sign subsplit
      let minutes := checked longHalf (sign * parseLong middle)
      let (seconds, nanos) ← secondsAndNanos sign (last.split '.')
      return do durationFromValues days (← hours) (← minutes) (← seconds) (← nanos)
  | _ => .error invalidTimespan

/-! ## What is accepted -/

/-- There are two colons, and at most one dot before the first and after the second. -/
def RightSeparators (text : List Char) : Prop :=
  ∃ first middle last, text = first ++ ':' :: (middle ++ ':' :: last) ∧
    ':' ∉ first ∧ ':' ∉ middle ∧ ':' ∉ last ∧ first.count '.' ≤ 1 ∧ last.count '.' ≤ 1

/-- The pieces of a text with two colons. -/
theorem splitOn_two {first middle last : List Char} (hfirst : ':' ∉ first)
    (hmiddle : ':' ∉ middle) (hlast : ':' ∉ last) :
    (first ++ ':' :: (middle ++ ':' :: last)).splitOn ':' = [first, middle, last] := by
  rw [List.splitOn_append_cons_self_of_not_mem hfirst,
    List.splitOn_append_cons_self_of_not_mem hmiddle, List.splitOn_eq_singleton hlast]

theorem rightSeparators_iff (text : List Char) :
    RightSeparators text ↔ ∃ first middle last, text.splitOn ':' = [first, middle, last] ∧
      first.count '.' ≤ 1 ∧ last.count '.' ≤ 1 := by
  constructor
  · rintro ⟨first, middle, last, rfl, hfirst, hmiddle, hlast, hdots⟩
    exact ⟨first, middle, last, splitOn_two hfirst hmiddle hlast, hdots⟩
  · rintro ⟨first, middle, last, hsplit, hdots⟩
    have hnone : ∀ piece ∈ [first, middle, last], ':' ∉ piece := by
      intro piece hpiece
      rw [← hsplit] at hpiece
      exact Separator.not_mem_of_mem_splitOn hpiece
    have htext : [':'].intercalate (text.splitOn ':') = text := List.intercalate_splitOn ':'
    rw [hsplit] at htext
    refine ⟨first, middle, last, htext.symm.trans (by simp [List.intercalate]), ?_, ?_, ?_, hdots⟩
    · exact hnone first (by simp)
    · exact hnone middle (by simp)
    · exact hnone last (by simp)

/-- The pieces of a view, one more than there are delimiters. -/
theorem length_split {view : StringView} (hbuffer : view.InBuffer) (delim : Char) :
    (view.split delim).length = view.chars.count delim + 1 := by
  rw [← Separator.length_splitOn, ← (StringView.split_chars hbuffer delim).1, List.length_map]

/-- One or two pieces are read, and else there is an exception. -/
theorem pieces_cases {α β ε : Type} (read : List α → Except ε β) {e : ε}
    (hone : ∀ a, ∃ b, read [a] = .ok b) (htwo : ∀ a₁ a₂, ∃ b, read [a₁, a₂] = .ok b)
    (hnone : read [] = .error e) (hmany : ∀ a₁ a₂ a₃ rest, read (a₁ :: a₂ :: a₃ :: rest) = .error e)
    (pieces : List α) :
    ((pieces.length = 1 ∨ pieces.length = 2) ∧ ∃ b, read pieces = .ok b) ∨
      ¬(pieces.length = 1 ∨ pieces.length = 2) ∧ read pieces = .error e := by
  rcases pieces with _ | ⟨first, _ | ⟨second, _ | ⟨third, rest⟩⟩⟩
  · exact .inr ⟨by simp, hnone⟩
  · exact .inl ⟨.inl rfl, hone first⟩
  · exact .inl ⟨.inr rfl, htwo first second⟩
  · exact .inr ⟨by simp, hmany first second third rest⟩

/-- The hours are read if there is at most one dot before them. -/
theorem daysAndHours_cases (sign : ℤ) (subsplit : List StringView) :
    ((subsplit.length = 1 ∨ subsplit.length = 2) ∧
        ∃ result, daysAndHours sign subsplit = .ok result) ∨
      ¬(subsplit.length = 1 ∨ subsplit.length = 2) ∧
        daysAndHours sign subsplit = .error invalidTimespan :=
  pieces_cases (daysAndHours sign) (fun _ => ⟨_, rfl⟩) (fun _ _ => ⟨_, rfl⟩) rfl
    (fun _ _ _ _ => rfl) subsplit

/-- The seconds are read if there is at most one dot after them. -/
theorem secondsAndNanos_cases (sign : ℤ) (subsplit : List StringView) :
    ((subsplit.length = 1 ∨ subsplit.length = 2) ∧
        ∃ result, secondsAndNanos sign subsplit = .ok result) ∨
      ¬(subsplit.length = 1 ∨ subsplit.length = 2) ∧
        secondsAndNanos sign subsplit = .error invalidTimespan :=
  pieces_cases (secondsAndNanos sign) (fun _ => ⟨_, rfl⟩) (fun _ _ => ⟨_, rfl⟩) rfl
    (fun _ _ _ _ => rfl) subsplit

/-- Three sections, as views and as characters. -/
theorem split_eq_three {view : StringView} (hbuffer : view.InBuffer) {delim : Char}
    {first middle last : List Char} (hsplit : view.chars.splitOn delim = [first, middle, last]) :
    ∃ x y z, view.split delim = [x, y, z] ∧ (x.chars = first ∧ y.chars = middle ∧ z.chars = last) ∧
      x.InBuffer ∧ y.InBuffer ∧ z.InBuffer := by
  obtain ⟨hchars, hbuffers⟩ := StringView.split_chars hbuffer delim
  rw [hsplit] at hchars
  simp only [List.map_eq_cons_iff, List.map_eq_nil_iff] at hchars
  obtain ⟨x, _, hx, rfl, y, _, rfl, rfl, z, _, rfl, rfl, rfl⟩ := hchars
  rw [hx] at hbuffers
  exact ⟨x, y, z, hx, ⟨rfl, rfl, rfl⟩, by simpa using hbuffers⟩

/-- The separators are all that is checked. -/
theorem durationFromTimespan_throws_iff (timespan : StdString) :
    durationFromTimespan timespan = .error invalidTimespan ↔ ¬RightSeparators timespan.chars := by
  have hbuffer := StringView.inBuffer_ofString timespan
  have hchars := StringView.chars_ofString timespan
  have hlength := length_split hbuffer ':'
  rw [← Separator.length_splitOn, hchars] at hlength
  rw [rightSeparators_iff]
  -- the sections must be three, and then those with dots are looked at one after the other
  by_cases hthree : ∃ first middle last, timespan.chars.splitOn ':' = [first, middle, last]
  · obtain ⟨first, middle, last, hsplit⟩ := hthree
    obtain ⟨x, y, z, hviews, ⟨rfl, rfl, rfl⟩, hx, -, hz⟩ :=
      split_eq_three hbuffer (hchars.symm ▸ hsplit)
    have hfirst := length_split hx '.'
    have hlast := length_split hz '.'
    simp only [durationFromTimespan, hviews, hsplit]
    rcases daysAndHours_cases (signOf (x.split '.')) (x.split '.') with
      ⟨hfew, ⟨days, hours⟩, hread⟩ | ⟨hmany, hthrow⟩
    · rw [hread]
      rcases secondsAndNanos_cases (signOf (x.split '.')) (z.split '.') with
        ⟨hfewer, ⟨seconds, nanos⟩, hreads⟩ | ⟨hmany, hthrow⟩
      · rw [hreads]
        refine iff_of_false nofun ?_
        rw [not_not]
        exact ⟨x.chars, y.chars, z.chars, rfl, by omega, by omega⟩
      · rw [hthrow]
        refine iff_of_true rfl ?_
        rintro ⟨_, _, _, hsections, -, hdots⟩
        cases hsections
        omega
    · rw [hthrow]
      refine iff_of_true rfl ?_
      rintro ⟨_, _, _, hsections, hdots, -⟩
      cases hsections
      omega
  · refine iff_of_true ?_ fun ⟨first, middle, last, hsplit, _⟩ =>
      hthree ⟨first, middle, last, hsplit⟩
    rw [durationFromTimespan]
    split
    · rename_i first middle last hviews
      have hmap := (StringView.split_chars hbuffer ':').1
      rw [hviews, hchars] at hmap
      exact absurd ⟨_, _, _, hmap.symm⟩ hthree
    · rfl

/-! ## The documented form -/

/-- Decimal digits, at least one. -/
structure Digits where
  chars : List Char
  ne_nil : chars ≠ []
  digits : ∀ c ∈ chars, c.isDigit

/-- The number that is written. -/
def Digits.value (d : Digits) : ℕ := Nat.ofDigitChars 10 d.chars 0

/-- The digits of a number. -/
def Digits.ofNat (n : ℕ) : Digits :=
  ⟨Nat.toDigits 10 n, Nat.toDigits_ne_nil, Decimal.isDigit_toDigits n⟩

/-- The parts of `[-][d.]hh:mm:ss[.fffffffff]`. -/
structure Timespan where
  negative : Bool
  days : Option Digits
  hours : Digits
  minutes : Digits
  seconds : Digits
  fraction : Option Digits

namespace Timespan

/-- The section before the first colon. -/
def first (t : Timespan) : List Char :=
  (if t.negative then ['-'] else []) ++
    t.days.elim t.hours.chars fun days => days.chars ++ '.' :: t.hours.chars

/-- The section after the second colon. -/
def last (t : Timespan) : List Char :=
  t.seconds.chars ++ t.fraction.elim [] fun fraction => '.' :: fraction.chars

/-- The text. -/
def text (t : Timespan) : List Char := t.first ++ ':' :: (t.minutes.chars ++ ':' :: t.last)

/-- The sign of the whole, by which each of the parts is multiplied. -/
def sign (t : Timespan) : ℤ := if t.negative then -1 else 1

/-- The seconds in all, without the fraction. -/
def wholeSeconds (t : Timespan) : ℕ :=
  t.days.elim 0 Digits.value * 86400 + 3600 * t.hours.value + 60 * t.minutes.value +
    t.seconds.value

/-- The nanoseconds of the fraction, without the rest. -/
def nanos (t : Timespan) : ℕ :=
  t.fraction.elim 0 fun fraction => fraction.value * 1000000000 / 10 ^ fraction.chars.length

/-- The seconds and the total are numbers of 64 bits.  The other parts are less than the
total. -/
structure Fits (t : Timespan) : Prop where
  seconds : t.seconds.value < longHalf
  total : InRange longHalf (t.sign * t.wholeSeconds)

/-- The duration that is written. -/
def duration (t : Timespan) : Duration := ⟨t.sign * t.wholeSeconds, t.sign * t.nanos⟩

end Timespan

/-- The seconds and the nanoseconds are not of opposite signs. -/
def SameSign (d : Duration) : Prop :=
  ¬(0 < d.seconds ∧ d.nanos < 0) ∧ ¬(d.seconds < 0 ∧ 0 < d.nanos)

/-- The text is of the documented form. -/
def Documented (text : List Char) : Prop := ∃ t : Timespan, text = t.text

namespace Digits

/-- Nothing but digits is in the digits. -/
theorem not_mem (d : Digits) {c : Char} (hc : c.isDigit = false) : c ∉ d.chars := by
  intro hmem
  rw [d.digits c hmem] at hc
  cases hc

/-- A digit is not white space, and no sign. -/
theorem strip_eq (d : Digits) :
    d.chars.dropWhile isSpace = d.chars ∧ readSign d.chars = (1, d.chars) := by
  obtain ⟨chars, hne, hdigits⟩ := d
  obtain ⟨c, rest, rfl⟩ := List.exists_cons_of_ne_nil hne
  have hc := hdigits c List.mem_cons_self
  constructor
  · refine List.dropWhile_cons_of_neg ?_
    intro hspace
    simp only [isSpace, Bool.or_eq_true, decide_eq_true_eq] at hspace
    rcases hspace with ((((rfl | rfl) | rfl) | rfl) | rfl) | rfl <;> exact absurd hc (by decide)
  · have hminus : c ≠ '-' := by
      rintro rfl
      exact absurd hc (by decide)
    have hplus : c ≠ '+' := by
      rintro rfl
      exact absurd hc (by decide)
    simp [readSign, hminus, hplus]

/-- `strtol` reads digits, with a minus before them or without. -/
theorem strtol_eq (d : Digits) (negative : Bool)
    (hrange : InRange longHalf ((if negative then -1 else 1) * d.value)) :
    strtol ((if negative then ['-'] else []) ++ d.chars) =
      (if negative then -1 else 1) * d.value := by
  obtain ⟨hspace, hsign⟩ := d.strip_eq
  have hdigits : d.chars.takeWhile Char.isDigit = d.chars :=
    List.takeWhile_eq_self_iff.mpr d.digits
  have hread : readSign (((if negative then ['-'] else []) ++ d.chars).dropWhile isSpace) =
      (if negative then -1 else 1, d.chars) := by
    cases negative with
    | false => exact (congrArg readSign hspace).trans hsign
    | true => rfl
  rw [strtol, hread]
  dsimp only
  rw [hdigits]
  exact clamp_of_inRange hrange

end Digits

namespace Timespan

/-! ## The duration that is read -/

theorem sign_eq (t : Timespan) : t.sign = 1 ∨ t.sign = -1 := by
  unfold sign
  split
  · exact .inr rfl
  · exact .inl rfl

/-- The sums do not overflow, because all the numbers have the same sign. -/
theorem durationFromValues_eq {sign : ℤ} (hsign : sign = 1 ∨ sign = -1)
    {days hours minutes seconds : ℕ}
    (htotal : InRange longHalf
      (sign * (days * 86400 + 3600 * hours + 60 * minutes + seconds : ℕ))) (nanoseconds : ℤ) :
    durationFromValues (sign * days) (sign * hours) (sign * minutes) (sign * seconds) nanoseconds =
      some ⟨sign * (days * 86400 + 3600 * hours + 60 * minutes + seconds : ℕ), nanoseconds⟩ := by
  have hbounds := htotal
  unfold InRange longHalf at hbounds
  -- each of the sums lies between 0 and the total
  have hdays : InRange longHalf (sign * days * 86400) := by
    unfold InRange longHalf
    rcases hsign with rfl | rfl <;> omega
  have hhours : InRange longHalf (3600 * (sign * hours)) := by
    unfold InRange longHalf
    rcases hsign with rfl | rfl <;> omega
  have hfirst : InRange longHalf (sign * days * 86400 + 3600 * (sign * hours)) := by
    unfold InRange longHalf
    rcases hsign with rfl | rfl <;> omega
  have hminutes : InRange longHalf (60 * (sign * minutes)) := by
    unfold InRange longHalf
    rcases hsign with rfl | rfl <;> omega
  have hsecond : InRange longHalf
      (sign * days * 86400 + 3600 * (sign * hours) + 60 * (sign * minutes)) := by
    unfold InRange longHalf
    rcases hsign with rfl | rfl <;> omega
  have hsum : sign * days * 86400 + 3600 * (sign * hours) + 60 * (sign * minutes) +
      sign * seconds = sign * (days * 86400 + 3600 * hours + 60 * minutes + seconds : ℕ) := by
    rcases hsign with rfl | rfl <;> omega
  simp only [durationFromValues, checked_of_inRange hdays, checked_of_inRange hhours,
    checked_of_inRange hfirst, checked_of_inRange hminutes, checked_of_inRange hsecond, hsum,
    checked_of_inRange htotal, Option.bind_eq_bind, Option.bind_some, Option.pure_def]

/-- The first nine digits are the nanoseconds. -/
theorem value_cut (fraction : Digits) (hlong : 9 ≤ fraction.chars.length) :
    Nat.ofDigitChars 10 (fraction.chars.take 9) 0 =
      fraction.value * 1000000000 / 10 ^ fraction.chars.length := by
  have hpow : 10 ^ fraction.chars.length = 10 ^ (fraction.chars.length - 9) * 1000000000 := by
    rw [← Nat.sub_add_cancel hlong, Nat.pow_add, Nat.add_sub_cancel]
  rw [Decimal.ofDigitChars_take fraction.digits, hpow, Nat.mul_div_mul_right _ _ (by decide)]
  rfl

/-- Zeros fill the digits up to the nanoseconds. -/
theorem value_filled (fraction : Digits) (hshort : fraction.chars.length ≤ 9) :
    Nat.ofDigitChars 10
        (fraction.chars ++ List.replicate (9 - fraction.chars.length) '0') 0 =
      fraction.value * 1000000000 / 10 ^ fraction.chars.length := by
  have hpow : 1000000000 = 10 ^ (9 - fraction.chars.length) * 10 ^ fraction.chars.length := by
    rw [← Nat.pow_add, Nat.sub_add_cancel hshort]
  rw [Nat.ofDigitChars_append, Nat.ofDigitChars_replicate_zero, hpow, ← Nat.mul_assoc,
    Nat.mul_div_cancel _ (Nat.pow_pos (by decide)), Nat.mul_comm]
  rfl

/-- Nine digits are read as they are. -/
theorem checked_strtol {sign : ℤ} (hsign : sign = 1 ∨ sign = -1) {digits : List Char}
    (hdigits : ∀ c ∈ digits, c.isDigit) (hnine : digits.length = 9) :
    checked intHalf (sign * wrap intHalf (strtol digits)) =
      some (sign * Nat.ofDigitChars 10 digits 0) := by
  have hlt := Decimal.ofDigitChars_lt hdigits
  rw [hnine] at hlt
  have hne : digits ≠ [] := by
    rintro rfl
    cases hnine
  have hstrtol := (Digits.mk digits hne hdigits).strtol_eq false
  simp only [Bool.false_eq_true, if_false, List.nil_append, Int.one_mul, Digits.value] at hstrtol
  rw [hstrtol, wrap_of_inRange, checked_of_inRange]
  · unfold InRange intHalf
    rcases hsign with rfl | rfl <;> omega
  · unfold InRange intHalf
    omega
  · unfold InRange longHalf
    omega

/-- The digits that are cut or filled up are the nanoseconds. -/
theorem nanosOf_eq {sign : ℤ} (hsign : sign = 1 ∨ sign = -1) {view : StringView}
    (hbuffer : view.InBuffer) {fraction : Digits} (hchars : view.chars = fraction.chars) :
    nanosOf sign view =
      some (sign * (fraction.value * 1000000000 / 10 ^ fraction.chars.length : ℕ)) := by
  have hsize := StringView.length_chars hbuffer
  rw [hchars] at hsize
  unfold nanosOf
  split
  -- nine digits or more: all but nine are cut
  · rename_i hlong
    rw [UInt64.le_iff_toNat_le, ← hsize] at hlong
    have hcut : (view.substr 0 9).chars = fraction.chars.take 9 := by
      rw [StringView.chars_substr (Nat.zero_le _) (by decide), hchars]
      rfl
    rw [parseLong, hcut, ← value_cut fraction hlong]
    exact checked_strtol hsign (fun c hc => fraction.digits c (List.mem_of_mem_take hc))
      (by rw [List.length_take]; exact Nat.min_eq_left hlong)
  -- fewer than nine: zeros are put behind them
  · rename_i hshort
    rw [UInt64.le_iff_toNat_le, ← hsize] at hshort
    have hshort : fraction.chars.length < 9 := Nat.lt_of_not_le hshort
    have hzeros : (9 - view.size).toNat = 9 - fraction.chars.length := by
      rw [UInt64.toNat_sub_of_le _ _ (UInt64.le_iff_toNat_le.mpr (hsize ▸ hshort.le)), ← hsize]
      rfl
    rw [hchars, hzeros, ← value_filled fraction hshort.le]
    refine checked_strtol hsign ?_ ?_
    · intro c hc
      rcases List.mem_append.mp hc with hdigit | hzero
      · exact fraction.digits c hdigit
      · rw [List.eq_of_mem_replicate hzero]
        decide
    · rw [List.length_append, List.length_replicate]
      omega

/-- No part is too long, because the total is not. -/
theorem Fits.parts {t : Timespan} (hfits : t.Fits) :
    t.days.elim 0 Digits.value < longHalf ∧ t.hours.value < longHalf ∧
      t.minutes.value < longHalf := by
  have htotal := hfits.total
  unfold wholeSeconds InRange longHalf at *
  rcases t.sign_eq with hsign | hsign <;> rw [hsign] at htotal <;> omega

/-- A piece of digits is read, and takes the sign. -/
theorem checked_parseLong {sign : ℤ} (hsign : sign = 1 ∨ sign = -1) {view : StringView}
    {d : Digits} (hchars : view.chars = d.chars) (hvalue : d.value < longHalf) :
    checked longHalf (sign * parseLong view) = some (sign * d.value) := by
  have hstrtol := d.strtol_eq false
  simp only [Bool.false_eq_true, if_false, List.nil_append, Int.one_mul] at hstrtol
  rw [parseLong, hchars, hstrtol, checked_of_inRange]
  · unfold InRange longHalf at *
    rcases hsign with rfl | rfl <;> omega
  · unfold InRange longHalf at *
    omega

/-- The leading piece of digits is read with its sign. -/
theorem parseLong_leading {t : Timespan} {view : StringView} {d : Digits}
    (hchars : view.chars = (if t.negative then ['-'] else []) ++ d.chars)
    (hvalue : d.value < longHalf) : parseLong view = t.sign * d.value := by
  rw [parseLong, hchars]
  refine d.strtol_eq t.negative ?_
  unfold InRange longHalf at *
  split <;> omega

/-- The sign is found in the leading piece. -/
theorem signOf_leading {t : Timespan} {view : StringView} (hbuffer : view.InBuffer) {d : Digits}
    (hchars : view.chars = (if t.negative then ['-'] else []) ++ d.chars)
    (rest : List StringView) : signOf (view :: rest) = t.sign := by
  have hcontains := StringView.contains_iff hbuffer '-'
  have hdigits := d.not_mem (c := '-') (by decide)
  rw [hchars] at hcontains
  unfold signOf sign
  cases hneg : t.negative with
  | true =>
      rw [hneg] at hcontains
      exact if_pos (hcontains.mpr List.mem_cons_self)
  | false =>
      rw [hneg] at hcontains
      exact if_neg fun h => hdigits (hcontains.mp h)

/-- The days and the hours of the first section. -/
theorem daysAndHours_eq {t : Timespan} (hfits : t.Fits) {view : StringView}
    (hbuffer : view.InBuffer) (hchars : view.chars = t.first) :
    signOf (view.split '.') = t.sign ∧
      daysAndHours t.sign (view.split '.') =
        .ok (t.sign * t.days.elim 0 Digits.value, some (t.sign * t.hours.value)) := by
  obtain ⟨hdays, hhours, -⟩ := hfits.parts
  obtain ⟨hsplit, hbuffers⟩ := StringView.split_chars hbuffer '.'
  -- the sign stands before the first number, so no dot is before or in that
  have hsign (d : Digits) : '.' ∉ (if t.negative then ['-'] else []) ++ d.chars := by
    have hdigits := d.not_mem (c := '.') (by decide)
    cases t.negative <;> simp [hdigits]
  rw [hchars, first] at hsplit
  cases hdaysOf : t.days with
  | none =>
      rw [hdaysOf, Option.elim_none, List.splitOn_eq_singleton (hsign t.hours)] at hsplit
      obtain ⟨hours, hviews, hhour⟩ := List.map_eq_singleton_iff.mp hsplit
      rw [hviews] at hbuffers ⊢
      refine ⟨signOf_leading (hbuffers hours List.mem_cons_self) hhour [], ?_⟩
      rw [daysAndHours, parseLong_leading hhour hhours, Option.elim_none, Int.natCast_zero,
        Int.mul_zero]
  -- the dot splits the section into the days and the hours
  | some days =>
      rw [hdaysOf, Option.elim_some, ← List.append_assoc,
        List.splitOn_append_cons_self_of_not_mem (hsign days),
        List.splitOn_eq_singleton (t.hours.not_mem (by decide))] at hsplit
      simp only [List.map_eq_cons_iff, List.map_eq_nil_iff] at hsplit
      obtain ⟨day, _, hviews, hday, hour, _, rfl, hhour, rfl⟩ := hsplit
      rw [hdaysOf] at hdays
      rw [hviews] at hbuffers ⊢
      refine ⟨signOf_leading (hbuffers day List.mem_cons_self) hday [hour], ?_⟩
      rw [daysAndHours, parseLong_leading hday hdays,
        checked_parseLong t.sign_eq hhour hhours]
      rfl

/-- The seconds and the nanoseconds of the last section. -/
theorem secondsAndNanos_eq {t : Timespan} (hfits : t.Fits) {view : StringView}
    (hbuffer : view.InBuffer) (hchars : view.chars = t.last) :
    secondsAndNanos t.sign (view.split '.') =
      .ok (some (t.sign * t.seconds.value), some (t.sign * t.nanos)) := by
  obtain ⟨hsplit, hbuffers⟩ := StringView.split_chars hbuffer '.'
  have hseconds := t.seconds.not_mem (c := '.') (by decide)
  rw [hchars, last] at hsplit
  cases hfractionOf : t.fraction with
  | none =>
      rw [hfractionOf, Option.elim_none, List.append_nil,
        List.splitOn_eq_singleton hseconds] at hsplit
      obtain ⟨second, hviews, hsecond⟩ := List.map_eq_singleton_iff.mp hsplit
      rw [hviews, secondsAndNanos, checked_parseLong t.sign_eq hsecond hfits.seconds, nanos,
        hfractionOf, Option.elim_none, Int.natCast_zero, Int.mul_zero]
  | some fraction =>
      rw [hfractionOf, Option.elim_some, List.splitOn_append_cons_self_of_not_mem hseconds,
        List.splitOn_eq_singleton (fraction.not_mem (by decide))] at hsplit
      simp only [List.map_eq_cons_iff, List.map_eq_nil_iff] at hsplit
      obtain ⟨second, _, hviews, hsecond, rest, _, rfl, hrest, rfl⟩ := hsplit
      rw [hviews] at hbuffers ⊢
      rw [secondsAndNanos, checked_parseLong t.sign_eq hsecond hfits.seconds,
        nanosOf_eq t.sign_eq (hbuffers rest (by simp)) hrest, nanos, hfractionOf]
      rfl

/-- No section has a colon. -/
theorem not_mem_sections (t : Timespan) :
    ':' ∉ t.first ∧ ':' ∉ t.minutes.chars ∧ ':' ∉ t.last := by
  have hdigits (d : Digits) : ':' ∉ d.chars := d.not_mem (by decide)
  refine ⟨?_, hdigits t.minutes, ?_⟩
  · unfold first
    cases t.negative <;> cases t.days <;> simp [hdigits]
  · unfold last
    cases t.fraction <;> simp [hdigits]

end Timespan

/-- A text of the documented form gives the duration that it says, whose two parts have
the same sign. -/
theorem durationFromTimespan_text {t : Timespan} (hfits : t.Fits) {timespan : StdString}
    (htext : timespan.chars = t.text) :
    durationFromTimespan timespan = .ok (some t.duration) ∧ SameSign t.duration := by
  constructor
  · obtain ⟨hfirst, hmiddle, hlast⟩ := t.not_mem_sections
    have hsplit := splitOn_two hfirst hmiddle hlast
    have hchars : (StringView.ofString timespan).chars = t.text :=
      (StringView.chars_ofString timespan).trans htext
    rw [← Timespan.text, ← hchars] at hsplit
    obtain ⟨x, y, z, hviews, ⟨hx, hy, hz⟩, hbufferx, -, hbufferz⟩ :=
      split_eq_three (StringView.inBuffer_ofString timespan) hsplit
    obtain ⟨hsign, hhours⟩ := Timespan.daysAndHours_eq hfits hbufferx hx
    simp only [durationFromTimespan, hviews, hsign, hhours,
      Timespan.secondsAndNanos_eq hfits hbufferz hz,
      Timespan.checked_parseLong t.sign_eq hy hfits.parts.2.2]
    exact congrArg Except.ok (Timespan.durationFromValues_eq t.sign_eq hfits.total _)
  · unfold SameSign Timespan.duration
    rcases t.sign_eq with hsign | hsign <;> rw [hsign] <;> dsimp only <;> omega

/-- A day, an hour, and five seconds and a half, all negative. -/
theorem durationFromTimespan_negative :
    durationFromTimespan ⟨"-1.1:0:5.5".toList, by decide⟩ =
        .ok (some (Timespan.duration
          ⟨true, some (.ofNat 1), .ofNat 1, .ofNat 0, .ofNat 5, some (.ofNat 5)⟩)) ∧
      SameSign (Timespan.duration
        ⟨true, some (.ofNat 1), .ofNat 1, .ofNat 0, .ofNat 5, some (.ofNat 5)⟩) :=
  durationFromTimespan_text ⟨by decide, by decide⟩ (by decide +kernel)

/-! ## Texts of another form -/

/-- The characters of the documented form. -/
theorem mem_text {t : Timespan} {c : Char} (hc : c ∈ t.text) :
    c.isDigit ∨ c = '-' ∨ c = '.' ∨ c = ':' := by
  have hdigits (d : Digits) (h : c ∈ d.chars) : c.isDigit := d.digits c h
  unfold Timespan.text Timespan.first Timespan.last at hc
  simp only [List.mem_append, List.mem_cons] at hc
  -- sign, first section, colon, minutes, colon, seconds, fraction
  rcases hc with (hsign | hfirst) | hcolon | hmiddle | hcolon' | hlast | hfraction
  · cases hneg : t.negative <;> simp [hneg] at hsign
    exact .inr (.inl hsign)
  · cases hdays : t.days with
    | none =>
        rw [hdays] at hfirst
        exact .inl (hdigits _ hfirst)
    | some days =>
        rw [hdays, Option.elim_some, List.mem_append, List.mem_cons] at hfirst
        rcases hfirst with hday | hdot | hhour
        · exact .inl (hdigits _ hday)
        · exact .inr (.inr (.inl hdot))
        · exact .inl (hdigits _ hhour)
  · exact .inr (.inr (.inr hcolon))
  · exact .inl (hdigits _ hmiddle)
  · exact .inr (.inr (.inr hcolon'))
  · exact .inl (hdigits _ hlast)
  · cases hrest : t.fraction with
    | none => simp [hrest] at hfraction
    | some fraction =>
        rw [hrest, Option.elim_some, List.mem_cons] at hfraction
        rcases hfraction with hdot | hdigit
        · exact .inr (.inr (.inl hdot))
        · exact .inl (hdigits _ hdigit)

/-- A text that is not of the documented form is rejected exactly if its separators are
wrong. -/
theorem durationFromTimespan_rejects_iff (timespan : StdString) :
    (¬Documented timespan.chars → durationFromTimespan timespan = .error invalidTimespan) ↔
      Documented timespan.chars ∨ ¬RightSeparators timespan.chars := by
  rw [durationFromTimespan_throws_iff]
  exact or_iff_not_imp_left.symm

/-- Letters are read as zeros. -/
theorem durationFromTimespan_letters :
    ¬Documented "a:b:c".toList ∧
      durationFromTimespan ⟨"a:b:c".toList, by decide⟩ = .ok (some ⟨0, 0⟩) := by
  refine ⟨?_, by decide⟩
  rintro ⟨t, ht⟩
  have ha : 'a' ∈ t.text := by
    rw [← ht]
    decide
  rcases mem_text ha with h | h | h | h <;> exact absurd h (by decide)

end ArmoniKApi.Cpp
