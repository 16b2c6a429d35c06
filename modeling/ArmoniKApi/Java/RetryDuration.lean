import ArmoniKApi.CSharp.ServiceConfig
import ArmoniKApi.Library.Binary64
import ArmoniKApi.Library.MachineInt

/-!
# The backoffs of a Java retry policy

`GrpcChannelBuilder.formatDuration` writes a backoff into the service config, as decimal
seconds if it is at least a second, and otherwise as `ms` or `ns`, which a service config
does not know.

The seconds are a `double`, written with nine decimal places and without the zeros at the
end.  They are off by half a nanosecond and one part in `2 ^ 51` at most
(`abs_scaledNanos_sub_le`).  A backoff is written as it should be exactly if it is at least
a second (`formatDuration_denotes_iff`).

## Strategy

There are two questions, and the first is about text.  The number is written with nine places,
the zeros are removed, and the point is removed if nothing stands behind it; the result must
be read back as a decimal number whatever the digits are (`readDuration_formatNine`).  Below a
second the unit is another one, and a reader of service configs refuses it
(`readDuration_unit`).

The second is about rounding, in three steps:

```text
nanoseconds -> double                 exact up to 2 ^ 53, else rounded
/ 1_000_000_000.0                     rounded
%.9f                                  rounded half up, of the text of the double
```

`abs_secondsOf_sub_le` bounds the first two with the library's relative error, and
`abs_scaledNanos_sub_le` adds half a nanosecond for the third.  `one_le_secondsOf_iff` is the
borderline: the comparison with one second is made on the rounded number, and rounding does
not cross it.  `Double.toString` is a parameter, since its texts differ between versions.
-/

namespace ArmoniKApi.Java

open MachineInt
open CSharp (Grpc.readDuration noNumber_unit)

/-! ## The code -/

/-- `Double.toString`, of which there are several versions: the number that is written for
a `double` is nearer to it than to its neighbours. -/
structure DoubleText where
  decimal : ℚ → ℚ
  near : ∀ q, 1 ≤ Binary64.round q →
    |decimal (Binary64.round q) - Binary64.round q| ≤ Binary64.round q / 2 ^ 53

/-- The nanoseconds of decimal seconds, rounded half up. -/
def scaledNanos (seconds : ℚ) : ℕ := ⌊seconds * 1000000000 + 1 / 2⌋.toNat

/-- `String.format("%.9f", …)`, of positive decimal seconds. -/
def formatNine (seconds : ℚ) : List Char :=
  Nat.toDigits 10 (scaledNanos seconds / 1000000000) ++
    '.' :: Decimal.padded 9 (scaledNanos seconds % 1000000000)

/-- `replaceAll("0+$", "")`. -/
def removeZeros (text : List Char) : List Char := text.rdropWhile (· = '0')

/-- `replaceAll("\\.$", "")`. -/
def removePoint (text : List Char) : List Char :=
  if text.getLast? = some '.' then text.dropLast else text

/-- `nanos / 1_000_000_000.0`. -/
def secondsOf (nanos : ℤ) : ℚ := Binary64.round (Binary64.round nanos / 1000000000)

/-- `formatDuration`, or the message of the exception.  A duration is given by its
nanoseconds. -/
def formatDuration (doubleText : DoubleText) (duration : ℤ) : Except String String :=
  if ¬InRange 9223372036854775808 duration then .error "long overflow"
  else if duration = 0 then .ok "0s"
  else if 1 ≤ secondsOf duration then
    let formatted := formatNine (doubleText.decimal (secondsOf duration))
    .ok (String.ofList (removePoint (removeZeros formatted)) ++ "s")
  else if 0 < duration.tdiv 1000000 then .ok (toString (duration.tdiv 1000000) ++ "ms")
  else .ok (toString duration ++ "ns")

/-! ## Texts -/

theorem rdropWhile_append_cons {α : Type} {p : α → Bool} {c : α} (hc : ¬p c) (front : List α)
    (back : List α) : (front ++ c :: back).rdropWhile p = front ++ c :: back.rdropWhile p := by
  induction back using List.reverseRecOn with
  | nil => exact List.rdropWhile_concat_neg p front c hc
  | append_singleton back last ih =>
      rw [← List.cons_append, ← List.append_assoc]
      by_cases hlast : p last
      · rw [List.rdropWhile_concat_pos _ _ _ hlast, List.rdropWhile_concat_pos _ _ _ hlast, ih]
      · rw [List.rdropWhile_concat_neg _ _ _ hlast, List.rdropWhile_concat_neg _ _ _ hlast]
        simp

/-- The decimal number that is written for so many nanoseconds. -/
def decimalSeconds (nanos : ℕ) : Decimal where
  negative := false
  whole := nanos / 1000000000
  fraction := (Decimal.padded 9 (nanos % 1000000000)).rdropWhile (· = '0')
  digits := fun c hc =>
    Decimal.isDigit_padded 9 (nanos % 1000000000) c ((List.rdropWhile_prefix _ _).subset hc)

/-- A point at the end is removed, and one before digits stays. -/
theorem removePoint_point_append (front : List Char) {fraction : List Char}
    (hdigits : ∀ c ∈ fraction, c.isDigit) :
    removePoint (front ++ '.' :: fraction) =
      front ++ (if fraction = [] then [] else '.' :: fraction) := by
  induction fraction using List.reverseRecOn with
  | nil =>
      rw [removePoint, if_pos List.getLast?_concat, List.dropLast_concat, if_pos rfl,
        List.append_nil]
  | append_singleton fraction c _ =>
      have hpoint : c ≠ '.' := by
        rintro rfl
        exact absurd (hdigits '.' (List.mem_append_right _ List.mem_cons_self)) (by decide)
      have hlast : (front ++ '.' :: (fraction ++ [c])).getLast? = some c := by
        rw [← List.cons_append, ← List.append_assoc, List.getLast?_concat]
      have hne : fraction ++ [c] ≠ [] := List.append_ne_nil_of_right_ne_nil _ (by simp)
      rw [removePoint, hlast, if_neg (by simpa using hpoint), if_neg hne]

theorem removePoint_removeZeros_formatNine (seconds : ℚ) :
    removePoint (removeZeros (formatNine seconds)) =
      (decimalSeconds (scaledNanos seconds)).write := by
  have hpoint := removePoint_point_append (Nat.toDigits 10 (scaledNanos seconds / 1000000000))
    (decimalSeconds (scaledNanos seconds)).digits
  rw [removeZeros, formatNine, rdropWhile_append_cons (by decide)]
  exact hpoint

theorem scaled_decimalSeconds (nanos : ℕ) : (decimalSeconds nanos).scaled 9 = nanos := by
  have hlength : (Decimal.padded 9 (nanos % 1000000000)).length = 9 :=
    Decimal.length_padded (by decide) (Nat.mod_lt _ (by decide))
  have hvalue := Decimal.ofDigitChars_rdropWhile_zero (Decimal.padded 9 (nanos % 1000000000))
  rw [Decimal.ofDigitChars_padded, hlength, Nat.mul_comm] at hvalue
  simp only [Decimal.scaled, decimalSeconds, Bool.false_eq_true, if_false]
  rw [← hvalue]
  norm_cast
  omega

theorem length_fraction_decimalSeconds (nanos : ℕ) :
    (decimalSeconds nanos).fraction.length ≤ 9 := by
  have hlength : (Decimal.padded 9 (nanos % 1000000000)).length = 9 :=
    Decimal.length_padded (by decide) (Nat.mod_lt _ (by decide))
  exact hlength ▸ (List.rdropWhile_prefix _ _).length_le

/-- The seconds are read as they are written. -/
theorem readDuration_formatNine (seconds : ℚ) :
    Grpc.readDuration
        (.string (String.ofList (removePoint (removeZeros (formatNine seconds))) ++ "s")) =
      some (scaledNanos seconds : ℤ) := by
  have htext : (String.ofList (removePoint (removeZeros (formatNine seconds))) ++ "s").toList =
      (decimalSeconds (scaledNanos seconds)).write ++ ['s'] := by
    rw [String.toList_append, String.toList_ofList, removePoint_removeZeros_formatNine]
    rfl
  simp only [Grpc.readDuration, htext, Decimal.read_write_append _ noNumber_unit,
    Option.bind_eq_bind, Option.bind_some, scaled_decimalSeconds]
  exact if_pos ⟨trivial, length_fraction_decimalSeconds _⟩

/-- A number with another unit is no duration. -/
theorem readDuration_unit (n : ℤ) {unit : String} {c : Char} (hunit : unit.toList = [c, 's'])
    (hc : c.isDigit = false ∧ c ≠ '.') :
    Grpc.readDuration (.string (toString n ++ unit)) = none := by
  have htext : (toString n ++ unit).toList = (Decimal.ofInt n).write ++ [c, 's'] := by
    rw [String.toList_append, hunit, Decimal.write_ofInt]
  have hrest : Decimal.NoNumber [c, 's'] := by
    rintro _ ⟨⟩
    exact hc
  simp only [Grpc.readDuration, htext, Decimal.read_write_append _ hrest, Option.bind_eq_bind,
    Option.bind_some]
  exact if_neg (by simp)

/-! ## Seconds -/

theorem two_zpow_le_nano : (2 : ℚ) ^ (-1022 : ℤ) ≤ 1 / 1000000000 :=
  calc (2 : ℚ) ^ (-1022 : ℤ) ≤ 2 ^ (-30 : ℤ) := zpow_le_zpow_right₀ (by norm_num) (by norm_num)
    _ ≤ 1 / 1000000000 := by norm_num

theorem two_zpow_le_of_pos {n : ℤ} (hpos : 0 < n) : (2 : ℚ) ^ (-1022 : ℤ) ≤ n := by
  have hone : (1 : ℚ) ≤ n := by exact_mod_cast hpos
  linarith [two_zpow_le_nano]

/-- Dividing the nanoseconds rounds twice. -/
theorem abs_secondsOf_sub_le {n : ℤ} (hpos : 0 < n) :
    |secondsOf n - Binary64.round n / 1000000000| ≤
      Binary64.round n / 1000000000 / 2 ^ 53 := by
  have hone : (1 : ℚ) ≤ Binary64.round n := Binary64.one_le_round (by exact_mod_cast hpos)
  have hnano : (2 : ℚ) ^ (-1022 : ℤ) ≤ Binary64.round n / 1000000000 := by
    linarith [two_zpow_le_nano]
  exact Binary64.abs_round_sub_le hnano

/-- The seconds are at least 1 exactly if the nanoseconds are a second. -/
theorem one_le_secondsOf_iff {n : ℤ} (hpos : 0 < n) :
    1 ≤ secondsOf n ↔ 1000000000 ≤ n := by
  have hnear := abs_le.mp (Binary64.abs_round_sub_le (two_zpow_le_of_pos hpos))
  have hseconds := abs_le.mp (abs_secondsOf_sub_le hpos)
  constructor
  -- below a second the nanoseconds are exact, and their quotient is not rounded up to 1
  · intro hone
    by_contra hlt
    lift n to ℕ using hpos.le
    have hround : Binary64.round (n : ℤ) = n :=
      Binary64.round_natCast (by omega) (by omega)
    have hle : ((n : ℤ) : ℚ) ≤ 999999999 := by exact_mod_cast (by omega : (n : ℤ) ≤ 999999999)
    rw [Int.cast_natCast] at *
    rw [hround] at hseconds
    linarith [hseconds.2]
  · intro hle
    refine Binary64.one_le_round ?_
    rw [le_div_iff₀ (by norm_num), one_mul]
    -- up to 2^53 they are exact, and beyond it they are far above a second
    rcases lt_or_ge n 9007199254740992 with hlt | hge
    · lift n to ℕ using hpos.le
      rw [Int.cast_natCast, Binary64.round_natCast (by omega) (by omega)]
      exact_mod_cast hle
    · have hlarge : (9007199254740992 : ℚ) ≤ n := by exact_mod_cast hge
      linarith [hnear.1]

/-- Half a nanosecond comes from the decimal places, and the rest from the `double`s. -/
theorem abs_scaledNanos_sub_le (doubleText : DoubleText) {n : ℤ} (hle : 1000000000 ≤ n) :
    |(scaledNanos (doubleText.decimal (secondsOf n)) : ℚ) - n| ≤ n / 2 ^ 51 + 1 / 2 := by
  have hpos : 0 < n := by omega
  have hone : 1 ≤ secondsOf n := (one_le_secondsOf_iff hpos).mpr hle
  have hnear := abs_le.mp (Binary64.abs_round_sub_le (two_zpow_le_of_pos hpos))
  have hseconds := abs_le.mp (abs_secondsOf_sub_le hpos)
  have hdecimal : |doubleText.decimal (secondsOf n) - secondsOf n| ≤ secondsOf n / 2 ^ 53 :=
    doubleText.near _ hone
  rw [abs_le] at hdecimal
  have hfloor := Int.floor_le (doubleText.decimal (secondsOf n) * 1000000000 + 1 / 2)
  have hlt := Int.lt_floor_add_one (doubleText.decimal (secondsOf n) * 1000000000 + 1 / 2)
  have hnonneg : 0 ≤ ⌊doubleText.decimal (secondsOf n) * 1000000000 + 1 / 2⌋ :=
    Int.floor_nonneg.mpr (by linarith [hdecimal.1])
  have hcast : (scaledNanos (doubleText.decimal (secondsOf n)) : ℚ) =
      ⌊doubleText.decimal (secondsOf n) * 1000000000 + 1 / 2⌋ := by
    exact_mod_cast Int.toNat_of_nonneg hnonneg
  have hduration : (1000000000 : ℚ) ≤ n := by exact_mod_cast hle
  rw [hcast, abs_le]
  constructor
  · linarith [hnear.1, hseconds.1, hdecimal.1]
  · linarith [hnear.2, hseconds.2, hdecimal.2]

/-! ## Durations -/

/-- The text is a duration of a service config, of so many nanoseconds.  A duration of a
second or more may be off by the rounding of a `double` and of nine decimal places. -/
def Denotes (text : String) (duration : ℤ) : Prop :=
  ∃ value, Grpc.readDuration (.string text) = some value ∧
    (duration < 1000000000 → value = duration) ∧
    (1000000000 ≤ duration → |(value : ℚ) - duration| ≤ duration / 2 ^ 51 + 1 / 2)

theorem inRange_long {n : ℤ} (hpos : 0 < n) (hlong : n < 9223372036854775808) :
    InRange 9223372036854775808 n :=
  ⟨by omega, by omega⟩

theorem formatDuration_second (doubleText : DoubleText) {n : ℤ} (hle : 1000000000 ≤ n)
    (hlong : n < 9223372036854775808) :
    formatDuration doubleText n =
      .ok (String.ofList (removePoint (removeZeros
        (formatNine (doubleText.decimal (secondsOf n))))) ++ "s") := by
  have hpos : 0 < n := by omega
  rw [formatDuration, if_neg (not_not.mpr (inRange_long hpos hlong)), if_neg (by omega),
    if_pos ((one_le_secondsOf_iff hpos).mpr hle)]

/-- Below a second the text is no duration of a service config. -/
theorem formatDuration_below_second (doubleText : DoubleText) {n : ℤ} (hpos : 0 < n)
    (hlt : n < 1000000000) :
    ∃ text, formatDuration doubleText n = .ok text ∧
      Grpc.readDuration (.string text) = none := by
  have hlong : n < 9223372036854775808 := by omega
  have hseconds : ¬1 ≤ secondsOf n := by
    rw [one_le_secondsOf_iff hpos]
    omega
  rw [formatDuration, if_neg (not_not.mpr (inRange_long hpos hlong)), if_neg (by omega),
    if_neg hseconds]
  split
  · exact ⟨_, rfl, readDuration_unit _ (c := 'm') rfl (by decide)⟩
  · exact ⟨_, rfl, readDuration_unit _ (c := 'n') rfl (by decide)⟩

/-- A backoff is written as it should be if it is at least a second, and never below. -/
theorem formatDuration_denotes_iff (doubleText : DoubleText) {duration : ℤ}
    (hpos : 0 < duration) (hlong : duration < 9223372036854775808) :
    (∃ text, formatDuration doubleText duration = .ok text ∧ Denotes text duration) ↔
      1000000000 ≤ duration := by
  constructor
  · rintro ⟨text, htext, value, hvalue, -, -⟩
    by_contra hlt
    obtain ⟨text', htext', hnone⟩ :=
      formatDuration_below_second doubleText hpos (Int.not_le.mp hlt)
    have hsame : text = text' := Except.ok.inj (htext.symm.trans htext')
    rw [hsame, hnone] at hvalue
    cases hvalue
  · intro hle
    refine ⟨_, formatDuration_second doubleText hle hlong, _, readDuration_formatNine _,
      fun hlt => ?_, fun _ => ?_⟩
    · omega
    · exact_mod_cast abs_scaledNanos_sub_le doubleText hle

/-- A version that writes the whole decimal expansion. -/
def DoubleText.exact : DoubleText where
  decimal := id
  near := fun q hone => by
    have hnonneg : 0 ≤ Binary64.round q / 2 ^ 53 := div_nonneg (by linarith) (by norm_num)
    simpa using hnonneg

/-- A second and a half. -/
theorem formatDuration_denotes_one_and_half :
    ∃ text, formatDuration DoubleText.exact 1500000000 = .ok text ∧ Denotes text 1500000000 :=
  (formatDuration_denotes_iff DoubleText.exact (by decide) (by decide)).mpr (by decide)

/-- A tenth of a second is written in milliseconds, and is no duration of a service config. -/
theorem formatDuration_tenth_no_duration :
    (∀ doubleText, formatDuration doubleText 100000000 = .ok "100ms") ∧
    ¬∃ text, formatDuration DoubleText.exact 100000000 = .ok text ∧ Denotes text 100000000 := by
  have hseconds : ¬1 ≤ secondsOf 100000000 := by
    rw [one_le_secondsOf_iff (by decide)]
    decide
  have htext : ∀ doubleText, formatDuration doubleText 100000000 = .ok "100ms" := by
    intro doubleText
    rw [formatDuration, if_neg (by decide), if_neg (by decide), if_neg hseconds,
      if_pos (by decide)]
    rfl
  refine ⟨htext, ?_⟩
  rintro ⟨text, hok, value, hvalue, -⟩
  have hsame : text = "100ms" := Except.ok.inj (hok.symm.trans (htext _))
  have hnone : Grpc.readDuration (.string (toString (100 : ℤ) ++ "ms")) = none :=
    readDuration_unit 100 (c := 'm') rfl (by decide)
  rw [hsame] at hvalue
  exact absurd (hvalue.symm.trans hnone) (Option.some_ne_none _)

end ArmoniKApi.Java
