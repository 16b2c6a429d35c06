import ArmoniKApi.Library.MachineInt
import ArmoniKApi.Proto.Filters

/-!
# The times of a C++ channel in milliseconds

`getMilliseconds` turns a protobuf duration into an `int` of milliseconds.  It clamps
the seconds to the greatest `int`, and adds the milliseconds of the nanoseconds after
that.

* Seconds that are too small are not clamped.  They are cast, and wrap.
* The sum after the clamp may overflow.

`getMilliseconds_clamped_iff` says for which durations the result is the total number
of milliseconds, clamped.

The obstacle is that two faults can cancel.  Where the total does not fit an `int`, the result
may still be right, and the condition has to say when:

```text
the seconds alone are too many      the rest of the nanoseconds is below one millisecond
the seconds alone are too few       the wrapped sum hits the least `int`
```

The nanoseconds have the sign of the seconds and contribute less than a thousand
milliseconds (`tdiv_nanos_bounds`), so the two parts are added without a carry
(`milliseconds_eq`).  The multiplication of the seconds cannot overflow in a valid duration,
so only the last sum may (`getMilliseconds_eq_some_iff`), and `wrap_add_eq_least_iff` turns
the second line of the table into a congruence.
-/

namespace ArmoniKApi.Cpp

open MachineInt
open Proto (Duration)

/-- `int` has 32 bits. -/
def intHalf : ℕ := 2147483648

/-- `int64_t` and `long` have 64 bits. -/
def longHalf : ℕ := 9223372036854775808

/-! ## The code -/

/-- `saturate_cast`, into a type whose greatest number is `half - 1`. -/
def saturateCast (half : ℕ) (n : ℤ) : ℤ := if n > half - 1 then half - 1 else wrap half n

/-- `getMilliseconds`.  Overflow is undefined. -/
def getMilliseconds (duration : Duration) : Option ℤ := do
  let seconds ← checked longHalf (duration.seconds * 1000)
  checked intHalf (saturateCast intHalf seconds + duration.nanos.tdiv 1000000)

/-! ## The number of milliseconds -/

/-- The durations that protobuf allows. -/
structure ValidDuration (duration : Duration) : Prop where
  seconds : -315576000000 ≤ duration.seconds ∧ duration.seconds ≤ 315576000000
  nanos : -999999999 ≤ duration.nanos ∧ duration.nanos ≤ 999999999
  nonneg : 0 < duration.seconds → 0 ≤ duration.nanos
  nonpos : duration.seconds < 0 → duration.nanos ≤ 0

/-- The milliseconds of a duration, without the rest. -/
def milliseconds (duration : Duration) : ℤ :=
  (duration.seconds * 1000000000 + duration.nanos).tdiv 1000000

/-- The division of C++ rounds to zero. -/
theorem tdiv_million (n : ℤ) :
    n.tdiv 1000000 = if 0 ≤ n then n / 1000000 else -(-n / 1000000) := by
  split
  · rename_i hnonneg
    exact Int.tdiv_eq_ediv_of_nonneg hnonneg
  · rename_i hneg
    rw [← Int.tdiv_eq_ediv_of_nonneg (by omega), Int.neg_tdiv, Int.neg_neg]

/-- The milliseconds are those of the two parts, which have the same sign. -/
theorem milliseconds_eq {duration : Duration} (hvalid : ValidDuration duration) :
    milliseconds duration = duration.seconds * 1000 + duration.nanos.tdiv 1000000 := by
  obtain ⟨-, -, hnonneg, hnonpos⟩ := hvalid
  rw [milliseconds, tdiv_million, tdiv_million]
  split <;> split <;> omega

/-- The milliseconds of the nanoseconds are fewer than a thousand, and have the sign of
the seconds. -/
theorem tdiv_nanos_bounds {duration : Duration} (hvalid : ValidDuration duration) :
    -1000 < duration.nanos.tdiv 1000000 ∧ duration.nanos.tdiv 1000000 < 1000 ∧
      (0 < duration.seconds → 0 ≤ duration.nanos.tdiv 1000000) ∧
      (duration.seconds < 0 → duration.nanos.tdiv 1000000 ≤ 0) := by
  obtain ⟨-, hnanos, hnonneg, hnonpos⟩ := hvalid
  rw [tdiv_million]
  split <;> omega

/-- The seconds do not overflow, so that only the last sum may. -/
theorem getMilliseconds_eq_some_iff {duration : Duration} (hvalid : ValidDuration duration)
    {result : ℤ} :
    getMilliseconds duration = some result ↔
      InRange intHalf (saturateCast intHalf (duration.seconds * 1000) +
          duration.nanos.tdiv 1000000) ∧
        saturateCast intHalf (duration.seconds * 1000) + duration.nanos.tdiv 1000000 =
          result := by
  have hseconds : checked longHalf (duration.seconds * 1000) = some (duration.seconds * 1000) := by
    obtain ⟨hlower, hupper⟩ := hvalid.seconds
    refine checked_eq_some_iff.mpr ⟨?_, rfl⟩
    unfold InRange longHalf
    omega
  rw [getMilliseconds, hseconds]
  exact checked_eq_some_iff

/-- Seconds that are too few come to the least `int` just if the sum is congruent to it. -/
theorem wrap_add_eq_least_iff {n millis : ℤ} (hlower : -1000 < millis) (hnonpos : millis ≤ 0) :
    wrap 2147483648 n + millis = -2147483648 ↔
      (n + millis + 2147483648) % 4294967296 = 0 := by
  unfold wrap
  omega

/-- The result is the clamped number of milliseconds if an `int` holds that number.
Else it is so in two cases: the seconds alone are too many and there are no
milliseconds to add, or they are too few and happen to wrap to the least `int`. -/
theorem getMilliseconds_clamped_iff {duration : Duration} (hvalid : ValidDuration duration) :
    getMilliseconds duration = some (clamp intHalf (milliseconds duration)) ↔
      InRange intHalf (milliseconds duration) ∨
        (2147483647 < duration.seconds * 1000 ∧ duration.nanos < 1000000) ∨
        (duration.seconds * 1000 < -2147483648 ∧
          (milliseconds duration + 2147483648) % 4294967296 = 0) := by
  obtain ⟨hlower, hupper, hnonneg, hnonpos⟩ := tdiv_nanos_bounds hvalid
  have hfew : 0 < duration.seconds →
      (duration.nanos < 1000000 ↔ duration.nanos.tdiv 1000000 = 0) := by
    intro hpos
    have hnanos := hvalid.nonneg hpos
    rw [tdiv_million, if_pos hnanos]
    omega
  rw [getMilliseconds_eq_some_iff hvalid, milliseconds_eq hvalid]
  generalize duration.nanos.tdiv 1000000 = millis at *
  unfold saturateCast intHalf
  by_cases hmany : 2147483647 < duration.seconds * 1000
  · have hclamp : clamp 2147483648 (duration.seconds * 1000 + millis) = 2147483647 := by
      unfold clamp
      omega
    rw [if_pos (by omega), hclamp, hfew (by omega)]
    unfold InRange
    omega
  · rw [if_neg (by omega)]
    by_cases hfits : -2147483648 ≤ duration.seconds * 1000
    · have hcast : InRange 2147483648 (duration.seconds * 1000) := ⟨hfits, by omega⟩
      rw [wrap_of_inRange hcast, or_iff_left (by omega)]
      exact and_iff_left_of_imp fun hrange => (clamp_of_inRange hrange).symm
    · -- the cast wraps
      have hbelow : duration.seconds * 1000 < -2147483648 := by omega
      have hleast :=
        wrap_add_eq_least_iff (n := duration.seconds * 1000) hlower (hnonpos (by omega))
      have hclamp : clamp 2147483648 (duration.seconds * 1000 + millis) = -2147483648 := by
        unfold clamp
        omega
      have hout : ¬InRange 2147483648 (duration.seconds * 1000 + millis) := by
        unfold InRange
        omega
      rw [hclamp, hleast, or_iff_right hout, or_iff_right fun h => hmany h.1, and_iff_right hbelow]
      refine and_iff_right_of_imp fun hzero => ?_
      rw [hleast.mpr hzero]
      decide

theorem getMilliseconds_clamped_max :
    getMilliseconds ⟨2147483, 647000000⟩ = some (clamp intHalf 2147483647) :=
  have hvalid : ValidDuration ⟨2147483, 647000000⟩ :=
    ⟨by decide, by decide, by decide, by decide⟩
  (getMilliseconds_clamped_iff hvalid).mpr (.inl (by decide))

/-- Too few seconds wrap to a positive time. -/
theorem getMilliseconds_wraps :
    ValidDuration ⟨-2147484, 0⟩ ∧ getMilliseconds ⟨-2147484, 0⟩ = some 2147483296 ∧
      getMilliseconds ⟨-2147484, 0⟩ ≠ some (clamp intHalf (milliseconds ⟨-2147484, 0⟩)) := by
  exact ⟨⟨by decide, by decide, by decide, by decide⟩, by decide, by decide⟩

end ArmoniKApi.Cpp
