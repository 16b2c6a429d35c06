import Mathlib.Algebra.Order.Field.Power
import Mathlib.Data.Int.Log
import Mathlib.Data.Rat.Floor
import Mathlib.Tactic.FieldSimp
import Mathlib.Tactic.Linarith
import Mathlib.Tactic.NormNum
import Mathlib.Tactic.Positivity

/-!
# Numbers rounded to binary64

A conversion to a binary64 number, and an operation on such numbers, gives the exact
result rounded to a multiple of a power of two: to the nearest one with 53 binary digits,
and to an even one between two that are equally near.  Numbers that are too large for the
format are not considered.

A rounded number is off by at most one part in `2 ^ 53` (`abs_round_sub_le`), and a number
that is at least 1 stays so (`one_le_round`).

Everything is stated over the rationals, with the exponent that the number asks for:

```text
exponent q = max (log2 |q| - 52) (-1074)        the place of the last binary digit
round q    = roundHalfEven (q / 2 ^ exponent q) * 2 ^ exponent q
```

* `abs_roundHalfEven_sub_le` says that the nearest integer is at most one half away.
* `exponent_eq` leaves out the small numbers, which have fewer digits, and `zpow_log_le`
  compares the last binary digit with the number itself; together they turn one half of the
  last digit into the relative error.
* `round_natCast` is the case without an error: an integer with at most 53 binary digits is a
  multiple of the last one, so it is its own nearest multiple.
-/

namespace Binary64

/-- The nearest integer, and the even one between two. -/
def roundHalfEven (x : ℚ) : ℤ :=
  if x - ⌊x⌋ < 1 / 2 then ⌊x⌋
  else if 1 / 2 < x - ⌊x⌋ then ⌊x⌋ + 1
  else if ⌊x⌋ % 2 = 0 then ⌊x⌋ else ⌊x⌋ + 1

/-- The exponent of the last binary digit. -/
def exponent (q : ℚ) : ℤ := max (Int.log 2 |q| - 52) (-1074)

/-- The nearest number with as many digits as a significand has, by the exponent that the
number asks for. -/
def round (q : ℚ) : ℚ := roundHalfEven (q / 2 ^ exponent q) * 2 ^ exponent q

theorem abs_roundHalfEven_sub_le (x : ℚ) : |(roundHalfEven x : ℚ) - x| ≤ 1 / 2 := by
  have hfloor := Int.floor_le x
  have hlt := Int.lt_floor_add_one x
  unfold roundHalfEven
  rw [abs_le]
  split_ifs
  · constructor <;> linarith
  · push_cast
    constructor <;> linarith
  · constructor <;> linarith
  · push_cast
    constructor <;> linarith

theorem le_roundHalfEven {n : ℤ} {x : ℚ} (h : (n : ℚ) ≤ x) : n ≤ roundHalfEven x := by
  have hfloor : n ≤ ⌊x⌋ := Int.le_floor.mpr h
  unfold roundHalfEven
  split_ifs <;> omega

theorem roundHalfEven_intCast (n : ℤ) : roundHalfEven n = n := by
  rw [roundHalfEven, Int.floor_intCast, if_pos (by norm_num)]

theorem two_zpow_pos (e : ℤ) : (0 : ℚ) < 2 ^ e := zpow_pos (by norm_num) e

/-- The exponent of a number that is not too small. -/
theorem exponent_eq {q : ℚ} (hq : (2 : ℚ) ^ (-1022 : ℤ) ≤ q) : exponent q = Int.log 2 q - 52 := by
  have hpos : 0 < q := lt_of_lt_of_le (two_zpow_pos _) hq
  have hlog : -1022 ≤ Int.log 2 q :=
    (Int.zpow_le_iff_le_log (by decide) hpos).mp (by exact_mod_cast hq)
  rw [exponent, abs_of_pos hpos]
  omega

theorem zpow_log_le {q : ℚ} (hpos : 0 < q) : (2 : ℚ) ^ Int.log 2 q ≤ q := by
  exact_mod_cast Int.zpow_log_le_self (b := 2) (by decide) hpos

/-- The error is at most half of the last binary digit. -/
theorem abs_round_sub_le {q : ℚ} (hq : (2 : ℚ) ^ (-1022 : ℤ) ≤ q) :
    |round q - q| ≤ q / 2 ^ 53 := by
  have hpos : 0 < q := lt_of_lt_of_le (two_zpow_pos _) hq
  have hdigit : (2 : ℚ) ^ exponent q = 2 ^ Int.log 2 q / 2 ^ 52 := by
    rw [exponent_eq hq, zpow_sub₀ (by norm_num)]
    norm_cast
  have hscale := two_zpow_pos (exponent q)
  have hhalf := abs_roundHalfEven_sub_le (q / 2 ^ exponent q)
  have herror : round q - q =
      ((roundHalfEven (q / 2 ^ exponent q) : ℚ) - q / 2 ^ exponent q) * 2 ^ exponent q := by
    rw [round, sub_mul, div_mul_cancel₀ _ hscale.ne']
  calc |round q - q|
      = |(roundHalfEven (q / 2 ^ exponent q) : ℚ) - q / 2 ^ exponent q| * 2 ^ exponent q := by
        rw [herror, abs_mul, abs_of_pos hscale]
    _ ≤ 1 / 2 * 2 ^ exponent q := mul_le_mul_of_nonneg_right hhalf hscale.le
    _ = 2 ^ Int.log 2 q / 2 ^ 53 := by
        rw [hdigit]
        ring
    _ ≤ q / 2 ^ 53 := div_le_div_of_nonneg_right (zpow_log_le hpos) (by positivity)

theorem one_le_round {q : ℚ} (hq : 1 ≤ q) : 1 ≤ round q := by
  have hpos : 0 < q := by linarith
  have hlog : 0 ≤ Int.log 2 q :=
    (Int.zpow_le_iff_le_log (by decide) hpos).mp (by simpa using hq)
  have hexponent : exponent q = Int.log 2 q - 52 := by
    rw [exponent, abs_of_pos hpos]
    omega
  have hscale := two_zpow_pos (exponent q)
  have hpower : (2 : ℚ) ^ 52 * 2 ^ exponent q = 2 ^ Int.log 2 q := by
    rw [hexponent, ← zpow_natCast, ← zpow_add₀ (by norm_num)]
    congr 1
    omega
  have hdigits : ((2 ^ 52 : ℤ) : ℚ) ≤ q / 2 ^ exponent q := by
    rw [le_div_iff₀ hscale, Int.cast_pow, Int.cast_ofNat, hpower]
    exact zpow_log_le hpos
  have hrounded : (2 : ℚ) ^ 52 ≤ roundHalfEven (q / 2 ^ exponent q) := by
    exact_mod_cast le_roundHalfEven hdigits
  calc (1 : ℚ) ≤ 2 ^ Int.log 2 q := one_le_zpow₀ (by norm_num) hlog
    _ = 2 ^ 52 * 2 ^ exponent q := hpower.symm
    _ ≤ round q := mul_le_mul_of_nonneg_right hrounded hscale.le

/-- An integer of at most 53 binary digits is not changed. -/
theorem round_natCast {n : ℕ} (hpos : 0 < n) (hn : n < 2 ^ 53) : round n = n := by
  have hlog : Nat.log 2 n ≤ 52 := Nat.le_of_lt_succ (Nat.log_lt_of_lt_pow hpos.ne' hn)
  have hexponent : exponent n = -((52 - Nat.log 2 n : ℕ) : ℤ) := by
    rw [exponent, abs_of_nonneg (Nat.cast_nonneg n), Int.log_natCast]
    omega
  have hscaled : (n : ℚ) / 2 ^ exponent n = ((n * 2 ^ (52 - Nat.log 2 n) : ℕ) : ℤ) := by
    rw [hexponent, zpow_neg, zpow_natCast, div_inv_eq_mul]
    push_cast
    rfl
  rw [round, hscaled, roundHalfEven_intCast, ← hscaled,
    div_mul_cancel₀ _ (two_zpow_pos _).ne']

end Binary64
