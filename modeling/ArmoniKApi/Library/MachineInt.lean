import Mathlib.Order.Lattice
import Mathlib.Algebra.Order.Ring.Int

/-!
# Signed machine integers

A signed type holds the integers from `-half` to `half - 1`.  A conversion into it
wraps, a clamp takes the nearest of its numbers, and a sum or a product that it does
not hold is undefined (`checked`).

The bounds are a parameter, so that 32 and 64 bits share the lemmas, and a program keeps its
own names for the halves.  What the three ways to leave the range have in common is that they
change nothing inside it: `wrap_of_inRange`, `clamp_of_inRange` and `checked_of_inRange`.

`wrap_wrap_add` is what makes a counter that wraps at every increment equal to the count
wrapped once.  `checked_eq_some_iff` turns the absence of overflow into a bound on the result,
which is how undefined behaviour is ruled out.
-/

namespace MachineInt

/-- The type holds the number. -/
def InRange (half : ℕ) (n : ℤ) : Prop := -half ≤ n ∧ n < half

instance (half : ℕ) (n : ℤ) : Decidable (InRange half n) := by
  unfold InRange
  infer_instance

/-- The number of the type that equals `n` modulo its size. -/
def wrap (half : ℕ) (n : ℤ) : ℤ := (n + half) % (2 * half) - half

/-- The number of the type that is nearest to `n`. -/
def clamp (half : ℕ) (n : ℤ) : ℤ := max (-half) (min (half - 1) n)

/-- The result of an operation, undefined when it overflows. -/
def checked (half : ℕ) (n : ℤ) : Option ℤ := if InRange half n then some n else none

theorem wrap_of_inRange {half : ℕ} {n : ℤ} (h : InRange half n) : wrap half n = n := by
  obtain ⟨hlower, hupper⟩ := h
  unfold wrap
  rw [Int.emod_eq_of_lt (by omega) (by omega)]
  omega

/-- Sums wrap as they would with no bounds before. -/
theorem wrap_wrap_add (half : ℕ) (n m : ℤ) : wrap half (wrap half n + m) = wrap half (n + m) := by
  have hsum : (n + half) % (2 * half) - half + m + half = (n + half) % (2 * half) + m := by
    generalize (n + half) % (2 * half) = r
    omega
  rw [wrap, wrap, hsum, Int.emod_add_emod, wrap, add_right_comm]

theorem clamp_of_inRange {half : ℕ} {n : ℤ} (h : InRange half n) : clamp half n = n := by
  obtain ⟨hlower, hupper⟩ := h
  unfold clamp
  omega

theorem checked_of_inRange {half : ℕ} {n : ℤ} (h : InRange half n) : checked half n = some n :=
  if_pos h

theorem checked_eq_some_iff {half : ℕ} {n m : ℤ} :
    checked half n = some m ↔ InRange half n ∧ n = m := by
  unfold checked
  split
  · rename_i h
    rw [Option.some.injEq, and_iff_right h]
  · rename_i h
    exact iff_of_false nofun fun hboth => h hboth.1

end MachineInt
