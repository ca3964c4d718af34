import Mathlib.Tactic

/-!
# Conversions between the integer types of C

A `size_t` has 64 bits and an `int` has 32 bits in two's complement.
-/

namespace Linglongta

/-- The conversion of a `size_t` to `int`. -/
def toInt32 (n : ℕ) : Int := Int.bmod n (2 ^ 32)

/-- The conversion of any integer to `int`. -/
def asInt32 (n : Int) : Int := Int.bmod n (2 ^ 32)

/-- The conversion of an `int` or a `ssize_t` to `size_t`. -/
def toSizeT (i : Int) : ℕ := (i % 2 ^ 64).toNat

/-- A number that fits is kept. -/
lemma toSizeT_natCast {i : ℕ} (h : i < 2 ^ 64) : toSizeT (i : Int) = i := by
  unfold toSizeT
  omega

/-- A number below `2 ^ 31` is kept. -/
lemma toInt32_of_lt {n : ℕ} (h : n < 2 ^ 31) : toInt32 n = n := by
  unfold toInt32
  exact Int.bmod_eq_of_le (by omega) (by omega)

/-- The conversion to `int` never makes a number larger. -/
lemma toInt32_le (n : ℕ) : toInt32 n ≤ n := by
  unfold toInt32
  rw [Int.bmod_def]
  split
  · omega
  · omega

/-- Only a number from `2 ^ 31` on becomes negative. -/
lemma le_of_toInt32_neg {n : ℕ} (h : toInt32 n < 0) : 2 ^ 31 ≤ n := by
  by_contra hlt
  rw [toInt32_of_lt (Nat.not_le.1 hlt)] at h
  omega

/-- What lies above a number after the conversion to `int`: it is decided by the low 32 bits, and
nothing does if the highest of them is set. -/
lemma natCast_lt_toInt32 {m n : ℕ} :
    (m : Int) < toInt32 n ↔ m < n % 2 ^ 32 ∧ n % 2 ^ 32 < 2 ^ 31 := by
  unfold toInt32
  rw [Int.bmod_def]
  split
  · omega
  · omega

/-- A division by eight is rounded toward zero. -/
lemma tdiv_eight (i : Int) : i.tdiv 8 = if 0 ≤ i then i / 8 else -(-i / 8) := by
  split
  · next hi => exact Int.tdiv_eq_ediv_of_nonneg hi
  · next hi => rw [← Int.tdiv_eq_ediv_of_nonneg (by omega), Int.neg_tdiv, Int.neg_neg]

end Linglongta
