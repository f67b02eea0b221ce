import Mathlib.Algebra.BigOperators.Intervals
import Mathlib.Algebra.Order.BigOperators.Group.Finset

/-!
# Intervals that double up to a bound

`backoff base cap n` is the interval after `n` repetitions, and `backoffTotal base cap n` the time
that has passed when this interval is over, if every repetition comes when it is due. Programs
compute the doubling as a shift, which is exact as long as it stays within the bits of a positive
number.
-/

namespace Lib

def backoff (base cap n : ℕ) : ℕ := min (base * 2 ^ n) cap

def backoffTotal (base cap n : ℕ) : ℕ := ∑ i ∈ Finset.range (n + 1), backoff base cap i

theorem backoffTotal_succ (base cap n : ℕ) :
    backoffTotal base cap (n + 1) = backoffTotal base cap n + backoff base cap (n + 1) :=
  Finset.sum_range_succ _ _

theorem backoffTotal_mono (base cap : ℕ) : Monotone (backoffTotal base cap) :=
  monotone_nat_of_le_succ fun n => backoffTotal_succ base cap n ▸ Nat.le_add_right _ _

/-- Fewer repetitions than fill a span of time are over before its end. -/
theorem lt_of_backoffTotal_lt {base cap n limit span : ℕ}
    (hspan : span ≤ backoffTotal base cap limit)
    (h : backoffTotal base cap n < span) : n < limit := by
  by_contra hle
  have hmono := backoffTotal_mono base cap (not_lt.mp hle)
  omega

/-- A one that is shifted and does not reach the sign. -/
theorem toInt_one_shiftLeft {w n : ℕ} (h : n + 1 < w) :
    (1#w <<< n).toInt = (2 ^ n : ℕ) := by
  have hone : (1#w).toNat = 1 := by
    rw [BitVec.toNat_ofNat, Nat.mod_eq_of_lt (Nat.one_lt_two_pow (by omega))]
  have hlt : 2 ^ (n + 1) < 2 ^ w := Nat.pow_lt_pow_right (by decide) h
  rw [BitVec.toInt_shiftLeft, hone, Nat.shiftLeft_eq, Nat.one_mul]
  rw [Nat.pow_succ] at hlt
  refine Int.bmod_eq_of_le_mul_two ?_ ?_
  · omega
  · omega

end Lib
