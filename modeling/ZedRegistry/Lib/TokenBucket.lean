import Mathlib.Algebra.Order.Field.Rat
import Mathlib.Algebra.Order.Ring.Int
import Mathlib.Tactic.Linarith
import Mathlib.Tactic.Ring

/-!
# Token buckets

A bucket gains `rate` tokens in a unit of time and never holds more than
`burst`.  `refill` is its balance after some time in which nothing is taken.
-/

set_option autoImplicit false

namespace TokenBucket

variable {K : Type} [Field K] [LinearOrder K]

def refill (burst rate tokens elapsed : K) : K := min (tokens + elapsed * rate) burst

theorem refill_le_burst (burst rate tokens elapsed : K) :
    refill burst rate tokens elapsed ≤ burst :=
  min_le_right _ _

/-- Waiting gains at most `rate` for each unit of time. -/
theorem refill_le_add (burst rate tokens elapsed : K) :
    refill burst rate tokens elapsed ≤ tokens + elapsed * rate :=
  min_le_left _ _

theorem refill_zero {burst tokens : K} (rate : K) (below : tokens ≤ burst) :
    refill burst rate tokens 0 = tokens := by
  rw [refill, zero_mul, add_zero, min_eq_left below]

variable [IsStrictOrderedRing K] {burst rate : K}

/-- A bucket does not notice when it is looked at. -/
theorem refill_refill (tokens first : K) {second : K} (gain : 0 ≤ rate) (forward : 0 ≤ second) :
    refill burst rate (refill burst rate tokens first) second =
      refill burst rate tokens (first + second) := by
  have gained : 0 ≤ second * rate := mul_nonneg forward gain
  have sum : tokens + first * rate + second * rate = tokens + (first + second) * rate := by ring
  have full : burst ≤ burst + second * rate := by linarith
  unfold refill
  rw [← min_add_add_right, sum, min_assoc, min_eq_right full]

theorem refill_nonneg {tokens elapsed : K} (capacity : 0 ≤ burst) (gain : 0 ≤ rate)
    (balance : 0 ≤ tokens) (forward : 0 ≤ elapsed) : 0 ≤ refill burst rate tokens elapsed := by
  have gained : 0 ≤ elapsed * rate := mul_nonneg forward gain
  exact le_min (by linarith) capacity

theorem refill_mono (burst rate elapsed : K) {less more : K} (ordered : less ≤ more) :
    refill burst rate less elapsed ≤ refill burst rate more elapsed :=
  min_le_min (by linarith) le_rfl

theorem refill_of_full {tokens elapsed : K} (gain : 0 ≤ rate) (forward : 0 ≤ elapsed)
    (full : burst ≤ tokens) : refill burst rate tokens elapsed = burst := by
  have gained : 0 ≤ elapsed * rate := mul_nonneg forward gain
  exact min_eq_right (by linarith)

/-- Once its balance would be full, a bucket stays full until something is taken. -/
theorem refill_of_projected {tokens idle elapsed : K} (gain : 0 ≤ rate) (later : idle ≤ elapsed)
    (full : burst ≤ tokens + idle * rate) : refill burst rate tokens elapsed = burst := by
  have gained : idle * rate ≤ elapsed * rate := mul_le_mul_of_nonneg_right later gain
  exact min_eq_right (by linarith)

/-- A bucket holds an amount that it has room for once it has waited for what is missing. -/
theorem le_refill_iff {amount tokens elapsed : K} (gain : 0 < rate) (room : amount ≤ burst) :
    amount ≤ refill burst rate tokens elapsed ↔ (amount - tokens) / rate ≤ elapsed := by
  rw [div_le_iff₀ gain, sub_le_iff_le_add', refill, le_min_iff, and_iff_left room]

end TokenBucket
