import Mathlib.Algebra.Order.Field.Basic
import Mathlib.Order.Interval.Set.Defs
import Mathlib.Tactic.Linarith
import Mathlib.Tactic.Positivity
import Mathlib.Tactic.Ring

/-!
# Settling in an interval

Library `Base`. The excess of a number is how far it lies outside an interval. Smoothing toward a
number of the interval shrinks the excess by the part of the old value that is kept. When this part
is small enough for the time that has passed, the excess decreases at least like the inverse of the
whole time, however that time is divided into steps.
-/

namespace VisionGame.Base

variable {R : Type} [Field R] [LinearOrder R]

/-- How far a number lies outside an interval. -/
def excess (lo hi x : R) : R := max 0 (max (lo - x) (x - hi))

/-- An excess is not negative. -/
theorem excess_nonneg (lo hi x : R) : 0 ≤ excess lo hi x := le_max_left _ _

/-- After some time the excess is at most the inverse of that time, up to a rate, times a size. -/
def Settled (rate size lo hi elapsed x : R) : Prop :=
  excess lo hi x * (1 + rate * elapsed) ≤ size

section
variable [IsStrictOrderedRing R] {lo hi x y a : R}

/-- A bound on the excess is a wider interval. -/
theorem excess_le_iff {d : R} (hd : 0 ≤ d) : excess lo hi x ≤ d ↔ lo - d ≤ x ∧ x ≤ hi + d := by
  simp only [excess, max_le_iff, hd, true_and]
  constructor <;> rintro ⟨hlow, hhigh⟩ <;> constructor <;> linarith

/-- Nothing of the interval lies outside it. -/
theorem excess_eq_zero (h : x ∈ Set.Icc lo hi) : excess lo hi x = 0 := by
  apply le_antisymm ?_ (excess_nonneg lo hi x)
  rw [excess_le_iff le_rfl, sub_zero, add_zero]
  exact h

/-- Smoothing toward a number of the interval keeps at most the part of the excess that is kept of
the old value. -/
theorem excess_smooth (ha : a ∈ Set.Icc (0 : R) 1) (hx : x ∈ Set.Icc lo hi) (y : R) :
    excess lo hi (a * x + (1 - a) * y) ≤ (1 - a) * excess lo hi y := by
  have hkept : 0 ≤ 1 - a := sub_nonneg.mpr ha.2
  have ⟨hlow, hhigh⟩ := (excess_le_iff (excess_nonneg lo hi y)).mp le_rfl
  rw [excess_le_iff (mul_nonneg hkept (excess_nonneg lo hi y))]
  constructor
  · have hnew := mul_le_mul_of_nonneg_left hx.1 ha.1
    have hold := mul_le_mul_of_nonneg_left hlow hkept
    linarith
  · have hnew := mul_le_mul_of_nonneg_left hx.2 ha.1
    have hold := mul_le_mul_of_nonneg_left hhigh hkept
    linarith

variable {rate size elapsed : R}

/-- A number of the interval has always settled. -/
theorem settled_of_mem (hsize : 0 ≤ size) (h : x ∈ Set.Icc lo hi) :
    Settled rate size lo hi elapsed x := by
  rw [Settled, excess_eq_zero h, zero_mul]
  exact hsize

omit [IsStrictOrderedRing R] in
/-- No time has passed. -/
theorem settled_zero (h : excess lo hi x ≤ size) : Settled rate size lo hi 0 x := by
  rw [Settled, mul_zero, add_zero, mul_one]
  exact h

namespace Settled

/-- What has settled for some time has settled for less. -/
theorem mono (h : Settled rate size lo hi elapsed x) (hrate : 0 ≤ rate) {less : R}
    (hless : less ≤ elapsed) : Settled rate size lo hi less x := by
  refine le_trans (mul_le_mul_of_nonneg_left ?_ (excess_nonneg lo hi x)) h
  exact add_le_add_right (mul_le_mul_of_nonneg_left hless hrate) 1

/-- What has settled is near the interval. -/
theorem excess_le (h : Settled rate size lo hi elapsed x) (hrate : 0 ≤ rate)
    (helapsed : 0 ≤ elapsed) : excess lo hi x ≤ size / (1 + rate * elapsed) := by
  rw [le_div_iff₀ (by positivity)]
  exact h

/-- A step of smoothing that keeps little enough of the old value goes on settling. -/
theorem smooth (h : Settled rate size lo hi elapsed y) (hrate : 0 ≤ rate) (helapsed : 0 ≤ elapsed)
    (ha : a ∈ Set.Icc (0 : R) 1) (hx : x ∈ Set.Icc lo hi) {dt : R} (hdt : 0 ≤ dt)
    (hkept : (1 - a) * (1 + rate * dt) ≤ 1) :
    Settled rate size lo hi (elapsed + dt) (a * x + (1 - a) * y) := by
  have hless := excess_smooth ha hx y
  have hpart : 0 ≤ 1 - a := sub_nonneg.mpr ha.2
  have hexcess := excess_nonneg lo hi y
  -- the factors of two steps make up more than that of both together
  have hfactors : 1 + rate * (elapsed + dt) ≤ (1 + rate * elapsed) * (1 + rate * dt) := by
    have hmixed : 0 ≤ rate * elapsed * (rate * dt) := by positivity
    linarith
  unfold Settled at h ⊢
  calc excess lo hi (a * x + (1 - a) * y) * (1 + rate * (elapsed + dt))
      ≤ (1 - a) * excess lo hi y * ((1 + rate * elapsed) * (1 + rate * dt)) := by
        apply mul_le_mul hless hfactors (by positivity)
        exact mul_nonneg hpart hexcess
    _ = excess lo hi y * (1 + rate * elapsed) * ((1 - a) * (1 + rate * dt)) := by ring
    _ ≤ excess lo hi y * (1 + rate * elapsed) * 1 := by
        apply mul_le_mul_of_nonneg_left hkept
        positivity
    _ ≤ size := by
        rw [mul_one]
        exact h

end Settled
end
end VisionGame.Base
