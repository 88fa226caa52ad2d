import Mathlib.Analysis.Convex.Segment
import VisionGame.Vision.PcController

/-!
# What the 1-Euro filter guarantees

Library `Vision`. `src/mediapipe/one_euro_filter.py:12–46`. Python's division raises on zero;
the checked filter below follows the source with such a division, and agrees with the filter
while its parameters are positive. Both smoothing factors then lie strictly between 0 and 1,
so that an output lies between the output before it and the sample.
-/

namespace VisionGame.Vision
open VisionGame.Base

variable {R : Type} [Scalar R]

/-- `a / b`. -/
def pyDiv (a b : R) : Except PyError R := if b = 0 then .error .zeroDivisionError else .ok (a / b)

private theorem pyDiv_ok (a : R) {b : R} (h : b ≠ 0) : pyDiv a b = .ok (a / b) := if_neg h

namespace OneEuroFilter

/-- `_alpha` with divisions that raise; `one_euro_filter.py:15–17`. -/
def alphaChecked (cutoff dt : R) : Except PyError R := do
  let tau ← pyDiv 1 (2 * Scalar.pi * cutoff)
  let steps ← pyDiv tau dt
  pyDiv 1 (1 + steps)

/-- `filter` with divisions that raise; `one_euro_filter.py:19–46`. -/
def filterChecked (self : OneEuroFilter R) (x t : R) : Except PyError (R × OneEuroFilter R) :=
  match self.prev with
  | none => .ok (x, { self with prev := some ⟨x, t⟩ })
  | some p =>
    let dt := t - p.tPrev
    if dt ≤ 0 then .ok (p.xPrev, self)
    else do
      let dx ← pyDiv (x - p.xPrev) dt
      let alphaD ← alphaChecked self.dCutoff dt
      let dxHat := exponentialSmoothing alphaD dx self.dxPrev
      let cutoff := self.minCutoff + self.beta * |dxHat|
      let alpha ← alphaChecked cutoff dt
      let xHat := exponentialSmoothing alpha x p.xPrev
      .ok (xHat, { self with prev := some ⟨xHat, t⟩, dxPrev := dxHat })

/-- The parameters are positive. -/
structure Tuned (f : OneEuroFilter R) : Prop where
  minCutoff : 0 < f.minCutoff
  beta : 0 ≤ f.beta
  dCutoff : 0 < f.dCutoff

/-- The last output. -/
def last (self : OneEuroFilter R) : Option R := self.prev.map Sample.xPrev

section
variable (hpi : 0 < (Scalar.pi : R))
include hpi

/-- A smoothing factor is computed without dividing by zero. -/
theorem alphaChecked_ok {cutoff dt : R} (hc : 0 < cutoff) (hdt : 0 < dt) :
    alphaChecked cutoff dt = .ok (alpha cutoff dt) := by
  have htau : 0 < 2 * Scalar.pi * cutoff := by positivity
  have hsteps : 0 < 1 + 1 / (2 * Scalar.pi * cutoff) / dt := by positivity
  simp only [alphaChecked, pyDiv_ok _ htau.ne', pyDiv_ok _ hdt.ne', pyDiv_ok _ hsteps.ne', alpha,
    bind, Except.bind]

/-- A smoothing factor lies strictly between 0 and 1. -/
theorem alpha_mem_Ioo {cutoff dt : R} (hc : 0 < cutoff) (hdt : 0 < dt) :
    alpha cutoff dt ∈ Set.Ioo (0 : R) 1 := by
  have hsteps : 0 < 1 / (2 * Scalar.pi * cutoff) / dt := by positivity
  constructor
  · simp only [alpha]
    positivity
  · simp only [alpha]
    rw [div_lt_one (by positivity)]
    exact lt_add_of_pos_right 1 hsteps

end

/-- Smoothing with a factor between 0 and 1 stays between the last output and the sample. -/
theorem exponentialSmoothing_mem_uIcc {a : R} (h : a ∈ Set.Ioo (0 : R) 1) (x xPrev : R) :
    exponentialSmoothing a x xPrev ∈ Set.uIcc xPrev x := by
  rw [← segment_eq_uIcc]
  refine ⟨1 - a, a, (sub_pos.mpr h.2).le, h.1.le, sub_add_cancel 1 a, ?_⟩
  simp only [exponentialSmoothing, smul_eq_mul]
  exact add_comm _ _

/-- The cutoff of a sample is positive. -/
theorem Tuned.cutoff_pos {self : OneEuroFilter R} (h : self.Tuned) (dxHat : R) :
    0 < self.minCutoff + self.beta * |dxHat| :=
  add_pos_of_pos_of_nonneg h.minCutoff (mul_nonneg h.beta (abs_nonneg dxHat))

/-- A positively tuned filter stays so, and remembers its output. -/
theorem filter_keeps (self : OneEuroFilter R) (x t : R) :
    (self.Tuned → (self.filter x t).2.Tuned) ∧
      (self.filter x t).2.last = some (self.filter x t).1 := by
  simp only [filter]
  split
  · exact ⟨fun h ↦ ⟨h.minCutoff, h.beta, h.dCutoff⟩, rfl⟩
  · next p hp =>
    split
    · refine ⟨id, ?_⟩
      simp only [last, hp, Option.map_some]
    · exact ⟨fun h ↦ ⟨h.minCutoff, h.beta, h.dCutoff⟩, rfl⟩

/-- A filter that has no output yet returns the sample. -/
theorem filter_of_last_eq_none {self : OneEuroFilter R} (h : self.last = none) (x t : R) :
    (self.filter x t).1 = x := by
  rw [filter_first self x t (Option.map_eq_none_iff.mp h)]

section
variable (hpi : 0 < (Scalar.pi : R)) {self : OneEuroFilter R} (h : self.Tuned)
include hpi h

/-- A positively tuned filter never divides by zero. -/
theorem filterChecked_ok (x t : R) : self.filterChecked x t = .ok (self.filter x t) := by
  cases hp : self.prev with
  | none => simp only [filterChecked, filter, hp]
  | some p =>
    by_cases hdt : t - p.tPrev ≤ 0
    · simp only [filterChecked, filter, hp, hdt, ite_true]
    · have hpos : 0 < t - p.tPrev := not_le.mp hdt
      simp only [filterChecked, filter, hp, hdt, ite_false, pyDiv_ok _ hpos.ne',
        alphaChecked_ok hpi h.dCutoff hpos, alphaChecked_ok hpi (h.cutoff_pos _) hpos, bind,
        Except.bind]

/-- The output of a positively tuned filter lies between the last output and the sample. -/
theorem filter_mem_uIcc {p : R} (hlast : self.last = some p) (x t : R) :
    (self.filter x t).1 ∈ Set.uIcc p x := by
  have ⟨sample, hsample, hp⟩ := Option.map_eq_some_iff.mp hlast
  simp only [filter, hsample]
  split
  · rw [hp]
    exact Set.left_mem_uIcc
  · next hdt =>
    rw [← hp]
    exact exponentialSmoothing_mem_uIcc
      (alpha_mem_Ioo hpi (h.cutoff_pos _) (not_le.mp hdt)) x sample.xPrev

end
end OneEuroFilter
end VisionGame.Vision
