import VisionGame.Base.Scalar

/-!
# The 1-Euro filter

Library `Vision`. `src/mediapipe/one_euro_filter.py`. An adaptive exponential smoother: the
cutoff grows with the smoothed derivative. `x_prev` and `t_prev` are set together by the
first sample, so the filter keeps them as one optional sample.
-/

namespace VisionGame.Vision
open VisionGame.Base

/-- Last output of a filter and the time it was computed for. -/
structure Sample (R : Type) where
  xPrev : R
  tPrev : R
  deriving DecidableEq

/-- Filter state; `one_euro_filter.py:4–10`. -/
structure OneEuroFilter (R : Type) where
  minCutoff : R
  beta : R
  dCutoff : R
  prev : Option (Sample R)
  dxPrev : R

namespace OneEuroFilter

variable {R : Type} [Scalar R]

/-- Fresh filter; `one_euro_filter.py:4–10`. -/
def init (minCutoff beta dCutoff : R) : OneEuroFilter R :=
  ⟨minCutoff, beta, dCutoff, none, 0⟩

/-- `one_euro_filter.py:12–13`. -/
def exponentialSmoothing (alpha x xPrev : R) : R := alpha * x + (1 - alpha) * xPrev

/-- `one_euro_filter.py:15–17`. -/
def alpha (cutoff dt : R) : R :=
  let tau := 1 / (2 * Scalar.pi * cutoff)
  1 / (1 + tau / dt)

/-- One sample; `one_euro_filter.py:19–46`. A time that does not advance repeats the last
output and leaves the state alone. -/
def filter (self : OneEuroFilter R) (x t : R) : R × OneEuroFilter R :=
  match self.prev with
  | none => (x, { self with prev := some ⟨x, t⟩ })
  | some p =>
    let dt := t - p.tPrev
    if dt ≤ 0 then (p.xPrev, self)
    else
      let dx := (x - p.xPrev) / dt
      let alphaD := alpha self.dCutoff dt
      let dxHat := exponentialSmoothing alphaD dx self.dxPrev
      let cutoff := self.minCutoff + self.beta * |dxHat|
      let xHat := exponentialSmoothing (alpha cutoff dt) x p.xPrev
      (xHat, { self with prev := some ⟨xHat, t⟩, dxPrev := dxHat })

/-- The first sample passes through. -/
theorem filter_first (self : OneEuroFilter R) (x t : R) (h : self.prev = none) :
    self.filter x t = (x, { self with prev := some ⟨x, t⟩ }) := by
  simp only [filter, h]

/-- A clock that stands still or runs backwards changes nothing. -/
theorem filter_stale (self : OneEuroFilter R) (p : Sample R) (x t : R)
    (h : self.prev = some p) (ht : t ≤ p.tPrev) : self.filter x t = (p.xPrev, self) := by
  have hdt : t - p.tPrev ≤ 0 := sub_nonpos.mpr ht
  simp only [filter, h, hdt, ite_true]

/-- Parameters of a filter, without its samples. -/
def params (self : OneEuroFilter R) : R × R × R := (self.minCutoff, self.beta, self.dCutoff)

/-- A sample leaves the parameters alone. -/
theorem filter_params (self : OneEuroFilter R) (x t : R) :
    (self.filter x t).2.params = self.params := by
  unfold filter
  split
  · rfl
  · dsimp only
    split <;> rfl

end OneEuroFilter
end VisionGame.Vision
