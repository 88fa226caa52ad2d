import VisionGame.Base.Segment
import VisionGame.Vision.FilterSpec

/-!
# Runs of the 1-Euro filter

Library `Vision`. `src/mediapipe/one_euro_filter.py:3–46`. A filter is fed samples with their
times. A change of sign, position and time of all samples changes the outputs alike, because it
is a change of the state that every sample keeps. A larger cutoff smooths less, so that each
sample of an interval takes the output toward it at least as far as the fixed cutoff would.
-/

namespace VisionGame.Vision.OneEuroFilter
open VisionGame.Base

variable {R : Type} [Scalar R]

/-- Outputs for samples with their times. -/
def outputs (self : OneEuroFilter R) : List (R × R) → List R
  | [] => []
  | (x, t) :: samples => (self.filter x t).1 :: (self.filter x t).2.outputs samples

/-- Outputs, with divisions that raise. -/
def outputsChecked (self : OneEuroFilter R) : List (R × R) → Except PyError (List R)
  | [] => .ok []
  | (x, t) :: samples => do
    let r ← self.filterChecked x t
    let ys ← r.2.outputsChecked samples
    .ok (r.1 :: ys)

/-- Every sample has its output. -/
theorem length_outputs (self : OneEuroFilter R) (samples : List (R × R)) :
    (self.outputs samples).length = samples.length := by
  induction samples generalizing self with
  | nil => rfl
  | cons p samples ih => rw [outputs, List.length_cons, List.length_cons, ih]

/-- A positively tuned filter never divides by zero, whatever it is fed. -/
theorem outputsChecked_ok (hpi : 0 < (Scalar.pi : R)) {self : OneEuroFilter R} (h : self.Tuned)
    (samples : List (R × R)) : self.outputsChecked samples = .ok (self.outputs samples) := by
  induction samples generalizing self with
  | nil => rfl
  | cons p samples ih =>
    have htail := ih ((self.filter_keeps p.1 p.2).1 h)
    simp only [outputsChecked, outputs]
    rw [filterChecked_ok hpi h]
    simp only [bind, Except.bind]
    rw [htail]

/-! ### Equivariance -/

/-- A state seen with another sign, offset and time origin. -/
def move (a c s : R) (self : OneEuroFilter R) : OneEuroFilter R :=
  { self with
    prev := self.prev.map fun p ↦ ⟨a * p.xPrev + c, p.tPrev + s⟩
    dxPrev := a * self.dxPrev }

private theorem exponentialSmoothing_mul_add (alpha a c x xPrev : R) :
    exponentialSmoothing alpha (a * x + c) (a * xPrev + c) =
      a * exponentialSmoothing alpha x xPrev + c := by
  simp only [exponentialSmoothing]
  ring

private theorem exponentialSmoothing_mul (alpha a x xPrev : R) :
    exponentialSmoothing alpha (a * x) (a * xPrev) = a * exponentialSmoothing alpha x xPrev := by
  simp only [exponentialSmoothing]
  ring

/-- A moved filter does to a moved sample what the filter does to the sample. -/
theorem filter_move {a : R} (ha : |a| = 1) (c s : R) (self : OneEuroFilter R) (x t : R) :
    (self.move a c s).filter (a * x + c) (t + s) =
      (a * (self.filter x t).1 + c, (self.filter x t).2.move a c s) := by
  cases hp : self.prev with
  | none =>
    have hmoved : (self.move a c s).prev = none := by
      simp only [move, hp, Option.map_none]
    rw [filter_first _ _ _ hmoved, filter_first _ _ _ hp]
    simp only [move, Option.map_some]
  | some p =>
    have hmoved : (self.move a c s).prev = some ⟨a * p.xPrev + c, p.tPrev + s⟩ := by
      simp only [move, hp, Option.map_some]
    have hdt : t + s - (p.tPrev + s) = t - p.tPrev := add_sub_add_right_eq_sub t p.tPrev s
    by_cases hstale : t ≤ p.tPrev
    · rw [filter_stale _ _ _ _ hmoved (add_le_add_left hstale s), filter_stale _ _ _ _ hp hstale]
    · have hfresh : ¬ t - p.tPrev ≤ 0 := fun h ↦ hstale (sub_nonpos.mp h)
      have hdx : (a * x + c - (a * p.xPrev + c)) / (t - p.tPrev) =
          a * ((x - p.xPrev) / (t - p.tPrev)) := by ring
      -- the derivative keeps its absolute value, so the cutoff is the same
      have hcutoff (dxHat : R) : |a * dxHat| = |dxHat| := by rw [abs_mul, ha, one_mul]
      simp only [filter, hmoved, hp, hdt, if_neg hfresh, hdx]
      simp only [move, exponentialSmoothing_mul, hcutoff, exponentialSmoothing_mul_add,
        Option.map_some]

/-- A moved filter fed moved samples returns moved outputs. -/
theorem outputs_move {a : R} (ha : |a| = 1) (c s : R) (self : OneEuroFilter R)
    (samples : List (R × R)) :
    (self.move a c s).outputs (samples.map fun p ↦ (a * p.1 + c, p.2 + s)) =
      (self.outputs samples).map fun y ↦ a * y + c := by
  induction samples generalizing self with
  | nil => rfl
  | cons p samples ih =>
    simp only [List.map_cons, outputs]
    rw [filter_move ha, ih]

/-- A fresh filter looks the same from everywhere. -/
theorem move_init (a c s minCutoff beta dCutoff : R) :
    (init minCutoff beta dCutoff).move a c s = init minCutoff beta dCutoff := by
  simp only [move, init, Option.map_none, mul_zero]

/-- Samples that are mirrored or not, shifted in position and in time, give the outputs
mirrored or not and shifted in position. -/
theorem outputs_equivariant {minCutoff beta dCutoff : ℝ} (hmin : 0 < minCutoff) (hbeta : 0 ≤ beta)
    (hd : 0 < dCutoff) {a : ℝ} (ha : a = 1 ∨ a = -1) (c s : ℝ) (samples : List (ℝ × ℝ)) :
    ∃ ys, (init minCutoff beta dCutoff).outputsChecked samples = .ok ys ∧
      ys.length = samples.length ∧
      (init minCutoff beta dCutoff).outputsChecked
        (samples.map fun p ↦ (a * p.1 + c, p.2 + s)) = .ok (ys.map fun y ↦ a * y + c) := by
  have hpi : 0 < (Scalar.pi : ℝ) := Real.pi_pos
  have htuned : (init minCutoff beta dCutoff).Tuned := ⟨hmin, hbeta, hd⟩
  have habs : |a| = 1 := (abs_eq zero_le_one).mpr ha
  refine ⟨(init minCutoff beta dCutoff).outputs samples, ?_, length_outputs _ samples, ?_⟩
  · exact outputsChecked_ok hpi htuned samples
  · rw [outputsChecked_ok hpi htuned, ← outputs_move habs c s, move_init]

/-- A step to the left, ten seconds later, from a sample in the middle. -/
theorem outputs_equivariant_mirrored :
    ∃ ys, (init 1 (7 / 1000) 1).outputsChecked [((0 : ℝ), 0), (1, 1), (1, 1 / 2)] = .ok ys ∧
      ys.length = 3 ∧
      (init 1 (7 / 1000) 1).outputsChecked
        ([((0 : ℝ), 0), (1, 1), (1, 1 / 2)].map fun p ↦ (-1 * p.1 + 5, p.2 + 10)) =
          .ok (ys.map fun y ↦ -1 * y + 5) :=
  outputs_equivariant one_pos (by norm_num) one_pos (.inr rfl) 5 10 _

/-! ### Convergence -/

private theorem alpha_le_alpha (hpi : 0 < (Scalar.pi : R)) {cutoff cutoff' dt : R} (hc : 0 < cutoff)
    (hle : cutoff ≤ cutoff') (hdt : 0 < dt) : alpha cutoff dt ≤ alpha cutoff' dt := by
  have hc' : 0 < cutoff' := hc.trans_le hle
  have htau : 1 / (2 * Scalar.pi * cutoff') ≤ 1 / (2 * Scalar.pi * cutoff) := by gcongr
  have hsteps : 0 < 1 / (2 * Scalar.pi * cutoff') / dt := by positivity
  simp only [alpha]
  gcongr

/-- Samples with the times that their time steps lead to. -/
def timed (t : R) : List (R × R) → List (R × R)
  | [] => []
  | (x, dt) :: steps => (x, t + dt) :: timed (t + dt) steps

private theorem length_timed (t : R) (steps : List (R × R)) :
    (timed t steps).length = steps.length := by
  induction steps generalizing t with
  | nil => rfl
  | cons step steps ih => rw [timed, List.length_cons, List.length_cons, ih]

/-- Part of its distance that the fixed cutoff leaves in a time step. -/
noncomputable def fixedRest (minCutoff dt : ℝ) : ℝ :=
  1 - 1 / (1 + 1 / (2 * Real.pi * minCutoff * dt))

/-- The fixed cutoff smooths with the smallest factor. -/
theorem fixedRest_eq (minCutoff dt : ℝ) : fixedRest minCutoff dt = 1 - alpha minCutoff dt := by
  simp only [fixedRest, alpha, div_div]
  rfl

/-- One sample of an interval brings the output at least as much nearer to it as the fixed
cutoff would, whatever the smoothed derivative. -/
theorem infDist_filter_le {self : OneEuroFilter ℝ} (h : self.Tuned) {p : Sample ℝ}
    (hp : self.prev = some p) {I : Set ℝ} (hI : I.OrdConnected) {x : ℝ} (hx : x ∈ I) {dt : ℝ}
    (hdt : 0 < dt) :
    Metric.infDist (self.filter x (p.tPrev + dt)).1 I ≤
      fixedRest self.minCutoff dt * Metric.infDist p.xPrev I := by
  have hpi : 0 < (Scalar.pi : ℝ) := Real.pi_pos
  have hstep : p.tPrev + dt - p.tPrev = dt := add_sub_cancel_left _ _
  simp only [filter, hp, hstep, if_neg (not_le.mpr hdt)]
  -- the derivative enters through the cutoff only, and can only enlarge it
  generalize exponentialSmoothing _ _ self.dxPrev = dxHat
  have hcutoff : self.minCutoff ≤ self.minCutoff + self.beta * |dxHat| :=
    le_add_of_nonneg_right (mul_nonneg h.beta (abs_nonneg dxHat))
  have hline : exponentialSmoothing (alpha (self.minCutoff + self.beta * |dxHat|) dt) x p.xPrev =
      AffineMap.lineMap p.xPrev x (alpha (self.minCutoff + self.beta * |dxHat|) dt) := by
    rw [AffineMap.lineMap_apply_module, exponentialSmoothing, smul_eq_mul, smul_eq_mul, add_comm]
  rw [hline, fixedRest_eq]
  refine (infDist_lineMap_le hI.convex p.xPrev hx (alpha_mem_Ioo hpi (h.cutoff_pos _) hdt)).trans ?_
  refine mul_le_mul_of_nonneg_right ?_ Metric.infDist_nonneg
  exact sub_le_sub_left (alpha_le_alpha hpi h.minCutoff hcutoff hdt) 1

private theorem filter_fresh {self : OneEuroFilter R} {p : Sample R} (hp : self.prev = some p)
    (x : R) {dt : R} (hdt : 0 < dt) :
    (self.filter x (p.tPrev + dt)).2.prev =
        some ⟨(self.filter x (p.tPrev + dt)).1, p.tPrev + dt⟩ ∧
      (self.filter x (p.tPrev + dt)).2.minCutoff = self.minCutoff := by
  have hstep : p.tPrev + dt - p.tPrev = dt := add_sub_cancel_left _ _
  simp only [filter, hp, hstep, if_neg (not_le.mpr hdt), and_self]

private theorem infDist_outputs_le {self : OneEuroFilter ℝ} (h : self.Tuned) {p : Sample ℝ}
    (hp : self.prev = some p) {I : Set ℝ} (hI : I.OrdConnected) {steps : List (ℝ × ℝ)}
    (hsteps : ∀ step ∈ steps, step.1 ∈ I ∧ 0 < step.2) :
    Metric.infDist ((self.outputs (timed p.tPrev steps)).getLastD p.xPrev) I ≤
      (steps.map fun step ↦ fixedRest self.minCutoff step.2).prod * Metric.infDist p.xPrev I := by
  induction steps generalizing self p with
  | nil =>
    simp only [timed, outputs, List.getLastD_nil, List.map_nil, List.prod_nil, one_mul, le_refl]
  | cons step steps ih =>
    have ⟨⟨hx, hdt⟩, htail⟩ := List.forall_mem_cons.mp hsteps
    have ⟨hprev, hmin⟩ := filter_fresh hp step.1 hdt
    have hrest := ih ((self.filter_keeps _ _).1 h) hprev htail
    have hfactor : 0 ≤ (steps.map fun step ↦ fixedRest self.minCutoff step.2).prod := by
      apply List.prod_nonneg
      intro r hr
      have ⟨later, hlater, heq⟩ := List.mem_map.mp hr
      rw [← heq, fixedRest_eq, sub_nonneg]
      exact (alpha_mem_Ioo Real.pi_pos h.minCutoff (htail later hlater).2).2.le
    rw [hmin] at hrest
    simp only [timed, outputs, List.getLastD_cons, List.map_cons, List.prod_cons]
    calc _ ≤ _ := hrest
      _ ≤ (steps.map fun step ↦ fixedRest self.minCutoff step.2).prod *
          (fixedRest self.minCutoff step.2 * Metric.infDist p.xPrev I) :=
        mul_le_mul_of_nonneg_left (infDist_filter_le h hp hI hx hdt) hfactor
      _ = _ := by ring

/-- From any state that has an output, samples of an interval bring the output toward it at
least as fast as the fixed cutoff. -/
theorem outputs_converge {minCutoff beta dCutoff : ℝ} (hmin : 0 < minCutoff) (hbeta : 0 ≤ beta)
    (hd : 0 < dCutoff) (x₀ t₀ dxPrev : ℝ) {I : Set ℝ} (hI : I.OrdConnected)
    {steps : List (ℝ × ℝ)} (hsteps : ∀ step ∈ steps, step.1 ∈ I ∧ 0 < step.2) :
    ∃ ys, outputsChecked ⟨minCutoff, beta, dCutoff, some ⟨x₀, t₀⟩, dxPrev⟩ (timed t₀ steps) =
        .ok ys ∧ ys.length = steps.length ∧
      Metric.infDist (ys.getLastD x₀) I ≤
        (steps.map fun step ↦ 1 - 1 / (1 + 1 / (2 * Real.pi * minCutoff * step.2))).prod *
          Metric.infDist x₀ I := by
  have htuned : Tuned ⟨minCutoff, beta, dCutoff, some ⟨x₀, t₀⟩, dxPrev⟩ := ⟨hmin, hbeta, hd⟩
  refine ⟨_, outputsChecked_ok Real.pi_pos htuned _, ?_, infDist_outputs_le htuned rfl hI hsteps⟩
  rw [length_outputs, length_timed]

/-- Two samples of the unit interval, fed to a filter that starts at 3. -/
theorem outputs_converge_towardUnit :
    ∃ ys, outputsChecked ⟨1, 7 / 1000, 1, some ⟨3, 0⟩, -2⟩ (timed (0 : ℝ) [(1, 1), (0, 1 / 2)]) =
        .ok ys ∧ ys.length = 2 ∧
      Metric.infDist (ys.getLastD 3) (Set.Icc (0 : ℝ) 1) ≤
        ([((1 : ℝ), (1 : ℝ)), (0, 1 / 2)].map fun step ↦
          1 - 1 / (1 + 1 / (2 * Real.pi * 1 * step.2))).prod *
            Metric.infDist 3 (Set.Icc (0 : ℝ) 1) := by
  apply outputs_converge one_pos (by norm_num) one_pos 3 0 (-2) Set.ordConnected_Icc
  simp only [List.forall_mem_cons, Set.mem_Icc]
  norm_num

end VisionGame.Vision.OneEuroFilter
