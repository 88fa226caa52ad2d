import VisionGame.Vision.GestureAnalyzer

/-!
# Near and far hands are recognised alike

Library `Vision`. `src/mediapipe/gesture_analyzer.py:13–149`. A hand nearer to the camera, or
elsewhere in the image, has its landmarks scaled and shifted. Over the reals all distances are
scaled alike, so that their ratios to the scale of the hand, and the order of the heights, are
kept. Only the thresholds of a swipe are absolute, and a fresh analyzer sees none.
-/

namespace VisionGame.Vision
open VisionGame.Base
open GestureAnalyzer

/-- Change of the distance to the camera and of the place in the image. -/
structure Zoom where
  scale : ℝ
  pos : 0 < scale
  dx : ℝ
  dy : ℝ
  dz : ℝ

/-- A landmark, scaled and shifted. -/
noncomputable def Landmark.zoom (p : Landmark ℝ) (m : Zoom) : Landmark ℝ :=
  ⟨m.scale * p.x + m.dx, m.scale * p.y + m.dy, m.scale * p.z + m.dz⟩

/-- A hand, scaled and shifted. -/
noncomputable def HandLandmarks.zoom (lm : HandLandmarks ℝ) (m : Zoom) : HandLandmarks ℝ :=
  fun i ↦ (lm i).zoom m

/-! ### Distances -/

/-- Distances are scaled. -/
theorem getDistance_zoom (p q : Landmark ℝ) (m : Zoom) :
    getDistance (p.zoom m) (q.zoom m) = m.scale * getDistance p q := by
  have hsquares : (m.scale * p.x + m.dx - (m.scale * q.x + m.dx)) ^ 2 +
      (m.scale * p.y + m.dy - (m.scale * q.y + m.dy)) ^ 2 +
      (m.scale * p.z + m.dz - (m.scale * q.z + m.dz)) ^ 2 =
      m.scale ^ 2 * ((p.x - q.x) ^ 2 + (p.y - q.y) ^ 2 + (p.z - q.z) ^ 2) := by
    ring
  calc getDistance (p.zoom m) (q.zoom m)
      = √(m.scale ^ 2 * ((p.x - q.x) ^ 2 + (p.y - q.y) ^ 2 + (p.z - q.z) ^ 2)) :=
        congrArg Real.sqrt hsquares
    _ = √(m.scale ^ 2) * getDistance p q := Real.sqrt_mul (sq_nonneg m.scale) _
    _ = m.scale * getDistance p q := by rw [Real.sqrt_sq m.pos.le]

/-- Only a landmark itself is at distance zero. -/
theorem getDistance_eq_zero_iff (p q : Landmark ℝ) : getDistance p q = 0 ↔ p = q := by
  constructor
  · intro h
    have hsum : (p.x - q.x) ^ 2 + (p.y - q.y) ^ 2 + (p.z - q.z) ^ 2 = 0 :=
      (Real.sqrt_eq_zero (by positivity)).mp h
    have ⟨hxy, hz⟩ := (add_eq_zero_iff_of_nonneg (by positivity) (by positivity)).mp hsum
    have ⟨hx, hy⟩ := (add_eq_zero_iff_of_nonneg (by positivity) (by positivity)).mp hxy
    cases p
    cases q
    simp only [Landmark.mk.injEq]
    exact ⟨sub_eq_zero.mp (sq_eq_zero_iff.mp hx), sub_eq_zero.mp (sq_eq_zero_iff.mp hy),
      sub_eq_zero.mp (sq_eq_zero_iff.mp hz)⟩
  · rintro rfl
    have hsum : (p.x - p.x) ^ 2 + (p.y - p.y) ^ 2 + (p.z - p.z) ^ 2 = 0 := by ring
    exact (congrArg Real.sqrt hsum).trans Real.sqrt_zero

/-- The scale of a hand whose wrist is not its middle knuckle is their distance. -/
theorem handScale_of_ne {lm : HandLandmarks ℝ} (hne : lm 0 ≠ lm 9) :
    handScale lm = getDistance (lm 0) (lm 9) :=
  if_neg fun hzero ↦ hne ((getDistance_eq_zero_iff _ _).mp hzero)

/-- Landmarks that differ still do after a zoom. -/
theorem zoom_ne {p q : Landmark ℝ} (hne : p ≠ q) (m : Zoom) : p.zoom m ≠ q.zoom m := by
  intro heq
  have hzero : m.scale * getDistance p q = 0 := by
    rw [← getDistance_zoom, getDistance_eq_zero_iff, heq]
  exact hne ((getDistance_eq_zero_iff p q).mp ((mul_eq_zero_iff_left m.pos.ne').mp hzero))

/-- Distances relative to the scale of the hand are kept. -/
theorem ratio_zoom {lm : HandLandmarks ℝ} (hne : lm 0 ≠ lm 9) (m : Zoom) (i j : Fin 21) :
    getDistance (lm.zoom m i) (lm.zoom m j) / handScale (lm.zoom m) =
      getDistance (lm i) (lm j) / handScale lm := by
  have hscale : handScale (lm.zoom m) = m.scale * handScale lm :=
    calc handScale (lm.zoom m)
        = getDistance ((lm 0).zoom m) ((lm 9).zoom m) := handScale_of_ne (zoom_ne hne m)
      _ = m.scale * getDistance (lm 0) (lm 9) := getDistance_zoom _ _ m
      _ = m.scale * handScale lm := by rw [handScale_of_ne hne]
  have hdist : getDistance (lm.zoom m i) (lm.zoom m j) =
      m.scale * getDistance (lm i) (lm j) := getDistance_zoom _ _ m
  rw [hscale, hdist]
  exact mul_div_mul_left _ _ m.pos.ne'

/-! ### Fingers and gestures -/

/-- The order of the heights is kept. -/
theorem higher_zoom (lm : HandLandmarks ℝ) (m : Zoom) (i j : Fin 21) :
    (lm.zoom m i).y < (lm.zoom m j).y ↔ (lm i).y < (lm j).y := by
  simp only [HandLandmarks.zoom, Landmark.zoom, add_lt_add_iff_right]
  exact mul_lt_mul_iff_right₀ m.pos

/-- The states of the fingers are kept. -/
theorem fingers_zoom {lm : HandLandmarks ℝ} (hne : lm 0 ≠ lm 9) (m : Zoom) :
    fingers (lm.zoom m) = fingers lm := by
  simp only [fingers, higher_zoom, ratio_zoom hne]

/-- The static gesture is kept. -/
theorem staticGesture_zoom {lm : HandLandmarks ℝ} (hne : lm 0 ≠ lm 9) (m : Zoom) :
    staticGesture (lm.zoom m) = staticGesture lm := by
  simp only [staticGesture, fingers_zoom hne, ratio_zoom hne]

/-- A history that is not full shows no swipe. -/
theorem swipeOf_of_short {history : List (ℝ × ℝ)} (hshort : history.length ≠ historyLen) :
    swipeOf history = none := by
  cases hswipe : swipeOf history with
  | none => rfl
  | some g => exact absurd (swipeOf_length hswipe) hshort

/-- An analyzer far from a full history returns the static gesture. -/
theorem analyze_of_short {self : GestureAnalyzer ℝ}
    (hshort : self.wristHistory.length + 1 < historyLen) (lm : HandLandmarks ℝ) (label : String)
    (now : ℝ) :
    ((self.analyze lm label now).1.gesture, (self.analyze lm label now).1.action) =
      staticGesture lm := by
  have hpush : (pushWrist self.wristHistory ((lm 0).x, now)).length ≠ historyLen := by
    have hlen : (self.wristHistory ++ [((lm 0).x, now)]).length =
        self.wristHistory.length + 1 := by
      rw [List.length_append, List.length_singleton]
    rw [pushWrist, if_neg (by omega), hlen]
    exact hshort.ne
  simp only [analyze, swipeOf_of_short hpush]
  split
  · rfl
  · rfl

/-- The pinch distance is that between thumb and index tip, relative to the hand. -/
theorem analyze_pinchDist (self : GestureAnalyzer ℝ) (lm : HandLandmarks ℝ) (label : String)
    (now : ℝ) :
    (self.analyze lm label now).1.pinchDist = getDistance (lm 4) (lm 8) / handScale lm := by
  simp only [analyze]
  split
  · split
    · rfl
    · rfl
  · rfl

/-- A fresh analyzer returns the same gesture, action and pinch distance for a hand that is
scaled and shifted, whatever the label and the time, unless wrist and middle knuckle fall
together. -/
theorem analyze_zoomed (lm : HandLandmarks ℝ) (hne : lm 0 ≠ lm 9) (m : Zoom)
    (label label' : String) (now now' : ℝ) :
    let near := ((init : GestureAnalyzer ℝ).analyze (lm.zoom m) label' now').1
    let far := ((init : GestureAnalyzer ℝ).analyze lm label now).1
    near.gesture = far.gesture ∧ near.action = far.action ∧ near.pinchDist = far.pinchDist := by
  intro near far
  have hshort : (init : GestureAnalyzer ℝ).wristHistory.length + 1 < historyLen := by decide
  have hstatic : (near.gesture, near.action) = (far.gesture, far.action) :=
    calc (near.gesture, near.action)
        = staticGesture (lm.zoom m) := analyze_of_short hshort _ label' now'
      _ = staticGesture lm := staticGesture_zoom hne m
      _ = (far.gesture, far.action) := (analyze_of_short hshort lm label now).symm
  have hpinch : near.pinchDist = far.pinchDist :=
    calc near.pinchDist
        = getDistance (lm.zoom m 4) (lm.zoom m 8) / handScale (lm.zoom m) :=
          analyze_pinchDist init _ label' now'
      _ = getDistance (lm 4) (lm 8) / handScale lm := ratio_zoom hne m 4 8
      _ = far.pinchDist := (analyze_pinchDist init lm label now).symm
  exact ⟨congrArg Prod.fst hstatic, congrArg Prod.snd hstatic, hpinch⟩

/-- The clicking hand at half the distance, in another place. -/
theorem analyze_zoomed_clickPose :
    let near := ((init : GestureAnalyzer ℝ).analyze
      ((clickPose : HandLandmarks ℝ).zoom ⟨2, two_pos, -1, 1 / 2, 0⟩) "Left" 1).1
    let far := ((init : GestureAnalyzer ℝ).analyze clickPose "Right" 0).1
    near.gesture = far.gesture ∧ near.action = far.action ∧ near.pinchDist = far.pinchDist := by
  have hne : (clickPose : HandLandmarks ℝ) 0 ≠ clickPose 9 := by
    intro h
    exact one_ne_zero (congrArg Landmark.y h)
  exact analyze_zoomed clickPose hne _ "Right" "Left" 0 1

end VisionGame.Vision
