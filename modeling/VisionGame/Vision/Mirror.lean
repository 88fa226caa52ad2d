import VisionGame.Vision.GestureAnalyzer

/-!
# Left and right hands are recognised alike

Library `Vision`. `src/mediapipe/gesture_analyzer.py:13–149`. Mirroring an image exchanges left
and right. It keeps all distances, hence the fingers and the static gesture, and turns a movement
of the wrist around, so that an analyzer that has seen the mirrored images returns the mirrored
analyses.
-/

namespace VisionGame.Vision
open VisionGame.Base
open GestureAnalyzer

variable {R : Type} [Scalar R]

/-! ### Mirror images -/

/-- Mirror image of a landmark. -/
def Landmark.mirror (p : Landmark R) : Landmark R := { p with x := 1 - p.x }

/-- Mirror image of a hand. -/
def HandLandmarks.mirror (lm : HandLandmarks R) : HandLandmarks R := fun i ↦ (lm i).mirror

/-- The gesture with left and right exchanged. -/
def Gesture.mirror : Gesture → Gesture
  | swipeRight => swipeLeft
  | swipeLeft => swipeRight
  | g => g

/-- The action with left and right exchanged. -/
def Action.mirror : Action → Action
  | swipeRight => swipeLeft
  | swipeLeft => swipeRight
  | a => a

/-- The analysis of the mirror image. -/
def Analysis.mirror (a : Analysis R) : Analysis R :=
  { a with
    gesture := a.gesture.mirror
    action := a.action.map Action.mirror
    cursorX := 1 - a.cursorX }

/-- Mirror image of a wrist sample. -/
def mirrorSample (sample : R × R) : R × R := (1 - sample.1, sample.2)

/-- The analyzer that has seen the mirror images. -/
def GestureAnalyzer.mirror (self : GestureAnalyzer R) : GestureAnalyzer R :=
  ⟨self.wristHistory.map mirrorSample⟩

/-- A frame shows the mirror image of another at the same time, whatever the labels. -/
structure IsMirrored (frame frame' : Frame R) : Prop where
  landmarks : frame'.landmarks = frame.landmarks.mirror
  now : frame'.now = frame.now

/-! ### What a mirror keeps -/

/-- Distances are kept. -/
@[simp] theorem getDistance_mirror (lm : HandLandmarks R) (i j : Fin 21) :
    getDistance (lm.mirror i) (lm.mirror j) = getDistance (lm i) (lm j) := by
  have hx : ((lm.mirror i).x - (lm.mirror j).x) ^ 2 = ((lm i).x - (lm j).x) ^ 2 := by
    simp only [HandLandmarks.mirror, Landmark.mirror]
    ring
  simp only [getDistance, hx]
  rfl

/-- The scale of the hand is kept. -/
@[simp] theorem handScale_mirror (lm : HandLandmarks R) : handScale lm.mirror = handScale lm := by
  simp only [handScale, getDistance_mirror]

/-- The states of the fingers are kept. -/
@[simp] theorem fingers_mirror (lm : HandLandmarks R) : fingers lm.mirror = fingers lm := by
  have hthumb : getDistance (lm.mirror 4) (lm.mirror 5) / handScale lm.mirror =
      getDistance (lm 4) (lm 5) / handScale lm := by
    rw [getDistance_mirror, handScale_mirror]
  unfold fingers
  rw [hthumb]
  rfl

/-- The pose of the swipes is kept. -/
@[simp] theorem fourFingersUp_mirror (lm : HandLandmarks R) :
    fourFingersUp lm.mirror = fourFingersUp lm := by
  simp only [fourFingersUp, fingers_mirror]

/-- The static gesture is kept. -/
@[simp] theorem staticGesture_mirror (lm : HandLandmarks R) :
    staticGesture lm.mirror = staticGesture lm := by
  simp only [staticGesture, fingers_mirror, handScale_mirror, getDistance_mirror]

/-- A static gesture is its own mirror image. -/
theorem staticGesture_mirror_self (lm : HandLandmarks R) :
    (staticGesture lm).1.mirror = (staticGesture lm).1 ∧
      (staticGesture lm).2.map Action.mirror = (staticGesture lm).2 := by
  simp only [staticGesture]
  repeat' split
  all_goals exact ⟨rfl, rfl⟩

/-! ### What a mirror exchanges -/

/-- Mirroring commutes with appending a sample. -/
theorem pushWrist_mirror (history : List (R × R)) (sample : R × R) :
    pushWrist (history.map mirrorSample) (mirrorSample sample) =
      (pushWrist history sample).map mirrorSample := by
  simp only [pushWrist, List.length_append, List.length_map, List.length_singleton]
  split
  · rw [List.map_drop, List.map_append, List.map_singleton]
  · rw [List.map_append, List.map_singleton]

/-- A mirrored history shows the swipe to the other side. -/
theorem swipeOf_mirror (history : List (R × R)) :
    swipeOf (history.map mirrorSample) =
      (swipeOf history).map fun g ↦ (g.1.mirror, g.2.mirror) := by
  simp only [swipeOf, List.head?_map, List.getLast?_map, List.length_map]
  cases hfirst : history.head? with
  | none => rfl
  | some first =>
    cases hlast : history.getLast? with
    | none => rfl
    | some last =>
      have hdx : (mirrorSample last).1 - (mirrorSample first).1 = -(last.1 - first.1) := by
        simp only [mirrorSample]
        ring
      have hdt : (mirrorSample last).2 - (mirrorSample first).2 = last.2 - first.2 := rfl
      dsimp only [Option.map_some]
      rw [hdx, hdt, neg_div, abs_neg, abs_neg]
      by_cases hlen : history.length = historyLen
      · rw [if_pos hlen, if_pos hlen]
        split
        · next hmoved =>
          -- a movement of some length is not to both sides, and not to none
          have hne : last.1 - first.1 ≠ 0 := by
            intro hzero
            have hfar := hmoved.2.2
            rw [hzero, abs_zero, swipeMinDist] at hfar
            exact absurd hfar (by norm_num)
          rcases lt_or_gt_of_ne hne with hneg | hpos
          · rw [if_pos (neg_pos.mpr hneg), if_neg hneg.not_gt]
            rfl
          · rw [if_neg (neg_neg_of_pos hpos).not_gt, if_pos hpos]
            rfl
        · rfl
      · rw [if_neg hlen, if_neg hlen]
        rfl

/-- The mirrored analyzer does to a mirror image what the analyzer does to the image. -/
theorem analyze_mirror (self : GestureAnalyzer R) (lm : HandLandmarks R) (label label' : String)
    (now : R) :
    self.mirror.analyze lm.mirror label' now =
      ((self.analyze lm label now).1.mirror, (self.analyze lm label now).2.mirror) := by
  have ⟨hgesture, haction⟩ := staticGesture_mirror_self lm
  have hpush : pushWrist self.mirror.wristHistory ((lm.mirror 0).x, now) =
      (pushWrist self.wristHistory ((lm 0).x, now)).map mirrorSample :=
    pushWrist_mirror self.wristHistory ((lm 0).x, now)
  simp only [analyze, fourFingersUp_mirror, staticGesture_mirror, handScale_mirror, hpush,
    swipeOf_mirror, getDistance_mirror]
  split
  · cases hswipe : swipeOf (pushWrist self.wristHistory ((lm 0).x, now)) with
    | none =>
      simp only [Option.map_none, Analysis.mirror, hgesture, haction]
      rfl
    | some g => rfl
  · simp only [Analysis.mirror, hgesture, haction]
    rfl

/-! ### Sequences of images -/

/-- An analyzer that sees the mirror images at the same times, under any labels, returns the
mirrored analyses. -/
theorem analyses_mirrored {frames frames' : List (Frame R)}
    (h : List.Forall₂ IsMirrored frames frames') :
    List.Forall₂ (fun t t' : AnalyzeTurn R ↦ t'.result = t.result.mirror)
      (analyzerMachine.trace init frames) (analyzerMachine.trace init frames') := by
  apply analyzerMachine.forall₂_trace analyzerMachine
    (I := fun self self' ↦ self' = self.mirror) (J := IsMirrored)
  · rintro self self' frame frame' rfl ⟨hlandmarks, hnow⟩
    simp only [analyzerMachine, hlandmarks, hnow]
    rw [analyze_mirror self frame.landmarks frame.label]
  · rintro self self' frame frame' rfl ⟨hlandmarks, hnow⟩
    simp only [analyzerMachine, hlandmarks, hnow]
    rw [analyze_mirror self frame.landmarks frame.label]
    exact .some rfl
  · exact h
  · rfl

/-- The swipe of ten frames and its mirror image. -/
theorem analyses_mirrored_tenFrames :
    List.Forall₂ (fun t t' : AnalyzeTurn ℚ ↦ t'.result = t.result.mirror)
      (analyzerMachine.trace init tenFrames)
      (analyzerMachine.trace init
        (tenFrames.map fun frame ↦ ⟨frame.landmarks.mirror, "Left", frame.now⟩)) := by
  apply analyses_mirrored
  rw [List.forall₂_map_right_iff]
  exact List.forall₂_same.mpr fun _ _ ↦ ⟨rfl, rfl⟩

end VisionGame.Vision
