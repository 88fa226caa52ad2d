import VisionGame.Base.Machine
import VisionGame.Base.Scalar

/-!
# The gesture analyzer

Library `Vision`. `src/mediapipe/gesture_analyzer.py`. One call maps 21 hand landmarks to a
gesture and an action; the only state kept between calls is the history of wrist positions
from which swipes are detected.
-/

namespace VisionGame.Vision
open VisionGame.Base

/-- Hand landmark in normalised image coordinates; smaller `y` is higher. -/
structure Landmark (R : Type) where
  x : R
  y : R
  z : R
  deriving DecidableEq

instance neZero_landmarks : NeZero 21 := ⟨by decide⟩

/-- The 21 landmarks of a hand. -/
abbrev HandLandmarks (R : Type) := Fin 21 → Landmark R

/-- Values of the `gesture` field. -/
inductive Gesture where
  | none
  | pointer
  | click
  | rightClick
  | vSign
  | openPalm
  | fourFingers
  | fist
  | swipeRight
  | swipeLeft
  deriving DecidableEq, Repr

/-- Values of the `action` field other than `None`. -/
inductive Action where
  | moveMouse
  | click
  | rightClick
  | drag
  | hover
  | showDesktop
  | swipeRight
  | swipeLeft
  deriving DecidableEq, Repr

/-- Text of a gesture as the source writes it. -/
def Gesture.name : Gesture → String
  | none => "NONE"
  | pointer => "POINTER"
  | click => "CLICK"
  | rightClick => "RIGHT_CLICK"
  | vSign => "V_SIGN"
  | openPalm => "OPEN_PALM"
  | fourFingers => "FOUR_FINGERS"
  | fist => "FIST"
  | swipeRight => "SWIPE_RIGHT"
  | swipeLeft => "SWIPE_LEFT"

/-- Text of an action as the source writes it. -/
def Action.name : Action → String
  | moveMouse => "MOVE_MOUSE"
  | click => "CLICK"
  | rightClick => "RIGHT_CLICK"
  | drag => "DRAG"
  | hover => "HOVER"
  | showDesktop => "SHOW_DESKTOP"
  | swipeRight => "SWIPE_RIGHT"
  | swipeLeft => "SWIPE_LEFT"

/-- Result of `analyze`; `gesture_analyzer.py:142–149`. -/
structure Analysis (R : Type) where
  gesture : Gesture
  action : Option Action
  cursorX : R
  cursorY : R
  wristY : R
  pinchDist : R

/-- Analyzer state: wrist positions with their times, oldest first;
`gesture_analyzer.py:5–11`. -/
structure GestureAnalyzer (R : Type) where
  wristHistory : List (R × R)

namespace GestureAnalyzer

/-- `self.history_len`; `gesture_analyzer.py:9`. -/
def historyLen : ℕ := 10

variable {R : Type} [Scalar R]

/-- Fresh analyzer; `gesture_analyzer.py:5–11`. -/
def init : GestureAnalyzer R := ⟨[]⟩

/-- `self.swipe_threshold_speed`; `gesture_analyzer.py:10`. -/
def swipeThresholdSpeed : R := 0.6

/-- `self.swipe_min_dist`; `gesture_analyzer.py:11`. -/
def swipeMinDist : R := 0.15

/-- `gesture_analyzer.py:13–15`. -/
def getDistance (p q : Landmark R) : R :=
  Scalar.sqrt ((p.x - q.x) ^ 2 + (p.y - q.y) ^ 2 + (p.z - q.z) ^ 2)

/-- Distance between wrist and middle knuckle, never zero; `gesture_analyzer.py:28–32`. -/
def handScale (lm : HandLandmarks R) : R :=
  let scale := getDistance (lm 0) (lm 9)
  if scale = 0 then 0.1 else scale

/-- Finger states; `gesture_analyzer.py:34–48`. -/
structure Fingers where
  index : Bool
  middle : Bool
  ring : Bool
  pinky : Bool
  thumb : Bool
  deriving DecidableEq, Repr

/-- `gesture_analyzer.py:34–45`. -/
def fingers (lm : HandLandmarks R) : Fingers where
  index := (lm 8).y < (lm 6).y
  middle := (lm 12).y < (lm 10).y
  ring := (lm 16).y < (lm 14).y
  pinky := (lm 20).y < (lm 18).y
  thumb := getDistance (lm 4) (lm 5) / handScale lm > 1

/-- `fingers_up_count`; `gesture_analyzer.py:47–48`. -/
def Fingers.upCount (f : Fingers) : ℕ :=
  f.index.toNat + f.middle.toNat + f.ring.toNat + f.pinky.toNat

/-- The pose of the swipe gestures: four fingers up, thumb closed;
`gesture_analyzer.py:98,109`. -/
def fourFingersUp (lm : HandLandmarks R) : Bool :=
  (fingers lm).upCount = 4 ∧ ¬ (fingers lm).thumb

/-- Static gesture and action; `gesture_analyzer.py:50–105`. -/
def staticGesture (lm : HandLandmarks R) : Gesture × Option Action :=
  let f := fingers lm
  let isPinchingIndex := getDistance (lm 4) (lm 8) / handScale lm < 0.35
  let isPinchingRing := getDistance (lm 4) (lm 16) / handScale lm < 0.35
  if f.index ∧ ¬ f.middle ∧ ¬ f.ring ∧ ¬ f.pinky then
    if isPinchingIndex then (.click, some .click)
    else if isPinchingRing then (.rightClick, some .rightClick)
    else (.pointer, some .moveMouse)
  else if f.index ∧ f.middle ∧ ¬ f.ring ∧ ¬ f.pinky then
    (.vSign, some (if isPinchingIndex then .drag else .moveMouse))
  else if f.upCount = 4 ∧ f.thumb then (.openPalm, some .hover)
  else if f.upCount = 4 ∧ ¬ f.thumb then (.fourFingers, some .hover)
  else if f.upCount = 0 ∧ ¬ f.thumb then (.fist, some .showDesktop)
  else (.none, none)

/-- Append a wrist sample and drop the oldest one beyond ten; `gesture_analyzer.py:112–115`. -/
def pushWrist (history : List (R × R)) (sample : R × R) : List (R × R) :=
  let history := history ++ [sample]
  if history.length > historyLen then history.drop 1 else history

/-- Direction of a swipe shown by a full history; `gesture_analyzer.py:117–136`. -/
def swipeOf (history : List (R × R)) : Option (Gesture × Action) :=
  match history.head?, history.getLast? with
  | some first, some last =>
    if history.length = historyLen then
      let dx := last.1 - first.1
      let dt := last.2 - first.2
      if dt > 0 ∧ |dx / dt| > swipeThresholdSpeed ∧ |dx| > swipeMinDist then
        some (if dx > 0 then (.swipeRight, .swipeRight) else (.swipeLeft, .swipeLeft))
      else none
    else none
  | _, _ => none

/-- One call; `gesture_analyzer.py:21–149`. The handedness label is not looked at. -/
def analyze (self : GestureAnalyzer R) (lm : HandLandmarks R) (_handedness : String) (now : R) :
    Analysis R × GestureAnalyzer R :=
  let result (g : Gesture) (a : Option Action) : Analysis R :=
    { gesture := g, action := a, cursorX := (lm 5).x, cursorY := (lm 5).y,
      wristY := (lm 0).y, pinchDist := getDistance (lm 4) (lm 8) / handScale lm }
  let static := staticGesture lm
  if fourFingersUp lm then
    let history := pushWrist self.wristHistory ((lm 0).x, now)
    match swipeOf history with
    | some (g, a) => (result g (some a), ⟨[]⟩)
    | none => (result static.1 static.2, ⟨history⟩)
  else (result static.1 static.2, ⟨[]⟩)

/-! ### When a swipe is returned -/

/-- Wrist position of a hand with the time of its analysis. -/
def wristSample (lm : HandLandmarks R) (now : R) : R × R := ((lm 0).x, now)

/-- Values of the `gesture` field that mean a swipe. -/
def isSwipe : Gesture → Bool
  | .swipeRight | .swipeLeft => true
  | _ => false

/-- A static gesture is no swipe. -/
theorem staticGesture_not_swipe (lm : HandLandmarks R) : isSwipe (staticGesture lm).1 = false := by
  simp only [staticGesture]
  repeat' split
  all_goals rfl

/-- A swipe is only shown by a full history. -/
theorem swipeOf_length {history : List (R × R)} {g : Gesture × Action}
    (h : swipeOf history = some g) : history.length = historyLen := by
  simp only [swipeOf] at h
  split at h
  · split at h
    · next hlen => exact hlen
    · cases h
  · cases h

/-- A swipe comes from ten samples ending with one of a hand in the pose. -/
theorem analyze_swipe {self : GestureAnalyzer R} {lm : HandLandmarks R} {hand : String} {now : R}
    (h : isSwipe (self.analyze lm hand now).1.gesture = true) :
    fourFingersUp lm = true ∧
      (pushWrist self.wristHistory (wristSample lm now)).length = historyLen := by
  have hstatic := staticGesture_not_swipe lm
  simp only [analyze] at h
  split at h
  · next hup =>
    split at h
    · next g a hswipe => exact ⟨hup, swipeOf_length hswipe⟩
    · rw [hstatic] at h
      cases h
  · rw [hstatic] at h
    cases h

/-- An analysis empties the history, or appends a sample of a hand in the pose. -/
theorem analyze_history (self : GestureAnalyzer R) (lm : HandLandmarks R) (hand : String)
    (now : R) :
    (self.analyze lm hand now).2.wristHistory = [] ∨
      (fourFingersUp lm = true ∧ (self.analyze lm hand now).2.wristHistory =
        pushWrist self.wristHistory (wristSample lm now)) := by
  simp only [analyze]
  split
  · next hup =>
    split
    · exact Or.inl rfl
    · exact Or.inr ⟨hup, rfl⟩
  · exact Or.inl rfl

/-! ### Sequences of calls -/

/-- Arguments of a call and the time it reads. -/
structure Frame (R : Type) where
  landmarks : HandLandmarks R
  label : String
  now : R

/-- A call between the analyzers before and after it. -/
structure AnalyzeTurn (R : Type) where
  frame : Frame R
  before : GestureAnalyzer R
  result : Analysis R
  after : GestureAnalyzer R

/-- The analyzer as a machine. -/
def analyzerMachine : Machine (GestureAnalyzer R) (Frame R) (AnalyzeTurn R) where
  step self frame :=
    let r := self.analyze frame.landmarks frame.label frame.now
    ⟨frame, self, r.1, r.2⟩
  next t := some t.after

/-! ### Hands to run the analyzer on -/

/-- A closed-thumb hand at a horizontal position with the given fingers up; when it pinches,
the thumb touches the index tip. Every distance it needs is rational. -/
def handPose (f : Fingers) (pinch : Bool) (x : R) : HandLandmarks R := fun i ↦
  let tip (up : Bool) : Landmark R := ⟨x, if up then 0 else 1, 0⟩
  match i with
  | 0 => ⟨x, 1, 0⟩
  | 4 => if pinch then tip f.index else ⟨x, 1 / 2, 0⟩
  | 8 => tip f.index
  | 9 => ⟨x, 0, 0⟩
  | 12 => tip f.middle
  | 16 => tip f.ring
  | 20 => tip f.pinky
  | _ => ⟨x, 1 / 2, 0⟩

/-- Index and thumb meet: a click. -/
def clickPose : HandLandmarks R := handPose ⟨true, false, false, false, false⟩ true (1 / 2)

/-- Index and middle finger up, index and thumb meet: a drag. -/
def dragPose : HandLandmarks R := handPose ⟨true, true, false, false, false⟩ true (1 / 2)

/-- Four fingers up at a horizontal position, thumb closed. -/
def fourFingersPose (x : R) : HandLandmarks R :=
  handPose ⟨true, true, true, true, false⟩ false x

/-- Ten frames of a hand that moves to the right. -/
def tenFrames : List (Frame ℚ) :=
  (List.range 10).map fun i ↦ ⟨fourFingersPose (i / 20), "Right", i / 100⟩

example : (staticGesture (clickPose (R := ℚ))).2 = some .click := by decide +kernel

example : (staticGesture (dragPose (R := ℚ))).2 = some .drag := by decide +kernel

example : fourFingersUp (fourFingersPose (1 / 2 : ℚ)) = true := by decide +kernel

end GestureAnalyzer
end VisionGame.Vision
