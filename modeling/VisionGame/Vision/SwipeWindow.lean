import VisionGame.Base.Window
import VisionGame.Vision.GestureAnalyzer

/-!
# The sliding window behind the swipes

Library `Vision`. `src/mediapipe/gesture_analyzer.py:5–11,107–149`. The wrist history is the end
of a log that it does not keep: the samples of all calls since the last one that was not in the
pose or was a swipe. A swipe is a window of ten of them that moved far and fast enough.
-/

namespace VisionGame.Vision.GestureAnalyzer
open VisionGame.Base

variable {R : Type} [Scalar R]

/-! ### Specification -/

/-- Wrist sample of a call. -/
def AnalyzeTurn.sample (t : AnalyzeTurn R) : R × R := wristSample t.frame.landmarks t.frame.now

/-- The call is in the pose of the swipes. -/
def AnalyzeTurn.posed (t : AnalyzeTurn R) : Bool := fourFingersUp t.frame.landmarks

/-- The call returned a swipe. -/
def AnalyzeTurn.swiped (t : AnalyzeTurn R) : Bool := isSwipe t.result.gesture

/-- The call is in the pose and no swipe. -/
def AnalyzeTurn.continues (t : AnalyzeTurn R) : Bool := t.posed && !t.swiped

/-- Wrist samples of the calls since the last one that was not in the pose or was a swipe. -/
def samplesSince (past : List (AnalyzeTurn R)) : List (R × R) :=
  (past.rtakeWhile AnalyzeTurn.continues).map AnalyzeTurn.sample

/-- The movement from one sample to another is long and fast enough. -/
structure FarAndFast (first last : R × R) : Prop where
  later : first.2 < last.2
  far : 0.15 < |last.1 - first.1|
  fast : 0.6 * (last.2 - first.2) < |last.1 - first.1|

/-- A call in the pose completes a window of ten samples, from the first one to the last one of
them. -/
structure Completes (past : List (AnalyzeTurn R)) (t : AnalyzeTurn R) (first last : R × R) :
    Prop where
  posed : t.posed = true
  window : ∃ w, w <:+ samplesSince past ++ [t.sample] ∧ w.length = 10 ∧ w.head? = some first ∧
    w.getLast? = some last
  moved : FarAndFast first last

/-- A call agrees with the sliding window over the calls before it. -/
structure SlidingWindow (past : List (AnalyzeTurn R)) (t : AnalyzeTurn R) : Prop where
  history : t.after.wristHistory = (samplesSince (past ++ [t])).rtake 10
  right : t.result.gesture = .swipeRight ↔
    ∃ first last, Completes past t first last ∧ first.1 < last.1
  left : t.result.gesture = .swipeLeft ↔
    ∃ first last, Completes past t first last ∧ last.1 < first.1
  rightAction : t.result.action = some .swipeRight ↔ t.result.gesture = .swipeRight
  leftAction : t.result.action = some .swipeLeft ↔ t.result.gesture = .swipeLeft
  bounded : t.after.wristHistory.length ≤ 10
  apart : t.swiped = true → ∀ q ∈ past.rtake 9, q.swiped = false

/-! ### One call -/

omit [Scalar R] in
/-- Appending a sample to the recent ones keeps the recent ones. -/
theorem pushWrist_rtake (samples : List (R × R)) (sample : R × R) :
    pushWrist (samples.rtake 10) sample = (samples ++ [sample]).rtake 10 :=
  (rtake_concat (by decide) samples sample).symm

/-- The thresholds of the code are those of a long and fast movement. -/
theorem farAndFast_iff (first last : R × R) :
    (0 < last.2 - first.2 ∧
      |(last.1 - first.1) / (last.2 - first.2)| > swipeThresholdSpeed ∧
      |last.1 - first.1| > swipeMinDist) ↔ FarAndFast first last := by
  constructor
  · rintro ⟨hdt, hspeed, hdist⟩
    rw [gt_iff_lt, abs_div, abs_of_pos hdt, lt_div_iff₀ hdt] at hspeed
    exact ⟨sub_pos.mp hdt, hdist, hspeed⟩
  · rintro ⟨hlater, hfar, hfast⟩
    have hdt : 0 < last.2 - first.2 := sub_pos.mpr hlater
    rw [gt_iff_lt, abs_div, abs_of_pos hdt, lt_div_iff₀ hdt]
    exact ⟨hdt, hfast, hfar⟩

/-- A history shows a swipe when it is full and its ends are far and fast apart. -/
theorem swipeOf_eq_some_iff (history : List (R × R)) (g : Gesture × Action) :
    swipeOf history = some g ↔
      history.length = 10 ∧ ∃ first last, history.head? = some first ∧
        history.getLast? = some last ∧ FarAndFast first last ∧
        g = if first.1 < last.1 then (.swipeRight, .swipeRight) else (.swipeLeft, .swipeLeft) := by
  simp only [swipeOf]
  cases hfirst : history.head? with
  | none => simp
  | some first =>
    cases hlast : history.getLast? with
    | none => simp
    | some last =>
      have hmoved := farAndFast_iff first last
      by_cases hlen : history.length = historyLen
      · by_cases hfar : FarAndFast first last
        · dsimp only
          rw [if_pos hlen, if_pos (hmoved.mpr hfar)]
          simp only [historyLen] at hlen
          simp [hlen, hfar, eq_comm]
        · dsimp only
          rw [if_pos hlen, if_neg fun h ↦ hfar (hmoved.mp h)]
          simp [hfar]
      · simp only [if_neg hlen]
        simp only [historyLen] at hlen
        simp [hlen]

/-- A call that is not in the pose returns its static gesture and empties the history. -/
theorem analyze_of_not_posed {lm : HandLandmarks R} (h : fourFingersUp lm = false)
    (self : GestureAnalyzer R) (label : String) (now : R) :
    (self.analyze lm label now).1.gesture = (staticGesture lm).1 ∧
      (self.analyze lm label now).1.action = (staticGesture lm).2 ∧
      (self.analyze lm label now).2.wristHistory = [] := by
  simp only [analyze, h, Bool.false_eq_true, if_false, and_self]

/-- A call in the pose that shows a swipe returns it and empties the history. -/
theorem analyze_of_swipe {self : GestureAnalyzer R} {lm : HandLandmarks R} {now : R}
    (h : fourFingersUp lm = true) {g : Gesture × Action}
    (hg : swipeOf (pushWrist self.wristHistory (wristSample lm now)) = some g) (label : String) :
    (self.analyze lm label now).1.gesture = g.1 ∧
      (self.analyze lm label now).1.action = some g.2 ∧
      (self.analyze lm label now).2.wristHistory = [] := by
  simp only [wristSample] at hg
  simp only [analyze, h, if_true, hg, and_self]

/-- A call in the pose that shows no swipe returns its static gesture and keeps the sample. -/
theorem analyze_of_no_swipe {self : GestureAnalyzer R} {lm : HandLandmarks R} {now : R}
    (h : fourFingersUp lm = true)
    (hg : swipeOf (pushWrist self.wristHistory (wristSample lm now)) = none) (label : String) :
    (self.analyze lm label now).1.gesture = (staticGesture lm).1 ∧
      (self.analyze lm label now).1.action = (staticGesture lm).2 ∧
      (self.analyze lm label now).2.wristHistory =
        pushWrist self.wristHistory (wristSample lm now) := by
  simp only [wristSample] at hg ⊢
  simp only [analyze, h, if_true, hg, and_self]

/-- A static action is no swipe. -/
theorem staticGesture_action (lm : HandLandmarks R) :
    (staticGesture lm).2 ≠ some .swipeRight ∧ (staticGesture lm).2 ≠ some .swipeLeft := by
  simp only [staticGesture]
  repeat' split
  all_goals exact ⟨by decide, by decide⟩

/-- Gesture and action of a swipe. -/
def IsSwipePair (g : Gesture × Action) : Prop :=
  g = (.swipeRight, .swipeRight) ∨ g = (.swipeLeft, .swipeLeft)

/-- A history shows nothing but swipes. -/
theorem isSwipePair_of_swipeOf {history : List (R × R)} {g : Gesture × Action}
    (h : swipeOf history = some g) : IsSwipePair g := by
  have ⟨_, first, last, _, _, _, hg⟩ := (swipeOf_eq_some_iff history g).mp h
  rw [hg]
  split
  · exact .inl rfl
  · exact .inr rfl

/-- Swipes differ in their gesture, and in their action. -/
theorem IsSwipePair.eq_iff {g g' : Gesture × Action} (h : IsSwipePair g) (h' : IsSwipePair g') :
    (g'.1 = g.1 ↔ g' = g) ∧ (some g'.2 = some g.2 ↔ g' = g) := by
  rcases h with rfl | rfl <;> rcases h' with rfl | rfl <;> decide

/-- A call returns the gesture, and the action, of a swipe exactly when it is in the pose and its
history shows that swipe. -/
theorem analyze_eq_iff (self : GestureAnalyzer R) (lm : HandLandmarks R) (label : String) (now : R)
    {g : Gesture × Action} (hg : IsSwipePair g) :
    ((self.analyze lm label now).1.gesture = g.1 ↔ fourFingersUp lm = true ∧
        swipeOf (pushWrist self.wristHistory (wristSample lm now)) = some g) ∧
      ((self.analyze lm label now).1.action = some g.2 ↔ fourFingersUp lm = true ∧
        swipeOf (pushWrist self.wristHistory (wristSample lm now)) = some g) := by
  have hstatic : (staticGesture lm).1 ≠ g.1 ∧ (staticGesture lm).2 ≠ some g.2 := by
    have hnone := staticGesture_not_swipe lm
    have ⟨hright, hleft⟩ := staticGesture_action lm
    have hgesture (swipe : Gesture) (h : isSwipe swipe = true) : (staticGesture lm).1 ≠ swipe := by
      intro heq
      rw [heq, h] at hnone
      cases hnone
    rcases hg with rfl | rfl
    · exact ⟨hgesture _ rfl, hright⟩
    · exact ⟨hgesture _ rfl, hleft⟩
  cases hup : fourFingersUp lm with
  | false =>
    have ⟨hgesture, haction, _⟩ := analyze_of_not_posed hup self label now
    rw [hgesture, haction]
    simp [hstatic]
  | true =>
    cases hswipe : swipeOf (pushWrist self.wristHistory (wristSample lm now)) with
    | none =>
      have ⟨hgesture, haction, _⟩ := analyze_of_no_swipe hup hswipe label
      rw [hgesture, haction]
      simp [hstatic]
    | some g' =>
      have ⟨hgesture, haction, _⟩ := analyze_of_swipe hup hswipe label
      have ⟨hfst, hsnd⟩ := hg.eq_iff (isSwipePair_of_swipeOf hswipe)
      rw [hgesture, haction, hfst, hsnd, Option.some.injEq]
      simp

/-- A full history shows a swipe to the right exactly when its far and fast movement goes there,
and to the left likewise. -/
theorem swipeOf_toward_iff (history : List (R × R)) :
    (swipeOf history = some (.swipeRight, .swipeRight) ↔
        history.length = 10 ∧ ∃ first last, history.head? = some first ∧
          history.getLast? = some last ∧ FarAndFast first last ∧ first.1 < last.1) ∧
      (swipeOf history = some (.swipeLeft, .swipeLeft) ↔
        history.length = 10 ∧ ∃ first last, history.head? = some first ∧
          history.getLast? = some last ∧ FarAndFast first last ∧ last.1 < first.1) := by
  rw [swipeOf_eq_some_iff, swipeOf_eq_some_iff]
  have hside (first last : R × R) (h : FarAndFast first last) :
      ¬ first.1 < last.1 ↔ last.1 < first.1 := by
    have hne : first.1 ≠ last.1 := by
      intro heq
      have hfar := h.far
      rw [heq, sub_self, abs_zero] at hfar
      exact absurd hfar (by norm_num)
    rw [not_lt, le_iff_lt_or_eq, or_iff_left hne.symm]
  constructor
  · apply and_congr_right'
    apply exists₂_congr
    intro first last
    apply and_congr_right'
    apply and_congr_right'
    apply and_congr_right'
    by_cases hlt : first.1 < last.1 <;> simp [hlt]
  · apply and_congr_right'
    apply exists₂_congr
    intro first last
    apply and_congr_right'
    apply and_congr_right'
    apply and_congr_right
    intro hmoved
    rw [← hside first last hmoved]
    by_cases hlt : first.1 < last.1 <;> simp [hlt]

/-! ### Sequences of calls -/

/-- One more call goes on with the samples, or begins again without any. -/
theorem samplesSince_concat (past : List (AnalyzeTurn R)) (t : AnalyzeTurn R) :
    samplesSince (past ++ [t]) =
      if t.continues then samplesSince past ++ [t.sample] else [] := by
  simp only [samplesSince, List.rtakeWhile_concat]
  split
  · rw [List.map_append, List.map_singleton]
  · rfl

/-- A completed window is made of the ten most recent samples. -/
theorem completes_iff (past : List (AnalyzeTurn R)) (t : AnalyzeTurn R) (first last : R × R) :
    Completes past t first last ↔
      t.posed = true ∧ ((samplesSince past ++ [t.sample]).rtake 10).length = 10 ∧
        ((samplesSince past ++ [t.sample]).rtake 10).head? = some first ∧
        ((samplesSince past ++ [t.sample]).rtake 10).getLast? = some last ∧
        FarAndFast first last := by
  constructor
  · rintro ⟨hposed, ⟨w, hsuffix, hlen, hfirst, hlast⟩, hmoved⟩
    have hw := suffix_iff_eq_rtake.mp hsuffix
    rw [hlen] at hw
    rw [← hw]
    exact ⟨hposed, hlen, hfirst, hlast, hmoved⟩
  · rintro ⟨hposed, hlen, hfirst, hlast, hmoved⟩
    exact ⟨hposed, ⟨_, List.drop_suffix _ _, hlen, hfirst, hlast⟩, hmoved⟩

section
variable {past : List (AnalyzeTurn R)} {self : GestureAnalyzer R}
  (h : self.wristHistory = (samplesSince past).rtake 10) (frame : Frame R)
include h

/-- A call returns a swipe toward a side exactly when it completes a window that moved there. -/
theorem step_toward_iff :
    ((analyzerMachine.step self frame).posed = true ∧
        swipeOf (pushWrist self.wristHistory (analyzerMachine.step self frame).sample) =
          some (.swipeRight, .swipeRight) ↔
      ∃ first last, Completes past (analyzerMachine.step self frame) first last ∧
        first.1 < last.1) ∧
    ((analyzerMachine.step self frame).posed = true ∧
        swipeOf (pushWrist self.wristHistory (analyzerMachine.step self frame).sample) =
          some (.swipeLeft, .swipeLeft) ↔
      ∃ first last, Completes past (analyzerMachine.step self frame) first last ∧
        last.1 < first.1) := by
  have ⟨hright, hleft⟩ := swipeOf_toward_iff
    (pushWrist self.wristHistory (analyzerMachine.step self frame).sample)
  rw [hright, hleft, h, pushWrist_rtake]
  simp only [completes_iff]
  constructor
  · constructor
    · rintro ⟨hposed, hlen, first, last, hfirst, hlast, hmoved, hlt⟩
      exact ⟨first, last, ⟨hposed, hlen, hfirst, hlast, hmoved⟩, hlt⟩
    · rintro ⟨first, last, ⟨hposed, hlen, hfirst, hlast, hmoved⟩, hlt⟩
      exact ⟨hposed, hlen, first, last, hfirst, hlast, hmoved, hlt⟩
  · constructor
    · rintro ⟨hposed, hlen, first, last, hfirst, hlast, hmoved, hlt⟩
      exact ⟨first, last, ⟨hposed, hlen, hfirst, hlast, hmoved⟩, hlt⟩
    · rintro ⟨first, last, ⟨hposed, hlen, hfirst, hlast, hmoved⟩, hlt⟩
      exact ⟨hposed, hlen, first, last, hfirst, hlast, hmoved, hlt⟩

/-- After a call the history is again the end of the samples. -/
theorem step_history :
    (analyzerMachine.step self frame).after.wristHistory =
      (samplesSince (past ++ [analyzerMachine.step self frame])).rtake 10 := by
  rw [samplesSince_concat]
  cases hup : fourFingersUp frame.landmarks with
  | false =>
    have ⟨_, _, hafter⟩ := analyze_of_not_posed hup self frame.label frame.now
    have hstop : (analyzerMachine.step self frame).continues = false := by
      simp only [AnalyzeTurn.continues, AnalyzeTurn.posed, analyzerMachine, hup, Bool.false_and]
    rw [hstop]
    exact hafter
  | true =>
    cases hswipe : swipeOf (pushWrist self.wristHistory
        (wristSample frame.landmarks frame.now)) with
    | none =>
      have ⟨hgesture, _, hafter⟩ := analyze_of_no_swipe hup hswipe frame.label
      have hgoes : (analyzerMachine.step self frame).continues = true := by
        simp only [AnalyzeTurn.continues, AnalyzeTurn.posed, AnalyzeTurn.swiped, analyzerMachine,
          hup, hgesture, staticGesture_not_swipe, Bool.not_false, Bool.and_self]
      rw [hgoes, if_pos rfl, ← pushWrist_rtake, ← h]
      exact hafter
    | some g =>
      have ⟨hgesture, _, hafter⟩ := analyze_of_swipe hup hswipe frame.label
      have hstop : (analyzerMachine.step self frame).continues = false := by
        have hg : isSwipe g.1 = true := by
          rcases isSwipePair_of_swipeOf hswipe with rfl | rfl <;> rfl
        simp only [AnalyzeTurn.continues, AnalyzeTurn.swiped, analyzerMachine, hgesture, hg,
          Bool.not_true, Bool.and_false]
      rw [hstop]
      exact hafter

/-- The nine calls before a swipe are no swipes. -/
theorem step_apart (hswiped : (analyzerMachine.step self frame).swiped = true) :
    ∀ q ∈ past.rtake 9, q.swiped = false := by
  have ⟨_, hfull⟩ : _ ∧ (pushWrist self.wristHistory _).length = historyLen :=
    analyze_swipe hswiped
  have hlong : 9 ≤ (past.rtakeWhile AnalyzeTurn.continues).length := by
    rw [h, pushWrist_rtake, List.rtake, List.length_drop, List.length_append, samplesSince,
      List.length_map, List.length_singleton] at hfull
    simp only [historyLen] at hfull
    omega
  intro q hq
  have hgoes := forall_mem_rtake hlong q hq
  simp only [AnalyzeTurn.continues, Bool.and_eq_true, Bool.not_eq_true'] at hgoes
  exact hgoes.2

/-- A call agrees with the sliding window. -/
theorem step_slidingWindow : SlidingWindow past (analyzerMachine.step self frame) := by
  have ⟨hright, hrightAction⟩ := analyze_eq_iff self frame.landmarks frame.label frame.now
    (g := (.swipeRight, .swipeRight)) (.inl rfl)
  have ⟨hleft, hleftAction⟩ := analyze_eq_iff self frame.landmarks frame.label frame.now
    (g := (.swipeLeft, .swipeLeft)) (.inr rfl)
  have ⟨hwindowRight, hwindowLeft⟩ := step_toward_iff h frame
  constructor
  · exact step_history h frame
  · exact hright.trans hwindowRight
  · exact hleft.trans hwindowLeft
  · exact hrightAction.trans hright.symm
  · exact hleftAction.trans hleft.symm
  · rw [step_history h frame]
    exact length_rtake_le _ _
  · exact step_apart h frame

end

/-- Every call on a fresh analyzer agrees with the sliding window over the calls before it. -/
theorem calls_slidingWindow (frames : List (Frame R)) :
    ∀ past t post, analyzerMachine.trace init frames = past ++ t :: post →
      SlidingWindow past t := by
  apply analyzerMachine.split_forall
    (I := fun past self ↦ self.wristHistory = (samplesSince past).rtake 10)
    (P := SlidingWindow) frames
  · intro past self frame _ h
    exact step_slidingWindow h frame
  · intro past self frame _ next h hnext
    rw [← Option.some.inj hnext]
    exact step_history h frame
  · rfl

/-- The tenth call is a swipe and agrees with the sliding window. -/
theorem calls_slidingWindow_tenFrames :
    ∃ past t, analyzerMachine.trace init tenFrames = past ++ [t] ∧ t.swiped = true ∧
      SlidingWindow past t := by
  have hsplit : ∃ past t, analyzerMachine.trace init tenFrames = past ++ [t] ∧
      t.swiped = true := by
    refine ⟨[_, _, _, _, _, _, _, _, _], _, rfl, ?_⟩
    decide +kernel
  have ⟨past, t, htrace, hswiped⟩ := hsplit
  exact ⟨past, t, htrace, hswiped, calls_slidingWindow tenFrames past t [] htrace⟩

end VisionGame.Vision.GestureAnalyzer
