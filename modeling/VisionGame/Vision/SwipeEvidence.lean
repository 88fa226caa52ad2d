import VisionGame.Base.Window
import VisionGame.Vision.IterationSpec

/-!
# The evidence behind a swipe

Library `Vision`. `src/mediapipe/gesture_analyzer.py:107–140` and
`src/mediapipe/app_gestures.py:577–631`. The wrist history is emptied inside `analyze` only,
which the loop skips while it is paused, calibrating or without a hand. As long as no image
passes unanalysed, or with another hand, over a history that is not empty, the history is a
window over the most recent images, and a swipe rests on ten of them.
-/

namespace VisionGame.Vision
open VisionGame.Base
open Effect Loop GestureAnalyzer

variable {R : Type} [Scalar R]

/-- Iterations among some turns that obtained an image. -/
def imageIterations (turns : List (Turn R)) : List (Iteration R) :=
  turns.filterMap fun t ↦ t.iteration.filter fun r ↦ r.after.cur.image

/-- Wrist sample of the hand an iteration selected. -/
def Iteration.wrist (r : Iteration R) : Option (R × R) :=
  r.after.cur.hand.map fun hand ↦ wristSample hand.landmarks r.input.clock.analyze

/-- The iteration analysed a hand of this label with four fingers up and the thumb closed. -/
def ShowsPose (label : String) (r : Iteration R) : Prop :=
  r.after.cur.analysis.isSome = true ∧
    ∃ hand, r.after.cur.hand = some hand ∧ hand.label = label ∧
      fourFingersUp hand.landmarks = true

/-- The analysis of the iteration is a swipe. -/
def Iteration.swipes (r : Iteration R) : Bool := r.after.cur.analysis.any fun a ↦ isSwipe a.gesture

/-- The ten most recent images, this one included, all show the pose of one hand, and their
wrist samples are those the swipe was computed from. -/
def SwipeEvidence (past : List (Turn R)) (r : Iteration R) : Prop :=
  let recent := (imageIterations (past ++ [.iterated r])).rtake 10
  recent.length = 10 ∧ (∃ label, ∀ q ∈ recent, ShowsPose label q) ∧
    ∃ sample, r.wrist = some sample ∧
      recent.map Iteration.wrist = (pushWrist r.before.analyzer.wristHistory sample).map some

/-- An image that meets stored wrist samples is analysed, and if its hand shows the pose, it is
the hand of the last image. -/
def Steady (past : List (Turn R)) (r : Iteration R) : Prop :=
  seesImage r.input (watched r.input r.before) → r.before.analyzer.wristHistory ≠ [] →
    Active (watched r.input r.before).shared.globals ∧
      ∃ hand ∈ selectedHand r.input r.before, fourFingersUp hand.landmarks = true →
        ∀ q ∈ (imageIterations past).getLast?, ∀ last ∈ q.after.cur.hand,
          last.label = hand.label

instance (past : List (Turn R)) (r : Iteration R) : Decidable (Steady past r) :=
  inferInstanceAs (Decidable (_ → _ → _ ∧ _))

/-- The stored samples are a window over the images of the past, of one hand in the pose. -/
def HistoryBacked (past : List (Turn R)) (s : LoopState R) : Prop :=
  ∃ label, Backed Iteration.wrist (ShowsPose label) (imageIterations past) s.analyzer.wristHistory

/-! ### One iteration -/

omit [Scalar R] in
private theorem imageIterations_append_image {past : List (Turn R)} {r : Iteration R}
    (h : r.after.cur.image = true) :
    imageIterations (past ++ [.iterated r]) = imageIterations past ++ [r] := by
  simp [imageIterations, Turn.iteration, Option.filter, h]

omit [Scalar R] in
private theorem imageIterations_append_blind {past : List (Turn R)} {r : Iteration R}
    (h : r.after.cur.image = false) :
    imageIterations (past ++ [.iterated r]) = imageIterations past := by
  simp [imageIterations, Turn.iteration, h]

/-- What an iteration does to the wrist history: without an image nothing, with one either an
error, nothing because it is not active or has no hand, or an analysis. -/
inductive HistoryStep (inp : IterInput R) (s : LoopState R) : Prop where
  | blind (hkeep : (iterate inp s).after.analyzer = s.analyzer)
      (himage : (iterate inp s).after.cur.image = false)
      (hanalysis : (iterate inp s).after.cur.analysis = none)
  | raised (e : PyError) (herror : (iterate inp s).result = .error e)
      (hanalysis : (iterate inp s).after.cur.analysis = none)
  | unanalysed (hsee : seesImage inp (watched inp s))
      (hnone : ¬ (Active (watched inp s).shared.globals ∧
        ∃ hand, selectedHand inp s = some hand))
      (hkeep : (iterate inp s).after.analyzer = s.analyzer)
      (himage : (iterate inp s).after.cur.image = true)
      (hanalysis : (iterate inp s).after.cur.analysis = none)
  | analysed (hand : DetectedHand R) (hsee : seesImage inp (watched inp s))
      (hselected : selectedHand inp s = some hand)
      (himage : (iterate inp s).after.cur.image = true)
      (hhand : (iterate inp s).after.cur.hand = some hand)
      (hanalysis : (iterate inp s).after.cur.analysis =
        some (s.analyzer.analyze hand.landmarks hand.label inp.clock.analyze).1)
      (hanalyzer : (iterate inp s).after.analyzer =
        (s.analyzer.analyze hand.landmarks hand.label inp.clock.analyze).2)

private theorem historyStep_drawn {inp : IterInput R} {s : LoopState R} (hs : s.cur = {})
    (hsee : seesImage inp (watched inp s)) (hz : ZoneNumeric (watched inp s).shared.globals) :
    HistoryStep inp s := by
  have hview := iterate_view_drawn (by rw [hs]) hsee hz
  have hwatched := view_watched inp s
  simp only [view, hs, Prod.mk.injEq] at hwatched
  have hselected : selectedHand inp s = (ready inp s).cur.hand := if_pos hsee
  simp only [dispatched] at hview
  simp only [analysed] at hview
  by_cases hactive : Active (ready inp s).shared.globals
  · rw [if_pos hactive] at hview
    cases hhand : (ready inp s).cur.hand with
    | none =>
      rw [hhand] at hview
      simp only [view, Option.map_none, Prod.mk.injEq] at hview
      refine .unanalysed hsee ?_ (hview.1.trans hwatched.1) hview.2.1
        (hview.2.2.2.trans hwatched.2.2.2)
      rintro ⟨-, hand, h⟩
      rw [hselected, hhand] at h
      cases h
    | some hand =>
      rw [hhand] at hview
      have hanalyzer : (ready inp s).analyzer = s.analyzer := hwatched.1
      simp only [view, Option.map_some, withAnalysis, hanalyzer, Prod.mk.injEq] at hview
      exact .analysed hand hsee (hselected.trans hhand) hview.2.1 (hview.2.2.1.trans hhand)
        hview.2.2.2 hview.1
  · rw [if_neg hactive] at hview
    simp only [view, Prod.mk.injEq] at hview
    exact .unanalysed hsee (fun h ↦ hactive h.1) (hview.1.trans hwatched.1) hview.2.1
      (hview.2.2.2.trans hwatched.2.2.2)

/-- Every iteration takes one of these steps. -/
theorem iterate_historyStep (inp : IterInput R) {s : LoopState R} (hs : s.cur = {}) :
    HistoryStep inp s := by
  by_cases hsee : seesImage inp (watched inp s)
  · by_cases hz : ZoneNumeric (watched inp s).shared.globals
    · exact historyStep_drawn hs hsee hz
    · have ⟨⟨e, herror⟩, hview⟩ := iterate_view_undrawn hsee hz
      simp only [view, hs, Prod.mk.injEq] at hview
      exact .raised e herror hview.2.2.2
  · have hview := iterate_view_skipped hsee
    simp only [view, hs, Prod.mk.injEq] at hview
    exact .blind hview.1 hview.2.1 hview.2.2.2

/-! ### The history over a run -/

omit [Scalar R] in
private theorem backed_pushWrist {α : Type} {sample : α → Option (R × R)} {p : α → Prop}
    {log : List α} {history : List (R × R)} (h : Backed sample p log history) {a : α} {b : R × R}
    (hb : sample a = some b) (ha : p a) : Backed sample p (log ++ [a]) (pushWrist history b) := by
  simp only [pushWrist]
  split
  · exact (h.push hb ha).drop 1
  · exact h.push hb ha

/-- A steady iteration that analyses a hand in the pose extends the window. -/
theorem backed_of_pose {past : List (Turn R)} {inp : IterInput R} {s : LoopState R}
    (hback : HistoryBacked past s) (hsteady : Steady past (iterate inp s))
    {hand : DetectedHand R} (hsee : seesImage inp (watched inp s))
    (hselected : selectedHand inp s = some hand)
    (himage : (iterate inp s).after.cur.image = true)
    (hhand : (iterate inp s).after.cur.hand = some hand)
    (hanalysis : (iterate inp s).after.cur.analysis.isSome = true)
    (hup : fourFingersUp hand.landmarks = true) :
    ∃ label, Backed Iteration.wrist (ShowsPose label)
      (imageIterations (past ++ [.iterated (iterate inp s)]))
      (pushWrist s.analyzer.wristHistory (wristSample hand.landmarks inp.clock.analyze)) := by
  have hwrist : (iterate inp s).wrist = some (wristSample hand.landmarks inp.clock.analyze) := by
    simp only [Iteration.wrist]
    rw [hhand]
    rfl
  have hshows : ShowsPose hand.label (iterate inp s) := ⟨hanalysis, hand, hhand, rfl, hup⟩
  rw [imageIterations_append_image himage]
  by_cases hnil : s.analyzer.wristHistory = []
  · rw [hnil]
    exact ⟨hand.label, backed_pushWrist backed_nil hwrist hshows⟩
  · have ⟨label, hlabel⟩ := hback
    have ⟨q, hq, _, last, hlast, hname, _⟩ := hlabel.last hnil
    have ⟨_, hand', hhand', hsame⟩ := hsteady hsee hnil
    change selectedHand inp s = some hand' at hhand'
    rw [hselected] at hhand'
    cases hhand'
    rw [← hsame hup q hq last hlast, hname] at hshows
    exact ⟨label, backed_pushWrist hlabel hwrist hshows⟩

/-- A steady iteration keeps the history backed. -/
theorem historyBacked_step {past : List (Turn R)} {inp : IterInput R} {s : LoopState R}
    (hs : s.cur = {}) (hback : HistoryBacked past s) (hsteady : Steady past (iterate inp s))
    (hok : ∀ e, (iterate inp s).result ≠ .error e) :
    HistoryBacked (past ++ [.iterated (iterate inp s)]) (iterate inp s).after := by
  simp only [HistoryBacked]
  cases iterate_historyStep inp hs with
  | blind hkeep himage _ =>
    rw [hkeep, imageIterations_append_blind himage]
    exact hback
  | raised e herror _ => exact absurd herror (hok e)
  | unanalysed hsee hnone hkeep _ _ =>
    have hnil : s.analyzer.wristHistory = [] := by
      by_contra hne
      have ⟨hactive, hand, hhand, _⟩ := hsteady hsee hne
      exact hnone ⟨hactive, hand, hhand⟩
    rw [hkeep, hnil]
    exact ⟨"", backed_nil⟩
  | analysed hand hsee hselected himage hhand hanalysis hanalyzer =>
    rw [hanalyzer]
    rcases analyze_history s.analyzer hand.landmarks hand.label inp.clock.analyze with
      hnil | ⟨hup, hpush⟩
    · rw [hnil]
      exact ⟨"", backed_nil⟩
    · rw [hpush]
      exact backed_of_pose hback hsteady hsee hselected himage hhand (by rw [hanalysis]; rfl) hup

/-- A swipe of a steady iteration over a backed history has its evidence. -/
theorem swipeEvidence_step {past : List (Turn R)} {inp : IterInput R} {s : LoopState R}
    (hs : s.cur = {}) (hback : HistoryBacked past s) (hsteady : Steady past (iterate inp s))
    (hswipe : (iterate inp s).swipes = true) : SwipeEvidence past (iterate inp s) := by
  simp only [Iteration.swipes] at hswipe
  cases iterate_historyStep inp hs with
  | blind _ _ hanalysis =>
    rw [hanalysis] at hswipe
    cases hswipe
  | raised _ _ hanalysis =>
    rw [hanalysis] at hswipe
    cases hswipe
  | unanalysed _ _ _ _ hanalysis =>
    rw [hanalysis] at hswipe
    cases hswipe
  | analysed hand hsee hselected himage hhand hanalysis _ =>
    rw [hanalysis] at hswipe
    have ⟨hup, hfull⟩ := analyze_swipe hswipe
    have ⟨label, hlabel⟩ := backed_of_pose hback hsteady hsee hselected himage hhand
      (by rw [hanalysis]; rfl) hup
    have ⟨hmap, hshows⟩ := hlabel.rtake
    rw [hfull] at hmap hshows
    have hlen := congrArg List.length hmap
    rw [List.length_map, List.length_map, hfull] at hlen
    refine ⟨hlen, ⟨label, hshows⟩, wristSample hand.landmarks inp.clock.analyze, ?_, hmap⟩
    simp only [Iteration.wrist]
    rw [hhand]
    rfl

/-- In a run whose iterations are all steady, every swipe has its evidence. -/
theorem swipe_evidence (sh : Shared R) (w h : ℤ) (ticks : List (Tick R))
    (hsteady : ∀ pre r post, runVisionLoop sh w h ticks = pre ++ .iterated r :: post →
      Steady pre r) :
    ∀ pre r post, runVisionLoop sh w h ticks = pre ++ .iterated r :: post → r.swipes = true →
      SwipeEvidence pre r := by
  rcases runVisionLoop_cases sh w h ticks with hnil | ⟨s, hs, htrace⟩
  · intro pre r post hrun
    rw [hnil] at hrun
    simp at hrun
  rw [htrace] at hsteady ⊢
  have hcond : ∀ pre t post, visionMachine.trace s ticks = pre ++ t :: post →
      ∀ r, t = .iterated r → Steady pre r := by
    rintro pre t post hrun r rfl
    exact hsteady pre r post hrun
  have hall : ∀ pre t post, visionMachine.trace s ticks = pre ++ t :: post →
      ∀ r, t = .iterated r → r.swipes = true → SwipeEvidence pre r := by
    refine visionMachine.split_forall_of (I := HistoryBacked)
      (C := fun pre t ↦ ∀ r, t = .iterated r → Steady pre r) ticks ?_ ?_ ?_ hcond
    · intro past s t _ hback hc r hr
      rcases visionMachine_step_cases s t with hstop | hiter
      · rw [hstop] at hr
        cases hr
      · have hthis := hc _ hiter
        rw [hiter] at hr
        cases hr
        exact swipeEvidence_step rfl hback hthis
    · intro past s t _ u hback hc hu
      have ⟨r, hr, hafter⟩ := visionMachine_next hu
      rcases visionMachine_step_cases s t with hstop | hiter
      · rw [hstop] at hr
        cases hr
      · have hthis := hc _ hiter
        rw [hiter] at hr hu ⊢
        cases hr
        rw [← hafter]
        exact historyBacked_step rfl hback hthis (visionMachine_next_ok hu)
    · have ⟨controller, hfresh, _⟩ := startLoop_spec hs
      rw [hfresh]
      exact ⟨"", backed_nil⟩
  intro pre r post hrun
  exact hall pre _ post hrun r rfl

/-- Ten images of one hand that moves: the swipe has its evidence. -/
theorem swipe_evidence_of_ten_images :
    ∃ (pre : List (Turn ℚ)) (r : Iteration ℚ), r.swipes = true ∧ SwipeEvidence pre r := by
  let ticks : List (Tick ℚ) := (List.range 10).map fun i ↦
    .seeing (10 + i / 100) [⟨fourFingersPose (i / 20), "Right"⟩]
  let run := runVisionLoop .online 640 480 ticks
  have hlength : run.length = 10 := by decide +kernel
  have hcheck : ∀ n < 10, ∀ t ∈ run[n]?, ∀ r ∈ t.iteration, Steady (run.take n) r := by
    decide +kernel
  have hsteady : ∀ pre r post, run = pre ++ .iterated r :: post → Steady pre r := by
    intro pre r post hrun
    exact forall_split_of_getElem? (P := fun past t ↦ ∀ r ∈ t.iteration, Steady past r)
      (fun n hn t ht ↦ hcheck n (by omega) t ht) pre _ post hrun r rfl
  have hswipe : ∃ t ∈ run[9]?, ∃ r ∈ t.iteration, r.swipes = true := by decide +kernel
  have ⟨t, ht, r, hr, hs⟩ := hswipe
  cases t with
  | stopped s => cases hr
  | iterated q =>
    cases hr
    exact ⟨run.take 9, r, hs,
      swipe_evidence .online 640 480 ticks hsteady _ r _ (eq_take_cons_drop ht) hs⟩

/-- Nine images of a hand, one without, and the hand again further on: a swipe without its
evidence. -/
theorem swipe_evidence_fails :
    ¬ ∀ pre r post, runVisionLoop (R := ℚ) .online 640 480
        ((List.range 9).map (fun i ↦ .seeing (10 + i / 100) [⟨fourFingersPose 0, "Right"⟩]) ++
          [.seeing 10.09 [], .seeing 10.1 [⟨fourFingersPose (1 / 2), "Right"⟩]]) =
          pre ++ .iterated r :: post →
      r.swipes = true → SwipeEvidence pre r := by
  intro hall
  let ticks : List (Tick ℚ) :=
    (List.range 9).map (fun i ↦ .seeing (10 + i / 100) [⟨fourFingersPose 0, "Right"⟩]) ++
      [.seeing 10.09 [], .seeing 10.1 [⟨fourFingersPose (1 / 2), "Right"⟩]]
  let run := runVisionLoop .online 640 480 ticks
  have hswipe : ∃ t ∈ run[10]?, ∃ r ∈ t.iteration, r.swipes = true := by decide +kernel
  have hblank : ∃ q ∈ (imageIterations (run.take 11)).rtake 10, q.after.cur.hand.isNone = true := by
    decide +kernel
  have ⟨t, ht, r, hr, hs⟩ := hswipe
  cases t with
  | stopped s => cases hr
  | iterated r' =>
    cases hr
    have ⟨_, ⟨label, hshows⟩, _⟩ := hall (run.take 10) r (run.drop 11) (eq_take_cons_drop ht) hs
    have ⟨q, hq, hnone⟩ := hblank
    rw [List.take_add_one, ht] at hq
    have ⟨_, hand, hhand, _⟩ := hshows q hq
    rw [hhand] at hnone
    cases hnone

end VisionGame.Vision
