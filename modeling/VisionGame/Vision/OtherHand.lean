import VisionGame.Base.Window
import VisionGame.Vision.IterationSpec

/-!
# Control by the other hand

Library `Vision`. `src/mediapipe/app_gestures.py:480,577–603`. A hand with the target label always
controls. Frames that show only other hands are counted, and the first hand of such a frame
controls as long as the count allows it. Only a hand with the target label clears the count, so
that it is a budget for every stretch of a run without one.
-/

namespace VisionGame.Vision
open VisionGame.Base
open Effect Loop GestureAnalyzer

variable {R : Type} [Scalar R]

/-! ### Detections and selection of a turn -/

/-- The iteration gets as far as the detector: it has an image and draws the zone. -/
def Detects (inp : IterInput R) (s : LoopState R) : Prop :=
  seesImage inp (watched inp s) ∧ ZoneNumeric (watched inp s).shared.globals

instance (inp : IterInput R) (s : LoopState R) : Decidable (Detects inp s) :=
  inferInstanceAs (Decidable (_ ∧ _ ∧ _ ∧ _ ∧ _))

/-- Hands the detector reports in an iteration. -/
def reported (inp : IterInput R) (s : LoopState R) : List (DetectedHand R) :=
  if Detects inp s then inp.hands else []

/-- Label of the target hand when a turn compares it. -/
def Turn.target : Turn R → String
  | .stopped s => s.shared.globals.targetHandMp
  | .iterated r => (watched r.input r.before).shared.globals.targetHandMp

/-- Hands detected in a turn. -/
def Turn.detections : Turn R → List (DetectedHand R)
  | .stopped _ => []
  | .iterated r => reported r.input r.before

/-- Hand selected in a turn. -/
def Turn.selected : Turn R → Option (DetectedHand R)
  | .stopped _ => none
  | .iterated r => r.after.cur.hand

/-- No hand detected in the turn carries the target label. -/
def Turn.LacksTarget (t : Turn R) : Prop := ∀ hand ∈ t.detections, hand.label ≠ t.target

instance (t : Turn R) : Decidable t.LacksTarget := inferInstanceAs (Decidable (∀ _ ∈ _, _))

/-! ### The choice of one frame -/

omit [Scalar R] in
private theorem selectHand_target {target : String} {before after : List (DetectedHand R)}
    {hand : DetectedHand R} (hlabel : hand.label = target)
    (hfirst : ∀ other ∈ before, other.label ≠ target) (count : ℕ) :
    (selectHand target (before ++ hand :: after) count).1 = some hand := by
  have hfind : (before ++ hand :: after).find? (·.label = target) = some hand := by
    rw [List.find?_append, List.find?_eq_none.mpr (by simpa using hfirst)]
    simp [hlabel]
  cases hhands : before ++ hand :: after with
  | nil => simp at hhands
  | cons first rest =>
    rw [hhands] at hfind
    simp only [selectHand]
    rw [hfind]

omit [Scalar R] in
private theorem selectHand_other {target : String} {first : DetectedHand R}
    {rest : List (DetectedHand R)} (hother : ∀ hand ∈ first :: rest, hand.label ≠ target)
    (count : ℕ) :
    selectHand target (first :: rest) count =
      (if count + 1 ≤ 12 then some first else none, count + 1) := by
  have hfind : (first :: rest).find? (·.label = target) = none :=
    List.find?_eq_none.mpr (by simpa using hother)
  simp only [selectHand]
  rw [hfind]

omit [Scalar R] in
private theorem selectHand_pays {target : String} {hands : List (DetectedHand R)}
    (hother : ∀ hand ∈ hands, hand.label ≠ target) (count : ℕ) :
    (if (selectHand target hands count).1.isSome then 1 else 0) +
      (12 - (selectHand target hands count).2) ≤ 12 - count := by
  cases hands with
  | nil => simp [selectHand]
  | cons first rest =>
    rw [selectHand_other hother]
    by_cases hleft : count + 1 ≤ 12
    · simp only [if_pos hleft, Option.isSome_some, if_true]
      omega
    · simp only [if_neg hleft, Option.isSome_none, Bool.false_eq_true, if_false]
      omega

/-- The selected hand and the number of frames with the wrong hand. -/
def choice (s : LoopState R) : Option (DetectedHand R) × ℕ := (s.cur.hand, s.wrongHandFrames)

omit [Scalar R] in
private theorem choice_of_seen {s t : LoopState R} (h : seen t = seen s) : choice t = choice s := by
  simp only [seen, Prod.mk.injEq] at h
  simp only [choice, h.2.2.1.1, h.2.2.2.2.1]

omit [Scalar R] in
private theorem choice_of_unshared {s t : LoopState R} (h : unshared t = unshared s) :
    choice t = choice s := by
  simp only [unshared, Prod.mk.injEq] at h
  simp only [choice, h.2.2.1, h.2.2.2.2.2.2.2]

private theorem choice_watched (inp : IterInput R) (s : LoopState R) :
    choice (watched inp s) = choice s := by
  simp only [choice, watched_cur, watched_wrongHandFrames]

private theorem choice_ready (inp : IterInput R) (s : LoopState R) :
    choice (ready inp s) =
      selectHand (watched inp s).shared.globals.targetHandMp inp.hands s.wrongHandFrames := by
  rw [← watched_wrongHandFrames inp s]
  rfl

/-- An iteration with detections leaves the choice it has made, raise or not. -/
theorem iterate_choice_ready {inp : IterInput R} {s : LoopState R} (hs : s.cur = {})
    (hdetects : Detects inp s) : choice (iterate inp s).after = choice (ready inp s) := by
  have ⟨t, hseen, hafter⟩ := iterate_drawn (by rw [hs]) hdetects.1 hdetects.2
  have hdispatched : choice (dispatched inp s) = choice (ready inp s) := by
    simp only [dispatched]
    cases analysed inp (ready inp s) <;> rfl
  calc choice (iterate inp s).after
      = choice t := choice_of_unshared hafter
    _ = choice (dispatched inp s) := choice_of_seen hseen
    _ = choice (ready inp s) := hdispatched

/-- An iteration without detections leaves the choice alone. -/
theorem iterate_choice_undetected {inp : IterInput R} {s : LoopState R}
    (hnot : ¬Detects inp s) : choice (iterate inp s).after = choice s := by
  rw [← choice_watched inp s]
  by_cases hsee : seesImage inp (watched inp s)
  · have ⟨e, he⟩ := exec_iteration_undrawn hsee fun hzone ↦ hnot ⟨hsee, hzone⟩
    rw [iterate_of_exec he]
    rfl
  · rw [iterate_of_exec (exec_iteration_skipped hsee)]
    rfl

/-- Every iteration chooses among the hands the detector reports to it. -/
theorem iterate_choice (inp : IterInput R) {s : LoopState R} (hs : s.cur = {}) :
    choice (iterate inp s).after =
      selectHand (watched inp s).shared.globals.targetHandMp (reported inp s)
        s.wrongHandFrames := by
  by_cases hdetects : Detects inp s
  · rw [reported, if_pos hdetects, iterate_choice_ready hs hdetects, choice_ready]
  · rw [reported, if_neg hdetects, iterate_choice_undetected hdetects, choice, hs]
    rfl

/-- An iteration that selects no hand sends at most the release of the button. -/
theorem iterate_unselected {inp : IterInput R} {s : LoopState R} (hs : s.cur = {})
    (hnone : (iterate inp s).after.cur.hand = none) :
    ∀ e ∈ (iterate inp s).after.cur.out, e = .leftUp := by
  by_cases hr : ReachesRelease inp s
  · have hready : (ready inp s).cur.hand = none := by
      have hchoice := iterate_choice_ready hs ⟨hr.1, hr.2.1⟩
      exact (congrArg Prod.fst hchoice).symm.trans hnone
    have hidle : analysed inp (ready inp s) = none := by
      simp only [analysed, hready, Option.map_none, ite_self]
    rw [(iterate_idle hs hr hidle).1]
    split
    · simp
    · simp
  · rw [(iterate_cut hs hr).1]
    simp

/-! ### Runs -/

/-- Frames with only other hands that may still be controlled. -/
def tolerance (s : LoopState R) : ℕ := 12 - s.wrongHandFrames

/-- An iteration without the target hand pays for its selection out of the tolerance. -/
theorem iterate_pays {inp : IterInput R} {s : LoopState R} (hs : s.cur = {})
    (hlacks : ∀ hand ∈ reported inp s,
      hand.label ≠ (watched inp s).shared.globals.targetHandMp) :
    (if (iterate inp s).after.cur.hand.isSome then 1 else 0) + tolerance (iterate inp s).after ≤
      tolerance s := by
  have hpaid := selectHand_pays hlacks s.wrongHandFrames
  rw [← iterate_choice inp hs] at hpaid
  exact hpaid

private theorem turn_pays (s : LoopState R) (t : Tick R)
    (hlacks : (visionMachine.step s t).LacksTarget) :
    (if (visionMachine.step s t).selected.isSome then 1 else 0) +
      (visionMachine.next (visionMachine.step s t)).elim 0 tolerance ≤ tolerance s := by
  rcases visionMachine_step_cases s t with hstop | hiter
  · rw [hstop]
    exact Nat.zero_le _
  · rw [hiter] at hlacks ⊢
    have hpaid : _ ≤ tolerance s := iterate_pays (s := s.enter t.env) rfl hlacks
    have hnext : (visionMachine.next (.iterated (iterate t.input (s.enter t.env)))).elim 0
        tolerance ≤ tolerance (iterate t.input (s.enter t.env)).after := by
      cases hn : visionMachine.next (.iterated (iterate t.input (s.enter t.env))) with
      | none => exact Nat.zero_le _
      | some u =>
        have ⟨r, hr, hafter⟩ := visionMachine_next hn
        rw [Turn.iterated.inj hr, hafter]
        exact le_refl _
    exact (Nat.add_le_add_left hnext _).trans hpaid

/-- In every stretch of a run in which no detected hand carries the target label, at most 12
turns select a hand; the first hand with the target label is always selected; and a turn that
selects no hand at most releases the button. -/
theorem otherHand_bounded (sh : Shared R) (w h : ℤ) (ticks : List (Tick R)) :
    (∀ pre stretch post, runVisionLoop sh w h ticks = pre ++ stretch ++ post →
      (∀ t ∈ stretch, t.LacksTarget) → stretch.countP (·.selected.isSome) ≤ 12) ∧
    (∀ t ∈ runVisionLoop sh w h ticks, ∀ before hand after,
      t.detections = before ++ hand :: after → hand.label = t.target →
      (∀ other ∈ before, other.label ≠ t.target) → t.selected = some hand) ∧
    (∀ t ∈ runVisionLoop sh w h ticks, t.selected = none → ∀ e ∈ t.sent, e = .leftUp) := by
  refine ⟨?_, ?_, ?_⟩
  · intro pre stretch post hsplit hlacks
    rcases runVisionLoop_cases sh w h ticks with hnil | ⟨s, _, htrace⟩
    · rw [hnil] at hsplit
      have hstretch : stretch = [] := by
        simp only [List.nil_eq, List.append_eq_nil_iff] at hsplit
        exact hsplit.1.2
      simp [hstretch]
    · rw [htrace] at hsplit
      exact visionMachine.countP_stretch_le (fun s ↦ Nat.sub_le 12 s.wrongHandFrames) turn_pays
        ticks hsplit hlacks
  · apply forall_turn_of_step
    intro s t before hand after hdetections hlabel hfirst
    rcases visionMachine_step_cases s t with hstop | hiter
    · rw [hstop] at hdetections
      simp [Turn.detections] at hdetections
    · rw [hiter] at hdetections hlabel hfirst ⊢
      have hchoice := iterate_choice t.input (s := s.enter t.env) rfl
      have hreported : reported t.input (s.enter t.env) = before ++ hand :: after := hdetections
      rw [hreported] at hchoice
      exact (congrArg Prod.fst hchoice).trans (selectHand_target hlabel hfirst _)
  · apply forall_turn_of_step
    intro s t hnone
    rcases visionMachine_step_cases s t with hstop | hiter
    · rw [hstop]
      simp [Turn.sent]
    · rw [hiter] at hnone ⊢
      exact iterate_unselected rfl hnone

/-- Thirteen frames of a left hand, and one in which a right hand joins it. -/
def leftThenBoth : List (Tick ℚ) :=
  List.replicate 13 (.seeing 1 [⟨clickPose, "Left"⟩]) ++
    [.seeing 1 [⟨clickPose, "Left"⟩, ⟨dragPose, "Right"⟩]]

/-- Of the frames of the left hand at most twelve are controlled; the right hand then is
selected at once. -/
theorem otherHand_bounded_leftThenBoth :
    let run := runVisionLoop .online 640 480 leftThenBoth
    (run.take 13).countP (·.selected.isSome) ≤ 12 ∧
      ∃ t ∈ run[13]?, ∃ hand ∈ t.detections[1]?, t.selected = some hand := by
  intro run
  have hlacks : ∀ t ∈ run.take 13, t.LacksTarget := by decide +kernel
  have hjoined : ∃ t ∈ run[13]?, ∃ hand ∈ t.detections[1]?, hand.label = t.target ∧
      ∀ other ∈ t.detections.take 1, other.label ≠ t.target := by
    decide +kernel
  have ⟨t, ht, hand, hhand, hlabel, hfirst⟩ := hjoined
  have ⟨hbound, hselects, _⟩ := otherHand_bounded .online 640 480 leftThenBoth
  have hsplit : run = [] ++ run.take 13 ++ run.drop 13 := (List.take_append_drop 13 run).symm
  exact ⟨hbound [] _ _ hsplit hlacks, t, ht, hand, hhand,
    hselects t (List.mem_of_getElem? ht) _ hand _ (eq_take_cons_drop hhand) hlabel hfirst⟩

example :
    ((runVisionLoop .online 640 480 leftThenBoth).take 13).countP (·.selected.isSome) = 12 := by
  decide +kernel

end VisionGame.Vision
