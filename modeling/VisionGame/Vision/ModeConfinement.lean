import VisionGame.Vision.IterationSpec

/-!
# Which effects a mode allows

Library `Vision`. `src/mediapipe/app_gestures.py:625–717`. The chain of conditions that
dispatches an action mixes tests on the action with tests on the mode. Read over whole runs,
it confines what an iteration can send by pause, calibration, selected hand and mode alone,
as they stand when the iteration dispatches, after its look at the settings file.
-/

namespace VisionGame.Vision
open VisionGame.Base
open Effect Loop

variable {R : Type} [Scalar R]

/-- Events that only normal mode sends: right clicks and hotkeys. -/
def OsEvent.isDesktop : OsEvent → Bool
  | rightDown | rightUp | hotkey _ => true
  | _ => false

namespace Loop

/-- At most one `LEFTUP`, and only when a drag was in progress. -/
def EndsDrag (s : LoopState R) (es : List OsEvent) : Prop :=
  es = [] ∨ (es = [.leftUp] ∧ s.controller.isDragging = true)

/-- Normal mode, detection active, no calibration and a selected hand. -/
def FullControl (inp : IterInput R) (s : LoopState R) : Prop :=
  (watched inp s).shared.globals.gameMode.isStr "normal" ∧
    Active (watched inp s).shared.globals ∧ (selectedHand inp s).isSome

/-- The events of an iteration are those its mode, pause, calibration and hand allow. -/
structure Confined (r : Iteration R) : Prop where
  inactive : ¬ Active (watched r.input r.before).shared.globals ∨
      selectedHand r.input r.before = none →
    EndsDrag r.before r.after.cur.out
  otherMode : ¬ (watched r.input r.before).shared.globals.gameMode.isStr "normal" = true →
    ¬ (watched r.input r.before).shared.globals.gameMode.isStr "osugame" = true →
    ∃ moves up, r.after.cur.out = moves ++ up ∧
      PCController.IsCursor moves ∧ EndsDrag r.before up
  osugame : (watched r.input r.before).shared.globals.gameMode.isStr "osugame" = true →
    ∃ moves click up, r.after.cur.out = moves ++ click ++ up ∧
      PCController.IsCursor moves ∧ PCController.IsClick click ∧ EndsDrag r.before up
  desktop : (∃ e ∈ r.after.cur.out, e.isDesktop = true) → FullControl r.input r.before
  dragStart : r.after.cur.executed = some .drag ∨
      (r.before.controller.isDragging = false ∧ r.after.controller.isDragging = true) →
    FullControl r.input r.before

private theorem confined_of_endsDrag {r : Iteration R} (hout : EndsDrag r.before r.after.cur.out)
    (hexec : r.after.cur.executed = none)
    (hdrag : r.after.controller.isDragging = true → r.before.controller.isDragging = true) :
    Confined r where
  inactive _ := hout
  otherMode _ _ := ⟨[], _, rfl, Or.inl rfl, hout⟩
  osugame _ := ⟨[], [], _, rfl, Or.inl rfl, Or.inl rfl, hout⟩
  desktop h := by
    have ⟨e, he, hdesktop⟩ := h
    rcases hout with hnil | ⟨hup, -⟩
    · rw [hnil] at he
      cases he
    · rw [hup] at he
      rw [List.mem_singleton.mp he] at hdesktop
      cases hdesktop
  dragStart h := by
    rcases h with h | ⟨hbefore, hafter⟩
    · rw [hexec] at h
      cases h
    · rw [hdrag hafter] at hbefore
      cases hbefore

private theorem confined_of_no_analysis {inp : IterInput R} {s : LoopState R} (hs : s.cur = {})
    (h : ReachesRelease inp s → analysed inp (ready inp s) = none) :
    Confined (iterate inp s) := by
  by_cases hr : ReachesRelease inp s
  · have ⟨hout, hdrag, hexec⟩ := iterate_idle hs hr (h hr)
    apply confined_of_endsDrag
    · rw [hout]
      cases hd : s.controller.isDragging with
      | true => exact Or.inr ⟨rfl, hd⟩
      | false => exact Or.inl rfl
    · exact hexec
    · intro hafter
      rw [hdrag] at hafter
      cases hafter
  · have ⟨hout, hdrag, hexec⟩ := iterate_cut hs hr
    apply confined_of_endsDrag
    · exact Or.inl hout
    · exact hexec
    · intro hafter
      exact hdrag.symm.trans hafter

omit [Scalar R] in
private theorem Acts.isCursor {gameMode : Json R} {action : Option Action} {passes dragging : Bool}
    {acts : List OsEvent} (h : Acts gameMode action passes dragging acts)
    (hn : ¬ gameMode.isStr "normal" = true) (ho : ¬ gameMode.isStr "osugame" = true) :
    PCController.IsCursor acts := by
  simp only [Acts] at h
  rw [if_neg hn] at h
  cases action with
  | none => exact Or.inl h
  | some a =>
    cases a with
    | moveMouse => exact h
    | drag => exact h
    | click =>
      obtain ⟨moves, hmoves, hacts⟩ := h
      rw [hacts, if_neg (fun hc ↦ ho hc.1), List.append_nil]
      exact hmoves
    | _ => exact Or.inl h

omit [Scalar R] in
private theorem Acts.isCursor_click {gameMode : Json R} {action : Option Action}
    {passes dragging : Bool} {acts : List OsEvent} (h : Acts gameMode action passes dragging acts)
    (hn : ¬ gameMode.isStr "normal" = true) :
    ∃ moves click, acts = moves ++ click ∧ PCController.IsCursor moves ∧
      PCController.IsClick click := by
  by_cases hc : action = some .click
  · simp only [Acts] at h
    rw [if_neg hn, hc] at h
    obtain ⟨moves, hmoves, hacts⟩ := h
    refine ⟨moves, _, hacts, hmoves, ?_⟩
    split
    · exact Or.inr rfl
    · exact Or.inl rfl
  · have hcursor : PCController.IsCursor acts := by
      simp only [Acts] at h
      rw [if_neg hn] at h
      cases action with
      | none => exact Or.inl h
      | some a =>
        cases a with
        | moveMouse => exact h
        | drag => exact h
        | click => exact absurd rfl hc
        | _ => exact Or.inl h
    exact ⟨acts, [], (List.append_nil acts).symm, hcursor, Or.inl rfl⟩

private theorem not_isDesktop_of_cursor_click {moves click : List OsEvent}
    (hm : PCController.IsCursor moves) (hc : PCController.IsClick click) :
    ∀ e ∈ moves ++ click, e.isDesktop = false := by
  intro e he
  rcases List.mem_append.mp he with he | he
  · rcases hm with rfl | ⟨x, y, rfl⟩
    · cases he
    · rw [List.mem_singleton.mp he]
      rfl
  · rcases hc with rfl | rfl
    · cases he
    · rcases List.mem_pair.mp he with rfl | rfl <;> rfl

omit [Scalar R] in
private theorem endsDrag_release (s : LoopState R) (p : Prop) [Decidable p] :
    EndsDrag s (if s.controller.isDragging = true ∧ p then [.leftUp] else []) := by
  split
  · next h => exact Or.inr ⟨rfl, h.1⟩
  · exact Or.inl rfl

private theorem active_of_analysed {inp : IterInput R} {s : LoopState R} (hr : ReachesRelease inp s)
    {r : Analysis R × GestureAnalyzer R} (ha : analysed inp (ready inp s) = some r) :
    Active (watched inp s).shared.globals ∧ (selectedHand inp s).isSome := by
  simp only [analysed] at ha
  split at ha
  · next hactive =>
    obtain ⟨hand, hhand, _⟩ := Option.map_eq_some_iff.mp ha
    refine ⟨hactive, ?_⟩
    simp only [selectedHand]
    rw [if_pos hr.1, hhand]
    rfl
  · cases ha

private theorem confined_of_analysis {inp : IterInput R} {s : LoopState R} (hs : s.cur = {})
    (hr : ReachesRelease inp s) {r : Analysis R × GestureAnalyzer R}
    (ha : analysed inp (ready inp s) = some r) : Confined (iterate inp s) := by
  have ⟨⟨acts, hacts, hout⟩, hdrag, hexec⟩ := iterate_acts hs hr ha rfl rfl
  have ⟨hactive, hhand⟩ := active_of_analysed hr ha
  have hup := endsDrag_release s (¬ Drags (watched inp s).shared.globals.gameMode
    (restrictAction (watched inp s).shared.globals.gameMode r.1.action))
  have hfull (hn : (watched inp s).shared.globals.gameMode.isStr "normal" = true) :
      FullControl inp s := ⟨hn, hactive, hhand⟩
  constructor
  case inactive =>
    rintro (hpaused | hnone)
    · exact absurd hactive hpaused
    · change selectedHand inp s = none at hnone
      rw [hnone] at hhand
      cases hhand
  case otherMode =>
    intro hn ho
    exact ⟨acts, _, hout, hacts.isCursor hn ho, hup⟩
  case osugame =>
    intro ho
    have hn : ¬ (watched inp s).shared.globals.gameMode.isStr "normal" = true := by
      intro hn
      rw [Json.isStr_iff] at hn
      change (watched inp s).shared.globals.gameMode.isStr "osugame" = true at ho
      rw [hn, Json.isStr_iff] at ho
      exact absurd (Json.str.inj ho) (by decide)
    have ⟨moves, click, happend, hmoves, hclick⟩ := hacts.isCursor_click hn
    exact ⟨moves, click, _, by rw [← happend]; exact hout, hmoves, hclick, hup⟩
  case desktop =>
    rintro ⟨e, he, hdesktop⟩
    apply hfull
    by_contra hn
    have ⟨moves, click, happend, hmoves, hclick⟩ := hacts.isCursor_click hn
    rw [hout] at he
    rcases List.mem_append.mp he with he | he
    · rw [happend] at he
      rw [not_isDesktop_of_cursor_click hmoves hclick e he] at hdesktop
      cases hdesktop
    · rcases hup with hnil | ⟨hsingle, -⟩
      · rw [hnil] at he
        cases he
      · rw [hsingle] at he
        rw [List.mem_singleton.mp he] at hdesktop
        cases hdesktop
  case dragStart =>
    rintro (h | ⟨-, h⟩)
    · exact hfull (hexec.mp h).1
    · exact hfull (hdrag.mp h).1

/-- Every iteration is confined. -/
theorem iterate_confined (inp : IterInput R) {s : LoopState R} (hs : s.cur = {}) :
    Confined (iterate inp s) := by
  cases ha : analysed inp (ready inp s) with
  | none => exact confined_of_no_analysis hs fun _ ↦ ha
  | some r =>
    by_cases hr : ReachesRelease inp s
    · exact confined_of_analysis hs hr ha
    · exact confined_of_no_analysis hs fun h ↦ absurd h hr

end Loop

/-- In every run, every iteration sends only what its mode, pause, calibration and selected
hand allow. -/
theorem iterations_confined (sh : Shared R) (w h : ℤ) (ticks : List (Tick R)) :
    ∀ r, .iterated r ∈ runVisionLoop sh w h ticks → Confined r := by
  apply forall_iterated_of_iterate
  intro inp s hs
  exact iterate_confined inp hs

/-- A drag carried into `fruitninja`: a cursor move and then the release. -/
theorem iterations_confined_of_drag :
    ∃ r : Iteration ℚ, Confined r ∧ r.after.cur.out = [.setCursorPos 320 240, .leftUp] := by
  have hrun : (runVisionLoop (R := ℚ) .online 640 480
      [.seeing 10 [⟨GestureAnalyzer.dragPose, "Right"⟩],
        .inMode "fruitninja" 11 [⟨GestureAnalyzer.clickPose, "Right"⟩]]).any
      (fun t ↦ t.sent = [.setCursorPos 320 240, .leftUp]) = true := by
    decide +kernel
  have ⟨t, ht, hsent⟩ := List.any_eq_true.mp hrun
  have hout := of_decide_eq_true hsent
  cases t with
  | stopped s => cases hout
  | iterated r => exact ⟨r, iterations_confined .online 640 480 _ r ht, hout⟩

end VisionGame.Vision
