import VisionGame.Vision.Loop

/-!
# What one analysed hand does

Library `Vision`. Specification of the action dispatch of `run_vision_loop`
(`src/mediapipe/app_gestures.py:625–717`): when it raises, what it sends and how it leaves the
drag. Everything the run theorems need of the dispatch is stated here once.
-/

namespace VisionGame.Vision
open VisionGame.Base
open Effect

variable {R : Type} [Scalar R]

namespace Loop

omit [Scalar R] in
/-- Globals are assigned. -/
@[simp] theorem exec_assign (f : Globals R → Globals R) (s : LoopState R) :
    exec (assign f) s = (.ok (), { s with shared := s.shared.assign f }) := rfl

omit [Scalar R] in
/-- What follows an assignment sees it. -/
theorem exec_bind_assign {β : Type} (f : Globals R → Globals R) (g : Unit → Loop R β)
    (s : LoopState R) :
    exec (assign f >>= g) s = exec (g ()) { s with shared := s.shared.assign f } := rfl

omit [Scalar R] in
/-- A method of the controller runs, and its events are sent. -/
@[simp] theorem exec_perform (f : PCController R → PCController R × List OsEvent)
    (s : LoopState R) :
    exec (perform f) s = (.ok (), { s with
      controller := (f s.controller).1
      cur := { s.cur with out := s.cur.out ++ (f s.controller).2 } }) := rfl

omit [Scalar R] in
/-- The action is noted as executed. -/
@[simp] theorem exec_markExecuted (action : Action) (s : LoopState R) :
    exec (markExecuted action) s =
      (.ok (), { s with cur := { s.cur with executed := some action } }) := rfl

/-- State after the drag has been released. -/
def stopDrag (s : LoopState R) : LoopState R :=
  { s with
    controller := s.controller.dragStop.1
    cur := { s.cur with out := s.cur.out ++ s.controller.dragStop.2 } }

/-! ### When the cursor target exists -/

/-- Width of a zone, present when both bounds are numbers. -/
def span (zoneMin zoneMax : Json R) : Option R :=
  match zoneMin.asNumber, zoneMax.asNumber with
  | some lo, some hi => some (hi - lo)
  | _, _ => none

/-- Both widths are numbers other than zero. -/
def ZoneUsable (g : Globals R) : Prop :=
  (∃ w, span g.zoneXMin g.zoneXMax = some w ∧ w ≠ 0) ∧
    ∃ w, span g.zoneYMin g.zoneYMax = some w ∧ w ≠ 0

/-- A width other than zero gives a coordinate, and nothing is written. -/
theorem exec_normalise_ok (raw : R) {zoneMin zoneMax : Json R} {w : R} (s : LoopState R)
    (hw : span zoneMin zoneMax = some w) (hne : w ≠ 0) :
    ∃ v, exec (normalise raw zoneMin zoneMax) s = (.ok v, s) := by
  simp only [span] at hw
  split at hw
  · next lo hi hlo hhi =>
    have hd : hi - lo ≠ 0 := by
      rw [Option.some.inj hw]
      exact hne
    exact ⟨_, by simp [normalise, exec_bind, hlo, hhi, hd, Except.map]; rfl⟩
  · cases hw

/-- Without such a width the coordinate raises, and nothing is written. -/
theorem exec_normalise_error (raw : R) {zoneMin zoneMax : Json R} (s : LoopState R)
    (h : ¬ ∃ w, span zoneMin zoneMax = some w ∧ w ≠ 0) :
    ∃ e, exec (normalise raw zoneMin zoneMax) s = (.error e, s) := by
  simp only [span] at h
  simp only [normalise]
  cases hlo : zoneMin.asNumber with
  | none => exact ⟨_, by simp [exec_bind]; rfl⟩
  | some lo =>
    cases hhi : zoneMax.asNumber with
    | none => exact ⟨_, by simp [exec_bind]; rfl⟩
    | some hi =>
      have hd : hi - lo = 0 := by
        by_contra hne
        exact h ⟨hi - lo, by simp [hlo, hhi], hne⟩
      exact ⟨_, by simp [exec_bind, hd]; rfl⟩

/-- In a usable zone the cursor target is a value, and nothing is written. -/
theorem exec_cursorTarget_ok (analysis : Analysis R) {s : LoopState R}
    (h : ZoneUsable s.shared.globals) :
    ∃ v, exec (cursorTarget analysis) s = (.ok v, s) := by
  obtain ⟨⟨wx, hwx, hx⟩, wy, hwy, hy⟩ := h
  obtain ⟨vx, hvx⟩ := exec_normalise_ok analysis.cursorX s hwx hx
  obtain ⟨vy, hvy⟩ := exec_normalise_ok analysis.cursorY s hwy hy
  exact ⟨(vx, vy), by simp [cursorTarget, exec_bind, hvx, hvy, Except.map]⟩

/-- In an unusable zone the cursor target raises, and nothing is written. -/
theorem exec_cursorTarget_error (analysis : Analysis R) {s : LoopState R}
    (h : ¬ ZoneUsable s.shared.globals) :
    ∃ e, exec (cursorTarget analysis) s = (.error e, s) := by
  by_cases hx : ∃ w, span s.shared.globals.zoneXMin s.shared.globals.zoneXMax = some w ∧ w ≠ 0
  · obtain ⟨wx, hwx, hx'⟩ := hx
    obtain ⟨vx, hvx⟩ := exec_normalise_ok analysis.cursorX s hwx hx'
    obtain ⟨e, he⟩ := exec_normalise_error analysis.cursorY s
      (fun hy ↦ h ⟨⟨wx, hwx, hx'⟩, hy⟩)
    exact ⟨e, by simp [cursorTarget, exec_bind, hvx, he, Except.map]⟩
  · obtain ⟨e, he⟩ := exec_normalise_error analysis.cursorX s hx
    exact ⟨e, by simp [cursorTarget, exec_bind, he]⟩

/-! ### What an executed action sends -/

/-- The action drags: `DRAG` in normal mode. -/
def Drags (gameMode : Json R) (action : Option Action) : Prop :=
  gameMode.isStr "normal" ∧ action = some .drag

instance (gameMode : Json R) (action : Option Action) : Decidable (Drags gameMode action) :=
  inferInstanceAs (Decidable (_ ∧ _))

/-- The action needs a cursor target. -/
def UsesCursor (gameMode : Json R) (action : Option Action) : Prop :=
  action = some .moveMouse ∨ action = some .drag ∨
    (¬ gameMode.isStr "normal" ∧ action = some .click)

/-- The click of an action would pass the limiter it meets in this mode. -/
def clickPasses (inp : IterInput R) (gameMode : Json R) (c : PCController R) : Bool :=
  c.clickDue (if gameMode.isStr "normal" then 0.3 else 0.15) inp.clock.act

/-- Events an action sends before the drag is released, by mode and action. -/
def Acts (gameMode : Json R) (action : Option Action) (passes dragging : Bool)
    (acts : List OsEvent) : Prop :=
  if gameMode.isStr "normal" then
    match action with
    | some .moveMouse => PCController.IsCursor acts
    | some .click => acts = if passes then [.leftDown, .leftUp] else []
    | some .rightClick => acts = [] ∨ acts = [.rightDown, .rightUp]
    | some .drag =>
      ∃ moves, PCController.IsCursor moves ∧
        acts = (if dragging then [] else [.leftDown]) ++ moves
    | some .swipeLeft | some .swipeRight | some .showDesktop =>
      acts = [] ∨ ∃ keys, acts = [.hotkey keys]
    | some .hover | none => acts = []
  else
    match action with
    | some .moveMouse | some .drag => PCController.IsCursor acts
    | some .click =>
      ∃ moves, PCController.IsCursor moves ∧
        acts = moves ++ if gameMode.isStr "osugame" ∧ passes then [.leftDown, .leftUp] else []
    | _ => acts = []

/-- What an action does to the variables of the loop; nothing else changes. -/
structure Effects (R : Type) where
  controller : PCController R
  lastDesktopTime : R
  acts : List OsEvent
  executed : Option Action

/-- State after the effects of an action. -/
def performed (s : LoopState R) (e : Effects R) : LoopState R :=
  { s with
    controller := e.controller
    lastDesktopTime := e.lastDesktopTime
    cur := { s.cur with out := s.cur.out ++ e.acts, executed := e.executed } }

/-- The effects are those of this action in the mode of the state. -/
structure Effects.Fits (inp : IterInput R) (action : Option Action) (s : LoopState R)
    (e : Effects R) : Prop where
  acts : Acts s.shared.globals.gameMode action
    (clickPasses inp s.shared.globals.gameMode s.controller) s.controller.isDragging e.acts
  drag : e.controller.isDragging =
    (s.controller.isDragging || decide (Drags s.shared.globals.gameMode action))
  executed : e.executed = some .drag ↔ Drags s.shared.globals.gameMode action

/-- The effects of an action without a branch. -/
def Effects.idle (s : LoopState R) : Effects R :=
  ⟨s.controller, s.lastDesktopTime, [], s.cur.executed⟩

omit [Scalar R] in
private theorem performed_idle (s : LoopState R) : performed s (.idle s) = s := by
  simp [performed, Effects.idle]

/-- Without a usable zone an action that needs the cursor raises before anything happens. -/
theorem exec_executeAction_error (inp : IterInput R) (analysis : Analysis R)
    (action : Option Action) {s : LoopState R}
    (hu : UsesCursor s.shared.globals.gameMode action) (hz : ¬ ZoneUsable s.shared.globals) :
    ∃ e, exec (executeAction inp analysis action) s = (.error e, s) := by
  obtain ⟨e, he⟩ := exec_cursorTarget_error analysis hz
  refine ⟨e, ?_⟩
  simp only [executeAction]
  rw [exec_bind_get]
  rcases hu with rfl | rfl | ⟨hn, rfl⟩
  · simp [exec_bind, he]
  · by_cases hn : s.shared.globals.gameMode.isStr "normal" <;> simp [hn, exec_bind, he]
  · simp [hn, exec_bind, he]

/-- Win+D is sent or not, and never raises. -/
theorem exec_showDesktop (now : R) (s : LoopState R) :
    ∃ desktop acts, exec (showDesktop now) s =
        (.ok (), performed s ⟨s.controller, desktop, acts, s.cur.executed⟩) ∧
      (acts = [] ∨ ∃ keys, acts = [.hotkey keys]) := by
  simp only [showDesktop]
  rw [exec_bind_get]
  split
  · exact ⟨now, [.hotkey ["win", "d"]], rfl, Or.inr ⟨_, rfl⟩⟩
  · exact ⟨s.lastDesktopTime, [], by simp [performed], Or.inl rfl⟩

private theorem executeAction_normal (inp : IterInput R) (analysis : Analysis R)
    (action : Option Action) {s : LoopState R} (hx : s.cur.executed = none)
    (hn : s.shared.globals.gameMode.isStr "normal" = true)
    (hz : UsesCursor s.shared.globals.gameMode action → ZoneUsable s.shared.globals) :
    ∃ e : Effects R, exec (executeAction inp analysis action) s = (.ok (), performed s e) ∧
      e.Fits inp action s := by
  simp only [executeAction]
  rw [exec_bind_get]
  rcases action with _ | a
  · exact ⟨.idle s, by simp [hn, performed_idle],
      by simp [Acts, hn, Effects.idle], by simp [Drags, Effects.idle],
      by simp [Drags, Effects.idle, hx]⟩
  cases a with
  | moveMouse =>
    obtain ⟨v, hv⟩ := exec_cursorTarget_ok analysis (hz (Or.inl rfl))
    let r := s.controller.moveMouse v.1 v.2 inp.clock.move
    refine ⟨⟨r.1, s.lastDesktopTime, r.2, some .moveMouse⟩,
      by simp [hn, exec_bind, hv, performed, r], ?_, ?_, by simp [Drags]⟩
    · simpa [Acts, hn] using s.controller.moveMouse_isCursor v.1 v.2 inp.clock.move
    · simp [Drags, r, PCController.moveMouse_isDragging]
  | click =>
    let r := s.controller.click true 0.3 inp.clock.act
    refine ⟨⟨r.1, s.lastDesktopTime, r.2, some .click⟩,
      by simp [hn, exec_bind, performed, r], ?_, ?_, by simp [Drags]⟩
    · simp [Acts, hn, clickPasses, r, PCController.click_events]
    · simp [Drags, r, PCController.click_isDragging]
  | rightClick =>
    let r := s.controller.rightClick inp.clock.act
    refine ⟨⟨r.1, s.lastDesktopTime, r.2, some .rightClick⟩,
      by simp [hn, exec_bind, performed, r], ?_, ?_, by simp [Drags]⟩
    · simpa [Acts, hn] using s.controller.rightClick_events inp.clock.act
    · simp [Drags, r, PCController.rightClick_isDragging]
  | drag =>
    obtain ⟨v, hv⟩ := exec_cursorTarget_ok analysis (hz (Or.inr (Or.inl rfl)))
    let r := s.controller.dragStart.1.moveMouse v.1 v.2 inp.clock.move
    refine ⟨⟨r.1, s.lastDesktopTime, s.controller.dragStart.2 ++ r.2, some .drag⟩,
      by simp [hn, exec_bind, hv, performed, r], ?_, ?_, by simp [Drags, hn]⟩
    · have hm := s.controller.dragStart.1.moveMouse_isCursor v.1 v.2 inp.clock.move
      simp only [Acts, hn, PCController.dragStart_events]
      exact ⟨r.2, hm, rfl⟩
    · simp [Drags, hn, r, PCController.moveMouse_isDragging, PCController.dragStart_isDragging]
  | hover =>
    exact ⟨.idle s, by simp [hn, performed_idle],
      by simp [Acts, hn, Effects.idle], by simp [Drags, Effects.idle],
      by simp [Drags, Effects.idle, hx]⟩
  | showDesktop =>
    obtain ⟨desktop, acts, hd, ha⟩ := exec_showDesktop inp.clock.act s
    exact ⟨⟨s.controller, desktop, acts, some .showDesktop⟩,
      by simp [hn, exec_bind, hd, performed], by simpa [Acts, hn] using ha,
      by simp [Drags], by simp [Drags]⟩
  | swipeRight =>
    let r := PCController.swipe ["win", "ctrl", "right"] s.controller inp.clock.act
    refine ⟨⟨r.1, s.lastDesktopTime, r.2, some .swipeRight⟩,
      by simp [hn, exec_bind, performed, r, PCController.swipeRight], ?_, ?_, by simp [Drags]⟩
    · simpa [Acts, hn] using
        PCController.swipe_events ["win", "ctrl", "right"] s.controller inp.clock.act
    · simp [Drags, r, PCController.swipe_isDragging]
  | swipeLeft =>
    let r := PCController.swipe ["win", "ctrl", "left"] s.controller inp.clock.act
    refine ⟨⟨r.1, s.lastDesktopTime, r.2, some .swipeLeft⟩,
      by simp [hn, exec_bind, performed, r, PCController.swipeLeft], ?_, ?_, by simp [Drags]⟩
    · simpa [Acts, hn] using
        PCController.swipe_events ["win", "ctrl", "left"] s.controller inp.clock.act
    · simp [Drags, r, PCController.swipe_isDragging]

private theorem executeAction_other (inp : IterInput R) (analysis : Analysis R)
    (action : Option Action) {s : LoopState R} (hx : s.cur.executed = none)
    (hn : ¬ s.shared.globals.gameMode.isStr "normal" = true)
    (hz : UsesCursor s.shared.globals.gameMode action → ZoneUsable s.shared.globals) :
    ∃ e : Effects R, exec (executeAction inp analysis action) s = (.ok (), performed s e) ∧
      e.Fits inp action s := by
  simp only [executeAction]
  rw [exec_bind_get]
  by_cases hu : UsesCursor s.shared.globals.gameMode action
  · obtain ⟨v, hv⟩ := exec_cursorTarget_ok analysis (hz hu)
    let r := s.controller.moveMouse v.1 v.2 inp.clock.move
    have hr : PCController.IsCursor r.2 := s.controller.moveMouse_isCursor v.1 v.2 inp.clock.move
    have hd : r.1.isDragging = s.controller.isDragging := PCController.moveMouse_isDragging ..
    by_cases hc : s.shared.globals.gameMode.isStr "osugame" ∧ action = some .click
    · let k := r.1.click false 0.15 inp.clock.act
      obtain ⟨ho, rfl⟩ := hc
      refine ⟨⟨k.1, s.lastDesktopTime, r.2 ++ k.2, some .click⟩,
        by simp [hn, ho, exec_bind, hv, performed, r, k], ?_, ?_, by simp [Drags]⟩
      · simp only [Acts, hn, ho, clickPasses, k, PCController.click_events]
        refine ⟨r.2, hr, ?_⟩
        simp [PCController.clickDue, r, PCController.moveMouse_lastClickTime]
      · simp [Drags, k, PCController.click_isDragging, hd]
    · refine ⟨⟨r.1, s.lastDesktopTime, r.2, some .moveMouse⟩, ?_, ?_, ?_, by simp [Drags, hn]⟩
      · rcases hu with rfl | rfl | ⟨-, rfl⟩ <;> simp_all [exec_bind, performed, r]
      · rcases hu with rfl | rfl | ⟨-, rfl⟩
        · simpa [Acts, hn] using hr
        · simpa [Acts, hn] using hr
        · have ho : ¬ s.shared.globals.gameMode.isStr "osugame" = true := fun ho ↦ hc ⟨ho, rfl⟩
          simpa [Acts, hn, ho] using hr
      · simp [Drags, hn, hd]
  · have hb : action ≠ some .moveMouse ∧ action ≠ some .click ∧ action ≠ some .drag := by
      simp only [UsesCursor] at hu
      tauto
    refine ⟨.idle s, by simp [hb.1, hb.2.1, hb.2.2, hn, performed_idle], ?_,
      by simp [Drags, hn, Effects.idle], by simp [Drags, hn, hx, Effects.idle]⟩
    rcases action with _ | a
    · simp [Acts, hn, Effects.idle]
    · cases a <;> simp_all [Acts, UsesCursor, Effects.idle]

/-- Executing an action succeeds when the zone is usable or no cursor target is needed, and
then has the effects of the action. -/
theorem exec_executeAction_ok (inp : IterInput R) (analysis : Analysis R)
    (action : Option Action) {s : LoopState R} (hx : s.cur.executed = none)
    (hz : UsesCursor s.shared.globals.gameMode action → ZoneUsable s.shared.globals) :
    ∃ e : Effects R, exec (executeAction inp analysis action) s = (.ok (), performed s e) ∧
      e.Fits inp action s := by
  by_cases hn : s.shared.globals.gameMode.isStr "normal" = true
  · exact executeAction_normal inp analysis action hx hn hz
  · exact executeAction_other inp analysis action hx hn hz

/-! ### The whole treatment of an analysed hand -/

/-- What the preparation of an action leaves alone: everything but filters and log. -/
def quiet (s : LoopState R) :=
  (s.shared, s.analyzer, (s.wrongHandFrames, s.lastMtime), s.controller.buttons, s.cur)

/-- The smoothing setting is the one in use, or a number that a float holds. -/
def Tuned (s : LoopState R) : Prop :=
  s.controller.suavidad.pyEq s.shared.globals.suavVal ∨
    s.shared.globals.suavVal.asFloat.isSome

/-- The analysis can be acted on without raising. -/
def Dispatchable (analysis : Analysis R) (s : LoopState R) : Prop :=
  Tuned s ∧
    (UsesCursor s.shared.globals.gameMode
        (restrictAction s.shared.globals.gameMode analysis.action) →
      ZoneUsable s.shared.globals)

private theorem syncFilter_quiet : Respects (SameUnder quiet) (syncFilter : Loop R Unit) := by
  intro s
  simp only [syncFilter]
  rw [exec_bind_get]
  split
  · simp [SameUnder, quiet, updateFilterParams, (PCController.exec_updateFilterParams _ _).2]
  · rfl

private theorem exec_syncFilter_ok (s : LoopState R) :
    (exec syncFilter s).1 = .ok () ↔ Tuned s := by
  unfold syncFilter Tuned
  rw [exec_bind_get]
  split
  · next h => simp [updateFilterParams, (PCController.exec_updateFilterParams _ _).1, h]
  · next h => simp at h; simp [h]

private theorem exec_syncFilter_error {s : LoopState R} {e : PyError}
    (h : (exec syncFilter s).1 = .error e) : e ≠ .zeroDivisionError := by
  simp only [syncFilter] at h
  rw [exec_bind_get] at h
  split at h
  · rcases PCController.exec_updateFilterParams_error _ h with rfl | rfl <;> decide
  · cases h

private theorem exec_logAction (inp : IterInput R) (gesture : Gesture) (action : Option Action)
    (s : LoopState R) :
    ∃ log, exec (logAction inp gesture action) s = (.ok (), { s with log := log }) := by
  simp only [logAction]
  split
  · exact ⟨s.log, rfl⟩
  · exact ⟨s.log, rfl⟩
  · exact ⟨s.log, rfl⟩
  · exact ⟨_, rfl⟩

/-- What acting on an analysis leaves alone: shared variables, analyzer, counts and what has
been seen. -/
def seen (s : LoopState R) :=
  (s.shared, s.analyzer, (s.wrongHandFrames, s.lastMtime), s.cur.image, s.cur.hand,
    s.cur.analysis)

omit [Scalar R] in
/-- What agrees apart from filters and log has seen the same. -/
theorem seen_of_quiet {s t : LoopState R} (h : quiet t = quiet s) : seen t = seen s := by
  simp only [quiet, Prod.mk.injEq] at h
  simp only [seen, h.1, h.2.1, h.2.2.1, h.2.2.2.2]

/-- Outcome of acting on an action: what was sent, and how the drag is left. -/
structure ActedOn (inp : IterInput R) (action : Option Action) (s t : LoopState R) : Prop where
  context : seen t = seen s
  sent : ∃ acts,
    Acts s.shared.globals.gameMode action
      (clickPasses inp s.shared.globals.gameMode s.controller) s.controller.isDragging acts ∧
    t.cur.out = s.cur.out ++ acts ++
      if s.controller.isDragging ∧ ¬ Drags s.shared.globals.gameMode action then [.leftUp] else []
  drag : t.controller.isDragging = decide (Drags s.shared.globals.gameMode action)
  executed : t.cur.executed = some .drag ↔ Drags s.shared.globals.gameMode action

private theorem exec_execute_release (inp : IterInput R) (analysis : Analysis R)
    (action : Option Action) {s : LoopState R} (hx : s.cur.executed = none)
    (hz : UsesCursor s.shared.globals.gameMode action → ZoneUsable s.shared.globals) :
    ∃ t, exec (executeAction inp analysis action >>= fun _ ↦ releaseDrag action) s = (.ok (), t) ∧
      ActedOn inp action s t := by
  obtain ⟨e, he, hfit⟩ := exec_executeAction_ok inp analysis action hx hz
  rw [exec_bind_ok he]
  simp only [releaseDrag]
  rw [exec_bind_get]
  by_cases hd : Drags s.shared.globals.gameMode action
  · refine ⟨performed s e, ?_, rfl, ⟨e.acts, hfit.acts, ?_⟩, ?_, hfit.executed⟩
    · have hcond : ¬ (action ≠ some .drag ∨
          ¬ (performed s e).shared.globals.gameMode.isStr "normal" = true) := by
        rintro (h | h)
        · exact h hd.2
        · exact h hd.1
      rw [if_neg hcond]
      rfl
    · simp [performed, hd]
    · change e.controller.isDragging = _
      rw [hfit.drag]
      simp [hd]
  · have hdrag : e.controller.isDragging = s.controller.isDragging := by
      rw [hfit.drag]
      simp [hd]
    refine ⟨stopDrag (performed s e), ?_, rfl, ⟨e.acts, hfit.acts, ?_⟩, ?_, hfit.executed⟩
    · have hcond : action ≠ some .drag ∨
          ¬ (performed s e).shared.globals.gameMode.isStr "normal" = true := by
        by_contra h
        push Not at h
        exact hd ⟨h.2, h.1⟩
      rw [if_pos hcond]
      rfl
    · simp [stopDrag, performed, PCController.dragStop_events, hdrag, hd]
    · simp [stopDrag, PCController.dragStop_isDragging, hd]

/-- An analysis that can be acted on is, and the record of it fits its action. -/
theorem exec_actOn_ok (inp : IterInput R) {analysis : Analysis R} {s : LoopState R}
    (hx : s.cur.executed = none) (h : Dispatchable analysis s) :
    ∃ t, exec (actOn inp analysis) s = (.ok (), t) ∧
      ActedOn inp (restrictAction s.shared.globals.gameMode analysis.action) s t := by
  let action := restrictAction s.shared.globals.gameMode analysis.action
  have hq := syncFilter_quiet s
  have hsync : exec syncFilter s = (.ok (), (exec syncFilter s).2) :=
    Prod.ext ((exec_syncFilter_ok s).mpr h.1) rfl
  obtain ⟨log, hlog⟩ := exec_logAction inp analysis.gesture action (exec syncFilter s).2
  let u : LoopState R := { (exec syncFilter s).2 with log := log }
  have hu : quiet u = quiet s := hq
  simp only [quiet, Prod.mk.injEq] at hu
  obtain ⟨hshared, hanalyzer, hwrong, hbuttons, hcur⟩ := hu
  have hz : UsesCursor u.shared.globals.gameMode action → ZoneUsable u.shared.globals := by
    rw [hshared]
    exact h.2
  obtain ⟨t, ht, hacted⟩ := exec_execute_release inp analysis action (s := u)
    (by rw [hcur]; exact hx) hz
  refine ⟨t, ?_, ?_⟩
  · simp only [actOn]
    rw [exec_bind_get]
    rw [exec_bind_ok hsync, exec_bind_ok hlog]
    exact ht
  · obtain ⟨hcontext, ⟨acts, hacts, hout⟩, hdrag, hexec⟩ := hacted
    have hdragging : u.controller.isDragging = s.controller.isDragging :=
      congrArg Prod.fst hbuttons
    have hpass : clickPasses inp s.shared.globals.gameMode u.controller =
        clickPasses inp s.shared.globals.gameMode s.controller := by
      have ht : u.controller.lastClickTime = s.controller.lastClickTime :=
        congrArg (·.2.1) hbuttons
      simp only [clickPasses, PCController.clickDue, ht]
    rw [hshared, hdragging, hpass] at hacts
    rw [hshared, hdragging, hcur] at hout
    rw [hshared] at hdrag hexec
    exact ⟨hcontext.trans (seen_of_quiet hq), ⟨acts, hacts, hout⟩, hdrag, hexec⟩

/-- An analysis that cannot be acted on raises before anything is sent. -/
theorem exec_actOn_error (inp : IterInput R) {analysis : Analysis R} {s : LoopState R}
    (h : ¬ Dispatchable analysis s) :
    ∃ e t, exec (actOn inp analysis) s = (.error e, t) ∧ quiet t = quiet s ∧
      (ZoneUsable s.shared.globals → e ≠ .zeroDivisionError) := by
  let action := restrictAction s.shared.globals.gameMode analysis.action
  have hq : quiet (exec syncFilter s).2 = quiet s := syncFilter_quiet s
  simp only [actOn]
  rw [exec_bind_get]
  cases hr : (exec syncFilter s).1 with
  | error e =>
    have hsync : exec syncFilter s = (.error e, (exec syncFilter s).2) := Prod.ext hr rfl
    exact ⟨e, _, exec_bind_error hsync, hq, fun _ ↦ exec_syncFilter_error hr⟩
  | ok _ =>
    have hsync : exec syncFilter s = (.ok (), (exec syncFilter s).2) := Prod.ext hr rfl
    have htuned : Tuned s := (exec_syncFilter_ok s).mp hr
    obtain ⟨log, hlog⟩ := exec_logAction inp analysis.gesture action (exec syncFilter s).2
    rw [exec_bind_ok hsync, exec_bind_ok hlog]
    have hshared : (exec syncFilter s).2.shared = s.shared := congrArg Prod.fst hq
    have hbad : UsesCursor s.shared.globals.gameMode action ∧ ¬ ZoneUsable s.shared.globals := by
      by_contra hn
      exact h ⟨htuned, fun hu ↦ by_contra fun hz ↦ hn ⟨hu, hz⟩⟩
    obtain ⟨e, he⟩ := exec_executeAction_error inp analysis action
      (s := { (exec syncFilter s).2 with log := log })
      (by rw [hshared]; exact hbad.1) (by rw [hshared]; exact hbad.2)
    exact ⟨e, _, exec_bind_error he, hq, fun hz ↦ absurd hz hbad.2⟩

end Loop
end VisionGame.Vision
