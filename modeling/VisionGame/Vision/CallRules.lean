import VisionGame.Vision.IterationSpec

/-!
# Relations kept by what an iteration calls

Library `Vision`. `src/mediapipe/app_gestures.py:472–758`. An iteration reaches the controller and
the log only through a few calls, each at a clock reading of its own. A relation between states
that these calls keep is kept by the whole dispatch, and by the whole iteration when it does not
look at what the calls leave alone.
-/

namespace VisionGame.Vision
open VisionGame.Base
open Effect

variable {R : Type} [Scalar R]

/-- Actions that are logged. -/
def Action.IsLogged (action : Action) : Prop := action ≠ .moveMouse ∧ action ≠ .hover

/-- The loop starts fresh, with a controller that has been constructed. -/
theorem startLoop_fresh {sh : Shared R} {w h : ℤ} {s : LoopState R}
    (hs : startLoop sh w h = .ok s) :
    s = .fresh sh (exec (PCController.updateFilterParams sh.globals.suavVal) (.blank w h)).2 := by
  simp only [startLoop] at hs
  split at hs
  · cases hs
  · next heq =>
    rw [← Except.ok.inj hs, heq]

namespace Loop

/-! ### Rules for the watcher -/

section
variable {r : LoopState R → LoopState R → Prop} [Std.Refl r] [IsTrans (LoopState R) r]
  (hassign : ∀ f, Respects r (assign f)) (hfilters : ∀ v, Respects r (updateFilterParams v))
  {inp : IterInput R}
  (hcamera : ∀ source s,
    r s { s with shared := startCameraStream source inp.opens inp.written s.shared })
include hassign hfilters hcamera

/-- The reload keeps what its writes keep. -/
theorem respects_reloadConfig (document : Document R) :
    Respects r (reloadConfig inp document) := by
  cases document with
  | other _ => exact respects_throw _
  | object cfg =>
    refine respects_bind (hassign _) fun _ ↦ ?_
    refine respects_bind (respects_toFloat _) fun _ ↦ ?_
    refine respects_bind (hassign _) fun _ ↦ ?_
    refine respects_bind (hassign _) fun _ ↦ ?_
    refine respects_bind (respects_zonePair _) fun _ ↦ ?_
    refine respects_bind (hassign _) fun _ ↦ ?_
    refine respects_bind (respects_zonePair _) fun _ ↦ ?_
    refine respects_bind (hassign _) fun _ ↦ ?_
    refine respects_bind (hfilters _) fun _ ↦ ?_
    exact respects_followCamera _ _ fun s ↦ hcamera _ s

/-- The watcher keeps what its writes and its two notes keep. -/
theorem respects_configWatcher (hcheck : ∀ s now, r s { s with lastConfigCheck := now })
    (hmtime : ∀ s mtime, r s { s with lastMtime := mtime }) :
    Respects r (configWatcher inp) := by
  refine respects_bind respects_get fun s ↦ ?_
  split
  · refine respects_bind (respects_modify fun s ↦ hcheck s _) fun _ ↦ ?_
    refine respects_tryCatch ?_ fun _ ↦ respects_pure _
    refine respects_bind respects_get fun s ↦ ?_
    split
    · exact respects_pure _
    · split
      · refine respects_bind (respects_modify fun s ↦ hmtime s _) fun _ ↦ ?_
        refine respects_bind (respects_orRaise _ _) fun _ ↦ ?_
        exact respects_reloadConfig hassign hfilters hcamera _
      · exact respects_pure _
  · exact respects_pure _

end

/-! ### Rules for the dispatch -/

/-- The relation is kept by every call that an iteration may make to act on an analysis. -/
structure KeptByCalls (r : LoopState R → LoopState R → Prop) (inp : IterInput R)
    (analysis : Analysis R) : Prop where
  filters : ∀ s : LoopState R,
    r s (exec (updateFilterParams s.shared.globals.suavVal) s).2
  log : ∀ gesture action, Action.IsLogged action → ∀ s : LoopState R,
    r s { s with log := logGestureEvent inp.clock.log gesture action s.log }
  move : ∀ s target, exec (cursorTarget analysis) s = (.ok target, s) →
    r s (exec (perform fun c ↦ c.moveMouse target.1 target.2 inp.clock.move) s).2
  click : ∀ freeze debounce, Respects r (perform fun c ↦ c.click freeze debounce inp.clock.act)
  rightClick : Respects r (perform fun c ↦ c.rightClick inp.clock.act)
  dragStart : Respects r (perform PCController.dragStart)
  dragStop : Respects r (perform PCController.dragStop)
  swipeLeft : Respects r (perform fun c ↦ c.swipeLeft inp.clock.act)
  swipeRight : Respects r (perform fun c ↦ c.swipeRight inp.clock.act)
  showDesktop : Respects r (showDesktop inp.clock.act)
  mark : ∀ action, Respects r (markExecuted action)

/-- A coordinate of the cursor only reads, and only the globals. -/
theorem exec_normalise_congr (raw : R) (zoneMin zoneMax : Json R) {s t : LoopState R}
    (h : t.shared = s.shared) :
    exec (normalise raw zoneMin zoneMax) t =
      ((exec (normalise raw zoneMin zoneMax) s).1, t) := by
  simp only [normalise]
  cases zoneMin.asNumber with
  | none => rfl
  | some lo =>
    cases zoneMax.asNumber with
    | none => rfl
    | some hi =>
      simp only [exec_bind, exec_orRaise_some]
      split
      · rfl
      · simp only [exec_bind, exec_get, h]
        rfl

/-- The cursor target only reads, and only the globals. -/
theorem exec_cursorTarget_congr (analysis : Analysis R) {s t : LoopState R}
    (h : t.shared = s.shared) :
    exec (cursorTarget analysis) t = ((exec (cursorTarget analysis) s).1, t) := by
  simp only [cursorTarget]
  rw [exec_bind_get, exec_bind_get, h, exec_bind, exec_bind, exec_normalise_congr _ _ _ h,
    exec_normalise_congr _ _ _ (rfl : s.shared = s.shared)]
  let g := s.shared.globals
  cases (exec (normalise analysis.cursorX g.zoneXMin g.zoneXMax) s).1 with
  | error e => rfl
  | ok x =>
    dsimp only
    rw [exec_bind, exec_bind, exec_normalise_congr _ _ _ h,
      exec_normalise_congr _ _ _ (rfl : s.shared = s.shared)]
    cases (exec (normalise analysis.cursorY g.zoneYMin g.zoneYMax) s).1 with
    | error e => rfl
    | ok y => rfl

private theorem kept_of_cursorTarget {r : LoopState R → LoopState R → Prop} [Std.Refl r]
    {analysis : Analysis R} {β : Type} {f : R × R → Loop R β} (s : LoopState R)
    (hf : ∀ target, exec (cursorTarget analysis) s = (.ok target, s) → r s (exec (f target) s).2) :
    r s (exec (cursorTarget analysis >>= f) s).2 := by
  have hread := exec_cursorTarget_congr analysis (rfl : s.shared = s.shared)
  cases hresult : (exec (cursorTarget analysis) s).1 with
  | error e =>
    rw [hresult] at hread
    rw [exec_bind_error hread]
    exact Std.Refl.refl s
  | ok target =>
    rw [hresult] at hread
    rw [exec_bind_ok hread]
    exact hf target hread

section
variable {r : LoopState R → LoopState R → Prop} [Std.Refl r] [IsTrans (LoopState R) r]
  {inp : IterInput R} {analysis : Analysis R} (h : KeptByCalls r inp analysis)
include h

private theorem KeptByCalls.executeAction (action : Option Action) :
    Respects r (executeAction inp analysis action) := by
  have hmarked {m : Loop R Unit} (hm : Respects r m) (a : Action) :
      Respects r (m >>= fun _ ↦ markExecuted a) := respects_bind hm fun _ ↦ h.mark a
  refine respects_bind respects_get fun s ↦ ?_
  dsimp only
  split
  · intro t
    refine kept_of_cursorTarget t fun target htarget ↦ ?_
    apply IsTrans.trans _ _ _ (h.move t target htarget)
    have hrest : Respects r
        (if s.shared.globals.gameMode.isStr "osugame" ∧ action = some .click then
          perform (fun c ↦ c.click false 0.15 inp.clock.act) >>= fun _ ↦ markExecuted .click
        else markExecuted .moveMouse) := by
      split
      · exact hmarked (h.click _ _) _
      · exact h.mark _
    exact hrest _
  · split
    · exact hmarked (h.click _ _) _
    · split
      · exact hmarked h.rightClick _
      · split
        · intro t
          refine kept_of_cursorTarget t fun target htarget ↦ ?_
          -- pressing the button leaves the target where it was
          have hpressed : exec (cursorTarget analysis) (exec (perform PCController.dragStart) t).2 =
              ((exec (cursorTarget analysis) t).1, (exec (perform PCController.dragStart) t).2) :=
            exec_cursorTarget_congr analysis rfl
          rw [htarget] at hpressed
          apply IsTrans.trans _ _ _ (h.dragStart t)
          exact IsTrans.trans _ _ _ (h.move _ target hpressed) (h.mark _ _)
        · split
          · exact hmarked h.swipeLeft _
          · split
            · exact hmarked h.swipeRight _
            · split
              · exact hmarked h.showDesktop _
              · exact respects_pure _

/-- Acting on an analysis makes some of the calls. -/
theorem KeptByCalls.actOn : Respects r (actOn inp analysis) := by
  refine respects_bind respects_get fun s ↦ ?_
  refine respects_bind ?_ fun _ ↦ ?_
  · intro t
    unfold syncFilter
    rw [exec_bind_get]
    split
    · exact h.filters t
    · exact Std.Refl.refl t
  refine respects_bind ?_ fun _ ↦ ?_
  · intro t
    generalize restrictAction s.shared.globals.gameMode analysis.action = action
    match action with
    | none | some .moveMouse | some .hover => exact Std.Refl.refl t
    | some .click | some .rightClick | some .drag | some .showDesktop | some .swipeRight
    | some .swipeLeft => exact h.log _ _ (by simp [Action.IsLogged]) t
  refine respects_bind (h.executeAction _) fun _ ↦ ?_
  refine respects_bind respects_get fun s ↦ ?_
  dsimp only
  split
  · exact h.dragStop
  · exact respects_pure _

end

/-- Processing a frame analyses the selected hand and makes some of the calls. -/
theorem respects_processActions {r : LoopState R → LoopState R → Prop} [Std.Refl r]
    [IsTrans (LoopState R) r] {inp : IterInput R}
    (hcalls : ∀ analysis, KeptByCalls r inp analysis)
    (hanalysis : ∀ s result, r s (withAnalysis s result)) : Respects r (processActions inp) := by
  have hstop : Respects r (perform PCController.dragStop : Loop R Unit) :=
    (hcalls ⟨.none, none, 0, 0, 0, 0⟩).dragStop
  refine respects_bind respects_get fun s ↦ ?_
  split
  · split
    · refine respects_bind (respects_modify fun s ↦ hanalysis s _) fun _ ↦ ?_
      exact (hcalls _).actOn
    · exact hstop
  · exact hstop

/-! ### Rules for an iteration -/

/-- What only the calls change. -/
def called (s : LoopState R) := (s.controller.buttons, s.lastDesktopTime, s.log, s.cur.out)

section
variable {r : LoopState R → LoopState R → Prop} [Std.Refl r] [IsTrans (LoopState R) r]
  {inp : IterInput R} (hsame : ∀ s t, called t = called s → r s t)
  (hcalls : ∀ analysis, KeptByCalls r inp analysis)
include hsame hcalls

/-- An iteration keeps a relation about what only the calls change when these keep it. -/
theorem respects_iteration : Respects r (iteration inp) := by
  have hassign (f : Globals R → Globals R) : Respects r (assign f) := fun s ↦ hsame s _ rfl
  refine respects_bind ?_ fun _ ↦ ?_
  · intro s
    apply hsame
    have hunwatched := configWatcher_unwatched inp s
    simp only [SameUnder, unwatched, Prod.mk.injEq] at hunwatched
    simp only [called, hunwatched]
  · refine respects_bind respects_get fun s ↦ ?_
    split
    · refine respects_bind (hassign _) fun _ ↦ ?_
      refine respects_bind (respects_modify fun s ↦ hsame s _ rfl) fun _ ↦ ?_
      refine respects_bind ?_ fun _ ↦ ?_
      · refine respects_bind respects_get fun s ↦ ?_
        refine respects_bind (respects_orRaise _ _) fun _ ↦ ?_
        refine respects_bind (respects_orRaise _ _) fun _ ↦ ?_
        refine respects_bind (respects_orRaise _ _) fun _ ↦ ?_
        exact respects_bind (respects_orRaise _ _) fun _ ↦ respects_pure _
      · refine respects_bind (respects_modify fun s ↦ hsame s _ rfl) fun _ ↦ ?_
        refine respects_bind ?_ fun _ ↦ ?_
        · exact respects_processActions hcalls fun s _ ↦ hsame s _ rfl
        · intro s
          apply hsame
          have hunshared : unshared (exec (finish inp) s).2 = unshared s := finish_unshared inp s
          simp only [unshared, Prod.mk.injEq] at hunshared
          change called (exec (finish inp) s).2 = called s
          simp only [called, hunshared]
    · exact respects_bind (hassign _) fun _ ↦ respects_pure _

end

end Loop
end VisionGame.Vision
