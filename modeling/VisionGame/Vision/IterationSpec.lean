import VisionGame.Vision.Dispatch

/-!
# What one iteration does

Library `Vision`. Specification of one iteration of `run_vision_loop`
(`src/mediapipe/app_gestures.py:498–755`) in the three ways it can go: without an image, with
an image but a zone that cannot be drawn, and through the dispatch. The run theorems use
these equations and never unfold the loop.
-/

namespace VisionGame.Vision
open VisionGame.Base
open Effect

variable {R : Type} [Scalar R]

namespace Loop

/-! ### The config watcher -/

/-- What the watcher leaves alone: everything but settings, filters and file bookkeeping. -/
def unwatched (s : LoopState R) :=
  (s.analyzer, s.wrongHandFrames, s.controller.buttons, s.lastDesktopTime, s.log, s.cur)

omit [Scalar R] in
private theorem assign_unwatched (f : Globals R → Globals R) :
    Respects (SameUnder unwatched) (assign f) := fun _ ↦ rfl

omit [Scalar R] in
/-- Reading the two entries of a zone changes nothing. -/
theorem respects_zonePair {σ : Type} {r : σ → σ → Prop} [Std.Refl r] [IsTrans σ r]
    (zone : Json R) : Respects r (zonePair zone) :=
  respects_bind (respects_orRaise _ _) fun _ ↦
    respects_bind (respects_orRaise _ _) fun _ ↦ respects_pure _

private theorem updateFilterParams_unwatched (v : Json R) :
    Respects (SameUnder unwatched) (updateFilterParams v) := by
  intro s
  simp [SameUnder, unwatched, updateFilterParams, (PCController.exec_updateFilterParams _ _).2]

/-- Following the camera is respected when starting a stream is. -/
theorem respects_followCamera {r : LoopState R → LoopState R → Prop} [Std.Refl r]
    [IsTrans (LoopState R) r] (inp : IterInput R) (source : Json R)
    (h : ∀ s, r s { s with shared := startCameraStream source inp.opens inp.written s.shared }) :
    Respects r (followCamera inp source) := by
  refine respects_bind respects_get fun s ↦ ?_
  split
  · exact h
  · exact respects_pure _

private theorem reloadConfig_unwatched (inp : IterInput R) (document : Document R) :
    Respects (SameUnder unwatched) (reloadConfig inp document) := by
  cases document with
  | other _ => exact respects_throw _
  | object cfg =>
    refine respects_bind (assign_unwatched _) fun _ ↦ ?_
    refine respects_bind (respects_toFloat _) fun _ ↦ ?_
    refine respects_bind (assign_unwatched _) fun _ ↦ ?_
    refine respects_bind (assign_unwatched _) fun _ ↦ ?_
    refine respects_bind (respects_zonePair _) fun _ ↦ ?_
    refine respects_bind (assign_unwatched _) fun _ ↦ ?_
    refine respects_bind (respects_zonePair _) fun _ ↦ ?_
    refine respects_bind (assign_unwatched _) fun _ ↦ ?_
    refine respects_bind (updateFilterParams_unwatched _) fun _ ↦ ?_
    exact respects_followCamera _ _ fun _ ↦ rfl

private theorem checkConfig_unwatched (inp : IterInput R) :
    Respects (SameUnder unwatched) (checkConfig inp) := by
  refine respects_bind respects_get fun s ↦ ?_
  split
  · exact respects_pure _
  · split
    · refine respects_bind (respects_modify fun _ ↦ rfl) fun _ ↦ ?_
      exact respects_bind (respects_orRaise _ _) fun _ ↦ reloadConfig_unwatched _ _
    · exact respects_pure _

/-- The watcher changes neither buttons, analyzer, hand count nor locals. -/
theorem configWatcher_unwatched (inp : IterInput R) :
    Respects (SameUnder unwatched) (configWatcher inp) := by
  refine respects_bind respects_get fun s ↦ ?_
  split
  · refine respects_bind (respects_modify fun _ ↦ rfl) fun _ ↦ ?_
    exact respects_tryCatch (checkConfig_unwatched inp) fun _ ↦ respects_pure _
  · exact respects_pure _

private theorem configWatcher_ok (inp : IterInput R) (s : LoopState R) :
    (exec (configWatcher inp) s).1 = .ok () := by
  simp only [configWatcher]
  rw [exec_bind_get]
  split
  · rw [exec_bind_modify]
    rw [exec_tryCatch]
    split
    · rfl
    · rfl
  · rfl

/-- State after the watcher. -/
def watched (inp : IterInput R) (s : LoopState R) : LoopState R :=
  (exec (configWatcher inp) s).2

private theorem exec_configWatcher (inp : IterInput R) (s : LoopState R) :
    exec (configWatcher inp) s = (.ok (), watched inp s) :=
  Prod.ext (configWatcher_ok inp s) rfl

private theorem watched_unwatched (inp : IterInput R) (s : LoopState R) :
    unwatched (watched inp s) = unwatched s := configWatcher_unwatched inp s

private theorem watched_analyzer (inp : IterInput R) (s : LoopState R) :
    (watched inp s).analyzer = s.analyzer :=
  congrArg (fun u ↦ u.1) (watched_unwatched inp s)

/-- The watcher leaves the count of wrong hands alone. -/
theorem watched_wrongHandFrames (inp : IterInput R) (s : LoopState R) :
    (watched inp s).wrongHandFrames = s.wrongHandFrames :=
  congrArg (fun u ↦ u.2.1) (watched_unwatched inp s)

private theorem watched_buttons (inp : IterInput R) (s : LoopState R) :
    (watched inp s).controller.buttons = s.controller.buttons :=
  congrArg (fun u ↦ u.2.2.1) (watched_unwatched inp s)

/-- The watcher leaves the record of the iteration alone. -/
theorem watched_cur (inp : IterInput R) (s : LoopState R) : (watched inp s).cur = s.cur :=
  congrArg (fun u ↦ u.2.2.2.2.2) (watched_unwatched inp s)

/-! ### From the image to the selected hand -/

/-- All four zone bounds are numbers, so the zone can be drawn. -/
def ZoneNumeric (g : Globals R) : Prop :=
  g.zoneXMin.asNumber.isSome ∧ g.zoneYMin.asNumber.isSome ∧
    g.zoneXMax.asNumber.isSome ∧ g.zoneYMax.asNumber.isSome

/-- State once an image has been read. -/
def imaged (s : LoopState R) : LoopState R :=
  { s with
    shared := s.shared.assign fun g ↦ { g with cameraConnected := true }
    cur := { s.cur with image := true } }

/-- State once the controlling hand has been selected. -/
def framed (inp : IterInput R) (s : LoopState R) : LoopState R :=
  let selected := selectHand s.shared.globals.targetHandMp inp.hands s.wrongHandFrames
  { imaged s with
    wrongHandFrames := selected.2
    cur := { s.cur with image := true, hand := selected.1 } }

/-- State of an iteration that finds no image. -/
def disconnected (s : LoopState R) : LoopState R :=
  { s with shared := s.shared.assign fun g ↦ { g with cameraConnected := false } }

private theorem exec_drawZone_ok {s : LoopState R} (h : ZoneNumeric s.shared.globals) :
    exec drawZone s = (.ok (), s) := by
  obtain ⟨hx, hy, hX, hY⟩ := h
  obtain ⟨x, hx⟩ := Option.isSome_iff_exists.mp hx
  obtain ⟨y, hy⟩ := Option.isSome_iff_exists.mp hy
  obtain ⟨X, hX⟩ := Option.isSome_iff_exists.mp hX
  obtain ⟨Y, hY⟩ := Option.isSome_iff_exists.mp hY
  simp [drawZone, exec_bind, hx, hy, hX, hY, Except.map]

private theorem exec_drawZone_error {s : LoopState R} (h : ¬ ZoneNumeric s.shared.globals) :
    ∃ e, exec drawZone s = (.error e, s) := by
  unfold drawZone
  simp only [ZoneNumeric] at h
  rw [exec_bind_get]
  dsimp only
  cases hx : s.shared.globals.zoneXMin.asNumber with
  | none => exact ⟨_, by simp [exec_bind]; rfl⟩
  | some x =>
    cases hy : s.shared.globals.zoneYMin.asNumber with
    | none => exact ⟨_, by simp [exec_bind]; rfl⟩
    | some y =>
      cases hX : s.shared.globals.zoneXMax.asNumber with
      | none => exact ⟨_, by simp [exec_bind]; rfl⟩
      | some X =>
        cases hY : s.shared.globals.zoneYMax.asNumber with
        | none => exact ⟨_, by simp [exec_bind, Except.map]; rfl⟩
        | some Y => simp [hx, hy, hX, hY] at h

/-- The rest of an iteration after the dispatch. -/
def finish (inp : IterInput R) : Loop R IterEnd := do
  showStatus
  handleKey inp

/-- What the rest of an iteration leaves alone: everything but the shared variables. -/
def unshared (s : LoopState R) :=
  (s.controller, s.analyzer, s.wrongHandFrames, s.lastConfigCheck, s.lastMtime,
    s.lastDesktopTime, s.log, s.cur)

/-- It leaves them alone. -/
theorem finish_unshared (inp : IterInput R) :
    Respects (SameUnder unshared) (finish inp) := by
  have hassign (f : Globals R → Globals R) : Respects (SameUnder unshared) (assign f) :=
    fun _ ↦ rfl
  refine respects_bind ?_ fun _ ↦ ?_
  · refine respects_bind respects_get fun s ↦ ?_
    refine respects_bind (hassign _) fun _ ↦ ?_
    refine respects_bind respects_get fun s ↦ ?_
    split
    · exact respects_pure _
    · exact respects_throw _
  · simp only [handleKey]
    split
    · exact respects_bind (hassign _) fun _ ↦ respects_pure _
    · exact respects_bind (hassign _) fun _ ↦ respects_pure _
    · refine respects_bind respects_get fun s ↦ ?_
      split
      · exact respects_bind (respects_modify fun _ ↦ rfl) fun _ ↦ respects_pure _
      · exact respects_pure _
    · exact respects_pure _

/-! ### The three ways an iteration goes -/

/-- Without an image the iteration ends by `continue`. -/
theorem exec_iteration_skipped {inp : IterInput R} {s : LoopState R}
    (h : ¬ seesImage inp (watched inp s)) :
    exec (iteration inp) s = (.ok .skipped, disconnected (watched inp s)) := by
  simp only [iteration]
  rw [exec_bind_ok (exec_configWatcher inp s), exec_bind_get]
  rw [if_neg h]
  rfl

/-- With an image but a zone that is not numeric the iteration raises. -/
theorem exec_iteration_undrawn {inp : IterInput R} {s : LoopState R}
    (h : seesImage inp (watched inp s)) (hz : ¬ ZoneNumeric (watched inp s).shared.globals) :
    ∃ e, exec (iteration inp) s = (.error e, imaged (watched inp s)) := by
  obtain ⟨e, he⟩ := exec_drawZone_error (s := imaged (watched inp s)) hz
  refine ⟨e, ?_⟩
  simp only [iteration]
  rw [exec_bind_ok (exec_configWatcher inp s), exec_bind_get]
  rw [if_pos h]
  simp only [processFrame]
  rw [exec_bind_assign]
  rw [exec_bind_modify]
  exact exec_bind_error he

/-- Otherwise the selected hand is processed. -/
theorem exec_iteration_framed {inp : IterInput R} {s : LoopState R}
    (h : seesImage inp (watched inp s)) (hz : ZoneNumeric (watched inp s).shared.globals) :
    exec (iteration inp) s =
      exec (processActions inp >>= fun _ ↦ finish inp) (framed inp (watched inp s)) := by
  have hdraw := exec_drawZone_ok (s := imaged (watched inp s)) hz
  simp only [iteration]
  rw [exec_bind_ok (exec_configWatcher inp s), exec_bind_get]
  rw [if_pos h]
  simp only [processFrame]
  rw [exec_bind_assign]
  rw [exec_bind_modify]
  exact (exec_bind_ok hdraw).trans rfl

/-! ### The dispatch -/

/-- Detection is on and no calibration is under way. -/
def Active (g : Globals R) : Prop := g.detectionActive ∧ g.calibrationStep = 0

omit [Scalar R] in
instance (g : Globals R) : Decidable (Active g) := inferInstanceAs (Decidable (_ ∧ _))

/-- State in which an iteration selects its action: after the watcher and the hand choice. -/
def ready (inp : IterInput R) (s : LoopState R) : LoopState R := framed inp (watched inp s)

/-- The hand an iteration selects, if it has an image. -/
def selectedHand (inp : IterInput R) (s : LoopState R) : Option (DetectedHand R) :=
  if seesImage inp (watched inp s) then (ready inp s).cur.hand else none

/-- The analysis an iteration makes, with the analyzer it leaves. -/
def analysed (inp : IterInput R) (s : LoopState R) : Option (Analysis R × GestureAnalyzer R) :=
  if Active s.shared.globals then
    s.cur.hand.map fun hand ↦ s.analyzer.analyze hand.landmarks hand.label inp.clock.analyze
  else none

/-- State with the result of an analysis. -/
def withAnalysis (s : LoopState R) (r : Analysis R × GestureAnalyzer R) : LoopState R :=
  { s with analyzer := r.2, cur := { s.cur with analysis := some r.1 } }

/-- Without an analysed hand a drag is stopped and nothing else is done. -/
theorem exec_processActions_idle {inp : IterInput R} {s : LoopState R}
    (h : analysed inp s = none) : exec (processActions inp) s = (.ok (), stopDrag s) := by
  simp only [processActions]
  rw [exec_bind_get]
  simp only [analysed] at h
  split
  · next ha =>
    have hactive : Active s.shared.globals := ha
    rw [if_pos hactive] at h
    rw [Option.map_eq_none_iff.mp h]
    rfl
  · rfl

/-- An analysed hand is acted on. -/
theorem exec_processActions_analysed {inp : IterInput R} {s : LoopState R}
    {r : Analysis R × GestureAnalyzer R} (h : analysed inp s = some r) :
    exec (processActions inp) s = exec (actOn inp r.1) (withAnalysis s r) := by
  simp only [processActions]
  rw [exec_bind_get]
  simp only [analysed] at h
  split at h
  · next ha =>
    have hactive : s.shared.globals.detectionActive = true ∧
        s.shared.globals.calibrationStep = 0 := ha
    obtain ⟨hand, hhand, rfl⟩ := Option.map_eq_some_iff.mp h
    rw [if_pos hactive, hhand]
    rfl
  · cases h

/-- The iteration gets as far as releasing the drag: it has an image, can draw the zone, and
can act on its analysis if it makes one. -/
def ReachesRelease (inp : IterInput R) (s : LoopState R) : Prop :=
  seesImage inp (watched inp s) ∧ ZoneNumeric (watched inp s).shared.globals ∧
    ∀ r, analysed inp (ready inp s) = some r → Dispatchable r.1 (ready inp s)

/-- What an iteration shows of itself: buttons, events and executed branch. -/
def shown (s : LoopState R) := (s.controller.buttons, s.cur.out, s.cur.executed)

private theorem shown_watched (inp : IterInput R) (s : LoopState R) :
    shown (watched inp s) = shown s := by
  simp only [shown, watched_buttons, watched_cur]

/-- Up to the dispatch an iteration shows nothing new. -/
theorem shown_ready (inp : IterInput R) (s : LoopState R) : shown (ready inp s) = shown s :=
  shown_watched inp s

private theorem shown_finish (inp : IterInput R) (s : LoopState R) :
    shown (exec (finish inp) s).2 = shown s := by
  have h : unshared (exec (finish inp) s).2 = unshared s := finish_unshared inp s
  simp only [unshared, Prod.mk.injEq] at h
  simp only [shown, h.1, h.2.2.2.2.2.2.2]

/-- The dispatch and the rest of the iteration show what the dispatch alone shows. -/
theorem shown_processed (inp : IterInput R) (s : LoopState R) :
    shown (exec (processActions inp >>= fun _ ↦ finish inp) s).2 =
      shown (exec (processActions inp) s).2 := by
  rw [exec_bind]
  cases h : exec (processActions inp) s with
  | mk r t =>
    cases r with
    | ok _ => exact shown_finish inp t
    | error e => rfl

private theorem exec_processActions_error {inp : IterInput R} {s : LoopState R}
    (h : ¬ ReachesRelease inp s) (hs : seesImage inp (watched inp s))
    (hz : ZoneNumeric (watched inp s).shared.globals) :
    ∃ r e t, analysed inp (ready inp s) = some r ∧
      exec (processActions inp) (ready inp s) = (.error e, t) ∧
      quiet t = quiet (withAnalysis (ready inp s) r) ∧
      (ZoneUsable (watched inp s).shared.globals → e ≠ .zeroDivisionError) := by
  have hbad : ∃ r, analysed inp (ready inp s) = some r ∧ ¬ Dispatchable r.1 (ready inp s) := by
    by_contra hn
    push Not at hn
    exact h ⟨hs, hz, hn⟩
  have ⟨r, hr, hd⟩ := hbad
  have ⟨e, t, ht, hq, he⟩ := exec_actOn_error inp (s := withAnalysis (ready inp s) r) hd
  exact ⟨r, e, t, hr, (exec_processActions_analysed hr).trans ht, hq, he⟩

/-- An iteration leaves what its computation leaves. -/
theorem iterate_of_exec {inp : IterInput R} {s t : LoopState R} {result : Except PyError IterEnd}
    (h : exec (iteration inp) s = (result, t)) : iterate inp s = ⟨s, inp, result, t⟩ := by
  simp only [iterate]
  rw [h]

/-- An iteration that draws the zone ends as its dispatch and the rest of it do. -/
theorem iterate_framed {inp : IterInput R} {s : LoopState R}
    (h : seesImage inp (watched inp s)) (hz : ZoneNumeric (watched inp s).shared.globals) :
    (iterate inp s).result =
        (exec (processActions inp >>= fun _ ↦ finish inp) (ready inp s)).1 ∧
      (iterate inp s).after =
        (exec (processActions inp >>= fun _ ↦ finish inp) (ready inp s)).2 := by
  have hrun := exec_iteration_framed h hz
  exact ⟨congrArg Prod.fst hrun, congrArg Prod.snd hrun⟩

/-- The three ways an iteration ends that does not reach the release: it has no image, it
cannot draw the zone, or it cannot act on the analysis it has made. -/
theorem iterate_cut_cases {inp : IterInput R} {s : LoopState R} (h : ¬ ReachesRelease inp s) :
    (¬ seesImage inp (watched inp s) ∧
      iterate inp s = ⟨s, inp, .ok .skipped, disconnected (watched inp s)⟩) ∨
    (seesImage inp (watched inp s) ∧ ¬ ZoneNumeric (watched inp s).shared.globals ∧
      ∃ e, iterate inp s = ⟨s, inp, .error e, imaged (watched inp s)⟩) ∨
    (seesImage inp (watched inp s) ∧ ZoneNumeric (watched inp s).shared.globals ∧
      ∃ r e t, iterate inp s = ⟨s, inp, .error e, t⟩ ∧ analysed inp (ready inp s) = some r ∧
        quiet t = quiet (withAnalysis (ready inp s) r) ∧
        (ZoneUsable (watched inp s).shared.globals → e ≠ .zeroDivisionError)) := by
  by_cases hs : seesImage inp (watched inp s)
  · by_cases hz : ZoneNumeric (watched inp s).shared.globals
    · obtain ⟨r, e, t, ha, ht, hq, he⟩ := exec_processActions_error h hs hz
      have hp : exec (processActions inp) (framed inp (watched inp s)) = (.error e, t) := ht
      have hrun := (exec_iteration_framed hs hz).trans (exec_bind_error hp)
      exact Or.inr (Or.inr ⟨hs, hz, r, e, t, iterate_of_exec hrun, ha, hq, he⟩)
    · obtain ⟨e, he⟩ := exec_iteration_undrawn hs hz
      exact Or.inr (Or.inl ⟨hs, hz, e, iterate_of_exec he⟩)
  · exact Or.inl ⟨hs, iterate_of_exec (exec_iteration_skipped hs)⟩

/-- An iteration that does not reach the release shows nothing new and does not quit. -/
theorem iterate_of_cut {inp : IterInput R} {s : LoopState R} (h : ¬ ReachesRelease inp s) :
    shown (iterate inp s).after = shown s ∧ (iterate inp s).result ≠ .ok .quit := by
  rcases iterate_cut_cases h with
    ⟨_, hcut⟩ | ⟨_, _, e, hcut⟩ | ⟨_, _, r, e, t, hcut, _, hq, _⟩
  · rw [hcut]
    exact ⟨shown_watched inp s, by simp⟩
  · rw [hcut]
    exact ⟨shown_watched inp s, by simp⟩
  · simp only [quiet, Prod.mk.injEq] at hq
    have hshown : shown t = shown (ready inp s) := by
      simp only [shown, hq.2.2.2.1, hq.2.2.2.2]
      rfl
    rw [hcut]
    exact ⟨hshown.trans (shown_ready inp s), by simp⟩

private theorem shown_of_idle {inp : IterInput R} {s : LoopState R} (h : ReachesRelease inp s)
    (ha : analysed inp (ready inp s) = none) :
    shown (iterate inp s).after = shown (stopDrag (ready inp s)) := by
  rw [(iterate_framed h.1 h.2.1).2, shown_processed, exec_processActions_idle ha]

/-- An iteration that reaches the release with an analysis acts on it. -/
theorem shown_of_analysed {inp : IterInput R} {s : LoopState R} (hx : s.cur.executed = none)
    (h : ReachesRelease inp s) {r : Analysis R × GestureAnalyzer R}
    (ha : analysed inp (ready inp s) = some r) :
    ∃ t, exec (processActions inp) (ready inp s) = (.ok (), t) ∧
      shown (iterate inp s).after = shown t ∧
      ActedOn inp (restrictAction (ready inp s).shared.globals.gameMode r.1.action)
        (withAnalysis (ready inp s) r) t := by
  have hready : (withAnalysis (ready inp s) r).cur.executed = none := by
    change (watched inp s).cur.executed = none
    rw [watched_cur, hx]
  obtain ⟨t, ht, hacted⟩ := exec_actOn_ok inp hready (h.2.2 r ha)
  have hp := exec_processActions_analysed ha
  refine ⟨t, hp.trans ht, ?_, hacted⟩
  rw [(iterate_framed h.1 h.2.1).2, shown_processed]
  exact congrArg (fun p ↦ shown p.2) (hp.trans ht)

/-! ### The events of an iteration -/

/-- An iteration cut short sends nothing and leaves the drag as it was. -/
theorem iterate_cut {inp : IterInput R} {s : LoopState R} (hs : s.cur = {})
    (h : ¬ ReachesRelease inp s) :
    (iterate inp s).after.cur.out = [] ∧
      (iterate inp s).after.controller.isDragging = s.controller.isDragging ∧
      (iterate inp s).after.cur.executed = none := by
  have hcut := (iterate_of_cut h).1
  simp only [shown, hs, Prod.mk.injEq, PCController.buttons] at hcut
  exact ⟨hcut.2.1, hcut.1.1, hcut.2.2⟩

/-- An iteration without an analysis only releases the drag. -/
theorem iterate_idle {inp : IterInput R} {s : LoopState R} (hs : s.cur = {})
    (h : ReachesRelease inp s) (ha : analysed inp (ready inp s) = none) :
    ((iterate inp s).after.cur.out = if s.controller.isDragging then [.leftUp] else []) ∧
      (iterate inp s).after.controller.isDragging = false ∧
      (iterate inp s).after.cur.executed = none := by
  have hidle := shown_of_idle h ha
  have hready := shown_ready inp s
  simp only [shown, hs, Prod.mk.injEq, PCController.buttons] at hready
  simp only [shown, stopDrag, PCController.dragStop_events, Prod.mk.injEq, PCController.buttons,
    PCController.dragStop_isDragging, hready.1.1, hready.2.1, hready.2.2] at hidle
  exact ⟨hidle.2.1, hidle.1.1, hidle.2.2⟩

/-- An iteration with an analysis sends what its action sends and then releases the drag,
unless the action drags. -/
theorem iterate_acts {inp : IterInput R} {s : LoopState R} (hs : s.cur = {})
    (h : ReachesRelease inp s) {r : Analysis R × GestureAnalyzer R}
    (ha : analysed inp (ready inp s) = some r) {gameMode : Json R}
    (hmode : (watched inp s).shared.globals.gameMode = gameMode) {action : Option Action}
    (haction : restrictAction gameMode r.1.action = action) :
    (∃ acts, Acts gameMode action (clickPasses inp gameMode s.controller)
        s.controller.isDragging acts ∧
      (iterate inp s).after.cur.out = acts ++
        if s.controller.isDragging = true ∧ ¬ Drags gameMode action then [.leftUp] else []) ∧
      ((iterate inp s).after.controller.isDragging = true ↔ Drags gameMode action) ∧
      ((iterate inp s).after.cur.executed = some .drag ↔ Drags gameMode action) := by
  obtain ⟨t, -, hshown, hacted⟩ := shown_of_analysed (by rw [hs]) h ha
  have hready := shown_ready inp s
  simp only [shown, hs, Prod.mk.injEq, PCController.buttons] at hready
  simp only [shown, Prod.mk.injEq, PCController.buttons] at hshown
  have hmode' : (ready inp s).shared.globals.gameMode = gameMode := hmode
  obtain ⟨acts, hacts, hsent⟩ := hacted.sent
  have hdrag := hacted.drag
  have hexec := hacted.executed
  simp only [withAnalysis, hmode', haction, clickPasses, PCController.clickDue, hready.1.1,
    hready.1.2.1, hready.2.1, List.nil_append] at hacts hsent hdrag hexec
  refine ⟨⟨acts, hacts, hshown.2.1.trans hsent⟩, ?_, ?_⟩
  · rw [hshown.1.1, hdrag, decide_eq_true_iff]
  · rw [hshown.2.2, hexec]

/-! ### How an iteration ends -/

/-- The key decides how a completed iteration ends. -/
theorem exec_handleKey_end (inp : IterInput R) (s : LoopState R) :
    (exec (handleKey inp) s).1 = .ok (if inp.key = .q then .quit else .completed) := by
  simp only [handleKey]
  cases inp.key with
  | q => rfl
  | p => rfl
  | c =>
    rw [exec_bind_get]
    cases s.cur.hand <;> rfl
  | other => rfl

/-- State after its gesture and action have been published. -/
def announced (s : LoopState R) : LoopState R :=
  { s with
    shared := s.shared.assign fun g ↦
      { g with
        currentGesture := (s.cur.analysis.map (·.gesture.name)).getD "NINGUNO"
        currentAction := actionLabel g.gameMode s.cur } }

omit [Scalar R] in
/-- A mode that is a string can be printed. -/
theorem exec_showStatus_ok {s : LoopState R} {m : String}
    (h : s.shared.globals.gameMode = .str m) : exec showStatus s = (.ok (), announced s) := by
  simp only [showStatus]
  rw [exec_bind_get]
  rw [exec_bind_assign]
  rw [exec_bind_get]
  dsimp only [Shared.assign]
  rw [h]
  simp [announced, Shared.assign, h]

omit [Scalar R] in
/-- Any other mode raises after the state has been published. -/
theorem exec_showStatus_error {s : LoopState R}
    (h : ¬ ∃ m, s.shared.globals.gameMode = .str m) :
    exec showStatus s = (.error .attributeError, announced s) := by
  simp only [showStatus]
  rw [exec_bind_get]
  rw [exec_bind_assign]
  rw [exec_bind_get]
  dsimp only [Shared.assign]
  cases hm : s.shared.globals.gameMode with
  | str m => exact absurd ⟨m, hm⟩ h
  | _ => simp [announced, Shared.assign, hm]

private theorem exec_finish_quit (inp : IterInput R) (s : LoopState R) :
    (exec (finish inp) s).1 = .ok .quit ↔
      inp.key = .q ∧ ∃ m, s.shared.globals.gameMode = .str m := by
  simp only [finish]
  by_cases h : ∃ m, s.shared.globals.gameMode = .str m
  · have ⟨m, hm⟩ := h
    rw [exec_bind_ok (exec_showStatus_ok hm), exec_handleKey_end]
    by_cases hk : inp.key = .q <;> simp [hk, h]
  · rw [exec_bind_error (exec_showStatus_error h)]
    simp [h]

/-- State an iteration hands to the dispatch, with the analysis it makes. -/
def dispatched (inp : IterInput R) (s : LoopState R) : LoopState R :=
  match analysed inp (ready inp s) with
  | none => ready inp s
  | some r => withAnalysis (ready inp s) r

private theorem exec_processActions_ok {inp : IterInput R} {s : LoopState R}
    (hx : s.cur.executed = none) (h : ReachesRelease inp s) :
    ∃ t, exec (processActions inp) (ready inp s) = (.ok (), t) ∧
      seen t = seen (dispatched inp s) := by
  simp only [dispatched]
  cases ha : analysed inp (ready inp s) with
  | none => exact ⟨_, exec_processActions_idle ha, rfl⟩
  | some r =>
    have ⟨t, ht, _, hacted⟩ := shown_of_analysed hx h ha
    exact ⟨t, ht, hacted.context⟩

/-- The actions leave the shared variables alone. -/
theorem dispatched_shared (inp : IterInput R) (s : LoopState R) :
    (dispatched inp s).shared = (ready inp s).shared := by
  simp only [dispatched]
  cases analysed inp (ready inp s) <;> rfl

/-- The hand the dispatch sees is the selected one. -/
theorem dispatched_hand {inp : IterInput R} {s : LoopState R}
    (h : seesImage inp (watched inp s)) : (dispatched inp s).cur.hand = selectedHand inp s := by
  unfold dispatched selectedHand
  rw [if_pos h]
  cases analysed inp (ready inp s) <;> rfl

/-- An iteration that reaches the release ends as its rest ends after the dispatch. -/
theorem iterate_of_reaches {inp : IterInput R} {s : LoopState R} (hx : s.cur.executed = none)
    (h : ReachesRelease inp s) :
    ∃ t, seen t = seen (dispatched inp s) ∧
      (iterate inp s).result = (exec (finish inp) t).1 ∧
      (iterate inp s).after = (exec (finish inp) t).2 := by
  have ⟨t, ht, hseen⟩ := exec_processActions_ok hx h
  have hframed := iterate_framed h.1 h.2.1
  rw [exec_bind_ok ht] at hframed
  exact ⟨t, hseen, hframed⟩

/-- An iteration ends by `break` when it reaches the release, prints the mode and reads `q`. -/
theorem iterate_quit_iff {inp : IterInput R} {s : LoopState R} (hx : s.cur.executed = none) :
    (iterate inp s).result = .ok .quit ↔
      ReachesRelease inp s ∧ inp.key = .q ∧
        ∃ m, (watched inp s).shared.globals.gameMode = .str m := by
  by_cases hr : ReachesRelease inp s
  · have ⟨t, hseen, hresult, _⟩ := iterate_of_reaches hx hr
    have hshared : t.shared = (ready inp s).shared :=
      (congrArg Prod.fst hseen).trans (dispatched_shared inp s)
    rw [hresult, exec_finish_quit, hshared]
    exact (and_iff_right hr).symm
  · simp [hr, (iterate_of_cut hr).2]

/-! ### What an iteration sees -/

/-- The analyzer and what an iteration has seen: image, hand and analysis. -/
def view (s : LoopState R) :=
  (s.analyzer, s.cur.image, s.cur.hand, s.cur.analysis)

/-- The watcher leaves this view alone. -/
theorem view_watched (inp : IterInput R) (s : LoopState R) : view (watched inp s) = view s := by
  simp only [view, watched_analyzer, watched_cur]

/-- An iteration that draws the zone sees what it hands to the dispatch, raise or not; the rest
of it changes only the shared variables. -/
theorem iterate_drawn {inp : IterInput R} {s : LoopState R} (hx : s.cur.executed = none)
    (hs : seesImage inp (watched inp s)) (hz : ZoneNumeric (watched inp s).shared.globals) :
    ∃ t, seen t = seen (dispatched inp s) ∧ unshared (iterate inp s).after = unshared t := by
  by_cases hr : ReachesRelease inp s
  · have ⟨t, hseen, _, hafter⟩ := iterate_of_reaches hx hr
    refine ⟨t, hseen, ?_⟩
    rw [hafter]
    exact finish_unshared inp t
  · rcases iterate_cut_cases hr with
      ⟨hskip, _⟩ | ⟨_, hundrawn, _⟩ | ⟨_, _, r, e, t, hcut, ha, hq, _⟩
    · exact absurd hs hskip
    · exact absurd hz hundrawn
    · have hdispatched : dispatched inp s = withAnalysis (ready inp s) r := by
        simp only [dispatched]
        rw [ha]
      refine ⟨t, ?_, ?_⟩
      · rw [hdispatched]
        exact seen_of_quiet hq
      · rw [hcut]

/-- An iteration that draws the zone leaves the view it hands to the dispatch. -/
theorem iterate_view_drawn {inp : IterInput R} {s : LoopState R} (hx : s.cur.executed = none)
    (hs : seesImage inp (watched inp s)) (hz : ZoneNumeric (watched inp s).shared.globals) :
    view (iterate inp s).after = view (dispatched inp s) := by
  have ⟨t, hseen, hafter⟩ := iterate_drawn hx hs hz
  simp only [seen, Prod.mk.injEq] at hseen
  simp only [unshared, Prod.mk.injEq] at hafter
  simp only [view, hafter.2.1, hafter.2.2.2.2.2.2.2, hseen.2.1, hseen.2.2.2.1, hseen.2.2.2.2.1,
    hseen.2.2.2.2.2]

/-- An iteration without an image sees nothing. -/
theorem iterate_view_skipped {inp : IterInput R} {s : LoopState R}
    (hs : ¬ seesImage inp (watched inp s)) : view (iterate inp s).after = view s := by
  rw [iterate_of_exec (exec_iteration_skipped hs), ← view_watched inp s]
  rfl

/-- An iteration that cannot draw the zone raises and sees nothing but the image. -/
theorem iterate_view_undrawn {inp : IterInput R} {s : LoopState R}
    (hs : seesImage inp (watched inp s)) (hz : ¬ ZoneNumeric (watched inp s).shared.globals) :
    (∃ e, (iterate inp s).result = .error e) ∧
      view (iterate inp s).after = (s.analyzer, true, s.cur.hand, s.cur.analysis) := by
  obtain ⟨e, he⟩ := exec_iteration_undrawn hs hz
  have hview := view_watched inp s
  simp only [view, Prod.mk.injEq] at hview
  rw [iterate_of_exec he]
  refine ⟨⟨e, rfl⟩, ?_⟩
  simp only [view, imaged, hview.1, hview.2.2.1, hview.2.2.2]

end Loop
end VisionGame.Vision
