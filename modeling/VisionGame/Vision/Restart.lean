import VisionGame.Vision.ReloadSave

/-!
# Settings across a restart

Library `Vision`. `src/mediapipe/app_gestures.py:145–172,427–470,498–537,760–771,863–922,1005–1040`.
The mode, the hand, the sensitivity and the smoothing are saved by the handler that changes them.
The camera source and the zone may change without being saved. Over runs in which only the
program writes its file, and every write of a handler succeeds, a start-up that reads the file at
any moment succeeds and takes over the four settings that the program has at that moment.
-/

namespace VisionGame.Vision
open VisionGame.Base
open Effect

variable {R : Type} [Scalar R]

/-! ### Settings a start-up takes over -/

/-- The settings that their handlers save, and what the program computes from them. -/
@[ext]
structure Tuning (R : Type) where
  gameMode : Json R
  targetHand : Json R
  sensVal : Json R
  suavVal : Json R
  scaleFactor : R
  targetHandMp : String

/-- Tuning the globals hold. -/
def Globals.tuning (g : Globals R) : Tuning R :=
  ⟨g.gameMode, g.targetHandDisplay, g.sensVal, g.suavVal, g.scaleFactor, g.targetHandMp⟩

/-- What the program computes from its settings is up to date. -/
structure Tuning.UpToDate (tuning : Tuning R) : Prop where
  scale : tuning.sensVal.asFloat.map scaleOf = some tuning.scaleFactor
  smooth : tuning.suavVal.asFloat.isSome
  label : tuning.targetHandMp = handLabel tuning.targetHand

/-- A document brings these settings, and zones that can be taken over. -/
structure Tuning.Stored (cfg : Dict (Json R)) (tuning : Tuning R) : Prop where
  gameMode : cfg.getD "game_mode" (.str "normal") = tuning.gameMode
  targetHand : cfg.getD "target_hand" (.str "DERECHA") = tuning.targetHand
  sensVal : cfg.getD "sens_val" (.num 3) = tuning.sensVal
  suavVal : cfg.getD "suav_val" (.num 10) = tuning.suavVal
  zoneX : (pairOf (cfg.getD "zone_x" defaultZone)).isSome
  zoneY : (pairOf (cfg.getD "zone_y" defaultZone)).isSome

/-- A start-up that reads the file finds the current settings. -/
structure Durable (sh : Shared R) : Prop where
  upToDate : sh.globals.tuning.UpToDate
  stored : ∃ cfg, startupDocument sh.file = .object cfg ∧ sh.globals.tuning.Stored cfg

/-- Other variables may change. -/
theorem Durable.congr {sh th : Shared R} (h : Durable sh)
    (htuning : th.globals.tuning = sh.globals.tuning) (hfile : th.file = sh.file) :
    Durable th := by
  constructor
  · rw [htuning]
    exact h.upToDate
  · rw [htuning, hfile]
    exact h.stored

/-! ### Handlers and keys -/

/-- What has been saved is durable. -/
theorem durable_save {sh : Shared R} (h : sh.globals.tuning.UpToDate) (mtime : R) :
    Durable (saveConfigFile (.done mtime) sh) := by
  refine ⟨h, savedConfig sh.globals, rfl, ?_⟩
  constructor
  · simp [Dict.getD, savedConfig, Globals.tuning, saveConfigFile]
  · simp [Dict.getD, savedConfig, Globals.tuning, saveConfigFile]
  · simp [Dict.getD, savedConfig, Globals.tuning, saveConfigFile]
  · simp [Dict.getD, savedConfig, Globals.tuning, saveConfigFile]
  · simp [Dict.getD, savedConfig, pairOf, Json.index]
  · simp [Dict.getD, savedConfig, pairOf, Json.index]

/-- A save that does not break off keeps what is durable. -/
theorem Durable.save {sh : Shared R} (h : Durable sh) {written : WriteOutcome R}
    (hwritten : written.Whole) : Durable (saveConfigFile written sh) := by
  cases written with
  | refused => exact h.congr rfl rfl
  | brokenOff mtime => exact absurd rfl (hwritten mtime)
  | done mtime => exact durable_save h.upToDate mtime

/-- A camera is opened or not; the settings stay durable. -/
theorem Durable.startCameraStream {sh : Shared R} (h : Durable sh) (source : Json R)
    (opens : Bool) {written : WriteOutcome R} (hwritten : written.Whole) :
    Durable (startCameraStream source opens written sh) := by
  unfold Vision.startCameraStream
  dsimp only
  split
  · apply Durable.save ?_ hwritten
    exact h.congr rfl rfl
  · exact h.congr rfl rfl

private theorem Durable.triggerCalibrationKey {sh : Shared R} (h : Durable sh)
    {written : WriteOutcome R}
    (hwritten : written.Whole) (x y : R) : Durable (triggerCalibrationKey written x y sh) := by
  unfold Vision.triggerCalibrationKey
  dsimp only
  split
  · exact h.congr rfl rfl
  · split
    · split
      · exact h.congr rfl rfl
      · have hzone : Durable (setZone (min sh.globals.calibXMin x) (max sh.globals.calibXMin x)
            (min sh.globals.calibYMin y) (max sh.globals.calibYMin y)
            (sh.assign fun g ↦ { g with calibXMax := x, calibYMax := y })) := h.congr rfl rfl
        exact (hzone.save hwritten).congr rfl rfl
    · exact h

/-- A handler that changes a setting writes the file, no write breaks off, and nobody else replaces
the file. The sliders are at floats. -/
def OutsideEvent.Saves : OutsideEvent R → Prop
  | .connect _ _ written => written.Whole
  | .sens written val | .suav written val =>
    (∃ mtime, written = .done mtime) ∧ |val| < (Json.floatLimit : R)
  | .targetHand written _ | .mode written _ => ∃ mtime, written = .done mtime
  | .toggle | .startCalibration => True
  | .replaceFile _ => False

private theorem asFloat_toInt {val : R} (h : |val| < (Json.floatLimit : R)) :
    (Json.num (Scalar.toInt val : R)).asFloat = some (Scalar.toInt val : R) :=
  Json.asFloat_num ((Scalar.abs_toInt_le val).trans_lt h)

/-- The handlers of the panel keep the settings durable. -/
theorem Durable.handle {sh : Shared R} (h : Durable sh) {e : OutsideEvent R} (he : e.Saves) :
    Durable (e.handle sh) := by
  have ⟨hscale, hsmooth, hlabel⟩ := h.upToDate
  cases e with
  | connect source opens written => exact h.startCameraStream _ opens he
  | sens written val =>
    obtain ⟨⟨mtime, rfl⟩, hval⟩ := he
    apply durable_save
    exact ⟨congrArg (Option.map scaleOf) (asFloat_toInt hval), hsmooth, hlabel⟩
  | suav written val =>
    obtain ⟨⟨mtime, rfl⟩, hval⟩ := he
    apply durable_save
    exact ⟨hscale, Option.isSome_of_eq_some (asFloat_toInt hval), hlabel⟩
  | targetHand written hand =>
    obtain ⟨mtime, rfl⟩ := he
    apply durable_save
    exact ⟨hscale, hsmooth, rfl⟩
  | mode written gameMode =>
    obtain ⟨mtime, rfl⟩ := he
    apply durable_save
    exact ⟨hscale, hsmooth, hlabel⟩
  | toggle => exact h.congr rfl rfl
  | startCalibration => exact h.congr rfl rfl
  | replaceFile file => exact he.elim

/-- So do several handlers, one after the other. -/
theorem Durable.run {events : List (OutsideEvent R)} (hevents : ∀ e ∈ events, e.Saves)
    {sh : Shared R} (h : Durable sh) : Durable (OutsideEvent.run events sh) := by
  unfold OutsideEvent.run
  induction events generalizing sh with
  | nil => exact h
  | cons e events ih =>
    have ⟨hhead, htail⟩ := List.forall_mem_cons.mp hevents
    rw [List.foldl_cons]
    exact ih htail (h.handle hhead)

/-! ### Start-up -/

omit [Scalar R] in
private theorem startCameraStream_tuning (source : Json R) (opens : Bool) (written : WriteOutcome R)
    (sh : Shared R) :
    (startCameraStream source opens written sh).globals.tuning = sh.globals.tuning := by
  unfold startCameraStream
  dsimp only
  split <;> rfl

/-- A file that is created at start-up holds what start-up takes over without it. -/
theorem loadConfig_spec (created : WriteOutcome R) (file : Option (ConfigFile R)) :
    (loadConfig created ⟨Globals.init, file⟩).1 = startupDocument file ∧
      startupDocument (loadConfig created ⟨Globals.init, file⟩).2.file = startupDocument file := by
  unfold startupDocument loadConfig
  cases file with
  | some f => exact ⟨rfl, rfl⟩
  | none => cases created <;> exact ⟨rfl, rfl⟩

/-- Start-up takes over settings that are stored and up to date. -/
theorem exec_main_stored {file : Option (ConfigFile R)} {cfg : Dict (Json R)}
    (hdocument : startupDocument file = .object cfg) {tuning : Tuning R}
    (hstored : tuning.Stored cfg) (hcurrent : tuning.UpToDate) (created opened : WriteOutcome R)
    (opens : Bool) : ∃ sh, exec (main created opened opens) ⟨Globals.init, file⟩ = (.ok (), sh) ∧
      sh.globals.tuning = tuning := by
  have ⟨x, hx, hscale⟩ := Option.map_eq_some_iff.mp hcurrent.scale
  have ⟨zoneX, hzoneX⟩ := Option.isSome_iff_exists.mp hstored.zoneX
  have ⟨zoneY, hzoneY⟩ := Option.isSome_iff_exists.mp hstored.zoneY
  have ⟨hloaded, hfile⟩ := loadConfig_spec created file
  have hdocument' : (loadConfig created ⟨Globals.init, file⟩).1 = .object cfg :=
    hloaded.trans hdocument
  unfold main
  rw [exec_bind_get, exec_bind_modify, hdocument']
  dsimp only
  rw [exec_bind_modify, hstored.sensVal, exec_bind_ok (exec_toFloat_some hx _)]
  rw [exec_bind_modify, exec_bind, exec_zonePair, hzoneX]
  dsimp only
  rw [exec_bind_modify, exec_bind, exec_zonePair, hzoneY]
  dsimp only
  rw [exec_bind_modify, exec_modify]
  generalize hsh : Shared.assign _ _ = sh
  have hsettled : sh.globals.tuning = tuning := by
    rw [← hsh]
    ext1
    · exact hstored.gameMode
    · exact hstored.targetHand
    · rfl
    · exact hstored.suavVal
    · exact hscale
    · exact (congrArg handLabel hstored.targetHand).trans hcurrent.label.symm
  exact ⟨_, rfl, (startCameraStream_tuning ..).trans hsettled⟩

private theorem durable_of_main {file : Option (ConfigFile R)} {created opened : WriteOutcome R}
    {opens : Bool} {sh : Shared R}
    (h : exec (main created opened opens) ⟨Globals.init, file⟩ = (.ok (), sh))
    (hopened : opened.Whole) (hsmooth : sh.globals.suavVal.asFloat.isSome) : Durable sh := by
  have ⟨hloaded, hfile⟩ := loadConfig_spec created file
  unfold main at h
  rw [exec_bind_get, exec_bind_modify, hloaded] at h
  cases hdocument : startupDocument file with
  | other value =>
    rw [hdocument] at h
    cases h
  | object cfg =>
    rw [hdocument] at h
    dsimp only at h
    rw [exec_bind_modify] at h
    cases hx : (cfg.getD "sens_val" (.num 3)).asFloat with
    | none =>
      obtain ⟨e, hexec, _⟩ := exec_toFloat_none hx _
      rw [exec_bind_error hexec] at h
      cases h
    | some x =>
      rw [exec_bind_ok (exec_toFloat_some hx _)] at h
      rw [exec_bind_modify, exec_bind, exec_zonePair] at h
      cases hzoneX : pairOf (cfg.getD "zone_x" defaultZone) with
      | none =>
        rw [hzoneX] at h
        cases h
      | some zoneX =>
        rw [hzoneX] at h
        dsimp only at h
        rw [exec_bind_modify, exec_bind, exec_zonePair] at h
        cases hzoneY : pairOf (cfg.getD "zone_y" defaultZone) with
        | none =>
          rw [hzoneY] at h
          cases h
        | some zoneY =>
          rw [hzoneY] at h
          dsimp only at h
          rw [exec_bind_modify, exec_modify] at h
          generalize hth : Shared.assign _ _ = th at h
          have htuning : th.globals.tuning = ⟨cfg.getD "game_mode" (.str "normal"),
              cfg.getD "target_hand" (.str "DERECHA"), cfg.getD "sens_val" (.num 3),
              cfg.getD "suav_val" (.num 10), scaleOf x,
              handLabel (cfg.getD "target_hand" (.str "DERECHA"))⟩ := by
            rw [← hth]
            rfl
          rw [← (Prod.mk.inj h).2] at hsmooth ⊢
          have hsame :=
            startCameraStream_tuning (cfg.getD "camera_source" (.str "0")) opens opened th
          have hsuav :=
            congrArg (fun tuning ↦ tuning.suavVal.asFloat.isSome) (hsame.trans htuning)
          apply Durable.startCameraStream ?_ _ _ hopened
          constructor
          · rw [htuning]
            exact ⟨congrArg (Option.map scaleOf) hx, hsuav.symm.trans hsmooth, rfl⟩
          · refine ⟨cfg, ?_, ?_⟩
            · rw [← hth]
              exact hfile.trans hdocument
            · rw [htuning]
              exact ⟨rfl, rfl, rfl, rfl, Option.isSome_of_eq_some hzoneX,
                Option.isSome_of_eq_some hzoneY⟩

/-! ### Iterations -/

namespace Loop

/-- What is durable stays so. -/
def KeepsDurable (s t : LoopState R) : Prop := Durable s.shared → Durable t.shared

instance : Std.Refl (KeepsDurable : LoopState R → LoopState R → Prop) := ⟨fun _ ↦ id⟩

instance : IsTrans (LoopState R) KeepsDurable := ⟨fun _ _ _ hst htu h ↦ htu (hst h)⟩

private theorem reloadConfig_durable {inp : IterInput R} (hwritten : inp.written.Whole)
    {s : LoopState R} {cfg : Dict (Json R)}
    (hdocument : startupDocument s.shared.file = .object cfg)
    (hstored : s.shared.globals.tuning.Stored cfg) (hcurrent : s.shared.globals.tuning.UpToDate) :
    Durable (exec (reloadConfig inp (.object cfg)) s).2.shared := by
  have ⟨x, hx, hscale⟩ := Option.map_eq_some_iff.mp hcurrent.scale
  have ⟨zoneX, hzoneX⟩ := Option.isSome_iff_exists.mp hstored.zoneX
  have ⟨zoneY, hzoneY⟩ := Option.isSome_iff_exists.mp hstored.zoneY
  unfold reloadConfig
  rw [exec_bind_assign, hstored.sensVal, exec_bind_ok (exec_toFloat_some hx _)]
  rw [exec_bind_assign, exec_bind_assign, exec_bind, exec_zonePair, hzoneX]
  dsimp only
  rw [exec_bind_assign, exec_bind, exec_zonePair, hzoneY]
  dsimp only
  rw [exec_bind_assign]
  generalize hsh : Shared.assign _ _ = sh
  have hsettled : sh.globals.tuning = s.shared.globals.tuning := by
    rw [← hsh]
    ext1
    · exact hstored.gameMode
    · exact hstored.targetHand
    · rfl
    · exact hstored.suavVal
    · exact hscale
    · exact (congrArg handLabel hstored.targetHand).trans hcurrent.label.symm
  have hdurable : Durable sh := by
    constructor
    · rw [hsettled]
      exact hcurrent
    · rw [hsettled, ← hsh]
      exact ⟨cfg, hdocument, hstored⟩
  have htail : Respects KeepsDurable (do
      updateFilterParams (cfg.getD "suav_val" (.num 10))
      followCamera inp (cfg.getD "camera_source" (.str "0"))) :=
    respects_bind (respects_zoom fun _ _ h ↦ h) fun _ ↦
      respects_followCamera _ _ fun _ h ↦ h.startCameraStream _ inp.opens hwritten
  exact htail _ hdurable

private theorem watched_durable {inp : IterInput R} (hwritten : inp.written.Whole) {s : LoopState R}
    (h : Durable s.shared) : Durable (watched inp s).shared := by
  by_cases hr : ∃ document, Reloads inp s document
  · have ⟨document, hdocument⟩ := hr
    have ⟨cfg, hfound, hstored⟩ := h.stored
    have ⟨_, mtime, hfile, _⟩ := hdocument
    have hsame : document = .object cfg := by
      rw [← hfound, hfile]
      rfl
    rw [watched_of_reloads hdocument, hsame]
    exact reloadConfig_durable hwritten hfound hstored h.upToDate
  · have hnone : ∀ document, ¬ Reloads inp s document := fun d hd ↦ hr ⟨d, hd⟩
    rw [(watched_of_not_reloads hnone).1]
    exact h

/-- Settled variables decide what is durable. -/
theorem durable_settled_iff (sh : Shared R) : Durable sh.settled ↔ Durable sh :=
  ⟨fun h ↦ h.congr rfl rfl, fun h ↦ h.congr rfl rfl⟩

/-- An iteration keeps what is durable. -/
theorem iterate_durable {inp : IterInput R} (hwritten : inp.written.Whole) {s : LoopState R}
    (hs : s.cur = {}) (h : Durable s.shared) : Durable (iterate inp s).after.shared := by
  have hwatched := (durable_settled_iff _).mpr (watched_durable hwritten h)
  rw [← durable_settled_iff]
  by_cases hp : ∃ hand, Presses inp s hand
  · have ⟨hand, hhand⟩ := hp
    rw [iterate_settled_of_presses hs hhand]
    exact hwatched.triggerCalibrationKey hwritten _ _
  · rw [iterate_settled_of_not_presses hs fun hand hh ↦ hp ⟨hand, hh⟩]
    exact hwatched

end Loop

/-! ### Runs -/

/-- Before an iteration handlers of the panel may run; the iteration's own write does not break
off. -/
def Tick.FromPanel (t : Tick R) : Prop :=
  (∃ events, t.env = OutsideEvent.run events ∧ ∀ e ∈ events, e.Saves) ∧ t.input.written.Whole

/-- A turn keeps what is durable. -/
theorem Durable.turn {s : LoopState R} (h : Durable s.shared) {t : Tick R} (ht : t.FromPanel) :
    Durable (visionMachine.step s t).before.shared ∧
      Durable (visionMachine.step s t).after.shared := by
  have ⟨⟨events, henv, hsaves⟩, hwritten⟩ := ht
  have henter : Durable (s.enter t.env).shared := by
    have hrun := h.run hsaves
    rw [← henv] at hrun
    exact hrun
  rcases visionMachine_step_cases s t with hstop | hiter
  · rw [hstop]
    exact ⟨henter, henter⟩
  · rw [hiter]
    exact ⟨henter, Loop.iterate_durable hwritten rfl henter⟩

private theorem smooth_of_startLoop {sh : Shared R} {w h : ℤ} {s : LoopState R}
    (hs : startLoop sh w h = .ok s) : sh.globals.suavVal.asFloat.isSome := by
  have hok := (PCController.exec_updateFilterParams (.blank w h) sh.globals.suavVal).1
  unfold startLoop at hs
  cases hexec : exec (PCController.updateFilterParams sh.globals.suavVal) (.blank w h) with
  | mk result controller =>
    rw [hexec] at hs hok
    cases result with
    | error e => cases hs
    | ok _ => exact hok.mp rfl

/-- The program can be started again with the settings it has. -/
def Shared.Restarts (sh : Shared R) : Prop :=
  ∀ created opened opens w h, ∃ th s,
    exec (main created opened opens) ⟨Globals.init, sh.file⟩ = (.ok (), th) ∧
      startLoop th w h = .ok s ∧ th.globals.tuning = sh.globals.tuning

/-- What is durable survives a restart. -/
theorem Durable.restarts {sh : Shared R} (h : Durable sh) : sh.Restarts := by
  intro created opened opens width height
  have ⟨cfg, hdocument, hstored⟩ := h.stored
  have ⟨th, hmain, htuning⟩ :=
    exec_main_stored hdocument hstored h.upToDate created opened opens
  have hsmooth : th.globals.tuning.suavVal.asFloat.isSome := htuning ▸ h.upToDate.smooth
  have ⟨s, hs⟩ := exists_startLoop hsmooth width height
  exact ⟨th, s, hmain, hs, htuning⟩

/-- Throughout a run of the program, however the handlers, the keys and the reloads of its own
saves follow each other, the program can be started again with the settings it has. -/
theorem settings_survive_restart (created : WriteOutcome R) {opened : WriteOutcome R}
    (hopened : opened.Whole) (opens : Bool) (file : Option (ConfigFile R)) (w h : ℤ)
    {ticks : List (Tick R)}
    (hticks : ∀ t ∈ ticks, t.FromPanel) :
    ∀ t ∈ (runProgram created opened opens file w h ticks).2,
      t.before.shared.Restarts ∧ t.after.shared.Restarts := by
  unfold runProgram
  cases hmain : exec (main created opened opens) ⟨Globals.init, file⟩ with
  | mk result sh =>
    cases result with
    | error e => simp
    | ok _ =>
      dsimp only
      rcases runVisionLoop_cases sh w h ticks with hnil | ⟨s, hs, htrace⟩
      · simp [hnil]
      · rw [htrace]
        apply visionMachine.trace_forall (I := fun u ↦ Durable u.shared)
          (P := fun t ↦ t.before.shared.Restarts ∧ t.after.shared.Restarts) ticks
        · intro u t ht hu
          have hboth := hu.turn (hticks t ht)
          exact ⟨hboth.1.restarts, hboth.2.restarts⟩
        · intro u t ht v hu hnext
          have ⟨r, hr, hv⟩ := visionMachine_next hnext
          have hafter := (hu.turn (hticks t ht)).2
          rw [hr] at hafter
          rw [← hv]
          exact hafter
        · have ⟨controller, hfresh, _⟩ := startLoop_spec hs
          rw [hfresh]
          exact durable_of_main hmain hopened (smooth_of_startLoop hs)

/-- The mode is changed and a camera does not open before the first iteration, which reloads what
the first of the two saved. -/
def changeMode : List (Tick ℚ) :=
  let tick := Tick.seeing 10 [⟨GestureAnalyzer.dragPose, "Right"⟩]
  [{ tick with
      env := OutsideEvent.run [.mode (.done 5) "osugame", .connect "http://esp32" false .refused] }]

/-- The iteration runs in the new mode, in which the program would start again. -/
theorem settings_survive_restart_changeMode :
    ∃ t, (runProgram .refused .refused true none 640 480 changeMode).2[0]? = some t ∧
      (t.before.shared.globals.gameMode.isStr "osugame" &&
        t.after.shared.globals.cameraSrc.isStr "0") = true ∧
      t.before.shared.Restarts ∧ t.after.shared.Restarts := by
  have hfirst : ∃ t, (runProgram .refused .refused true none 640 480 changeMode).2[0]? = some t ∧
      (t.before.shared.globals.gameMode.isStr "osugame" &&
        t.after.shared.globals.cameraSrc.isStr "0") = true := ⟨_, rfl, by decide +kernel⟩
  have hticks : ∀ t ∈ changeMode, t.FromPanel := by
    intro t ht
    rw [List.mem_singleton.mp ht]
    exact ⟨⟨_, rfl, by simp [OutsideEvent.Saves, WriteOutcome.Whole]⟩, fun _ ↦ nofun⟩
  have hopened : (WriteOutcome.refused : WriteOutcome ℚ).Whole := fun _ ↦ nofun
  obtain ⟨t, hget, hmode⟩ := hfirst
  exact ⟨t, hget, hmode,
    settings_survive_restart .refused hopened true none 640 480 hticks t
      (List.mem_of_getElem? hget)⟩

end VisionGame.Vision
