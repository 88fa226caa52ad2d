import VisionGame.Base.Machine
import VisionGame.Vision.GestureAnalyzer
import VisionGame.Vision.Globals

/-!
# The vision loop

Library `Vision`. `src/mediapipe/app_gestures.py:328–337,472–758`. One iteration is a
computation over the loop's variables; the clock readings, the camera, the detector, the key
and the outcome of file and camera operations are its input. Drawing calls are left out
except where they can raise on the values they are given. A run is a machine: before each
iteration the environment may change everything it shares with the loop.
-/

namespace VisionGame.Vision
open VisionGame.Base

/-- A detected hand with its handedness label. -/
structure DetectedHand (R : Type) where
  landmarks : HandLandmarks R
  label : String

/-- Keys of the video window; `app_gestures.py:747–755`. -/
inductive Key where
  | q
  | p
  | c
  | other
  deriving DecidableEq, Repr

/-- The readings of `time.time()` in one iteration, by the place that reads them. -/
structure Clock (R : Type) where
  check : R
  analyze : R
  log : R
  move : R
  act : R

/-- What one iteration meets: clock, outcome of a file write and of a camera switch, whether
`vs.read()` yields an image, the detected hands and the pressed key. -/
structure IterInput (R : Type) where
  clock : Clock R
  written : WriteOutcome R
  opens : Bool
  frame : Bool
  hands : List (DetectedHand R)
  key : Key

/-- Limiter and queue of `log_gesture_event`; `app_gestures.py:326–337`. -/
structure GestureLog (R : Type) where
  lastLogged : Gesture → Action → R
  queue : List (Gesture × Action)

/-- Local variables of one iteration: events sent, whether an image was read, the selected
hand, its analysis and the action whose branch was run. -/
structure Locals (R : Type) where
  out : List OsEvent := []
  image : Bool := false
  hand : Option (DetectedHand R) := none
  analysis : Option (Analysis R) := none
  executed : Option Action := none

/-- Variables of `run_vision_loop` and the globals it shares; `app_gestures.py:472–497`. -/
structure LoopState (R : Type) where
  shared : Shared R
  controller : PCController R
  analyzer : GestureAnalyzer R
  wrongHandFrames : ℕ
  lastConfigCheck : R
  lastMtime : R
  lastDesktopTime : R
  log : GestureLog R
  cur : Locals R

/-- How an iteration ends: by `continue`, at its end, or by `break`. -/
inductive IterEnd where
  | skipped
  | completed
  | quit
  deriving DecidableEq, Repr

/-- Computations of the loop. -/
abbrev Loop (R : Type) := Effect PyError (LoopState R)

variable {R : Type} [Scalar R]

/-- `app_gestures.py:328–337`. -/
def logGestureEvent (now : R) (gesture : Gesture) (action : Action) (log : GestureLog R) :
    GestureLog R :=
  if now - log.lastLogged gesture action > 0.6 then
    { lastLogged := fun g a ↦ if g = gesture ∧ a = action then now else log.lastLogged g a
      queue := log.queue ++ [(gesture, action)] }
  else log

namespace Loop

/-- Assign to module globals. -/
def assign (f : Globals R → Globals R) : Loop R Unit :=
  modify fun s ↦ { s with shared := s.shared.assign f }

/-- Run a controller method and send its events. -/
def perform (f : PCController R → PCController R × List OsEvent) : Loop R Unit :=
  modify fun s ↦
    { s with
      controller := (f s.controller).1
      cur := { s.cur with out := s.cur.out ++ (f s.controller).2 } }

/-- `controller.update_filter_params(v)`. -/
def updateFilterParams (v : Json R) : Loop R Unit :=
  Effect.zoom LoopState.controller (fun c s ↦ { s with controller := c })
    (PCController.updateFilterParams v)

/-- Switch the camera when the configured source is another text; `app_gestures.py:529–533`. -/
def followCamera (inp : IterInput R) (newCamSrc : Json R) : Loop R Unit := do
  let s ← get
  if newCamSrc.pyStr ≠ s.shared.globals.cameraSrc.pyStr then
    modify fun s ↦
      { s with shared := startCameraStream newCamSrc inp.opens inp.written s.shared }

/-- Take over the settings of a changed file; `app_gestures.py:512–533`. `sens_val` is
assigned to a local variable of the function, which does not declare it global. -/
def reloadConfig (inp : IterInput R) : Document R → Loop R Unit
  | .other _ => throw .attributeError
  | .object cfg => do
    let suavVal := cfg.getD "suav_val" (.num 10)
    assign fun g ↦ { g with suavVal := suavVal }
    let sensVal := cfg.getD "sens_val" (.num 3)
    let sens ← toFloat sensVal
    assign fun g ↦ { g with scaleFactor := scaleOf sens }
    let display := cfg.getD "target_hand" (.str "DERECHA")
    assign fun g ↦
      { g with
        gameMode := cfg.getD "game_mode" (.str "normal")
        targetHandDisplay := display
        targetHandMp := handLabel display }
    let zoneX ← zonePair (cfg.getD "zone_x" defaultZone)
    -- the file may hold a good `zone_x` beside a bad `zone_y`
    let zoneY := cfg.getD "zone_y" defaultZone
    assign fun g ↦ { g with zoneXMin := zoneX.1, zoneXMax := zoneX.2 }
    let zoneY ← zonePair zoneY
    assign fun g ↦ { g with zoneYMin := zoneY.1, zoneYMax := zoneY.2 }
    updateFilterParams suavVal
    followCamera inp (cfg.getD "camera_source" (.str "0"))

/-- Look at the file and reload it when its modification time has changed;
`app_gestures.py:503–510`. -/
def checkConfig (inp : IterInput R) : Loop R Unit := do
  let s ← get
  match s.shared.file with
  | none => pure ()
  | some file =>
    if file.mtime ≠ s.lastMtime then do
      modify fun s ↦ { s with lastMtime := file.mtime }
      let document ← Effect.orRaise .valueError file.content
      reloadConfig inp document

/-- The config watcher, at most once a second; `app_gestures.py:498–537`. -/
def configWatcher (inp : IterInput R) : Loop R Unit := do
  let s ← get
  if inp.clock.check - s.lastConfigCheck > 1 then do
    modify fun s ↦ { s with lastConfigCheck := inp.clock.check }
    tryCatch (checkConfig inp) fun _ ↦ pure ()

/-- Draw the zone, which multiplies its four bounds; `app_gestures.py:563–568`. -/
def drawZone : Loop R Unit := do
  let g := (← get).shared.globals
  let _ ← Effect.orRaise .typeError g.zoneXMin.asNumber
  let _ ← Effect.orRaise .typeError g.zoneYMin.asNumber
  let _ ← Effect.orRaise .typeError g.zoneXMax.asNumber
  let _ ← Effect.orRaise .typeError g.zoneYMax.asNumber

/-- The hand that controls the iteration and the new count of frames with the wrong hand;
`app_gestures.py:581–603`. -/
def selectHand (target : String) (hands : List (DetectedHand R)) (wrongHandFrames : ℕ) :
    Option (DetectedHand R) × ℕ :=
  match hands with
  | [] => (none, wrongHandFrames)
  | first :: _ =>
    match hands.find? (·.label = target) with
    | some hand => (some hand, 0)
    | none => (if wrongHandFrames + 1 ≤ 12 then some first else none, wrongHandFrames + 1)

/-- `app_gestures.py:577–603`. -/
def chooseHand (inp : IterInput R) : Loop R Unit :=
  modify fun s ↦
    let selected :=
      selectHand s.shared.globals.targetHandMp inp.hands s.wrongHandFrames
    { s with
      wrongHandFrames := selected.2
      cur := { s.cur with hand := selected.1 } }

/-- The action a mode allows; `app_gestures.py:633–642`. -/
def restrictAction (gameMode : Json R) (action : Option Action) : Option Action :=
  if gameMode.isStr "fruitninja" then some .moveMouse
  else if gameMode.isStr "osugame" then
    if action = some .click then action else some .moveMouse
  else action

/-- One coordinate mapped from the zone to `[0, 1]`; `app_gestures.py:657–664`. -/
def normalise (raw : R) (zoneMin zoneMax : Json R) : Loop R R := do
  let lo ← Effect.orRaise .typeError zoneMin.asNumber
  let hi ← Effect.orRaise .typeError zoneMax.asNumber
  if hi - lo = 0 then throw .zeroDivisionError
  else do
    let norm := (raw - lo) / (hi - lo)
    let norm := 0.5 + (norm - 0.5) * (← get).shared.globals.scaleFactor
    return max 0 (min 1 norm)

/-- Both coordinates of the cursor; `app_gestures.py:654–664,679–688`. -/
def cursorTarget (analysis : Analysis R) : Loop R (R × R) := do
  let g := (← get).shared.globals
  let normX ← normalise analysis.cursorX g.zoneXMin g.zoneXMax
  let normY ← normalise analysis.cursorY g.zoneYMin g.zoneYMax
  return (normX, normY)

/-- The branch of this action was run. -/
def markExecuted (action : Action) : Loop R Unit :=
  modify fun s ↦ { s with cur := { s.cur with executed := some action } }

/-- Win+D at most every 1.5 s; `app_gestures.py:699–707`. -/
def showDesktop (now : R) : Loop R Unit := do
  let s ← get
  if now - s.lastDesktopTime > 1.5 then do
    perform fun c ↦ (c, [.hotkey ["win", "d"]])
    modify fun s ↦ { s with lastDesktopTime := now }

/-- Execute the action in the current mode; `app_gestures.py:652–707`. -/
def executeAction (inp : IterInput R) (analysis : Analysis R) (action : Option Action) :
    Loop R Unit := do
  let gameMode := (← get).shared.globals.gameMode
  let normal := gameMode.isStr "normal"
  if action = some .moveMouse ∨ (¬ normal ∧ (action = some .click ∨ action = some .drag)) then do
    let target ← cursorTarget analysis
    perform fun c ↦ c.moveMouse target.1 target.2 inp.clock.move
    if gameMode.isStr "osugame" ∧ action = some .click then do
      perform fun c ↦ c.click false 0.15 inp.clock.act
      markExecuted .click
    else markExecuted .moveMouse
  else if action = some .click ∧ normal then do
    perform fun c ↦ c.click true 0.3 inp.clock.act
    markExecuted .click
  else if action = some .rightClick ∧ normal then do
    perform fun c ↦ c.rightClick inp.clock.act
    markExecuted .rightClick
  else if action = some .drag ∧ normal then do
    let target ← cursorTarget analysis
    perform PCController.dragStart
    perform fun c ↦ c.moveMouse target.1 target.2 inp.clock.move
    markExecuted .drag
  else if action = some .swipeLeft ∧ normal then do
    perform fun c ↦ c.swipeLeft inp.clock.act
    markExecuted .swipeLeft
  else if action = some .swipeRight ∧ normal then do
    perform fun c ↦ c.swipeRight inp.clock.act
    markExecuted .swipeRight
  else if action = some .showDesktop ∧ normal then do
    showDesktop inp.clock.act
    markExecuted .showDesktop

/-- Follow a changed smoothing setting; `app_gestures.py:644–646`. -/
def syncFilter : Loop R Unit := do
  let s ← get
  if ¬ s.controller.suavidad.pyEq s.shared.globals.suavVal then
    updateFilterParams s.shared.globals.suavVal

/-- Log every action other than moving, hovering and resting; `app_gestures.py:648–650`. -/
def logAction (inp : IterInput R) (gesture : Gesture) : Option Action → Loop R Unit
  | none | some .moveMouse | some .hover => pure ()
  | some action =>
    modify fun s ↦ { s with log := logGestureEvent inp.clock.log gesture action s.log }

/-- Release the drag unless the action drags; `app_gestures.py:709–710`. -/
def releaseDrag (action : Option Action) : Loop R Unit := do
  let gameMode := (← get).shared.globals.gameMode
  if action ≠ some .drag ∨ ¬ gameMode.isStr "normal" then perform PCController.dragStop

/-- Everything done with an analysed hand; `app_gestures.py:629–710`. -/
def actOn (inp : IterInput R) (analysis : Analysis R) : Loop R Unit := do
  let action := restrictAction (← get).shared.globals.gameMode analysis.action
  syncFilter
  logAction inp analysis.gesture action
  executeAction inp analysis action
  releaseDrag action

/-- `app_gestures.py:625–717`. -/
def processActions (inp : IterInput R) : Loop R Unit := do
  let s ← get
  if s.shared.globals.detectionActive ∧ s.shared.globals.calibrationStep = 0 then
    match s.cur.hand with
    | some hand => do
      let result := s.analyzer.analyze hand.landmarks hand.label inp.clock.analyze
      modify fun s ↦
        { s with analyzer := result.2, cur := { s.cur with analysis := some result.1 } }
      actOn inp result.1
    | none => perform PCController.dragStop
  else perform PCController.dragStop

/-- Text shown for an iteration's action; `app_gestures.py:574,631–642,670`. -/
def actionLabel (gameMode : Json R) (cur : Locals R) : String :=
  match cur.analysis with
  | none => "REPOSO"
  | some analysis =>
    if gameMode.isStr "osugame" ∧ cur.executed = some .click then "OSU_CLICK"
    else ((restrictAction gameMode analysis.action).map Action.name).getD "REPOSO"

/-- Publish and draw the state, which calls `game_mode.upper()`; `app_gestures.py:719–736`. -/
def showStatus : Loop R Unit := do
  let cur := (← get).cur
  assign fun g ↦
    { g with
      currentGesture := ((cur.analysis.map (·.gesture.name)).getD "NINGUNO")
      currentAction := actionLabel g.gameMode cur }
  match (← get).shared.globals.gameMode with
  | .str _ => pure ()
  | _ => throw .attributeError

/-- `app_gestures.py:747–755`. -/
def handleKey (inp : IterInput R) : Loop R IterEnd := do
  match inp.key with
  | .q => do
    assign fun g ↦ { g with detectionActive := false }
    return .quit
  | .p => do
    assign fun g ↦ { g with detectionActive := !g.detectionActive }
    return .completed
  | .c => do
    match (← get).cur.hand with
    | some hand =>
      -- `raw_x` may be the cursor position by now, but only outside calibration, where the
      -- key does nothing
      modify fun s ↦
        { s with
          shared := triggerCalibrationKey inp.written (hand.landmarks 5).x (hand.landmarks 5).y
            s.shared }
      return .completed
    | none => return .completed
  | .other => return .completed

/-- The part of an iteration that has an image; `app_gestures.py:550–755`. -/
def processFrame (inp : IterInput R) : Loop R IterEnd := do
  assign fun g ↦ { g with cameraConnected := true }
  modify fun s ↦ { s with cur := { s.cur with image := true } }
  drawZone
  chooseHand inp
  processActions inp
  showStatus
  handleKey inp

/-- A stream is there, has not been stopped and yields an image; `app_gestures.py:539–548`. -/
def seesImage (inp : IterInput R) (s : LoopState R) : Prop :=
  s.shared.globals.vs = some ⟨false⟩ ∧ inp.frame

instance (inp : IterInput R) (s : LoopState R) : Decidable (seesImage inp s) :=
  inferInstanceAs (Decidable (_ ∧ _))

/-- One iteration; `app_gestures.py:498–755`. -/
def iteration (inp : IterInput R) : Loop R IterEnd := do
  configWatcher inp
  if seesImage inp (← get) then processFrame inp
  else do
    assign fun g ↦ { g with cameraConnected := false }
    return .skipped

end Loop

/-! ### Runs -/

/-- What happens before one check of the stop event: the event is set or not, the shared
variables and the file may be changed, and an iteration would meet this input. -/
structure Tick (R : Type) where
  stop : Bool
  env : Shared R → Shared R
  input : IterInput R

/-- Record of one iteration. -/
structure Iteration (R : Type) where
  before : LoopState R
  input : IterInput R
  result : Except PyError IterEnd
  after : LoopState R

/-- The iteration ended by `break`. -/
def Iteration.quits (r : Iteration R) : Bool :=
  match r.result with
  | .ok .quit => true
  | _ => false

omit [Scalar R] in
/-- An iteration quits exactly when its result says so. -/
theorem Iteration.quits_iff (r : Iteration R) : r.quits = true ↔ r.result = .ok .quit := by
  simp only [Iteration.quits]
  split
  · next h => simp [h]
  · next h => simpa using h

/-- Record of one turn of the `while`: the loop is left, or an iteration runs. -/
inductive Turn (R : Type) where
  | stopped (s : LoopState R)
  | iterated (r : Iteration R)

/-- State in which a turn begins. -/
def Turn.before : Turn R → LoopState R
  | .stopped s => s
  | .iterated r => r.before

/-- State in which a turn ends. -/
def Turn.after : Turn R → LoopState R
  | .stopped s => s
  | .iterated r => r.after

/-- Events sent in a turn. -/
def Turn.sent : Turn R → List OsEvent
  | .stopped _ => []
  | .iterated r => r.after.cur.out

/-- The iteration a turn is, if it is one. -/
def Turn.iteration : Turn R → Option (Iteration R)
  | .stopped _ => none
  | .iterated r => some r

/-- State an iteration starts from: the environment has acted and no local is assigned. -/
def LoopState.enter (s : LoopState R) (env : Shared R → Shared R) : LoopState R :=
  { s with shared := env s.shared, cur := {} }

/-- The record of an iteration from a state. -/
def iterate (inp : IterInput R) (s : LoopState R) : Iteration R where
  before := s
  input := inp
  result := (Effect.exec (Loop.iteration inp) s).1
  after := (Effect.exec (Loop.iteration inp) s).2

/-- The `while` of `run_vision_loop`: left on the stop event, on `break` and on an error. -/
def visionMachine : Machine (LoopState R) (Tick R) (Turn R) where
  step s t :=
    if t.stop then .stopped (s.enter t.env) else .iterated (iterate t.input (s.enter t.env))
  next
    | .stopped _ => none
    | .iterated r =>
      match r.result with
      | .ok .quit => none
      | .ok _ => some r.after
      | .error _ => none

/-- A turn either finds the stop event set or runs an iteration. -/
theorem visionMachine_step_cases (s : LoopState R) (t : Tick R) :
    visionMachine.step s t = .stopped (s.enter t.env) ∨
      visionMachine.step s t = .iterated (iterate t.input (s.enter t.env)) := by
  unfold visionMachine
  cases h : t.stop with
  | true => exact Or.inl (if_pos h)
  | false => exact Or.inr (if_neg (by simp [h]))

/-- Only an iteration has a next state, which is the one it leaves. -/
theorem visionMachine_next {t : Turn R} {s : LoopState R} (h : visionMachine.next t = some s) :
    ∃ r, t = .iterated r ∧ r.after = s := by
  cases t with
  | stopped _ => cases h
  | iterated r =>
    refine ⟨r, rfl, ?_⟩
    simp only [visionMachine] at h
    split at h
    · cases h
    · exact Option.some.inj h
    · cases h

/-- After an error there is no next state. -/
theorem visionMachine_next_ok {r : Iteration R} {s : LoopState R}
    (h : visionMachine.next (.iterated r) = some s) (e : PyError) : r.result ≠ .error e := by
  intro herror
  simp only [visionMachine] at h
  simp [herror] at h

/-- Variables before the first iteration, with a controller; `app_gestures.py:480–496`. -/
def LoopState.fresh (sh : Shared R) (controller : PCController R) : LoopState R where
  shared := sh
  controller := controller
  analyzer := .init
  wrongHandFrames := 0
  lastConfigCheck := 0
  lastMtime := 0
  lastDesktopTime := 0
  log := ⟨fun _ _ ↦ 0, []⟩
  cur := {}

/-- Variables before the first iteration. The constructor of the controller raises when
`suav_val` is not a number, or one that no float holds. -/
def startLoop (sh : Shared R) (screenWidth screenHeight : ℤ) : Except PyError (LoopState R) :=
  match Effect.exec (PCController.updateFilterParams sh.globals.suavVal)
      (PCController.blank screenWidth screenHeight) with
  | (.error e, _) => .error e
  | (.ok _, controller) => .ok (.fresh sh controller)

/-- The turns of a run of `run_vision_loop`; `app_gestures.py:472–758`. -/
def runVisionLoop (sh : Shared R) (screenWidth screenHeight : ℤ) (ticks : List (Tick R)) :
    List (Turn R) :=
  match startLoop sh screenWidth screenHeight with
  | .error _ => []
  | .ok s => visionMachine.trace s ticks

/-- The loop starts fresh and with a released button. -/
theorem startLoop_spec {sh : Shared R} {w h : ℤ} {s : LoopState R}
    (hs : startLoop sh w h = .ok s) :
    ∃ controller, s = .fresh sh controller ∧ controller.isDragging = false := by
  simp only [startLoop] at hs
  have hkeep := (PCController.exec_updateFilterParams (.blank w h) sh.globals.suavVal).2
  cases hexec : Effect.exec (PCController.updateFilterParams sh.globals.suavVal)
      (.blank w h) with
  | mk result controller =>
    rw [hexec] at hs hkeep
    cases result with
    | error e => cases hs
    | ok _ => exact ⟨controller, (Except.ok.inj hs).symm, congrArg Prod.fst hkeep⟩

/-- The loop starts when the smoothing setting is a number that a float holds. -/
theorem exists_startLoop {sh : Shared R} (hsuav : sh.globals.suavVal.asFloat.isSome) (w h : ℤ) :
    ∃ s, startLoop sh w h = .ok s := by
  have hok := (PCController.exec_updateFilterParams (.blank w h) sh.globals.suavVal).1.mpr hsuav
  simp only [startLoop]
  cases hexec : Effect.exec (PCController.updateFilterParams sh.globals.suavVal)
      (.blank w h) with
  | mk result controller =>
    rw [hexec] at hok
    cases result with
    | error e => cases hok
    | ok _ => exact ⟨_, rfl⟩

/-- A run has no turn, or is a run of the machine from the state the loop starts in. -/
theorem runVisionLoop_cases (sh : Shared R) (w h : ℤ) (ticks : List (Tick R)) :
    runVisionLoop sh w h ticks = [] ∨
      ∃ s, startLoop sh w h = .ok s ∧
        runVisionLoop sh w h ticks = visionMachine.trace s ticks := by
  simp only [runVisionLoop]
  cases startLoop sh w h with
  | error e => exact Or.inl rfl
  | ok s => exact Or.inr ⟨s, rfl, rfl⟩

/-- The whole program: the shared variables `main` hands to the loop, and its turns.
`app_gestures.py:1005–1043`. -/
def runProgram (created opened : WriteOutcome R) (opens : Bool) (file : Option (ConfigFile R))
    (screenWidth screenHeight : ℤ) (ticks : List (Tick R)) : Shared R × List (Turn R) :=
  match Effect.exec (main created opened opens) ⟨Globals.init, file⟩ with
  | (.error _, sh) => (sh, [])
  | (.ok _, sh) => (sh, runVisionLoop sh screenWidth screenHeight ticks)

/-- What holds of every turn from a state holds of every turn of a run. -/
theorem forall_turn_of_step {P : Turn R → Prop} (hstep : ∀ s t, P (visionMachine.step s t))
    (sh : Shared R) (w h : ℤ) (ticks : List (Tick R)) :
    ∀ t ∈ runVisionLoop sh w h ticks, P t := by
  rcases runVisionLoop_cases sh w h ticks with hnil | ⟨s, _, htrace⟩
  · simp [hnil]
  · rw [htrace]
    exact visionMachine.trace_forall (I := fun _ ↦ True) ticks (fun s t _ _ ↦ hstep s t)
      (fun _ _ _ _ _ _ ↦ trivial) trivial

/-- What holds of every iteration from a state without locals holds of those of every run. -/
theorem forall_iterated_of_iterate {P : Iteration R → Prop}
    (hstep : ∀ inp s, s.cur = {} → P (iterate inp s)) (sh : Shared R) (w h : ℤ)
    (ticks : List (Tick R)) : ∀ r, .iterated r ∈ runVisionLoop sh w h ticks → P r := by
  have hturns : ∀ t ∈ runVisionLoop sh w h ticks, ∀ r, t = .iterated r → P r := by
    apply forall_turn_of_step
    intro s t r hr
    rcases visionMachine_step_cases s t with hstop | hiter
    · rw [hstop] at hr
      cases hr
    · rw [hiter] at hr
      rw [← Turn.iterated.inj hr]
      exact hstep _ _ rfl
  exact fun r hr ↦ hturns _ hr r rfl

/-! ### Parts of runs to evaluate -/

/-- Initial globals with a connected camera, and no settings file. -/
def Shared.online : Shared R where
  globals := { Globals.init with vs := some ⟨false⟩ }
  file := none

/-- An iteration at one time that sees these hands; nothing else happens. -/
def Tick.seeing (t : R) (hands : List (DetectedHand R)) : Tick R where
  stop := false
  env := id
  input :=
    { clock := ⟨t, t, t, t, t⟩, written := .refused, opens := true, frame := true,
      hands := hands, key := .other }

/-- The mode is switched before an iteration at one time that sees these hands. -/
def Tick.inMode (mode : String) (t : R) (hands : List (DetectedHand R)) : Tick R :=
  { Tick.seeing t hands with env := Shared.assign fun g ↦ { g with gameMode := .str mode } }

/-- An iteration at one time whose camera yields no image. -/
def Tick.blind (t : R) : Tick R :=
  { Tick.seeing t [] with input := { (Tick.seeing t []).input with frame := false } }

end VisionGame.Vision
