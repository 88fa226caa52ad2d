import VisionGame.Vision.PcController

/-!
# Shared variables, the settings file and their handlers

Library `Vision`. `src/mediapipe/app_gestures.py:145–172,294–323,427–470,760–1043`. The module
globals are shared by the vision loop, the control panel and the settings file. Values that
are read from the file keep whatever JSON type they have there. The outcome of an operation
of the system (opening a camera, writing the file) is an argument.
-/

namespace VisionGame.Vision
open VisionGame.Base

/-- The part of a video stream the loop looks at; `app_gestures.py:288–292`. -/
structure VideoStream where
  stopped : Bool
  deriving DecidableEq, Repr

/-- Module globals; `app_gestures.py:294–323`. -/
structure Globals (R : Type) where
  config : Dict (Json R)
  cameraSrc : Json R
  targetHandMp : String
  targetHandDisplay : Json R
  gameMode : Json R
  sensVal : Json R
  suavVal : Json R
  scaleFactor : R
  detectionActive : Bool
  calibrationStep : ℕ
  calibXMin : R
  calibYMin : R
  calibXMax : R
  calibYMax : R
  zoneXMin : Json R
  zoneXMax : Json R
  zoneYMin : Json R
  zoneYMax : Json R
  cameraConnected : Bool
  currentGesture : String
  currentAction : String
  vs : Option VideoStream

/-- `config.json` on disk; the content is absent when the text is not JSON. -/
structure ConfigFile (R : Type) where
  mtime : R
  content : Option (Document R)

/-- What comes of writing the settings file, which is emptied when it is opened: it cannot be
opened, the write breaks off, or the whole text is there. The file is left with a modification
time. -/
inductive WriteOutcome (R : Type) where
  | refused
  | brokenOff (mtime : R)
  | done (mtime : R)
  deriving DecidableEq

/-- The write does not break off. -/
def WriteOutcome.Whole {R : Type} (written : WriteOutcome R) : Prop :=
  ∀ mtime, written ≠ brokenOff mtime

/-- The write does not break off, and a modification time that it leaves is of this kind. -/
def WriteOutcome.Leaves {R : Type} (p : R → Prop) : WriteOutcome R → Prop
  | refused => True
  | brokenOff _ => False
  | done mtime => p mtime

instance {R : Type} (p : R → Prop) [DecidablePred p] : DecidablePred (WriteOutcome.Leaves p)
  | .refused => .isTrue trivial
  | .brokenOff _ => .isFalse id
  | .done mtime => inferInstanceAs (Decidable (p mtime))

/-- Such a write is whole. -/
theorem WriteOutcome.Leaves.whole {R : Type} {p : R → Prop} {written : WriteOutcome R}
    (h : written.Leaves p) : written.Whole := by
  rintro mtime rfl
  exact h

/-- The modification time of such a write. -/
theorem WriteOutcome.Leaves.of_done {R : Type} {p : R → Prop} {written : WriteOutcome R} {mtime : R}
    (h : written.Leaves p) (hdone : written = .done mtime) : p mtime := by
  rw [hdone] at h
  exact h

/-- The file after a document has been written to it, as far as that went. -/
def WriteOutcome.leave {R : Type} (document : Document R) (file : Option (ConfigFile R)) :
    WriteOutcome R → Option (ConfigFile R)
  | refused => file
  | brokenOff mtime => some ⟨mtime, none⟩
  | done mtime => some ⟨mtime, some document⟩

/-- Everything that other threads and processes can change between two iterations. -/
structure Shared (R : Type) where
  globals : Globals R
  file : Option (ConfigFile R)

namespace Shared

/-- Assign to module globals. -/
def assign {R : Type} (f : Globals R → Globals R) (sh : Shared R) : Shared R :=
  { sh with globals := f sh.globals }

end Shared

variable {R : Type} [Scalar R]

/-- MediaPipe label of a configured hand; `app_gestures.py:517–520`. -/
def handLabel (display : Json R) : String :=
  if display.isStr "IZQUIERDA" then "Left" else "Right"

/-- Cursor gain of a sensitivity; `app_gestures.py:514`. -/
def scaleOf (sens : R) : R := 0.5 + (sens / 5) * 0.65

/-- The zone `[0.2, 0.8]` that stands in for a missing one. -/
def defaultZone : Json R := .arr [.num 0.2, .num 0.8]

/-- Initial values of the module globals; `app_gestures.py:294–323`. -/
def Globals.init : Globals R where
  config := Dict.empty
  cameraSrc := .str "0"
  targetHandMp := "Right"
  targetHandDisplay := .str "DERECHA"
  gameMode := .str "normal"
  sensVal := .num 3
  suavVal := .num 3
  scaleFactor := scaleOf 3
  detectionActive := true
  calibrationStep := 0
  calibXMin := 0.2
  calibYMin := 0.2
  calibXMax := 0.8
  calibYMax := 0.8
  zoneXMin := .num 0.2
  zoneXMax := .num 0.8
  zoneYMin := .num 0.2
  zoneYMax := .num 0.8
  cameraConnected := false
  currentGesture := "NINGUNO"
  currentAction := "REPOSO"
  vs := none

/-- `default_config`; `app_gestures.py:147–158`. -/
def defaultConfig : Dict (Json R) := Dict.ofList [
  ("camera_source", .str "0"),
  ("zone_x", defaultZone),
  ("zone_y", defaultZone),
  ("game_mode", .str "normal"),
  ("target_hand", .str "DERECHA"),
  ("sens_val", .num 3),
  ("suav_val", .num 3),
  ("api_url", .str "http://localhost:3000/api/gesture"),
  ("api_secret_key", .str "ademangesturesecret123"),
  ("instructions", .str "Usa '0' para webcam local, o la IP / URL de tu ESP32-CAM")]

/-- `config` after `save_config_file` has copied the settings into it;
`app_gestures.py:431–437`. -/
def savedConfig (g : Globals R) : Dict (Json R) :=
  g.config
    |>.set "camera_source" g.cameraSrc
    |>.set "game_mode" g.gameMode
    |>.set "target_hand" g.targetHandDisplay
    |>.set "sens_val" g.sensVal
    |>.set "suav_val" g.suavVal
    |>.set "zone_x" (.arr [g.zoneXMin, g.zoneXMax])
    |>.set "zone_y" (.arr [g.zoneYMin, g.zoneYMax])

/-- `app_gestures.py:427–442`. -/
def saveConfigFile (written : WriteOutcome R) (sh : Shared R) : Shared R where
  globals := { sh.globals with config := savedConfig sh.globals }
  file := written.leave (.object (savedConfig sh.globals)) sh.file

/-- `app_gestures.py:760–771`. `opens` says whether the new stream could be constructed. -/
def startCameraStream (source : Json R) (opens : Bool) (written : WriteOutcome R) (sh : Shared R) :
    Shared R :=
  let sh := sh.assign fun g ↦
    { g with cameraSrc := source, vs := g.vs.map fun _ ↦ ⟨true⟩ }
  if opens then saveConfigFile written (sh.assign fun g ↦ { g with vs := some ⟨false⟩ })
  else sh

/-- The zone test of a calibration; `app_gestures.py:462`. -/
def zoneTooSmall (xMin xMax yMin yMax : R) : Prop := xMax - xMin < 0.1 ∨ yMax - yMin < 0.1

instance (xMin xMax yMin yMax : R) : Decidable (zoneTooSmall xMin xMax yMin yMax) :=
  inferInstanceAs (Decidable (_ ∨ _))

/-- Assign the active zone. -/
def setZone (xMin xMax yMin yMax : R) (sh : Shared R) : Shared R :=
  sh.assign fun g ↦
    { g with zoneXMin := .num xMin, zoneXMax := .num xMax,
             zoneYMin := .num yMin, zoneYMax := .num yMax }

/-- `app_gestures.py:444–470`. The second press fixes the zone, or falls back to the default
one without saving when the zone is too small. -/
def triggerCalibrationKey (written : WriteOutcome R) (rawX rawY : R) (sh : Shared R) : Shared R :=
  let g := sh.globals
  if g.calibrationStep = 1 then
    sh.assign fun g ↦ { g with calibXMin := rawX, calibYMin := rawY, calibrationStep := 2 }
  else if g.calibrationStep = 2 then
    let xMin := min g.calibXMin rawX
    let xMax := max g.calibXMin rawX
    let yMin := min g.calibYMin rawY
    let yMax := max g.calibYMin rawY
    let sh := sh.assign fun g ↦ { g with calibXMax := rawX, calibYMax := rawY }
    let sh :=
      if zoneTooSmall xMin xMax yMin yMax then setZone 0.2 0.8 0.2 0.8 sh
      else saveConfigFile written (setZone xMin xMax yMin yMax sh)
    sh.assign fun g ↦ { g with calibrationStep := 0 }
  else sh

/-- `app_gestures.py:145–172`. A file that is missing is created from the defaults; a file
that cannot be parsed is left alone and read as the defaults. -/
def loadConfig (written : WriteOutcome R) (sh : Shared R) : Document R × Shared R :=
  match sh.file with
  | some f => (f.content.getD (.object defaultConfig), sh)
  | none =>
    (.object defaultConfig, { sh with file := written.leave (.object defaultConfig) none })

/-- `zone[0], zone[1]`. -/
def zonePair {σ : Type} (zone : Json R) : Effect PyError σ (Json R × Json R) := do
  let lo ← Effect.orRaise .lookupError (zone.index 0)
  let hi ← Effect.orRaise .lookupError (zone.index 1)
  return (lo, hi)

/-- Settings and camera at start-up; `app_gestures.py:1005–1040`. The first write is the one
of `load_config`, the second the one of `start_camera_stream`. -/
def main (created opened : WriteOutcome R) (opens : Bool) : Effect PyError (Shared R) Unit := do
  let sh ← get
  let (document, sh) := loadConfig created sh
  modify fun _ ↦ sh
  match document with
  | .other _ => throw .attributeError
  | .object cfg => do
    modify <| Shared.assign fun g ↦
      { g with
        config := cfg
        cameraSrc := cfg.getD "camera_source" (.str "0")
        gameMode := cfg.getD "game_mode" (.str "normal")
        targetHandDisplay := cfg.getD "target_hand" (.str "DERECHA")
        sensVal := cfg.getD "sens_val" (.num 3)
        suavVal := cfg.getD "suav_val" (.num 10)
        targetHandMp := handLabel (cfg.getD "target_hand" (.str "DERECHA")) }
    let sens ← toFloat (cfg.getD "sens_val" (.num 3))
    modify <| Shared.assign fun g ↦ { g with scaleFactor := scaleOf sens }
    let zoneX ← zonePair (cfg.getD "zone_x" defaultZone)
    modify <| Shared.assign fun g ↦ { g with zoneXMin := zoneX.1, zoneXMax := zoneX.2 }
    let zoneY ← zonePair (cfg.getD "zone_y" defaultZone)
    modify <| Shared.assign fun g ↦ { g with zoneYMin := zoneY.1, zoneYMax := zoneY.2 }
    modify (startCameraStream (cfg.getD "camera_source" (.str "0")) opens opened)

/-! ### Handlers of the control panel -/

/-- `app_gestures.py:863–868`. -/
def sensChanged (written : WriteOutcome R) (val : R) (sh : Shared R) : Shared R :=
  saveConfigFile written <| sh.assign fun g ↦
    { g with sensVal := .num (Scalar.toInt val), scaleFactor := scaleOf (Scalar.toInt val) }

/-- `app_gestures.py:878–882`. -/
def suavChanged (written : WriteOutcome R) (val : R) (sh : Shared R) : Shared R :=
  saveConfigFile written <| sh.assign fun g ↦ { g with suavVal := .num (Scalar.toInt val) }

/-- `app_gestures.py:898–905`. -/
def targetHandChanged (written : WriteOutcome R) (hand : String) (sh : Shared R) : Shared R :=
  saveConfigFile written <| sh.assign fun g ↦
    { g with targetHandDisplay := .str hand, targetHandMp := handLabel (.str hand : Json R) }

/-- `app_gestures.py:919–922`. -/
def modeChanged (written : WriteOutcome R) (mode : String) (sh : Shared R) : Shared R :=
  saveConfigFile written <| sh.assign fun g ↦ { g with gameMode := .str mode }

/-- `app_gestures.py:937–940`. -/
def toggleDetection (sh : Shared R) : Shared R :=
  sh.assign fun g ↦ { g with detectionActive := !g.detectionActive }

/-- `app_gestures.py:963–965`. -/
def startCalibrationGui (sh : Shared R) : Shared R :=
  sh.assign fun g ↦ { g with calibrationStep := 1 }

/-- What can reach the shared variables from outside the loop: the handlers of the panel, and
another process that replaces the settings file. -/
inductive OutsideEvent (R : Type) where
  | connect (source : String) (opens : Bool) (written : WriteOutcome R)
  | sens (written : WriteOutcome R) (val : R)
  | suav (written : WriteOutcome R) (val : R)
  | targetHand (written : WriteOutcome R) (hand : String)
  | mode (written : WriteOutcome R) (gameMode : String)
  | toggle
  | startCalibration
  | replaceFile (file : Option (ConfigFile R))

/-- The handler of an event; the one of the connect button is `app_gestures.py:839–848`. -/
def OutsideEvent.handle : OutsideEvent R → Shared R → Shared R
  | .connect source opens written => startCameraStream (.str source) opens written
  | .sens written val => sensChanged written val
  | .suav written val => suavChanged written val
  | .targetHand written hand => targetHandChanged written hand
  | .mode written gameMode => modeChanged written gameMode
  | .toggle => toggleDetection
  | .startCalibration => startCalibrationGui
  | .replaceFile file => fun sh ↦ { sh with file := file }

/-- Several events, one after the other. -/
def OutsideEvent.run (events : List (OutsideEvent R)) (sh : Shared R) : Shared R :=
  events.foldl (fun sh e ↦ e.handle sh) sh

/-- What every event of a sequence leaves alone the sequence leaves alone. -/
theorem OutsideEvent.run_keeps {α : Type} {f : Shared R → α} {events : List (OutsideEvent R)}
    (h : ∀ e ∈ events, ∀ sh, f (e.handle sh) = f sh) (sh : Shared R) :
    f (run events sh) = f sh := by
  simp only [run]
  induction events generalizing sh with
  | nil => rfl
  | cons e events ih =>
    have ⟨hhead, htail⟩ := List.forall_mem_cons.mp h
    rw [List.foldl_cons, ih htail]
    exact hhead sh

end VisionGame.Vision
