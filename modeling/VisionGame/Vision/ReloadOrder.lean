import VisionGame.Base.Stages
import VisionGame.Vision.ActiveZone

/-!
# How far a reload comes

Library `Vision`. `src/mediapipe/app_gestures.py:498–537,760–771` and
`src/mediapipe/pc_controller.py:41–51`. The watcher takes the settings of a changed file over one
after the other, and catches what is raised on the way. A reload is therefore no transaction: it
is a sequence of stages, each of which writes one setting, and the types of the values in the file
decide at which stage it stops.
-/

namespace VisionGame.Vision
open VisionGame.Base
open Effect Loop

variable {R : Type} [Scalar R]

/-! ### The settings in the order of a reload -/

/-- Settings a reload takes over. -/
inductive Setting where
  | suav
  | scale
  | modeAndHand
  | zoneX
  | zoneY
  | filters
  | camera
  deriving DecidableEq, Repr

/-- The filter parameters of a smoothing value, with a fresh filter; `pc_controller.py:46–51`. -/
def filterOf (suavidad : R) : OneEuroFilter R :=
  .init (max 0.02 (1.8 - (suavidad / 10) * 1.7)) (max 0.001 (0.035 - (suavidad / 10) * 0.030)) 1

namespace Setting

/-- The order in which a reload writes them. -/
def order : List Setting := [suav, scale, modeAndHand, zoneX, zoneY, filters, camera]

/-- What a setting consists of. -/
abbrev Value (R : Type) : Setting → Type
  | suav => Json R
  | scale => R
  | modeAndHand => Json R × Json R × String
  | zoneX => Json R × Json R
  | zoneY => Json R × Json R
  | filters => OneEuroFilter R × OneEuroFilter R
  | camera => Json R

/-- The setting in force. -/
def read : (k : Setting) → LoopState R → k.Value R
  | suav, s => s.shared.globals.suavVal
  | scale, s => s.shared.globals.scaleFactor
  | modeAndHand, s =>
    (s.shared.globals.gameMode, s.shared.globals.targetHandDisplay, s.shared.globals.targetHandMp)
  | zoneX, s => (s.shared.globals.zoneXMin, s.shared.globals.zoneXMax)
  | zoneY, s => (s.shared.globals.zoneYMin, s.shared.globals.zoneYMax)
  | filters, s => (s.controller.filterX, s.controller.filterY)
  | camera, s => s.shared.globals.cameraSrc

/-- Put a setting in force. -/
def write : (k : Setting) → k.Value R → LoopState R → LoopState R
  | suav, v, s => { s with shared := s.shared.assign fun g ↦ { g with suavVal := v } }
  | scale, v, s => { s with shared := s.shared.assign fun g ↦ { g with scaleFactor := v } }
  | modeAndHand, v, s =>
    { s with
      shared := s.shared.assign fun g ↦
        { g with gameMode := v.1, targetHandDisplay := v.2.1, targetHandMp := v.2.2 } }
  | zoneX, v, s =>
    { s with shared := s.shared.assign fun g ↦ { g with zoneXMin := v.1, zoneXMax := v.2 } }
  | zoneY, v, s =>
    { s with shared := s.shared.assign fun g ↦ { g with zoneYMin := v.1, zoneYMax := v.2 } }
  | filters, v, s => { s with controller := { s.controller with filterX := v.1, filterY := v.2 } }
  | camera, v, s => { s with shared := s.shared.assign fun g ↦ { g with cameraSrc := v } }

omit [Scalar R] in
/-- A setting that was put in force is in force. -/
theorem read_write (k : Setting) (v : k.Value R) (s : LoopState R) : k.read (k.write v s) = v := by
  cases k <;> rfl

omit [Scalar R] in
/-- Putting a setting in force leaves the others in force. -/
theorem read_write_of_ne {j k : Setting} (h : j ≠ k) (v : k.Value R) (s : LoopState R) :
    j.read (k.write v s) = j.read s := by
  cases k <;> cases j <;> first | exact absurd rfl h | rfl

/-- The file, or the default for a missing key, has a value the setting can be computed from. -/
def readable (cfg : Dict (Json R)) : Setting → Bool
  | scale => (cfg.getD "sens_val" (.num 3)).asFloat.isSome
  | zoneX => (pairOf (cfg.getD "zone_x" defaultZone)).isSome
  | zoneY => (pairOf (cfg.getD "zone_y" defaultZone)).isSome
  | filters => (cfg.getD "suav_val" (.num 10)).asFloat.isSome
  | _ => true

/-- The setting is the one of the file, or the default for a missing key. -/
def FromFile (cfg : Dict (Json R)) : (k : Setting) → k.Value R → Prop
  | suav, v => v = cfg.getD "suav_val" (.num 10)
  | scale, v => ∃ x, (cfg.getD "sens_val" (.num 3)).asFloat = some x ∧ v = scaleOf x
  | modeAndHand, v =>
    v = (cfg.getD "game_mode" (.str "normal"), cfg.getD "target_hand" (.str "DERECHA"),
      handLabel (cfg.getD "target_hand" (.str "DERECHA")))
  | zoneX, v => pairOf (cfg.getD "zone_x" defaultZone) = some v
  | zoneY, v => pairOf (cfg.getD "zone_y" defaultZone) = some v
  | filters, v =>
    ∃ x, (cfg.getD "suav_val" (.num 10)).asFloat = some x ∧ v = (filterOf x, filterOf x)
  | camera, v => v.pyStr = (cfg.getD "camera_source" (.str "0")).pyStr

/-- The stage of a reload that writes a setting. -/
def reload (inp : IterInput R) (cfg : Dict (Json R)) : Setting → Loop R Unit
  | suav => assign fun g ↦ { g with suavVal := cfg.getD "suav_val" (.num 10) }
  | scale => do
    let sens ← toFloat (cfg.getD "sens_val" (.num 3))
    assign fun g ↦ { g with scaleFactor := scaleOf sens }
  | modeAndHand =>
    assign fun g ↦
      { g with
        gameMode := cfg.getD "game_mode" (.str "normal")
        targetHandDisplay := cfg.getD "target_hand" (.str "DERECHA")
        targetHandMp := handLabel (cfg.getD "target_hand" (.str "DERECHA")) }
  | zoneX => do
    let zone ← zonePair (cfg.getD "zone_x" defaultZone)
    assign fun g ↦ { g with zoneXMin := zone.1, zoneXMax := zone.2 }
  | zoneY => do
    let zone ← zonePair (cfg.getD "zone_y" defaultZone)
    assign fun g ↦ { g with zoneYMin := zone.1, zoneYMax := zone.2 }
  | filters => updateFilterParams (cfg.getD "suav_val" (.num 10))
  | camera => followCamera inp (cfg.getD "camera_source" (.str "0"))

end Setting

/-- A reload is the sequence of its stages. -/
theorem reloadConfig_eq_stages (inp : IterInput R) (cfg : Dict (Json R)) :
    reloadConfig inp (.object cfg) = stages (Setting.reload inp cfg) Setting.order := by
  simp only [reloadConfig, Setting.order, stages, Setting.reload, bind_assoc, bind_pure_unit]

omit [Scalar R] in
private theorem read_startCameraStream (source : Json R) (opens : Bool) (written : WriteOutcome R)
    (s : LoopState R) (j : Setting) :
    j.read { s with shared := startCameraStream source opens written s.shared } =
      j.read (Setting.camera.write source s) := by
  simp only [startCameraStream]
  cases opens with
  | true => cases j <;> rfl
  | false => cases j <;> rfl

private theorem exec_followCamera (inp : IterInput R) (source : Json R) (s : LoopState R) :
    ∃ t, exec (followCamera inp source) s = (.ok (), t) ∧
      (Setting.camera.read t).pyStr = source.pyStr ∧
      ∀ j, j ≠ Setting.camera → j.read t = j.read s := by
  simp only [followCamera]
  rw [exec_bind_get]
  split
  · have hread := read_startCameraStream source inp.opens inp.written s
    refine ⟨_, rfl, ?_, fun j hj ↦ ?_⟩
    · rw [hread, Setting.read_write]
    · rw [hread, Setting.read_write_of_ne hj]
  · next hsame => exact ⟨s, rfl, (not_not.mp hsame).symm, fun _ _ ↦ rfl⟩

omit [Scalar R] in
/-- The controller's copy of the smoothing value is no setting. -/
theorem read_suavidad (v : Json R) (s : LoopState R) (j : Setting) :
    j.read { s with controller := { s.controller with suavidad := v } } = j.read s := by
  cases j <;> rfl

/-- A smoothing that a float holds sets the filters. -/
theorem exec_updateFilterParams_some {v : Json R} {x : R} (hx : v.asFloat = some x)
    (s : LoopState R) :
    exec (updateFilterParams v) s =
      (.ok (), Setting.filters.write (filterOf x, filterOf x)
        { s with controller := { s.controller with suavidad := v } }) := by
  simp only [updateFilterParams]
  rw [exec_zoom, PCController.exec_updateFilterParams_some _ hx]
  rfl

private theorem exec_updateFilterParams_none {v : Json R} (hnone : v.asFloat = none)
    (s : LoopState R) :
    ∃ e, exec (updateFilterParams v) s =
      (.error e, { s with controller := { s.controller with suavidad := v } }) := by
  obtain ⟨e, hexec, _⟩ := s.controller.exec_updateFilterParams_none hnone
  refine ⟨e, ?_⟩
  simp only [updateFilterParams]
  rw [exec_zoom, hexec]

/-- A stage whose setting is readable puts the one of the file in force. -/
theorem reload_of_readable (inp : IterInput R) {cfg : Dict (Json R)} {k : Setting}
    (s : LoopState R) (hready : k.readable cfg = true) :
    ∃ t, exec (Setting.reload inp cfg k) s = (.ok (), t) ∧ k.FromFile cfg (k.read t) ∧
      ∀ j, j ≠ k → j.read t = j.read s := by
  cases k with
  | suav => exact ⟨_, rfl, rfl, fun j hj ↦ Setting.read_write_of_ne hj _ s⟩
  | modeAndHand =>
    let display := cfg.getD "target_hand" (.str "DERECHA")
    exact ⟨_, rfl, rfl, fun j hj ↦ Setting.read_write_of_ne hj
      (cfg.getD "game_mode" (.str "normal"), display, handLabel display) s⟩
  | scale =>
    have ⟨x, hx⟩ := Option.isSome_iff_exists.mp hready
    simp only [Setting.reload]
    rw [exec_bind_ok (exec_toFloat_some hx s)]
    exact ⟨_, rfl, ⟨x, hx, rfl⟩, fun j hj ↦ Setting.read_write_of_ne hj (scaleOf x) s⟩
  | zoneX =>
    have ⟨zone, hzone⟩ := Option.isSome_iff_exists.mp hready
    simp only [Setting.reload]
    rw [exec_bind, exec_zonePair, hzone]
    exact ⟨_, rfl, hzone, fun j hj ↦ Setting.read_write_of_ne hj zone s⟩
  | zoneY =>
    have ⟨zone, hzone⟩ := Option.isSome_iff_exists.mp hready
    simp only [Setting.reload]
    rw [exec_bind, exec_zonePair, hzone]
    exact ⟨_, rfl, hzone, fun j hj ↦ Setting.read_write_of_ne hj zone s⟩
  | filters =>
    have ⟨x, hx⟩ := Option.isSome_iff_exists.mp hready
    refine ⟨_, exec_updateFilterParams_some hx s, ⟨x, hx, rfl⟩, fun j hj ↦ ?_⟩
    rw [Setting.read_write_of_ne hj, read_suavidad]
  | camera => exact exec_followCamera inp _ s

/-- A stage whose setting is not readable raises and leaves the settings in force. -/
theorem reload_of_not_readable (inp : IterInput R) {cfg : Dict (Json R)} {k : Setting}
    (s : LoopState R) (hready : k.readable cfg = false) :
    ∃ e t, exec (Setting.reload inp cfg k) s = (.error e, t) ∧
      ∀ j : Setting, j.read t = j.read s := by
  cases k with
  | suav => cases hready
  | modeAndHand => cases hready
  | camera => cases hready
  | scale =>
    have hnone := Option.isNone_iff_eq_none.mp (Option.isSome_eq_false_iff.mp hready)
    obtain ⟨e, hexec, _⟩ := exec_toFloat_none hnone s
    exact ⟨e, s, exec_bind_error hexec, fun _ ↦ rfl⟩
  | zoneX =>
    have hnone := Option.isNone_iff_eq_none.mp (Option.isSome_eq_false_iff.mp hready)
    simp only [Setting.reload]
    rw [exec_bind, exec_zonePair, hnone]
    exact ⟨_, s, rfl, fun _ ↦ rfl⟩
  | zoneY =>
    have hnone := Option.isNone_iff_eq_none.mp (Option.isSome_eq_false_iff.mp hready)
    simp only [Setting.reload]
    rw [exec_bind, exec_zonePair, hnone]
    exact ⟨_, s, rfl, fun _ ↦ rfl⟩
  | filters =>
    have hnone := Option.isNone_iff_eq_none.mp (Option.isSome_eq_false_iff.mp hready)
    obtain ⟨e, hexec⟩ := exec_updateFilterParams_none hnone s
    exact ⟨e, _, hexec, read_suavidad _ s⟩

/-- Each stage writes its setting when the file has a value for it, and raises otherwise. -/
theorem staged_reload (inp : IterInput R) (cfg : Dict (Json R)) :
    Staged (Setting.reload inp cfg) (Setting.readable cfg) Setting.read (Setting.FromFile cfg) where
  writes _ s hready := reload_of_readable inp s hready
  raises _ s hready := reload_of_not_readable inp s hready

/-! ### The watcher -/

/-- Settings a reload takes from a content, in order: none unless it is an object, else those
before the first one that cannot be read. -/
def takenSettings : Option (Document R) → List Setting
  | some (.object cfg) => Setting.order.takeWhile (Setting.readable cfg)
  | _ => []

/-- What the watcher catches, if anything is raised. -/
def caught (inp : IterInput R) (s : LoopState R) : Option PyError :=
  match (exec (checkConfig inp) { s with lastConfigCheck := inp.clock.check }).1 with
  | .error e => some e
  | .ok _ => none

/-- The watcher takes the settings of a content as far as it comes, leaves the others alone, and
catches nothing exactly when it comes to the end. -/
structure TakesInOrder (inp : IterInput R) (s : LoopState R) (content : Option (Document R)) :
    Prop where
  taken : ∀ cfg, content = some (.object cfg) →
    ∀ k ∈ takenSettings content, k.FromFile cfg (k.read (watched inp s))
  kept : ∀ k, k ∉ takenSettings content → k.read (watched inp s) = k.read s
  caught_iff : caught inp s = none ↔ takenSettings content = Setting.order

/-- All settings are from the file, or all are as they were. -/
def AllOrNothing (inp : IterInput R) (s : LoopState R) (content : Option (Document R)) : Prop :=
  (∃ cfg, content = some (.object cfg) ∧ ∀ k : Setting, k.FromFile cfg (k.read (watched inp s))) ∨
    ∀ k : Setting, k.read (watched inp s) = k.read s

omit [Scalar R] in
private theorem read_noted (inp : IterInput R) (s : LoopState R) (k : Setting) :
    k.read (noted inp s) = k.read s := by
  cases k <;> rfl

/-- A file with a smoothing value and a sensitivity that is no number. -/
def halfGood : ConfigFile ℚ :=
  ⟨7, some (.object (Dict.ofList [("suav_val", .num 5), ("sens_val", .null)]))⟩

/-- A loop with the initial settings that is about to look at this file. -/
def halfGoodLoop : LoopState ℚ := .fresh ⟨Globals.init, some halfGood⟩ (.blank 640 480)

/-- The watcher of the second second looks at the file. -/
theorem processes_halfGood : Processes (Tick.blind 2).input halfGoodLoop halfGood where
  due := by decide +kernel
  found := rfl
  changed := by decide +kernel

end VisionGame.Vision
