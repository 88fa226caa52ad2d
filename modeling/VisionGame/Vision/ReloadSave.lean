import VisionGame.Vision.ActiveZone

/-!
# Reloading settings and saving them again

Library `Vision`. `src/mediapipe/app_gestures.py:427–470,472–537,760–771`. A reload reads a
document into the globals; a save writes the globals over the dictionary loaded at start-up.
The reload assigns its sensitivity to a local variable, leaves the dictionary alone and keeps
a camera source that prints the same. The main theorem says exactly which keys of a reloaded
document survive the next save.
-/

namespace VisionGame.Vision
open VisionGame.Base
open Effect Loop

variable {R : Type} [Scalar R]

/-- Keys a save writes. -/
def savedKeys : List String :=
  ["camera_source", "game_mode", "target_hand", "sens_val", "suav_val", "zone_x", "zone_y"]

/-- The two keys of the zone. -/
def zoneKeys : List String := ["zone_x", "zone_y"]

/-- A value is a number that a float holds. -/
def IsFloat (v : Json R) : Prop := ∃ x, v = .num x ∧ |x| < (Json.floatLimit : R)

/-- Small numerals are floats. -/
theorem isFloat_ofNat (n : ℕ) [n.AtLeastTwo] (h : n < Json.floatLimit) :
    IsFloat (.num (OfNat.ofNat n : R)) := by
  refine ⟨_, rfl, ?_⟩
  rw [← Nat.cast_ofNat, Nat.abs_cast]
  exact_mod_cast h

/-- A float can be converted. -/
theorem IsFloat.exists_asFloat {v : Json R} (h : IsFloat v) : ∃ x, v.asFloat = some x := by
  obtain ⟨x, rfl, hlimit⟩ := h
  exact ⟨x, Json.asFloat_num hlimit⟩

/-- The settings of a document have the types the program expects, and its two numbers are
floats; any of them, and any other key, may be there or not. -/
structure WellFormed (C : Dict (Json R)) : Prop where
  gameMode : ∀ v, C "game_mode" = some v → ∃ m, v = .str m
  targetHand : ∀ v, C "target_hand" = some v → ∃ hand, v = .str hand
  sensVal : ∀ v, C "sens_val" = some v → IsFloat v
  suavVal : ∀ v, C "suav_val" = some v → IsFloat v
  cameraSource : ∀ v, C "camera_source" = some v → (∃ src, v = .str src) ∨ ∃ i : ℤ, v = .num i
  zone : ∀ k ∈ zoneKeys, ∀ v, C k = some v → ∃ lo hi, v = .arr [.num lo, .num hi]

omit [Scalar R] in
/-- What holds of every value of a key and of the default holds of the value read. -/
theorem getD_of {V : Type} {d : Dict V} {k : String} {default : V} {p : V → Prop}
    (h : ∀ v, d k = some v → p v) (hdefault : p default) : p (d.getD k default) := by
  simp only [Dict.getD]
  cases hk : d k with
  | none => exact hdefault
  | some v => exact h v hk

/-- The sensitivity that is read from a well-formed document can be converted. -/
theorem WellFormed.exists_sens {C : Dict (Json R)} (h : WellFormed C) :
    ∃ x, (C.getD "sens_val" (.num 3)).asFloat = some x :=
  (getD_of h.sensVal (isFloat_ofNat 3 (by decide))).exists_asFloat

/-- So can the smoothing. -/
theorem WellFormed.exists_suav {C : Dict (Json R)} (h : WellFormed C) :
    ∃ x, (C.getD "suav_val" (.num 10)).asFloat = some x :=
  (getD_of h.suavVal (isFloat_ofNat 10 (by decide))).exists_asFloat

/-! ### What a save writes -/

omit [Scalar R] in
/-- A save leaves keys it does not know as they were loaded at start-up. -/
theorem savedConfig_of_notMem (g : Globals R) {k : String} (hk : k ∉ savedKeys) :
    savedConfig g k = g.config k := by
  simp only [savedKeys, List.mem_cons, List.not_mem_nil, or_false, not_or] at hk
  simp only [savedConfig]
  simp [hk]

/-- The part of the globals that a save writes beside the zone. -/
def Globals.stored (g : Globals R) :=
  (g.cameraSrc, g.gameMode, g.targetHandDisplay, g.sensVal, g.suavVal)

omit [Scalar R] in
/-- Two saves agree outside the zone when their globals do. -/
theorem savedConfig_congr {g h : Globals R} (hstored : g.stored = h.stored) {k : String}
    (hconfig : k ∉ savedKeys → g.config k = h.config k) (hk : k ∉ zoneKeys) :
    savedConfig g k = savedConfig h k := by
  simp only [Globals.stored, Prod.mk.injEq] at hstored
  by_cases hmem : k ∈ savedKeys
  · simp only [savedKeys, List.mem_cons, List.not_mem_nil, or_false] at hmem
    simp only [zoneKeys, List.mem_cons, List.not_mem_nil, or_false, not_or] at hk
    rcases hmem with rfl | rfl | rfl | rfl | rfl | rfl | rfl
    · simp [savedConfig, hstored]
    · simp [savedConfig, hstored]
    · simp [savedConfig, hstored]
    · simp [savedConfig, hstored]
    · simp [savedConfig, hstored]
    · exact absurd rfl hk.1
    · exact absurd rfl hk.2
  · rw [savedConfig_of_notMem g hmem, savedConfig_of_notMem h hmem, hconfig hmem]

omit [Scalar R] in
private theorem savedConfig_idem (g : Globals R) (k : String) :
    savedConfig { g with config := savedConfig g } k = savedConfig g k := by
  by_cases hmem : k ∈ savedKeys
  · simp only [savedKeys, List.mem_cons, List.not_mem_nil, or_false] at hmem
    rcases hmem with rfl | rfl | rfl | rfl | rfl | rfl | rfl <;> simp [savedConfig]
  · rw [savedConfig_of_notMem _ hmem]

/-- The file was written at this time and holds what another save would write. -/
def Saved (mtime : R) (sh : Shared R) : Prop :=
  ∃ d, sh.file = some ⟨mtime, some (.object d)⟩ ∧ ∀ k, d k = savedConfig sh.globals k

omit [Scalar R] in
private theorem saveConfigFile_spec (written : WriteOutcome R) (sh : Shared R) :
    (saveConfigFile written sh).globals.stored = sh.globals.stored ∧
      (∀ k, k ∉ savedKeys →
        (saveConfigFile written sh).globals.config k = sh.globals.config k) ∧
      ∀ mtime, written = .done mtime → Saved mtime (saveConfigFile written sh) := by
  refine ⟨rfl, fun k hk ↦ savedConfig_of_notMem _ hk, ?_⟩
  rintro mtime rfl
  exact ⟨_, rfl, fun k ↦ (savedConfig_idem _ k).symm⟩

/-! ### What a reload takes over -/

/-- Globals in which the settings of a well-formed document have been taken over, before its
camera is looked at. -/
structure Taken (C : Dict (Json R)) (old g : Globals R) : Prop where
  config : g.config = old.config
  cameraSrc : g.cameraSrc = old.cameraSrc
  sensVal : g.sensVal = old.sensVal
  gameMode : g.gameMode = C.getD "game_mode" (.str "normal")
  targetHand : g.targetHandDisplay = C.getD "target_hand" (.str "DERECHA")
  suavVal : g.suavVal = C.getD "suav_val" (.num 10)

private theorem Loop.exec_updateFilterParams_ok {v : Json R} (hv : v.asFloat.isSome)
    (s : LoopState R) :
    ∃ c, exec (Loop.updateFilterParams v) s = (.ok (), { s with controller := c }) := by
  have hok := (PCController.exec_updateFilterParams s.controller v).1.mpr hv
  refine ⟨(exec (PCController.updateFilterParams v) s.controller).2, ?_⟩
  simp only [Loop.updateFilterParams]
  rw [exec_zoom, hok]

/-- The reload of a well-formed document takes its settings over and then follows its camera. -/
theorem exec_reloadConfig_wellFormed {C : Dict (Json R)} (hC : WellFormed C) (inp : IterInput R)
    (s : LoopState R) :
    ∃ t, exec (reloadConfig inp (.object C)) s =
        exec (followCamera inp (C.getD "camera_source" (.str "0"))) t ∧
      Taken C s.shared.globals t.shared.globals ∧ t.lastMtime = s.lastMtime := by
  have ⟨sens, hsens⟩ := hC.exists_sens
  have hnumber : (C.getD "suav_val" (.num 10)).asFloat.isSome :=
    Option.isSome_iff_exists.mpr hC.exists_suav
  have ⟨x0, x1, hx⟩ : ∃ lo hi, C.getD "zone_x" defaultZone = .arr [.num lo, .num hi] :=
    getD_of (hC.zone "zone_x" (by decide)) ⟨0.2, 0.8, rfl⟩
  have ⟨y0, y1, hy⟩ : ∃ lo hi, C.getD "zone_y" defaultZone = .arr [.num lo, .num hi] :=
    getD_of (hC.zone "zone_y" (by decide)) ⟨0.2, 0.8, rfl⟩
  have hpair (lo hi : R) (u : LoopState R) :
      exec (zonePair (.arr [.num lo, .num hi])) u = (.ok (.num lo, .num hi), u) := rfl
  simp only [reloadConfig]
  rw [exec_bind_assign]
  rw [exec_bind_ok (exec_toFloat_some hsens _)]
  rw [exec_bind_assign]
  rw [exec_bind_assign]
  rw [exec_bind, hx, hpair]
  dsimp only
  rw [exec_bind_assign]
  rw [exec_bind, hy, hpair]
  dsimp only
  rw [exec_bind_assign]
  have ⟨c, hc⟩ := Loop.exec_updateFilterParams_ok hnumber { s with
    shared := { s.shared with globals := { s.shared.globals with
      suavVal := C.getD "suav_val" (.num 10)
      scaleFactor := scaleOf sens
      gameMode := C.getD "game_mode" (.str "normal")
      targetHandDisplay := C.getD "target_hand" (.str "DERECHA")
      targetHandMp := handLabel (C.getD "target_hand" (.str "DERECHA"))
      zoneXMin := .num x0, zoneXMax := .num x1, zoneYMin := .num y0, zoneYMax := .num y1 } } }
  refine ⟨_, exec_bind_ok hc, ?_, rfl⟩
  exact ⟨rfl, rfl, rfl, rfl, rfl, rfl⟩

/-- Camera source after a reload: the configured one, unless it prints like the current one. -/
def newCamera (C : Dict (Json R)) (old : Globals R) : Json R :=
  if (C.getD "camera_source" (.str "0")).pyStr ≠ old.cameraSrc.pyStr then
    C.getD "camera_source" (.str "0")
  else old.cameraSrc

/-- Globals from which a save after the reload of a document writes, up to the zone. -/
structure Adopted (C : Dict (Json R)) (old g : Globals R) : Prop where
  config : ∀ k, k ∉ savedKeys → g.config k = old.config k
  stored : g.stored = (newCamera C old, C.getD "game_mode" (.str "normal"),
    C.getD "target_hand" (.str "DERECHA"), old.sensVal, C.getD "suav_val" (.num 10))

/-- Globals that store the same and keep the dictionary's unknown keys are as good. -/
theorem Adopted.congr {C : Dict (Json R)} {old g h : Globals R} (hg : Adopted C old g)
    (hstored : h.stored = g.stored) (hconfig : ∀ k, k ∉ savedKeys → h.config k = g.config k) :
    Adopted C old h where
  config k hk := (hconfig k hk).trans (hg.config k hk)
  stored := hstored.trans hg.stored

/-- The value of a key in a reloaded document is one that the save after it writes back. -/
def KeptKey (old : Globals R) (k : String) (v : Json R) : Prop :=
  if k = "sens_val" then v = old.sensVal
  else if k = "camera_source" then v.pyStr ≠ old.cameraSrc.pyStr ∨ v = old.cameraSrc
  else k ∈ savedKeys ∨ old.config k = some v

private theorem keptKey_of_zone (old : Globals R) {k : String} (hk : k ∈ zoneKeys)
    (v : Json R) : KeptKey old k v := by
  simp only [zoneKeys, List.mem_cons, List.not_mem_nil, or_false] at hk
  rcases hk with rfl | rfl <;> simp [KeptKey, savedKeys]

/-- A save after a reload writes a key of the document back exactly when it is kept. -/
theorem savedConfig_eq_iff {C : Dict (Json R)} {old g : Globals R} (hg : Adopted C old g)
    {k : String} {v : Json R} (hv : C k = some v) (hk : k ∉ zoneKeys) :
    savedConfig g k = some v ↔ KeptKey old k v := by
  have hstored := hg.stored
  simp only [Globals.stored, Prod.mk.injEq] at hstored
  obtain ⟨hcamera, hmode, hhand, hsens, hsuav⟩ := hstored
  have hread (default : Json R) : C.getD k default = v := by
    simp only [Dict.getD]
    rw [hv]
    rfl
  simp only [KeptKey]
  by_cases hmem : k ∈ savedKeys
  · simp only [savedKeys, List.mem_cons, List.not_mem_nil, or_false] at hmem
    simp only [zoneKeys, List.mem_cons, List.not_mem_nil, or_false, not_or] at hk
    rcases hmem with rfl | rfl | rfl | rfl | rfl | rfl | rfl
    · have hsaved : savedConfig g "camera_source" = some g.cameraSrc := by simp [savedConfig]
      rw [hsaved, hcamera, newCamera, hread]
      by_cases htext : v.pyStr ≠ old.cameraSrc.pyStr
      · simp [htext]
      · simp [htext, eq_comm]
    · simp [savedConfig, hmode, hread, savedKeys]
    · simp [savedConfig, hhand, hread, savedKeys]
    · simp [savedConfig, hsens, eq_comm]
    · simp [savedConfig, hsuav, hread, savedKeys]
    · exact absurd rfl hk.1
    · exact absurd rfl hk.2
  · have hsens : k ≠ "sens_val" := fun h ↦ hmem (by rw [h]; decide)
    have hcamera : k ≠ "camera_source" := fun h ↦ hmem (by rw [h]; decide)
    rw [savedConfig_of_notMem g hmem, hg.config k hmem, if_neg hsens, if_neg hcamera]
    simp [hmem]

/-- The document asks for a camera source that prints differently from the current one. -/
def SwitchesCamera (C : Dict (Json R)) (old : Globals R) : Prop :=
  (C.getD "camera_source" (.str "0")).pyStr ≠ old.cameraSrc.pyStr

omit [Scalar R] in
private theorem startCameraStream_spec (source : Json R) (opens : Bool) (written : WriteOutcome R)
    (sh : Shared R) :
    (startCameraStream source opens written sh).globals.stored =
        (source, sh.globals.stored.2) ∧
      (∀ k, k ∉ savedKeys →
        (startCameraStream source opens written sh).globals.config k = sh.globals.config k) ∧
      ∀ mtime, opens = true → written = .done mtime →
        Saved mtime (startCameraStream source opens written sh) := by
  simp only [startCameraStream]
  cases opens with
  | true =>
    obtain ⟨hstored, hconfig, hsaved⟩ := saveConfigFile_spec written
      ((sh.assign fun g ↦ { g with cameraSrc := source, vs := g.vs.map fun _ ↦ ⟨true⟩ }).assign
        fun g ↦ { g with vs := some ⟨false⟩ })
    exact ⟨hstored, hconfig, fun mtime _ ↦ hsaved mtime⟩
  | false => exact ⟨rfl, fun _ _ ↦ rfl, fun _ h ↦ by cases h⟩

private theorem followCamera_adopted {C : Dict (Json R)} (inp : IterInput R) {old : Globals R}
    {t : LoopState R} (h : Taken C old t.shared.globals) :
    Adopted C old
        (exec (followCamera inp (C.getD "camera_source" (.str "0"))) t).2.shared.globals ∧
      ∀ mtime, SwitchesCamera C old → inp.opens = true → inp.written = .done mtime →
        Saved mtime (exec (followCamera inp (C.getD "camera_source" (.str "0"))) t).2.shared := by
  simp only [followCamera]
  rw [exec_bind_get]
  have htext : newCamera C old =
      if (C.getD "camera_source" (.str "0")).pyStr ≠ t.shared.globals.cameraSrc.pyStr then
        C.getD "camera_source" (.str "0")
      else t.shared.globals.cameraSrc := by
    rw [h.cameraSrc]
    rfl
  split
  · next hdiffer =>
    rw [if_pos hdiffer] at htext
    have ⟨hstored, hconfig, hsaved⟩ := startCameraStream_spec
      (C.getD "camera_source" (.str "0")) inp.opens inp.written t.shared
    refine ⟨⟨fun k hk ↦ (hconfig k hk).trans (congrFun h.config k), ?_⟩,
      fun mtime _ ↦ hsaved mtime⟩
    refine hstored.trans ?_
    simp only [Globals.stored, htext, h.gameMode, h.targetHand, h.sensVal, h.suavVal]
  · next hsame =>
    rw [if_neg hsame] at htext
    refine ⟨⟨fun k _ ↦ congrFun h.config k, ?_⟩, fun mtime hswitch ↦ ?_⟩
    · simp only [exec_pure, Globals.stored, htext, h.gameMode, h.targetHand, h.sensVal, h.suavVal]
    · simp only [SwitchesCamera] at hswitch
      rw [← h.cameraSrc] at hswitch
      exact absurd hswitch hsame

/-- The watcher that reloads a well-formed document adopts it, and saves when it switches the
camera. -/
theorem watched_adopted {C : Dict (Json R)} (hC : WellFormed C) {inp : IterInput R}
    {s : LoopState R} (h : Reloads inp s (.object C)) :
    Adopted C s.shared.globals (watched inp s).shared.globals ∧
      ∀ mtime, SwitchesCamera C s.shared.globals → inp.opens = true → inp.written = .done mtime →
        Saved mtime (watched inp s).shared := by
  have ⟨t, hrun, htaken, _⟩ := exec_reloadConfig_wellFormed hC inp (noted inp s)
  have hadopted := followCamera_adopted inp htaken
  rw [← hrun, ← watched_of_reloads h] at hadopted
  exact hadopted

private theorem take_wellFormed {C : Dict (Json R)} (hC : WellFormed C) (z : ActiveZone R) :
    C.getD "zone_x" defaultZone = .arr [(z.take C).xMin, (z.take C).xMax] ∧
      C.getD "zone_y" defaultZone = .arr [(z.take C).yMin, (z.take C).yMax] := by
  have ⟨sens, hsens⟩ := hC.exists_sens
  have ⟨x0, x1, hx⟩ : ∃ lo hi, C.getD "zone_x" defaultZone = .arr [.num lo, .num hi] :=
    getD_of (hC.zone "zone_x" (by decide)) ⟨0.2, 0.8, rfl⟩
  have ⟨y0, y1, hy⟩ : ∃ lo hi, C.getD "zone_y" defaultZone = .arr [.num lo, .num hi] :=
    getD_of (hC.zone "zone_y" (by decide)) ⟨0.2, 0.8, rfl⟩
  simp only [ActiveZone.take]
  rw [hsens, hx, hy]
  exact ⟨rfl, rfl⟩

private theorem watched_zone {C : Dict (Json R)} (hC : WellFormed C) {inp : IterInput R}
    {s : LoopState R} (h : Reloads inp s (.object C)) {k : String} (hk : k ∈ zoneKeys)
    {v : Json R} (hv : C k = some v) : savedConfig (watched inp s).shared.globals k = some v := by
  have hzone := reloadConfig_zone inp C (noted inp s)
  rw [← watched_of_reloads h] at hzone
  have ⟨hx, hy⟩ := take_wellFormed hC (noted inp s).shared.globals.zone
  rw [← hzone] at hx hy
  have hread (default : Json R) : C.getD k default = v := by
    simp only [Dict.getD]
    rw [hv]
    rfl
  simp only [zoneKeys, List.mem_cons, List.not_mem_nil, or_false] at hk
  rcases hk with rfl | rfl
  · rw [hread] at hx
    simp [savedConfig, hx, Globals.zone]
  · rw [hread] at hy
    simp [savedConfig, hy, Globals.zone]

/-- The watcher that reloads a well-formed document notes its modification time. -/
theorem watched_lastMtime {C : Dict (Json R)} (hC : WellFormed C) {inp : IterInput R}
    {s : LoopState R} (h : Reloads inp s (.object C)) {file : ConfigFile R}
    (hfile : s.shared.file = some file) : (watched inp s).lastMtime = file.mtime := by
  have ⟨t, hrun, _, hmtime⟩ := exec_reloadConfig_wellFormed hC inp (noted inp s)
  have hfollow : Respects (SameUnder LoopState.lastMtime)
      (followCamera inp (C.getD "camera_source" (.str "0"))) :=
    respects_followCamera _ _ fun _ ↦ rfl
  have hkeep := hfollow t
  rw [← hrun, ← watched_of_reloads h] at hkeep
  simp only [SameUnder] at hkeep
  rw [hkeep, hmtime]
  simp [noted, hfile]

/-! ### What a calibration writes -/

/-- The iteration accepts a calibration: the second corner is confirmed and the zone between
the corners is wide enough. -/
def AcceptsCalibration (inp : IterInput R) (s : LoopState R) : Prop :=
  ∃ hand, Presses inp s hand ∧ (watched inp s).shared.globals.calibrationStep = 2 ∧
    ¬ zoneTooSmall
      (min (watched inp s).shared.globals.calibXMin (hand.landmarks 5).x)
      (max (watched inp s).shared.globals.calibXMin (hand.landmarks 5).x)
      (min (watched inp s).shared.globals.calibYMin (hand.landmarks 5).y)
      (max (watched inp s).shared.globals.calibYMin (hand.landmarks 5).y)

private theorem triggerCalibrationKey_stored (written : WriteOutcome R) (x y : R) (sh : Shared R) :
    (triggerCalibrationKey written x y sh).globals.stored = sh.globals.stored ∧
      ∀ k, k ∉ savedKeys →
        (triggerCalibrationKey written x y sh).globals.config k = sh.globals.config k := by
  simp only [triggerCalibrationKey]
  split
  · exact ⟨rfl, fun _ _ ↦ rfl⟩
  · split
    · split
      · exact ⟨rfl, fun _ _ ↦ rfl⟩
      · exact ⟨rfl, fun k hk ↦ savedConfig_of_notMem _ hk⟩
    · exact ⟨rfl, fun _ _ ↦ rfl⟩

private theorem triggerCalibrationKey_accepts (mtime x y : R) (sh : Shared R)
    (hstep : sh.globals.calibrationStep = 2)
    (hzone : ¬ zoneTooSmall (min sh.globals.calibXMin x) (max sh.globals.calibXMin x)
      (min sh.globals.calibYMin y) (max sh.globals.calibYMin y)) :
    ∃ d, (triggerCalibrationKey (.done mtime) x y sh).file = some ⟨mtime, some (.object d)⟩ ∧
      ∀ k, k ∉ zoneKeys → d k = savedConfig sh.globals k := by
  have hfirst : ¬ sh.globals.calibrationStep = 1 := by omega
  simp only [triggerCalibrationKey]
  rw [if_neg hfirst, if_pos hstep, if_neg hzone]
  refine ⟨_, rfl, fun k hk ↦ savedConfig_congr ?_ (fun _ ↦ ?_) hk⟩
  · rfl
  · rfl

/-- The file an accepted calibration leaves, outside the zone. -/
theorem iterate_accepts {inp : IterInput R} {s : LoopState R} (hs : s.cur = {})
    (h : AcceptsCalibration inp s) {mtime : R} (hwritten : inp.written = .done mtime) :
    ∃ d, (iterate inp s).after.shared.file = some ⟨mtime, some (.object d)⟩ ∧
      ∀ k, k ∉ zoneKeys → d k = savedConfig (watched inp s).shared.globals k := by
  have ⟨hand, hpress, hstep, hzone⟩ := h
  have hsettled := iterate_settled_of_presses hs hpress
  rw [hwritten] at hsettled
  have ⟨d, hfile, hd⟩ := triggerCalibrationKey_accepts mtime (hand.landmarks 5).x
    (hand.landmarks 5).y (watched inp s).shared.settled hstep hzone
  have hafter := congrArg Shared.file hsettled
  refine ⟨d, hafter.trans hfile, fun k hk ↦ (hd k hk).trans (savedConfig_congr ?_ (fun _ ↦ ?_) hk)⟩
  · rfl
  · rfl

/-! ### From the reload to the save -/

/-- The loop holds a reloaded document: it has been adopted, and the file it was read from is
still there under the noted modification time. -/
structure Holding (C : Dict (Json R)) (old : Globals R) (file : ConfigFile R)
    (s : LoopState R) : Prop where
  adopted : Adopted C old s.shared.globals
  present : s.shared.file = some file
  noted : s.lastMtime = file.mtime

/-- A watcher that meets a held document finds nothing new. -/
theorem Holding.watched {C : Dict (Json R)} {old : Globals R} {file : ConfigFile R}
    {s : LoopState R} (h : Holding C old file s) (inp : IterInput R) :
    Holding C old file (watched inp s) := by
  have hnone : ∀ document, ¬ Reloads inp s document := by
    rintro document ⟨-, mtime, hfile, hnew⟩
    rw [h.present] at hfile
    have hmtime := h.noted
    rw [Option.some.inj hfile] at hmtime
    exact hnew hmtime.symm
  have ⟨hshared, _, hmtime⟩ := watched_of_not_reloads hnone
  constructor
  · rw [hshared]
    exact h.adopted
  · rw [hshared]
    exact h.present
  · rw [hmtime file h.present h.noted.symm]
    exact h.noted

/-- An iteration that leaves the file as it was keeps holding what it holds after the
watcher. -/
theorem holding_iterate {C : Dict (Json R)} {old : Globals R} {file : ConfigFile R}
    {inp : IterInput R} {s : LoopState R} (hs : s.cur = {})
    (h : Adopted C old (watched inp s).shared.globals)
    (hmtime : (watched inp s).lastMtime = file.mtime)
    (hfile : (iterate inp s).after.shared.file = some file) :
    Holding C old file (iterate inp s).after := by
  refine ⟨?_, hfile, (iterate_lastMtime inp hs).trans hmtime⟩
  by_cases hp : ∃ hand, Presses inp s hand
  · have ⟨hand, hhand⟩ := hp
    have hsettled := iterate_settled_of_presses hs hhand
    have ⟨hstored, hconfig⟩ := triggerCalibrationKey_stored inp.written (hand.landmarks 5).x
      (hand.landmarks 5).y (watched inp s).shared.settled
    rw [← hsettled] at hstored hconfig
    exact h.congr hstored hconfig
  · have hsettled := iterate_settled_of_not_presses hs fun hand hh ↦ hp ⟨hand, hh⟩
    have hstored := congrArg (fun sh : Shared R ↦ sh.globals.stored) hsettled
    have hconfig := congrArg (fun sh : Shared R ↦ sh.globals.config) hsettled
    exact h.congr hstored fun k _ ↦ congrFun hconfig k

/-- What happens before an iteration leaves the file and the stored settings alone: detection
may be toggled, a calibration started. -/
def Tick.KeepsSettings (t : Tick R) : Prop :=
  ∀ sh, (t.env sh).file = sh.file ∧ (t.env sh).globals.stored = sh.globals.stored ∧
    (t.env sh).globals.config = sh.globals.config

/-- The panel's handlers that write no file do so. -/
theorem Tick.keepsSettings_of_outside {events : List (OutsideEvent R)}
    (hevents : ∀ e ∈ events, e = .toggle ∨ e = .startCalibration) {t : Tick R}
    (h : t.env = OutsideEvent.run events) : t.KeepsSettings := by
  intro sh
  rw [h]
  have hkept : ∀ e ∈ events, ∀ sh : Shared R,
      ((e.handle sh).file, (e.handle sh).globals.stored, (e.handle sh).globals.config) =
        (sh.file, sh.globals.stored, sh.globals.config) := by
    intro e he sh
    rcases hevents e he with rfl | rfl <;> rfl
  have hrun := OutsideEvent.run_keeps
    (f := fun sh : Shared R ↦ (sh.file, sh.globals.stored, sh.globals.config)) hkept sh
  simpa only [Prod.mk.injEq] using hrun

private theorem Holding.enter {C : Dict (Json R)} {old : Globals R} {file : ConfigFile R}
    {s : LoopState R} (h : Holding C old file s) {t : Tick R} (ht : t.KeepsSettings) :
    Holding C old file (s.enter t.env) := by
  have ⟨hfile, hstored, hconfig⟩ := ht s.shared
  exact ⟨h.adopted.congr hstored fun k _ ↦ congrFun hconfig k, hfile.trans h.present, h.noted⟩

/-- A document is reloaded by an iteration, and `d` is what the next save writes: in the same
reload, because it switches the camera; or in the same or a later iteration, because it
accepts a calibration. The flag says whether the zone was recalibrated. -/
inductive SavedAfterReload (C : Dict (Json R)) (inp : IterInput R) (s : LoopState R) :
    Bool → Dict (Json R) → Prop where
  | inReload {mtime : R} {d : Dict (Json R)} (hreload : Reloads inp s (.object C))
      (hswitch : SwitchesCamera C s.shared.globals) (hopens : inp.opens = true)
      (hwritten : inp.written = .done mtime)
      (hfile : (watched inp s).shared.file = some ⟨mtime, some (.object d)⟩) :
      SavedAfterReload C inp s false d
  | inSameIteration {mtime : R} {d : Dict (Json R)} (hreload : Reloads inp s (.object C))
      (hkept : (watched inp s).shared.file = s.shared.file)
      (haccept : AcceptsCalibration inp s) (hwritten : inp.written = .done mtime)
      (hfile : (iterate inp s).after.shared.file = some ⟨mtime, some (.object d)⟩) :
      SavedAfterReload C inp s true d
  | inLaterIteration {mtime : R} {d : Dict (Json R)} {ticks : List (Tick R)}
      {pre post : List (Turn R)} {r : Iteration R} (hreload : Reloads inp s (.object C))
      (hticks : ∀ t ∈ ticks, t.KeepsSettings)
      (hrun : visionMachine.trace (iterate inp s).after ticks = pre ++ .iterated r :: post)
      (hkept : (iterate inp s).after.shared.file = s.shared.file)
      (hunwritten : ∀ t ∈ pre, t.after.shared.file = s.shared.file)
      (haccept : AcceptsCalibration r.input r.before) (hwritten : r.input.written = .done mtime)
      (hfile : r.after.shared.file = some ⟨mtime, some (.object d)⟩) :
      SavedAfterReload C inp s true d

omit [Scalar R] in
private theorem dict_of_file {sh : Shared R} {m n : R} {d e : Dict (Json R)}
    (hd : sh.file = some ⟨m, some (.object d)⟩) (he : sh.file = some ⟨n, some (.object e)⟩) :
    d = e := by
  rw [hd] at he
  have hfile := Option.some.inj he
  exact Document.object.inj (Option.some.inj (ConfigFile.mk.inj hfile).2)

/-- A run that starts holding a document and does not write the file before an iteration still
holds it when that iteration begins. -/
theorem holding_of_trace {C : Dict (Json R)} {old : Globals R} {file : ConfigFile R}
    {s : LoopState R} (h : Holding C old file s) {ticks : List (Tick R)}
    (hticks : ∀ t ∈ ticks, t.KeepsSettings) {pre post : List (Turn R)} {r : Iteration R}
    (hrun : visionMachine.trace s ticks = pre ++ .iterated r :: post)
    (hunwritten : ∀ t ∈ pre, t.after.shared.file = some file) :
    r.before.cur = {} ∧ Holding C old file r.before ∧ r = iterate r.input r.before := by
  have hnext : ∀ u, ∀ t ∈ ticks, ∀ v, Holding C old file u →
      (visionMachine.step u t).after.shared.file = some file →
      visionMachine.next (visionMachine.step u t) = some v → Holding C old file v := by
    intro u t ht v hu hfile hv
    have ⟨q, hq, hafter⟩ := visionMachine_next hv
    rcases visionMachine_step_cases u t with hstop | hiter
    · rw [hstop] at hq
      cases hq
    · rw [hiter] at hq hfile
      cases hq
      have hwatched := (hu.enter (hticks t ht)).watched t.input
      rw [← hafter]
      exact holding_iterate rfl hwatched.adopted hwatched.noted hfile
  have ⟨u, t, ht, hu, hr⟩ := visionMachine.exists_step_of_split ticks hnext h hrun hunwritten
  rcases visionMachine_step_cases u t with hstop | hiter
  · rw [hstop] at hr
    cases hr
  · rw [hiter] at hr
    cases hr
    exact ⟨rfl, hu.enter (hticks t ht), rfl⟩

/-- The save after a reload writes from globals that have adopted the document. -/
theorem SavedAfterReload.exists_adopted {C : Dict (Json R)} (hC : WellFormed C)
    {inp : IterInput R} {s : LoopState R} (hs : s.cur = {}) {recalibrated : Bool}
    {d : Dict (Json R)} (h : SavedAfterReload C inp s recalibrated d) :
    ∃ g, Adopted C s.shared.globals g ∧ (∀ k, k ∉ zoneKeys → d k = savedConfig g k) ∧
      (recalibrated = false → ∀ k ∈ zoneKeys, ∀ v, C k = some v → d k = some v) := by
  cases h with
  | inReload hreload hswitch hopens hwritten hfile =>
    have ⟨hadopted, hsaved⟩ := watched_adopted hC hreload
    have ⟨e, he, hagree⟩ := hsaved _ hswitch hopens hwritten
    rw [dict_of_file hfile he]
    refine ⟨_, hadopted, fun k _ ↦ hagree k, fun _ k hk v hv ↦ ?_⟩
    rw [hagree]
    exact watched_zone hC hreload hk hv
  | inSameIteration hreload hkept haccept hwritten hfile =>
    have ⟨e, he, hagree⟩ := iterate_accepts hs haccept hwritten
    rw [dict_of_file hfile he]
    exact ⟨_, (watched_adopted hC hreload).1, hagree, by simp⟩
  | inLaterIteration hreload hticks hrun hkept hunwritten haccept hwritten hfile =>
    have ⟨_, mtime, hpresent, _⟩ := hreload
    rw [hpresent] at hkept hunwritten
    have hhold := holding_iterate hs (watched_adopted hC hreload).1
      (watched_lastMtime hC hreload hpresent) hkept
    have ⟨hcur, hbefore, hr⟩ := holding_of_trace hhold hticks hrun hunwritten
    have ⟨e, he, hagree⟩ := iterate_accepts hcur haccept hwritten
    rw [← hr] at he
    rw [dict_of_file hfile he]
    exact ⟨_, (hbefore.watched _).adopted, hagree, by simp⟩

/-- The save after the reload of a well-formed document agrees with it, on every key but a
recalibrated zone, exactly when the sensitivity is the current one, the camera source is the
current one or prints differently, and the keys the save does not know are those loaded at
start-up. -/
theorem saved_after_reload_agrees_iff {C : Dict (Json R)} (hC : WellFormed C)
    {inp : IterInput R} {s : LoopState R} (hs : s.cur = {}) {recalibrated : Bool}
    {d : Dict (Json R)} (h : SavedAfterReload C inp s recalibrated d) :
    (∀ k v, ¬ (recalibrated = true ∧ k ∈ zoneKeys) → C k = some v → d k = some v) ↔
      ∀ k v, C k = some v → KeptKey s.shared.globals k v := by
  have ⟨g, hadopted, hagree, hzone⟩ := h.exists_adopted hC hs
  constructor
  · intro hall k v hv
    by_cases hk : k ∈ zoneKeys
    · exact keptKey_of_zone _ hk v
    · have hd := hall k v (fun hz ↦ hk hz.2) hv
      rw [hagree k hk] at hd
      exact (savedConfig_eq_iff hadopted hv hk).mp hd
  · intro hall k v hnot hv
    by_cases hk : k ∈ zoneKeys
    · have hfalse : recalibrated = false := by
        cases recalibrated with
        | true => exact absurd ⟨rfl, hk⟩ hnot
        | false => rfl
      exact hzone hfalse k hk v hv
    · rw [hagree k hk]
      exact (savedConfig_eq_iff hadopted hv hk).mpr (hall k v hv)

/-- A reload that switches the camera is followed by a save. -/
theorem exists_savedAfterReload {C : Dict (Json R)} (hC : WellFormed C) {inp : IterInput R}
    {s : LoopState R} (hreload : Reloads inp s (.object C))
    (hswitch : SwitchesCamera C s.shared.globals) (hopens : inp.opens = true) {mtime : R}
    (hwritten : inp.written = .done mtime) : ∃ d, SavedAfterReload C inp s false d := by
  have ⟨d, hfile, _⟩ := (watched_adopted hC hreload).2 mtime hswitch hopens hwritten
  exact ⟨d, .inReload hreload hswitch hopens hwritten hfile⟩

/-- What the program starts the loop with when it finds no settings file. -/
private def started : Shared ℚ := (exec (main (.done 1) (.done 2) true) ⟨Globals.init, none⟩).2

/-- A document that asks for camera 1 and for this sensitivity, and may set one more key. -/
private def switching (sens : ℚ) (more : List (String × Json ℚ)) : Dict (Json ℚ) :=
  Dict.ofList ([("camera_source", .str "1"), ("sens_val", .num sens)] ++ more)

/-- Those variables after the file has been replaced. -/
private def facing (C : Dict (Json ℚ)) : Shared ℚ :=
  { started with file := some ⟨3, some (.object C)⟩ }

/-- An iteration whose watcher is due, opens every camera and can write. -/
private def watching : IterInput ℚ := { (Tick.seeing 10 []).input with written := .done 4 }

private theorem wellFormed_switching {sens : ℚ} (hsens : IsFloat (.num sens))
    {more : List (String × Json ℚ)} (hmore : more = [] ∨ more = [("api_url", .str "b")]) :
    WellFormed (switching sens more) := by
  rcases hmore with rfl | rfl <;>
    constructor <;>
    simp +contextual [switching, Dict.ofList, Dict.set_apply, zoneKeys, eq_comm, hsens]

private theorem saved_switching {sens : ℚ} (hfloat : IsFloat (.num sens))
    {more : List (String × Json ℚ)} (hmore : more = [] ∨ more = [("api_url", .str "b")]) :
    ∃ s d, startLoop (facing (switching sens more)) 640 480 = .ok s ∧
      s.shared.globals = started.globals ∧ s.cur = {} ∧
      SavedAfterReload (switching sens more) watching s false d := by
  have hsuav : started.globals.suavVal.asFloat.isSome := by decide +kernel
  have hfacing : (facing (switching sens more)).globals.suavVal.asFloat.isSome := hsuav
  obtain ⟨s, hs⟩ := exists_startLoop hfacing 640 480
  obtain ⟨controller, hfresh, _⟩ := startLoop_spec hs
  have hcamera : (switching sens more).getD "camera_source" (.str "0") = .str "1" := by
    rcases hmore with rfl | rfl <;> simp [switching, Dict.ofList, Dict.getD]
  have hreload : Reloads watching s (.object (switching sens more)) := by
    rw [hfresh]
    exact ⟨by norm_num [watching, Tick.seeing, LoopState.fresh], 3, rfl, by
      norm_num [LoopState.fresh]⟩
  have hswitch : SwitchesCamera (switching sens more) s.shared.globals := by
    rw [hfresh]
    have hprints : ((.str "1" : Json ℚ).pyStr ≠ started.globals.cameraSrc.pyStr) := by
      decide +kernel
    simp only [SwitchesCamera]
    rw [hcamera]
    exact hprints
  obtain ⟨d, hd⟩ := exists_savedAfterReload (wellFormed_switching hfloat hmore) hreload hswitch rfl
    (rfl : watching.written = .done 4)
  refine ⟨s, d, hs, ?_, ?_, hd⟩
  · rw [hfresh]
    rfl
  · rw [hfresh]
    rfl

/-- A document that only switches the camera survives the save of its reload. -/
theorem saved_after_reload_agrees_of_kept :
    ∃ s d, SavedAfterReload (switching 3 []) watching s false d ∧
      ∀ k v, ¬ (false = true ∧ k ∈ zoneKeys) → switching 3 [] k = some v → d k = some v := by
  have ⟨s, d, _, hstarted, hcur, hd⟩ := saved_switching (isFloat_ofNat 3 (by decide)) (.inl rfl)
  refine ⟨s, d, hd, (saved_after_reload_agrees_iff
    (wellFormed_switching (isFloat_ofNat 3 (by decide)) (.inl rfl)) hcur hd).mpr fun k v hv ↦ ?_⟩
  rw [hstarted]
  simp only [switching, Dict.ofList, List.append_nil, List.foldl_cons, List.foldl_nil,
    Dict.set_apply] at hv
  split at hv
  · next hk =>
    rw [hk, ← Option.some.inj hv]
    rfl
  · split at hv
    · next hk =>
      rw [hk, ← Option.some.inj hv]
      exact .inl (by decide +kernel)
    · cases hv

/-- A document with another sensitivity and its own `api_url` is reloaded and switches the
camera: the save writes the old values back. -/
theorem saved_after_reload_fails :
    ∃ (C : Dict (Json ℚ)) (inp : IterInput ℚ) (s : LoopState ℚ) (d : Dict (Json ℚ)),
      WellFormed C ∧ C "sens_val" = some (.num 9) ∧ C "api_url" = some (.str "b") ∧
      startLoop { (exec (main (.done 1) (.done 2) true) ⟨Globals.init, none⟩).2 with
        file := some ⟨3, some (.object C)⟩ } 640 480 = .ok s ∧
      SavedAfterReload C inp s false d ∧
      d "sens_val" = some (.num 3) ∧
      d "api_url" = some (.str "http://localhost:3000/api/gesture") := by
  have ⟨s, d, hs, hstarted, hcur, hd⟩ := saved_switching (isFloat_ofNat 9 (by decide)) (.inr rfl)
  have hC := wellFormed_switching (isFloat_ofNat 9 (by decide)) (.inr rfl)
  have ⟨g, hadopted, hagree, _⟩ := hd.exists_adopted hC hcur
  have hsens : g.sensVal = started.globals.sensVal := by
    have hstored := hadopted.stored
    simp only [Globals.stored, Prod.mk.injEq, hstarted] at hstored
    exact hstored.2.2.2.1
  refine ⟨_, _, s, d, hC, ?_, ?_, hs, hd, ?_, ?_⟩
  · simp [switching, Dict.ofList]
  · simp [switching, Dict.ofList]
  · rw [hagree "sens_val" (by decide)]
    have hsaved : savedConfig g "sens_val" = some g.sensVal := by simp [savedConfig]
    rw [hsaved, hsens]
    rfl
  · rw [hagree "api_url" (by decide), savedConfig_of_notMem _ (by decide),
      hadopted.config "api_url" (by decide), hstarted]
    rfl

end VisionGame.Vision
