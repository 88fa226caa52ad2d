import Mathlib.Data.List.TakeWhile
import VisionGame.Vision.CursorRuns
import VisionGame.Vision.ReloadOrder
import VisionGame.Vision.ReloadSave

/-!
# Settings that never stop the loop

Library `Vision`. `src/mediapipe/app_gestures.py:145–172,427–442,498–537,719–771,1005–1040`. A
document is sane when its settings are of the kinds the program expects and its zone is wide enough.
From a sane file the program starts; while every file that appears is sane and no write breaks off,
no iteration raises, what the program saves is sane as well, and after a check that is due the
settings in force are those of the file that it found.
-/

namespace VisionGame.Vision
open VisionGame.Base
open Effect Loop

variable {R : Type} [Scalar R]

/-! ### Sane documents -/

/-- A zone of the unit interval, at least a tenth wide. -/
def IsZone (v : Json R) : Prop :=
  ∃ lo hi, v = .arr [.num lo, .num hi] ∧ 0 ≤ lo ∧ hi ≤ 1 ∧ 0.1 ≤ hi - lo

/-- A key may have this value: one of the kind the program expects. Unknown keys may have any
value. -/
structure Fits (k : String) (v : Json R) : Prop where
  gameMode : k = "game_mode" → ∃ m, v = .str m
  targetHand : k = "target_hand" → ∃ hand, v = .str hand
  sensVal : k = "sens_val" → IsFloat v
  suavVal : k = "suav_val" → IsFloat v
  cameraSource : k = "camera_source" → (∃ src, v = .str src) ∨ ∃ i : ℤ, v = .num i
  zone : k ∈ zoneKeys → IsZone v

/-- Any text may be a mode. -/
theorem fits_gameMode (m : String) : Fits (R := R) "game_mode" (.str m) := by
  constructor <;> simp [zoneKeys]

/-- Any text may be a hand. -/
theorem fits_targetHand (hand : String) : Fits (R := R) "target_hand" (.str hand) := by
  constructor <;> simp [zoneKeys]

/-- A float may be a sensitivity. -/
theorem fits_sensVal {v : Json R} (h : IsFloat v) : Fits "sens_val" v := by
  constructor
  case sensVal => exact fun _ ↦ h
  all_goals simp [zoneKeys]

/-- A float may be a smoothing. -/
theorem fits_suavVal {v : Json R} (h : IsFloat v) : Fits "suav_val" v := by
  constructor
  case suavVal => exact fun _ ↦ h
  all_goals simp [zoneKeys]

/-- A text or an integer may be a camera source. -/
theorem fits_cameraSource {source : Json R}
    (h : (∃ src, source = .str src) ∨ ∃ i : ℤ, source = .num i) :
    Fits "camera_source" source := by
  constructor
  case cameraSource => exact fun _ ↦ h
  all_goals simp [zoneKeys]

private theorem fits_zone {k : String} (hk : k ∈ zoneKeys) {v : Json R} (h : IsZone v) :
    Fits k v := by
  have hlist : ∃ vs, v = .arr vs := by
    obtain ⟨lo, hi, rfl, _⟩ := h
    exact ⟨_, rfl⟩
  obtain ⟨vs, rfl⟩ := hlist
  simp only [zoneKeys, List.mem_cons, List.not_mem_nil, or_false] at hk
  rcases hk with rfl | rfl
  · constructor
    case zone => exact fun _ ↦ h
    all_goals simp
  · constructor
    case zone => exact fun _ ↦ h
    all_goals simp

/-- A save does not write other keys. -/
theorem fits_of_notMem {k : String} (hk : k ∉ savedKeys) (v : Json R) : Fits k v := by
  simp only [savedKeys, List.mem_cons, List.not_mem_nil, or_false, not_or] at hk
  constructor <;> simp [hk, zoneKeys]

/-- Every key of a document has a value that fits. -/
def Sane (C : Dict (Json R)) : Prop := ∀ k v, C k = some v → Fits k v

/-- The empty document is sane. -/
theorem sane_empty : Sane (Dict.empty : Dict (Json R)) := by
  intro k v hv
  cases hv

/-- A value that fits its key may be set. -/
theorem Sane.set {C : Dict (Json R)} (h : Sane C) {k : String} {v : Json R} (hv : Fits k v) :
    Sane (C.set k v) := by
  intro l w hw
  rw [Dict.set_apply] at hw
  split at hw
  · next hl =>
    rw [hl, ← Option.some.inj hw]
    exact hv
  · exact h l w hw

/-- Sane documents may be merged. -/
theorem Sane.merge {C D : Dict (Json R)} (h : Sane C) (h' : Sane D) : Sane (C.merge D) := by
  intro k v hv
  rw [Dict.merge_apply, Option.or_eq_some_iff] at hv
  rcases hv with hnew | ⟨_, hold⟩
  · exact h' k v hnew
  · exact h k v hold

/-- Values that fit their keys make a sane document. -/
theorem sane_ofList {kvs : List (String × Json R)} (h : ∀ kv ∈ kvs, Fits kv.1 kv.2) :
    Sane (Dict.ofList kvs) := by
  unfold Dict.ofList
  induction kvs using List.reverseRecOn with
  | nil => exact sane_empty
  | append_singleton kvs kv ih =>
    rw [List.foldl_append]
    apply Sane.set
    · exact ih fun other hother ↦ h other (List.mem_append_left _ hother)
    · exact h kv (List.mem_append_right _ (List.mem_singleton.mpr rfl))

/-- The zone that stands in for a missing one fits. -/
theorem fits_defaultZone {k : String} (hk : k ∈ zoneKeys) : Fits (R := R) k defaultZone :=
  fits_zone hk ⟨0.2, 0.8, rfl, by norm_num, by norm_num, by norm_num⟩

/-- The defaults are sane. -/
theorem sane_defaultConfig : Sane (defaultConfig (R := R)) := by
  apply sane_ofList
  simp only [List.forall_mem_cons]
  refine ⟨fits_cameraSource (.inl ⟨_, rfl⟩), fits_defaultZone (by decide),
    fits_defaultZone (by decide), fits_gameMode _, fits_targetHand _,
    fits_sensVal (isFloat_ofNat 3 (by decide)), fits_suavVal (isFloat_ofNat 3 (by decide)), ?_⟩
  exact ⟨fits_of_notMem (by decide) _, fits_of_notMem (by decide) _,
    fits_of_notMem (by decide) _, List.forall_mem_nil _⟩

private theorem Sane.wellFormed {C : Dict (Json R)} (h : Sane C) : WellFormed C := by
  constructor
  · exact fun v hv ↦ (h _ v hv).gameMode rfl
  · exact fun v hv ↦ (h _ v hv).targetHand rfl
  · exact fun v hv ↦ (h _ v hv).sensVal rfl
  · exact fun v hv ↦ (h _ v hv).suavVal rfl
  · exact fun v hv ↦ (h _ v hv).cameraSource rfl
  · intro k hk v hv
    have ⟨lo, hi, hzone, _⟩ := (h k v hv).zone hk
    exact ⟨lo, hi, hzone⟩

/-- The zone that is taken over from a sane document. -/
theorem Sane.exists_zone {C : Dict (Json R)} (h : Sane C) {k : String} (hk : k ∈ zoneKeys) :
    IsZone (C.getD k defaultZone) :=
  getD_of (fun v hv ↦ (h k v hv).zone hk) ((fits_defaultZone hk).zone hk)

private theorem Sane.readable {C : Dict (Json R)} (h : Sane C) (k : Setting) :
    k.readable C = true := by
  have hformed := h.wellFormed
  cases k with
  | suav => rfl
  | modeAndHand => rfl
  | camera => rfl
  | scale =>
    have ⟨x, hx⟩ := hformed.exists_sens
    unfold Setting.readable
    rw [hx]
    rfl
  | filters =>
    have ⟨x, hx⟩ := hformed.exists_suav
    unfold Setting.readable
    rw [hx]
    rfl
  | zoneX =>
    have ⟨lo, hi, hzone, _⟩ := h.exists_zone (k := "zone_x") (by decide)
    unfold Setting.readable
    rw [hzone]
    rfl
  | zoneY =>
    have ⟨lo, hi, hzone, _⟩ := h.exists_zone (k := "zone_y") (by decide)
    unfold Setting.readable
    rw [hzone]
    rfl

/-- Keys that a setting is read from. -/
def Setting.keys : Setting → List String
  | suav => ["suav_val"]
  | scale => ["sens_val"]
  | modeAndHand => ["game_mode", "target_hand"]
  | zoneX => ["zone_x"]
  | zoneY => ["zone_y"]
  | filters => ["suav_val"]
  | camera => ["camera_source"]

/-- Parameters of both filters. -/
def PCController.params (self : PCController R) : (R × R × R) × (R × R × R) :=
  (self.filterX.params, self.filterY.params)

/-- A setting of a document is in force; the filters are when they have the parameters that its
smoothing gives them, whatever they have filtered since. -/
def Setting.InForce (C : Dict (Json R)) (s : LoopState R) : Setting → Prop
  | filters =>
    ∃ x, (C.getD "suav_val" (.num 10)).asFloat = some x ∧
      s.controller.params = ((filterOf x).params, (filterOf x).params)
  | k => k.FromFile C (k.read s)

private theorem Setting.inForce_iff {C : Dict (Json R)} {s : LoopState R} {k : Setting}
    (hk : k ≠ .filters) : k.InForce C s ↔ k.FromFile C (k.read s) := by
  cases k with
  | filters => exact absurd rfl hk
  | _ => exact Iff.rfl

/-- Documents that agree on the keys of a setting have the same one in force. -/
theorem Setting.inForce_congr {C D : Dict (Json R)} {s : LoopState R} {k : Setting}
    (h : ∀ key ∈ k.keys, C key = D key) (hforce : k.InForce C s) : k.InForce D s := by
  have hread : ∀ key ∈ k.keys, ∀ default, D.getD key default = C.getD key default := by
    intro key hkey default
    unfold Dict.getD
    rw [h key hkey]
  cases k with
  | modeAndHand =>
    unfold InForce FromFile at hforce ⊢
    rw [hread "game_mode" (by decide), hread "target_hand" (by decide)]
    exact hforce
  | filters =>
    unfold InForce at hforce ⊢
    rw [hread _ List.mem_cons_self]
    exact hforce
  | _ =>
    unfold InForce FromFile at hforce ⊢
    rw [hread _ List.mem_cons_self]
    exact hforce

/-- The file holds a sane document. -/
def SaneFile (file : ConfigFile R) : Prop := ∃ C, file.content = some (.object C) ∧ Sane C

/-! ### Sound variables -/

/-- The settings in force would be sane in a document, no calibration is under way, and the file
is sane when it is there. -/
structure Sound (sh : Shared R) : Prop where
  gameMode : Fits "game_mode" sh.globals.gameMode
  targetHand : Fits "target_hand" sh.globals.targetHandDisplay
  sensVal : Fits "sens_val" sh.globals.sensVal
  suavVal : Fits "suav_val" sh.globals.suavVal
  cameraSrc : Fits "camera_source" sh.globals.cameraSrc
  zoneX : Fits "zone_x" (.arr [sh.globals.zoneXMin, sh.globals.zoneXMax])
  zoneY : Fits "zone_y" (.arr [sh.globals.zoneYMin, sh.globals.zoneYMax])
  idle : sh.globals.calibrationStep = 0
  file : ∀ file, sh.file = some file → SaneFile file

namespace Sound

variable {sh th : Shared R}

private theorem of_settled (h : Sound sh) (hsettled : th.settled = sh.settled) : Sound th := by
  have hsound : Sound sh.settled := ⟨h.gameMode, h.targetHand, h.sensVal, h.suavVal,
    h.cameraSrc, h.zoneX, h.zoneY, h.idle, h.file⟩
  rw [← hsettled] at hsound
  exact ⟨hsound.gameMode, hsound.targetHand, hsound.sensVal, hsound.suavVal, hsound.cameraSrc,
    hsound.zoneX, hsound.zoneY, hsound.idle, hsound.file⟩

private theorem goodPair_of_fits {k : String} (hk : k ∈ zoneKeys) {lo hi : Json R}
    (h : Fits k (.arr [lo, hi])) : GoodPair lo hi := by
  obtain ⟨a, b, hzone, _, _, hwide⟩ := h.zone hk
  simp only [Json.arr.injEq, List.cons.injEq, and_true] at hzone
  rw [hzone.1, hzone.2]
  exact ⟨a, b, rfl, rfl, hwide⟩

private theorem good (h : Sound sh) : sh.globals.zone.Good :=
  ⟨goodPair_of_fits (by decide) h.zoneX, goodPair_of_fits (by decide) h.zoneY⟩

private theorem sane_savedConfig (h : Sound sh) : Sane (savedConfig sh.globals) := by
  intro k v hv
  by_cases hk : k ∈ savedKeys
  · simp only [savedKeys, List.mem_cons, List.not_mem_nil, or_false] at hk
    rcases hk with rfl | rfl | rfl | rfl | rfl | rfl | rfl
    · have hsaved : sh.globals.cameraSrc = v := by simpa [savedConfig] using hv
      exact hsaved ▸ h.cameraSrc
    · have hsaved : sh.globals.gameMode = v := by simpa [savedConfig] using hv
      exact hsaved ▸ h.gameMode
    · have hsaved : sh.globals.targetHandDisplay = v := by simpa [savedConfig] using hv
      exact hsaved ▸ h.targetHand
    · have hsaved : sh.globals.sensVal = v := by simpa [savedConfig] using hv
      exact hsaved ▸ h.sensVal
    · have hsaved : sh.globals.suavVal = v := by simpa [savedConfig] using hv
      exact hsaved ▸ h.suavVal
    · have hsaved : .arr [sh.globals.zoneXMin, sh.globals.zoneXMax] = v := by
        simpa [savedConfig] using hv
      exact hsaved ▸ h.zoneX
    · have hsaved : .arr [sh.globals.zoneYMin, sh.globals.zoneYMax] = v := by
        simpa [savedConfig] using hv
      exact hsaved ▸ h.zoneY
  · exact fits_of_notMem hk v

private theorem save (h : Sound sh) {written : WriteOutcome R} (hwritten : written.Whole) :
    Sound (saveConfigFile written sh) := by
  refine ⟨h.gameMode, h.targetHand, h.sensVal, h.suavVal, h.cameraSrc, h.zoneX, h.zoneY, h.idle,
    fun file hfile ↦ ?_⟩
  cases written with
  | refused => exact h.file file hfile
  | brokenOff mtime => exact absurd rfl (hwritten mtime)
  | done mtime =>
    rw [← Option.some.inj hfile]
    exact ⟨_, rfl, h.sane_savedConfig⟩

/-- Starting a camera from a source that fits does so too. -/
theorem startCameraStream (h : Sound sh) {source : Json R} (hsource : Fits "camera_source" source)
    (opens : Bool) {written : WriteOutcome R} (hwritten : written.Whole) :
    Sound (startCameraStream source opens written sh) := by
  unfold Vision.startCameraStream
  dsimp only
  split
  · apply save ?_ hwritten
    exact ⟨h.gameMode, h.targetHand, h.sensVal, h.suavVal, hsource, h.zoneX, h.zoneY, h.idle,
      h.file⟩
  · exact ⟨h.gameMode, h.targetHand, h.sensVal, h.suavVal, hsource, h.zoneX, h.zoneY, h.idle,
      h.file⟩

end Sound

/-! ### Start-up -/

private theorem loadConfig_sane {created : WriteOutcome R} (hcreated : created.Whole)
    {file : Option (ConfigFile R)} (hfile : ∀ f, file = some f → SaneFile f) :
    ∃ C, (loadConfig created ⟨Globals.init, file⟩).1 = .object C ∧ Sane C ∧
      (loadConfig created ⟨Globals.init, file⟩).2.globals = Globals.init ∧
      ∀ f, (loadConfig created ⟨Globals.init, file⟩).2.file = some f → SaneFile f := by
  unfold loadConfig
  cases file with
  | some f =>
    have ⟨C, hcontent, hC⟩ := hfile f rfl
    refine ⟨C, ?_, hC, rfl, hfile⟩
    dsimp only
    rw [hcontent]
    rfl
  | none =>
    refine ⟨defaultConfig, rfl, sane_defaultConfig, rfl, fun f hf ↦ ?_⟩
    cases created with
    | refused => cases hf
    | brokenOff mtime => exact absurd rfl (hcreated mtime)
    | done mtime =>
      rw [← Option.some.inj hf]
      exact ⟨_, rfl, sane_defaultConfig⟩

private theorem exec_main_sound {file : Option (ConfigFile R)}
    (hfile : ∀ f, file = some f → SaneFile f)
    {created opened : WriteOutcome R} (hcreated : created.Whole) (hopened : opened.Whole)
    (opens : Bool) :
    ∃ sh, exec (main created opened opens) ⟨Globals.init, file⟩ = (.ok (), sh) ∧ Sound sh := by
  have ⟨C, hdocument, hC, hglobals, hloaded⟩ := loadConfig_sane hcreated hfile
  have hformed := hC.wellFormed
  have ⟨sens, hsens⟩ := hformed.exists_sens
  have ⟨x0, x1, hx, hwideX⟩ := hC.exists_zone (k := "zone_x") (by decide)
  have ⟨y0, y1, hy, hwideY⟩ := hC.exists_zone (k := "zone_y") (by decide)
  have hpair (lo hi : R) (sh : Shared R) :
      exec (zonePair (.arr [.num lo, .num hi])) sh = (.ok (.num lo, .num hi), sh) := rfl
  unfold main
  rw [exec_bind_get, exec_bind_modify, hdocument]
  dsimp only
  rw [exec_bind_modify, exec_bind_ok (exec_toFloat_some hsens _)]
  rw [exec_bind_modify, exec_bind, hx, hpair]
  dsimp only
  rw [exec_bind_modify, exec_bind, hy, hpair]
  dsimp only
  rw [exec_bind_modify, exec_modify]
  generalize hsh : Shared.assign _ _ = sh
  have hcamera : Fits "camera_source" (C.getD "camera_source" (.str "0")) :=
    getD_of (fun v hv ↦ hC _ v hv) (fits_cameraSource (.inl ⟨_, rfl⟩))
  refine ⟨_, rfl, Sound.startCameraStream ?_ hcamera opens hopened⟩
  rw [← hsh]
  constructor
  · exact getD_of (fun v hv ↦ hC _ v hv) (fits_gameMode _)
  · exact getD_of (fun v hv ↦ hC _ v hv) (fits_targetHand _)
  · exact getD_of (fun v hv ↦ hC _ v hv) (fits_sensVal (isFloat_ofNat 3 (by decide)))
  · exact getD_of (fun v hv ↦ hC _ v hv) (fits_suavVal (isFloat_ofNat 10 (by decide)))
  · exact hcamera
  · exact fits_zone (by decide) ⟨x0, x1, rfl, hwideX⟩
  · exact fits_zone (by decide) ⟨y0, y1, rfl, hwideY⟩
  · exact congrArg Globals.calibrationStep hglobals
  · exact hloaded

/-- `main` up to the first iteration. -/
def startUp (created opened : WriteOutcome R) (opens : Bool) (file : Option (ConfigFile R))
    (screenWidth screenHeight : ℤ) : Except PyError (LoopState R) :=
  match exec (main created opened opens) ⟨Globals.init, file⟩ with
  | (.error e, _) => .error e
  | (.ok _, sh) => startLoop sh screenWidth screenHeight

/-- The filters have the parameters of the smoothing in force. -/
def Adjusted (s : LoopState R) : Prop :=
  ∃ x, s.shared.globals.suavVal.asFloat = some x ∧
    s.controller.params = ((filterOf x).params, (filterOf x).params)

/-- Samples do not matter. -/
theorem Adjusted.congr {s t : LoopState R} (h : Adjusted s)
    (hsuav : t.shared.globals.suavVal = s.shared.globals.suavVal)
    (hparams : t.controller.params = s.controller.params) : Adjusted t := by
  unfold Adjusted
  rw [hsuav, hparams]
  exact h

/-- From a sane file, or without one, the program starts with sound variables and adjusted filters,
and has looked at no file. -/
theorem startUp_sound {file : Option (ConfigFile R)} (hfile : ∀ f, file = some f → SaneFile f)
    {created opened : WriteOutcome R} (hcreated : created.Whole) (hopened : opened.Whole)
    (opens : Bool) (w h : ℤ) :
    ∃ s, startUp created opened opens file w h = .ok s ∧ Sound s.shared ∧ Adjusted s ∧
      s.lastMtime = 0 := by
  have ⟨sh, hmain, hsound⟩ := exec_main_sound hfile hcreated hopened opens
  have ⟨x, hx⟩ := (hsound.suavVal.suavVal rfl).exists_asFloat
  have ⟨s, hs⟩ := exists_startLoop (Option.isSome_of_eq_some hx) w h
  have hfresh := startLoop_fresh hs
  rw [PCController.exec_updateFilterParams_some _ hx] at hfresh
  refine ⟨s, ?_, ?_, ?_, ?_⟩
  · unfold startUp
    rw [hmain]
    exact hs
  · rw [hfresh]
    exact hsound
  · rw [hfresh]
    exact ⟨x, hx, rfl⟩
  · rw [hfresh]
    rfl

/-! ### The watcher -/

namespace Loop

/-- Sound variables stay sound. -/
def KeepsSound (s t : LoopState R) : Prop := Sound s.shared → Sound t.shared

instance : Std.Refl (KeepsSound : LoopState R → LoopState R → Prop) := ⟨fun _ ↦ id⟩

instance : IsTrans (LoopState R) KeepsSound := ⟨fun _ _ _ hst htu h ↦ htu (hst h)⟩

/-- A file that is written has this modification time and holds an object. -/
def Rewrites (written : WriteOutcome R) (s t : LoopState R) : Prop :=
  t.shared.file = s.shared.file ∨
    ∃ mtime C, written = .done mtime ∧ t.shared.file = some ⟨mtime, some (.object C)⟩

omit [Scalar R] in
instance (written : WriteOutcome R) : Std.Refl (Rewrites written) := ⟨fun _ ↦ .inl rfl⟩

omit [Scalar R] in
instance (written : WriteOutcome R) : IsTrans (LoopState R) (Rewrites written) where
  trans s t u hst htu := by
    rcases htu with hsame | hwritten
    · unfold Rewrites
      rw [hsame]
      exact hst
    · exact .inr hwritten

private theorem reloadConfig_sound {inp : IterInput R} (hwritten : inp.written.Whole)
    {s : LoopState R} {C : Dict (Json R)} (hC : Sane C) (h : Sound s.shared) :
    Sound (exec (reloadConfig inp (.object C)) s).2.shared := by
  have hformed := hC.wellFormed
  have ⟨sens, hsens⟩ := hformed.exists_sens
  have ⟨x0, x1, hx, hwideX⟩ := hC.exists_zone (k := "zone_x") (by decide)
  have ⟨y0, y1, hy, hwideY⟩ := hC.exists_zone (k := "zone_y") (by decide)
  have hpair (lo hi : R) (u : LoopState R) :
      exec (zonePair (.arr [.num lo, .num hi])) u = (.ok (.num lo, .num hi), u) := rfl
  have hcamera : Fits "camera_source" (C.getD "camera_source" (.str "0")) :=
    getD_of (fun v hv ↦ hC _ v hv) (fits_cameraSource (.inl ⟨_, rfl⟩))
  unfold reloadConfig
  rw [exec_bind_assign, exec_bind_ok (exec_toFloat_some hsens _)]
  rw [exec_bind_assign, exec_bind_assign, exec_bind, hx, hpair]
  dsimp only
  rw [exec_bind_assign, exec_bind, hy, hpair]
  dsimp only
  rw [exec_bind_assign]
  generalize hsh : Shared.assign _ _ = sh
  have hsound : Sound sh := by
    rw [← hsh]
    constructor
    · exact getD_of (fun v hv ↦ hC _ v hv) (fits_gameMode _)
    · exact getD_of (fun v hv ↦ hC _ v hv) (fits_targetHand _)
    · exact h.sensVal
    · exact getD_of (fun v hv ↦ hC _ v hv) (fits_suavVal (isFloat_ofNat 10 (by decide)))
    · exact h.cameraSrc
    · exact fits_zone (by decide) ⟨x0, x1, rfl, hwideX⟩
    · exact fits_zone (by decide) ⟨y0, y1, rfl, hwideY⟩
    · exact h.idle
    · exact h.file
  have htail : Respects KeepsSound (do
      updateFilterParams (C.getD "suav_val" (.num 10))
      followCamera inp (C.getD "camera_source" (.str "0"))) :=
    respects_bind (respects_zoom fun _ _ h ↦ h) fun _ ↦
      respects_followCamera _ _ fun _ h ↦ h.startCameraStream hcamera inp.opens hwritten
  exact htail _ hsound

/-- What the watcher finds in a sane file is sane. -/
theorem Reloads.exists_sane {inp : IterInput R} {s : LoopState R} (h : Sound s.shared)
    {document : Document R} (hr : Reloads inp s document) :
    ∃ C, document = .object C ∧ Sane C := by
  have ⟨_, mtime, hfile, _⟩ := hr
  have ⟨C, hcontent, hC⟩ := h.file _ hfile
  exact ⟨C, Option.some.inj hcontent, hC⟩

/-- The watcher keeps the variables sound. -/
theorem watched_sound {inp : IterInput R} (hwritten : inp.written.Whole) {s : LoopState R}
    (h : Sound s.shared) : Sound (watched inp s).shared := by
  by_cases hr : ∃ document, Reloads inp s document
  · have ⟨document, hdocument⟩ := hr
    have ⟨C, hobject, hC⟩ := hdocument.exists_sane h
    rw [watched_of_reloads hdocument, hobject]
    exact reloadConfig_sound hwritten hC h
  · have hnone : ∀ document, ¬Reloads inp s document := fun d hd ↦ hr ⟨d, hd⟩
    rw [(watched_of_not_reloads hnone).1]
    exact h

omit [Scalar R] in
private theorem assign_rewrites (written : WriteOutcome R) (f : Globals R → Globals R) :
    Respects (Rewrites written) (assign f) := fun _ ↦ .inl rfl

omit [Scalar R] in
private theorem startCameraStream_rewrites (source : Json R) (opens : Bool)
    {written : WriteOutcome R} (hwritten : written.Whole) (s : LoopState R) :
    Rewrites written s { s with shared := startCameraStream source opens written s.shared } := by
  unfold startCameraStream
  dsimp only
  split
  · cases written with
    | refused => exact .inl rfl
    | brokenOff mtime => exact absurd rfl (hwritten mtime)
    | done mtime => exact .inr ⟨mtime, _, rfl, rfl⟩
  · exact .inl rfl

private theorem reloadConfig_rewrites {inp : IterInput R} (hwritten : inp.written.Whole)
    (document : Document R) : Respects (Rewrites inp.written) (reloadConfig inp document) :=
  respects_reloadConfig (assign_rewrites _) (fun _ ↦ respects_zoom fun _ _ ↦ .inl rfl)
    (fun source s ↦ startCameraStream_rewrites source _ hwritten s) document

private theorem watched_rewrites {inp : IterInput R} (hwritten : inp.written.Whole)
    (s : LoopState R) :
    Rewrites inp.written s (watched inp s) := by
  by_cases hr : ∃ document, Reloads inp s document
  · have ⟨document, hdocument⟩ := hr
    rw [watched_of_reloads hdocument]
    exact reloadConfig_rewrites hwritten document (noted inp s)
  · have hnone : ∀ document, ¬Reloads inp s document := fun d hd ↦ hr ⟨d, hd⟩
    unfold Rewrites
    rw [(watched_of_not_reloads hnone).1]
    exact .inl rfl

/-- The settings of a document are in force. -/
def InForce (C : Dict (Json R)) (s : LoopState R) : Prop := ∀ k : Setting, k.InForce C s

/-- A reloaded document is in force. -/
theorem watched_inForce {inp : IterInput R} {s : LoopState R} {C : Dict (Json R)} (hC : Sane C)
    (h : Reloads inp s (.object C)) : InForce C (watched inp s) := by
  intro k
  have hnodup : Setting.order.Nodup := by decide
  have hall : k ∈ Setting.order := by
    cases k <;> decide
  have ⟨htaken, _⟩ := (staged_reload inp C).exec_stages hnodup (noted inp s)
  rw [List.takeWhile_eq_self_iff.mpr fun j _ ↦ hC.readable j] at htaken
  rw [watched_of_reloads h, reloadConfig_eq_stages]
  have hk := htaken k hall
  cases k with
  | filters =>
    obtain ⟨x, hx, hfilters⟩ := hk
    have ⟨hfilterX, hfilterY⟩ := Prod.mk.inj hfilters
    refine ⟨x, hx, ?_⟩
    unfold PCController.params
    rw [hfilterX, hfilterY]
  | _ => exact hk

/-- A watcher that reloads nothing from a sane file notes no new modification time. -/
theorem watched_of_sane {inp : IterInput R} {s : LoopState R} (h : Sound s.shared)
    (hnone : ∀ C, ¬Reloads inp s (.object C)) :
    (watched inp s).shared = s.shared ∧ (watched inp s).controller = s.controller ∧
      ∀ file, s.shared.file = some file → (watched inp s).lastMtime = s.lastMtime := by
  have hnothing : ∀ document, ¬Reloads inp s document := by
    intro document hr
    have ⟨C, hobject, _⟩ := hr.exists_sane h
    rw [hobject] at hr
    exact hnone C hr
  have ⟨hshared, hcontroller, hmtime⟩ := watched_of_not_reloads hnothing
  refine ⟨hshared, hcontroller, fun file hfile ↦ ?_⟩
  by_cases hdue : inp.clock.check - s.lastConfigCheck > 1
  · apply hmtime file hfile
    by_contra hnew
    have ⟨C, hcontent, _⟩ := h.file file hfile
    apply hnone C
    refine ⟨hdue, file.mtime, ?_, hnew⟩
    rw [hfile, ← hcontent]
  · unfold watched configWatcher
    rw [exec_bind_get, if_neg hdue]
    rfl

/-! ### Filters -/

/-- The watcher leaves adjusted filters adjusted. -/
theorem watched_adjusted {inp : IterInput R} {s : LoopState R} (h : Sound s.shared)
    (hadjusted : Adjusted s) : Adjusted (watched inp s) := by
  by_cases hr : ∃ C, Reloads inp s (.object C)
  · have ⟨C, hreload⟩ := hr
    have ⟨D, hobject, hD⟩ := hreload.exists_sane h
    cases hobject
    have hforce := watched_inForce hD hreload
    have hsuav : (watched inp s).shared.globals.suavVal = C.getD "suav_val" (.num 10) :=
      hforce .suav
    have ⟨x, hx, hparams⟩ := hforce .filters
    exact ⟨x, (congrArg Json.asFloat hsuav).trans hx, hparams⟩
  · have ⟨hshared, hcontroller, _⟩ := watched_of_sane h fun C hC ↦ hr ⟨C, hC⟩
    apply hadjusted.congr
    · rw [hshared]
    · rw [hcontroller]

/-- The shared variables are as they were, and adjusted filters stay adjusted. -/
def KeepsAdjusted (s t : LoopState R) : Prop := t.shared = s.shared ∧ (Adjusted s → Adjusted t)

private theorem keepsAdjusted_of_params {s t : LoopState R} (hshared : t.shared = s.shared)
    (hparams : t.controller.params = s.controller.params) : KeepsAdjusted s t :=
  ⟨hshared, fun h ↦ h.congr (congrArg (·.globals.suavVal) hshared) hparams⟩

instance : Std.Refl (KeepsAdjusted : LoopState R → LoopState R → Prop) := ⟨fun _ ↦ ⟨rfl, id⟩⟩

instance : IsTrans (LoopState R) KeepsAdjusted :=
  ⟨fun _ _ _ hst htu ↦ ⟨htu.1.trans hst.1, fun h ↦ htu.2 (hst.2 h)⟩⟩

private theorem adjusted_perform {f : PCController R → PCController R × List OsEvent}
    (hf : Still f) : Respects KeepsAdjusted (perform f) := by
  intro s
  have ⟨⟨_, _, hfilterX, hfilterY⟩, _⟩ := hf s.controller
  have hparams : (f s.controller).1.params = s.controller.params := by
    unfold PCController.params
    rw [hfilterX, hfilterY]
  exact keepsAdjusted_of_params rfl hparams

private theorem moveMouse_params (self : PCController R) (x y now : R) :
    (self.moveMouse x y now).1.params = self.params := by
  unfold PCController.moveMouse
  split
  · rfl
  · exact Prod.ext (OneEuroFilter.filter_params ..) (OneEuroFilter.filter_params ..)

private theorem keptByCalls_adjusted (inp : IterInput R) (analysis : Analysis R) :
    KeptByCalls KeepsAdjusted inp analysis := by
  constructor
  · refine fun s ↦ ⟨rfl, fun ⟨x, hx, _⟩ ↦ ?_⟩
    rw [exec_updateFilterParams_some hx]
    exact ⟨x, hx, rfl⟩
  · exact fun gesture action _ s ↦ keepsAdjusted_of_params rfl rfl
  · exact fun s target _ ↦ keepsAdjusted_of_params rfl (moveMouse_params ..)
  · exact fun freeze debounce ↦ adjusted_perform (still_click _ _ _)
  · exact adjusted_perform (still_rightClick _)
  · exact adjusted_perform still_dragStart
  · exact adjusted_perform still_dragStop
  · exact adjusted_perform (still_swipe _ _)
  · exact adjusted_perform (still_swipe _ _)
  · refine respects_bind respects_get fun s ↦ ?_
    split
    · refine respects_bind ?_ fun _ ↦ respects_modify fun s ↦ keepsAdjusted_of_params rfl rfl
      exact adjusted_perform fun c ↦ ⟨⟨rfl, rfl, rfl, rfl⟩, rfl⟩
    · exact respects_pure _
  · exact fun action s ↦ keepsAdjusted_of_params rfl rfl

/-! ### Iterations -/

private theorem triggerCalibrationKey_idle {sh : Shared R} (h : sh.globals.calibrationStep = 0)
    (written : WriteOutcome R) (x y : R) : triggerCalibrationKey written x y sh = sh := by
  unfold triggerCalibrationKey
  dsimp only
  rw [h, if_neg (by decide), if_neg (by decide)]

section
variable {inp : IterInput R} (hwritten : inp.written.Whole) {s : LoopState R} (h : Sound s.shared)
include hwritten h

/-- An iteration from sound variables ends without raising. -/
theorem iterate_ok (hs : s.cur = {}) : ∃ done, (iterate inp s).result = .ok done := by
  have hwatched := watched_sound hwritten h
  have ⟨m, hm⟩ := hwatched.gameMode.gameMode rfl
  have hnumber : (watched inp s).shared.globals.suavVal.asFloat.isSome :=
    Option.isSome_iff_exists.mpr (hwatched.suavVal.suavVal rfl).exists_asFloat
  by_cases hsees : seesImage inp (watched inp s)
  · have hreaches : ReachesRelease inp s := by
      refine ⟨hsees, hwatched.good.numeric, fun r _ ↦ ⟨.inr hnumber, fun _ ↦ hwatched.good.usable⟩⟩
    have ⟨t, hseen, hresult, _⟩ := iterate_of_reaches (by rw [hs]) hreaches
    have hshared : t.shared = (ready inp s).shared :=
      (congrArg Prod.fst hseen).trans (dispatched_shared inp s)
    have hmode : t.shared.globals.gameMode = .str m := by
      rw [hshared]
      exact hm
    rw [hresult]
    unfold finish
    rw [exec_bind_ok (exec_showStatus_ok hmode), exec_handleKey_end]
    exact ⟨_, rfl⟩
  · rw [iterate_of_exec (exec_iteration_skipped hsees)]
    exact ⟨_, rfl⟩

/-- After the watcher it changes no setting. -/
theorem iterate_settled (hs : s.cur = {}) :
    (iterate inp s).after.shared.settled = (watched inp s).shared.settled := by
  by_cases hp : ∃ hand, Presses inp s hand
  · have ⟨hand, hhand⟩ := hp
    rw [iterate_settled_of_presses hs hhand]
    have hidle : (watched inp s).shared.settled.globals.calibrationStep = 0 :=
      (watched_sound hwritten h).idle
    exact triggerCalibrationKey_idle hidle _ _ _
  · exact iterate_settled_of_not_presses hs fun hand hh ↦ hp ⟨hand, hh⟩

/-- It keeps the variables sound. -/
theorem iterate_sound (hs : s.cur = {}) : Sound (iterate inp s).after.shared :=
  (watched_sound hwritten h).of_settled (iterate_settled hwritten h hs)

/-- It keeps adjusted filters adjusted. -/
theorem iterate_adjusted (hs : s.cur = {}) (hadjusted : Adjusted s) :
    Adjusted (iterate inp s).after := by
  have hwatched : Adjusted (watched inp s) := watched_adjusted h hadjusted
  have hsettled := iterate_settled hwritten h hs
  have hsuav : (iterate inp s).after.shared.globals.suavVal =
      (watched inp s).shared.globals.suavVal := congrArg (·.globals.suavVal) hsettled
  by_cases hsees : seesImage inp (watched inp s)
  · by_cases hzone : ZoneNumeric (watched inp s).shared.globals
    · have hrespects : Respects KeepsAdjusted (processActions inp) :=
        respects_processActions (keptByCalls_adjusted inp) fun s _ ↦ keepsAdjusted_of_params rfl rfl
      have ⟨hshared, hprocessed⟩ := hrespects (ready inp s)
      have hafter : unshared (iterate inp s).after =
          unshared (exec (processActions inp) (ready inp s)).2 := by
        rw [(iterate_framed hsees hzone).2]
        exact processed_unshared inp (ready inp s)
      have hcontroller := congrArg Prod.fst hafter
      apply (hprocessed (hwatched.congr rfl rfl)).congr
      · rw [hsuav, hshared]
        rfl
      · exact congrArg PCController.params hcontroller
    · obtain ⟨e, he⟩ := exec_iteration_undrawn hsees hzone
      rw [iterate_of_exec he]
      exact hwatched.congr rfl rfl
  · rw [iterate_of_exec (exec_iteration_skipped hsees)]
    exact hwatched.congr rfl rfl

/-- It writes the file at most to save a new camera. -/
theorem iterate_rewrites (hs : s.cur = {}) : Rewrites inp.written s (iterate inp s).after := by
  have hsettled : (iterate inp s).after.shared.settled = (watched inp s).shared.settled :=
    iterate_settled hwritten h hs
  have hfile := congrArg Shared.file hsettled
  have hsame : (iterate inp s).after.shared.file = (watched inp s).shared.file := hfile
  unfold Rewrites
  rw [hsame]
  exact watched_rewrites hwritten s

end

/-- Variables that agree up to those every iteration overwrites have the same settings in force
when the filters are adjusted. -/
theorem InForce.of_settled {C : Dict (Json R)} {s t : LoopState R} (h : InForce C s)
    (hsettled : t.shared.settled = s.shared.settled) (hadjusted : Adjusted t) : InForce C t := by
  intro k
  by_cases hk : k = .filters
  · have hsuav : s.shared.globals.suavVal = C.getD "suav_val" (.num 10) := h .suav
    have hsame : t.shared.globals.suavVal = s.shared.globals.suavVal :=
      congrArg (·.globals.suavVal) hsettled
    obtain ⟨x, hx, hparams⟩ := hadjusted
    rw [hsame, hsuav] at hx
    rw [hk]
    exact ⟨x, hx, hparams⟩
  · have hread (u : LoopState R) : k.read u = k.read { t with shared := u.shared.settled } := by
      cases k with
      | filters => exact absurd rfl hk
      | _ => rfl
    rw [Setting.inForce_iff hk, hread t, hsettled, ← hread s]
    exact (Setting.inForce_iff hk).mp (h k)

/-- When the file is the one that was looked at last, its settings are in force. -/
def FollowsFile (s : LoopState R) : Prop :=
  ∀ file C, s.shared.file = some file → file.content = some (.object C) →
    file.mtime = s.lastMtime → InForce C s

/-- After a check that is due the settings of the file it found are in force. -/
theorem iterate_inForce {inp : IterInput R} (hwritten : inp.written.Whole) {s : LoopState R}
    (hs : s.cur = {}) (h : Sound s.shared) (hadjusted : Adjusted s) (hfollows : FollowsFile s)
    (hdue : inp.clock.check - s.lastConfigCheck > 1) {file : ConfigFile R} {C : Dict (Json R)}
    (hfile : s.shared.file = some file) (hcontent : file.content = some (.object C)) :
    InForce C (iterate inp s).after := by
  have hkept := iterate_adjusted hwritten h hs hadjusted
  apply InForce.of_settled ?_ (iterate_settled hwritten h hs) hkept
  by_cases hnew : file.mtime = s.lastMtime
  · have hnone : ∀ D, ¬Reloads inp s (.object D) := by
      rintro D ⟨_, mtime, hfound, hdiffers⟩
      rw [hfile] at hfound
      rw [Option.some.inj hfound] at hnew
      exact hdiffers hnew
    have hshared := (watched_of_sane h hnone).1
    exact (hfollows file C hfile hcontent hnew).of_settled (congrArg Shared.settled hshared)
      (watched_adjusted h hadjusted)
  · have ⟨D, hobject, hD⟩ := h.file file hfile
    rw [hcontent] at hobject
    cases hobject
    apply watched_inForce hD
    refine ⟨hdue, file.mtime, ?_, hnew⟩
    rw [hfile, ← hcontent]

/-- A write that leaves a later modification time than those so far is not missed. -/
theorem iterate_followsFile {inp : IterInput R} (hwritten : inp.written.Whole) {s : LoopState R}
    (hs : s.cur = {}) (h : Sound s.shared) (hadjusted : Adjusted s) (hfollows : FollowsFile s)
    (hlater : ∀ mtime, inp.written = .done mtime → s.lastMtime < mtime ∧
      ∀ file ∈ s.shared.file, file.mtime < mtime) : FollowsFile (iterate inp s).after := by
  intro file C hfile hcontent hnoted
  have hsettled : (iterate inp s).after.shared.settled = (watched inp s).shared.settled :=
    iterate_settled hwritten h hs
  have hkept := iterate_adjusted hwritten h hs hadjusted
  rw [iterate_lastMtime inp hs] at hnoted
  by_cases hr : ∃ D, Reloads inp s (.object D)
  · have ⟨D, hreload⟩ := hr
    have ⟨hdue, mtime, hfound, _⟩ := hreload
    have ⟨E, hobject, hE⟩ := h.file _ hfound
    cases hobject
    rw [watched_lastMtime hE.wellFormed hreload hfound] at hnoted
    apply InForce.of_settled ?_ hsettled hkept
    have hrewrites : Rewrites inp.written s (iterate inp s).after := iterate_rewrites hwritten h hs
    rcases hrewrites with hsame | ⟨written, F, hdone, hrewritten⟩
    · rw [hsame, hfound] at hfile
      rw [← Option.some.inj hfile] at hcontent
      cases hcontent
      exact watched_inForce hE hreload
    · rw [hrewritten] at hfile
      rw [← Option.some.inj hfile] at hnoted
      exact absurd hnoted (ne_of_gt ((hlater written hdone).2 _ hfound))
  · have hnone : ∀ D, ¬Reloads inp s (.object D) := fun D hD ↦ hr ⟨D, hD⟩
    have ⟨hshared, _, hmtime⟩ := watched_of_sane h hnone
    have hsame : (iterate inp s).after.shared.file = s.shared.file := by
      have hfile := congrArg Shared.file hsettled
      rw [hshared] at hfile
      exact hfile
    rw [hsame] at hfile
    rw [hmtime file hfile] at hnoted
    rw [hshared] at hsettled
    exact (hfollows file C hfile hcontent hnoted).of_settled hsettled hkept

end Loop

end VisionGame.Vision
