import VisionGame.Base.Settling
import VisionGame.Vision.CursorRuns

/-!
# The cursor settles

Library `Vision`. `src/mediapipe/one_euro_filter.py:3–46`, `src/mediapipe/pc_controller.py:41–75`,
`src/mediapipe/app_gestures.py:498–537,652–691`. While a hand points into a box of pixels, the
cursor comes nearer to the box at least like the inverse of the time that it does so, and in the end
to one pixel. Changes of the settings, freezes, pauses, iterations without a hand and clocks that
run backwards do not disturb this.
-/

namespace VisionGame.Vision
open VisionGame.Base
open Effect

variable {R : Type} [Scalar R]

/-! ### One filter -/

/-- Rate of the smallest cutoff that the settings lead to; `pc_controller.py:46–47`. -/
def slowestRate : R := 2 * Scalar.pi * 0.02

/-- Filter of a coordinate whose last output, which is on the screen, has settled in the interval
of some pixels since some time. -/
structure SettlesIn (size lo hi : ℤ) (since : R) (f : OneEuroFilter R) : Prop where
  tuned : f.Tuned
  slowest : 0.02 ≤ f.minCutoff
  onScreen : ∀ p, f.prev = some p → p.xPrev ∈ Set.Icc (0 : R) size
  settled : ∀ p, f.prev = some p →
    Settled slowestRate (size : R) lo (hi + 1) (max 0 (p.tPrev - since)) p.xPrev

/-- A filter that is reset has nothing to settle. -/
theorem settlesIn_init (size lo hi : ℤ) (since suavidad : R) :
    SettlesIn size lo hi since (.init (max 0.02 (1.8 - (suavidad / 10) * 1.7))
      (max 0.001 (0.035 - (suavidad / 10) * 0.030)) 1) :=
  ⟨(follows_init size suavidad).tuned, le_max_left _ _, nofun, nofun⟩

section
variable (hpi : 0 < (Scalar.pi : R))
include hpi

private theorem slowestRate_pos : 0 < (slowestRate : R) := by
  have hcutoff : (0 : R) < 0.02 := by norm_num
  unfold slowestRate
  positivity

private theorem kept_le {cutoff dt : R} (hcutoff : 0.02 ≤ cutoff) (hdt : 0 < dt) :
    (1 - OneEuroFilter.alpha cutoff dt) * (1 + slowestRate * dt) ≤ 1 := by
  have hpos : (0 : R) < cutoff := lt_of_lt_of_le (by norm_num) hcutoff
  have hsteps : 0 < 2 * Scalar.pi * cutoff * dt := by positivity
  have hkept : 1 - OneEuroFilter.alpha cutoff dt = 1 / (1 + 2 * Scalar.pi * cutoff * dt) := by
    simp only [OneEuroFilter.alpha]
    field_simp
    ring
  have hrate : slowestRate * dt ≤ 2 * Scalar.pi * cutoff * dt := by
    unfold slowestRate
    gcongr
  rw [hkept, one_div_mul_eq_div, div_le_one (by positivity)]
  linarith

end

private theorem excess_le_size {size lo hi : ℤ} (hlo : lo ≤ size) (hhi : 0 ≤ hi + 1) {y : R}
    (hy : y ∈ Set.Icc (0 : R) size) : excess (lo : R) (hi + 1) y ≤ size := by
  have hlo' : (lo : R) ≤ size := by exact_mod_cast hlo
  have hhi' : (0 : R) ≤ hi + 1 := by exact_mod_cast hhi
  rw [excess_le_iff (hy.1.trans hy.2)]
  constructor
  · linarith [hy.1]
  · linarith [hy.2]

section
variable (hpi : 0 < (Scalar.pi : R)) {size lo hi : ℤ} (hlo : lo ≤ size) (hhi : 0 ≤ hi + 1)
  {since : R} {f : OneEuroFilter R} (h : SettlesIn size lo hi since f) {x : R}
  (hx : x ∈ Set.Icc (0 : R) size) {now : R} (hfits : now ≤ since ∨ x ∈ Set.Icc (lo : R) (hi + 1))
include hpi hlo hhi h hx hfits

/-- A sample of the interval, or any one before the time, leaves a filter that settles. -/
theorem SettlesIn.filter : SettlesIn size lo hi since (f.filter x now).2 ∧
    Settled slowestRate (size : R) lo (hi + 1) (max 0 (now - since)) (f.filter x now).1 := by
  have hrate : (0 : R) ≤ slowestRate := (slowestRate_pos hpi).le
  have hsize : (0 : R) ≤ size := hx.1.trans hx.2
  have htuned := (f.filter_keeps x now).1 h.tuned
  -- before the time every position on the screen will do
  have hearly {y : R} (hy : y ∈ Set.Icc (0 : R) size) (hnow : now ≤ since) :
      Settled slowestRate (size : R) lo (hi + 1) (max 0 (now - since)) y := by
    rw [max_eq_left (sub_nonpos.mpr hnow)]
    exact settled_zero (excess_le_size hlo hhi hy)
  have hnew {y : R} (hy : y ∈ Set.Icc (0 : R) size)
      (hsettled : Settled slowestRate (size : R) lo (hi + 1) (max 0 (now - since)) y)
      {g : OneEuroFilter R} (hg : g.Tuned) (hslow : g.minCutoff = f.minCutoff)
      (hprev : g.prev = some ⟨y, now⟩) : SettlesIn size lo hi since g := by
    refine ⟨hg, hslow ▸ h.slowest, fun p hp ↦ ?_, fun p hp ↦ ?_⟩
    all_goals
      rw [hprev] at hp
      obtain rfl := Option.some.inj hp
    · exact hy
    · exact hsettled
  cases hprev : f.prev with
  | none =>
    have hsettled : Settled slowestRate (size : R) lo (hi + 1) (max 0 (now - since)) x := by
      rcases hfits with hnow | hmem
      · exact hearly hx hnow
      · exact settled_of_mem hsize hmem
    rw [OneEuroFilter.filter_first _ _ _ hprev] at htuned ⊢
    exact ⟨hnew hx hsettled htuned rfl rfl, hsettled⟩
  | some p =>
    have honScreen := h.onScreen p hprev
    have hold := h.settled p hprev
    by_cases hstale : now ≤ p.tPrev
    · rw [OneEuroFilter.filter_stale _ _ _ _ hprev hstale]
      exact ⟨h, hold.mono hrate (max_le_max_left 0 (sub_le_sub_right hstale since))⟩
    · have hdt : 0 < now - p.tPrev := sub_pos.mpr (not_le.mp hstale)
      have hy : (f.filter x now).1 ∈ Set.Icc (0 : R) size := by
        have hlast : f.last = some p.xPrev := by rw [OneEuroFilter.last, hprev, Option.map_some]
        exact Set.uIcc_subset_Icc honScreen hx
          (OneEuroFilter.filter_mem_uIcc hpi h.tuned hlast x now)
      have hsettled : Settled slowestRate (size : R) lo (hi + 1) (max 0 (now - since))
          (f.filter x now).1 := by
        rcases hfits with hnow | hmem
        · exact hearly hy hnow
        · simp only [OneEuroFilter.filter, hprev, if_neg (not_le.mpr hdt)]
          generalize OneEuroFilter.exponentialSmoothing _ _ f.dxPrev = dxHat
          have hcutoff : 0.02 ≤ f.minCutoff + f.beta * |dxHat| :=
            h.slowest.trans (le_add_of_nonneg_right (mul_nonneg h.tuned.beta (abs_nonneg dxHat)))
          have halpha := OneEuroFilter.alpha_mem_Ioo hpi (h.tuned.cutoff_pos dxHat) hdt
          refine (hold.smooth hrate (le_max_left _ _) ⟨halpha.1.le, halpha.2.le⟩ hmem hdt.le
            (kept_le hpi hcutoff hdt)).mono hrate ?_
          apply max_le
          · exact add_nonneg (le_max_left _ _) hdt.le
          · linarith [le_max_right 0 (p.tPrev - since)]
      have hfresh : (f.filter x now).2.minCutoff = f.minCutoff ∧
          (f.filter x now).2.prev = some ⟨(f.filter x now).1, now⟩ := by
        simp only [OneEuroFilter.filter, hprev, if_neg (not_le.mpr hdt), and_self]
      exact ⟨hnew hy hsettled htuned hfresh.1 hfresh.2, hsettled⟩

end

/-! ### One pixel -/

/-- The pixel of a position that is not negative does not lie behind it. -/
theorem pixel_le {size : ℤ} {x : R} (hx : 0 ≤ x) : ((pixel size x : ℤ) : R) ≤ x := by
  have hfloor : pixel size x ≤ ⌊x⌋ := by
    unfold pixel Scalar.toInt
    rw [if_pos hx]
    exact max_le (Int.floor_nonneg.mpr hx) (min_le_right _ _)
  exact (Int.cast_le.mpr hfloor).trans (Int.floor_le x)

/-- A position on the screen lies in its pixel, or at the far edge of the last one. -/
theorem le_pixel_add_one {size : ℤ} {x : R} (hx : x ∈ Set.Icc (0 : R) size) :
    x ≤ (pixel size x : ℤ) + 1 := by
  have hfloor : Scalar.toInt x = ⌊x⌋ := if_pos hx.1
  have hnonneg : 0 ≤ ⌊x⌋ := Int.floor_nonneg.mpr hx.1
  have hpixel : size ≤ pixel size x + 1 ∨ ⌊x⌋ + 1 ≤ pixel size x + 1 := by
    unfold pixel
    rw [hfloor]
    omega
  rcases hpixel with hedge | hinside
  · have hcast : (size : R) ≤ (pixel size x : ℤ) + 1 := by exact_mod_cast hedge
    exact hx.2.trans hcast
  · have hcast : ((⌊x⌋ : ℤ) : R) + 1 ≤ (pixel size x : ℤ) + 1 := by exact_mod_cast hinside
    exact (Int.lt_floor_add_one x).le.trans hcast

private theorem excess_pixel_le {size : ℤ} (lo hi : ℤ) {y : R} (hy : y ∈ Set.Icc (0 : R) size) :
    excess (lo : R) hi (pixel size y : ℤ) ≤ excess (lo : R) (hi + 1) y + 1 := by
  have ⟨hlow, hhigh⟩ := (excess_le_iff (excess_nonneg (lo : R) (hi + 1) y)).mp le_rfl
  have hnonneg := excess_nonneg (lo : R) (hi + 1) y
  have hbelow : (pixel size y : R) ≤ y := by exact_mod_cast pixel_le hy.1
  have habove : y ≤ (pixel size y : R) + 1 := le_pixel_add_one hy
  rw [excess_le_iff (add_nonneg hnonneg zero_le_one)]
  constructor <;> linarith

private theorem mem_of_pixel_mem {size lo hi : ℤ} {x : R} (hx : x ∈ Set.Icc (0 : R) size)
    (h : pixel size x ∈ Set.Icc lo hi) : x ∈ Set.Icc (lo : R) (hi + 1) := by
  have hlow : (lo : R) ≤ (pixel size x : ℤ) := by exact_mod_cast h.1
  have hhigh : ((pixel size x : ℤ) : R) ≤ hi := by exact_mod_cast h.2
  exact ⟨hlow.trans (pixel_le hx.1), (le_pixel_add_one hx).trans (by linarith)⟩

section
variable (hpi : 0 < (Scalar.pi : R)) {size lo hi : ℤ} (hlo : lo ≤ size) (hhi : 0 ≤ hi + 1)
  {since : R} {f : OneEuroFilter R} (h : SettlesIn size lo hi since f) {x : R}
  (hx : x ∈ Set.Icc (0 : R) size) {now : R} (hfits : now ≤ since ∨ x ∈ Set.Icc (lo : R) (hi + 1))
include hpi hlo hhi h hx hfits

private theorem SettlesIn.near : excess (lo : R) hi (pixel size (f.filter x now).1 : ℤ) ≤
    size / (1 + slowestRate * max 0 (now - since)) + 1 := by
  have ⟨hnext, hsettled⟩ := h.filter hpi hlo hhi hx hfits
  have hprev : ∃ p, (f.filter x now).2.prev = some p ∧ p.xPrev = (f.filter x now).1 :=
    Option.map_eq_some_iff.mp (f.filter_keeps x now).2
  obtain ⟨p, hp, hout⟩ := hprev
  have honScreen := hnext.onScreen p hp
  rw [hout] at honScreen
  refine (excess_pixel_le lo hi honScreen).trans (add_le_add_left ?_ 1)
  exact hsettled.excess_le (slowestRate_pos hpi).le (le_max_left _ _)

end

private theorem scaled_mem {size : ℤ} (hsize : 1 ≤ size) {norm : R} (h : norm ∈ Set.Icc (0 : R) 1) :
    norm * size ∈ Set.Icc (0 : R) size := by
  have hpos : (0 : R) ≤ size := by exact_mod_cast zero_le_one.trans hsize
  exact ⟨mul_nonneg h.1 hpos, mul_le_of_le_one_left hpos h.2⟩

/-! ### The rule -/

/-- A box of pixels, and the time since when it is watched. -/
structure Watch (R : Type) where
  lo : ℤ × ℤ
  hi : ℤ × ℤ
  since : R

namespace Watch

/-- The box meets the screen. -/
def Meets (W H : ℤ) (w : Watch R) : Prop :=
  (w.lo.1 ≤ W ∧ 0 ≤ w.hi.1 + 1) ∧ w.lo.2 ≤ H ∧ 0 ≤ w.hi.2 + 1

/-- How far a coordinate may still be from its interval at some time. -/
def slack (size : ℤ) (w : Watch R) (now : R) : R :=
  size / (1 + slowestRate * max 0 (now - w.since)) + 1

/-- A pixel is as near to the box as it has to be at some time. -/
def Near (W H : ℤ) (w : Watch R) (now : R) (p : ℤ × ℤ) : Prop :=
  excess (w.lo.1 : R) w.hi.1 p.1 ≤ w.slack W now ∧ excess (w.lo.2 : R) w.hi.2 p.2 ≤ w.slack H now

/-- Both filters of the screen settle in the box. -/
structure Holds (W H : ℤ) (w : Watch R) (c : PCController R) : Prop where
  width : c.screenWidth = W
  height : c.screenHeight = H
  settlesX : w.Meets W H → SettlesIn W w.lo.1 w.hi.1 w.since c.filterX
  settlesY : w.Meets W H → SettlesIn H w.lo.2 w.hi.2 w.since c.filterY

variable {W H : ℤ} {w : Watch R} {c : PCController R}

/-- New filters have nothing to settle. -/
theorem holds_retuned (hwidth : c.screenWidth = W) (hheight : c.screenHeight = H) {v : Json R}
    {suavidad : R} (hv : v.asFloat = some suavidad) :
    w.Holds W H (exec (PCController.updateFilterParams v) c).2 := by
  rw [PCController.exec_updateFilterParams_some c hv]
  exact ⟨hwidth, hheight, fun _ ↦ settlesIn_init .., fun _ ↦ settlesIn_init ..⟩

namespace Holds

private theorem still (h : w.Holds W H c) {f : PCController R → PCController R × List OsEvent}
    (hf : Still f) : w.Holds W H (f c).1 := by
  obtain ⟨⟨hwidth, hheight, hx, hy⟩, _⟩ := hf c
  constructor
  · exact hwidth.trans h.width
  · exact hheight.trans h.height
  · rw [hx]
    exact h.settlesX
  · rw [hy]
    exact h.settlesY

private theorem updateFilterParams (h : w.Holds W H c) (v : Json R) :
    w.Holds W H (exec (PCController.updateFilterParams v) c).2 := by
  cases hv : v.asFloat with
  | none =>
    obtain ⟨e, hkept, _⟩ := c.exec_updateFilterParams_none hv
    rw [hkept]
    exact ⟨h.width, h.height, h.settlesX, h.settlesY⟩
  | some suavidad => exact holds_retuned h.width h.height hv

section
variable (hpi : 0 < (Scalar.pi : R)) (hW : 1 ≤ W) (hH : 1 ≤ H) (h : w.Holds W H c)
  {target : R × R} {now : R} (hx : target.1 ∈ Set.Icc (0 : R) 1) (hy : target.2 ∈ Set.Icc (0 : R) 1)
include hpi hW hH h hx hy

private theorem moveMouse (hfits : now ≤ w.since ∨ aimPixel W H target ∈ Set.Icc w.lo w.hi) :
    w.Holds W H (c.moveMouse target.1 target.2 now).1 ∧
      ∀ p ∈ positions (c.moveMouse target.1 target.2 now).2, w.Meets W H → w.Near W H now p := by
  cases hfrozen : c.isFrozen now with
  | true =>
    rw [PCController.moveMouse_of_frozen hfrozen]
    exact ⟨h, nofun⟩
  | false =>
    have hscreenX := scaled_mem hW hx
    have hscreenY := scaled_mem hH hy
    have hfitsX : now ≤ w.since ∨ target.1 * W ∈ Set.Icc (w.lo.1 : R) (w.hi.1 + 1) :=
      hfits.imp_right fun hmem ↦ mem_of_pixel_mem hscreenX ⟨hmem.1.1, hmem.2.1⟩
    have hfitsY : now ≤ w.since ∨ target.2 * H ∈ Set.Icc (w.lo.2 : R) (w.hi.2 + 1) :=
      hfits.imp_right fun hmem ↦ mem_of_pixel_mem hscreenY ⟨hmem.1.2, hmem.2.2⟩
    rw [PCController.moveMouse_of_not_frozen hfrozen, h.width, h.height]
    constructor
    · refine ⟨rfl, rfl, fun hmeets ↦ ?_, fun hmeets ↦ ?_⟩
      · exact ((h.settlesX hmeets).filter hpi hmeets.1.1 hmeets.1.2 hscreenX hfitsX).1
      · exact ((h.settlesY hmeets).filter hpi hmeets.2.1 hmeets.2.2 hscreenY hfitsY).1
    · intro p hp hmeets
      rw [List.mem_singleton.mp hp]
      exact ⟨(h.settlesX hmeets).near hpi hmeets.1.1 hmeets.1.2 hscreenX hfitsX,
        (h.settlesY hmeets).near hpi hmeets.2.1 hmeets.2.2 hscreenY hfitsY⟩

end
end Holds

private theorem aimPixel_mem (hW : 1 ≤ W) (hH : 1 ≤ H) (target : R × R) :
    aimPixel W H target ∈ Set.Icc ((0 : ℤ), (0 : ℤ)) (W - 1, H - 1) := by
  have hpixel {size : ℤ} (hsize : 1 ≤ size) (x : R) : pixel size x ∈ Set.Icc 0 (size - 1) :=
    ⟨le_max_left _ _, max_le (by omega) (min_le_left _ _)⟩
  exact ⟨⟨(hpixel hW _).1, (hpixel hH _).1⟩, (hpixel hW _).2, (hpixel hH _).2⟩

omit [Scalar R] in
private theorem meets_of_mem {a : ℤ × ℤ} (hscreen : a ∈ Set.Icc ((0 : ℤ), (0 : ℤ)) (W - 1, H - 1))
    (h : a ∈ Set.Icc w.lo w.hi) : w.Meets W H := by
  obtain ⟨⟨hleft, htop⟩, hright, hbottom⟩ := hscreen
  obtain ⟨⟨hlo, hlo'⟩, hhi, hhi'⟩ := h
  simp only at hleft htop hright hbottom
  unfold Meets
  omega

end Watch

/-- The cursor settles in a box that is watched: a position that is sent belongs to an aim on the
screen, and is near enough to the box when this meets the screen. -/
def settling (hpi : 0 < (Scalar.pi : R)) {W H : ℤ} (hW : 1 ≤ W) (hH : 1 ≤ H) :
    CursorRule R W H (Watch R) where
  Holds w c := w.Holds W H c
  Fits w now aim := now ≤ w.since ∨ aim ∈ Set.Icc w.lo w.hi
  Allows w now aim sent := ∀ p ∈ sent,
    (∃ a, aim = some a ∧ a ∈ Set.Icc ((0 : ℤ), (0 : ℤ)) (W - 1, H - 1)) ∧
      (w.Meets W H → w.Near W H now p)
  observe w _ := w
  observe_nil _ := rfl
  observe_append _ _ _ := rfl
  fits_observe h _ := h
  allows_nil _ _ _ := nofun
  allows_append h hmore p hp := (List.mem_append.mp hp).elim (h p) (hmore p)
  still h _ hf := h.still hf
  filters h v := h.updateFilterParams v
  move h target _ hx hy hfits :=
    have hmoved := h.moveMouse hpi hW hH hx hy hfits
    ⟨hmoved.1, fun p hp ↦ ⟨⟨_, rfl, Watch.aimPixel_mem hW hH target⟩, hmoved.2 p hp⟩⟩

private theorem holds_of_startLoop {sh : Shared R} {W H : ℤ} {s : LoopState R}
    (h : startLoop sh W H = .ok s) (w : Watch R) : w.Holds W H s.controller := by
  cases hv : sh.globals.suavVal.asFloat with
  | none =>
    obtain ⟨e, hexec, _⟩ := (PCController.blank W H).exec_updateFilterParams_none hv
    simp only [startLoop, hexec] at h
    cases h
  | some suavidad =>
    have hretuned := Watch.holds_retuned (w := w) (c := PCController.blank W H) rfl rfl hv
    rw [startLoop_fresh h]
    exact hretuned

/-- In every run, while all pixels aimed at lie in a box, the cursor is sent to pixels that come
nearer to the box at least like the inverse of the time since the last move before. -/
theorem cursor_settles (hpi : 0 < (Scalar.pi : R)) {W H : ℤ} (hW : 1 ≤ W) (hH : 1 ≤ H)
    (sh : Shared R) (ticks : List (Tick R)) {past stretch rest : List (Turn R)} {t : Turn R}
    (hrun : runVisionLoop sh W H ticks = past ++ stretch ++ t :: rest) (w : Watch R)
    (hsince : ∀ u ∈ past, ∀ now ∈ u.reading, now ≤ w.since)
    (haims : ∀ u ∈ stretch ++ [t], ∀ a ∈ u.aim W H, a ∈ Set.Icc w.lo w.hi) :
    ∀ now ∈ t.reading, ∀ p ∈ t.moves, w.Near W H now p := by
  intro now hnow p hp
  rcases runVisionLoop_cases sh W H ticks with hnil | ⟨s, hs, htrace⟩
  · rw [hnil] at hrun
    simp at hrun
  · rw [htrace] at hrun
    have hfits : ∀ u ∈ past ++ stretch, u.Fits (settling hpi hW hH) w := by
      intro u hu later hlater a ha
      rcases List.mem_append.mp hu with hold | hnew
      · exact .inl (hsince u hold later hlater)
      · exact .inr (haims u (List.mem_append_left _ hnew) a ha)
    obtain ⟨u, tick, _, hholds, hstep⟩ := visionMachine.exists_step_of_split
      (I := fun s ↦ w.Holds W H s.controller) (C := Turn.Fits (settling hpi hW hH) w) ticks
      (fun s tick _ next hs hfit hnext ↦ by
        obtain ⟨r, hr, hafter⟩ := visionMachine_next hnext
        have hkept := (visionMachine_ruled (settling hpi hW hH) hs tick hfit).1
        rw [hr] at hkept
        rw [← hafter]
        exact hkept)
      (holds_of_startLoop hs w) hrun hfits
    have hfit : t.Fits (settling hpi hW hH) w := fun later _ a ha ↦
      .inr (haims t (List.mem_append_right _ (List.mem_singleton_self t)) a ha)
    have hallows := (visionMachine_ruled (settling hpi hW hH) hholds tick (hstep ▸ hfit)).2
    rw [hstep] at hallows
    obtain ⟨⟨a, ha, hscreen⟩, hnear⟩ := hallows now hnow p hp
    refine hnear (Watch.meets_of_mem hscreen ?_)
    exact haims t (List.mem_append_right _ (List.mem_singleton_self t)) a ha

/-- A hand points to the middle, and then to the right for a while. -/
def pointAside : List (Tick ℚ) :=
  let pointer (x : ℚ) : List (DetectedHand ℚ) :=
    [⟨GestureAnalyzer.handPose ⟨true, false, false, false, false⟩ false x, "Right"⟩]
  [.seeing 10 (pointer (1 / 2)), .seeing 10.5 (pointer (7 / 10)), .seeing 14.5 (pointer (7 / 10))]

/-- The pixel that is pointed at, watched since the first move. -/
def asideWatch : Watch ℚ :=
  ⟨(509, 240), (509, 240), 10⟩

/-- The cursor has come to what is pointed at. -/
theorem cursor_settles_pointAside :
    ∃ t, (runVisionLoop Shared.online 640 480 pointAside)[2]? = some t ∧
      (t.reading, t.moves) = (some (14.5 : ℚ), [(509, 240)]) ∧
      ∀ now ∈ t.reading, ∀ p ∈ t.moves, asideWatch.Near 640 480 now p := by
  obtain ⟨t, hget, ht⟩ := Option.map_eq_some_iff.mp
    (show (runVisionLoop Shared.online 640 480 pointAside)[2]?.map
        (fun t ↦ ((t.reading, t.moves), t.aim 640 480)) =
        some ((some (14.5 : ℚ), [(509, 240)]), some (509, 240)) by
      decide +kernel)
  have hpi : (0 : ℚ) < Scalar.pi := by
    change (0 : ℚ) < 355 / 113
    norm_num
  have hsince : ∀ u ∈ ((runVisionLoop Shared.online 640 480 pointAside).take 2).take 1,
      ∀ now ∈ u.reading, now ≤ asideWatch.since := by
    decide +kernel
  have haims : ∀ u ∈ ((runVisionLoop Shared.online 640 480 pointAside).take 2).drop 1,
      ∀ a ∈ u.aim 640 480, a = (509, 240) := by
    decide +kernel
  obtain ⟨hmoves, haim⟩ := Prod.mk.inj ht
  refine ⟨t, hget, hmoves, ?_⟩
  apply cursor_settles hpi (by decide) (by decide) Shared.online pointAside
    ((eq_take_cons_drop hget).trans (by rw [List.take_append_drop])) asideWatch hsince
  intro u hu a ha
  suffices a = (509, 240) from this ▸ ⟨le_rfl, le_rfl⟩
  rcases List.mem_append.mp hu with hold | hlast
  · exact haims u hold a ha
  · rw [List.mem_singleton.mp hlast, haim] at ha
    exact (Option.mem_some_iff.mp ha).symm

end VisionGame.Vision
