import Mathlib.Data.Set.Prod
import Mathlib.Order.Interval.Set.Defs
import VisionGame.Vision.Loop

/-!
# How much of the screen the active zone covers

Library `Vision`. `src/mediapipe/app_gestures.py:444–470,512–525,652–691`. The zone is stretched to
the unit square, the square is scaled about its centre by the sensitivity and clamped to the
screen. The zone therefore covers a centred square, which is the whole screen when the gain is at
least 1.
-/

namespace VisionGame.Vision
open VisionGame.Base
open Effect Loop

variable {R : Type} [Scalar R]

/-! ### One coordinate -/

/-- A coordinate stretched from the zone, scaled about the centre and clamped to the screen. -/
def zoneMap (lo hi gain raw : R) : R :=
  max 0 (min 1 (0.5 + ((raw - lo) / (hi - lo) - 0.5) * gain))

/-- Between two different numbers the coordinate is computed, and nothing is written. -/
theorem exec_normalise_num {lo hi : R} (h : lo < hi) (raw : R) (s : LoopState R) :
    exec (normalise raw (.num lo) (.num hi)) s =
      (.ok (zoneMap lo hi s.shared.globals.scaleFactor raw), s) := by
  have hwidth : hi - lo ≠ 0 := (sub_pos.mpr h).ne'
  simp only [normalise, Json.asNumber, exec_bind, exec_orRaise_some, if_neg hwidth, exec_get,
    exec_pure]
  rfl

section
variable {lo hi gain : R} (h : lo < hi) (hgain : 0 < gain)
include h hgain

/-- A coordinate is monotone in the raw one. -/
theorem monotone_zoneMap : Monotone (zoneMap lo hi gain) := by
  intro raw raw' hle
  have hwidth : 0 < hi - lo := sub_pos.mpr h
  simp only [zoneMap]
  gcongr

/-- The interval between the ends of the zone is sent onto a centred interval. -/
theorem image_zoneMap :
    zoneMap lo hi gain '' Set.Icc lo hi =
      Set.Icc (max 0 ((1 - gain) / 2)) (min 1 ((1 + gain) / 2)) := by
  have hwidth : 0 < hi - lo := sub_pos.mpr h
  apply Set.Subset.antisymm
  · rintro q ⟨raw, ⟨hlow, hhigh⟩, rfl⟩
    have hpart : (raw - lo) / (hi - lo) ∈ Set.Icc (0 : R) 1 := by
      constructor
      · exact div_nonneg (sub_nonneg.mpr hlow) hwidth.le
      · rw [div_le_one hwidth]
        exact sub_le_sub_right hhigh lo
    have hbelow := mul_le_mul_of_nonneg_right hpart.1 hgain.le
    have habove := mul_le_mul_of_nonneg_right hpart.2 hgain.le
    simp only [zoneMap]
    constructor
    · apply max_le_max_left
      apply le_min
      · linarith
      · linarith
    · apply max_le
      · apply le_min zero_le_one
        linarith
      · apply min_le_min_left
        linarith
  · rintro q ⟨hlow, hhigh⟩
    have ⟨hzero, hleft⟩ := max_le_iff.mp hlow
    have ⟨hone, hright⟩ := le_min_iff.mp hhigh
    -- the raw coordinate whose part of the zone is scaled to `q`
    have hlower : -0.5 ≤ (q - 0.5) / gain := by
      rw [le_div_iff₀ hgain]
      linarith
    have hupper : (q - 0.5) / gain ≤ 0.5 := by
      rw [div_le_iff₀ hgain]
      linarith
    refine ⟨lo + ((q - 0.5) / gain + 0.5) * (hi - lo), ⟨?_, ?_⟩, ?_⟩
    · have hpart := mul_nonneg (a := (q - 0.5) / gain + 0.5) (by linarith) hwidth.le
      linarith
    · have hpart := mul_le_mul_of_nonneg_right (b := (q - 0.5) / gain + 0.5) (c := 1)
        (by linarith) hwidth.le
      linarith
    · have hback : 0.5 + ((lo + ((q - 0.5) / gain + 0.5) * (hi - lo) - lo) / (hi - lo) - 0.5) *
          gain = q := by
        rw [add_sub_cancel_left, mul_div_cancel_right₀ _ hwidth.ne', add_sub_cancel_right,
          div_mul_cancel₀ _ hgain.ne', add_sub_cancel]
      rw [zoneMap, hback, min_eq_right hone, max_eq_right hzero]

end

/-! ### The screen -/

/-- The zone and the gain of a sensitivity are in force. -/
structure InForce (g : Globals R) (xMin xMax yMin yMax sens : R) : Prop where
  zoneXMin : g.zoneXMin = .num xMin
  zoneXMax : g.zoneXMax = .num xMax
  zoneYMin : g.zoneYMin = .num yMin
  zoneYMax : g.zoneYMax = .num yMax
  scaleFactor : g.scaleFactor = scaleOf sens

/-- A zone in the image that the calibration accepts, and a sensitivity of the slider;
`python-settings.tsx:126–132`. -/
structure Offered (xMin xMax yMin yMax sens : R) : Prop where
  accepted : ¬ zoneTooSmall xMin xMax yMin yMax
  xInside : 0 ≤ xMin ∧ xMax ≤ 1
  yInside : 0 ≤ yMin ∧ yMax ≤ 1
  slider : 1 ≤ sens ∧ sens ≤ 5

/-- Both coordinates of the cursor are monotone on the zone, and together they reach exactly the
positions of a square of the screen. -/
def MapsOnto (s : LoopState R) (xMin xMax yMin yMax low high : R) : Prop :=
  ∃ f g : R → R, (∀ a, exec (cursorTarget a) s = (.ok (f a.cursorX, g a.cursorY), s)) ∧
    MonotoneOn f (Set.Icc xMin xMax) ∧ MonotoneOn g (Set.Icc yMin yMax) ∧
    Prod.map f g '' (Set.Icc xMin xMax ×ˢ Set.Icc yMin yMax) = Set.Icc low high ×ˢ Set.Icc low high

/-- Both sides of an offered zone have a width, and an offered gain is positive. -/
theorem Offered.pos {xMin xMax yMin yMax sens : R} (h : Offered xMin xMax yMin yMax sens) :
    xMin < xMax ∧ yMin < yMax ∧ 0 < scaleOf sens := by
  have ⟨hx, hy⟩ := not_or.mp h.accepted
  rw [not_lt] at hx hy
  have hsens := h.slider.1
  refine ⟨by linarith, by linarith, ?_⟩
  simp only [scaleOf]
  linarith

/-- The gain is at least 1 from a sensitivity of 50/13 on. -/
theorem one_le_scaleOf_iff (sens : R) : 1 ≤ scaleOf sens ↔ 50 / 13 ≤ sens := by
  simp only [scaleOf]
  constructor
  · intro h
    linarith
  · intro h
    linarith

section
variable {s : LoopState R} {xMin xMax yMin yMax sens : R}
  (hforce : InForce s.shared.globals xMin xMax yMin yMax sens)
  (hoffered : Offered xMin xMax yMin yMax sens)
include hforce hoffered

/-- Each coordinate of the cursor is mapped on its own. -/
theorem exec_cursorTarget_inForce (a : Analysis R) :
    exec (cursorTarget a) s =
      (.ok (zoneMap xMin xMax (scaleOf sens) a.cursorX,
        zoneMap yMin yMax (scaleOf sens) a.cursorY), s) := by
  have ⟨hx, hy, _⟩ := hoffered.pos
  simp only [cursorTarget, exec_bind, exec_get, hforce.zoneXMin, hforce.zoneXMax, hforce.zoneYMin,
    hforce.zoneYMax, exec_normalise_num hx, exec_normalise_num hy, hforce.scaleFactor, exec_pure]

/-- The zone is mapped onto a centred square. -/
theorem mapsOnto_square :
    MapsOnto s xMin xMax yMin yMax (max 0 ((1 - scaleOf sens) / 2))
      (min 1 ((1 + scaleOf sens) / 2)) := by
  have ⟨hx, hy, hgain⟩ := hoffered.pos
  refine ⟨_, _, exec_cursorTarget_inForce hforce hoffered, (monotone_zoneMap hx hgain).monotoneOn _,
    (monotone_zoneMap hy hgain).monotoneOn _, ?_⟩
  change (fun p : R × R ↦ (_, _)) '' _ = _
  rw [← Set.prod_image_image_eq, image_zoneMap hx hgain, image_zoneMap hy hgain]

/-- The square is the whole screen exactly from a sensitivity of 50/13 on. -/
theorem mapsOnto_screen_iff : MapsOnto s xMin xMax yMin yMax 0 1 ↔ 50 / 13 ≤ sens := by
  have ⟨hx, hy, hgain⟩ := hoffered.pos
  rw [← one_le_scaleOf_iff]
  constructor
  · rintro ⟨f, g, hexec, _, _, himage⟩
    have hcorner : ((0 : R), (0 : R)) ∈ Set.Icc (0 : R) 1 ×ˢ Set.Icc (0 : R) 1 :=
      ⟨Set.left_mem_Icc.mpr zero_le_one, Set.left_mem_Icc.mpr zero_le_one⟩
    rw [← himage] at hcorner
    have ⟨p, ⟨hp, _⟩, hpair⟩ := hcorner
    -- the corner is the position of some hand, which the scaled square does not reach
    have hhand := hexec ⟨.pointer, some .moveMouse, p.1, p.2, 0, 0⟩
    rw [exec_cursorTarget_inForce hforce hoffered] at hhand
    have hzero : zoneMap xMin xMax (scaleOf sens) p.1 = 0 := by
      have hfst := congrArg Prod.fst (Except.ok.inj (Prod.mk.inj hhand).1)
      exact hfst.trans (Prod.mk.inj hpair).1
    have hmem := Set.mem_image_of_mem (zoneMap xMin xMax (scaleOf sens)) hp
    rw [image_zoneMap hx hgain, hzero] at hmem
    have hlow := (max_le_iff.mp hmem.1).2
    linarith
  · intro hone
    have hlow : max 0 ((1 - scaleOf sens) / 2) = 0 := max_eq_left (by linarith)
    have hhigh : min 1 ((1 + scaleOf sens) / 2) = 1 := min_eq_left (by linarith)
    have hsquare := mapsOnto_square hforce hoffered
    rw [hlow, hhigh] at hsquare
    exact hsquare

/-- The zone is mapped monotonically onto a centred square, which is the whole screen exactly
from a sensitivity of 50/13 on. -/
theorem zone_covers_square :
    MapsOnto s xMin xMax yMin yMax (max 0 ((1 - scaleOf sens) / 2))
        (min 1 ((1 + scaleOf sens) / 2)) ∧
      (MapsOnto s xMin xMax yMin yMax 0 1 ↔ 50 / 13 ≤ sens) :=
  ⟨mapsOnto_square hforce hoffered, mapsOnto_screen_iff hforce hoffered⟩

end

/-- Variables of a loop with the default settings. -/
def defaultLoop : LoopState ℚ := .fresh .online (.blank 640 480)

/-- The default zone and sensitivity are in force, and offered. -/
theorem defaultLoop_offered : InForce defaultLoop.shared.globals 0.2 0.8 0.2 0.8 3 ∧
    Offered (0.2 : ℚ) 0.8 0.2 0.8 3 := by
  constructor
  · exact ⟨rfl, rfl, rfl, rfl, rfl⟩
  · constructor
    · decide +kernel
    · norm_num
    · norm_num
    · norm_num

/-- The default zone is mapped onto a square that leaves a margin. -/
theorem zone_covers_square_default :
    MapsOnto defaultLoop 0.2 0.8 0.2 0.8 (max 0 ((1 - scaleOf 3) / 2))
        (min 1 ((1 + scaleOf 3) / 2)) ∧
      (MapsOnto defaultLoop 0.2 0.8 0.2 0.8 0 1 ↔ (50 / 13 : ℚ) ≤ 3) :=
  zone_covers_square defaultLoop_offered.1 defaultLoop_offered.2

/-- With the default zone and sensitivity the corners of the screen are out of reach. -/
theorem zone_covers_screen_fails :
    InForce defaultLoop.shared.globals 0.2 0.8 0.2 0.8 3 ∧ Offered (0.2 : ℚ) 0.8 0.2 0.8 3 ∧
      ¬ MapsOnto defaultLoop 0.2 0.8 0.2 0.8 0 1 := by
  have ⟨hforce, hoffered⟩ := defaultLoop_offered
  refine ⟨hforce, hoffered, ?_⟩
  rw [mapsOnto_screen_iff hforce hoffered]
  norm_num

end VisionGame.Vision
