import Mathlib.Analysis.Convex.Basic
import Mathlib.Analysis.Normed.Affine.AddTorsor
import Mathlib.Topology.MetricSpace.HausdorffDistance
import VisionGame.Base.Scalar

/-!
# Distance from a segment of the plane

Library `Base`. The line through two points is parametrised by `AffineMap.lineMap`. The
squared distance from a point is a parabola in the parameter, with its vertex at the
projection of the point; clamped to the unit interval, the vertex gives the nearest point of
the segment. Ordered points of a segment divide it into pieces that make it up. A last rule says how
far a move along a segment that ends in a convex set leaves one from the set.
-/

namespace VisionGame.Base

/-- Squared distance in the plane. -/
def sqDist (p q : ℝ × ℝ) : ℝ := (p.1 - q.1) * (p.1 - q.1) + (p.2 - q.2) * (p.2 - q.2)

/-- A square distance is not negative. -/
theorem sqDist_nonneg (p q : ℝ × ℝ) : 0 ≤ sqDist p q :=
  add_nonneg (mul_self_nonneg _) (mul_self_nonneg _)

/-- Only a point itself is at distance zero from it. -/
theorem sqDist_eq_zero_iff (p q : ℝ × ℝ) : sqDist p q = 0 ↔ p = q := by
  simp only [sqDist]
  rw [mul_self_add_mul_self_eq_zero, sub_eq_zero, sub_eq_zero, Prod.ext_iff]

/-- Parameter of the projection of a point on the line from `a` to `b`. -/
noncomputable def projection (p a b : ℝ × ℝ) : ℝ :=
  ((p.1 - a.1) * (b.1 - a.1) + (p.2 - a.2) * (b.2 - a.2)) / sqDist b a

/-- Parameter clamped to the unit interval. -/
def clampUnit (t : ℝ) : ℝ := max 0 (min 1 t)

/-- A clamped number lies in the unit interval. -/
theorem clampUnit_mem (t : ℝ) : clampUnit t ∈ Set.Icc (0 : ℝ) 1 :=
  ⟨le_max_left _ _, max_le zero_le_one (min_le_left _ _)⟩

/-- In the unit interval no parameter is nearer to `c` than the clamped one. -/
theorem sq_sub_clampUnit_le {t : ℝ} (ht : t ∈ Set.Icc (0 : ℝ) 1) (c : ℝ) :
    (clampUnit c - c) * (clampUnit c - c) ≤ (t - c) * (t - c) := by
  have ⟨h0, h1⟩ := ht
  rcases le_total c 0 with hlow | hlow
  · have hclamp : clampUnit c = 0 := by
      simp only [clampUnit]
      rw [min_eq_right (hlow.trans zero_le_one), max_eq_left hlow]
    rw [hclamp]
    nlinarith
  · rcases le_total 1 c with hhigh | hhigh
    · have hclamp : clampUnit c = 1 := by
        simp only [clampUnit]
        rw [min_eq_left hhigh, max_eq_right zero_le_one]
      rw [hclamp]
      nlinarith
    · have hclamp : clampUnit c = c := by
        simp only [clampUnit]
        rw [min_eq_right hhigh, max_eq_right hlow]
      rw [hclamp, sub_self, mul_zero]
      exact mul_self_nonneg _

/-- The squared distance from a point is a parabola in the parameter of the line. -/
theorem sqDist_lineMap (p : ℝ × ℝ) {a b : ℝ × ℝ} (h : a ≠ b) (t : ℝ) :
    sqDist p (AffineMap.lineMap a b t) =
      sqDist b a * ((t - projection p a b) * (t - projection p a b)) +
        (sqDist p a - sqDist b a * (projection p a b * projection p a b)) := by
  have hlen : sqDist b a ≠ 0 := fun hzero ↦ h ((sqDist_eq_zero_iff b a).mp hzero).symm
  have hdot : sqDist b a * projection p a b =
      (p.1 - a.1) * (b.1 - a.1) + (p.2 - a.2) * (b.2 - a.2) := mul_div_cancel₀ _ hlen
  have hexpand : sqDist p (AffineMap.lineMap a b t) =
      sqDist p a - 2 * t * ((p.1 - a.1) * (b.1 - a.1) + (p.2 - a.2) * (b.2 - a.2)) +
        t * t * sqDist b a := by
    simp only [sqDist, AffineMap.lineMap_apply, vsub_eq_sub, vadd_eq_add, Prod.fst_add,
      Prod.snd_add, Prod.smul_fst, Prod.smul_snd, Prod.fst_sub, Prod.snd_sub, smul_eq_mul]
    ring
  rw [hexpand, ← hdot]
  ring

/-- The clamped projection is a nearest point of the segment. -/
theorem sqDist_nearest_le (p : ℝ × ℝ) {a b q : ℝ × ℝ} (h : a ≠ b) (hq : q ∈ segment ℝ a b) :
    sqDist p (AffineMap.lineMap a b (clampUnit (projection p a b))) ≤ sqDist p q := by
  rw [segment_eq_image_lineMap] at hq
  have ⟨t, ht, hline⟩ := hq
  rw [← hline, sqDist_lineMap p h, sqDist_lineMap p h]
  have hnear := sq_sub_clampUnit_le ht (projection p a b)
  have hscaled := mul_le_mul_of_nonneg_left hnear (sqDist_nonneg b a)
  linarith

/-- The clamped projection is a point of the segment. -/
theorem nearest_mem_segment (p a b : ℝ × ℝ) :
    AffineMap.lineMap a b (clampUnit (projection p a b)) ∈ segment ℝ a b := by
  rw [segment_eq_image_lineMap]
  exact Set.mem_image_of_mem _ (clampUnit_mem _)

/-- A segment comes within some distance of a point exactly when its clamped projection
does. -/
theorem nearest_le_iff (p : ℝ × ℝ) {a b : ℝ × ℝ} (h : a ≠ b) (r : ℝ) :
    √(sqDist p (AffineMap.lineMap a b (clampUnit (projection p a b)))) ≤ r ↔
      ∃ q ∈ segment ℝ a b, √(sqDist p q) ≤ r := by
  constructor
  · intro hr
    exact ⟨_, nearest_mem_segment p a b, hr⟩
  · rintro ⟨q, hq, hr⟩
    exact (Real.sqrt_le_sqrt (sqDist_nearest_le p h hq)).trans hr

/-! ### Pieces of a segment -/

section
variable {E : Type} [AddCommGroup E] [Module ℝ E]

/-- The pieces between consecutive points, the first of them from another point. -/
def pieces (prev : E) : List E → Set E
  | [] => ∅
  | p :: ps => segment ℝ prev p ∪ pieces p ps

/-- The part of a line between two parameters is the segment between their points. -/
theorem lineMap_image_Icc (a b : E) {t u : ℝ} (h : t ≤ u) :
    AffineMap.lineMap a b '' Set.Icc t u =
      segment ℝ (AffineMap.lineMap a b t) (AffineMap.lineMap a b u) := by
  rw [← segment_eq_Icc h, image_segment]

/-- The last of some ordered numbers is at least the first. -/
theorem le_getLastD {t : ℝ} {ts : List ℝ} (h : (t :: ts).Pairwise (· ≤ ·)) :
    t ≤ ts.getLastD t := by
  rcases List.mem_cons.mp (List.getLastD_mem_cons (l := ts) (a := t)) with heq | hmem
  · rw [heq]
  · exact (List.pairwise_cons.mp h).1 _ hmem

/-- Pieces between ordered points of a line, from the first one to itself on, make up the segment
from the first point to the last one. -/
theorem pieces_lineMap (a b : E) {t : ℝ} {ts : List ℝ} (h : (t :: ts).Pairwise (· ≤ ·)) :
    pieces (AffineMap.lineMap a b t) ((t :: ts).map (AffineMap.lineMap a b)) =
      segment ℝ (AffineMap.lineMap a b t) (AffineMap.lineMap a b (ts.getLastD t)) := by
  induction ts generalizing t with
  | nil =>
    simp only [List.map_cons, List.map_nil, pieces, Set.union_empty, List.getLastD_nil]
  | cons u us ih =>
    have ⟨hfirst, hrest⟩ := List.pairwise_cons.mp h
    have htu : t ≤ u := hfirst u List.mem_cons_self
    have hlast : u ≤ us.getLastD u := le_getLastD hrest
    -- the degenerate first pieces only add points that the next ones contain
    have hstart : segment ℝ (AffineMap.lineMap a b t) (AffineMap.lineMap a b t) ⊆
        segment ℝ (AffineMap.lineMap a b t) (AffineMap.lineMap a b u) := by
      rw [segment_same, Set.singleton_subset_iff]
      exact left_mem_segment ℝ _ _
    have hpoint : segment ℝ (AffineMap.lineMap a b u) (AffineMap.lineMap a b u) ⊆
        segment ℝ (AffineMap.lineMap a b t) (AffineMap.lineMap a b u) := by
      rw [segment_same, Set.singleton_subset_iff]
      exact right_mem_segment ℝ _ _
    have hih := ih hrest
    simp only [List.map_cons, pieces] at hih ⊢
    rw [← lineMap_image_Icc a b hlast] at hih
    rw [List.getLastD_cons, ← lineMap_image_Icc a b (htu.trans hlast),
      ← Set.Icc_union_Icc_eq_Icc htu hlast, Set.image_union, ← hih, lineMap_image_Icc a b htu,
      ← Set.union_assoc, Set.union_eq_self_of_subset_left hstart, ← Set.union_assoc,
      Set.union_eq_self_of_subset_right hpoint]

end

/-! ### Moves toward a convex set -/

/-- A move toward a point of a convex set leaves at most the rest of the distance. -/
theorem infDist_lineMap_le {E : Type} [NormedAddCommGroup E] [NormedSpace ℝ E] {I : Set E}
    (hI : Convex ℝ I) (p : E) {x : E} (hx : x ∈ I) {a : ℝ} (ha : a ∈ Set.Ioo (0 : ℝ) 1) :
    Metric.infDist (AffineMap.lineMap p x a) I ≤ (1 - a) * Metric.infDist p I := by
  have hrest : 0 < 1 - a := sub_pos.mpr ha.2
  rw [← div_le_iff₀' hrest, Metric.le_infDist ⟨x, hx⟩]
  intro y hy
  rw [div_le_iff₀' hrest]
  have hmem : AffineMap.lineMap y x a ∈ I := hI.lineMap_mem hy hx ⟨ha.1.le, ha.2.le⟩
  have hdist : dist (AffineMap.lineMap p x a) (AffineMap.lineMap y x a) = (1 - a) * dist p y := by
    have hsub : AffineMap.lineMap p x a - AffineMap.lineMap y x a = (1 - a) • (p - y) := by
      rw [AffineMap.lineMap_apply_module, AffineMap.lineMap_apply_module, add_sub_add_right_eq_sub,
        smul_sub]
    rw [dist_eq_norm, hsub, norm_smul, Real.norm_of_nonneg hrest.le, dist_eq_norm]
  rw [← hdist]
  exact Metric.infDist_le_dist_of_mem hmem

end VisionGame.Base
