import VisionGame.Game.Strokes

/-!
# The geometry of a cut

Library `Game`. `components/FruitNinjaGame.tsx:82–89,456–468,526–604`. The loop over the fruits is
known in closed form, so that several calls of `checkCollisions` are one call whose test is the
disjunction of theirs. Over the reals the tests of the pieces of a segment together are the test
of the segment.
-/

namespace VisionGame.Game
open VisionGame.Base

variable {R : Type} [Scalar R]

/-! ### The loop in closed form -/

namespace GameState

omit [Scalar R] in
/-- Counting a cut commutes with a change of the fruits. -/
theorem commute_countCut_fruits (fruits : List (Fruit R)) :
    Function.Commute countCut fun s : GameState R ↦ { s with fruits := fruits } := by
  intro s
  simp only [countCut, handleGameWin]
  split <;> rfl

omit [Scalar R] in
private theorem commute_countCut_trail (trail : List (TrailPoint R)) :
    Function.Commute countCut fun s : GameState R ↦ { s with trail := trail } := by
  intro s
  simp only [countCut, handleGameWin]
  split <;> rfl

omit [Scalar R] in
/-- Counting cuts leaves the fruits alone. -/
@[simp] theorem iterate_countCut_fruits (n : ℕ) (s : GameState R) :
    (countCut^[n] s).fruits = s.fruits := by
  have h := congrArg GameState.fruits ((commute_countCut_fruits s.fruits).iterate_left n s)
  exact h

omit [Scalar R] in
/-- Cuts are counted in the score and in the stroke. -/
theorem iterate_countCut_counts (n : ℕ) (s : GameState R) :
    (countCut^[n] s).score = s.score + n ∧
      (countCut^[n] s).slicedInStrokeCount = s.slicedInStrokeCount + n := by
  induction n with
  | zero => exact ⟨rfl, rfl⟩
  | succ n ih =>
    have hone (t : GameState R) : t.countCut.score = t.score + 1 ∧
        t.countCut.slicedInStrokeCount = t.slicedInStrokeCount + 1 := by
      simp only [countCut, handleGameWin]
      split <;> exact ⟨rfl, rfl⟩
    rw [Function.iterate_succ_apply', (hone _).1, (hone _).2, ih.1, ih.2]
    exact ⟨rfl, rfl⟩

private theorem visit_eq (hits : Fruit R → Bool) (s : GameState R) (fruit : Fruit R) :
    s.visit hits fruit =
      { countCut^[if fruit.isCut hits then 1 else 0] s with
        fruits := s.fruits ++ [fruit.sliceIf hits] } := by
  have hkept : s.countCut.fruits = s.fruits := iterate_countCut_fruits 1 s
  unfold visit Fruit.sliceIf Fruit.isCut
  cases hsliced : fruit.isSliced with
  | true => simp
  | false =>
    cases hhit : hits fruit with
    | false => simp
    | true => simp [hkept]

/-- The loop over the fruits cuts what is whole and hit, and counts the cuts. -/
theorem sliceWhere_eq (hits : Fruit R → Bool) (s : GameState R) :
    s.sliceWhere hits =
      { countCut^[cuts hits s.fruits] s with fruits := s.fruits.map (Fruit.sliceIf hits) } := by
  have hloop (fruits : List (Fruit R)) (t : GameState R) :
      fruits.foldl (visit hits) t =
        { countCut^[cuts hits fruits] t with
          fruits := t.fruits ++ fruits.map (Fruit.sliceIf hits) } := by
    induction fruits generalizing t with
    | nil => simp [cuts]
    | cons fruit fruits ih =>
      have hcuts : cuts hits (fruit :: fruits) =
          cuts hits fruits + if fruit.isCut hits then 1 else 0 := List.countP_cons
      have hcommute := (commute_countCut_fruits (t.fruits ++ [fruit.sliceIf hits])).iterate_left
        (cuts hits fruits) (countCut^[if fruit.isCut hits then 1 else 0] t)
      rw [List.foldl_cons, ih, visit_eq, hcommute, hcuts, Function.iterate_add_apply,
        List.map_cons, List.append_assoc, List.singleton_append]
  have hempty := (commute_countCut_fruits []).iterate_left (cuts hits s.fruits) s
  rw [sliceWhere, hloop, hempty, List.nil_append]

private theorem sliceWhere_sliceWhere (hits next : Fruit R → Bool) (s : GameState R) :
    (s.sliceWhere hits).sliceWhere next = s.sliceWhere fun fruit ↦ hits fruit || next fruit := by
  have hmap : (s.fruits.map (Fruit.sliceIf hits)).map (Fruit.sliceIf next) =
      s.fruits.map (Fruit.sliceIf fun fruit ↦ hits fruit || next fruit) := by
    rw [List.map_map]
    exact List.map_congr_left fun fruit _ ↦ Fruit.sliceIf_sliceIf hits next fruit
  have hcommute := (commute_countCut_fruits (s.fruits.map (Fruit.sliceIf hits))).iterate_left
    (cuts next (s.fruits.map (Fruit.sliceIf hits))) (countCut^[cuts hits s.fruits] s)
  rw [sliceWhere_eq hits, sliceWhere_eq next, sliceWhere_eq]
  dsimp only
  rw [hcommute, hmap, ← Function.iterate_add_apply, Nat.add_comm, cuts_add]

private theorem sliceWhere_false (s : GameState R) : s.sliceWhere (fun _ ↦ false) = s := by
  have hnone : Fruit.sliceIf (fun _ ↦ false) = (id : Fruit R → Fruit R) := by
    funext fruit
    simp [Fruit.sliceIf, Fruit.isCut]
  rw [sliceWhere_eq, cuts_false, hnone, List.map_id, Function.iterate_zero_apply]

/-- Calls of `checkCollisions` for some points in turn, each from the point before it. -/
def checkAlong (prev : Point R) : List (Point R) → GameState R → GameState R
  | [], s => s
  | p :: ps, s => checkAlong p ps (s.checkCollisions p.x p.y (some prev))

/-- What these calls hit. -/
def alongHits (prev : Point R) : List (Point R) → Fruit R → Bool
  | [], _ => false
  | p :: ps, fruit => fruit.hitBy p.x p.y (some prev) || alongHits p ps fruit

/-- Calls in turn are one loop that hits what any of them hits. -/
theorem checkAlong_eq (prev : Point R) (points : List (Point R)) (s : GameState R) :
    checkAlong prev points s = s.sliceWhere (alongHits prev points) := by
  induction points generalizing prev s with
  | nil => exact (sliceWhere_false s).symm
  | cons p points ih => rw [checkAlong, ih, checkCollisions, sliceWhere_sliceWhere]; rfl

/-- The loop over the fruits commutes with a change of the trail. -/
theorem sliceWhere_trail (hits : Fruit R → Bool) (trail : List (TrailPoint R)) (s : GameState R) :
    { s with trail := trail }.sliceWhere hits = { s.sliceWhere hits with trail := trail } := by
  have h := (commute_countCut_trail trail).iterate_left (cuts hits s.fruits) s
  rw [sliceWhere_eq, sliceWhere_eq, h]

private theorem sweep_eq (prev : Point R) (points : List (TrailPoint R)) (s : GameState R) :
    sweep prev points s =
      { checkAlong prev (points.map TrailPoint.toPoint) s with trail := s.trail ++ points } := by
  induction points generalizing prev s with
  | nil => simp [sweep, checkAlong]
  | cons p points ih =>
    rw [sweep, ih, checkCollisions, sliceWhere_trail, List.map_cons, checkAlong, checkAlong_eq,
      checkAlong_eq, sliceWhere_trail, checkCollisions]
    simp only [List.append_assoc, List.singleton_append]

end GameState

/-! ### Subdivisions of a segment -/

/-- Point at a part of the way from one point to another; `FruitNinjaGame.tsx:461–463`. -/
def Point.along (a b : Point R) (t : R) : Point R :=
  ⟨a.x + (b.x - a.x) * t, a.y + (b.y - a.y) * t⟩

/-- The points lie in order on the way from one point to another, from end to end. -/
structure Subdivides (points : List (Point R)) (a b : Point R) : Prop where
  first : points.head? = some a
  last : points.getLast? = some b
  ordered : ∃ ts : List R, points = ts.map (a.along b) ∧ ts.Pairwise (· ≤ ·) ∧
    ∀ t ∈ ts, t ∈ Set.Icc (0 : R) 1

private theorem Point.pair_along (a b : Point ℝ) (t : ℝ) :
    (a.along b t).pair = AffineMap.lineMap a.pair b.pair t := by
  rw [AffineMap.lineMap_apply]
  ext
  · simp only [pair, along, vsub_eq_sub, vadd_eq_add, Prod.fst_add, Prod.smul_fst, Prod.fst_sub,
      smul_eq_mul]
    ring
  · simp only [pair, along, vsub_eq_sub, vadd_eq_add, Prod.snd_add, Prod.smul_snd, Prod.snd_sub,
      smul_eq_mul]
    ring

private theorem Subdivides.pieces_eq {points : List (Point ℝ)} {a b : Point ℝ}
    (h : Subdivides points a b) :
    pieces a.pair (points.map Point.pair) = segment ℝ a.pair b.pair := by
  have ⟨ts, hpoints, hsorted, _⟩ := h.ordered
  have hfirst := h.first
  have hlast := h.last
  have hpairs : points.map Point.pair = ts.map (AffineMap.lineMap a.pair b.pair) := by
    rw [hpoints, List.map_map]
    exact List.map_congr_left fun t _ ↦ Point.pair_along a b t
  cases ts with
  | nil =>
    rw [hpoints] at hfirst
    cases hfirst
  | cons t ts =>
    rw [hpoints, List.map_cons, List.head?_cons, Option.some.injEq] at hfirst
    rw [hpoints, List.getLast?_map, List.getLast?_cons, Option.map_some, Option.some.injEq] at hlast
    have hstart : AffineMap.lineMap a.pair b.pair t = a.pair := by
      rw [← Point.pair_along, hfirst]
    have hend : AffineMap.lineMap a.pair b.pair (ts.getLastD t) = b.pair := by
      rw [← Point.pair_along, List.getLastD_eq_getLast?, hlast]
    have hwhole := pieces_lineMap a.pair b.pair hsorted
    rw [hstart, hend, ← hpairs] at hwhole
    exact hwhole

/-- Calls in turn hit what is within reach of their pieces. -/
theorem alongHits_iff (prev : Point ℝ) (points : List (Point ℝ)) (fruit : Fruit ℝ) :
    GameState.alongHits prev points fruit = true ↔
      fruit.Within (pieces prev.pair (points.map Point.pair)) := by
  induction points generalizing prev with
  | nil => simp [GameState.alongHits, pieces, Fruit.Within]
  | cons p points ih =>
    simp only [GameState.alongHits, List.map_cons, pieces, Bool.or_eq_true]
    rw [ih, hitBy_some_iff]
    simp only [Fruit.Within, Set.mem_union, or_and_right, exists_or]

/-- Calls on a subdivision of a segment are one call on the segment. -/
theorem checkAlong_subdivision {points : List (Point ℝ)} {a b : Point ℝ}
    (h : Subdivides points a b) (s : GameState ℝ) :
    GameState.checkAlong a points s = s.checkCollisions b.x b.y (some a) := by
  have hhits : GameState.alongHits a points = Fruit.hitBy b.x b.y (some a) := by
    funext fruit
    rw [Bool.eq_iff_iff, alongHits_iff, h.pieces_eq, hitBy_some_iff]
  rw [GameState.checkAlong_eq, GameState.checkCollisions, hhits]

private theorem subdivides_swipePoints (ends : Point ℝ × Point ℝ) (clock : ℕ → ℝ) :
    Subdivides ((GameState.swipePoints ends clock).map TrailPoint.toPoint) ends.1 ends.2 := by
  have hpoints : (GameState.swipePoints ends clock).map TrailPoint.toPoint =
      ((List.range 11).map fun i : ℕ ↦ (i : ℝ) / 10).map (ends.1.along ends.2) := by
    rw [GameState.swipePoints, List.map_map, List.map_map]
    rfl
  rw [hpoints]
  constructor
  · simp [List.range_succ, Point.along]
  · simp [List.range_succ, Point.along]
  · refine ⟨_, rfl, ?_, ?_⟩
    · rw [List.pairwise_map]
      refine List.pairwise_lt_range.imp ?_
      intro i j hij
      gcongr
    · intro t ht
      have ⟨i, hi, heq⟩ := List.mem_map.mp ht
      have hle : (i : ℝ) ≤ 10 := by exact_mod_cast Nat.le_of_lt_succ (List.mem_range.mp hi)
      rw [← heq]
      exact ⟨by positivity, (div_le_one (by norm_num)).mpr hle⟩

/-- A swipe cuts like one call along its whole stroke. -/
theorem triggerSwipeSlice_eq (direction : GameState.Direction) (rx ry : ℝ) (clock : ℕ → ℝ)
    {s : GameState ℝ} (h : (!s.gameActive || !s.canvas) = false) :
    let ends := GameState.swipeEnds direction rx ry
    s.triggerSwipeSlice direction rx ry clock =
      ({ s with
          slicedInStrokeCount := 0
          trail := s.trail ++ GameState.swipePoints ends clock }.checkCollisions
        ends.2.x ends.2.y (some ends.1)).playCombo := by
  intro ends
  have hsweep := GameState.sweep_eq ends.1 (GameState.swipePoints ends clock)
    { s with slicedInStrokeCount := 0 }
  rw [checkAlong_subdivision (subdivides_swipePoints ends clock), GameState.checkCollisions,
    ← GameState.sliceWhere_trail] at hsweep
  rw [GameState.triggerSwipeSlice, h, if_neg Bool.false_ne_true]
  exact congrArg GameState.playCombo hsweep

/-! ### The distance from a segment -/

/-- `distToSegment` is the least distance from a point of the segment. -/
theorem distToSegment_isLeast (p a b : Point ℝ) :
    IsLeast ((fun q ↦ √(sqDist p.pair q)) '' segment ℝ a.pair b.pair)
      (distToSegment p.x p.y a.x a.y b.x b.y) := by
  by_cases h : a.pair = b.pair
  · have hx : a.x = b.x := congrArg Prod.fst h
    have hy : a.y = b.y := congrArg Prod.snd h
    have hlen : (b.x - a.x) * (b.x - a.x) + (b.y - a.y) * (b.y - a.y) = 0 := by
      rw [hx, hy, sub_self, sub_self, mul_zero, add_zero]
    rw [distToSegment, if_pos hlen, h, segment_same, Set.image_singleton, hx, hy]
    exact isLeast_singleton
  · rw [distToSegment_eq p a b h]
    constructor
    · exact Set.mem_image_of_mem _ (nearest_mem_segment p.pair a.pair b.pair)
    · rintro d ⟨q, hq, rfl⟩
      exact Real.sqrt_le_sqrt (sqDist_nearest_le p.pair h hq)

/-- The fruit is whole and its centre is within reach of some point of the segment. -/
def Fruit.CutBy (a b : Point ℝ) (fruit : Fruit ℝ) : Prop :=
  fruit.isSliced = false ∧ fruit.Within (segment ℝ a.pair b.pair)

/-- A call on a segment cuts what is whole and within reach of it. -/
theorem isCut_hitBy_iff (a b : Point ℝ) (fruit : Fruit ℝ) :
    fruit.isCut (Fruit.hitBy b.x b.y (some a)) = true ↔ fruit.CutBy a b := by
  rw [Fruit.isCut, Bool.and_eq_true, hitBy_some_iff, Bool.not_eq_true', Fruit.CutBy]

open Classical in
/-- The distance from a segment is the least one, and calls on any subdivision of a segment cut
exactly the whole fruits within reach of it, count each of them once, and do what one call on the
segment does. -/
theorem cut_geometry :
    (∀ p a b : Point ℝ, IsLeast ((fun q ↦ √(sqDist p.pair q)) '' segment ℝ a.pair b.pair)
      (distToSegment p.x p.y a.x a.y b.x b.y)) ∧
    ∀ (s : GameState ℝ) (a b : Point ℝ) (points : List (Point ℝ)), Subdivides points a b →
      (GameState.checkAlong a points s).fruits =
          s.fruits.map (fun fruit ↦ if fruit.CutBy a b then fruit.slice else fruit) ∧
        (GameState.checkAlong a points s).score =
          s.score + s.fruits.countP (fun fruit ↦ decide (fruit.CutBy a b)) ∧
        (GameState.checkAlong a points s).slicedInStrokeCount =
          s.slicedInStrokeCount + s.fruits.countP (fun fruit ↦ decide (fruit.CutBy a b)) ∧
        GameState.checkAlong a points s = s.checkCollisions b.x b.y (some a) := by
  refine ⟨distToSegment_isLeast, ?_⟩
  intro s a b points h
  have hcut : (fun fruit : Fruit ℝ ↦ fruit.isCut (Fruit.hitBy b.x b.y (some a))) =
      fun fruit ↦ decide (fruit.CutBy a b) := by
    funext fruit
    rw [Bool.eq_iff_iff, decide_eq_true_iff]
    exact isCut_hitBy_iff a b fruit
  have hcuts : cuts (Fruit.hitBy b.x b.y (some a)) s.fruits =
      s.fruits.countP fun fruit ↦ decide (fruit.CutBy a b) := by
    rw [cuts, ← hcut]
  have hslice : Fruit.sliceIf (Fruit.hitBy b.x b.y (some a)) =
      fun fruit : Fruit ℝ ↦ if fruit.CutBy a b then fruit.slice else fruit := by
    funext fruit
    simp only [Fruit.sliceIf, isCut_hitBy_iff]
  obtain ⟨hscore, hstroke⟩ := GameState.iterate_countCut_counts
    (cuts (Fruit.hitBy b.x b.y (some a)) s.fruits) s
  have hone := checkAlong_subdivision h s
  have hclosed := GameState.sliceWhere_eq (Fruit.hitBy b.x b.y (some a)) s
  refine ⟨?_, ?_, ?_, hone⟩
  · rw [hone, GameState.checkCollisions, hclosed, hslice]
  · rw [hone, GameState.checkCollisions, hclosed, ← hcuts]
    exact hscore
  · rw [hone, GameState.checkCollisions, hclosed, ← hcuts]
    exact hstroke

/-- A state with one fruit, near the middle of a stroke from the origin to `(10, 0)`. -/
noncomputable def oneFruit : GameState ℝ :=
  { GameState.init with fruits := [⟨0, 5, 28, 0, 0, 10, 0, 0, false, none, none⟩] }

/-- A stroke in two halves cuts like the whole stroke. -/
theorem cut_geometry_twoHalves :
    GameState.checkAlong ⟨0, 0⟩ [⟨0, 0⟩, ⟨5, 0⟩, ⟨10, 0⟩] oneFruit =
      oneFruit.checkCollisions 10 0 (some ⟨0, 0⟩) := by
  have hhalves : Subdivides [(⟨0, 0⟩ : Point ℝ), ⟨5, 0⟩, ⟨10, 0⟩] ⟨0, 0⟩ ⟨10, 0⟩ := by
    refine ⟨rfl, rfl, [0, 1 / 2, 1], ?_, ?_, ?_⟩
    · simp only [Point.along, List.map_cons, List.map_nil]
      norm_num
    · norm_num
    · simp only [List.forall_mem_cons, Set.mem_Icc]
      norm_num
  exact (cut_geometry.2 oneFruit ⟨0, 0⟩ ⟨10, 0⟩ _ hhalves).2.2.2

end VisionGame.Game
