import VisionGame.Game.State

/-!
# What an event cuts and counts

Library `Game`. `components/FruitNinjaGame.tsx:432–604,640–801,925–997`. The scoreboard is the
part of the state that decides about winning. `Strikes` says what a stroke does: the fruits
that are whole and hit are cut, and each of them is counted once on the scoreboard. Every
event is a stroke, a spawn, a frame or a clean-up.
-/

namespace VisionGame.Game
open VisionGame.Base

/-! ### The scoreboard -/

/-- What the test for winning reads and writes. -/
structure Scoreboard where
  score : ℕ
  levelTarget : ℕ
  isInfinite : Bool
  gameActive : Bool
  wins : List ℕ
  deriving DecidableEq, Repr

/-- One more cut is counted. -/
def Scoreboard.count (b : Scoreboard) : Scoreboard :=
  if !b.isInfinite && b.levelTarget ≤ b.score + 1 then
    { b with score := b.score + 1, gameActive := false, wins := b.wins ++ [b.score + 1] }
  else { b with score := b.score + 1 }

namespace Scoreboard

/-- A point is counted. -/
@[simp] theorem count_score (b : Scoreboard) : b.count.score = b.score + 1 := by
  simp only [count]
  split <;> rfl

/-- A point leaves the kind of the level alone. -/
@[simp] theorem count_isInfinite (b : Scoreboard) : b.count.isInfinite = b.isInfinite := by
  simp only [count]
  split <;> rfl

/-- Several cuts add their number. -/
theorem iterate_count_score (b : Scoreboard) (n : ℕ) : (count^[n] b).score = b.score + n := by
  induction n with
  | zero => rfl
  | succ n ih => rw [Function.iterate_succ_apply', count_score, ih, Nat.add_assoc]

end Scoreboard

variable {R : Type} [Scalar R]

/-- The scoreboard of a state. -/
def GameState.board (s : GameState R) : Scoreboard :=
  ⟨s.score, s.levelTarget, s.isInfinite, s.gameActive, s.wins⟩

omit [Scalar R] in
/-- The bookkeeping of a cut counts it on the scoreboard. -/
theorem board_countCut (s : GameState R) : s.countCut.board = s.board.count := by
  unfold GameState.countCut Scoreboard.count GameState.board
  dsimp only
  split <;> rfl

/-! ### Cutting a list of fruits -/

namespace Fruit

/-- A fruit is whole and hit. -/
def isCut (hits : Fruit R → Bool) (fruit : Fruit R) : Bool := !fruit.isSliced && hits fruit

/-- A fruit after a stroke. -/
def sliceIf (hits : Fruit R → Bool) (fruit : Fruit R) : Fruit R :=
  if fruit.isCut hits then fruit.slice else fruit

/-- A fruit that is cut is sliced. -/
@[simp] theorem slice_isSliced (fruit : Fruit R) : fruit.slice.isSliced = true := rfl

/-- A fruit that is cut keeps its number. -/
@[simp] theorem slice_id (fruit : Fruit R) : fruit.slice.id = fruit.id := rfl

/-- Every fruit keeps its number. -/
@[simp] theorem sliceIf_id (hits : Fruit R → Bool) (fruit : Fruit R) :
    (fruit.sliceIf hits).id = fruit.id := by
  simp only [sliceIf]
  split <;> rfl

/-- After a stroke the sliced fruits are those sliced before and those cut. -/
theorem sliceIf_isSliced (hits : Fruit R → Bool) (fruit : Fruit R) :
    (fruit.sliceIf hits).isSliced = (fruit.isSliced || fruit.isCut hits) := by
  simp only [sliceIf]
  split
  · next h => simp [h]
  · next h => simp [h]

/-- A fruit is cut by the second of two strokes when it is hit by it and not cut before. -/
theorem isCut_sliceIf (hits next : Fruit R → Bool) (fruit : Fruit R) :
    (fruit.sliceIf hits).isCut next = (!fruit.isCut hits && fruit.isCut next) := by
  by_cases h : fruit.isCut hits
  · have hslice : fruit.sliceIf hits = fruit.slice := if_pos h
    rw [hslice, h]
    rfl
  · have hsame : fruit.sliceIf hits = fruit := if_neg h
    rw [hsame]
    simp [h]

omit [Scalar R] in
/-- Two strokes cut what either of them hits. -/
theorem isCut_or (hits next : Fruit R → Bool) (fruit : Fruit R) :
    fruit.isCut (fun f ↦ hits f || next f) = (fruit.isCut hits || fruit.isCut next) := by
  simp only [isCut]
  rw [Bool.and_or_distrib_left]

/-- Two strokes do to a fruit what one stroke does that hits where either of them does. -/
theorem sliceIf_sliceIf (hits next : Fruit R → Bool) (fruit : Fruit R) :
    (fruit.sliceIf hits).sliceIf next = fruit.sliceIf fun f ↦ hits f || next f := by
  by_cases h : fruit.isCut hits
  · have hslice : fruit.sliceIf hits = fruit.slice := if_pos h
    have hboth : fruit.isCut (fun f ↦ hits f || next f) = true := by rw [isCut_or, h]; rfl
    rw [hslice]
    simp only [sliceIf]
    rw [if_pos hboth]
    rfl
  · have hsame : fruit.sliceIf hits = fruit := if_neg h
    rw [hsame]
    simp only [sliceIf]
    rw [isCut_or]
    simp [h]

end Fruit

/-- Number of fruits a stroke cuts. -/
def cuts (hits : Fruit R → Bool) (fruits : List (Fruit R)) : ℕ := fruits.countP (Fruit.isCut hits)

omit [Scalar R] in
/-- A stroke that hits nothing cuts nothing. -/
@[simp] theorem cuts_false (fruits : List (Fruit R)) : cuts (fun _ ↦ false) fruits = 0 := by
  simp only [cuts]
  apply List.countP_eq_zero.mpr
  intro fruit _
  simp [Fruit.isCut]

/-- Two strokes in turn cut as many fruits as one that hits where either of them does. -/
theorem cuts_add (hits next : Fruit R → Bool) (fruits : List (Fruit R)) :
    cuts hits fruits + cuts next (fruits.map (Fruit.sliceIf hits)) =
      cuts (fun f ↦ hits f || next f) fruits := by
  simp only [cuts]
  rw [List.countP_map]
  induction fruits with
  | nil => rfl
  | cons fruit fruits ih =>
    rw [List.countP_cons, List.countP_cons, List.countP_cons, Function.comp_apply,
      Fruit.isCut_sliceIf, Fruit.isCut_or]
    cases fruit.isCut hits <;> cases fruit.isCut next <;> simp <;> omega

/-! ### Strokes -/

/-- The fruits that are whole and hit are cut, and each is counted once. -/
structure Strikes (hits : Fruit R → Bool) (s t : GameState R) : Prop where
  fruits : t.fruits = s.fruits.map (Fruit.sliceIf hits)
  board : t.board = Scoreboard.count^[cuts hits s.fruits] s.board
  spawned : t.spawned = s.spawned
  stroke : t.slicedInStrokeCount ≤ s.slicedInStrokeCount + cuts hits s.fruits

/-- A change that leaves fruits and scoreboard alone strikes nothing. -/
theorem Strikes.of_same {s t : GameState R} (hfruits : t.fruits = s.fruits)
    (hboard : t.board = s.board) (hspawned : t.spawned = s.spawned)
    (hstroke : t.slicedInStrokeCount ≤ s.slicedInStrokeCount) :
    Strikes (fun _ ↦ false) s t where
  fruits := by
    have hnone : Fruit.sliceIf (fun _ ↦ false) = (id : Fruit R → Fruit R) := by
      funext fruit
      simp [Fruit.sliceIf, Fruit.isCut]
    rw [hnone, List.map_id, hfruits]
  board := by rw [cuts_false, hboard]; rfl
  spawned := hspawned
  stroke := by rw [cuts_false]; exact hstroke

/-- Every fruit after a stroke is one from before it, cut or not. -/
theorem Strikes.exists_old {hits : Fruit R → Bool} {s t : GameState R} (h : Strikes hits s t)
    {fruit : Fruit R} (hfruit : fruit ∈ t.fruits) :
    ∃ old ∈ s.fruits, old.sliceIf hits = fruit := by
  rw [h.fruits] at hfruit
  exact List.mem_map.mp hfruit

/-- A stroke keeps the numbers of the fruits. -/
theorem Strikes.map_id {hits : Fruit R → Bool} {s t : GameState R} (h : Strikes hits s t) :
    t.fruits.map Fruit.id = s.fruits.map Fruit.id := by
  rw [h.fruits, List.map_map]
  apply List.map_congr_left
  intro fruit _
  exact Fruit.sliceIf_id hits fruit

/-- Two strokes in turn are one that hits where either of them does. -/
theorem Strikes.trans {hits next : Fruit R → Bool} {s t u : GameState R} (h : Strikes hits s t)
    (h' : Strikes next t u) : Strikes (fun f ↦ hits f || next f) s u := by
  have hcuts : cuts hits s.fruits + cuts next t.fruits =
      cuts (fun f ↦ hits f || next f) s.fruits := by
    rw [h.fruits, cuts_add]
  constructor
  · rw [h'.fruits, h.fruits, List.map_map]
    apply List.map_congr_left
    intro fruit _
    exact Fruit.sliceIf_sliceIf hits next fruit
  · rw [h'.board, h.board, ← Function.iterate_add_apply, Nat.add_comm, hcuts]
  · rw [h'.spawned, h.spawned]
  · have hs := h.stroke
    have ht := h'.stroke
    omega

/-- Hits that agree strike alike. -/
theorem Strikes.congr {hits next : Fruit R → Bool} {s t : GameState R} (h : Strikes hits s t)
    (heq : hits = next) : Strikes next s t := heq ▸ h

/-- One round of the loop passes the fruit on, cut or not, and counts a cut. -/
theorem visit_spec (hits : Fruit R → Bool) (s : GameState R) (fruit : Fruit R) :
    (s.visit hits fruit).fruits = s.fruits ++ [fruit.sliceIf hits] ∧
      (s.visit hits fruit).board = Scoreboard.count^[if fruit.isCut hits then 1 else 0] s.board ∧
      (s.visit hits fruit).spawned = s.spawned ∧
      (s.visit hits fruit).slicedInStrokeCount =
        s.slicedInStrokeCount + if fruit.isCut hits then 1 else 0 := by
  unfold GameState.visit Fruit.sliceIf Fruit.isCut
  cases hsliced : fruit.isSliced with
  | true => simp [GameState.board]
  | false =>
    cases hhit : hits fruit with
    | false => simp [GameState.board]
    | true =>
      have hboard := board_countCut s
      have ⟨hfruits, hspawned, hstroke⟩ : s.countCut.fruits = s.fruits ∧
          s.countCut.spawned = s.spawned ∧
          s.countCut.slicedInStrokeCount = s.slicedInStrokeCount + 1 := by
        simp only [GameState.countCut]
        split <;> exact ⟨rfl, rfl, rfl⟩
      refine ⟨?_, hboard, hspawned, hstroke⟩
      simp [hfruits]

/-- The loop over a list of fruits. -/
theorem foldl_visit (hits : Fruit R → Bool) (fruits : List (Fruit R)) (s : GameState R) :
    (fruits.foldl (GameState.visit hits) s).fruits =
        s.fruits ++ fruits.map (Fruit.sliceIf hits) ∧
      (fruits.foldl (GameState.visit hits) s).board =
        Scoreboard.count^[cuts hits fruits] s.board ∧
      (fruits.foldl (GameState.visit hits) s).spawned = s.spawned ∧
      (fruits.foldl (GameState.visit hits) s).slicedInStrokeCount =
        s.slicedInStrokeCount + cuts hits fruits := by
  induction fruits generalizing s with
  | nil => simp [cuts]
  | cons fruit fruits ih =>
    have ⟨hfruits, hboard, hspawned, hstroke⟩ := ih (s.visit hits fruit)
    have ⟨hfruit, hcount, hkept, hone⟩ := visit_spec hits s fruit
    have hcuts : cuts hits (fruit :: fruits) =
        cuts hits fruits + if fruit.isCut hits then 1 else 0 := List.countP_cons
    rw [List.foldl_cons, hfruits, hboard, hspawned, hstroke, hfruit, hcount, hkept, hone, hcuts]
    refine ⟨?_, ?_, rfl, ?_⟩
    · rw [List.map_cons, List.append_assoc, List.singleton_append]
    · rw [Function.iterate_add_apply]
    · omega

/-- The loop over the fruits strikes what its test hits. -/
theorem strikes_sliceWhere (hits : Fruit R → Bool) (s : GameState R) :
    Strikes hits s (s.sliceWhere hits) := by
  have ⟨hfruits, hboard, hspawned, hstroke⟩ := foldl_visit hits s.fruits { s with fruits := [] }
  constructor
  · exact hfruits
  · exact hboard
  · exact hspawned
  · exact le_of_eq hstroke

/-! ### What the events hit -/

/-- What a registered point hits: the stroke goes on from the last point unless it paused. -/
def GameState.pointHits (s : GameState R) (x y now : R) : Fruit R → Bool :=
  Fruit.hitBy x y (if 220 < now - s.lastStrokeTime then none else s.lastPoint)

/-- What the points of a swipe hit. -/
def sweepHits : Point R → List (TrailPoint R) → Fruit R → Bool
  | _, [], _ => false
  | prev, p :: ps, fruit => fruit.hitBy p.x p.y (some prev) || sweepHits p.toPoint ps fruit

/-- What an event hits in a state, whether or not it is sliced already. -/
def GameEvent.hits (s : GameState R) : GameEvent R → Fruit R → Bool
  | .pointerDown rawX rawY _, fruit =>
    s.receivesPointer && fruit.hitBy (s.toLogical rawX rawY).x (s.toLogical rawX rawY).y none
  | .pointerMove rawX rawY now, fruit =>
    let p := s.toLogical rawX rawY
    let moved :=
      match s.trail.getLast? with
      | none => true
      | some lastPt => decide (2 < Scalar.hypot (p.x - lastPt.x) (p.y - lastPt.y))
    s.receivesPointer && moved && s.pointHits p.x p.y now fruit
  | .gestureSlice x y now, fruit => s.gameActive && s.pointHits x y now fruit
  | .swipeSlice direction rx ry clock, fruit =>
    let ends := GameState.swipeEnds direction rx ry
    s.gameActive && s.canvas && sweepHits ends.1 (GameState.swipePoints ends clock) fruit
  | _, _ => false

omit [Scalar R] in
/-- Announcing a combo strikes nothing. -/
theorem playCombo_same (s : GameState R) :
    s.playCombo.fruits = s.fruits ∧ s.playCombo.board = s.board ∧
      s.playCombo.spawned = s.spawned ∧
      s.playCombo.slicedInStrokeCount = s.slicedInStrokeCount ∧
      s.playCombo.lastPoint = s.lastPoint := by
  simp only [GameState.playCombo]
  split <;> exact ⟨rfl, rfl, rfl, rfl, rfl⟩

/-- Registering a point strikes what it hits. -/
theorem strikes_registerPoint (x y now : R) (s : GameState R) :
    Strikes (s.pointHits x y now) s (s.registerPoint x y now) := by
  have ⟨hfruits, hboard, hspawned, hstroke, hlast⟩ : (s.endPausedStroke now).fruits = s.fruits ∧
      (s.endPausedStroke now).board = s.board ∧
      (s.endPausedStroke now).spawned = s.spawned ∧
      (s.endPausedStroke now).slicedInStrokeCount ≤ s.slicedInStrokeCount ∧
      (s.endPausedStroke now).lastPoint =
        if 220 < now - s.lastStrokeTime then none else s.lastPoint := by
    have ⟨hfruits, hboard, hspawned, _, _⟩ := playCombo_same s
    simp only [GameState.endPausedStroke]
    split
    · exact ⟨hfruits, hboard, hspawned, Nat.zero_le _, rfl⟩
    · exact ⟨rfl, rfl, rfl, le_rfl, rfl⟩
  have hhits : s.pointHits x y now =
      Fruit.hitBy x y ((s.endPausedStroke now).extendTrail x y now).lastPoint := by
    simp only [GameState.pointHits]
    rw [← hlast]
    rfl
  have hslice := strikes_sliceWhere (s.pointHits x y now)
    ((s.endPausedStroke now).extendTrail x y now)
  have hpaused : Strikes (fun _ ↦ false) s ((s.endPausedStroke now).extendTrail x y now) :=
    .of_same hfruits hboard hspawned hstroke
  have hall := hpaused.trans hslice
  simp only [Bool.false_or] at hall
  rw [hhits] at hall ⊢
  exact ⟨hall.fruits, hall.board, hall.spawned, hall.stroke⟩

/-- A sweep strikes what its points hit. -/
theorem strikes_sweep (prev : Point R) (points : List (TrailPoint R)) (s : GameState R) :
    Strikes (sweepHits prev points) s (GameState.sweep prev points s) := by
  induction points generalizing prev s with
  | nil => exact .of_same rfl rfl rfl le_rfl
  | cons p points ih =>
    have hslice := strikes_sliceWhere (Fruit.hitBy p.x p.y (some prev))
      { s with trail := s.trail ++ [p] }
    have hfirst : Strikes (Fruit.hitBy p.x p.y (some prev)) s
        ({ s with trail := s.trail ++ [p] }.checkCollisions p.x p.y (some prev)) :=
      ⟨hslice.fruits, hslice.board, hslice.spawned, hslice.stroke⟩
    exact hfirst.trans (ih _ _)

/-- Pressing the pointer strikes what its point hits. -/
theorem strikes_handlePointerDown (rawX rawY now : R) (s : GameState R) :
    Strikes (GameEvent.hits s (.pointerDown rawX rawY now)) s
      (s.handlePointerDown rawX rawY now) := by
  simp only [GameState.handlePointerDown]
  split
  · next hclosed =>
    apply (Strikes.of_same (s := s) rfl rfl rfl le_rfl).congr
    funext fruit
    simp only [Bool.not_eq_true'] at hclosed
    simp [GameEvent.hits, hclosed]
  · next hopen =>
    have hstart : Strikes (fun _ ↦ false) s { s with trail := [], lastPoint := none } :=
      .of_same rfl rfl rfl le_rfl
    apply (hstart.trans (strikes_registerPoint _ _ now _)).congr
    funext fruit
    simp only [Bool.not_eq_true', Bool.not_eq_false] at hopen
    simp [GameEvent.hits, GameState.pointHits, hopen]

/-- Moving the pointer strikes what its point hits, if it moved far enough. -/
theorem strikes_handlePointerMove (rawX rawY now : R) (s : GameState R) :
    Strikes (GameEvent.hits s (.pointerMove rawX rawY now)) s
      (s.handlePointerMove rawX rawY now) := by
  unfold GameState.handlePointerMove
  split
  · next hclosed =>
    apply (Strikes.of_same (s := s) rfl rfl rfl le_rfl).congr
    funext fruit
    simp only [Bool.not_eq_true'] at hclosed
    simp [GameEvent.hits, hclosed]
  · next hopen =>
    simp only [Bool.not_eq_true', Bool.not_eq_false] at hopen
    dsimp only
    split
    · next hnone =>
      apply (strikes_registerPoint _ _ now s).congr
      funext fruit
      simp [GameEvent.hits, hopen, hnone]
    · next lastPt hsome =>
      split
      · next hfar =>
        apply (strikes_registerPoint _ _ now s).congr
        funext fruit
        simp [GameEvent.hits, hopen, hsome, hfar]
      · next hnear =>
        apply (Strikes.of_same (s := s) rfl rfl rfl le_rfl).congr
        funext fruit
        simp [GameEvent.hits, hsome, hnear]

/-- A gesture strikes what its point hits while the game is active. -/
theorem strikes_handleGestureSlice (x y now : R) (s : GameState R) :
    Strikes (GameEvent.hits s (.gestureSlice x y now)) s (s.handleGestureSlice x y now) := by
  simp only [GameState.handleGestureSlice]
  split
  · next hover =>
    apply (Strikes.of_same (s := s) rfl rfl rfl le_rfl).congr
    funext fruit
    simp only [Bool.not_eq_true'] at hover
    simp [GameEvent.hits, hover]
  · next hactive =>
    apply (strikes_registerPoint x y now s).congr
    funext fruit
    simp only [Bool.not_eq_true', Bool.not_eq_false] at hactive
    simp [GameEvent.hits, hactive]

/-- A swipe strikes what its points hit while the game is active. -/
theorem strikes_triggerSwipeSlice (direction : GameState.Direction) (rx ry : R) (clock : ℕ → R)
    (s : GameState R) :
    Strikes (GameEvent.hits s (.swipeSlice direction rx ry clock)) s
      (s.triggerSwipeSlice direction rx ry clock) := by
  simp only [GameState.triggerSwipeSlice]
  split
  · next hclosed =>
    apply (Strikes.of_same (s := s) rfl rfl rfl le_rfl).congr
    funext fruit
    simp only [Bool.or_eq_true, Bool.not_eq_true'] at hclosed
    rcases hclosed with hover | hgone
    · simp [GameEvent.hits, hover]
    · simp [GameEvent.hits, hgone]
  · next hopen =>
    simp only [Bool.or_eq_true, Bool.not_eq_true', not_or, Bool.not_eq_false] at hopen
    have hstart : Strikes (fun _ ↦ false) s { s with slicedInStrokeCount := 0 } :=
      .of_same rfl rfl rfl (Nat.zero_le _)
    have hsweep := hstart.trans (strikes_sweep (GameState.swipeEnds direction rx ry).1
      (GameState.swipePoints (GameState.swipeEnds direction rx ry) clock) _)
    have ⟨hfruits, hboard, hspawned, hstroke, _⟩ := playCombo_same
      (GameState.sweep (GameState.swipeEnds direction rx ry).1
        (GameState.swipePoints (GameState.swipeEnds direction rx ry) clock)
        { s with slicedInStrokeCount := 0 })
    have hcombo := Strikes.of_same hfruits hboard hspawned hstroke.le
    apply (hsweep.trans hcombo).congr
    funext fruit
    simp [GameEvent.hits, hopen]

/-! ### Frames and spawns -/

private theorem forall₂_of_mapM {α β : Type} {f : α → Option β} {xs : List α} {ys : List β}
    (h : xs.mapM f = some ys) : List.Forall₂ (fun x y ↦ f x = some y) xs ys := by
  induction xs generalizing ys with
  | nil =>
    rw [List.mapM_nil] at h
    rw [← Option.some.inj h]
    exact .nil
  | cons x xs ih =>
    rw [List.mapM_cons] at h
    have ⟨y, hy, hrest⟩ := Option.bind_eq_some_iff.mp h
    have ⟨zs, hzs, hcons⟩ := Option.bind_eq_some_iff.mp hrest
    rw [← Option.some.inj hcons]
    exact .cons hy (ih hzs)

private theorem exists_of_forall₂ {α β : Type} {r : α → β → Prop} {xs : List α} {ys : List β}
    (h : List.Forall₂ r xs ys) {y : β} (hy : y ∈ ys) : ∃ x ∈ xs, r x y := by
  induction h with
  | nil => cases hy
  | cons hr _ ih =>
    rcases List.mem_cons.mp hy with rfl | hmem
    · exact ⟨_, List.mem_cons_self, hr⟩
    · have ⟨x, hx, hrx⟩ := ih hmem
      exact ⟨x, List.mem_cons_of_mem _ hx, hrx⟩

/-- A frame moves each fruit and keeps those that stay. -/
theorem render_spec {lvl : Level R} {elapsed now : R} {s t : GameState R}
    (h : s.render lvl elapsed now = some t) :
    ∃ moved, List.Forall₂ (fun fruit m ↦
        fruit.advance lvl.gravity (GameState.frameStep elapsed) = some m) s.fruits moved ∧
      t.fruits = (moved.filter (·.2)).map (·.1) ∧ t.board = s.board ∧ t.spawned = s.spawned ∧
      t.slicedInStrokeCount = s.slicedInStrokeCount := by
  have ⟨moved, hmoved, ht⟩ := Option.map_eq_some_iff.mp h
  refine ⟨moved, forall₂_of_mapM hmoved, ?_⟩
  rw [← ht]
  exact ⟨rfl, rfl, rfl, rfl⟩

/-- A fruit that is moved stays the same object, sliced or not as before. -/
theorem advance_same {gravity dt : R} {fruit : Fruit R} {m : Fruit R × Bool}
    (h : fruit.advance gravity dt = some m) :
    m.1.id = fruit.id ∧ m.1.isSliced = fruit.isSliced := by
  simp only [Fruit.advance] at h
  split at h
  · rw [← Option.some.inj h]
    exact ⟨rfl, rfl⟩
  · split at h
    · rw [← Option.some.inj h]
      exact ⟨rfl, rfl⟩
    · cases h

/-- A fruit that stays in a frame comes from one that was moved. -/
theorem exists_advance_of_mem {lvl : Level R} {elapsed now : R} {s t : GameState R}
    (h : s.render lvl elapsed now = some t) {fruit : Fruit R} (hfruit : fruit ∈ t.fruits) :
    ∃ old ∈ s.fruits,
      old.advance lvl.gravity (GameState.frameStep elapsed) = some (fruit, true) := by
  have ⟨moved, hmoved, hfruits, _⟩ := render_spec h
  rw [hfruits] at hfruit
  have ⟨m, hm, hfst⟩ := List.mem_map.mp hfruit
  have ⟨hmem, hstays⟩ := List.mem_filter.mp hm
  have ⟨old, hold, hadvance⟩ := exists_of_forall₂ hmoved hmem
  refine ⟨old, hold, ?_⟩
  rw [hadvance, ← hfst, ← hstays]

/-- A fruit that is there before a frame is moved, and stays if it is to stay. -/
theorem exists_advance_of_before {lvl : Level R} {elapsed now : R} {s t : GameState R}
    (h : s.render lvl elapsed now = some t) {old : Fruit R} (hold : old ∈ s.fruits) :
    ∃ m, old.advance lvl.gravity (GameState.frameStep elapsed) = some m ∧
      (m.2 = true → m.1 ∈ t.fruits) := by
  have ⟨moved, hmoved, hfruits, _⟩ := render_spec h
  have ⟨m, hm, hadvance⟩ := exists_of_forall₂ (List.Forall₂.flip hmoved) hold
  refine ⟨m, hadvance, fun hstays ↦ ?_⟩
  rw [hfruits]
  exact List.mem_map_of_mem (List.mem_filter.mpr ⟨hm, hstays⟩)

/-- The fruits that stay in a frame keep their order. -/
theorem render_ids {lvl : Level R} {elapsed now : R} {s t : GameState R}
    (h : s.render lvl elapsed now = some t) :
    (t.fruits.map Fruit.id).Sublist (s.fruits.map Fruit.id) := by
  have ⟨moved, hmoved, hfruits, _⟩ := render_spec h
  have hids : List.Forall₂ (· = ·) (s.fruits.map Fruit.id) (moved.map (·.1.id)) := by
    apply List.forall₂_map_left_iff.mpr
    apply List.forall₂_map_right_iff.mpr
    exact hmoved.imp fun _ _ hadvance ↦ (advance_same hadvance).1.symm
  rw [List.forall₂_eq_eq_eq] at hids
  rw [hfruits, List.map_map, hids]
  exact List.filter_sublist.map _

/-- Every event is a stroke, a spawn, a frame or a clean-up. -/
theorem step_cases {lvl : Level R} {s t : GameState R} {e : GameEvent R}
    (h : s.step lvl e = some t) :
    Strikes (e.hits s) s t ∨
      (∃ r draws, e = .spawn r draws ∧ t = s.spawnFruit lvl r draws) ∨
      (∃ elapsed now, e = .frame elapsed now ∧ s.render lvl elapsed now = some t) ∨
      (e = .cleanup ∧ t = s.cleanup) := by
  cases e with
  | resize w h' =>
    left
    rw [← Option.some.inj h]
    simp only [GameState.resizeCanvas]
    split
    · exact .of_same rfl rfl rfl le_rfl
    · split
      · exact .of_same rfl rfl rfl le_rfl
      · exact .of_same rfl rfl rfl le_rfl
  | pointerDown rawX rawY now =>
    rw [← Option.some.inj h]
    exact .inl (strikes_handlePointerDown rawX rawY now s)
  | pointerMove rawX rawY now =>
    rw [← Option.some.inj h]
    exact .inl (strikes_handlePointerMove rawX rawY now s)
  | pointerUp =>
    left
    rw [← Option.some.inj h]
    have ⟨hfruits, hboard, hspawned, _, _⟩ := playCombo_same s
    simp only [GameState.handlePointerUp]
    split
    · exact .of_same rfl rfl rfl le_rfl
    · exact .of_same hfruits hboard hspawned (Nat.zero_le _)
  | pointerLeave =>
    left
    rw [← Option.some.inj h]
    simp only [GameState.handlePointerLeave]
    split
    · exact .of_same rfl rfl rfl le_rfl
    · exact .of_same rfl rfl rfl le_rfl
  | gestureSlice x y now =>
    rw [← Option.some.inj h]
    exact .inl (strikes_handleGestureSlice x y now s)
  | swipeSlice direction rx ry clock =>
    rw [← Option.some.inj h]
    exact .inl (strikes_triggerSwipeSlice direction rx ry clock s)
  | spawn r draws => exact .inr (.inl ⟨r, draws, rfl, (Option.some.inj h).symm⟩)
  | frame elapsed now => exact .inr (.inr (.inl ⟨elapsed, now, rfl, h⟩))
  | cleanup => exact .inr (.inr (.inr ⟨rfl, (Option.some.inj h).symm⟩))

/-- Number of fruits an event cuts in a state. -/
def GameEvent.cuts (s : GameState R) (e : GameEvent R) : ℕ := Game.cuts (e.hits s) s.fruits

/-- An event counts its cuts on the scoreboard; a clean-up ends the game. -/
theorem board_step {lvl : Level R} {s t : GameState R} {e : GameEvent R}
    (h : s.step lvl e = some t) :
    t.board = Scoreboard.count^[e.cuts s] s.board ∨
      (t.board = { s.board with gameActive := false } ∧ e.cuts s = 0) := by
  rcases step_cases h with hstroke | ⟨r, draws, rfl, rfl⟩ | ⟨elapsed, now, rfl, hrender⟩ |
    ⟨rfl, rfl⟩
  · exact .inl hstroke.board
  · left
    have hnone : GameEvent.cuts s (.spawn r draws) = 0 := cuts_false _
    rw [hnone]
    simp only [GameState.spawnFruit]
    split
    · rfl
    · rfl
  · left
    have hnone : GameEvent.cuts s (.frame elapsed now) = 0 := cuts_false _
    rw [hnone]
    have ⟨moved, _, hmoved⟩ := Option.map_eq_some_iff.mp hrender
    rw [← hmoved]
    rfl
  · exact .inr ⟨rfl, cuts_false _⟩

/-- The turn of a step. -/
theorem gameMachine_step_of_step {lvl : Level R} {s t : GameState R} {e : GameEvent R}
    (h : s.step lvl e = some t) : (gameMachine lvl).step s e = ⟨e, s, t, false⟩ := by
  simp only [gameMachine]
  rw [h]

/-- A turn is a step, or a frame that raised and changed nothing. -/
theorem gameMachine_step_cases (lvl : Level R) (s : GameState R) (e : GameEvent R) :
    (∃ t, s.step lvl e = some t ∧ (gameMachine lvl).step s e = ⟨e, s, t, false⟩) ∨
      (e.cuts s = 0 ∧ (gameMachine lvl).step s e = ⟨e, s, s, true⟩) := by
  cases h : s.step lvl e with
  | some t =>
    left
    exact ⟨t, rfl, gameMachine_step_of_step h⟩
  | none =>
    right
    constructor
    · cases e with
      | frame elapsed now => exact cuts_false _
      | _ => cases h
    · simp only [gameMachine, h]

/-! ### A level to run -/

/-- The first level. -/
def firstLevel : Level ℚ := levels.head (by simp [levels])

/-- The level without a target. -/
def zenLevel : Level ℚ := levels.getLast (by simp [levels])

/-- Two fruits are launched in the middle and the pointer is pressed above them. -/
def cutPair : List (GameEvent ℚ) :=
  [.spawn 0.5 fun _ ↦ ⟨0.5, 0.5, 0.5, 0.5, 0.5, 0.5⟩, .pointerDown 400 500 0]

end VisionGame.Game
