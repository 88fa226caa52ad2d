import VisionGame.Base.Segment
import VisionGame.Game.Slicing

/-!
# Strokes of the blade

Library `Game`. `components/FruitNinjaGame.tsx:83–89,432–604,615–627,925–997`. The history of a
run says which registered point may be continued: the last one, unless the pointer went down,
up or away or a level started since. The invariant is that `lastPoint` and `lastStrokeTime` are
this point. A registered point then cuts along the segment from the point before exactly when
both are of one stroke.
-/

namespace VisionGame.Game
open VisionGame.Base

variable {R : Type} [Scalar R]

/-! ### Marks of events -/

/-- What an event means for the strokes. -/
structure StrokeMark (R : Type) where
  /-- Arguments and clock reading of the call of `registerPoint`. -/
  point : Option (TrailPoint R)
  /-- The pointer went down, up or away, or a level started. -/
  breaks : Bool

/-- The pointer is far enough from the end of the trail; `FruitNinjaGame.tsx:956–962`. -/
def GameState.pointerMoved (s : GameState R) (p : Point R) : Bool :=
  match s.trail.getLast? with
  | none => true
  | some lastPt => decide (2 < Scalar.hypot (p.x - lastPt.x) (p.y - lastPt.y))

/-- The mark of an event in a state; `FruitNinjaGame.tsx:433–436,925–997`. -/
def GameEvent.mark (s : GameState R) : GameEvent R → StrokeMark R
  | .pointerDown rawX rawY now =>
    if s.receivesPointer then ⟨some ⟨s.toLogical rawX rawY, now⟩, true⟩ else ⟨none, false⟩
  | .pointerMove rawX rawY now =>
    if s.receivesPointer && s.pointerMoved (s.toLogical rawX rawY) then
      ⟨some ⟨s.toLogical rawX rawY, now⟩, false⟩
    else ⟨none, false⟩
  | .pointerUp => ⟨none, s.receivesPointer⟩
  | .pointerLeave => ⟨none, s.receivesPointer⟩
  | .gestureSlice x y now =>
    if s.gameActive then ⟨some ⟨⟨x, y⟩, now⟩, false⟩ else ⟨none, false⟩
  | _ => ⟨none, false⟩

/-- Two consecutive registered points are of one stroke: nothing breaks it between them, and
the later clock reading exceeds the earlier one by at most 220 ms. -/
def SameStroke (past : List (StrokeMark R)) (m : StrokeMark R) (q p : TrailPoint R) : Prop :=
  m.point = some p ∧ m.breaks = false ∧ p.time - q.time ≤ 220 ∧
    Since (fun _ k ↦ k.point = some q) (fun j ↦ j.point = none ∧ j.breaks = false) past

/-! ### The point that may be continued -/

/-- The point that may be continued after an event. -/
def StrokeMark.leaves (last : Option (TrailPoint R)) (m : StrokeMark R) :
    Option (TrailPoint R) :=
  match m.point with
  | some p => some p
  | none => if m.breaks then none else last

/-- The point that may be continued after some events. -/
def openPoint (marks : List (StrokeMark R)) : Option (TrailPoint R) :=
  marks.foldl StrokeMark.leaves none

omit [Scalar R] in
/-- Point that one more event leaves open. -/
theorem openPoint_concat (marks : List (StrokeMark R)) (m : StrokeMark R) :
    openPoint (marks ++ [m]) = m.leaves (openPoint marks) := by
  simp only [openPoint]
  rw [List.foldl_append]
  rfl

omit [Scalar R] in
/-- The point that may be continued is the last registered one, with no break since. -/
theorem openPoint_eq_some_iff (marks : List (StrokeMark R)) (q : TrailPoint R) :
    openPoint marks = some q ↔
      Since (fun _ k ↦ k.point = some q) (fun j ↦ j.point = none ∧ j.breaks = false) marks := by
  induction marks using List.reverseRecOn with
  | nil =>
    constructor
    · intro h
      cases h
    · intro h
      exact absurd h (not_since_nil _ _)
  | append_singleton marks m ih =>
    rw [openPoint_concat, since_concat, ← ih]
    simp only [StrokeMark.leaves]
    cases hpoint : m.point with
    | some p => simp
    | none => cases m.breaks <;> simp

/-! ### What an event does to the stroke -/

/-- The pointer goes down: the blade is lifted before its point; `FruitNinjaGame.tsx:939–940`. -/
def GameState.lift (s : GameState R) : GameState R := { s with trail := [], lastPoint := none }

/-- The loop over the fruits leaves the stroke and the combos alone. -/
theorem sliceWhere_stroke (hits : Fruit R → Bool) (s : GameState R) :
    (s.sliceWhere hits).lastPoint = s.lastPoint ∧
      (s.sliceWhere hits).lastStrokeTime = s.lastStrokeTime ∧
      (s.sliceWhere hits).combos = s.combos := by
  have hloop (fruits : List (Fruit R)) (t : GameState R) :
      (fruits.foldl (GameState.visit hits) t).lastPoint = t.lastPoint ∧
        (fruits.foldl (GameState.visit hits) t).lastStrokeTime = t.lastStrokeTime ∧
        (fruits.foldl (GameState.visit hits) t).combos = t.combos := by
    induction fruits generalizing t with
    | nil => exact ⟨rfl, rfl, rfl⟩
    | cons fruit fruits ih =>
      have ⟨hlast, htime, hcombos⟩ := ih (t.visit hits fruit)
      have ⟨hlast', htime', hcombos'⟩ : (t.visit hits fruit).lastPoint = t.lastPoint ∧
          (t.visit hits fruit).lastStrokeTime = t.lastStrokeTime ∧
          (t.visit hits fruit).combos = t.combos := by
        simp only [GameState.visit, GameState.countCut, GameState.handleGameWin]
        split
        · exact ⟨rfl, rfl, rfl⟩
        · split
          · split <;> exact ⟨rfl, rfl, rfl⟩
          · exact ⟨rfl, rfl, rfl⟩
      rw [List.foldl_cons, hlast, htime, hcombos]
      exact ⟨hlast', htime', hcombos'⟩
  exact hloop s.fruits { s with fruits := [] }

/-- A sweep leaves the stroke and the combos alone. -/
theorem sweep_stroke (prev : Point R) (points : List (TrailPoint R)) (s : GameState R) :
    (GameState.sweep prev points s).lastPoint = s.lastPoint ∧
      (GameState.sweep prev points s).lastStrokeTime = s.lastStrokeTime ∧
      (GameState.sweep prev points s).combos = s.combos := by
  induction points generalizing prev s with
  | nil => exact ⟨rfl, rfl, rfl⟩
  | cons p points ih =>
    have ⟨hlast, htime, hcombos⟩ := sliceWhere_stroke (Fruit.hitBy p.x p.y (some prev))
      { s with trail := s.trail ++ [p] }
    have ⟨hlast', htime', hcombos'⟩ := ih p.toPoint
      ({ s with trail := s.trail ++ [p] }.checkCollisions p.x p.y (some prev))
    exact ⟨hlast'.trans hlast, htime'.trans htime, hcombos'.trans hcombos⟩

private theorem registerPoint_stroke (x y now : R) (s : GameState R) :
    (s.registerPoint x y now).lastPoint = some ⟨x, y⟩ ∧
      (s.registerPoint x y now).lastStrokeTime = now :=
  ⟨rfl, (sliceWhere_stroke _ _).2.1⟩

omit [Scalar R] in
/-- Announcing a combo leaves the clock of the stroke alone. -/
theorem playCombo_lastStrokeTime (s : GameState R) :
    s.playCombo.lastStrokeTime = s.lastStrokeTime := by
  simp only [GameState.playCombo]
  split <;> rfl

private theorem triggerSwipeSlice_stroke (direction : GameState.Direction) (rx ry : R)
    (clock : ℕ → R) (s : GameState R) :
    (s.triggerSwipeSlice direction rx ry clock).lastPoint = s.lastPoint ∧
      (s.triggerSwipeSlice direction rx ry clock).lastStrokeTime = s.lastStrokeTime := by
  simp only [GameState.triggerSwipeSlice]
  split
  · exact ⟨rfl, rfl⟩
  · obtain ⟨hlast, htime, _⟩ := sweep_stroke (GameState.swipeEnds direction rx ry).1
      (GameState.swipePoints (GameState.swipeEnds direction rx ry) clock)
      { s with slicedInStrokeCount := 0 }
    obtain ⟨_, _, _, _, hcombo⟩ := playCombo_same
      (GameState.sweep (GameState.swipeEnds direction rx ry).1
        (GameState.swipePoints (GameState.swipeEnds direction rx ry) clock)
        { s with slicedInStrokeCount := 0 })
    exact ⟨hcombo.trans hlast, (playCombo_lastStrokeTime _).trans htime⟩

/-- A pointer that has moved registers its position. -/
theorem handlePointerMove_eq (rawX rawY now : R) (s : GameState R) :
    s.handlePointerMove rawX rawY now =
      if s.receivesPointer && s.pointerMoved (s.toLogical rawX rawY) then
        s.registerPoint (s.toLogical rawX rawY).x (s.toLogical rawX rawY).y now
      else s := by
  unfold GameState.handlePointerMove GameState.pointerMoved
  by_cases hopen : s.receivesPointer = true
  · rw [if_neg (by simp [hopen])]
    dsimp only
    cases s.trail.getLast? with
    | none => simp [hopen]
    | some lastPt => simp [hopen]
  · rw [if_pos (by simp [hopen]), if_neg (by simp [hopen])]

/-- The state after an event is as its mark says: the point is registered, or the stroke is at
most broken. -/
def StrokeMark.Explains (m : StrokeMark R) (s t : GameState R) : Prop :=
  match m.point with
  | some p => t = (if m.breaks then s.lift else s).registerPoint p.x p.y p.time
  | none =>
    t.lastPoint = (if m.breaks then none else s.lastPoint) ∧ t.lastStrokeTime = s.lastStrokeTime

/-- Every event does to the stroke what its mark says. -/
theorem mark_explains (lvl : Level R) (s : GameState R) (e : GameEvent R) :
    (e.mark s).Explains s ((gameMachine lvl).step s e).after := by
  cases e with
  | resize w h =>
    change (s.resizeCanvas w h).lastPoint = s.lastPoint ∧
      (s.resizeCanvas w h).lastStrokeTime = s.lastStrokeTime
    simp only [GameState.resizeCanvas]
    split
    · exact ⟨rfl, rfl⟩
    · split <;> exact ⟨rfl, rfl⟩
  | pointerDown rawX rawY now =>
    change (GameEvent.mark s (.pointerDown rawX rawY now)).Explains s
      (s.handlePointerDown rawX rawY now)
    simp only [GameEvent.mark, GameState.handlePointerDown]
    by_cases hopen : s.receivesPointer = true
    · rw [if_pos hopen, if_neg (by simp [hopen])]
      rfl
    · rw [if_neg hopen, if_pos (by simp [hopen])]
      exact ⟨rfl, rfl⟩
  | pointerMove rawX rawY now =>
    change (GameEvent.mark s (.pointerMove rawX rawY now)).Explains s
      (s.handlePointerMove rawX rawY now)
    simp only [GameEvent.mark]
    rw [handlePointerMove_eq]
    split
    · rfl
    · exact ⟨rfl, rfl⟩
  | pointerUp =>
    change s.handlePointerUp.lastPoint = (if s.receivesPointer then none else s.lastPoint) ∧
      s.handlePointerUp.lastStrokeTime = s.lastStrokeTime
    simp only [GameState.handlePointerUp]
    cases s.receivesPointer with
    | true => exact ⟨rfl, playCombo_lastStrokeTime s⟩
    | false => exact ⟨rfl, rfl⟩
  | pointerLeave =>
    change s.handlePointerLeave.lastPoint = (if s.receivesPointer then none else s.lastPoint) ∧
      s.handlePointerLeave.lastStrokeTime = s.lastStrokeTime
    simp only [GameState.handlePointerLeave]
    cases s.receivesPointer with
    | true => exact ⟨rfl, rfl⟩
    | false => exact ⟨rfl, rfl⟩
  | gestureSlice x y now =>
    change (GameEvent.mark s (.gestureSlice x y now)).Explains s (s.handleGestureSlice x y now)
    simp only [GameEvent.mark, GameState.handleGestureSlice]
    by_cases hactive : s.gameActive = true
    · rw [if_pos hactive, if_neg (by simp [hactive])]
      rfl
    · rw [if_neg hactive, if_pos (by simp [hactive])]
      exact ⟨rfl, rfl⟩
  | swipeSlice direction rx ry clock => exact triggerSwipeSlice_stroke direction rx ry clock s
  | spawn r draws =>
    change (s.spawnFruit lvl r draws).lastPoint = s.lastPoint ∧
      (s.spawnFruit lvl r draws).lastStrokeTime = s.lastStrokeTime
    simp only [GameState.spawnFruit]
    split <;> exact ⟨rfl, rfl⟩
  | frame elapsed now =>
    rcases gameMachine_step_cases lvl s (.frame elapsed now) with ⟨t, hstep, hturn⟩ | ⟨_, hturn⟩
    · obtain ⟨_, _, hmoved⟩ := Option.map_eq_some_iff.mp hstep
      rw [hturn, ← hmoved]
      exact ⟨rfl, rfl⟩
    · rw [hturn]
      exact ⟨rfl, rfl⟩
  | cleanup => exact ⟨rfl, rfl⟩

/-! ### Level starts -/

/-- The game between the levels that are started. -/
structure Arena (R : Type) where
  level : Option (Level R)
  game : GameState R

/-- A level starts, or something happens in it. -/
inductive ArenaEvent (R : Type) where
  | start (lvl : Level R)
  | play (e : GameEvent R)

namespace Arena

/-- Before the first level. -/
def init : Arena R := ⟨none, .init⟩

/-- One event; nothing happens before the first level. -/
def handle (a : Arena R) : ArenaEvent R → Arena R
  | .start lvl => ⟨some lvl, a.game.startLevel lvl⟩
  | .play e =>
    match a.level with
    | none => a
    | some lvl => ⟨some lvl, ((gameMachine lvl).step a.game e).after⟩

/-- The mark of an event. -/
def mark (a : Arena R) : ArenaEvent R → StrokeMark R
  | .start _ => ⟨none, true⟩
  | .play e =>
    match a.level with
    | none => ⟨none, false⟩
    | some _ => e.mark a.game

end Arena

/-- An event between the arenas before and after it. -/
structure ArenaTurn (R : Type) where
  event : ArenaEvent R
  before : Arena R
  after : Arena R

/-- The mark of the event of a turn. -/
def ArenaTurn.mark (t : ArenaTurn R) : StrokeMark R := t.before.mark t.event

/-- Levels that are started one after the other, as a machine. -/
def arenaMachine : Machine (Arena R) (ArenaEvent R) (ArenaTurn R) where
  step a e := ⟨e, a, a.handle e⟩
  next t := some t.after

/-- An event of the arena does to the stroke what its mark says. -/
theorem arena_mark_explains (a : Arena R) (e : ArenaEvent R) :
    (a.mark e).Explains a.game (a.handle e).game := by
  cases e with
  | start lvl => exact ⟨rfl, rfl⟩
  | play e =>
    simp only [Arena.mark, Arena.handle]
    cases a.level with
    | none => exact ⟨rfl, rfl⟩
    | some lvl => exact mark_explains lvl a.game e

/-! ### Runs -/

/-- The state holds the point that may be continued. -/
structure Continues (past : List (StrokeMark R)) (s : GameState R) : Prop where
  point : s.lastPoint = (openPoint past).map TrailPoint.toPoint
  time : ∀ q, openPoint past = some q → s.lastStrokeTime = q.time

/-- A state that is as a mark says holds the point that may be continued. -/
theorem Continues.step {past : List (StrokeMark R)} {s t : GameState R} {m : StrokeMark R}
    (h : Continues past s) (hm : m.Explains s t) : Continues (past ++ [m]) t := by
  have ⟨hpoint, htime⟩ := h
  simp only [StrokeMark.Explains] at hm
  split at hm
  · next p hp =>
    have hopen : openPoint (past ++ [m]) = some p := by
      rw [openPoint_concat]
      simp only [StrokeMark.leaves]
      rw [hp]
    rw [hm]
    have ⟨hlast, hclock⟩ := registerPoint_stroke p.x p.y p.time (if m.breaks then s.lift else s)
    constructor
    · rw [hlast, hopen]
      rfl
    · intro q hq
      rw [hclock, ← Option.some.inj (hopen.symm.trans hq)]
  · next hnone =>
    have hopen : openPoint (past ++ [m]) = if m.breaks then none else openPoint past := by
      rw [openPoint_concat]
      simp only [StrokeMark.leaves]
      rw [hnone]
    constructor
    · rw [hm.1, hopen, hpoint]
      split <;> rfl
    · intro q hq
      rw [hopen] at hq
      split at hq
      · cases hq
      · rw [hm.2]
        exact htime q hq

/-- The point from which a stroke goes on; `FruitNinjaGame.tsx:493,510,522`. -/
def GameState.strokeFrom (now : R) (s : GameState R) : Option (Point R) :=
  if 220 < now - s.lastStrokeTime then none else s.lastPoint

/-- A stroke goes on from the registered point before it, exactly if both are of one stroke. -/
theorem Continues.strokeFrom_eq_some_iff {past : List (StrokeMark R)} {s : GameState R}
    (h : Continues past s) {m : StrokeMark R} {p : TrailPoint R} (hp : m.point = some p)
    (z : Point R) :
    (if m.breaks then s.lift else s).strokeFrom p.time = some z ↔
      ∃ q, SameStroke past m q p ∧ q.toPoint = z := by
  constructor
  · intro hfrom
    cases hbreaks : m.breaks with
    | true =>
      rw [hbreaks, if_pos rfl] at hfrom
      simp only [GameState.strokeFrom] at hfrom
      split at hfrom <;> cases hfrom
    | false =>
      rw [hbreaks, if_neg Bool.false_ne_true] at hfrom
      simp only [GameState.strokeFrom] at hfrom
      split at hfrom
      · cases hfrom
      · next hsoon =>
        rw [h.point] at hfrom
        have ⟨q, hq, hz⟩ := Option.map_eq_some_iff.mp hfrom
        rw [h.time q hq] at hsoon
        exact ⟨q, ⟨hp, hbreaks, not_lt.mp hsoon, (openPoint_eq_some_iff past q).mp hq⟩, hz⟩
  · rintro ⟨q, ⟨_, hbreaks, hsoon, hlast⟩, hz⟩
    have hq := (openPoint_eq_some_iff past q).mpr hlast
    rw [hbreaks, if_neg Bool.false_ne_true]
    simp only [GameState.strokeFrom]
    rw [h.time q hq, if_neg (not_lt.mpr hsoon), h.point, hq, ← hz]
    rfl

/-! ### Geometry of a cut -/

/-- A point as a pair of coordinates. -/
def Point.pair (p : Point ℝ) : ℝ × ℝ := (p.x, p.y)

/-- Centre of a fruit. -/
def Fruit.centre (fruit : Fruit ℝ) : ℝ × ℝ := (fruit.x, fruit.y)

/-- The centre of a fruit is within its radius and 28 of some point of a set. -/
def Fruit.Within (fruit : Fruit ℝ) (zone : Set (ℝ × ℝ)) : Prop :=
  ∃ z ∈ zone, √(sqDist fruit.centre z) ≤ fruit.radius + 28

/-- `distToSegment` is the distance from the nearest point. -/
theorem distToSegment_eq (f a b : Point ℝ) (h : a.pair ≠ b.pair) :
    distToSegment f.x f.y a.x a.y b.x b.y = √(sqDist f.pair
      (AffineMap.lineMap a.pair b.pair (clampUnit (projection f.pair a.pair b.pair)))) := by
  have hlen : (b.x - a.x) * (b.x - a.x) + (b.y - a.y) * (b.y - a.y) ≠ 0 :=
    fun hzero ↦ h ((sqDist_eq_zero_iff b.pair a.pair).mp hzero).symm
  have hline (t : ℝ) : AffineMap.lineMap a.pair b.pair t =
      (a.x + t * (b.x - a.x), a.y + t * (b.y - a.y)) := by
    rw [AffineMap.lineMap_apply]
    ext
    · exact add_comm _ _
    · exact add_comm _ _
  simp only [distToSegment]
  rw [if_neg hlen, hline]
  rfl

/-- A stroke that goes on from a point hits what is within reach of the segment from there. -/
theorem hitBy_some_iff (q p : Point ℝ) (fruit : Fruit ℝ) :
    fruit.hitBy p.x p.y (some q) = true ↔ fruit.Within (segment ℝ q.pair p.pair) := by
  simp only [Fruit.hitBy]
  rw [decide_eq_true_iff]
  simp only [Fruit.dist, Fruit.Within]
  by_cases h : q.pair = p.pair
  · have hx : q.x = p.x := congrArg Prod.fst h
    have hy : q.y = p.y := congrArg Prod.snd h
    have hlen : (p.x - q.x) * (p.x - q.x) + (p.y - q.y) * (p.y - q.y) = 0 := by
      rw [hx, hy, sub_self, sub_self, mul_zero, add_zero]
    simp only [distToSegment]
    rw [if_pos hlen, h, segment_same, hx, hy]
    constructor
    · intro hr
      exact ⟨p.pair, rfl, hr⟩
    · rintro ⟨z, rfl, hr⟩
      exact hr
  · rw [distToSegment_eq ⟨fruit.x, fruit.y⟩ q p h]
    exact nearest_le_iff fruit.centre h _

/-- A new stroke hits what is within reach of its first point. -/
theorem hitBy_none_iff (p : Point ℝ) (fruit : Fruit ℝ) :
    fruit.hitBy p.x p.y none = true ↔ fruit.Within {p.pair} := by
  simp only [Fruit.hitBy]
  rw [decide_eq_true_iff]
  constructor
  · intro hr
    exact ⟨p.pair, rfl, hr⟩
  · rintro ⟨z, rfl, hr⟩
    exact hr

/-- What a blade makes of a fruit: it is sliced afterwards exactly if it was before or is within
reach. A whole fruit within reach is cut in halves, and any other one is left as it is. -/
structure Fruit.Meets (zone : Set (ℝ × ℝ)) (before after : Fruit ℝ) : Prop where
  id : after.id = before.id
  sliced : after.isSliced = true ↔ before.isSliced = true ∨ before.Within zone
  cut : before.isSliced = false → before.Within zone → after = before.slice
  left : before.isSliced = true ∨ ¬before.Within zone → after = before

namespace ArenaTurn

/-- Where the blade is while a point is registered: at the point, and on the segment from the
registered point before it if both are of one stroke. -/
def blade (past : List (ArenaTurn ℝ)) (t : ArenaTurn ℝ) (p : TrailPoint ℝ) : Set (ℝ × ℝ) :=
  {z | z = p.pair ∨
    ∃ q, SameStroke (past.map mark) t.mark q p ∧ z ∈ segment ℝ q.pair p.pair}

/-- A registered point cuts the fruits that are whole and within reach of the blade, and
nothing else. -/
def Isolated (past : List (ArenaTurn ℝ)) (t : ArenaTurn ℝ) : Prop :=
  ∀ p, t.mark.point = some p →
    List.Forall₂ (Fruit.Meets (t.blade past p)) t.before.game.fruits t.after.game.fruits

end ArenaTurn

/-- What a stroke hits is what is within reach of its point and of the segment from the point
from which it goes on. -/
theorem hitBy_iff (prev : Option (Point ℝ)) (p : Point ℝ) (fruit : Fruit ℝ) :
    fruit.hitBy p.x p.y prev = true ↔
      fruit.Within {z | z = p.pair ∨ ∃ q, prev = some q ∧ z ∈ segment ℝ q.pair p.pair} := by
  cases prev with
  | none =>
    rw [hitBy_none_iff]
    have hset : {z | z = p.pair ∨ ∃ q : Point ℝ, none = some q ∧ z ∈ segment ℝ q.pair p.pair} =
        {p.pair} := by
      ext z
      simp
    rw [hset]
  | some q =>
    rw [hitBy_some_iff]
    have hset : {z | z = p.pair ∨ ∃ q', some q = some q' ∧ z ∈ segment ℝ q'.pair p.pair} =
        segment ℝ q.pair p.pair := by
      ext z
      constructor
      · rintro (rfl | ⟨q', hq, hz⟩)
        · exact right_mem_segment ℝ _ _
        · rw [Option.some.inj hq]
          exact hz
      · intro hz
        exact .inr ⟨q, rfl, hz⟩
    rw [hset]

private theorem blade_eq {past : List (ArenaTurn ℝ)} {a : Arena ℝ}
    (h : Continues (past.map ArenaTurn.mark) a.game) {e : ArenaEvent ℝ} {p : TrailPoint ℝ}
    (hp : (a.mark e).point = some p) :
    (arenaMachine.step a e).blade past p =
      {z | z = p.pair ∨ ∃ q, (if (a.mark e).breaks then a.game.lift else a.game).strokeFrom
        p.time = some q ∧ z ∈ segment ℝ q.pair p.pair} := by
  ext z
  apply or_congr Iff.rfl
  constructor
  · rintro ⟨q, hq, hz⟩
    exact ⟨q.toPoint, (h.strokeFrom_eq_some_iff hp q.toPoint).mpr ⟨q, hq, rfl⟩, hz⟩
  · rintro ⟨q, hq, hz⟩
    obtain ⟨k, hk, rfl⟩ := (h.strokeFrom_eq_some_iff hp q).mp hq
    exact ⟨k, hk, hz⟩

private theorem meets_sliceIf {zone : Set (ℝ × ℝ)} {hits : Fruit ℝ → Bool} {fruit : Fruit ℝ}
    (h : hits fruit = true ↔ fruit.Within zone) : fruit.Meets zone (fruit.sliceIf hits) := by
  have hcut : fruit.isCut hits = true ↔ fruit.isSliced = false ∧ fruit.Within zone := by
    rw [← h]
    simp [Fruit.isCut]
  constructor
  · exact Fruit.sliceIf_id hits fruit
  · rw [Fruit.sliceIf_isSliced, Bool.or_eq_true, hcut]
    cases fruit.isSliced <;> simp
  · intro hwhole hreach
    exact if_pos (hcut.mpr ⟨hwhole, hreach⟩)
  · intro hleft
    apply if_neg
    rw [hcut]
    rintro ⟨hwhole, hreach⟩
    rcases hleft with hsliced | hout
    · rw [hwhole] at hsliced
      cases hsliced
    · exact hout hreach

/-- A turn from an arena that holds the point that may be continued keeps strokes apart. -/
theorem isolated_step {past : List (ArenaTurn ℝ)} {a : Arena ℝ}
    (h : Continues (past.map ArenaTurn.mark) a.game) (e : ArenaEvent ℝ) :
    (arenaMachine.step a e).Isolated past := by
  intro p hp
  have hpoint : (a.mark e).point = some p := hp
  have hreg : (a.handle e).game =
      (if (a.mark e).breaks then a.game.lift else a.game).registerPoint p.x p.y p.time := by
    have hmark := arena_mark_explains a e
    simp only [StrokeMark.Explains] at hmark
    rw [hpoint] at hmark
    exact hmark
  have hfruits : (if (a.mark e).breaks then a.game.lift else a.game).fruits = a.game.fruits := by
    split <;> rfl
  have hcut := (strikes_registerPoint p.x p.y p.time
    (if (a.mark e).breaks then a.game.lift else a.game)).fruits
  rw [← hreg, hfruits] at hcut
  change List.Forall₂ _ a.game.fruits (a.handle e).game.fruits
  rw [hcut, List.forall₂_map_right_iff, List.forall₂_same]
  intro fruit _
  apply meets_sliceIf
  rw [blade_eq h hpoint]
  exact hitBy_iff _ p.toPoint fruit

/-- A registered point slices exactly the whole fruits within reach of itself, or of the segment
from the registered point before it when both are of one stroke; no fruit is cut by the line
between two strokes. -/
theorem stroke_isolated (events : List (ArenaEvent ℝ)) :
    ∀ past t rest, arenaMachine.trace Arena.init events = past ++ t :: rest → t.Isolated past := by
  apply arenaMachine.split_forall (I := fun past a ↦ Continues (past.map ArenaTurn.mark) a.game)
    (P := fun past t ↦ t.Isolated past)
  · intro past a e _ ha
    exact isolated_step ha e
  · intro past a e _ b ha hnext
    rw [← Option.some.inj hnext, List.map_append]
    exact Continues.step ha (arena_mark_explains a e)
  · exact ⟨rfl, by simp [openPoint]⟩

/-- The first level, in exact arithmetic. -/
noncomputable def realLevel : Level ℝ := levels.head (List.cons_ne_nil _ _)

/-- Two fruits are launched, one at the left and one in the middle. -/
noncomputable def leftAndMiddle (i : ℕ) : GameState.FruitDraw ℝ :=
  ⟨if i = 0 then 0 else 1 / 2, 0, 0, 0, 0, 0⟩

/-- The first level is started, two fruits appear, and the finger is drawn past the left one. -/
noncomputable def sidestroke : List (ArenaEvent ℝ) :=
  [.start realLevel, .play (.spawn (1 / 2) leftAndMiddle), .play (.gestureSlice 60 480 0),
    .play (.gestureSlice 220 480 10)]

/-- The fruit at the left when it is launched. -/
noncomputable def leftFruit : Fruit ℝ := GameState.launchFruit realLevel (leftAndMiddle 0) 0

/-- The fruit in the middle when it is launched. -/
noncomputable def middleFruit : Fruit ℝ := GameState.launchFruit realLevel (leftAndMiddle 1) 1

private theorem leftFruit_centre : leftFruit.centre = (140, 525) := by
  simp only [leftFruit, Fruit.centre, GameState.launchFruit, leftAndMiddle]
  norm_num

private theorem middleFruit_centre : middleFruit.centre = (400, 525) := by
  simp only [middleFruit, Fruit.centre, GameState.launchFruit, leftAndMiddle]
  norm_num

private theorem spawnFruit_leftAndMiddle (s : GameState ℝ) :
    ((s.startLevel realLevel).spawnFruit realLevel (1 / 2) leftAndMiddle).fruits =
      (List.range 2).map fun i ↦
        GameState.launchFruit realLevel (leftAndMiddle i) (s.spawned + i) := by
  have hcount : GameState.spawnCount realLevel (1 / 2) = 2 := by
    have htwo : (1 / 2 : ℝ) * ((2 : ℤ) - (1 : ℤ) + 1) + (1 : ℤ) = (2 : ℤ) := by norm_num
    change ⌊(1 / 2 : ℝ) * ((2 : ℤ) - (1 : ℤ) + 1) + (1 : ℤ)⌋.toNat = 2
    rw [htwo, Int.floor_intCast]
    rfl
  change (List.range (GameState.spawnCount realLevel (1 / 2))).map _ = _
  rw [hcount]
  rfl

private theorem not_within_of_far {fruit : Fruit ℝ} (hradius : fruit.radius = 32)
    {zone : Set (ℝ × ℝ)} (h : ∀ z ∈ zone, 3600 < sqDist fruit.centre z) : ¬fruit.Within zone := by
  rintro ⟨z, hz, hreach⟩
  rw [hradius, Real.sqrt_le_iff] at hreach
  have hfar := h z hz
  linarith [hreach.2]

private theorem first_point_far :
    ¬leftFruit.Within {(60, 480)} ∧ ¬middleFruit.Within {(60, 480)} := by
  constructor
  · apply not_within_of_far rfl
    rintro z rfl
    rw [leftFruit_centre]
    norm_num [sqDist]
  · apply not_within_of_far rfl
    rintro z rfl
    rw [middleFruit_centre]
    norm_num [sqDist]

private theorem unchanged_of_missed {hits : Fruit ℝ → Bool} {s t : GameState ℝ}
    (h : Strikes hits s t) (hmiss : ∀ fruit ∈ s.fruits, hits fruit = false) :
    t.fruits = s.fruits ∧ t.board = s.board := by
  have hwhole : ∀ fruit ∈ s.fruits, fruit.isCut hits = false := by
    intro fruit hfruit
    rw [Fruit.isCut, hmiss fruit hfruit, Bool.and_false]
  constructor
  · rw [h.fruits]
    apply (List.map_congr_left fun fruit hfruit ↦ ?_).trans s.fruits.map_id
    simp [Fruit.sliceIf, hwhole fruit hfruit]
  · have hnone : cuts hits s.fruits = 0 :=
      List.countP_eq_zero.mpr fun fruit hfruit ↦ by simp [hwhole fruit hfruit]
    rw [h.board, hnone]
    rfl

/-- The second point of the stroke cuts the left fruit, which is in reach of neither end, and leaves
the middle one whole. -/
theorem stroke_isolated_sidestroke :
    ∃ past t, arenaMachine.trace Arena.init sidestroke = past ++ [t] ∧
      (∃ left middle left' middle', t.before.game.fruits = [left, middle] ∧
        t.after.game.fruits = [left', middle'] ∧
        ¬left.Within {(60, 480)} ∧ ¬left.Within {(220, 480)} ∧
        (left.isSliced, middle.isSliced, left'.isSliced, middle'.isSliced) =
          (false, false, true, false)) ∧
      t.Isolated past := by
  let first := arenaMachine.step Arena.init (.start realLevel)
  let second := arenaMachine.step first.after (.play (.spawn (1 / 2) leftAndMiddle))
  let third := arenaMachine.step second.after (.play (.gestureSlice 60 480 0))
  let fourth := arenaMachine.step third.after (.play (.gestureSlice 220 480 10))
  have htrace : arenaMachine.trace Arena.init sidestroke = [first, second, third, fourth] := rfl
  have hspawned : second.after.game.fruits = [leftFruit, middleFruit] :=
    spawnFruit_leftAndMiddle GameState.init
  have hmissed : third.after.game.fruits = second.after.game.fruits ∧
      third.after.game.board = second.after.game.board := by
    apply unchanged_of_missed (strikes_registerPoint 60 480 0 second.after.game)
    have hlast : second.after.game.lastPoint = none := rfl
    have hhits : second.after.game.pointHits 60 480 0 = Fruit.hitBy 60 480 none := by
      unfold GameState.pointHits
      rw [hlast, ite_self]
    intro fruit hfruit
    rw [hhits, Bool.eq_false_iff, Ne, hitBy_none_iff ⟨60, 480⟩]
    rw [hspawned] at hfruit
    rcases List.mem_pair.mp hfruit with rfl | rfl
    · exact first_point_far.1
    · exact first_point_far.2
  have hactive : third.after.game.gameActive = true :=
    congrArg Scoreboard.gameActive hmissed.2
  have hmark : fourth.mark = ⟨some ⟨⟨220, 480⟩, 10⟩, false⟩ := if_pos hactive
  have hopen : openPoint ([first, second, third].map ArenaTurn.mark) = some ⟨⟨60, 480⟩, 0⟩ := rfl
  -- the blade is on the line from the first point
  have hreach : leftFruit.Within (fourth.blade [first, second, third] ⟨⟨220, 480⟩, 10⟩) := by
    refine ⟨(140, 480), .inr ⟨⟨⟨60, 480⟩, 0⟩, ⟨congrArg StrokeMark.point hmark,
      congrArg StrokeMark.breaks hmark, by norm_num, (openPoint_eq_some_iff _ _).mp hopen⟩, ?_⟩, ?_⟩
    · refine ⟨1 / 2, 1 / 2, by norm_num, by norm_num, by norm_num, ?_⟩
      ext <;> norm_num [Point.pair]
    · have hradius : leftFruit.radius = 32 := rfl
      rw [leftFruit_centre, hradius, Real.sqrt_le_iff]
      norm_num [sqDist]
  have hfar : ¬middleFruit.Within (fourth.blade [first, second, third] ⟨⟨220, 480⟩, 10⟩) := by
    apply not_within_of_far rfl
    intro z hz
    have hside : z.1 ≤ 220 := by
      rcases hz with rfl | ⟨q, ⟨_, _, _, hlast⟩, u, v, hu, hv, huv, rfl⟩
      · exact le_rfl
      · have hq := (openPoint_eq_some_iff _ q).mpr hlast
        rw [hopen] at hq
        rw [← Option.some.inj hq]
        change u * 60 + v * 220 ≤ 220
        nlinarith
    rw [middleFruit_centre]
    simp only [sqDist]
    nlinarith [mul_self_nonneg (525 - z.2)]
  have hisolated := stroke_isolated sidestroke [first, second, third] fourth [] htrace
  refine ⟨[first, second, third], fourth, htrace, ?_, hisolated⟩
  have hcuts := hisolated _ (congrArg StrokeMark.point hmark)
  have hbefore : fourth.before.game.fruits = [leftFruit, middleFruit] :=
    hmissed.1.trans hspawned
  rw [hbefore] at hcuts
  generalize fourth.after.game.fruits = after at hcuts ⊢
  obtain _ | ⟨hmeetsLeft, _ | ⟨hmeetsMiddle, _ | _⟩⟩ := hcuts
  refine ⟨leftFruit, middleFruit, _, _, hbefore, rfl, first_point_far.1, ?_, ?_⟩
  · apply not_within_of_far rfl
    rintro z rfl
    rw [leftFruit_centre]
    norm_num [sqDist]
  · rw [hmeetsLeft.sliced.mpr (.inr hreach), hmeetsMiddle.left (.inr hfar)]
    rfl

end VisionGame.Game
