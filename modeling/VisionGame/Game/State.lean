import VisionGame.Base.Machine
import VisionGame.Game.Levels

/-!
# State of the game and its events

Library `Game`. `components/FruitNinjaGame.tsx:41–89,331–349,381–407,432–604,615–803,891–997`.
The state is the mutable `stateRef` of the component, less the data that is only drawn:
particles, floating texts, emojis and the score shown by React. Random numbers and clock
readings are arguments of the events. Three fields are observations that no step reads: the
calls of `handleGameWin` and `playCombo` since the level started, and the number of fruits
ever spawned, which also numbers them.
-/

namespace VisionGame.Game
open VisionGame.Base

/-! ### Data -/

/-- Position in the logical field of 800 by 500. -/
structure Point (R : Type) where
  x : R
  y : R

/-- Point of the blade's trail; `FruitNinjaGame.tsx:66–70`. -/
structure TrailPoint (R : Type) extends Point R where
  time : R

/-- Half of a sliced fruit; `FruitNinjaGame.tsx:41–48`. -/
structure FruitHalf (R : Type) where
  x : R
  y : R
  vx : R
  vy : R
  rotation : R
  rotSpeed : R

/-- Fruit; `FruitNinjaGame.tsx:50–64`. The number `id` stands for the object itself; the
source's random identifier is never read. -/
structure Fruit (R : Type) where
  id : ℕ
  x : R
  y : R
  vx : R
  vy : R
  radius : R
  rotation : R
  rotSpeed : R
  isSliced : Bool
  half1 : Option (FruitHalf R)
  half2 : Option (FruitHalf R)

/-- `stateRef.current` and `canvasRef.current`; `FruitNinjaGame.tsx:322–349`. -/
structure GameState (R : Type) where
  fruits : List (Fruit R)
  trail : List (TrailPoint R)
  score : ℕ
  slicedInStrokeCount : ℕ
  lastStrokeTime : R
  lastPoint : Option (Point R)
  levelTarget : ℕ
  isInfinite : Bool
  gameActive : Bool
  scale : R
  offsetX : R
  offsetY : R
  /-- The canvas is mounted. -/
  canvas : Bool
  /-- Score at each call of `handleGameWin`. -/
  wins : List ℕ
  /-- Argument of each call of `playCombo`. -/
  combos : List ℕ
  spawned : ℕ

variable {R : Type} [Scalar R]

/-- State before the first level; `FruitNinjaGame.tsx:331–349`. -/
def GameState.init : GameState R where
  fruits := []
  trail := []
  score := 0
  slicedInStrokeCount := 0
  lastStrokeTime := 0
  lastPoint := none
  levelTarget := 15
  isInfinite := false
  gameActive := false
  scale := 1
  offsetX := 0
  offsetY := 0
  canvas := false
  wins := []
  combos := []
  spawned := 0

/-! ### Collisions -/

/-- `FruitNinjaGame.tsx:83–89`. -/
def distToSegment (px py x1 y1 x2 y2 : R) : R :=
  let l2 := (x2 - x1) * (x2 - x1) + (y2 - y1) * (y2 - y1)
  if l2 = 0 then Scalar.hypot (px - x1) (py - y1)
  else
    let t := ((px - x1) * (x2 - x1) + (py - y1) * (y2 - y1)) / l2
    let t := max 0 (min 1 t)
    Scalar.hypot (px - (x1 + t * (x2 - x1))) (py - (y1 + t * (y2 - y1)))

namespace Fruit

/-- Distance from the stroke that ends in a point; `FruitNinjaGame.tsx:532–534`. -/
def dist (x y : R) (prev : Option (Point R)) (fruit : Fruit R) : R :=
  match prev with
  | some p => distToSegment fruit.x fruit.y p.x p.y x y
  | none => Scalar.hypot (fruit.x - x) (fruit.y - y)

/-- The stroke comes within reach; `FruitNinjaGame.tsx:537`. -/
def hitBy (x y : R) (prev : Option (Point R)) (fruit : Fruit R) : Bool :=
  fruit.dist x y prev ≤ fruit.radius + 28

/-- The fruit is cut in halves; `FruitNinjaGame.tsx:538–558`. -/
def slice (fruit : Fruit R) : Fruit R :=
  { fruit with
    isSliced := true
    half1 := some
      { x := fruit.x, y := fruit.y, vx := fruit.vx - 2.2, vy := fruit.vy - 0.8,
        rotation := fruit.rotation, rotSpeed := -fruit.rotSpeed - 0.04 }
    half2 := some
      { x := fruit.x, y := fruit.y, vx := fruit.vx + 2.2, vy := fruit.vy - 0.8,
        rotation := fruit.rotation, rotSpeed := fruit.rotSpeed + 0.04 } }

end Fruit

namespace GameState

/-- `FruitNinjaGame.tsx:898–902`; the React part is in the session. -/
def handleGameWin (s : GameState R) : GameState R :=
  { s with gameActive := false, wins := s.wins ++ [s.score] }

/-- Bookkeeping of one cut; `FruitNinjaGame.tsx:540,595–601`. -/
def countCut (s : GameState R) : GameState R :=
  let s := { s with slicedInStrokeCount := s.slicedInStrokeCount + 1, score := s.score + 1 }
  if !s.isInfinite && s.levelTarget ≤ s.score then s.handleGameWin else s

/-- One round of the loop over the fruits; `FruitNinjaGame.tsx:529–603`. -/
def visit (hits : Fruit R → Bool) (s : GameState R) (fruit : Fruit R) : GameState R :=
  if fruit.isSliced then { s with fruits := s.fruits ++ [fruit] }
  else if hits fruit then
    let s := s.countCut
    { s with fruits := s.fruits ++ [fruit.slice] }
  else { s with fruits := s.fruits ++ [fruit] }

/-- The loop over the fruits with a test for being hit. -/
def sliceWhere (hits : Fruit R → Bool) (s : GameState R) : GameState R :=
  s.fruits.foldl (visit hits) { s with fruits := [] }

/-- `FruitNinjaGame.tsx:527–604`. -/
def checkCollisions (x y : R) (prev : Option (Point R)) (s : GameState R) : GameState R :=
  s.sliceWhere (Fruit.hitBy x y prev)

/-! ### Strokes -/

/-- `playCombo` for a stroke that cut several fruits. -/
def playCombo (s : GameState R) : GameState R :=
  if 1 < s.slicedInStrokeCount then { s with combos := s.combos ++ [s.slicedInStrokeCount] }
  else s

/-- A stroke that paused is over; `FruitNinjaGame.tsx:493–513`. -/
def endPausedStroke (now : R) (s : GameState R) : GameState R :=
  if 220 < now - s.lastStrokeTime then
    { s.playCombo with slicedInStrokeCount := 0, lastPoint := none }
  else s

/-- The trail keeps the last ten points; `FruitNinjaGame.tsx:515–519`. -/
def extendTrail (x y now : R) (s : GameState R) : GameState R :=
  let trail := s.trail ++ [⟨⟨x, y⟩, now⟩]
  { s with trail := if 10 < trail.length then trail.tail else trail, lastStrokeTime := now }

/-- `FruitNinjaGame.tsx:489–524`. -/
def registerPoint (x y now : R) (s : GameState R) : GameState R :=
  let s := (s.endPausedStroke now).extendTrail x y now
  { s.checkCollisions x y s.lastPoint with lastPoint := some ⟨x, y⟩ }

/-- `FruitNinjaGame.tsx:433–436`. -/
def handleGestureSlice (x y now : R) (s : GameState R) : GameState R :=
  if !s.gameActive then s else s.registerPoint x y now

/-- Directions of a swipe. -/
inductive Direction where
  | left
  | right
  | random
  deriving DecidableEq, Repr

/-- Ends of the stroke of a swipe; `FruitNinjaGame.tsx:442–454`. -/
def swipeEnds (direction : Direction) (rx ry : R) : Point R × Point R :=
  match direction with
  | .left => (⟨720, 120⟩, ⟨80, 380⟩)
  | .right => (⟨80, 120⟩, ⟨720, 380⟩)
  | .random =>
    let start : Point R := ⟨rx * 300 + 80, ry * 200 + 80⟩
    (start, ⟨start.x + 380, start.y + 180⟩)

/-- The eleven points of a swipe; `FruitNinjaGame.tsx:460–464`. -/
def swipePoints (ends : Point R × Point R) (clock : ℕ → R) : List (TrailPoint R) :=
  (List.range 11).map fun (i : ℕ) ↦
    let t : R := (i : R) / 10
    ⟨⟨ends.1.x + (ends.2.x - ends.1.x) * t, ends.1.y + (ends.2.y - ends.1.y) * t⟩, clock i⟩

/-- Points are added to the trail and checked one after the other;
`FruitNinjaGame.tsx:464–468`. -/
def sweep : Point R → List (TrailPoint R) → GameState R → GameState R
  | _, [], s => s
  | prev, p :: ps, s =>
    let s := { s with trail := s.trail ++ [p] }
    sweep p.toPoint ps (s.checkCollisions p.x p.y (some prev))

/-- `FruitNinjaGame.tsx:437–486`. -/
def triggerSwipeSlice (direction : Direction) (rx ry : R) (clock : ℕ → R) (s : GameState R) :
    GameState R :=
  if !s.gameActive || !s.canvas then s
  else
    let ends := swipeEnds direction rx ry
    (sweep ends.1 (swipePoints ends clock) { s with slicedInStrokeCount := 0 }).playCombo

/-! ### Pointer -/

/-- `FruitNinjaGame.tsx:381–407`. -/
def resizeCanvas (w h : R) (s : GameState R) : GameState R :=
  if !s.canvas then s
  else if 8 / 5 * h < w then
    { s with scale := h / 500, offsetX := (w - 800 * (h / 500)) / 2, offsetY := 0 }
  else { s with scale := w / 800, offsetX := 0, offsetY := (h - 500 * (w / 800)) / 2 }

/-- Logical position of a pointer; `FruitNinjaGame.tsx:932–937`. -/
def toLogical (rawX rawY : R) (s : GameState R) : Point R :=
  ⟨(rawX - s.offsetX) / s.scale, (rawY - s.offsetY) / s.scale⟩

/-- The canvas can receive pointer events: it is mounted and has an extent. -/
def receivesPointer (s : GameState R) : Bool := s.canvas && s.scale ≠ 0

/-- `FruitNinjaGame.tsx:925–942`. -/
def handlePointerDown (rawX rawY now : R) (s : GameState R) : GameState R :=
  if !s.receivesPointer then s
  else
    let p := s.toLogical rawX rawY
    { s with trail := [], lastPoint := none }.registerPoint p.x p.y now

/-- `FruitNinjaGame.tsx:944–965`. -/
def handlePointerMove (rawX rawY now : R) (s : GameState R) : GameState R :=
  if !s.receivesPointer then s
  else
    let p := s.toLogical rawX rawY
    match s.trail.getLast? with
    | none => s.registerPoint p.x p.y now
    | some lastPt =>
      if 2 < Scalar.hypot (p.x - lastPt.x) (p.y - lastPt.y) then s.registerPoint p.x p.y now
      else s

/-- `FruitNinjaGame.tsx:967–992`. -/
def handlePointerUp (s : GameState R) : GameState R :=
  if !s.receivesPointer then s
  else { s.playCombo with slicedInStrokeCount := 0, lastPoint := none }

/-- `FruitNinjaGame.tsx:994–997`. -/
def handlePointerLeave (s : GameState R) : GameState R :=
  if !s.receivesPointer then s else { s with trail := [], lastPoint := none }

/-! ### Level start, spawner, frames -/

/-- The effect of a level that is played; `FruitNinjaGame.tsx:615–623`. -/
def startLevel (lvl : Level R) (s : GameState R) : GameState R :=
  { s with
    score := 0
    levelTarget := lvl.targetScore
    isInfinite := lvl.id = 6
    fruits := []
    gameActive := true
    slicedInStrokeCount := 0
    lastPoint := none
    canvas := true
    wins := []
    combos := [] }

/-- The effect is cleaned up and the canvas unmounted; `FruitNinjaGame.tsx:891–895`. -/
def cleanup (s : GameState R) : GameState R := { s with gameActive := false, canvas := false }

/-- Random numbers for one fruit, each from `[0, 1)`; `FruitNinjaGame.tsx:648–668`. -/
structure FruitDraw (R : Type) where
  launch : R
  target : R
  flight : R
  speed : R
  rotation : R
  spin : R

/-- One fruit at the bottom; `FruitNinjaGame.tsx:648–670`. -/
def launchFruit (lvl : Level R) (draw : FruitDraw R) (id : ℕ) : Fruit R :=
  let rx := draw.launch * 520 + 140
  let targetX := 400 + (draw.target * 240 - 120)
  let flightTime := draw.flight * 40 + 55
  { id := id
    x := rx
    y := 525
    vx := (targetX - rx) / flightTime
    vy := draw.speed * (lvl.maxSpeedY - lvl.minSpeedY) + lvl.minSpeedY
    radius := lvl.fruitRadius
    rotation := draw.rotation * Scalar.pi
    rotSpeed := draw.spin * 0.05 - 0.025
    isSliced := false
    half1 := none
    half2 := none }

/-- Number of fruits of one spawn; `FruitNinjaGame.tsx:642–645`. -/
def spawnCount (lvl : Level R) (r : R) : ℕ :=
  ⌊r * (lvl.spawnCountMax - lvl.spawnCountMin + 1) + lvl.spawnCountMin⌋.toNat

/-- `FruitNinjaGame.tsx:640–675`; the timer is set elsewhere. -/
def spawnFruit (lvl : Level R) (r : R) (draws : ℕ → FruitDraw R) (s : GameState R) :
    GameState R :=
  if !s.gameActive then s
  else
    let count := spawnCount lvl r
    { s with
      fruits := s.fruits ++
        (List.range count).map fun i ↦ launchFruit lvl (draws i) (s.spawned + i)
      spawned := s.spawned + count }

end GameState

/-- A half moves for some time; `FruitNinjaGame.tsx:759–767`. -/
def FruitHalf.move (gravity dt : R) (h : FruitHalf R) : FruitHalf R :=
  { h with
    x := h.x + h.vx * dt
    y := h.y + h.vy * dt
    vy := h.vy + (gravity + 0.04) * dt
    rotation := h.rotation + h.rotSpeed * dt }

/-- A fruit moves for some time; `FruitNinjaGame.tsx:738–741`. -/
def Fruit.move (gravity dt : R) (fruit : Fruit R) : Fruit R :=
  { fruit with
    x := fruit.x + fruit.vx * dt
    y := fruit.y + fruit.vy * dt
    vy := fruit.vy + gravity * dt
    rotation := fruit.rotation + fruit.rotSpeed * dt }

/-- One fruit in a frame, and whether it stays; absent when a half is missing.
`FruitNinjaGame.tsx:736–797`. -/
def Fruit.advance (gravity dt : R) (fruit : Fruit R) : Option (Fruit R × Bool) :=
  if !fruit.isSliced then
    let fruit := fruit.move gravity dt
    some (fruit, !(560 < fruit.y && 0 < fruit.vy))
  else
    match fruit.half1, fruit.half2 with
    | some h1, some h2 =>
      let h1 := h1.move gravity dt
      let h2 := h2.move gravity dt
      some ({ fruit with half1 := some h1, half2 := some h2 }, h1.y < 540 && h2.y < 540)
    | _, _ => none

namespace GameState

/-- Time step of a frame; `FruitNinjaGame.tsx:681`. -/
def frameStep (elapsed : R) : R := min 2.5 (elapsed / 16.666)

/-- `FruitNinjaGame.tsx:680–801`; absent when a frame raises. -/
def render (lvl : Level R) (elapsed now : R) (s : GameState R) : Option (GameState R) :=
  (s.fruits.mapM (Fruit.advance lvl.gravity (frameStep elapsed))).map fun moved ↦
    { s with
      fruits := (moved.filter (·.2)).map (·.1)
      trail := s.trail.filter fun pt ↦ now - pt.time < 130 }

end GameState

/-! ### Events -/

/-- Event between the start of a level and the next one. -/
inductive GameEvent (R : Type) where
  | resize (w h : R)
  | pointerDown (rawX rawY now : R)
  | pointerMove (rawX rawY now : R)
  | pointerUp
  | pointerLeave
  | gestureSlice (x y now : R)
  | swipeSlice (direction : GameState.Direction) (rx ry : R) (clock : ℕ → R)
  | spawn (r : R) (draws : ℕ → GameState.FruitDraw R)
  | frame (elapsed now : R)
  | cleanup

/-- What an event does to the state; absent when it raises. -/
def GameState.step (lvl : Level R) (s : GameState R) : GameEvent R → Option (GameState R)
  | .resize w h => some (s.resizeCanvas w h)
  | .pointerDown rawX rawY now => some (s.handlePointerDown rawX rawY now)
  | .pointerMove rawX rawY now => some (s.handlePointerMove rawX rawY now)
  | .pointerUp => some s.handlePointerUp
  | .pointerLeave => some s.handlePointerLeave
  | .gestureSlice x y now => some (s.handleGestureSlice x y now)
  | .swipeSlice direction rx ry clock => some (s.triggerSwipeSlice direction rx ry clock)
  | .spawn r draws => some (s.spawnFruit lvl r draws)
  | .frame elapsed now => s.render lvl elapsed now
  | .cleanup => some s.cleanup

/-- An event between the states before and after it. -/
structure GameTurn (R : Type) where
  event : GameEvent R
  before : GameState R
  after : GameState R
  raised : Bool

/-- A level that is played, as a machine; an event that raises leaves the state. -/
def gameMachine (lvl : Level R) : Machine (GameState R) (GameEvent R) (GameTurn R) where
  step s e :=
    match s.step lvl e with
    | some t => ⟨e, s, t, false⟩
    | none => ⟨e, s, s, true⟩
  next t := some t.after

end VisionGame.Game
