import VisionGame.Game.FruitState
import VisionGame.Game.Voices

/-!
# Scene around the game

Library `Game`. `components/FruitNinjaGame.tsx:29–39,72–80,325–349,437–523,527–604,615–634,680–735,
838–882,925–992`. A cut sets off particles of a pool of fifty and a text, a combo sets off another
text, and sounds are played; frames move what is seen and let it fade, and show the score to React
from time to time. Colours, identifiers and the drawing itself are left out. The cosine and the
sine of a random angle are drawn instead of the angle.
-/

namespace VisionGame.Game
open VisionGame.Base

/-! ### Data -/

/-- Particle of the pool; `FruitNinjaGame.tsx:29–39`. -/
structure Particle (R : Type) where
  x : R
  y : R
  vx : R
  vy : R
  radius : R
  alpha : R
  life : R
  active : Bool

/-- What a floating text says. -/
inductive TextLabel where
  | plusOne
  | combo (count : ℕ)
  deriving DecidableEq, Repr

/-- The text itself; `FruitNinjaGame.tsx:480,503,586`. -/
def TextLabel.text : TextLabel → String
  | plusOne => "+1"
  | combo count => "Combo x" ++ toString count

/-- `FloatingText`; `FruitNinjaGame.tsx:72–80`. -/
structure FloatingText (R : Type) where
  x : R
  y : R
  label : TextLabel
  alpha : R
  scale : R

/-- The game and what is seen and heard around it. `shownScore` is the React state `score`;
`sounds` is history: the calls of the synthesizer. -/
structure Scene (R : Type) where
  game : GameState R
  particles : List (Particle R)
  floatingTexts : List (FloatingText R)
  lastScoreSync : R
  shownScore : ℕ
  sounds : List Sound

variable {R : Type} [Scalar R]

/-- Random numbers of a particle: the cosine and the sine of its angle, and two from `[0, 1)`;
`FruitNinjaGame.tsx:566–573`. -/
structure ParticleDraw (R : Type) where
  cos : R
  sin : R
  force : R
  radius : R

/-- The pool before the first cut; `FruitNinjaGame.tsx:326–328`. -/
def preallocatedParticles : List (Particle R) := List.replicate 50 ⟨0, 0, 0, 0, 0, 0, 0, false⟩

/-- State before the first level; `FruitNinjaGame.tsx:316,331–349`. -/
def Scene.init : Scene R where
  game := .init
  particles := preallocatedParticles
  floatingTexts := []
  lastScoreSync := 0
  shownScore := 0
  sounds := []

/-! ### Cuts -/

/-- A particle is set off where a fruit is cut; `FruitNinjaGame.tsx:566–577`. -/
def Particle.ignite (fruit : Fruit R) (draw : ParticleDraw R) : Particle R :=
  let force := draw.force * 2.8 + 1.5
  { x := fruit.x
    y := fruit.y
    vx := draw.cos * force
    vy := draw.sin * force - 0.5
    radius := draw.radius * 2.2 + 2
    alpha := 1
    life := 1
    active := true }

/-- The loop over the pool, which has set off some particles; `FruitNinjaGame.tsx:561–579`. -/
def burst (fruit : Fruit R) (draws : ℕ → ParticleDraw R) :
    ℕ → ℕ → List (Particle R) → List (Particle R)
  | _, _, [] => []
  | i, particlesSpawned, p :: ps =>
    if 5 ≤ particlesSpawned then p :: ps
    else if !p.active then
      .ignite fruit (draws i) :: burst fruit draws (i + 1) (particlesSpawned + 1) ps
    else p :: burst fruit draws (i + 1) particlesSpawned ps

namespace Scene

/-- A method of the synthesizer is called. -/
def playSound (sound : Sound) (s : Scene R) : Scene R := { s with sounds := s.sounds ++ [sound] }

/-- A text appears. -/
def addText (label : TextLabel) (x y scale : R) (s : Scene R) : Scene R :=
  { s with floatingTexts := s.floatingTexts ++ [⟨x, y, label, 1, scale⟩] }

/-- Sound, particles and text of a cut; `FruitNinjaGame.tsx:539,560–592`. -/
def cutEffects (fruit : Fruit R) (draws : ℕ → ParticleDraw R) (s : Scene R) : Scene R :=
  let s := s.playSound .squish
  let s := { s with particles := burst fruit draws 0 0 s.particles }
  if s.floatingTexts.length < 10 then s.addText .plusOne fruit.x (fruit.y - 10) 1 else s

/-- `setScore` on a win; `FruitNinjaGame.tsx:598–599`. -/
def syncOnWin (s : Scene R) : Scene R :=
  if !s.game.isInfinite && s.game.levelTarget ≤ s.game.score then
    { s with shownScore := s.game.score }
  else s

/-- One round of the loop over the fruits; `FruitNinjaGame.tsx:529–603`. -/
def visit (hits : Fruit R → Bool) (draws : ℕ → ℕ → ParticleDraw R) (s : Scene R)
    (fruit : Fruit R) : Scene R :=
  let t := { s with game := s.game.visit hits fruit }
  if fruit.isCut hits then (t.cutEffects fruit (draws fruit.id)).syncOnWin else t

/-- `FruitNinjaGame.tsx:527–604`. -/
def checkCollisions (x y : R) (prev : Option (Point R)) (draws : ℕ → ℕ → ParticleDraw R)
    (s : Scene R) : Scene R :=
  s.game.fruits.foldl (visit (Fruit.hitBy x y prev) draws)
    { s with game := { s.game with fruits := [] } }

/-! ### Strokes -/

/-- The text of a combo in the middle of a trail of more than two points;
`FruitNinjaGame.tsx:496–507,976–987`. -/
def trailText (s : Scene R) : Scene R :=
  if 2 < s.game.trail.length then
    match s.game.trail[s.game.trail.length / 2]? with
    | some mid => s.addText (.combo s.game.slicedInStrokeCount) mid.x (mid.y - 20) 1.2
    | none => s
  else s

/-- Sound and text of a stroke that cut several fruits. -/
def playCombo (showText : Scene R → Scene R) (s : Scene R) : Scene R :=
  if 1 < s.game.slicedInStrokeCount then
    let t := showText (s.playSound (.combo s.game.slicedInStrokeCount))
    { t with game := s.game.playCombo }
  else s

/-- A stroke that paused is over; `FruitNinjaGame.tsx:493–513`. -/
def endPausedStroke (now : R) (s : Scene R) : Scene R :=
  if 220 < now - s.game.lastStrokeTime then
    { s.playCombo trailText with game := s.game.endPausedStroke now }.playSound .whoosh
  else s

/-- `FruitNinjaGame.tsx:489–524`. -/
def registerPoint (x y now : R) (draws : ℕ → ℕ → ParticleDraw R) (s : Scene R) : Scene R :=
  let s := s.endPausedStroke now
  let s := { s with game := s.game.extendTrail x y now }
  let s := s.checkCollisions x y s.game.lastPoint draws
  { s with game := { s.game with lastPoint := some ⟨x, y⟩ } }

/-- `FruitNinjaGame.tsx:433–436`. -/
def handleGestureSlice (x y now : R) (draws : ℕ → ℕ → ParticleDraw R) (s : Scene R) : Scene R :=
  if !s.game.gameActive then s else s.registerPoint x y now draws

/-- `FruitNinjaGame.tsx:464–468`. -/
def sweep (draws : ℕ → ℕ → ParticleDraw R) : Point R → List (TrailPoint R) → Scene R → Scene R
  | _, [], s => s
  | prev, p :: ps, s =>
    let s := { s with game := { s.game with trail := s.game.trail ++ [p] } }
    sweep draws p.toPoint ps (s.checkCollisions p.x p.y (some prev) draws)

/-- The text of a combo in the middle of a swipe; `FruitNinjaGame.tsx:474–484`. -/
def swipeText (ends : Point R × Point R) (s : Scene R) : Scene R :=
  s.addText (.combo s.game.slicedInStrokeCount) ((ends.1.x + ends.2.x) / 2)
    ((ends.1.y + ends.2.y) / 2 - 20) 1.2

/-- `FruitNinjaGame.tsx:437–486`. -/
def triggerSwipeSlice (direction : GameState.Direction) (rx ry : R) (clock : ℕ → R)
    (draws : ℕ → ℕ → ParticleDraw R) (s : Scene R) : Scene R :=
  if !s.game.gameActive || !s.game.canvas then s
  else
    let ends := GameState.swipeEnds direction rx ry
    let s := s.playSound .whoosh
    let s := { s with game := { s.game with slicedInStrokeCount := 0 } }
    (sweep draws ends.1 (GameState.swipePoints ends clock) s).playCombo (swipeText ends)

/-! ### Pointer -/

/-- `FruitNinjaGame.tsx:925–942`. -/
def handlePointerDown (rawX rawY now : R) (draws : ℕ → ℕ → ParticleDraw R) (s : Scene R) :
    Scene R :=
  if !s.game.receivesPointer then s
  else
    let p := s.game.toLogical rawX rawY
    { s with game := { s.game with trail := [], lastPoint := none } }.registerPoint p.x p.y now
      draws

/-- `FruitNinjaGame.tsx:944–965`. -/
def handlePointerMove (rawX rawY now : R) (draws : ℕ → ℕ → ParticleDraw R) (s : Scene R) :
    Scene R :=
  if !s.game.receivesPointer then s
  else
    let p := s.game.toLogical rawX rawY
    match s.game.trail.getLast? with
    | none => s.registerPoint p.x p.y now draws
    | some lastPt =>
      if 2 < Scalar.hypot (p.x - lastPt.x) (p.y - lastPt.y) then s.registerPoint p.x p.y now draws
      else s

/-- `FruitNinjaGame.tsx:967–992`. -/
def handlePointerUp (s : Scene R) : Scene R :=
  if !s.game.receivesPointer then s
  else { s.playCombo trailText with game := s.game.handlePointerUp }

/-! ### Level start and frames -/

/-- The effect of a level that is played; `FruitNinjaGame.tsx:615–630`. -/
def startLevel (lvl : Level R) (s : Scene R) : Scene R :=
  { s with
    game := s.game.startLevel lvl
    floatingTexts := []
    particles := s.particles.map fun p ↦ { p with active := false }
    shownScore := 0 }

end Scene

/-- A particle in a frame; `FruitNinjaGame.tsx:709–720`. -/
def Particle.update (dt : R) (p : Particle R) : Particle R :=
  if !p.active then p
  else
    let life := p.life - 0.020 * dt
    let p :=
      { p with
        x := p.x + p.vx * dt
        y := p.y + p.vy * dt
        vy := p.vy + 0.08 * dt
        life := life
        alpha := max 0 life }
    if p.life ≤ 0 || p.alpha < 0.05 || 520 < p.y then { p with active := false } else p

/-- A text in a frame; `FruitNinjaGame.tsx:840–841`. -/
def FloatingText.fade (dt : R) (t : FloatingText R) : FloatingText R :=
  { t with y := t.y - 1.0 * dt, alpha := t.alpha - 0.022 * dt }

namespace Scene

/-- The score is shown again after half a second; `FruitNinjaGame.tsx:878–882`. -/
def syncScore (now : R) (s : Scene R) : Scene R :=
  if 500 < now - s.lastScoreSync then { s with lastScoreSync := now, shownScore := s.game.score }
  else s

/-- `FruitNinjaGame.tsx:680–887`; absent when a frame raises. -/
def render (lvl : Level R) (elapsed now : R) (s : Scene R) : Option (Scene R) :=
  (s.game.render lvl elapsed now).map fun game ↦
    let dt := GameState.frameStep elapsed
    { s with
      game := game
      particles := s.particles.map (Particle.update dt)
      floatingTexts := (s.floatingTexts.map (FloatingText.fade dt)).filter fun t ↦ 0 < t.alpha }
    |>.syncScore now

/-- What an event does; absent when it raises. -/
def step (lvl : Level R) (draws : ℕ → ℕ → ParticleDraw R) (s : Scene R) :
    GameEvent R → Option (Scene R)
  | .pointerDown rawX rawY now => some (s.handlePointerDown rawX rawY now draws)
  | .pointerMove rawX rawY now => some (s.handlePointerMove rawX rawY now draws)
  | .pointerUp => some s.handlePointerUp
  | .gestureSlice x y now => some (s.handleGestureSlice x y now draws)
  | .swipeSlice direction rx ry clock => some (s.triggerSwipeSlice direction rx ry clock draws)
  | .frame elapsed now => s.render lvl elapsed now
  | e => (s.game.step lvl e).map fun game ↦ { s with game := game }

end Scene

/-- Event with the random numbers of the particles it may set off, by fruit and particle. -/
structure SceneEvent (R : Type) where
  event : GameEvent R
  draws : ℕ → ℕ → ParticleDraw R

/-- An event between the scenes before and after it. -/
structure SceneTurn (R : Type) where
  event : SceneEvent R
  before : Scene R
  after : Scene R
  raised : Bool

/-- A level that is played with everything around it. -/
def sceneMachine (lvl : Level R) : Machine (Scene R) (SceneEvent R) (SceneTurn R) where
  step s e :=
    match s.step lvl e.draws e.event with
    | some t => ⟨e, s, t, false⟩
    | none => ⟨e, s, s, true⟩
  next t := some t.after

end VisionGame.Game
