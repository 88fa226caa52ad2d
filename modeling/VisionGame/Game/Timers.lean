import VisionGame.Game.Session

/-!
# Timers and frames of the level effect

Library `Game`. `components/FruitNinjaGame.tsx:606–677,680–682,884–923`. Each run of the level
effect has variables of its own, in which its callbacks keep the identifiers of the timer and
the frame that they set last; the cleanup of the run clears what these variables name. The game
itself is shared by all runs. The browser calls a pending callback at any time, React commits
at any time. The invariant says that what is pending is what the variables of the last run name.
-/

namespace VisionGame.Game
open VisionGame.Base

variable {R : Type} [Scalar R]

/-! ### Callbacks and their runs -/

/-- Callback that the browser will call, of some run of the effect. -/
structure Callback where
  id : ℕ
  run : ℕ
  deriving DecidableEq, Repr

/-- Variables of a run of the effect, the level among them; `FruitNinjaGame.tsx:608,635–636`. -/
structure EffectScope (R : Type) where
  activeLevel : Level R
  animFrameId : Option ℕ
  spawnerTimerId : Option ℕ

/-- The component and what it has pending. The last field is history: the game has been won or
cleaned up since the last run of the effect. -/
structure TimedSession (R : Type) where
  session : Session R
  /-- Number of runs of the effect; the last one has this number. -/
  runs : ℕ
  scopes : ℕ → Option (EffectScope R)
  /-- Run whose cleanup React calls next. -/
  cleanup : Option ℕ
  timers : List Callback
  frames : List Callback
  nextId : ℕ
  ended : Bool

/-- What can happen next: the user acts on the screens, React commits, the component is closed,
something happens in the level, or the browser calls a callback. -/
inductive TimedEvent (R : Type) where
  | nextSlide
  | prevSlide
  | pressStart
  | pressRepeat
  | exitGame
  | commit
  | unmount
  | play (e : GameEvent R)
  | timer (id : ℕ) (r : R) (draws : ℕ → GameState.FruitDraw R)
  | frame (id : ℕ) (elapsed now : R)

/-- The event comes from the user, a gesture or the window. -/
def GameEvent.isInput : GameEvent R → Bool
  | .spawn _ _ => false
  | .frame _ _ => false
  | .cleanup => false
  | _ => true

/-- What the level effect depends on has changed; `FruitNinjaGame.tsx:896`. -/
def Session.effectDue (s : Session R) : Bool :=
  (s.isPlaying, s.activeLevel.map Level.id) ≠ s.committed

namespace TimedSession

/-- A component that is mounted for the first time. -/
def mount (storage : Option (List ℕ)) : TimedSession R where
  session := .mount storage []
  runs := 0
  scopes := fun _ ↦ none
  cleanup := none
  timers := []
  frames := []
  nextId := 0
  ended := false

/-- `spawnerTimerId = setTimeout(spawnFruit, delay)` in a run with these variables. -/
def setTimer (run : ℕ) (scope : EffectScope R) (s : TimedSession R) : TimedSession R :=
  { s with
    timers := s.timers ++ [⟨s.nextId, run⟩]
    scopes := Function.update s.scopes run (some { scope with spawnerTimerId := some s.nextId })
    nextId := s.nextId + 1 }

/-- `animFrameId = requestAnimationFrame(render)` in a run with these variables. -/
def requestFrame (run : ℕ) (scope : EffectScope R) (s : TimedSession R) : TimedSession R :=
  { s with
    frames := s.frames ++ [⟨s.nextId, run⟩]
    scopes := Function.update s.scopes run (some { scope with animFrameId := some s.nextId })
    nextId := s.nextId + 1 }

/-- The cleanup of the last run; `FruitNinjaGame.tsx:891–895`. -/
def runCleanup (s : TimedSession R) : TimedSession R :=
  match s.cleanup.bind s.scopes with
  | none => s
  | some scope =>
    { s with
      session := { s.session with game := s.session.game.cleanup }
      frames := s.frames.filter fun cb ↦ some cb.id ≠ scope.animFrameId
      timers := s.timers.filter fun cb ↦ some cb.id ≠ scope.spawnerTimerId
      cleanup := none
      ended := true }

/-- The effect runs on a session that has been committed; `FruitNinjaGame.tsx:607–677,889`. -/
def runEffect (s : TimedSession R) : TimedSession R :=
  let run := s.runs + 1
  match s.session.running with
  | none => { s with runs := run }
  | some lvl =>
    let timer := s.nextId
    { s with runs := run, cleanup := some run, ended := false }
    |>.setTimer run ⟨lvl, none, none⟩
    |>.requestFrame run ⟨lvl, none, some timer⟩

/-- React commits: the last run is cleaned up before the effect runs again. -/
def commit (s : TimedSession R) : TimedSession R :=
  if s.session.effectDue then { s.runCleanup with session := s.session.commit }.runEffect
  else s

/-- The component is closed, and opened again. -/
def unmount (s : TimedSession R) : TimedSession R :=
  { s.runCleanup with session := s.session.reload }

/-- Something happens in the level; `FruitNinjaGame.tsx:898–902`. -/
def play (e : GameEvent R) (s : TimedSession R) : TimedSession R :=
  if e.isInput then
    let session := s.session.play e
    { s with
      session := session
      ended := s.ended || s.session.game.wins.length < session.game.wins.length }
  else s

/-- The browser calls `spawnFruit`; `FruitNinjaGame.tsx:640–675`. -/
def fireTimer (id : ℕ) (r : R) (draws : ℕ → GameState.FruitDraw R) (s : TimedSession R) :
    TimedSession R :=
  match s.timers.find? (·.id = id) with
  | none => s
  | some cb =>
    let s := { s with timers := s.timers.filter (·.id ≠ id) }
    match s.scopes cb.run with
    | none => s
    | some scope =>
      if !s.session.game.gameActive then s
      else
        { s with session :=
          { s.session with game := s.session.game.spawnFruit scope.activeLevel r draws } }
        |>.setTimer cb.run scope

/-- The browser calls `render`, which may raise; `FruitNinjaGame.tsx:680–887`. -/
def fireFrame (id : ℕ) (elapsed now : R) (s : TimedSession R) : TimedSession R :=
  match s.frames.find? (·.id = id) with
  | none => s
  | some cb =>
    let s := { s with frames := s.frames.filter (·.id ≠ id) }
    match s.scopes cb.run with
    | none => s
    | some scope =>
      match s.session.game.render scope.activeLevel elapsed now with
      | none => s
      | some game =>
        let s := { s with session := { s.session with game := game } }
        if s.session.game.gameActive then s.requestFrame cb.run scope else s

/-- One event. -/
def handle (s : TimedSession R) : TimedEvent R → TimedSession R
  | .nextSlide => { s with session := s.session.nextSlide }
  | .prevSlide => { s with session := s.session.prevSlide }
  | .pressStart => { s with session := s.session.pressStart }
  | .pressRepeat => { s with session := s.session.pressRepeat }
  | .exitGame => { s with session := s.session.exitGame }
  | .commit => s.commit
  | .unmount => s.unmount
  | .play e => s.play e
  | .timer id r draws => s.fireTimer id r draws
  | .frame id elapsed now => s.fireFrame id elapsed now

end TimedSession

/-- An event between the components before and after it. -/
structure TimedTurn (R : Type) where
  event : TimedEvent R
  before : TimedSession R
  after : TimedSession R

/-- The component with its callbacks as a machine. -/
def timedMachine : Machine (TimedSession R) (TimedEvent R) (TimedTurn R) where
  step s e := ⟨e, s, s.handle e⟩
  next t := some t.after

end VisionGame.Game
