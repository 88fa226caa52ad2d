import VisionGame.Game.Slicing

/-!
# The component around the levels

Library `Game`. `components/FruitNinjaGame.tsx:311–319,351–362,418–430,606–627,891–923,999–1000,
1040–1188`. React shows what was last committed: a change of the state is seen by the screen,
and the level effect is cleaned up and run, at the next commit. The completed levels are read
when the component is mounted. A list that is stored but is not JSON counts as none.
-/

namespace VisionGame.Game
open VisionGame.Base

variable {R : Type} [Scalar R]

/-- State of a mounted component. `wonLevels` is history: the levels in which `handleGameWin`
was called, since the first mount. -/
structure Session (R : Type) where
  isPlaying : Bool
  activeLevel : Option (Level R)
  activeSlide : ℕ
  /-- `gameResult === "win"`. -/
  gameResult : Bool
  completedLevels : List ℕ
  /-- `isPlaying` and the active level as last committed, on which the level effect depends. -/
  committed : Bool × Option ℕ
  /-- Level of the effect that is running. -/
  running : Option (Level R)
  game : GameState R
  /-- `ademan_ninja_completed_levels` in `localStorage`. -/
  storage : Option (List ℕ)
  wonLevels : List ℕ

namespace Session

/-- The component is mounted and reads the stored levels; `FruitNinjaGame.tsx:313–319,351–360`. -/
def mount (storage : Option (List ℕ)) (wonLevels : List ℕ) : Session R where
  isPlaying := false
  activeLevel := none
  activeSlide := 0
  gameResult := false
  completedLevels := storage.getD []
  committed := (false, none)
  running := none
  game := .init
  storage := storage
  wonLevels := wonLevels

/-- `isUnlocked` on a slide; `FruitNinjaGame.tsx:999–1000`. -/
def isUnlocked (slide : ℕ) (s : Session R) : Bool :=
  slide = 0 || slide = 5 ||
    match (levels : List (Level R))[slide]? with
    | some lvl => s.completedLevels.contains (lvl.id - 1)
    | none => false

/-- The screen shows a level that is played. -/
def showsGame (s : Session R) : Bool := s.committed.1

/-- Button or key; `FruitNinjaGame.tsx:419–426,904–906`. -/
def nextSlide (s : Session R) : Session R :=
  if s.showsGame then s else { s with activeSlide := min 5 (s.activeSlide + 1) }

/-- Button or key; `FruitNinjaGame.tsx:419–426,908–910`. -/
def prevSlide (s : Session R) : Session R :=
  if s.showsGame then s else { s with activeSlide := s.activeSlide - 1 }

/-- `FruitNinjaGame.tsx:912–917`. -/
def startGame (lvl : Level R) (s : Session R) : Session R :=
  { s with activeLevel := some lvl, isPlaying := true }

/-- The button of an unlocked slide; `FruitNinjaGame.tsx:1122–1129`. -/
def pressStart (s : Session R) : Session R :=
  match (levels : List (Level R))[s.activeSlide]? with
  | some lvl =>
    if !s.showsGame && s.isUnlocked s.activeSlide then s.startGame lvl else s
  | none => s

/-- The button of the win screen; `FruitNinjaGame.tsx:1170–1174`. -/
def pressRepeat (s : Session R) : Session R :=
  if !s.showsGame && s.gameResult then
    match s.activeLevel with
    | some lvl => s.startGame lvl
    | none => s
  else s

/-- The buttons that leave a level or the win screen; `FruitNinjaGame.tsx:919–923`. -/
def exitGame (s : Session R) : Session R :=
  { s with isPlaying := false, activeLevel := none, gameResult := false }

/-- React shows the state. The level effect runs again when what it depends on has changed;
`FruitNinjaGame.tsx:606–627,891–896`. -/
def commit (s : Session R) : Session R :=
  let deps := (s.isPlaying, s.activeLevel.map Level.id)
  if deps = s.committed then s
  else
    let s := { s with committed := deps, game := s.game.cleanup, running := none }
    match s.isPlaying, s.activeLevel with
    | true, some lvl =>
      { s with game := s.game.startLevel lvl, running := some lvl, gameResult := false }
    | _, _ => s

/-- Something happens in the level that runs. A call of `handleGameWin` shows the win screen;
`FruitNinjaGame.tsx:898–902`. -/
def play (e : GameEvent R) (s : Session R) : Session R :=
  match s.running, e with
  | none, _ => s
  | _, .cleanup => s
  | some lvl, e =>
    let game := ((gameMachine lvl).step s.game e).after
    if s.game.wins.length < game.wins.length then
      { s with
        game := game
        gameResult := true
        isPlaying := false
        wonLevels := lvl.id :: s.wonLevels }
    else { s with game := game }

/-- The page is loaded again, or the component is closed and opened. -/
def reload (s : Session R) : Session R := .mount s.storage s.wonLevels

end Session

/-- What can happen to a session. -/
inductive SessionEvent (R : Type) where
  | nextSlide
  | prevSlide
  | pressStart
  | pressRepeat
  | exitGame
  | commit
  | play (e : GameEvent R)
  | reload

/-- One event. -/
def Session.handle (s : Session R) : SessionEvent R → Session R
  | .nextSlide => s.nextSlide
  | .prevSlide => s.prevSlide
  | .pressStart => s.pressStart
  | .pressRepeat => s.pressRepeat
  | .exitGame => s.exitGame
  | .commit => s.commit
  | .play e => s.play e
  | .reload => s.reload

/-- An event between the sessions before and after it. -/
structure SessionTurn (R : Type) where
  event : SessionEvent R
  before : Session R
  after : Session R

/-- The component as a machine. -/
def sessionMachine : Machine (Session R) (SessionEvent R) (SessionTurn R) where
  step s e := ⟨e, s, s.handle e⟩
  next t := some t.after

end VisionGame.Game
