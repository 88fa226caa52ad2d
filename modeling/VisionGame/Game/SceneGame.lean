import VisionGame.Game.Scene

/-!
# The game in its scene

Library `Game`. `components/FruitNinjaGame.tsx:437–604,680–887,925–992`. Particles, texts, sounds
and the score shown by React are written and never read by the game: in every run the scene plays
the game that would be played without it.
-/

namespace VisionGame.Game
open VisionGame.Base

variable {R : Type} [Scalar R]

namespace Scene

/-! ### Effects leave the game alone -/

omit [Scalar R] in
/-- A sound leaves the game alone. -/
@[simp] theorem playSound_game (sound : Sound) (s : Scene R) : (s.playSound sound).game = s.game :=
  rfl

/-- So does a text. -/
@[simp] theorem addText_game (label : TextLabel) (x y scale : R) (s : Scene R) :
    (s.addText label x y scale).game = s.game := rfl

/-- So do the effects of a cut. -/
@[simp] theorem cutEffects_game (fruit : Fruit R) (draws : ℕ → ParticleDraw R) (s : Scene R) :
    (s.cutEffects fruit draws).game = s.game := by
  unfold cutEffects
  dsimp only
  split <;> rfl

omit [Scalar R] in
/-- So does the score shown at the end. -/
@[simp] theorem syncOnWin_game (s : Scene R) : s.syncOnWin.game = s.game := by
  unfold syncOnWin
  split <;> rfl

/-- So does the score shown on the way. -/
@[simp] theorem syncScore_game (now : R) (s : Scene R) : (s.syncScore now).game = s.game := by
  unfold syncScore
  split <;> rfl

/-! ### What the functions of the scene do to the game -/

private theorem visit_game (hits : Fruit R → Bool) (draws : ℕ → ℕ → ParticleDraw R) (s : Scene R)
    (fruit : Fruit R) : (s.visit hits draws fruit).game = s.game.visit hits fruit := by
  unfold visit
  dsimp only
  split
  · rw [syncOnWin_game, cutEffects_game]
  · rfl

private theorem foldl_visit_game (hits : Fruit R → Bool) (draws : ℕ → ℕ → ParticleDraw R)
    (fruits : List (Fruit R)) (s : Scene R) :
    (fruits.foldl (visit hits draws) s).game = fruits.foldl (GameState.visit hits) s.game := by
  induction fruits generalizing s with
  | nil => rfl
  | cons fruit fruits ih => rw [List.foldl_cons, List.foldl_cons, ih, visit_game]

private theorem checkCollisions_game (x y : R) (prev : Option (Point R))
    (draws : ℕ → ℕ → ParticleDraw R) (s : Scene R) :
    (s.checkCollisions x y prev draws).game = s.game.checkCollisions x y prev :=
  foldl_visit_game ..

omit [Scalar R] in
/-- A combo is that of the game. -/
theorem playCombo_game (showText : Scene R → Scene R) (s : Scene R) :
    (s.playCombo showText).game = s.game.playCombo := by
  unfold playCombo GameState.playCombo
  split <;> rfl

private theorem endPausedStroke_game (now : R) (s : Scene R) :
    (s.endPausedStroke now).game = s.game.endPausedStroke now := by
  unfold endPausedStroke
  split
  · rfl
  · next h => rw [GameState.endPausedStroke, if_neg h]

private theorem registerPoint_game (x y now : R) (draws : ℕ → ℕ → ParticleDraw R) (s : Scene R) :
    (s.registerPoint x y now draws).game = s.game.registerPoint x y now := by
  unfold registerPoint GameState.registerPoint
  dsimp only
  rw [checkCollisions_game, endPausedStroke_game]

private theorem sweep_game (draws : ℕ → ℕ → ParticleDraw R) (prev : Point R)
    (points : List (TrailPoint R)) (s : Scene R) :
    (sweep draws prev points s).game = GameState.sweep prev points s.game := by
  induction points generalizing prev s with
  | nil => rfl
  | cons p points ih =>
    unfold sweep GameState.sweep
    dsimp only
    rw [ih, checkCollisions_game]

private theorem triggerSwipeSlice_game (direction : GameState.Direction) (rx ry : R) (clock : ℕ → R)
    (draws : ℕ → ℕ → ParticleDraw R) (s : Scene R) :
    (s.triggerSwipeSlice direction rx ry clock draws).game =
      s.game.triggerSwipeSlice direction rx ry clock := by
  unfold triggerSwipeSlice GameState.triggerSwipeSlice
  split
  · rfl
  · dsimp only
    rw [playCombo_game, sweep_game]
    rfl

private theorem handlePointerMove_game (rawX rawY now : R) (draws : ℕ → ℕ → ParticleDraw R)
    (s : Scene R) : (s.handlePointerMove rawX rawY now draws).game =
      s.game.handlePointerMove rawX rawY now := by
  unfold handlePointerMove GameState.handlePointerMove
  split
  · rfl
  · dsimp only
    cases s.game.trail.getLast? with
    | none => exact registerPoint_game ..
    | some lastPt =>
      dsimp only
      split
      · exact registerPoint_game ..
      · rfl

/-- Every event does to the game of a scene what it does to the game. -/
theorem step_game (lvl : Level R) (draws : ℕ → ℕ → ParticleDraw R) (s : Scene R)
    (e : GameEvent R) : (s.step lvl draws e).map Scene.game = s.game.step lvl e := by
  cases e with
  | pointerDown rawX rawY now =>
    apply congrArg some
    unfold handlePointerDown GameState.handlePointerDown
    split
    · rfl
    · exact registerPoint_game ..
  | pointerMove rawX rawY now => exact congrArg some (handlePointerMove_game ..)
  | pointerUp =>
    apply congrArg some
    unfold handlePointerUp
    split
    · next h => rw [GameState.handlePointerUp, if_pos h]
    · rfl
  | gestureSlice x y now =>
    apply congrArg some
    unfold handleGestureSlice GameState.handleGestureSlice
    split
    · rfl
    · exact registerPoint_game ..
  | swipeSlice direction rx ry clock => exact congrArg some (triggerSwipeSlice_game ..)
  | frame elapsed now =>
    change (s.render lvl elapsed now).map Scene.game = s.game.render lvl elapsed now
    unfold render
    rw [Option.map_map]
    have hgame : ∀ game : GameState R, (Scene.game ∘ fun game ↦
        { s with
          game := game
          particles := s.particles.map (Particle.update (GameState.frameStep elapsed))
          floatingTexts := (s.floatingTexts.map
            (FloatingText.fade (GameState.frameStep elapsed))).filter fun t ↦ 0 < t.alpha }
        |>.syncScore now) game = game := fun game ↦ syncScore_game ..
    exact (congrArg (Option.map · _) (funext hgame)).trans Option.map_id_apply
  | resize w h => rfl
  | pointerLeave => rfl
  | spawn r draws => rfl
  | cleanup => rfl

end Scene

/-! ### Runs -/

/-- The turn of the game in a turn of the scene. -/
def SceneTurn.game (t : SceneTurn R) : GameTurn R :=
  ⟨t.event.event, t.before.game, t.after.game, t.raised⟩

/-- In every run the scene plays the game that is played without it. -/
theorem scene_plays_game (lvl : Level R) (s : Scene R) (events : List (SceneEvent R)) :
    ((sceneMachine lvl).trace s events).map SceneTurn.game =
      (gameMachine lvl).trace s.game (events.map SceneEvent.event) := by
  induction events generalizing s with
  | nil => rfl
  | cons e events ih =>
    have hstep : ((sceneMachine lvl).step s e).game = (gameMachine lvl).step s.game e.event := by
      have hgame := Scene.step_game lvl e.draws s e.event
      simp only [sceneMachine, gameMachine]
      rw [← hgame]
      cases s.step lvl e.draws e.event <;> rfl
    have hnext : (sceneMachine lvl).next ((sceneMachine lvl).step s e) =
        some ((sceneMachine lvl).step s e).after := rfl
    have hgame : (gameMachine lvl).next ((gameMachine lvl).step s.game e.event) =
        some ((sceneMachine lvl).step s e).after.game := by
      rw [← hstep]
      rfl
    rw [List.map_cons, (sceneMachine lvl).trace_cons_next events hnext,
      (gameMachine lvl).trace_cons_next _ hgame, List.map_cons, hstep, ih]

end VisionGame.Game
