import VisionGame.Base.Scalar

/-!
# Levels of the game

Library `Game`. `components/FruitNinjaGame.tsx:14–27,91–177`. The texts of a level card are
left out.
-/

namespace VisionGame.Game
open VisionGame.Base

/-- `LevelConfig`; `FruitNinjaGame.tsx:14–27`. -/
structure Level (R : Type) where
  id : ℕ
  targetScore : ℕ
  spawnInterval : R
  spawnCountMin : ℤ
  spawnCountMax : ℤ
  minSpeedY : R
  maxSpeedY : R
  gravity : R
  fruitRadius : R

variable {R : Type} [Scalar R]

/-- `LEVELS`; `FruitNinjaGame.tsx:92–177`. -/
def levels : List (Level R) := [
  { id := 1, targetScore := 15, spawnInterval := 3200, spawnCountMin := 1, spawnCountMax := 2,
    minSpeedY := -6.8, maxSpeedY := -5.4, gravity := 0.060, fruitRadius := 32 },
  { id := 2, targetScore := 30, spawnInterval := 2600, spawnCountMin := 2, spawnCountMax := 3,
    minSpeedY := -7.2, maxSpeedY := -5.8, gravity := 0.065, fruitRadius := 30 },
  { id := 3, targetScore := 45, spawnInterval := 2200, spawnCountMin := 2, spawnCountMax := 4,
    minSpeedY := -7.6, maxSpeedY := -6.2, gravity := 0.070, fruitRadius := 28 },
  { id := 4, targetScore := 60, spawnInterval := 1800, spawnCountMin := 3, spawnCountMax := 4,
    minSpeedY := -8.0, maxSpeedY := -6.5, gravity := 0.075, fruitRadius := 28 },
  { id := 5, targetScore := 80, spawnInterval := 1400, spawnCountMin := 3, spawnCountMax := 5,
    minSpeedY := -8.4, maxSpeedY := -6.8, gravity := 0.078, fruitRadius := 29 },
  { id := 6, targetScore := 0, spawnInterval := 2200, spawnCountMin := 2, spawnCountMax := 4,
    minSpeedY := -7.4, maxSpeedY := -5.8, gravity := 0.065, fruitRadius := 30 }]

/-- A level whose target the code checks. -/
def Level.isFinite (lvl : Level R) : Prop := lvl.id ≠ 6 ∧ 0 < lvl.targetScore

/-- Every level but the last one has a target. -/
theorem isFinite_of_mem_levels {lvl : Level R} (h : lvl ∈ levels) :
    lvl.isFinite ↔ lvl.id ≠ 6 := by
  simp only [levels, List.mem_cons, List.not_mem_nil, or_false] at h
  simp only [Level.isFinite]
  rcases h with rfl | rfl | rfl | rfl | rfl | rfl <;> simp

end VisionGame.Game
