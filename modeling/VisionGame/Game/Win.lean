import VisionGame.Game.Slicing

/-!
# When a level is won

Library `Game`. `components/FruitNinjaGame.tsx:432–487,527–604,898–902,925–965`. The score is
counted one by one and tested after each cut, but the loop over the fruits goes on after the
test succeeded, and so do the steps of a swipe; the pointer handlers do not ask whether the
game is still active. A level is won exactly as announced in those runs in which no event cuts
more fruits than are missing, and none after the game is over.
-/

namespace VisionGame.Game
open VisionGame.Base

/-! ### The scoreboard -/

/-- The score stays within the target, and the level was won when it reached the target. -/
structure Scoreboard.Sound (target : ℕ) (b : Scoreboard) : Prop where
  levelTarget : b.levelTarget = target
  isInfinite : b.isInfinite = false
  score_le : b.score ≤ target
  wins : b.wins = if b.score < target then [] else [target]
  active : b.gameActive = true → b.score < target

namespace Scoreboard

private theorem Sound.count {target : ℕ} {b : Scoreboard} (h : b.Sound target)
    (hb : b.score < target) :
    b.count.Sound target := by
  have hnone : b.wins = [] := by rw [h.wins, if_pos hb]
  simp only [Scoreboard.count]
  rw [h.isInfinite, h.levelTarget]
  by_cases hlast : target ≤ b.score + 1
  · have hscore : b.score + 1 = target := by omega
    rw [if_pos (by simp [hlast]), hscore, hnone]
    constructor
    · rfl
    · rfl
    · exact le_rfl
    · simp
    · intro hactive
      cases hactive
  · rw [if_neg (by simp [hlast])]
    constructor
    · rfl
    · rfl
    · change b.score + 1 ≤ target
      omega
    · change b.wins = if b.score + 1 < target then [] else [target]
      rw [hnone, if_pos (by omega)]
    · intro _
      change b.score + 1 < target
      omega

private theorem Sound.iterate_count {target : ℕ} {b : Scoreboard} (h : b.Sound target) {n : ℕ}
    (hn : b.score + n ≤ target) : (Scoreboard.count^[n] b).Sound target := by
  induction n with
  | zero => exact h
  | succ n ih =>
    rw [Function.iterate_succ_apply']
    apply Sound.count
    · exact ih (by omega)
    · rw [iterate_count_score]
      omega

private theorem Sound.over {target : ℕ} {b : Scoreboard} (h : b.Sound target) :
    { b with gameActive := false }.Sound target where
  levelTarget := h.levelTarget
  isInfinite := h.isInfinite
  score_le := h.score_le
  wins := h.wins
  active hactive := by cases hactive

/-- Without a target nothing is ever won. -/
theorem iterate_count_infinite {b : Scoreboard} (h : b.isInfinite = true) (n : ℕ) :
    (Scoreboard.count^[n] b).isInfinite = true ∧ (Scoreboard.count^[n] b).wins = b.wins := by
  induction n with
  | zero => exact ⟨h, rfl⟩
  | succ n ih =>
    rw [Function.iterate_succ_apply', count_isInfinite]
    refine ⟨ih.1, ?_⟩
    have hplain : ¬ (!(Scoreboard.count^[n] b).isInfinite &&
        (Scoreboard.count^[n] b).levelTarget ≤ (Scoreboard.count^[n] b).score + 1) := by
      simp [ih.1]
    rw [Scoreboard.count, if_neg hplain]
    exact ih.2

end Scoreboard

variable {R : Type} [Scalar R]

/-! ### Turns -/

/-- What the level announces: the score stays within the target, `handleGameWin` is called
once, at the target, and nothing is cut once the game is over. -/
structure GameTurn.WinsExactly (target : ℕ) (t : GameTurn R) : Prop where
  score_le : t.after.score ≤ target
  wins : t.after.wins = if t.after.score < target then [] else [target]
  score_over : t.before.gameActive = false → t.after.score = t.before.score
  sliced_over : t.before.gameActive = false → ∀ fruit ∈ t.after.fruits, fruit.isSliced = true →
    ∃ old ∈ t.before.fruits, old.id = fruit.id ∧ old.isSliced = true

/-- Number of fruits an event may cut: those that are missing, none once the game is over. -/
def GameState.missing (target : ℕ) (s : GameState R) : ℕ :=
  if s.gameActive then target - s.score else 0

/-- The event cuts no more fruits than are missing. -/
def GameTurn.CutsWithin (target : ℕ) (t : GameTurn R) : Prop :=
  t.event.cuts t.before ≤ t.before.missing target

instance (target : ℕ) (t : GameTurn R) : Decidable (t.CutsWithin target) :=
  inferInstanceAs (Decidable (_ ≤ _))

private theorem sliceIf_of_cuts_eq_zero {hits : Fruit R → Bool} {fruits : List (Fruit R)}
    (h : cuts hits fruits = 0) {fruit : Fruit R} (hmem : fruit ∈ fruits) :
    fruit.sliceIf hits = fruit :=
  if_neg (List.countP_eq_zero.mp h fruit hmem)

private theorem sliced_of_cuts_eq_zero {lvl : Level R} {s t : GameState R} {e : GameEvent R}
    (h : s.step lvl e = some t) (hcuts : e.cuts s = 0) {fruit : Fruit R}
    (hfruit : fruit ∈ t.fruits) (hsliced : fruit.isSliced = true) :
    ∃ old ∈ s.fruits, old.id = fruit.id ∧ old.isSliced = true := by
  rcases step_cases h with hstroke | ⟨r, draws, rfl, rfl⟩ | ⟨elapsed, now, rfl, hrender⟩ |
    ⟨rfl, rfl⟩
  · obtain ⟨old, hold, hslice⟩ := hstroke.exists_old hfruit
    rw [sliceIf_of_cuts_eq_zero hcuts hold] at hslice
    rw [← hslice] at hsliced ⊢
    exact ⟨old, hold, rfl, hsliced⟩
  · simp only [GameState.spawnFruit] at hfruit
    split at hfruit
    · exact ⟨fruit, hfruit, rfl, hsliced⟩
    · rcases List.mem_append.mp hfruit with hold | hnew
      · exact ⟨fruit, hold, rfl, hsliced⟩
      · obtain ⟨i, _, hlaunch⟩ := List.mem_map.mp hnew
        rw [← hlaunch] at hsliced
        cases hsliced
  · obtain ⟨old, hold, hadvance⟩ := exists_advance_of_mem hrender hfruit
    obtain ⟨hid, hsame⟩ := advance_same hadvance
    exact ⟨old, hold, hid.symm, hsame.symm.trans hsliced⟩
  · exact ⟨fruit, hfruit, rfl, hsliced⟩

/-- Cutting no more than is missing keeps a sound scoreboard sound. -/
theorem sound_step {lvl : Level R} {target : ℕ} {s t : GameState R} {e : GameEvent R}
    (h : s.board.Sound target) (hstep : s.step lvl e = some t)
    (hcuts : e.cuts s ≤ s.missing target) : t.board.Sound target := by
  rcases board_step hstep with hcount | ⟨hover, _⟩
  · rw [hcount]
    simp only [GameState.missing] at hcuts
    have hscore : s.score ≤ target := h.score_le
    apply h.iterate_count
    change s.score + e.cuts s ≤ target
    split at hcuts
    · omega
    · omega
  · rw [hover]
    exact h.over

/-- An event adds its cuts to the score. -/
theorem score_step {lvl : Level R} {s t : GameState R} {e : GameEvent R}
    (h : s.step lvl e = some t) : t.score = s.score + e.cuts s := by
  rcases board_step h with hcount | ⟨hover, hnone⟩
  · have hscore := congrArg Scoreboard.score hcount
    rw [Scoreboard.iterate_count_score] at hscore
    exact hscore
  · rw [hnone]
    exact congrArg Scoreboard.score hover

/-- From a sound scoreboard an event is as announced exactly when it cuts no more than is
missing. -/
theorem winsExactly_step_iff {lvl : Level R} {target : ℕ} {s : GameState R}
    (h : s.board.Sound target) (e : GameEvent R) :
    ((gameMachine lvl).step s e).WinsExactly target ↔
      ((gameMachine lvl).step s e).CutsWithin target := by
  rcases gameMachine_step_cases lvl s e with ⟨t, hstep, hturn⟩ | ⟨hnone, hturn⟩
  · have hscore := score_step hstep
    rw [hturn]
    constructor
    · intro hwins
      have hle : t.score ≤ target := hwins.score_le
      change e.cuts s ≤ s.missing target
      simp only [GameState.missing]
      split
      · omega
      · next hover =>
        have hsame : t.score = s.score := hwins.score_over (Bool.eq_false_of_not_eq_true hover)
        omega
    · intro hcuts
      have hsound := sound_step h hstep hcuts
      have hover : s.gameActive = false → e.cuts s = 0 := by
        intro hactive
        change e.cuts s ≤ s.missing target at hcuts
        simp only [GameState.missing] at hcuts
        rw [hactive] at hcuts
        exact Nat.le_zero.mp hcuts
      constructor
      · exact hsound.score_le
      · exact hsound.wins
      · intro hactive
        change t.score = s.score
        rw [hscore, hover hactive, Nat.add_zero]
      · intro hactive fruit hfruit
        exact sliced_of_cuts_eq_zero hstep (hover hactive) hfruit
  · rw [hturn]
    constructor
    · intro _
      change e.cuts s ≤ s.missing target
      omega
    · intro _
      exact ⟨h.score_le, h.wins, fun _ ↦ rfl, fun _ fruit hfruit hsliced ↦
        ⟨fruit, hfruit, rfl, hsliced⟩⟩

/-- Without a target an event calls `handleGameWin` at no score. -/
theorem infinite_step {lvl : Level R} {s t : GameState R} {e : GameEvent R}
    (h : s.isInfinite = true) (hstep : s.step lvl e = some t) :
    t.isInfinite = true ∧ t.wins = s.wins := by
  rcases board_step hstep with hcount | ⟨hover, _⟩
  · have ⟨hinfinite, hwins⟩ := Scoreboard.iterate_count_infinite (b := s.board) h (e.cuts s)
    rw [← hcount] at hinfinite hwins
    exact ⟨hinfinite, hwins⟩
  · have hwins := congrArg Scoreboard.wins hover
    have hinfinite := congrArg Scoreboard.isInfinite hover
    exact ⟨hinfinite.trans h, hwins⟩

/-- In every run of a level with a target, winning is as announced exactly when every event
cuts no more fruits than are missing; without a target the level is never won. -/
theorem level_won_exactly_iff (lvl : Level R) (s : GameState R) (events : List (GameEvent R)) :
    (lvl.isFinite →
      ((∀ t ∈ (gameMachine lvl).trace (s.startLevel lvl) events,
          t.WinsExactly lvl.targetScore) ↔
        ∀ t ∈ (gameMachine lvl).trace (s.startLevel lvl) events,
          t.CutsWithin lvl.targetScore)) ∧
      (lvl.id = 6 →
        ∀ t ∈ (gameMachine lvl).trace (s.startLevel lvl) events, t.after.wins = []) := by
  constructor
  · rintro ⟨hid, htarget⟩
    apply (gameMachine lvl).trace_forall_iff
      (I := fun u ↦ u.board.Sound lvl.targetScore)
      (P := GameTurn.WinsExactly lvl.targetScore) (C := GameTurn.CutsWithin lvl.targetScore)
    · intro u e _ hu
      exact winsExactly_step_iff hu e
    · intro u e _ v hu hcuts hv
      rcases gameMachine_step_cases lvl u e with ⟨t, hstep, hturn⟩ | ⟨_, hturn⟩
      · rw [hturn] at hcuts hv
        rw [← Option.some.inj hv]
        exact sound_step hu hstep hcuts
      · rw [hturn] at hv
        rw [← Option.some.inj hv]
        exact hu
    · constructor
      · rfl
      · exact decide_eq_false hid
      · exact Nat.zero_le _
      · exact (if_pos htarget).symm
      · intro _
        exact htarget
  · intro hid
    have hturn : ∀ u : GameState R, ∀ e, u.isInfinite = true ∧ u.wins = [] →
        ((gameMachine lvl).step u e).after.isInfinite = true ∧
          ((gameMachine lvl).step u e).after.wins = [] := by
      rintro u e ⟨hinfinite, hwins⟩
      rcases gameMachine_step_cases lvl u e with ⟨t, hstep, hturn⟩ | ⟨_, hturn⟩
      · have ⟨hstays, hsame⟩ := infinite_step hinfinite hstep
        rw [hturn]
        exact ⟨hstays, hsame.trans hwins⟩
      · rw [hturn]
        exact ⟨hinfinite, hwins⟩
    apply (gameMachine lvl).trace_forall
      (I := fun u ↦ u.isInfinite = true ∧ u.wins = []) (P := fun t ↦ t.after.wins = [])
    · intro u e _ hu
      exact (hturn u e hu).2
    · intro u e _ v hu hv
      rw [← Option.some.inj hv]
      exact hturn u e hu
    · exact ⟨decide_eq_true hid, rfl⟩

/-- Cutting one pair is far from the target. -/
theorem level_won_exactly_of_one_pair :
    (∀ t ∈ (gameMachine firstLevel).trace (GameState.init.startLevel firstLevel) cutPair,
        t.WinsExactly 15) ∧
      ∀ t ∈ (gameMachine zenLevel).trace (GameState.init.startLevel zenLevel) cutPair,
        t.after.wins = [] := by
  constructor
  · apply ((level_won_exactly_iff firstLevel GameState.init cutPair).1 ⟨by decide, by decide⟩).mpr
    decide +kernel
  · exact (level_won_exactly_iff zenLevel GameState.init cutPair).2 rfl

/-- Eight pairs in a level with an odd target: the last pair wins it twice. -/
theorem level_won_exactly_fails :
    ¬ ∀ t ∈ (gameMachine firstLevel).trace (GameState.init.startLevel firstLevel)
        (List.replicate 8 cutPair).flatten, t.WinsExactly firstLevel.targetScore := by
  intro hall
  have htwice : ((gameMachine firstLevel).trace (GameState.init.startLevel firstLevel)
      (List.replicate 8 cutPair).flatten).any (fun t ↦ t.after.wins = [15, 16]) = true := by
    decide +kernel
  have ⟨t, ht, hwins⟩ := List.any_eq_true.mp htwice
  have hexact := (hall t ht).wins
  rw [of_decide_eq_true hwins] at hexact
  split at hexact
  · cases hexact
  · cases hexact

end VisionGame.Game
