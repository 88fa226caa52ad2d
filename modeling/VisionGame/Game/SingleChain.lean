import VisionGame.Game.Timers

/-!
# One spawner and one chain of frames

Library `Game`. `components/FruitNinjaGame.tsx:606–677,884–923`. A session is idle, with nothing
pending, or busy with the last run of the level effect, whose variables name everything that is
pending. Every event leaves it so; hence no callback of an earlier run is ever called, and the
component with its callbacks does nothing that the component without them could not do.
-/

namespace VisionGame.Game
open VisionGame.Base

variable {R : Type} [Scalar R]

/-! ### Winning ends the game -/

private theorem Scoreboard.iterate_count_active {b : Scoreboard} (n : ℕ)
    (h : (count^[n] b).gameActive = true) : b.gameActive = true ∧ (count^[n] b).wins = b.wins := by
  induction n with
  | zero => exact ⟨h, rfl⟩
  | succ n ih =>
    rw [Function.iterate_succ_apply'] at h ⊢
    have hcount : (count^[n] b).count.gameActive = true →
        (count^[n] b).gameActive = true ∧ (count^[n] b).count.wins = (count^[n] b).wins := by
      simp only [Scoreboard.count]
      split
      · intro hover
        cases hover
      · intro hactive
        exact ⟨hactive, rfl⟩
    obtain ⟨hactive, hwins⟩ := hcount h
    obtain ⟨hfirst, hsame⟩ := ih hactive
    exact ⟨hfirst, hwins.trans hsame⟩

/-- An input spawns nothing, and while the game goes on afterwards it has not won it. -/
theorem input_step {lvl : Level R} {s t : GameState R} {e : GameEvent R}
    (he : e.isInput = true) (h : s.step lvl e = some t) :
    t.spawned = s.spawned ∧
      (t.gameActive = true → s.gameActive = true ∧ t.wins = s.wins) := by
  rcases step_cases h with hstroke | ⟨r, draws, rfl, rfl⟩ | ⟨elapsed, now, rfl, _⟩ | ⟨rfl, rfl⟩
  · refine ⟨hstroke.spawned, fun hactive ↦ ?_⟩
    have hboard := hstroke.board
    have hcount : (Scoreboard.count^[cuts (e.hits s) s.fruits] s.board).gameActive = true := by
      rw [← hboard]
      exact hactive
    have ⟨hbefore, hwins⟩ := Scoreboard.iterate_count_active _ hcount
    rw [← hboard] at hwins
    exact ⟨hbefore, hwins⟩
  · cases he
  · cases he
  · cases he

/-- What happens in the level that runs. -/
theorem play_of_running {s : Session R} {lvl : Level R} (hr : s.running = some lvl)
    {e : GameEvent R} (he : e ≠ .cleanup) :
    s.play e =
      if s.game.wins.length < ((gameMachine lvl).step s.game e).after.wins.length then
        { s with
          game := ((gameMachine lvl).step s.game e).after
          gameResult := true
          isPlaying := false
          wonLevels := lvl.id :: s.wonLevels }
      else { s with game := ((gameMachine lvl).step s.game e).after } := by
  cases e with
  | cleanup => exact absurd rfl he
  | _ => simp only [Session.play, hr]

/-- An input in a session: the level that runs stays, nothing is spawned, and while the game goes
on afterwards it has not been won. -/
theorem play_input (s : Session R) {e : GameEvent R} (he : e.isInput = true) :
    (s.play e).running = s.running ∧ (s.play e).game.spawned = s.game.spawned ∧
      ((s.play e).game.gameActive = true →
        s.game.gameActive = true ∧ (s.play e).game.wins = s.game.wins) := by
  cases hr : s.running with
  | none =>
    have hsame : s.play e = s := by simp only [Session.play, hr]
    rw [hsame]
    exact ⟨hr, rfl, fun h ↦ ⟨h, rfl⟩⟩
  | some lvl =>
    have hne : e ≠ .cleanup := by
      rintro rfl
      cases he
    have hgame : ((gameMachine lvl).step s.game e).after.spawned = s.game.spawned ∧
        (((gameMachine lvl).step s.game e).after.gameActive = true →
          s.game.gameActive = true ∧
            ((gameMachine lvl).step s.game e).after.wins = s.game.wins) := by
      rcases gameMachine_step_cases lvl s.game e with ⟨t, ht, hstep⟩ | ⟨_, hstep⟩
      · rw [hstep]
        exact input_step he ht
      · rw [hstep]
        exact ⟨rfl, fun h ↦ ⟨h, rfl⟩⟩
    rw [play_of_running hr hne]
    split
    · exact ⟨hr, hgame⟩
    · exact ⟨hr, hgame⟩

/-! ### The screens leave the level alone -/

omit [Scalar R] in
private theorem nextSlide_same (s : Session R) :
    s.nextSlide.running = s.running ∧ s.nextSlide.game = s.game := by
  simp only [Session.nextSlide]
  split <;> exact ⟨rfl, rfl⟩

omit [Scalar R] in
private theorem prevSlide_same (s : Session R) :
    s.prevSlide.running = s.running ∧ s.prevSlide.game = s.game := by
  simp only [Session.prevSlide]
  split <;> exact ⟨rfl, rfl⟩

private theorem pressStart_same (s : Session R) :
    s.pressStart.running = s.running ∧ s.pressStart.game = s.game := by
  simp only [Session.pressStart]
  split
  · split <;> exact ⟨rfl, rfl⟩
  · exact ⟨rfl, rfl⟩

omit [Scalar R] in
private theorem pressRepeat_same (s : Session R) :
    s.pressRepeat.running = s.running ∧ s.pressRepeat.game = s.game := by
  simp only [Session.pressRepeat]
  split
  · split <;> exact ⟨rfl, rfl⟩
  · exact ⟨rfl, rfl⟩

/-! ### Idle or busy -/

/-- At most one callback is pending, the one that a variable of the run names. -/
def Named (pending : List Callback) (run : ℕ) (name : Option ℕ) : Prop :=
  pending = [] ∨ ∃ id, name = some id ∧ pending = [⟨id, run⟩]

/-- Calling a callback of the last run takes it out of what is pending. -/
theorem Named.fired {pending : List Callback} {run id : ℕ} {name : Option ℕ} {cb : Callback}
    (h : Named pending run name) (hfind : pending.find? (·.id = id) = some cb) :
    cb.run = run ∧ pending.filter (·.id ≠ id) = [] := by
  rcases h with rfl | ⟨named, rfl, rfl⟩
  · cases hfind
  · simp only [List.find?_cons, List.find?_nil] at hfind
    split at hfind
    · next hid =>
      rw [decide_eq_true_eq] at hid
      rw [← Option.some.inj hfind, ← hid]
      exact ⟨rfl, by simp⟩
    · cases hfind

namespace TimedSession

/-- No level runs and nothing is pending. -/
structure Idle (s : TimedSession R) : Prop where
  cleanup : s.cleanup = none
  timers : s.timers = []
  frames : s.frames = []
  running : s.session.running = none
  inactive : s.session.game.gameActive = false

/-- The last run of the effect is not cleaned up, and its variables name what is pending. -/
structure Busy (s : TimedSession R) (scope : EffectScope R) : Prop where
  cleanup : s.cleanup = some s.runs
  inScope : s.scopes s.runs = some scope
  running : s.session.running = some scope.activeLevel
  timers : Named s.timers s.runs scope.spawnerTimerId
  frames : Named s.frames s.runs scope.animFrameId
  active : s.session.game.gameActive = true → s.ended = false

/-- Idle, or busy with the last run. -/
def Orderly (s : TimedSession R) : Prop := s.Idle ∨ ∃ scope, s.Busy scope

omit [Scalar R] in
private theorem Orderly.of_session {s : TimedSession R} (h : s.Orderly) {session : Session R}
    (hrunning : session.running = s.session.running) (hgame : session.game = s.session.game) :
    { s with session := session }.Orderly := by
  rcases h with h | ⟨scope, h⟩
  · left
    exact ⟨h.cleanup, h.timers, h.frames, hrunning.trans h.running, by
      rw [hgame]
      exact h.inactive⟩
  · right
    exact ⟨scope, h.cleanup, h.inScope, hrunning.trans h.running, h.timers, h.frames, by
      rw [hgame]
      exact h.active⟩

omit [Scalar R] in
/-- The cleanup leaves nothing pending. -/
theorem Orderly.runCleanup {s : TimedSession R} (h : s.Orderly) :
    s.runCleanup.cleanup = none ∧ s.runCleanup.timers = [] ∧ s.runCleanup.frames = [] := by
  have hcleared {pending : List Callback} {run : ℕ} {name : Option ℕ}
      (hn : Named pending run name) : (pending.filter fun cb ↦ some cb.id ≠ name) = [] := by
    rcases hn with rfl | ⟨id, rfl, rfl⟩
    · rfl
    · simp
  rcases h with h | ⟨scope, h⟩
  · have hsame : s.runCleanup = s := by
      simp only [TimedSession.runCleanup, h.cleanup, Option.bind_none]
    rw [hsame]
    exact ⟨h.cleanup, h.timers, h.frames⟩
  · simp only [TimedSession.runCleanup, h.cleanup, Option.bind_some, h.inScope]
    exact ⟨trivial, hcleared h.timers, hcleared h.frames⟩

omit [Scalar R] in
private theorem commit_running {s : Session R} (hdue : s.effectDue = true) :
    (s.commit.running = none ∧ s.commit.game.gameActive = false) ∨
      ∃ lvl, s.commit.running = some lvl := by
  simp only [Session.effectDue, ne_eq, decide_eq_true_eq] at hdue
  simp only [Session.commit, if_neg hdue]
  split
  · exact .inr ⟨_, rfl⟩
  · exact .inl ⟨rfl, rfl⟩

omit [Scalar R] in
private theorem Orderly.commit {s : TimedSession R} (h : s.Orderly) : s.commit.Orderly := by
  simp only [TimedSession.commit]
  split
  · next hdue =>
    have ⟨hcleanup, htimers, hframes⟩ := h.runCleanup
    rcases commit_running hdue with ⟨hnone, hinactive⟩ | ⟨lvl, hsome⟩
    · left
      simp only [runEffect, hnone]
      exact ⟨hcleanup, htimers, hframes, hnone, hinactive⟩
    · right
      simp only [runEffect, hsome, setTimer, requestFrame, htimers, hframes, List.nil_append]
      exact ⟨_, rfl, Function.update_self .., hsome, .inr ⟨_, rfl, rfl⟩, .inr ⟨_, rfl, rfl⟩,
        fun _ ↦ rfl⟩
  · exact h

private theorem Orderly.unmount {s : TimedSession R} (h : s.Orderly) : s.unmount.Orderly := by
  have ⟨hcleanup, htimers, hframes⟩ := h.runCleanup
  exact .inl ⟨hcleanup, htimers, hframes, rfl, rfl⟩

private theorem Orderly.play {s : TimedSession R} (h : s.Orderly) (e : GameEvent R) :
    (s.play e).Orderly := by
  simp only [TimedSession.play]
  split
  · next he =>
    have ⟨hrunning, _, hactive⟩ := play_input s.session he
    rcases h with h | ⟨scope, h⟩
    · left
      have hsame : s.session.play e = s.session := by
        simp only [Session.play, h.running]
      exact ⟨h.cleanup, h.timers, h.frames, hrunning.trans h.running, by
        rw [hsame]
        exact h.inactive⟩
    · right
      refine ⟨scope, h.cleanup, h.inScope, hrunning.trans h.running, h.timers, h.frames, ?_⟩
      intro hover
      have ⟨hbefore, hwins⟩ := hactive hover
      simp only [h.active hbefore, hwins, lt_self_iff_false, decide_false, Bool.or_false]
  · exact h

private theorem Orderly.fireTimer {s : TimedSession R} (h : s.Orderly) (id : ℕ) (r : R)
    (draws : ℕ → GameState.FruitDraw R) : (s.fireTimer id r draws).Orderly := by
  simp only [TimedSession.fireTimer]
  split
  · exact h
  · next cb hfind =>
    rcases h with h | ⟨scope, h⟩
    · rw [h.timers] at hfind
      cases hfind
    · have ⟨hrun, hrest⟩ := h.timers.fired hfind
      simp only [hrun, h.inScope, hrest]
      right
      split
      · exact ⟨scope, h.cleanup, h.inScope, h.running, .inl rfl, h.frames, h.active⟩
      · next hactive =>
        simp only [Bool.not_eq_true', Bool.not_eq_false] at hactive
        exact ⟨_, h.cleanup, Function.update_self .., h.running, .inr ⟨_, rfl, rfl⟩, h.frames,
          fun _ ↦ h.active hactive⟩

private theorem Orderly.fireFrame {s : TimedSession R} (h : s.Orderly) (id : ℕ) (elapsed now : R) :
    (s.fireFrame id elapsed now).Orderly := by
  simp only [TimedSession.fireFrame]
  split
  · exact h
  · next cb hfind =>
    rcases h with h | ⟨scope, h⟩
    · rw [h.frames] at hfind
      cases hfind
    · have ⟨hrun, hrest⟩ := h.frames.fired hfind
      simp only [hrun, h.inScope, hrest]
      right
      split
      · exact ⟨scope, h.cleanup, h.inScope, h.running, h.timers, .inl rfl, h.active⟩
      · next game hrender =>
        have ⟨_, _, _, hboard, _, _⟩ := render_spec hrender
        have hactive : game.gameActive = s.session.game.gameActive :=
          congrArg Scoreboard.gameActive hboard
        split
        · next hgoes =>
          exact ⟨_, h.cleanup, Function.update_self .., h.running, h.timers, .inr ⟨_, rfl, rfl⟩,
            fun _ ↦ h.active (hactive.symm.trans hgoes)⟩
        · exact ⟨scope, h.cleanup, h.inScope, h.running, h.timers, .inl rfl,
            fun hgoes ↦ h.active (hactive.symm.trans hgoes)⟩

/-- Every event keeps a session orderly. -/
theorem Orderly.handle {s : TimedSession R} (h : s.Orderly) (e : TimedEvent R) :
    (s.handle e).Orderly := by
  cases e with
  | nextSlide => exact h.of_session (nextSlide_same s.session).1 (nextSlide_same s.session).2
  | prevSlide => exact h.of_session (prevSlide_same s.session).1 (prevSlide_same s.session).2
  | pressStart => exact h.of_session (pressStart_same s.session).1 (pressStart_same s.session).2
  | pressRepeat => exact h.of_session (pressRepeat_same s.session).1 (pressRepeat_same s.session).2
  | exitGame => exact h.of_session rfl rfl
  | commit => exact h.commit
  | unmount => exact h.unmount
  | play e => exact h.play e
  | timer id r draws => exact h.fireTimer id r draws
  | frame id elapsed now => exact h.fireFrame id elapsed now

/-! ### Single chains -/

/-- At most one timer and one frame are pending, both of the last run of the effect. -/
structure SingleChains (s : TimedSession R) : Prop where
  timers : s.timers.length ≤ 1
  frames : s.frames.length ≤ 1
  lastRun : ∀ cb ∈ s.timers ++ s.frames, cb.run = s.runs

omit [Scalar R] in
private theorem Named.single {pending : List Callback} {run : ℕ} {name : Option ℕ}
    (h : Named pending run name) : pending.length ≤ 1 ∧ ∀ cb ∈ pending, cb.run = run := by
  rcases h with rfl | ⟨id, _, rfl⟩
  · exact ⟨Nat.zero_le 1, by simp⟩
  · exact ⟨le_rfl, by simp⟩

omit [Scalar R] in
/-- An orderly session has single chains. -/
theorem Orderly.singleChains {s : TimedSession R} (h : s.Orderly) : s.SingleChains := by
  rcases h with h | ⟨scope, h⟩
  · constructor
    · rw [h.timers]
      exact Nat.zero_le 1
    · rw [h.frames]
      exact Nat.zero_le 1
    · rw [h.timers, h.frames]
      intro cb hcb
      cases hcb
  · have ⟨htimers, htimersRun⟩ := Named.single h.timers
    have ⟨hframes, hframesRun⟩ := Named.single h.frames
    refine ⟨htimers, hframes, fun cb hcb ↦ ?_⟩
    rcases List.mem_append.mp hcb with hcb | hcb
    · exact htimersRun cb hcb
    · exact hframesRun cb hcb

/-- The level of the last run of the effect. -/
def lastLevel (s : TimedSession R) : Option (Level R) :=
  (s.scopes s.runs).map EffectScope.activeLevel

end TimedSession

/-- Fruits are spawned by the spawner only, in a game that has not ended since the last run of
the effect, and with the parameters of the level of that run. -/
def TimedTurn.SpawnsInRun (t : TimedTurn R) : Prop :=
  t.before.session.game.spawned < t.after.session.game.spawned →
    t.before.ended = false ∧ ∃ lvl r draws, t.before.lastLevel = some lvl ∧
      t.after.session.game = t.before.session.game.spawnFruit lvl r draws

omit [Scalar R] in
private theorem commit_spawned (s : Session R) : s.commit.game.spawned = s.game.spawned := by
  simp only [Session.commit]
  split
  · rfl
  · split <;> rfl

private theorem spawned_le_of_not_timer (s : TimedSession R) {e : TimedEvent R}
    (he : ∀ id r draws, e ≠ .timer id r draws) :
    (s.handle e).session.game.spawned ≤ s.session.game.spawned := by
  cases e with
  | nextSlide => exact (congrArg GameState.spawned (nextSlide_same s.session).2).le
  | prevSlide => exact (congrArg GameState.spawned (prevSlide_same s.session).2).le
  | pressStart => exact (congrArg GameState.spawned (pressStart_same s.session).2).le
  | pressRepeat => exact (congrArg GameState.spawned (pressRepeat_same s.session).2).le
  | exitGame => exact le_rfl
  | commit =>
    simp only [TimedSession.handle, TimedSession.commit]
    split
    · have hsession : ({ s.runCleanup with session := s.session.commit }.runEffect).session =
          s.session.commit := by
        simp only [TimedSession.runEffect]
        split <;> rfl
      rw [hsession, commit_spawned]
    · exact le_rfl
  | unmount => exact Nat.zero_le _
  | play e =>
    simp only [TimedSession.handle, TimedSession.play]
    split
    · next he => exact (play_input s.session he).2.1.le
    · exact le_rfl
  | timer id r draws => exact absurd rfl (he id r draws)
  | frame id elapsed now =>
    simp only [TimedSession.handle, TimedSession.fireFrame]
    split
    · exact le_rfl
    · split
      · exact le_rfl
      · split
        · exact le_rfl
        · next game hrender =>
          have ⟨_, _, _, _, hspawned, _⟩ := render_spec hrender
          split
          · exact hspawned.le
          · exact hspawned.le

/-- An event of an orderly session spawns in the last run only. -/
theorem TimedSession.Orderly.spawnsInRun {s : TimedSession R} (h : s.Orderly) (e : TimedEvent R) :
    (timedMachine.step s e).SpawnsInRun := by
  intro hspawned
  change s.session.game.spawned < (s.handle e).session.game.spawned at hspawned
  change s.ended = false ∧ ∃ lvl r draws, s.lastLevel = some lvl ∧
    (s.handle e).session.game = s.session.game.spawnFruit lvl r draws
  by_cases he : ∃ id r draws, e = .timer id r draws
  · obtain ⟨id, r, draws, rfl⟩ := he
    simp only [TimedSession.handle, TimedSession.fireTimer] at hspawned ⊢
    split at hspawned
    · exact absurd hspawned (lt_irrefl _)
    · next cb hfind =>
      rcases h with h | ⟨scope, h⟩
      · rw [h.timers] at hfind
        cases hfind
      · have ⟨hrun, _⟩ := h.timers.fired hfind
        simp only [hrun, h.inScope] at hspawned ⊢
        split at hspawned
        · exact absurd hspawned (lt_irrefl _)
        · next hactive =>
          rw [if_neg hactive]
          simp only [Bool.not_eq_true', Bool.not_eq_false] at hactive
          refine ⟨h.active hactive, scope.activeLevel, r, draws, ?_, rfl⟩
          simp only [TimedSession.lastLevel, h.inScope, Option.map_some]
  · have hle := spawned_le_of_not_timer s fun id r draws hid ↦ he ⟨id, r, draws, hid⟩
    exact absurd hspawned (not_lt.mpr hle)

/-- In every run of the component there is at most one timer and one frame, of the last run of
the effect, and fruits are spawned in a running level only, with its parameters. -/
theorem single_spawner (storage : Option (List ℕ)) (events : List (TimedEvent R)) :
    ∀ t ∈ timedMachine.trace (.mount storage) events, t.after.SingleChains ∧ t.SpawnsInRun := by
  apply timedMachine.trace_forall (I := TimedSession.Orderly)
    (P := fun t ↦ t.after.SingleChains ∧ t.SpawnsInRun) events
  · intro s e _ hs
    exact ⟨(hs.handle e).singleChains, hs.spawnsInRun e⟩
  · intro s e _ t hs hnext
    rw [← Option.some.inj hnext]
    exact hs.handle e
  · exact .inl ⟨rfl, rfl, rfl, rfl, rfl⟩

/-- The first level is started and its spawner is called. -/
def firstLaunch : List (TimedEvent ℚ) :=
  [.pressStart, .commit, .timer 0 0.5 fun _ ↦ ⟨0.5, 0.5, 0.5, 0.5, 0.5, 0.5⟩]

/-- The call launches fruits, in the run of the effect. -/
theorem single_spawner_firstLaunch :
    ∃ past t, timedMachine.trace (.mount none) firstLaunch = past ++ [t] ∧
      t.before.session.game.spawned < t.after.session.game.spawned ∧
      t.after.SingleChains ∧ t.SpawnsInRun := by
  have hsplit : ∃ past t, timedMachine.trace (.mount none) firstLaunch = past ++ [t] ∧
      t.before.session.game.spawned < t.after.session.game.spawned := by
    refine ⟨[_, _], _, rfl, ?_⟩
    decide +kernel
  have ⟨past, t, htrace, hspawned⟩ := hsplit
  exact ⟨past, t, htrace, hspawned, single_spawner none firstLaunch t (by simp [htrace])⟩

/-! ### The component without its callbacks -/

private theorem play_spawn {s : Session R} {lvl : Level R} (hr : s.running = some lvl) (r : R)
    (draws : ℕ → GameState.FruitDraw R) :
    s.play (.spawn r draws) = { s with game := s.game.spawnFruit lvl r draws } := by
  have hwins : (s.game.spawnFruit lvl r draws).wins = s.game.wins := by
    simp only [GameState.spawnFruit]
    split <;> rfl
  rw [play_of_running hr (by simp)]
  change (if s.game.wins.length < (s.game.spawnFruit lvl r draws).wins.length then _ else _) = _
  rw [hwins, if_neg (lt_irrefl _)]
  rfl

private theorem play_frame {s : Session R} {lvl : Level R} (hr : s.running = some lvl)
    {elapsed now : R} {game : GameState R} (hrender : s.game.render lvl elapsed now = some game) :
    s.play (.frame elapsed now) = { s with game := game } := by
  obtain ⟨_, _, _, hboard, _, _⟩ := render_spec hrender
  have hwins : game.wins = s.game.wins := congrArg Scoreboard.wins hboard
  have hturn : (gameMachine lvl).step s.game (.frame elapsed now) = ⟨_, s.game, game, false⟩ :=
    gameMachine_step_of_step hrender
  rw [play_of_running hr (by simp), hturn, if_neg (by rw [hwins]; exact lt_irrefl _)]

/-- What an event does to the session is nothing, or one event of the session. -/
theorem TimedSession.Orderly.session_handle {s : TimedSession R} (h : s.Orderly)
    (e : TimedEvent R) :
    (s.handle e).session = s.session ∨ ∃ e', (s.handle e).session = s.session.handle e' := by
  cases e with
  | nextSlide => exact .inr ⟨.nextSlide, rfl⟩
  | prevSlide => exact .inr ⟨.prevSlide, rfl⟩
  | pressStart => exact .inr ⟨.pressStart, rfl⟩
  | pressRepeat => exact .inr ⟨.pressRepeat, rfl⟩
  | exitGame => exact .inr ⟨.exitGame, rfl⟩
  | unmount => exact .inr ⟨.reload, rfl⟩
  | commit =>
    simp only [TimedSession.handle, TimedSession.commit]
    split
    · right
      refine ⟨.commit, ?_⟩
      simp only [TimedSession.runEffect]
      split <;> rfl
    · exact .inl rfl
  | play e =>
    simp only [TimedSession.handle, TimedSession.play]
    split
    · exact .inr ⟨.play e, rfl⟩
    · exact .inl rfl
  | timer id r draws =>
    simp only [TimedSession.handle, TimedSession.fireTimer]
    split
    · exact .inl rfl
    · next cb hfind =>
      rcases h with h | ⟨scope, h⟩
      · rw [h.timers] at hfind
        cases hfind
      · simp only [(h.timers.fired hfind).1, h.inScope]
        split
        · exact .inl rfl
        · exact .inr ⟨.play (.spawn r draws), (play_spawn h.running r draws).symm⟩
  | frame id elapsed now =>
    simp only [TimedSession.handle, TimedSession.fireFrame]
    split
    · exact .inl rfl
    · next cb hfind =>
      rcases h with h | ⟨scope, h⟩
      · rw [h.frames] at hfind
        cases hfind
      · simp only [(h.frames.fired hfind).1, h.inScope]
        split
        · exact .inl rfl
        · next game hrender =>
          right
          refine ⟨.play (.frame elapsed now), ?_⟩
          change _ = s.session.play (.frame elapsed now)
          rw [play_frame h.running hrender]
          split <;> rfl

/-- Whatever the callbacks do, the session is one that the component without them reaches. -/
theorem session_of_timed (storage : Option (List ℕ)) (events : List (TimedEvent R)) :
    ∃ es : List (SessionEvent R),
      (events.foldl TimedSession.handle (.mount storage)).session =
        es.foldl Session.handle (.mount storage []) := by
  suffices hrun : (events.foldl TimedSession.handle (.mount storage)).Orderly ∧
      ∃ es : List (SessionEvent R),
        (events.foldl TimedSession.handle (.mount storage)).session =
          es.foldl Session.handle (.mount storage []) from hrun.2
  induction events using List.reverseRecOn with
  | nil => exact ⟨.inl ⟨rfl, rfl, rfl, rfl, rfl⟩, [], rfl⟩
  | append_singleton events e ih =>
    have ⟨horderly, es, hes⟩ := ih
    simp only [List.foldl_append, List.foldl_cons, List.foldl_nil]
    refine ⟨horderly.handle e, ?_⟩
    rcases horderly.session_handle e with hsame | ⟨e', he'⟩
    · exact ⟨es, hsame.trans hes⟩
    · refine ⟨es ++ [e'], ?_⟩
      rw [he', hes, List.foldl_append]
      rfl

end VisionGame.Game
