import VisionGame.Game.Session

/-!
# Which levels are unlocked

Library `Game`. `components/FruitNinjaGame.tsx:351–372,898–923,999–1000,1155–1186`. The
completed levels are read when the component is mounted and never written, neither by
`handleGameWin` nor to `localStorage`: winning a level unlocks nothing, although the win
screen says that it does.
-/

namespace VisionGame.Game
open VisionGame.Base

variable {R : Type} [Scalar R]

/-- The slide of level `k + 1` is unlocked when level `k` is completed. -/
theorem isUnlocked_iff (s : Session R) {k : ℕ} (h1 : 1 ≤ k) (h4 : k ≤ 4) :
    s.isUnlocked k = true ↔ k ∈ s.completedLevels := by
  have hslide : k = 1 ∨ k = 2 ∨ k = 3 ∨ k = 4 := by omega
  unfold Session.isUnlocked levels
  rcases hslide with rfl | rfl | rfl | rfl <;> simp

private theorem pressStart_cases (s : Session R) :
    (s.isUnlocked s.activeSlide = false → s.pressStart = s) ∧
      ∀ lvl, (levels : List (Level R))[s.activeSlide]? = some lvl →
        s.isUnlocked s.activeSlide = true → s.showsGame = false →
        s.pressStart = s.startGame lvl := by
  simp only [Session.pressStart]
  constructor
  · intro hlocked
    split
    · simp [hlocked]
    · rfl
  · intro lvl hlvl hunlocked hmenu
    rw [hlvl]
    simp [hunlocked, hmenu]

private theorem handle_completedLevels (s : Session R) (e : SessionEvent R) :
    (s.handle e).storage = s.storage ∧
      ((s.handle e).completedLevels = s.completedLevels ∨
        (s.handle e).completedLevels = s.storage.getD []) := by
  cases e with
  | nextSlide =>
    change s.nextSlide.storage = _ ∧ (s.nextSlide.completedLevels = _ ∨ _)
    simp only [Session.nextSlide]
    split <;> exact ⟨rfl, .inl rfl⟩
  | prevSlide =>
    change s.prevSlide.storage = _ ∧ (s.prevSlide.completedLevels = _ ∨ _)
    simp only [Session.prevSlide]
    split <;> exact ⟨rfl, .inl rfl⟩
  | pressStart =>
    change s.pressStart.storage = _ ∧ (s.pressStart.completedLevels = _ ∨ _)
    simp only [Session.pressStart]
    split
    · split <;> exact ⟨rfl, .inl rfl⟩
    · exact ⟨rfl, .inl rfl⟩
  | pressRepeat =>
    change s.pressRepeat.storage = _ ∧ (s.pressRepeat.completedLevels = _ ∨ _)
    simp only [Session.pressRepeat]
    split
    · split <;> exact ⟨rfl, .inl rfl⟩
    · exact ⟨rfl, .inl rfl⟩
  | exitGame => exact ⟨rfl, .inl rfl⟩
  | commit =>
    change s.commit.storage = _ ∧ (s.commit.completedLevels = _ ∨ _)
    simp only [Session.commit]
    split
    · exact ⟨rfl, .inl rfl⟩
    · split <;> exact ⟨rfl, .inl rfl⟩
  | play e =>
    change (s.play e).storage = _ ∧ ((s.play e).completedLevels = _ ∨ _)
    unfold Session.play
    split
    · exact ⟨rfl, .inl rfl⟩
    · exact ⟨rfl, .inl rfl⟩
    · dsimp only
      split <;> exact ⟨rfl, .inl rfl⟩
  | reload => exact ⟨rfl, .inr rfl⟩

/-- Level `k + 1` is unlocked exactly when level `k` has been won or was stored, and its
button starts it exactly then. -/
structure SessionTurn.UnlocksWon (stored : List ℕ) (t : SessionTurn R) : Prop where
  unlocked : ∀ k, 1 ≤ k → k ≤ 4 →
    (t.after.isUnlocked k = true ↔ k ∈ t.after.wonLevels ∨ k ∈ stored)
  started : t.event = .pressStart → t.before.showsGame = false → ∀ k, 1 ≤ k → k ≤ 4 →
    t.before.activeSlide = k → ∀ lvl, (levels : List (Level R))[k]? = some lvl →
    t.after = if k ∈ t.before.wonLevels ∨ k ∈ stored then t.before.startGame lvl else t.before

/-- A level up to the fourth that is won for the first time was stored. -/
def SessionTurn.WinsStored (stored : List ℕ) (t : SessionTurn R) : Prop :=
  ∀ k, 1 ≤ k → k ≤ 4 → k ∈ t.after.wonLevels → k ∉ t.before.wonLevels → k ∈ stored

/-- The stored levels are the completed ones, and the levels won are among them. -/
structure Session.Stored (stored : List ℕ) (s : Session R) : Prop where
  completedLevels : s.completedLevels = stored
  storage : s.storage.getD [] = stored
  won : ∀ k, 1 ≤ k → k ≤ 4 → k ∈ s.wonLevels → k ∈ stored

/-- After any event the completed levels are still the stored ones. -/
theorem Session.Stored.completed_handle {stored : List ℕ} {s : Session R} (h : s.Stored stored)
    (e : SessionEvent R) :
    (s.handle e).completedLevels = stored ∧ (s.handle e).storage.getD [] = stored := by
  have ⟨hstorage, hcompleted⟩ := handle_completedLevels s e
  constructor
  · rcases hcompleted with hsame | hread
    · exact hsame.trans h.completedLevels
    · exact hread.trans h.storage
  · rw [hstorage]
    exact h.storage

/-- While every level won was stored, a level is unlocked when the one before it was won or
stored. -/
theorem Session.Stored.isUnlocked_iff {stored : List ℕ} {s : Session R} (h : s.Stored stored)
    {k : ℕ} (h1 : 1 ≤ k) (h4 : k ≤ 4) :
    s.isUnlocked k = true ↔ k ∈ s.wonLevels ∨ k ∈ stored := by
  rw [Game.isUnlocked_iff s h1 h4, h.completedLevels]
  constructor
  · exact .inr
  · rintro (hwon | hmem)
    · exact h.won k h1 h4 hwon
    · exact hmem

/-- An event whose win was stored keeps every level won among the stored ones. -/
theorem Session.Stored.handle {stored : List ℕ} {s : Session R} (h : s.Stored stored)
    {e : SessionEvent R} (hwin : (sessionMachine.step s e).WinsStored stored) :
    (s.handle e).Stored stored := by
  have ⟨hcompleted, hstorage⟩ := h.completed_handle e
  refine ⟨hcompleted, hstorage, fun k h1 h4 hwon ↦ ?_⟩
  by_cases hbefore : k ∈ s.wonLevels
  · exact h.won k h1 h4 hbefore
  · exact hwin k h1 h4 hwon hbefore

private theorem Session.Stored.pressStart {stored : List ℕ} {s : Session R} (h : s.Stored stored)
    (hmenu : s.showsGame = false) (h1 : 1 ≤ s.activeSlide) (h4 : s.activeSlide ≤ 4)
    {lvl : Level R} (hlvl : (levels : List (Level R))[s.activeSlide]? = some lvl) :
    s.pressStart = if s.activeSlide ∈ s.wonLevels ∨ s.activeSlide ∈ stored then s.startGame lvl
      else s := by
  have ⟨hlocked, hopen⟩ := pressStart_cases s
  have hiff := h.isUnlocked_iff h1 h4
  split
  · next hwon => exact hopen lvl hlvl (hiff.mpr hwon) hmenu
  · next hnot =>
    exact hlocked (Bool.eq_false_of_not_eq_true fun hunlocked ↦ hnot (hiff.mp hunlocked))

/-- In every session a level is unlocked, and can be started, exactly when the one before it
was won or stored if and only if every level up to the fourth that is won was stored from the
beginning. -/
theorem unlocks_won_iff (storage : Option (List ℕ)) (events : List (SessionEvent R)) :
    (∀ t ∈ sessionMachine.trace (.mount storage []) events,
        t.UnlocksWon (storage.getD [])) ↔
      ∀ t ∈ sessionMachine.trace (.mount storage []) events,
        t.WinsStored (storage.getD []) := by
  apply sessionMachine.trace_forall_iff (I := Session.Stored (storage.getD []))
    (P := SessionTurn.UnlocksWon (storage.getD [])) (C := SessionTurn.WinsStored (storage.getD []))
  · intro s e _ hs
    constructor
    · intro hunlocks k h1 h4 hwon _
      have hunlocked := (hunlocks.unlocked k h1 h4).mpr (.inl hwon)
      have hcompleted := (hs.completed_handle e).1
      rw [isUnlocked_iff _ h1 h4] at hunlocked
      exact hcompleted ▸ hunlocked
    · intro hwin
      constructor
      · intro k h1 h4
        exact (hs.handle hwin).isUnlocked_iff h1 h4
      · intro he hmenu k h1 h4 hslide lvl hlvl
        change e = .pressStart at he
        change s.activeSlide = k at hslide
        subst he hslide
        exact hs.pressStart hmenu h1 h4 hlvl
  · intro s e _ v hs hwin hv
    rw [← Option.some.inj hv]
    exact hs.handle hwin
  · exact ⟨rfl, rfl, by simp [Session.mount]⟩

/-- The first level is won with eight pairs, and the second one stays locked. -/
theorem unlocks_won_fails :
    ¬ ∀ t ∈ sessionMachine.trace (.mount none [] : Session ℚ)
        ([.pressStart, .commit] ++ (List.replicate 8 (cutPair.map .play)).flatten ++ [.commit]),
      t.UnlocksWon [] := by
  intro hall
  have hlocked : (sessionMachine.trace (.mount none [] : Session ℚ)
      ([.pressStart, .commit] ++ (List.replicate 8 (cutPair.map .play)).flatten ++ [.commit])).any
      (fun t ↦ t.after.wonLevels.contains 1 && !t.after.isUnlocked 1) = true := by
    decide +kernel
  have ⟨t, ht, hwon⟩ := List.any_eq_true.mp hlocked
  have ⟨hmem, hstill⟩ := Bool.and_eq_true_iff.mp hwon
  have hunlocked := ((hall t ht).unlocked 1 le_rfl (by omega)).mpr
    (.inl (List.contains_iff_mem.mp hmem))
  rw [hunlocked] at hstill
  cases hstill

end VisionGame.Game
