import VisionGame.Base.Fading
import VisionGame.Game.Airtime
import VisionGame.Game.SceneGame

/-!
# What is seen around the game

Library `Game`. `components/FruitNinjaGame.tsx:489–634,680–735,838–882`. A cut sets off at most five
particles of the pool, none of them one that is seen; it adds a text while there are few. Particles
and texts fade at their rates, so that only those of recent cuts and combos are there. The score
shown by React lags behind the score, but not any more when the level is won.
-/

namespace VisionGame.Game
open VisionGame.Base

variable {R : Type} [Scalar R]

/-! ### Particles -/

/-- The lives of the particles that are seen. -/
def lives (particles : List (Particle R)) : List R :=
  (particles.filter Particle.active).map Particle.life

/-- A particle that is seen stays as it is. -/
def Particle.Undisturbed (p q : Particle R) : Prop := p.active = true → q = p

private theorem burst_spec (fruit : Fruit R) (draws : ℕ → ParticleDraw R) (i k : ℕ)
    (ps : List (Particle R)) :
    List.Forall₂ Particle.Undisturbed ps (burst fruit draws i k ps) ∧
      ∃ n, n ≤ 5 - k ∧
        (lives (burst fruit draws i k ps)).Perm (lives ps ++ List.replicate n 1) := by
  have hsame : ∀ qs : List (Particle R), List.Forall₂ Particle.Undisturbed qs qs :=
    fun qs ↦ List.forall₂_same.mpr fun _ _ _ ↦ rfl
  induction ps generalizing i k with
  | nil => exact ⟨.nil, 0, Nat.zero_le _, .refl _⟩
  | cons p ps ih =>
    unfold burst
    split
    · exact ⟨hsame _, 0, Nat.zero_le _, by simp⟩
    · next hfew =>
      split
      · next hfree =>
        have hinactive : p.active = false := (Bool.not_eq_true' _).mp hfree
        have ⟨hkept, n, hn, hperm⟩ := ih (i + 1) (k + 1)
        refine ⟨.cons (fun hactive ↦ ?_) hkept, n + 1, by omega, ?_⟩
        · rw [hinactive] at hactive
          cases hactive
        · have hbefore : lives (p :: ps) = lives ps := by
            unfold lives
            rw [List.filter_cons_of_neg (by rw [hinactive]; decide)]
          have hafter : lives (.ignite fruit (draws i) :: burst fruit draws (i + 1) (k + 1) ps) =
              1 :: lives (burst fruit draws (i + 1) (k + 1) ps) := rfl
          rw [hbefore, hafter, List.replicate_succ]
          exact (hperm.cons 1).trans List.perm_middle.symm
      · next hactive =>
        have hseen : p.active = true := by
          rw [Bool.not_eq_true', Bool.not_eq_false] at hactive
          exact hactive
        have ⟨hkept, n, hn, hperm⟩ := ih (i + 1) k
        refine ⟨.cons (fun _ ↦ rfl) hkept, n, hn, ?_⟩
        have hcons : ∀ qs : List (Particle R), lives (p :: qs) = p.life :: lives qs := by
          intro qs
          unfold lives
          rw [List.filter_cons_of_pos hseen, List.map_cons]
        rw [hcons, hcons]
        exact hperm.cons p.life

private theorem update_spec (dt : R) {p : Particle R} (h : p.active = true) :
    (p.update dt).life = p.life - 0.020 * dt ∧
      ((p.update dt).active = true → 0.05 ≤ (p.update dt).life) := by
  unfold Particle.update
  rw [h]
  dsimp only [Bool.not_true]
  rw [if_neg (by decide)]
  split
  · refine ⟨rfl, fun hactive ↦ ?_⟩
    cases hactive
  · next hseen =>
    refine ⟨rfl, fun _ ↦ ?_⟩
    simp only [Bool.or_eq_true, decide_eq_true_eq, not_or, not_lt, not_le] at hseen
    rcases le_max_iff.mp hseen.1.2 with hzero | hlife
    · norm_num at hzero
    · exact hlife

private theorem lives_update (dt : R) (ps : List (Particle R)) :
    (lives (ps.map (Particle.update dt))).Sublist ((lives ps).map (· - 0.020 * dt)) ∧
      ∀ life ∈ lives (ps.map (Particle.update dt)), 0.05 ≤ life := by
  induction ps with
  | nil => exact ⟨.slnil, by simp [lives]⟩
  | cons p ps ih =>
    have ⟨hsub, hdim⟩ := ih
    unfold lives at hsub hdim ⊢
    rw [List.map_cons]
    cases hactive : p.active with
    | false =>
      have hsame : p.update dt = p := by
        unfold Particle.update
        rw [hactive]
        rfl
      rw [hsame, List.filter_cons_of_neg (by rw [hactive]; decide),
        List.filter_cons_of_neg (by rw [hactive]; decide)]
      exact ih
    | true =>
      have ⟨hlife, hseen⟩ := update_spec dt hactive
      rw [List.filter_cons_of_pos (l := ps) hactive, List.map_cons, List.map_cons, ← hlife]
      cases hstays : (p.update dt).active with
      | false =>
        rw [List.filter_cons_of_neg (by rw [hstays]; decide)]
        exact ⟨hsub.cons _, hdim⟩
      | true =>
        rw [List.filter_cons_of_pos hstays, List.map_cons]
        refine ⟨hsub.cons_cons _, ?_⟩
        rw [List.forall_mem_cons]
        exact ⟨hseen hstays, hdim⟩

/-! ### What an event adds -/

/-- The transparencies of the texts. -/
def Scene.alphas (s : Scene R) : List R := s.floatingTexts.map FloatingText.alpha

/-- The number of texts for single cuts. -/
def Scene.plusOnes (s : Scene R) : ℕ := s.floatingTexts.countP (·.label = .plusOne)

/-- The score that is shown is one that the game has had, and the score of a level that is won. -/
structure Scene.Shown (s : Scene R) : Prop where
  le_score : s.shownScore ≤ s.game.score
  won : s.game.isInfinite = false → s.game.levelTarget ≤ s.game.score →
    s.shownScore = s.game.score

/-- What decides whether a level is won. -/
def GameState.goal (s : GameState R) : ℕ × Bool × ℕ := (s.score, s.isInfinite, s.levelTarget)

/-- What is seen and heard more after an event in which no time passes: a burst for each cut, and
texts for cuts and combos. -/
structure Adds (s t : Scene R) : Prop where
  score : s.game.score ≤ t.game.score
  combos : s.game.combos.length ≤ t.game.combos.length
  undisturbed : List.Forall₂ Particle.Undisturbed s.particles t.particles
  sparks : ∃ n, n ≤ 5 * (t.game.score - s.game.score) ∧
    (lives t.particles).Perm (lives s.particles ++ List.replicate n 1)
  texts : ∃ new : List (FloatingText R), t.floatingTexts = s.floatingTexts ++ new ∧
    (∀ text ∈ new, text.alpha = 1) ∧ new.length ≤ (t.game.score - s.game.score) +
      (t.game.combos.length - s.game.combos.length)
  plusOnes : s.plusOnes ≤ 10 → t.plusOnes ≤ 10
  squishes : t.sounds.count .squish = s.sounds.count .squish + (t.game.score - s.game.score)
  shown : s.Shown → t.Shown

namespace Adds

/-- Adding is transitive. -/
theorem trans {s t u : Scene R} (h : Adds s t) (h' : Adds t u) : Adds s u := by
  have hscore := h.score
  have hscore' := h'.score
  have hcombos := h.combos
  have hcombos' := h'.combos
  constructor
  · omega
  · omega
  · have hpair := List.forall₂_iff_get.mp h.undisturbed
    have hpair' := List.forall₂_iff_get.mp h'.undisturbed
    apply List.forall₂_iff_get.mpr
    refine ⟨hpair.1.trans hpair'.1, fun i hi hi' hactive ↦ ?_⟩
    have hmid := hpair.2 i hi (hpair.1 ▸ hi) hactive
    have hlast := hpair'.2 i (hpair.1 ▸ hi) hi'
    rw [hmid] at hlast
    exact hlast hactive
  · have ⟨n, hn, hperm⟩ := h.sparks
    have ⟨m, hm, hperm'⟩ := h'.sparks
    refine ⟨n + m, by omega, hperm'.trans ?_⟩
    rw [List.replicate_add, ← List.append_assoc]
    exact hperm.append_right _
  · have ⟨new, htexts, hnew, hlength⟩ := h.texts
    have ⟨later, htexts', hlater, hlength'⟩ := h'.texts
    refine ⟨new ++ later, ?_, ?_, ?_⟩
    · rw [htexts', htexts, List.append_assoc]
    · intro text htext
      rcases List.mem_append.mp htext with hfirst | hsecond
      · exact hnew text hfirst
      · exact hlater text hsecond
    · rw [List.length_append]
      omega
  · exact fun hfew ↦ h'.plusOnes (h.plusOnes hfew)
  · rw [h'.squishes, h.squishes]
    omega
  · exact fun hshown ↦ h'.shown (h.shown hshown)

/-- A change of the game that cuts nothing adds nothing. -/
theorem of_goal {s : Scene R} {g : GameState R} (hgoal : g.goal = s.game.goal)
    (hcombos : s.game.combos.length ≤ g.combos.length) : Adds s { s with game := g } := by
  have ⟨hscore, hinfinite, htarget⟩ : g.score = s.game.score ∧
      g.isInfinite = s.game.isInfinite ∧ g.levelTarget = s.game.levelTarget := by
    simpa only [GameState.goal, Prod.mk.injEq] using hgoal
  constructor
  · exact hscore.ge
  · exact hcombos
  · exact List.forall₂_same.mpr fun _ _ _ ↦ rfl
  · exact ⟨0, Nat.zero_le _, by simp⟩
  · exact ⟨[], by simp, by simp, Nat.zero_le _⟩
  · exact id
  · dsimp only
    rw [hscore, Nat.sub_self, Nat.add_zero]
  · intro hshown
    constructor
    · exact hshown.le_score.trans hscore.ge
    · dsimp only
      rw [hinfinite, htarget, hscore]
      exact hshown.won

/-- A change of the game that leaves the scoreboard alone adds nothing. -/
theorem of_game {s : Scene R} {g : GameState R} (hboard : g.board = s.game.board)
    (hcombos : s.game.combos.length ≤ g.combos.length) : Adds s { s with game := g } :=
  .of_goal (congrArg (fun b : Scoreboard ↦ (b.score, b.isInfinite, b.levelTarget)) hboard) hcombos

/-- A sound other than that of a cut. -/
theorem playSound (s : Scene R) {sound : Sound} (h : sound ≠ .squish) :
    Adds s (s.playSound sound) := by
  constructor
  · exact le_rfl
  · exact le_rfl
  · exact List.forall₂_same.mpr fun _ _ _ ↦ rfl
  · exact ⟨0, Nat.zero_le _, by simp [Scene.playSound]⟩
  · exact ⟨[], by simp [Scene.playSound], by simp, Nat.zero_le _⟩
  · exact id
  · change (s.sounds ++ [sound]).count .squish =
      s.sounds.count .squish + (s.game.score - s.game.score)
    rw [List.count_append, List.count_singleton, Nat.sub_self, beq_eq_false_iff_ne.mpr h]
    rfl
  · exact fun hshown ↦ ⟨hshown.le_score, hshown.won⟩

end Adds

/-! ### What the functions of the scene add -/

namespace Scene

private theorem cutEffects_spec (fruit : Fruit R) (draws : ℕ → ParticleDraw R) (s : Scene R) :
    (s.cutEffects fruit draws).particles = burst fruit draws 0 0 s.particles ∧
      (s.cutEffects fruit draws).sounds = s.sounds ++ [.squish] ∧
      (s.cutEffects fruit draws).shownScore = s.shownScore ∧
      (s.cutEffects fruit draws).floatingTexts = s.floatingTexts ++
        if s.floatingTexts.length < 10 then [⟨fruit.x, fruit.y - 10, .plusOne, 1, 1⟩] else [] := by
  unfold cutEffects
  dsimp only
  split
  · next hfew =>
    have hroom : s.floatingTexts.length < 10 := hfew
    rw [if_pos hroom]
    exact ⟨rfl, rfl, rfl, rfl⟩
  · next hmany =>
    have hfull : ¬s.floatingTexts.length < 10 := hmany
    rw [if_neg hfull, List.append_nil]
    exact ⟨rfl, rfl, rfl, rfl⟩

omit [Scalar R] in
private theorem syncOnWin_spec (s : Scene R) :
    s.syncOnWin.particles = s.particles ∧ s.syncOnWin.sounds = s.sounds ∧
      s.syncOnWin.floatingTexts = s.floatingTexts ∧
      (s.shownScore ≤ s.game.score → s.syncOnWin.Shown) := by
  unfold syncOnWin
  split
  · exact ⟨rfl, rfl, rfl, fun _ ↦ ⟨le_rfl, fun _ _ ↦ rfl⟩⟩
  · next hopen =>
    refine ⟨rfl, rfl, rfl, fun hle ↦ ⟨hle, fun hfinite hwon ↦ ?_⟩⟩
    rw [hfinite, Bool.not_false, Bool.true_and, decide_eq_true_iff] at hopen
    exact absurd hwon hopen

private theorem visit_combos (hits : Fruit R → Bool) (s : GameState R) (fruit : Fruit R) :
    (s.visit hits fruit).combos = s.combos := by
  unfold GameState.visit GameState.countCut
  dsimp only
  split
  · rfl
  · split
    · split <;> rfl
    · rfl

private theorem adds_visit (hits : Fruit R → Bool) (draws : ℕ → ℕ → ParticleDraw R) (s : Scene R)
    (fruit : Fruit R) : Adds s (s.visit hits draws fruit) := by
  have ⟨_, hboard, _, _⟩ := visit_spec hits s.game fruit
  have hcombos := visit_combos hits s.game fruit
  unfold visit
  dsimp only
  split
  · next hcut =>
    rw [if_pos hcut] at hboard
    have hscore : (s.game.visit hits fruit).score = s.game.score + 1 := by
      have hcount := congrArg Scoreboard.score hboard
      rw [Scoreboard.iterate_count_score] at hcount
      exact hcount
    have ⟨hparticles, hsounds, hshownScore, htexts⟩ := cutEffects_spec fruit (draws fruit.id)
      { s with game := s.game.visit hits fruit }
    have hgame := cutEffects_game fruit (draws fruit.id)
      { s with game := s.game.visit hits fruit }
    generalize cutEffects fruit (draws fruit.id) { s with game := s.game.visit hits fruit } = t
      at hparticles hsounds hshownScore htexts hgame
    have ⟨hparticles', hsounds', htexts', hshown'⟩ := t.syncOnWin_spec
    dsimp only at hgame hparticles hsounds hshownScore htexts
    have ⟨hkept, n, hn, hperm⟩ := burst_spec fruit (draws fruit.id) 0 0 s.particles
    constructor
    · rw [syncOnWin_game, hgame, hscore]
      omega
    · rw [syncOnWin_game, hgame, hcombos]
    · rw [hparticles', hparticles]
      exact hkept
    · rw [hparticles', hparticles, syncOnWin_game, hgame, hscore]
      exact ⟨n, by omega, hperm⟩
    · rw [htexts', htexts, syncOnWin_game, hgame, hscore, hcombos]
      refine ⟨_, rfl, ?_, ?_⟩
      · split
        · simp
        · simp
      · split
        · simp
        · simp
    · intro hfew
      unfold plusOnes
      rw [htexts', htexts]
      split
      · next hroom =>
        rw [List.countP_append]
        have hle := List.countP_le_length (p := fun text : FloatingText R ↦ text.label = .plusOne)
          (l := s.floatingTexts)
        have hone : [(⟨fruit.x, fruit.y - 10, .plusOne, 1, 1⟩ : FloatingText R)].countP
            (·.label = .plusOne) = 1 := rfl
        omega
      · rw [List.append_nil]
        exact hfew
    · rw [hsounds', hsounds, syncOnWin_game, hgame, hscore, List.count_append]
      simp
    · intro hshown
      apply hshown'
      rw [hshownScore, hgame, hscore]
      exact hshown.le_score.trans (Nat.le_succ _)
  · next hmissed =>
    rw [if_neg hmissed] at hboard
    exact .of_game hboard (congrArg List.length hcombos).ge

/-- A collision check adds what belongs to its cuts. -/
theorem adds_checkCollisions (x y : R) (prev : Option (Point R))
    (draws : ℕ → ℕ → ParticleDraw R) (s : Scene R) :
    Adds s (s.checkCollisions x y prev draws) := by
  have hall : ∀ (fruits : List (Fruit R)) (t : Scene R),
      Adds t (fruits.foldl (visit (Fruit.hitBy x y prev) draws) t) := by
    intro fruits
    induction fruits with
    | nil => exact fun t ↦ .of_game rfl le_rfl
    | cons fruit fruits ih =>
      intro t
      rw [List.foldl_cons]
      exact (adds_visit _ draws t fruit).trans (ih _)
  have hempty : Adds s { s with game := { s.game with fruits := [] } } := .of_game rfl le_rfl
  exact hempty.trans (hall s.game.fruits _)

/-- The text of a combo is shown, or none. -/
def ShowsCombo (showText : Scene R → Scene R) : Prop :=
  ∀ s, showText s = s ∨ ∃ count x y, showText s = s.addText (.combo count) x y 1.2

private theorem showsCombo_trailText : ShowsCombo (trailText (R := R)) := by
  intro s
  unfold trailText
  split
  · split
    · exact .inr ⟨_, _, _, rfl⟩
    · exact .inl rfl
  · exact .inl rfl

private theorem showsCombo_swipeText (ends : Point R × Point R) : ShowsCombo (swipeText ends) :=
  fun _ ↦ .inr ⟨_, _, _, rfl⟩

private theorem adds_addText {s : Scene R} {g : GameState R} (hboard : g.board = s.game.board)
    {n : ℕ} (hcombos : g.combos = s.game.combos ++ [n]) (count : ℕ) (x y : R) :
    Adds s { s.addText (.combo count) x y 1.2 with game := g } := by
  have hmore : s.game.combos.length ≤ g.combos.length := by
    rw [hcombos, List.length_append]
    exact Nat.le_add_right _ _
  have hgame := Adds.of_game (s := s) hboard hmore
  constructor
  · exact hgame.score
  · exact hgame.combos
  · exact hgame.undisturbed
  · exact hgame.sparks
  · refine ⟨_, rfl, by simp, ?_⟩
    dsimp only
    rw [hcombos, List.length_append, Nat.add_sub_cancel_left]
    exact Nat.le_add_left _ _
  · intro hfew
    unfold plusOnes addText
    rw [List.countP_append]
    exact hfew
  · exact hgame.squishes
  · exact fun hshown ↦ ⟨(hgame.shown hshown).le_score, (hgame.shown hshown).won⟩

/-- A combo adds its sound and its text. -/
theorem adds_playCombo {showText : Scene R → Scene R} (h : ShowsCombo showText) (s : Scene R) :
    Adds s (s.playCombo showText) := by
  have ⟨_, hboard, _⟩ := playCombo_same s.game
  unfold playCombo
  split
  · next hmany =>
    have hcombos : s.game.playCombo.combos = s.game.combos ++ [s.game.slicedInStrokeCount] := by
      rw [GameState.playCombo, if_pos hmany]
    have hsound := Adds.playSound s (by simp : Sound.combo s.game.slicedInStrokeCount ≠ .squish)
    apply hsound.trans
    dsimp only
    generalize hu : s.playSound (.combo s.game.slicedInStrokeCount) = u
    have hgame : u.game = s.game := by
      rw [← hu]
      rfl
    rw [← hgame] at hboard hcombos ⊢
    rcases h u with hnone | ⟨count, x, y, htext⟩
    · rw [hnone]
      apply Adds.of_game hboard
      rw [hcombos, List.length_append]
      exact Nat.le_add_right _ _
    · rw [htext]
      exact adds_addText hboard hcombos count x y
  · exact .of_game rfl le_rfl

private theorem adds_endPausedStroke (now : R) (s : Scene R) : Adds s (s.endPausedStroke now) := by
  have ⟨_, hboard, _⟩ := playCombo_same s.game
  unfold endPausedStroke
  split
  · next hpaused =>
    have hgame : s.game.endPausedStroke now =
        { s.game.playCombo with slicedInStrokeCount := 0, lastPoint := none } := by
      rw [GameState.endPausedStroke, if_pos hpaused]
    have hcombo := adds_playCombo showsCombo_trailText s
    have hend : Adds (s.playCombo trailText)
        { s.playCombo trailText with game := s.game.endPausedStroke now } := by
      rw [hgame]
      apply Adds.of_game
      · rw [playCombo_game]
        rfl
      · rw [playCombo_game]
    exact (hcombo.trans hend).trans (.playSound _ (by simp))
  · exact .of_game rfl le_rfl

private theorem adds_registerPoint (x y now : R) (draws : ℕ → ℕ → ParticleDraw R) (s : Scene R) :
    Adds s (s.registerPoint x y now draws) := by
  unfold registerPoint
  dsimp only
  have hpaused := adds_endPausedStroke now s
  have htrail : Adds (s.endPausedStroke now)
      { s.endPausedStroke now with game := (s.endPausedStroke now).game.extendTrail x y now } :=
    .of_game rfl le_rfl
  have hcuts := adds_checkCollisions x y
    ((s.endPausedStroke now).game.extendTrail x y now).lastPoint draws
    { s.endPausedStroke now with game := (s.endPausedStroke now).game.extendTrail x y now }
  exact ((hpaused.trans htrail).trans hcuts).trans (.of_game rfl le_rfl)

private theorem adds_sweep (draws : ℕ → ℕ → ParticleDraw R) (prev : Point R)
    (points : List (TrailPoint R)) (s : Scene R) : Adds s (sweep draws prev points s) := by
  induction points generalizing prev s with
  | nil => exact .of_game rfl le_rfl
  | cons p points ih =>
    have htrail : Adds s { s with game := { s.game with trail := s.game.trail ++ [p] } } :=
      .of_game rfl le_rfl
    exact (htrail.trans (adds_checkCollisions ..)).trans (ih _ _)

private theorem adds_triggerSwipeSlice (direction : GameState.Direction) (rx ry : R) (clock : ℕ → R)
    (draws : ℕ → ℕ → ParticleDraw R) (s : Scene R) :
    Adds s (s.triggerSwipeSlice direction rx ry clock draws) := by
  unfold triggerSwipeSlice
  split
  · exact .of_game rfl le_rfl
  · dsimp only
    have hsound := Adds.playSound s (by simp : Sound.whoosh ≠ .squish)
    have hstart : Adds (s.playSound .whoosh) { s.playSound .whoosh with
        game := { s.game with slicedInStrokeCount := 0 } } := .of_game rfl le_rfl
    exact ((hsound.trans hstart).trans (adds_sweep ..)).trans
      (adds_playCombo (showsCombo_swipeText _) _)

/-- Every event but a frame adds what belongs to its cuts and combos. -/
theorem adds_step {lvl : Level R} {draws : ℕ → ℕ → ParticleDraw R} {s t : Scene R}
    {e : GameEvent R} (hframe : ∀ elapsed now, e ≠ .frame elapsed now)
    (h : s.step lvl draws e = some t) : Adds s t := by
  cases e with
  | frame elapsed now => exact absurd rfl (hframe elapsed now)
  | pointerDown rawX rawY now =>
    rw [← Option.some.inj h]
    unfold handlePointerDown
    split
    · exact .of_game rfl le_rfl
    · have hpressed : Adds s { s with game := { s.game with trail := [], lastPoint := none } } :=
        .of_game rfl le_rfl
      exact hpressed.trans (adds_registerPoint ..)
  | pointerMove rawX rawY now =>
    rw [← Option.some.inj h]
    unfold handlePointerMove
    split
    · exact .of_game rfl le_rfl
    · dsimp only
      cases s.game.trail.getLast? with
      | none => exact adds_registerPoint ..
      | some lastPt =>
        dsimp only
        split
        · exact adds_registerPoint ..
        · exact .of_game rfl le_rfl
  | pointerUp =>
    have ⟨_, hboard, _⟩ := playCombo_same s.game
    rw [← Option.some.inj h]
    unfold handlePointerUp
    split
    · exact .of_game rfl le_rfl
    · next hreceives =>
      have hgame : s.game.handlePointerUp =
          { s.game.playCombo with slicedInStrokeCount := 0, lastPoint := none } := by
        rw [GameState.handlePointerUp, if_neg hreceives]
      apply (adds_playCombo showsCombo_trailText s).trans
      rw [hgame]
      apply Adds.of_game
      · rw [playCombo_game]
        rfl
      · rw [playCombo_game]
  | gestureSlice x y now =>
    rw [← Option.some.inj h]
    unfold handleGestureSlice
    split
    · exact .of_game rfl le_rfl
    · exact adds_registerPoint ..
  | swipeSlice direction rx ry clock =>
    rw [← Option.some.inj h]
    exact adds_triggerSwipeSlice ..
  | resize w h' =>
    rw [← Option.some.inj h]
    have hsame : (s.game.resizeCanvas w h').board = s.game.board ∧
        (s.game.resizeCanvas w h').combos = s.game.combos := by
      unfold GameState.resizeCanvas
      split
      · exact ⟨rfl, rfl⟩
      · split <;> exact ⟨rfl, rfl⟩
    exact .of_game hsame.1 (congrArg List.length hsame.2).ge
  | pointerLeave =>
    rw [← Option.some.inj h]
    have hsame : s.game.handlePointerLeave.board = s.game.board ∧
        s.game.handlePointerLeave.combos = s.game.combos := by
      unfold GameState.handlePointerLeave
      split <;> exact ⟨rfl, rfl⟩
    exact .of_game hsame.1 (congrArg List.length hsame.2).ge
  | spawn r draws' =>
    rw [← Option.some.inj h]
    have hsame : (s.game.spawnFruit lvl r draws').board = s.game.board ∧
        (s.game.spawnFruit lvl r draws').combos = s.game.combos := by
      unfold GameState.spawnFruit
      split <;> exact ⟨rfl, rfl⟩
    exact .of_game hsame.1 (congrArg List.length hsame.2).ge
  | cleanup =>
    rw [← Option.some.inj h]
    exact .of_goal rfl le_rfl

end Scene

/-! ### Frames -/

/-- A frame moves the game, and lets particles and texts fade. -/
theorem Scene.render_spec {lvl : Level R} {elapsed now : R} {s t : Scene R}
    (h : s.render lvl elapsed now = some t) :
    t.particles = s.particles.map (Particle.update (GameState.frameStep elapsed)) ∧
      t.floatingTexts = (s.floatingTexts.map
        (FloatingText.fade (GameState.frameStep elapsed))).filter (0 < ·.alpha) ∧
      t.sounds = s.sounds ∧ t.game.goal = s.game.goal ∧ t.game.combos = s.game.combos ∧
      (s.Shown → t.Shown) := by
  have ⟨game, hgame, ht⟩ := Option.map_eq_some_iff.mp h
  have ⟨hgoal, hcombos⟩ : game.goal = s.game.goal ∧ game.combos = s.game.combos := by
    have ⟨moved, _, hmoved⟩ := Option.map_eq_some_iff.mp hgame
    rw [← hmoved]
    exact ⟨rfl, rfl⟩
  have ⟨hscore, hinfinite, htarget⟩ : game.score = s.game.score ∧
      game.isInfinite = s.game.isInfinite ∧ game.levelTarget = s.game.levelTarget := by
    simpa only [GameState.goal, Prod.mk.injEq] using hgoal
  rw [← ht]
  dsimp only
  unfold Scene.syncScore
  dsimp only
  split
  · exact ⟨rfl, rfl, rfl, hgoal, hcombos, fun _ ↦ ⟨le_rfl, fun _ _ ↦ rfl⟩⟩
  · refine ⟨rfl, rfl, rfl, hgoal, hcombos, fun hshown ↦ ⟨?_, ?_⟩⟩
    · exact hshown.le_score.trans hscore.ge
    · dsimp only
      rw [hinfinite, htarget, hscore]
      exact hshown.won

private theorem alphas_fade (dt : R) (texts : List (FloatingText R)) :
    (((texts.map (FloatingText.fade dt)).filter (0 < ·.alpha)).map FloatingText.alpha).Sublist
      ((texts.map FloatingText.alpha).map (· - 0.022 * dt)) := by
  have hmoved : (texts.map (FloatingText.fade dt)).map FloatingText.alpha =
      (texts.map FloatingText.alpha).map (· - 0.022 * dt) := by
    rw [List.map_map, List.map_map]
    rfl
  rw [← hmoved]
  exact List.filter_sublist.map _

/-! ### Runs -/

/-- How many fruits are cut in a turn. -/
def SceneTurn.cuts (t : SceneTurn R) : ℕ := t.after.game.score - t.before.game.score

/-- How many combos are announced in a turn. -/
def SceneTurn.combos (t : SceneTurn R) : ℕ :=
  t.after.game.combos.length - t.before.game.combos.length

/-- The units of time that pass in a turn. -/
def SceneTurn.units (t : SceneTurn R) : R := t.event.event.units

/-- What is known about a scene after some turns of a level. -/
structure SceneLog (turns : List (SceneTurn R)) (s : Scene R) : Prop where
  ledger : ∃ first ids, Ledger first ids s.game
  pool : s.particles.length = 50
  sparks : Recent 0.020 SceneTurn.units (5 * ·.cuts) turns (lives s.particles)
  dim : ∀ life ∈ lives s.particles, 0.05 ≤ life
  texts : Recent 0.022 SceneTurn.units (fun t ↦ t.cuts + t.combos) turns s.alphas
  visible : ∀ alpha ∈ s.alphas, 0 ≤ alpha
  plusOnes : s.plusOnes ≤ 10
  shown : s.Shown

section
variable {lvl : Level R} {turns : List (SceneTurn R)} {s t : Scene R} {e : SceneEvent R}

private theorem SceneLog.adds (h : SceneLog turns s) (hadds : Adds s t) (hunits : e.event.units = 0)
    (hledger : ∃ first ids, Ledger first ids t.game) :
    SceneLog (turns ++ [⟨e, s, t, false⟩]) t := by
  have hnone : ∀ rate : R, rate * SceneTurn.units ⟨e, s, t, false⟩ = 0 := by
    intro rate
    unfold SceneTurn.units
    rw [hunits, mul_zero]
  have ⟨n, hn, hperm⟩ := hadds.sparks
  have ⟨new, htexts, hnew, hlength⟩ := hadds.texts
  have halphas : t.alphas = s.alphas ++ new.map FloatingText.alpha := by
    unfold Scene.alphas
    rw [htexts, List.map_append]
  have hsolid : ∀ alpha ∈ new.map FloatingText.alpha, alpha = 1 := by
    intro alpha halpha
    obtain ⟨text, htext, rfl⟩ := List.mem_map.mp halpha
    exact hnew text htext
  constructor
  · exact hledger
  · exact hadds.undisturbed.length_eq.symm.trans h.pool
  · apply h.sparks.step (hnone _).ge
    rw [hnone]
    have hbirths := (Fades.refl (lives s.particles)).append
      (fun level hlevel ↦ (List.eq_of_mem_replicate hlevel).le) hperm.subperm
    rw [List.length_replicate, zero_add] at hbirths
    exact hbirths.mono hn
  · intro life hlife
    rcases List.mem_append.mp (hperm.mem_iff.mp hlife) with hold | hborn
    · exact h.dim life hold
    · rw [List.eq_of_mem_replicate hborn]
      norm_num
  · apply h.texts.step (hnone _).ge
    rw [hnone, halphas]
    have hbirths := (Fades.refl s.alphas).append (fun level hlevel ↦ (hsolid level hlevel).le)
      (List.Subperm.refl _)
    rw [List.length_map, zero_add] at hbirths
    exact hbirths.mono hlength
  · rw [halphas]
    intro alpha halpha
    rcases List.mem_append.mp halpha with hold | hborn
    · exact h.visible alpha hold
    · rw [hsolid alpha hborn]
      exact zero_le_one
  · exact hadds.plusOnes h.plusOnes
  · exact hadds.shown h.shown

private theorem SceneLog.frame (h : SceneLog turns s) {elapsed now : R} (helapsed : 0 ≤ elapsed)
    (he : e.event = .frame elapsed now) (hrender : s.render lvl elapsed now = some t)
    (hledger : ∃ first ids, Ledger first ids t.game) :
    SceneLog (turns ++ [⟨e, s, t, false⟩]) t := by
  have ⟨hparticles, htexts, _, _, _, hshown⟩ := Scene.render_spec hrender
  have ⟨hlives, hdim⟩ := lives_update (GameState.frameStep elapsed) s.particles
  have halphas := alphas_fade (GameState.frameStep elapsed) s.floatingTexts
  have hunits : SceneTurn.units ⟨e, s, t, false⟩ = GameState.frameStep elapsed := by
    unfold SceneTurn.units
    rw [he]
    rfl
  have hnonneg := (frameStep_bounds helapsed).1
  rw [← hparticles] at hlives hdim
  rw [← htexts, ← hunits] at halphas
  constructor
  · exact hledger
  · rw [hparticles, List.length_map]
    exact h.pool
  · apply h.sparks.step
    · rw [hunits]
      exact mul_nonneg (by norm_num) hnonneg
    · rw [hunits]
      exact (Fades.of_sublist hlives).mono (Nat.zero_le _)
  · exact hdim
  · apply h.texts.step
    · rw [hunits]
      exact mul_nonneg (by norm_num) hnonneg
    · exact (Fades.of_sublist halphas).mono (Nat.zero_le _)
  · intro alpha halpha
    obtain ⟨text, htext, rfl⟩ := List.mem_map.mp halpha
    rw [htexts] at htext
    exact (of_decide_eq_true (List.mem_filter.mp htext).2).le
  · refine le_trans ?_ h.plusOnes
    unfold Scene.plusOnes
    rw [htexts]
    refine (List.Sublist.countP_le List.filter_sublist).trans ?_
    rw [List.countP_map]
    exact le_rfl
  · exact hshown h.shown

/-- A level starts with nothing to be seen. -/
theorem SceneLog.start (lvl : Level R) {s : Scene R} (hpool : s.particles.length = 50) :
    SceneLog [] (s.startLevel lvl) := by
  have hlives : lives (s.startLevel lvl).particles = [] := by
    unfold lives Scene.startLevel
    rw [List.map_eq_nil_iff, List.filter_eq_nil_iff]
    intro p hp
    obtain ⟨q, _, rfl⟩ := List.mem_map.mp hp
    exact Bool.false_ne_true
  have halphas : (s.startLevel lvl).alphas = [] := rfl
  constructor
  · exact ⟨s.game.spawned, _, Ledger.start lvl s.game⟩
  · exact (List.length_map _).trans hpool
  · rw [hlives]
    exact .start _ _ _
  · rw [hlives]
    exact List.forall_mem_nil _
  · rw [halphas]
    exact .start _ _ _
  · rw [halphas]
    exact List.forall_mem_nil _
  · exact Nat.zero_le 10
  · exact ⟨le_rfl, fun _ _ ↦ rfl⟩

/-- No event of a scene with a log raises. -/
theorem SceneLog.exists_step (h : SceneLog turns s) (lvl : Level R) (e : SceneEvent R) :
    ∃ t, s.step lvl e.draws e.event = some t ∧
      (sceneMachine lvl).step s e = ⟨e, s, t, false⟩ ∧ ∃ first ids, Ledger first ids t.game := by
  have ⟨first, ids, hledger⟩ := h.ledger
  have ⟨game, hgame⟩ := Game.exists_step hledger.wellFormed lvl e.event
  have hsame := s.step_game lvl e.draws e.event
  rw [hgame] at hsame
  have ⟨t, hstep, ht⟩ := Option.map_eq_some_iff.mp hsame
  rw [← ht] at hgame
  refine ⟨t, hstep, ?_, first, _, hledger.step hgame⟩
  simp only [sceneMachine]
  rw [hstep]

/-- Every admissible event keeps the log. -/
theorem SceneLog.step (h : SceneLog turns s) (hadmissible : e.event.Admissible) :
    SceneLog (turns ++ [(sceneMachine lvl).step s e]) ((sceneMachine lvl).step s e).after := by
  have ⟨t, hstep, hturn, hledger⟩ := h.exists_step lvl e
  rw [hturn]
  by_cases hframe : ∃ elapsed now, e.event = .frame elapsed now
  · have ⟨elapsed, now, he⟩ := hframe
    rw [he] at hadmissible hstep
    exact h.frame hadmissible he hstep hledger
  · have hother : ∀ elapsed now, e.event ≠ .frame elapsed now :=
      fun elapsed now he ↦ hframe ⟨elapsed, now, he⟩
    have hunits : e.event.units = 0 := by
      cases he : e.event with
      | frame elapsed now => exact absurd he (hother elapsed now)
      | _ => rfl
    exact h.adds (Scene.adds_step hother hstep) hunits hledger

end

/-- What is seen and heard after a turn: no particle that is seen was taken for another cut, every
cut was heard, particles and texts are those of recent cuts and combos, and the score of a level
that is won is shown. -/
structure SceneTurn.Accounted (past : List (SceneTurn R)) (t : SceneTurn R) : Prop where
  plays : t.raised = false
  pool : t.after.particles.length = 50
  undisturbed : (∀ elapsed now, t.event.event ≠ .frame elapsed now) →
    List.Forall₂ Particle.Undisturbed t.before.particles t.after.particles
  squishes : t.after.sounds.count .squish = t.before.sounds.count .squish + t.cuts
  sparks : ∀ old recent, past ++ [t] = old ++ recent → 47.5 < weigh SceneTurn.units recent →
    (lives t.after.particles).length ≤ 5 * (recent.map SceneTurn.cuts).sum
  texts : ∀ old recent, past ++ [t] = old ++ recent → 45.5 < weigh SceneTurn.units recent →
    t.after.floatingTexts.length ≤ (recent.map fun u ↦ u.cuts + u.combos).sum
  plusOnes : t.after.plusOnes ≤ 10
  shown : t.after.Shown

/-- A turn from a scene with a log is accounted for. -/
theorem SceneLog.accounted {lvl : Level R} {turns : List (SceneTurn R)} {s : Scene R}
    (h : SceneLog turns s) {e : SceneEvent R} (hadmissible : e.event.Admissible) :
    ((sceneMachine lvl).step s e).Accounted turns := by
  have hlog : SceneLog (turns ++ [(sceneMachine lvl).step s e])
      ((sceneMachine lvl).step s e).after := h.step hadmissible
  have ⟨t, hstep, hturn, _⟩ := h.exists_step lvl e
  rw [hturn] at hlog ⊢
  constructor
  · rfl
  · exact hlog.pool
  · exact fun hother ↦ (Scene.adds_step hother hstep).undisturbed
  · by_cases hframe : ∃ elapsed now, e.event = .frame elapsed now
    · have ⟨elapsed, now, he⟩ := hframe
      rw [he] at hstep
      have ⟨_, _, hsounds, hgoal, _⟩ := Scene.render_spec hstep
      have hscore : t.game.score = s.game.score := congrArg Prod.fst hgoal
      unfold SceneTurn.cuts
      dsimp only
      rw [hsounds, hscore, Nat.sub_self, Nat.add_zero]
    · exact (Scene.adds_step (fun elapsed now he ↦ hframe ⟨elapsed, now, he⟩) hstep).squishes
  · intro old recent hsplit hlong
    have hfew := hlog.sparks.length_le hlog.dim hsplit (by linarith)
    rw [List.sum_map_mul_left] at hfew
    exact hfew
  · intro old recent hsplit hlong
    have hfew := hlog.texts.length_le hlog.visible hsplit (by linarith)
    unfold Scene.alphas at hfew
    rw [List.length_map] at hfew
    exact hfew
  · exact hlog.plusOnes
  · exact hlog.shown

/-- Throughout a level, what is seen and heard is that of the cuts and combos. -/
theorem scene_accounted (lvl : Level R) {s : Scene R} (hpool : s.particles.length = 50)
    {events : List (SceneEvent R)} (hevents : ∀ e ∈ events, e.event.Admissible) :
    ∀ past t rest, (sceneMachine lvl).trace (s.startLevel lvl) events = past ++ t :: rest →
      t.Accounted past := by
  apply (sceneMachine lvl).split_forall (I := SceneLog) (P := fun past t ↦ t.Accounted past)
  · intro past u e he h
    exact h.accounted (hevents e he)
  · intro past u e he v h hnext
    rw [← Option.some.inj hnext]
    exact h.step (hevents e he)
  · exact .start lvl hpool

/-- A fruit is cut, and fifty units pass. -/
def cutThenFrames : List (SceneEvent ℚ) :=
  ((.spawn 0.5 fun i ↦ ⟨if i = 0 then 0.25 else 0.5, 0.5, 0.5, 0.5, 0.5, 0.5⟩) ::
    .pointerDown 270 500 0 :: List.replicate 20 (.frame 1000 0)).map
      fun e ↦ ⟨e, fun _ _ ↦ ⟨1, 0, 0.5, 0.5⟩⟩

/-- The run with one cut. -/
def cutThenFramesRun : List (SceneTurn ℚ) :=
  (sceneMachine firstLevel).trace (Scene.init.startLevel firstLevel) cutThenFrames

/-- Five particles and a text appear, and nothing is left of them in the end. -/
theorem scene_accounted_cutThenFrames :
    cutThenFramesRun[1]?.map (fun t ↦
        ((lives t.after.particles).length, t.after.floatingTexts.length)) = some (5, 1) ∧
      ∃ t, cutThenFramesRun[21]? = some t ∧
        ((lives t.after.particles).length, t.after.floatingTexts.length) = (0, 0) ∧
        t.Accounted (cutThenFramesRun.take 21) := by
  have hlast : cutThenFramesRun[21]?.map (fun t ↦
      ((lives t.after.particles).length, t.after.floatingTexts.length)) = some (0, 0) := by
    decide +kernel
  have hadmissible : ∀ e ∈ cutThenFrames, e.event.Admissible := by
    intro e he
    obtain ⟨event, hevent, rfl⟩ := List.mem_map.mp he
    rcases List.mem_cons.mp hevent with rfl | hlater
    · intro i
      dsimp only
      constructor <;> split <;> norm_num
    · rcases List.mem_cons.mp hlater with rfl | hframe
      · trivial
      · rw [List.eq_of_mem_replicate hframe]
        exact (by norm_num : (0 : ℚ) ≤ 1000)
  have ⟨t, hget, hgone⟩ := Option.map_eq_some_iff.mp hlast
  exact ⟨by decide +kernel, t, hget, hgone,
    scene_accounted firstLevel rfl hadmissible _ t _ (eq_take_cons_drop hget)⟩

end VisionGame.Game
