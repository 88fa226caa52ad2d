import VisionGame.Base.Weights
import VisionGame.Base.Window
import VisionGame.Game.Flight

/-!
# Airtime of a fruit

Library `Game`. `components/FruitNinjaGame.tsx:91–177,527–604,640–684,735–797`. The halves of a
fruit that is cut fly as the whole fruit would have done, plus a hop with an acceleration of its
own. The hop is lower than the depth by which the whole fruit would have left the field, so that
every fruit, whole or cut, is gone once it has flown for 240 units. As many fruits are there as
were launched in the last 240 units at most, which bounds them when the launches keep a distance.
-/

namespace VisionGame.Game
open VisionGame.Base

variable {R : Type} [Scalar R]

/-! ### Hops -/

/-- The hop of a half since the cut: a push upwards, and an acceleration downwards. -/
def hop (since : List R) : R × R := euler 0.04 (0, -0.8) since

private theorem hop_ge {since : List R} (hsince : ∀ dt ∈ since, 0 ≤ dt ∧ dt ≤ 2.5) :
    -20 ≤ (hop since).1 := by
  have hstairs := (sub_le_coarse frameCap_pos since.sum).trans
    (coarse_le_staircase frameCap_pos hsince)
  have hsquare := sq_nonneg (since.sum - 21.25)
  unfold hop
  rw [euler_position]
  dsimp only
  linarith

/-- Halves of a fruit that was cut after some steps, some other steps ago. -/
def Fruit.Parted (lvl : Level R) (draw : GameState.FruitDraw R) (whole since : List R)
    (fruit : Fruit R) : Prop :=
  ∀ half, fruit.half1 = some half ∨ fruit.half2 = some half →
    (half.y, half.vy) = euler lvl.gravity (525, lvl.climb draw) (whole ++ since) + hop since

section
variable {lvl : Level R} {draw : GameState.FruitDraw R} {whole since : List R} {fruit : Fruit R}

private theorem parted_slice (h : fruit.Flies lvl draw whole) :
    fruit.slice.Parted lvl draw whole [] := by
  have hstart : (fruit.y, fruit.vy - 0.8) =
      euler lvl.gravity (525, lvl.climb draw) (whole ++ []) + hop ([] : List R) := by
    rw [List.append_nil, ← h.height]
    ext
    · exact (add_zero fruit.y).symm
    · exact sub_eq_add_neg fruit.vy 0.8
  rintro half (hhalf | hhalf)
  · rw [← hstart, ← Option.some.inj hhalf]
  · rw [← hstart, ← Option.some.inj hhalf]

private theorem move_half {half : FruitHalf R} (dt : R) (h : (half.y, half.vy) =
      euler lvl.gravity (525, lvl.climb draw) (whole ++ since) + hop since) :
    ((half.move lvl.gravity dt).y, (half.move lvl.gravity dt).vy) =
      euler lvl.gravity (525, lvl.climb draw) (whole ++ (since ++ [dt])) + hop (since ++ [dt]) := by
  have hmove : ((half.move lvl.gravity dt).y, (half.move lvl.gravity dt).vy) =
      eulerStep (lvl.gravity + 0.04) (half.y, half.vy) dt := rfl
  rw [hmove, h, ← List.append_assoc]
  unfold hop
  rw [euler_concat, euler_concat]
  exact euler_add lvl.gravity 0.04 _ _ [dt]

private theorem exists_flies (lvl : Level R) (draw : GameState.FruitDraw R) (dts : List R) :
    ∃ fruit : Fruit R, fruit.Flies lvl draw dts := by
  induction dts using List.reverseRecOn with
  | nil => exact ⟨_, flies_launchFruit lvl draw 0⟩
  | append_singleton dts dt ih =>
    have ⟨fruit, hflies⟩ := ih
    exact ⟨_, flies_move hflies dt⟩

private theorem sum_le_of_half (hlvl : lvl.Floaty) (hdraw : draw.InRange)
    (hsteps : ∀ dt ∈ whole ++ since, 0 ≤ dt ∧ dt ≤ 2.5) {half : FruitHalf R}
    (h : (half.y, half.vy) =
      euler lvl.gravity (525, lvl.climb draw) (whole ++ since) + hop since)
    (habove : half.y < 540) : (whole ++ since).sum ≤ 240 := by
  have ⟨uncut, hflies⟩ := exists_flies lvl draw (whole ++ since)
  have hy : half.y = uncut.y + (hop since).1 := by
    have hfst := congrArg Prod.fst h
    rw [← hflies.height] at hfst
    exact hfst
  have hhop := hop_ge fun dt hdt ↦ hsteps dt (List.mem_append_right whole hdt)
  apply hflies.sum_le hlvl hdraw hsteps
  left
  linarith

end

/-! ### Fruits that were cut in a run -/

/-- A cut fruit was launched in the run, and its halves have been in the air for a while. -/
structure Falling (lvl : Level R) (turns : List (GameTurn R)) (fruit : Fruit R) : Prop where
  parted : ∃ draw whole since, draw.InRange ∧ flightSteps turns fruit.id = whole ++ since ∧
    fruit.Parted lvl draw whole since
  brief : (flightSteps turns fruit.id).sum ≤ 240

section
variable {lvl : Level R} {turns : List (GameTurn R)} {s t : GameState R}

/-- A turn that is no frame leaves the halves where they are. -/
theorem Falling.rests {fruit : Fruit R} (h : Falling lvl turns fruit) {turn : GameTurn R}
    (hstep : turn.flightStep fruit.id = none) : Falling lvl (turns ++ [turn]) fruit := by
  constructor
  · rw [flightSteps_concat_none turns hstep]
    exact h.parted
  · rw [flightSteps_concat_none turns hstep]
    exact h.brief

private theorem Airborne.slice (hlvl : lvl.Floaty) {fruit : Fruit R} (h : Airborne lvl turns fruit)
    (hsteps : ∀ dt ∈ flightSteps turns fruit.id, 0 ≤ dt ∧ dt ≤ 2.5) {turn : GameTurn R}
    (hstep : turn.flightStep fruit.id = none) : Falling lvl (turns ++ [turn]) fruit.slice := by
  have ⟨draw, hrange, _, hflies⟩ := h.flies
  have hsame : flightSteps (turns ++ [turn]) fruit.slice.id = flightSteps turns fruit.id :=
    flightSteps_concat_none turns hstep
  constructor
  · refine ⟨draw, flightSteps turns fruit.id, [], hrange, ?_, parted_slice hflies⟩
    rw [hsame, List.append_nil]
  · rw [hsame]
    exact hflies.sum_le hlvl hrange hsteps h.inFlight

private theorem advance_cut {old : Fruit R} (hwell : old.WellFormed) (hsliced : old.isSliced = true)
    (gravity dt : R) {m : Fruit R × Bool} (h : old.advance gravity dt = some m) :
    ∃ h1 h2, old.half1 = some h1 ∧ old.half2 = some h2 ∧
      m.1.half1 = some (h1.move gravity dt) ∧ m.1.half2 = some (h2.move gravity dt) ∧
      (m.2 = true → (h1.move gravity dt).y < 540) := by
  have ⟨h1, h2, e1, e2⟩ := hwell.exists_halves hsliced
  unfold Fruit.advance at h
  rw [hsliced, e1, e2] at h
  refine ⟨h1, h2, e1, e2, ?_⟩
  rw [← Option.some.inj h]
  refine ⟨rfl, rfl, fun hstays ↦ ?_⟩
  exact of_decide_eq_true (Bool.and_eq_true_iff.mp hstays).1

private theorem Falling.frame (hlvl : lvl.Floaty) {old : Fruit R} (h : Falling lvl turns old)
    (hwell : old.WellFormed) (hsliced : old.isSliced = true) {turn : GameTurn R} {dt : R}
    (hstep : turn.flightStep old.id = some dt)
    (hsteps : ∀ d ∈ flightSteps (turns ++ [turn]) old.id, 0 ≤ d ∧ d ≤ 2.5) {fruit : Fruit R}
    (hadvance : old.advance lvl.gravity dt = some (fruit, true)) :
    Falling lvl (turns ++ [turn]) fruit := by
  have ⟨draw, whole, since, hrange, hflight, hparted⟩ := h.parted
  have ⟨h1, h2, e1, e2, hmove1, hmove2, habove⟩ := advance_cut hwell hsliced _ _ hadvance
  have hid : fruit.id = old.id := (advance_same hadvance).1
  have hlonger : flightSteps (turns ++ [turn]) fruit.id = whole ++ (since ++ [dt]) := by
    rw [hid, flightSteps_concat_some turns hstep, hflight, List.append_assoc]
  have hhalf1 := move_half dt (hparted h1 (.inl e1))
  constructor
  · refine ⟨draw, whole, since ++ [dt], hrange, hlonger, ?_⟩
    rintro half (hhalf | hhalf)
    · rw [← Option.some.inj (hmove1.symm.trans hhalf)]
      exact hhalf1
    · rw [← Option.some.inj (hmove2.symm.trans hhalf)]
      exact move_half dt (hparted h2 (.inr e2))
  · rw [← hid, hlonger] at hsteps
    rw [hlonger]
    exact sum_le_of_half hlvl hrange hsteps hhalf1 (habove rfl)

private theorem Logged.falling_strikes (hlvl : lvl.Floaty) {first : ℕ}
    (h : Logged lvl first turns s)
    (hfalling : ∀ fruit ∈ s.fruits, fruit.isSliced = true → Falling lvl turns fruit)
    {hits : Fruit R → Bool} (hstroke : Strikes hits s t) {turn : GameTurn R}
    (hstep : ∀ id, turn.flightStep id = none) {fruit : Fruit R} (hfruit : fruit ∈ t.fruits)
    (hsliced : fruit.isSliced = true) : Falling lvl (turns ++ [turn]) fruit := by
  obtain ⟨old, hold, rfl⟩ := hstroke.exists_old hfruit
  unfold Fruit.sliceIf at hsliced ⊢
  split at hsliced
  · next hcut =>
    have hwhole : old.isSliced = false := (Bool.not_eq_true' _).mp (Bool.and_eq_true_iff.mp hcut).1
    rw [if_pos hcut]
    exact (h.log.airborne old hold hwhole).slice hlvl (h.log.steps old.id) (hstep old.id)
  · next hmissed =>
    rw [if_neg hmissed]
    exact (hfalling old hold hsliced).rests (hstep old.id)

/-- Every admissible event keeps the cut fruits falling. -/
theorem Logged.falling_step (hlvl : lvl.Floaty) {first : ℕ} (h : Logged lvl first turns s)
    (hfalling : ∀ fruit ∈ s.fruits, fruit.isSliced = true → Falling lvl turns fruit)
    {e : GameEvent R} (hadmissible : e.Admissible) (hstep : s.step lvl e = some t) :
    ∀ fruit ∈ t.fruits, fruit.isSliced = true →
      Falling lvl (turns ++ [⟨e, s, t, false⟩]) fruit := by
  intro fruit hfruit hsliced
  by_cases hframe : ∃ elapsed now, e = .frame elapsed now
  · obtain ⟨elapsed, now, rfl⟩ := hframe
    have ⟨old, hold, hadvance⟩ := exists_advance_of_mem hstep hfruit
    have ⟨_, hsame⟩ := advance_same hadvance
    have hmoved : GameTurn.flightStep ⟨.frame elapsed now, s, t, false⟩ old.id =
        some (GameState.frameStep elapsed) := if_pos (h.log.numbered old hold)
    rw [hsliced] at hsame
    exact (hfalling old hold hsame.symm).frame hlvl (h.ledger.wellFormed old hold) hsame.symm
      hmoved ((h.log.frame hadmissible hstep).steps old.id) hadvance
  · have hnone : ∀ id, GameTurn.flightStep ⟨e, s, t, false⟩ id = none := by
      intro id
      cases e with
      | frame elapsed now => exact absurd ⟨elapsed, now, rfl⟩ hframe
      | _ => rfl
    rcases step_cases hstep with hstroke | ⟨r, draws, rfl, rfl⟩ | ⟨elapsed, now, rfl, _⟩ |
      ⟨rfl, rfl⟩
    · exact h.falling_strikes hlvl hfalling hstroke hnone hfruit hsliced
    · unfold GameState.spawnFruit at hfruit
      split at hfruit
      · exact (hfalling fruit hfruit hsliced).rests (hnone fruit.id)
      · rcases List.mem_append.mp hfruit with hold | hlaunched
        · exact (hfalling fruit hold hsliced).rests (hnone fruit.id)
        · obtain ⟨i, _, rfl⟩ := List.mem_map.mp hlaunched
          cases hsliced
    · exact absurd ⟨elapsed, now, rfl⟩ hframe
    · exact (hfalling fruit hfruit hsliced).rests (hnone fruit.id)

end

/-! ### How many fruits are there -/

/-- The units of time that pass in an event. -/
def GameEvent.units : GameEvent R → R
  | .frame elapsed _ => GameState.frameStep elapsed
  | _ => 0

/-- The spawner is called. -/
def GameEvent.isSpawn : GameEvent R → Bool
  | .spawn _ _ => true
  | _ => false

/-- The event is admissible, and the random number of the spawner from `[0, 1)`. -/
def GameEvent.Fair (e : GameEvent R) : Prop :=
  e.Admissible ∧ match e with
    | .spawn r _ => 0 ≤ r ∧ r < 1
    | _ => True

private theorem units_le (e : GameEvent R) : e.units ≤ 2.5 := by
  cases e with
  | frame elapsed now => exact min_le_left _ _
  | _ => exact frameCap_pos.le

/-- The counts of every level are in order. -/
theorem spawnCounts_of_mem_levels {lvl : Level R} (h : lvl ∈ levels) :
    0 ≤ lvl.spawnCountMin ∧ lvl.spawnCountMin ≤ lvl.spawnCountMax := by
  simp only [levels, List.mem_cons, List.not_mem_nil, or_false] at h
  rcases h with rfl | rfl | rfl | rfl | rfl | rfl <;> norm_num

private theorem spawnCount_le {lvl : Level R} (hlvl : lvl ∈ levels) {r : R} (h : 0 ≤ r ∧ r < 1) :
    (GameState.spawnCount lvl r : ℤ) ≤ lvl.spawnCountMax := by
  have hcounts := spawnCounts_of_mem_levels hlvl
  have hgap : (0 : R) < lvl.spawnCountMax - lvl.spawnCountMin + 1 := by
    have hcast : (lvl.spawnCountMin : R) ≤ lvl.spawnCountMax := Int.cast_le.mpr hcounts.2
    linarith
  have hdraw := mul_lt_mul_of_pos_right h.2 hgap
  unfold GameState.spawnCount
  rw [Int.ofNat_toNat]
  apply max_le
  · rw [← Int.lt_add_one_iff, Int.floor_lt]
    push_cast
    linarith
  · exact hcounts.1.trans hcounts.2

/-- The fruits launched since any moment of a run were moved by all its frames before, and are no
more than the spawns since then may launch. -/
structure Launches (lvl : Level R) (first : ℕ) (turns : List (GameTurn R)) (s : GameState R) :
    Prop where
  total : (s.spawned : ℤ) ≤ first + lvl.spawnCountMax * turns.countP (·.event.isSpawn)
  recent : ∀ old recent, turns = old ++ recent → ∃ n : ℕ, n ≤ s.spawned ∧
    (s.spawned : ℤ) ≤ n + lvl.spawnCountMax * recent.countP (·.event.isSpawn) ∧
    ∀ id < n, weigh (·.event.units) recent ≤ (flightSteps turns id).sum

/-- Everything that is known about the fruits of a run. -/
structure Tracked (lvl : Level R) (first : ℕ) (turns : List (GameTurn R)) (s : GameState R) :
    Prop where
  logged : Logged lvl first turns s
  falling : ∀ fruit ∈ s.fruits, fruit.isSliced = true → Falling lvl turns fruit
  launches : Launches lvl first turns s

section
variable {lvl : Level R} {first : ℕ} {turns : List (GameTurn R)} {s t : GameState R}

private theorem sum_flightSteps_concat (e : GameEvent R) {id : ℕ} (hid : id < s.spawned) :
    (flightSteps (turns ++ [⟨e, s, t, false⟩]) id).sum =
      (flightSteps turns id).sum + e.units := by
  cases e with
  | frame elapsed now =>
    have hstep : GameTurn.flightStep ⟨.frame elapsed now, s, t, false⟩ id =
        some (GameState.frameStep elapsed) := if_pos hid
    rw [flightSteps_concat_some turns hstep, List.sum_append, List.sum_singleton]
    rfl
  | _ =>
    rw [flightSteps_concat_none turns rfl]
    exact (add_zero _).symm

private theorem spawned_step_le (hlvl : lvl ∈ levels) {e : GameEvent R} (hfair : e.Fair)
    (hstep : s.step lvl e = some t) : s.spawned ≤ t.spawned ∧
      (t.spawned : ℤ) ≤ s.spawned + lvl.spawnCountMax * [e].countP GameEvent.isSpawn := by
  by_cases hspawn : ∃ r draws, e = .spawn r draws
  · obtain ⟨r, draws, rfl⟩ := hspawn
    have hcount := spawnCount_le hlvl hfair.2
    have hone : [GameEvent.spawn r draws].countP GameEvent.isSpawn = 1 := rfl
    rw [hone, ← Option.some.inj hstep]
    unfold GameState.spawnFruit
    split
    · omega
    · push_cast
      omega
  · have hnone : [e].countP GameEvent.isSpawn = 0 := by
      cases e with
      | spawn r draws => exact absurd ⟨r, draws, rfl⟩ hspawn
      | _ => rfl
    have hsame : t.spawned = s.spawned := by
      rcases step_cases hstep with hstroke | ⟨r, draws, rfl, _⟩ | ⟨elapsed, now, _, hrender⟩ |
        ⟨_, rfl⟩
      · exact hstroke.spawned
      · exact absurd ⟨r, draws, rfl⟩ hspawn
      · have ⟨_, _, _, _, hspawned, _⟩ := render_spec hrender
        exact hspawned
      · rfl
    rw [hnone, hsame]
    omega

/-- Every fair event keeps count of the launches. -/
theorem Launches.step (h : Launches lvl first turns s) (hlvl : lvl ∈ levels) {e : GameEvent R}
    (hfair : e.Fair) (hstep : s.step lvl e = some t)
    (hlog : FlightLog lvl (turns ++ [⟨e, s, t, false⟩]) t) :
    Launches lvl first (turns ++ [⟨e, s, t, false⟩]) t := by
  have ⟨hmore, hfew⟩ := spawned_step_le hlvl hfair hstep
  have hcount : ∀ recent : List (GameTurn R),
      (recent ++ [(⟨e, s, t, false⟩ : GameTurn R)]).countP (·.event.isSpawn) =
        recent.countP (·.event.isSpawn) + [e].countP GameEvent.isSpawn := by
    intro recent
    rw [List.countP_append]
    rfl
  constructor
  · have htotal := h.total
    rw [hcount]
    push_cast
    linarith
  · intro old recent hsplit
    rcases List.eq_nil_or_concat' recent with rfl | ⟨recent, turn, rfl⟩
    · refine ⟨t.spawned, le_rfl, by simp, fun id _ ↦ ?_⟩
      rw [weigh_nil]
      exact List.sum_nonneg fun dt hdt ↦ (hlog.steps id dt hdt).1
    · rw [← List.append_assoc] at hsplit
      obtain ⟨hturns, hturn⟩ := List.append_inj' hsplit rfl
      obtain rfl := List.singleton_inj.mp hturn
      have ⟨n, hn, hlaunched, hmoved⟩ := h.recent old recent hturns
      refine ⟨n, hn.trans hmore, ?_, fun id hid ↦ ?_⟩
      · rw [hcount]
        push_cast
        linarith
      · rw [sum_flightSteps_concat e (hid.trans_le hn), weigh_append, weigh_cons, weigh_nil,
          add_zero]
        exact add_le_add_left (hmoved id hid) e.units

/-- Every turn with a fair event keeps track of the fruits. -/
theorem Tracked.step (h : Tracked lvl first turns s) (hlvl : lvl ∈ levels) {e : GameEvent R}
    (hfair : e.Fair) : Tracked lvl first (turns ++ [(gameMachine lvl).step s e])
      ((gameMachine lvl).step s e).after := by
  have hlogged := h.logged.step hfair.1
  have ⟨t, hstep⟩ := exists_step h.logged.ledger.wellFormed lvl e
  rw [gameMachine_step_of_step hstep] at hlogged ⊢
  exact ⟨hlogged, h.logged.falling_step (floaty_of_mem_levels hlvl) h.falling hfair.1 hstep,
    h.launches.step hlvl hfair hstep hlogged.log⟩

/-- A level starts without fruits to keep track of. -/
theorem Tracked.start (lvl : Level R) (s : GameState R) :
    Tracked lvl s.spawned [] (s.startLevel lvl) := by
  constructor
  · exact .start lvl s
  · intro fruit hfruit
    cases hfruit
  · constructor
    · simp [GameState.startLevel]
    · intro old recent hsplit
      obtain ⟨-, rfl⟩ := List.append_eq_nil_iff.mp hsplit.symm
      exact ⟨s.spawned, le_rfl, by simp [GameState.startLevel], by simp [flightSteps]⟩

/-- No fruit has been in the air for more than 240 units. -/
theorem Tracked.brief (h : Tracked lvl first turns s) (hlvl : lvl ∈ levels) {fruit : Fruit R}
    (hfruit : fruit ∈ s.fruits) : (flightSteps turns fruit.id).sum ≤ 240 := by
  cases hsliced : fruit.isSliced with
  | false =>
    have hair := h.logged.log.airborne fruit hfruit hsliced
    have ⟨draw, hrange, _, hflies⟩ := hair.flies
    exact hflies.sum_le (floaty_of_mem_levels hlvl) hrange (h.logged.log.steps fruit.id)
      hair.inFlight
  | true => exact (h.falling fruit hfruit hsliced).brief

/-- Fruits with numbers from some number on are at most as many as were launched since then. -/
theorem Tracked.length_le (h : Tracked lvl first turns s) {n : ℕ}
    (hrecent : ∀ fruit ∈ s.fruits, n ≤ fruit.id) : s.fruits.length ≤ s.spawned - n := by
  have hcard : (s.fruits.map Fruit.id).toFinset.card = s.fruits.length := by
    rw [List.toFinset_card_of_nodup h.logged.ledger.nodup, List.length_map]
  have hsub : (s.fruits.map Fruit.id).toFinset ⊆ Finset.Ico n s.spawned := by
    intro id hid
    obtain ⟨fruit, hfruit, rfl⟩ := List.mem_map.mp (List.mem_toFinset.mp hid)
    exact Finset.mem_Ico.mpr ⟨hrecent fruit hfruit, h.logged.log.numbered fruit hfruit⟩
  have hle := Finset.card_le_card hsub
  rw [hcard, Nat.card_Ico] at hle
  exact hle

/-- As many fruits are there as the spawns of the last 240 units may have launched. -/
theorem Tracked.length_le_recent (h : Tracked lvl first turns s) (hlvl : lvl ∈ levels)
    {old recent : List (GameTurn R)} (hsplit : turns = old ++ recent)
    (hlong : 240 < weigh (·.event.units) recent) :
    (s.fruits.length : ℤ) ≤ lvl.spawnCountMax * recent.countP (·.event.isSpawn) := by
  have ⟨n, hn, hlaunched, hmoved⟩ := h.launches.recent old recent hsplit
  have hlength := h.length_le (n := n) fun fruit hfruit ↦ by
    by_contra hold
    have hbrief := h.brief hlvl hfruit
    have hfar := hmoved fruit.id (not_le.mp hold)
    linarith
  omega

end

/-- After a turn every fruit, whole or cut, was launched in the last 240 units, so that there are
as many as the spawns in any stretch of more than 240 units up to now may launch. -/
structure GameTurn.Uncrowded (lvl : Level R) (past : List (GameTurn R)) (t : GameTurn R) :
    Prop where
  brief : ∀ fruit ∈ t.after.fruits, (flightSteps (past ++ [t]) fruit.id).sum ≤ 240
  recent : ∀ old recent, past ++ [t] = old ++ recent → 240 < weigh (·.event.units) recent →
    (t.after.fruits.length : ℤ) ≤ lvl.spawnCountMax * recent.countP (·.event.isSpawn)

/-- Throughout a run with fair events the fruits are kept track of. -/
theorem tracked_trace {lvl : Level R} (hlvl : lvl ∈ levels) (s : GameState R)
    {events : List (GameEvent R)} (hevents : ∀ e ∈ events, e.Fair) :
    ∀ past t rest, (gameMachine lvl).trace (s.startLevel lvl) events = past ++ t :: rest →
      Tracked lvl s.spawned (past ++ [t]) t.after := by
  apply (gameMachine lvl).split_forall (I := fun past u ↦ Tracked lvl s.spawned past u)
    (P := fun past t ↦ Tracked lvl s.spawned (past ++ [t]) t.after)
  · intro past u e he h
    exact h.step hlvl (hevents e he)
  · intro past u e he v h hnext
    rw [← Option.some.inj hnext]
    exact h.step hlvl (hevents e he)
  · exact .start lvl s

/-- Whatever is cut when, and whatever the frame times, no fruit stays for more than 240 units. -/
theorem fruits_uncrowded {lvl : Level R} (hlvl : lvl ∈ levels) (s : GameState R)
    {events : List (GameEvent R)} (hevents : ∀ e ∈ events, e.Fair) :
    ∀ past t rest, (gameMachine lvl).trace (s.startLevel lvl) events = past ++ t :: rest →
      t.Uncrowded lvl past := by
  intro past t rest htrace
  have htracked := tracked_trace hlvl s hevents past t rest htrace
  constructor
  · exact fun fruit hfruit ↦ htracked.brief hlvl hfruit
  · exact fun old recent hsplit hlong ↦ htracked.length_le_recent hlvl hsplit hlong

/-- A pair is launched, one of the two is cut, and another pair is launched 242.5 units later. -/
def twoPairs : List (GameEvent ℚ) :=
  .spawn 0.5 (fun i ↦ ⟨if i = 0 then 0.25 else 0.5, 0.5, 0.5, 0.5, 0.5, 0.5⟩) ::
    (.pointerDown 270 500 0 :: List.replicate 97 (.frame 1000 0) ++
      [.spawn 0.5 fun _ ↦ ⟨0.5, 0.5, 0.5, 0.5, 0.5, 0.5⟩])

private theorem fair_twoPairs : ∀ e ∈ twoPairs, e.Fair := by
  have hdraw : (⟨0.5, 0.5, 0.5, 0.5, 0.5, 0.5⟩ : GameState.FruitDraw ℚ).InRange := by
    constructor <;> norm_num
  have hfirst : (⟨0.25, 0.5, 0.5, 0.5, 0.5, 0.5⟩ : GameState.FruitDraw ℚ).InRange := by
    constructor <;> norm_num
  unfold twoPairs
  rw [List.forall_mem_cons, List.cons_append, List.forall_mem_cons, List.forall_mem_append,
    List.forall_mem_singleton]
  refine ⟨⟨fun i ↦ ?_, by norm_num⟩, ⟨trivial, trivial⟩, fun e he ↦ ?_, fun _ ↦ hdraw, by norm_num⟩
  · dsimp only
    split
    · exact hfirst
    · exact hdraw
  · rw [List.eq_of_mem_replicate he]
    exact ⟨by norm_num [GameEvent.Admissible], trivial⟩

/-- The run of the two pairs. -/
def twoPairsRun : List (GameTurn ℚ) :=
  (gameMachine firstLevel).trace (GameState.init.startLevel firstLevel) twoPairs

/-- The whole fruit and the halves are gone when the next pair is launched. -/
theorem fruits_uncrowded_twoPairs :
    (twoPairsRun.take 2).map (fun t ↦ t.after.fruits.map Fruit.isSliced) =
        [[false, false], [true, false]] ∧
      ∃ t, twoPairsRun[99]? = some t ∧ (t.before.fruits.length, t.after.fruits.length) = (0, 2) ∧
        t.Uncrowded firstLevel (twoPairsRun.take 99) := by
  have hlast : twoPairsRun[99]?.map (fun t ↦ (t.before.fruits.length, t.after.fruits.length)) =
      some (0, 2) := by decide +kernel
  have ⟨t, hget, hcounts⟩ := Option.map_eq_some_iff.mp hlast
  exact ⟨by decide +kernel, t, hget, hcounts,
    fruits_uncrowded List.mem_cons_self GameState.init fair_twoPairs _ t _
      (eq_take_cons_drop hget)⟩

private theorem spawns_le {lvl : Level R} {s : GameState R} {gap : R} (hgap : 0 < gap)
    {events : List (GameEvent R)} (hevents : ∀ e ∈ events, e.Fair)
    (hspaced : Spaced GameEvent.isSpawn GameEvent.units gap events)
    {old recent rest : List (GameTurn R)}
    (htrace : (gameMachine lvl).trace (s.startLevel lvl) events = old ++ (recent ++ rest))
    (hshort : weigh (·.event.units) recent ≤ 242.5) :
    (recent.countP (·.event.isSpawn) : ℤ) ≤ ⌊242.5 / gap⌋ + 1 := by
  have ⟨more, hmore⟩ := (gameMachine lvl).map_trace_isPrefix GameTurn.event
    (fun u e ↦ by rcases gameMachine_step_cases lvl u e with ⟨v, _, h⟩ | ⟨_, h⟩ <;> rw [h])
    (s.startLevel lvl) events
  rw [htrace, List.map_append, List.map_append, List.append_assoc, List.append_assoc] at hmore
  rw [← hmore] at hspaced hevents
  have hnonneg : ∀ e ∈ recent.map GameTurn.event, 0 ≤ e.units := by
    intro e he
    have hadmissible := (hevents e (by simp [he])).1
    cases e with
    | frame elapsed now => exact (frameStep_bounds hadmissible).1
    | _ => exact le_rfl
  have hweigh : weigh GameEvent.units (recent.map GameTurn.event) =
      weigh (·.event.units) recent := by
    unfold weigh
    rw [List.map_map]
    rfl
  have hcount := hspaced.stretch.count_le hgap hnonneg
  rw [hweigh, List.countP_map] at hcount
  have hfloor := Int.floor_le_floor (div_le_div_of_nonneg_right hshort hgap.le)
  exact hcount.trans (by omega)

/-- While the frames between two spawns take at least `gap` units, the number of fruits is
bounded. -/
theorem fruits_le {lvl : Level R} (hlvl : lvl ∈ levels) (s : GameState R) {gap : R}
    (hgap : 0 < gap) {events : List (GameEvent R)} (hevents : ∀ e ∈ events, e.Fair)
    (hspaced : Spaced GameEvent.isSpawn GameEvent.units gap events) :
    ∀ past t rest, (gameMachine lvl).trace (s.startLevel lvl) events = past ++ t :: rest →
      (t.after.fruits.length : ℤ) ≤ lvl.spawnCountMax * (⌊242.5 / gap⌋ + 1) := by
  intro past t rest htrace
  have htracked := tracked_trace hlvl s hevents past t rest htrace
  have hcounts := spawnCounts_of_mem_levels hlvl
  have hmax := hcounts.1.trans hcounts.2
  have hsplit : past ++ t :: rest = past ++ [t] ++ rest := List.append_cons past t rest
  rw [hsplit] at htrace
  by_cases hlong : 240 < weigh (·.event.units) (past ++ [t])
  · have ⟨old, recent, hwindow, hlow, hhigh⟩ :=
      exists_window (fun u _ ↦ units_le u.event) hlong (by norm_num)
    rw [hwindow, List.append_assoc] at htrace
    have hspawns := spawns_le hgap hevents hspaced htrace (hhigh.trans (by norm_num))
    have hlength := htracked.length_le_recent hlvl hwindow hlow
    exact hlength.trans (mul_le_mul_of_nonneg_left hspawns hmax)
  · -- all fruits of the level count
    have hshort := (not_lt.mp hlong).trans (by norm_num : (240 : R) ≤ 242.5)
    have hspawns := spawns_le hgap hevents hspaced (htrace.trans (List.nil_append _).symm) hshort
    have hlength := htracked.length_le fun fruit hfruit ↦
      (htracked.logged.ledger.launched fruit hfruit).1
    have htotal := htracked.launches.total
    have hfirst := htracked.logged.ledger.first_le
    have hscaled := mul_le_mul_of_nonneg_left hspawns hmax
    omega

/-- The pairs keep the distance of 200 units, so that there are never more than four fruits. -/
theorem fruits_le_twoPairs :
    ∃ t, twoPairsRun[99]? = some t ∧ (t.after.fruits.length : ℤ) ≤ 4 := by
  have hlast : twoPairsRun[99]?.isSome := by decide +kernel
  have hspaced : Spaced GameEvent.isSpawn GameEvent.units 200 twoPairs := by
    apply spaced_pair
    · intro e he
      rcases List.mem_cons.mp he with rfl | hframe
      · rfl
      · rw [List.eq_of_mem_replicate hframe]
        rfl
    · decide +kernel
  have ⟨t, hget⟩ := Option.isSome_iff_exists.mp hlast
  have hfirst : firstLevel ∈ levels := List.mem_cons_self
  have hfew := fruits_le hfirst GameState.init (by norm_num) fair_twoPairs hspaced _ t _
    (eq_take_cons_drop hget)
  exact ⟨t, hget, hfew.trans (by decide +kernel)⟩

end VisionGame.Game
