import Mathlib.Tactic.NormNum
import VisionGame.Base.Euler
import VisionGame.Game.FruitState

/-!
# Flight of a fruit

Library `Game`. `components/FruitNinjaGame.tsx:91–177,640–684,735–753`. A frame moves a fruit by
an explicit Euler step, so that its flight is determined by its launch and the frame times since.
The invariant of a run says so of every whole fruit: it finds in the run so far the random
numbers of the launch and the frames the fruit has lived through. The bounds on Euler steps then
keep the fruit in the field and bring it down, for the launch speeds and gravities of the levels.
-/

namespace VisionGame.Game
open VisionGame.Base

variable {R : Type} [Scalar R]

/-! ### Launches -/

/-- Every random number is from `[0, 1)`. -/
structure GameState.FruitDraw.InRange (draw : GameState.FruitDraw R) : Prop where
  launch : 0 ≤ draw.launch ∧ draw.launch < 1
  target : 0 ≤ draw.target ∧ draw.target < 1
  flight : 0 ≤ draw.flight ∧ draw.flight < 1
  speed : 0 ≤ draw.speed ∧ draw.speed < 1
  rotation : 0 ≤ draw.rotation ∧ draw.rotation < 1
  spin : 0 ≤ draw.spin ∧ draw.spin < 1

/-- Where a fruit is launched. -/
def GameState.FruitDraw.start (draw : GameState.FruitDraw R) : R := draw.launch * 520 + 140

/-- How fast a fruit moves sideways: it would reach its target in its flight time. -/
def GameState.FruitDraw.drift (draw : GameState.FruitDraw R) : R :=
  (400 + (draw.target * 240 - 120) - draw.start) / (draw.flight * 40 + 55)

/-- How fast a fruit is launched; negative is upwards. -/
def Level.climb (lvl : Level R) (draw : GameState.FruitDraw R) : R :=
  draw.speed * (lvl.maxSpeedY - lvl.minSpeedY) + lvl.minSpeedY

/-- Launch speeds and gravity suit the field: the fastest fruit does not reach the top, the
slowest one gets above the bottom, and every fruit is below the field again after 240 units. -/
structure Level.Floaty (lvl : Level R) : Prop where
  gravity : 0 < lvl.gravity
  speeds : lvl.minSpeedY ≤ lvl.maxSpeedY
  upwards : lvl.maxSpeedY < 0
  belowTop : (1.25 * lvl.gravity - lvl.minSpeedY) ^ 2 ≤ 1050 * lvl.gravity
  aboveBottom : 50 * lvl.gravity + 6.25 * lvl.gravity ^ 2 ≤ lvl.maxSpeedY ^ 2
  returns : 35 < 240 * (lvl.minSpeedY + lvl.gravity * 118.75)

/-- Every level of the game suits the field. -/
theorem floaty_of_mem_levels {lvl : Level R} (h : lvl ∈ levels) : lvl.Floaty := by
  simp only [levels, List.mem_cons, List.not_mem_nil, or_false] at h
  rcases h with rfl | rfl | rfl | rfl | rfl | rfl <;> constructor <;> norm_num

/-- The launch speed lies between those of the level. -/
theorem climb_bounds {lvl : Level R} (h : lvl.Floaty) {draw : GameState.FruitDraw R}
    (hdraw : draw.InRange) : lvl.minSpeedY ≤ lvl.climb draw ∧ lvl.climb draw ≤ lvl.maxSpeedY := by
  have ⟨hlow, hhigh⟩ := hdraw.speed
  have hgap := sub_nonneg.mpr h.speeds
  have habove := mul_nonneg hlow hgap
  have hbelow := mul_le_mul_of_nonneg_right hhigh.le hgap
  simp only [Level.climb]
  constructor
  · linarith
  · linarith

/-! ### The flight of one fruit -/

/-- The longest step of a frame takes some time. -/
theorem frameCap_pos : (0 : R) < 2.5 := by norm_num

/-- A fruit launched with these random numbers has been moved by these steps. -/
structure Fruit.Flies (lvl : Level R) (draw : GameState.FruitDraw R) (dts : List R)
    (fruit : Fruit R) : Prop where
  across : fruit.x = draw.start + draw.drift * dts.sum
  drift : fruit.vx = draw.drift
  height : (fruit.y, fruit.vy) = euler lvl.gravity (525, lvl.climb draw) dts

/-- A fruit is still in flight: it is not below the field and falling. -/
def Fruit.InFlight (fruit : Fruit R) : Prop := fruit.y ≤ 560 ∨ fruit.vy ≤ 0

/-- The launch is a flight without steps. -/
theorem flies_launchFruit (lvl : Level R) (draw : GameState.FruitDraw R) (id : ℕ) :
    (GameState.launchFruit lvl draw id).Flies lvl draw [] := by
  constructor
  · rw [List.sum_nil, mul_zero, add_zero]
    rfl
  · rfl
  · rfl

/-- A step goes on with the flight. -/
theorem flies_move {lvl : Level R} {draw : GameState.FruitDraw R} {dts : List R}
    {fruit : Fruit R} (h : fruit.Flies lvl draw dts) (dt : R) :
    (fruit.move lvl.gravity dt).Flies lvl draw (dts ++ [dt]) := by
  constructor
  · rw [List.sum_append, List.sum_singleton]
    change fruit.x + fruit.vx * dt = _
    rw [h.across, h.drift]
    ring
  · exact h.drift
  · rw [euler_concat, ← h.height]
    rfl

section
variable {lvl : Level R} {draw : GameState.FruitDraw R} {dts : List R} {fruit : Fruit R}

/-- The vertical speed grows with the time. -/
theorem Fruit.Flies.vy_eq (h : fruit.Flies lvl draw dts) :
    fruit.vy = lvl.climb draw + lvl.gravity * dts.sum := by
  have hvelocity := congrArg Prod.snd h.height
  rw [euler_velocity] at hvelocity
  exact hvelocity

/-- The height depends on the time and the staircase of the steps. -/
theorem Fruit.Flies.y_eq (h : fruit.Flies lvl draw dts) :
    fruit.y = 525 + lvl.climb draw * dts.sum + lvl.gravity * staircase dts / 2 := by
  have hposition := congrArg Prod.fst h.height
  rw [euler_position] at hposition
  exact hposition

/-- Height of a flight in the largest steps. -/
def Level.coarseY (lvl : Level R) (draw : GameState.FruitDraw R) (time : R) : R :=
  525 + lvl.climb draw * time + lvl.gravity * coarse 2.5 time / 2

/-- No flight of the same time is higher up in the field than the one in the largest steps. -/
theorem Fruit.Flies.coarseY_le (hlvl : lvl.Floaty) (hdts : ∀ dt ∈ dts, 0 ≤ dt ∧ dt ≤ 2.5)
    (h : fruit.Flies lvl draw dts) : lvl.coarseY draw dts.sum ≤ fruit.y := by
  have hcoarse := coarse_le_staircase frameCap_pos hdts
  have hscaled := mul_le_mul_of_nonneg_left hcoarse hlvl.gravity.le
  rw [h.y_eq]
  simp only [Level.coarseY]
  linarith

private theorem Fruit.Flies.y_nonneg (hlvl : lvl.Floaty) (hdraw : draw.InRange)
    (hdts : ∀ dt ∈ dts, 0 ≤ dt ∧ dt ≤ 2.5) (h : fruit.Flies lvl draw dts) : 0 ≤ fruit.y := by
  have hy := h.coarseY_le hlvl hdts
  have hlag := sub_le_coarse frameCap_pos dts.sum
  have ⟨hslow, hfast⟩ := climb_bounds hlvl hdraw
  have hgravity := hlvl.gravity
  have hup := hlvl.upwards
  have htop := hlvl.belowTop
  simp only [Level.coarseY] at hy
  -- completing the square in the time
  have hsquare := sq_nonneg (lvl.gravity * dts.sum + (lvl.climb draw - 1.25 * lvl.gravity))
  have hscaled := mul_le_mul_of_nonneg_left hlag (sq_nonneg lvl.gravity)
  have hspeed : (1.25 * lvl.gravity - lvl.climb draw) ^ 2 ≤
      (1.25 * lvl.gravity - lvl.minSpeedY) ^ 2 := by
    apply pow_le_pow_left₀
    · linarith
    · linarith
  have htwice : 0 ≤ 2 * lvl.gravity *
      (525 + lvl.climb draw * dts.sum + lvl.gravity * coarse 2.5 dts.sum / 2) := by
    linarith
  have hpos := nonneg_of_mul_nonneg_right htwice (by linarith)
  exact hpos.trans hy

private theorem Fruit.Flies.y_le (hlvl : lvl.Floaty) (hdts : ∀ dt ∈ dts, 0 ≤ dt ∧ dt ≤ 2.5)
    (h : fruit.Flies lvl draw dts) (hrising : fruit.vy ≤ 0) : fruit.y ≤ 525 := by
  have htime : 0 ≤ dts.sum := List.sum_nonneg fun dt hdt ↦ (hdts dt hdt).1
  have hstairs := mul_le_mul_of_nonneg_left (staircase_le dts) hlvl.gravity.le
  have hfall := mul_nonneg hlvl.gravity.le (sq_nonneg dts.sum)
  rw [h.vy_eq] at hrising
  have hclimb := mul_nonpos_of_nonneg_of_nonpos htime hrising
  rw [h.y_eq]
  linarith

/-- A fruit that has flown for more than 240 units is below the field and falls. -/
theorem Fruit.Flies.sum_le (hlvl : lvl.Floaty) (hdraw : draw.InRange)
    (hdts : ∀ dt ∈ dts, 0 ≤ dt ∧ dt ≤ 2.5) (h : fruit.Flies lvl draw dts)
    (hflight : fruit.InFlight) : dts.sum ≤ 240 := by
  by_contra hlong
  rw [not_le] at hlong
  have hy := h.coarseY_le hlvl hdts
  have hlag := sub_le_coarse frameCap_pos dts.sum
  have ⟨hslow, _⟩ := climb_bounds hlvl hdraw
  have hgravity := hlvl.gravity
  have hreturns := hlvl.returns
  have hlate := mul_lt_mul_of_pos_left hlong hgravity
  have hscaled := mul_le_mul_of_nonneg_left hlag hgravity.le
  have hmean : 0 < lvl.climb draw + lvl.gravity * (dts.sum - 2.5) / 2 := by linarith
  have hrise := mul_lt_mul_of_pos_right hlong hmean
  simp only [Level.coarseY] at hy
  rcases hflight with hhigh | hrising
  · linarith
  · rw [h.vy_eq] at hrising
    linarith

end

/-! ### Flights in a run -/

/-- Random numbers are in range and the frame times do not decrease. -/
def GameEvent.Admissible : GameEvent R → Prop
  | .spawn _ draws => ∀ i, (draws i).InRange
  | .frame elapsed _ => 0 ≤ elapsed
  | _ => True

/-- The random numbers a turn launches a fruit with. -/
def GameTurn.draw (t : GameTurn R) (id : ℕ) : Option (GameState.FruitDraw R) :=
  match t.event with
  | .spawn _ draws =>
    if t.before.spawned ≤ id ∧ id < t.after.spawned then some (draws (id - t.before.spawned))
    else none
  | _ => none

/-- The random numbers with which a fruit was launched in a run. -/
def drawOf (turns : List (GameTurn R)) (id : ℕ) : Option (GameState.FruitDraw R) :=
  turns.findSome? (·.draw id)

/-- The step a turn moves a fruit by, once it is launched. -/
def GameTurn.flightStep (t : GameTurn R) (id : ℕ) : Option R :=
  match t.event with
  | .frame elapsed _ => if id < t.before.spawned then some (GameState.frameStep elapsed) else none
  | _ => none

/-- The steps of the frames since a fruit was launched. -/
def flightSteps (turns : List (GameTurn R)) (id : ℕ) : List R := turns.filterMap (·.flightStep id)

omit [Scalar R] in
/-- A launch that was noted is not noted again. -/
theorem drawOf_concat {turns : List (GameTurn R)} {id : ℕ} {draw : GameState.FruitDraw R}
    (h : drawOf turns id = some draw) (t : GameTurn R) : drawOf (turns ++ [t]) id = some draw := by
  simp only [drawOf] at h ⊢
  rw [List.findSome?_append, h]
  rfl

/-- A turn that is no frame moves nothing. -/
theorem flightSteps_concat_none (turns : List (GameTurn R)) {t : GameTurn R} {id : ℕ}
    (h : t.flightStep id = none) : flightSteps (turns ++ [t]) id = flightSteps turns id := by
  simp only [flightSteps]
  rw [List.filterMap_append, List.filterMap_cons_none (f := fun u : GameTurn R ↦ u.flightStep id) h,
    List.filterMap_nil, List.append_nil]

/-- A frame adds its step to the flights. -/
theorem flightSteps_concat_some (turns : List (GameTurn R)) {t : GameTurn R} {id : ℕ} {dt : R}
    (h : t.flightStep id = some dt) :
    flightSteps (turns ++ [t]) id = flightSteps turns id ++ [dt] := by
  simp only [flightSteps]
  rw [List.filterMap_append, List.filterMap_cons_some (f := fun u : GameTurn R ↦ u.flightStep id) h,
    List.filterMap_nil]

/-- A frame takes between no time and two and a half units. -/
theorem frameStep_bounds {elapsed : R} (h : 0 ≤ elapsed) :
    0 ≤ GameState.frameStep elapsed ∧ GameState.frameStep elapsed ≤ 2.5 := by
  constructor
  · apply le_min
    · norm_num
    · exact div_nonneg h (by norm_num)
  · exact min_le_left _ _

/-- A whole fruit was launched in the run, has flown since, and is still in flight. -/
structure Airborne (lvl : Level R) (turns : List (GameTurn R)) (fruit : Fruit R) : Prop where
  flies : ∃ draw, draw.InRange ∧ drawOf turns fruit.id = some draw ∧
    fruit.Flies lvl draw (flightSteps turns fruit.id)
  inFlight : fruit.InFlight

/-- What holds after some turns of a run whose events are admissible. -/
structure FlightLog (lvl : Level R) (turns : List (GameTurn R)) (s : GameState R) : Prop where
  numbered : ∀ fruit ∈ s.fruits, fruit.id < s.spawned
  past : ∀ t ∈ turns, t.before.spawned ≤ s.spawned ∧ t.after.spawned ≤ s.spawned
  steps : ∀ id, ∀ dt ∈ flightSteps turns id, 0 ≤ dt ∧ dt ≤ 2.5
  airborne : ∀ fruit ∈ s.fruits, fruit.isSliced = false → Airborne lvl turns fruit

section
variable {lvl : Level R} {turns : List (GameTurn R)} {s t : GameState R}

private theorem FlightLog.fresh (h : FlightLog lvl turns s) {id : ℕ} (hid : s.spawned ≤ id) :
    drawOf turns id = none ∧ flightSteps turns id = [] := by
  constructor
  · apply List.findSome?_eq_none_iff.mpr
    intro t ht
    have hlaunched := (h.past t ht).2
    simp only [GameTurn.draw]
    split
    · exact if_neg (by omega)
    · rfl
  · apply List.filterMap_eq_nil_iff.mpr
    intro t ht
    have hlaunched := (h.past t ht).1
    simp only [GameTurn.flightStep]
    split
    · exact if_neg (by omega)
    · rfl

/-- A turn that is no frame leaves a fruit where it is in its flight. -/
theorem Airborne.rests {fruit : Fruit R} (h : Airborne lvl turns fruit) {turn : GameTurn R}
    (hstep : turn.flightStep fruit.id = none) : Airborne lvl (turns ++ [turn]) fruit := by
  obtain ⟨⟨draw, hrange, hdraw, hflies⟩, hflight⟩ := h
  refine ⟨⟨draw, hrange, drawOf_concat hdraw turn, ?_⟩, hflight⟩
  rw [flightSteps_concat_none turns hstep]
  exact hflies

private theorem FlightLog.airborne_launch (h : FlightLog lvl turns s)
    {draws : ℕ → GameState.FruitDraw R} {i : ℕ} (hdraw : (draws i).InRange) {turn : GameTurn R}
    (hturn : turn.draw (s.spawned + i) = some (draws i))
    (hstep : turn.flightStep (s.spawned + i) = none) :
    Airborne lvl (turns ++ [turn]) (GameState.launchFruit lvl (draws i) (s.spawned + i)) := by
  obtain ⟨hnone, hnil⟩ := h.fresh (Nat.le_add_right s.spawned i)
  have hlaunch : drawOf (turns ++ [turn]) (s.spawned + i) = some (draws i) := by
    simp only [drawOf] at hnone ⊢
    rw [List.findSome?_append, hnone]
    simp [hturn]
  have hrests : flightSteps (turns ++ [turn]) (s.spawned + i) = [] := by
    rw [flightSteps_concat_none turns hstep, hnil]
  refine ⟨⟨draws i, hdraw, hlaunch, ?_⟩, .inl (by norm_num [GameState.launchFruit])⟩
  change Fruit.Flies lvl (draws i) (flightSteps _ (s.spawned + i)) _
  rw [hrests]
  exact flies_launchFruit lvl (draws i) _

/-- A level starts with no fruit in the air. -/
theorem FlightLog.start (lvl : Level R) (s : GameState R) :
    FlightLog lvl [] (s.startLevel lvl) := by
  constructor <;> simp [GameState.startLevel, flightSteps]

/-- An event that is no frame and launches nothing keeps the flights. -/
theorem FlightLog.still (h : FlightLog lvl turns s) (turn : GameTurn R)
    (hbefore : turn.before = s) (hafter : turn.after = t) (hspawned : t.spawned = s.spawned)
    (hstep : ∀ id, turn.flightStep id = none)
    (hfruits : ∀ fruit ∈ t.fruits, ∃ old ∈ s.fruits, fruit.id = old.id ∧
      (fruit.isSliced = false → fruit = old)) : FlightLog lvl (turns ++ [turn]) t := by
  constructor
  · intro fruit hfruit
    have ⟨old, hold, hid, _⟩ := hfruits fruit hfruit
    rw [hid, hspawned]
    exact h.numbered old hold
  · intro u hu
    rw [hspawned]
    rcases List.mem_append.mp hu with hpast | hnew
    · exact h.past u hpast
    · rw [List.mem_singleton.mp hnew, hbefore, hafter, hspawned]
      exact ⟨le_rfl, le_rfl⟩
  · intro id
    rw [flightSteps_concat_none turns (hstep id)]
    exact h.steps id
  · intro fruit hfruit hwhole
    have ⟨old, hold, _, hsame⟩ := hfruits fruit hfruit
    obtain rfl := hsame hwhole
    exact (h.airborne fruit hold hwhole).rests (hstep fruit.id)

private theorem FlightLog.spawn (h : FlightLog lvl turns s) (r : R)
    {draws : ℕ → GameState.FruitDraw R} (hdraws : ∀ i, (draws i).InRange) :
    FlightLog lvl (turns ++ [⟨.spawn r draws, s, s.spawnFruit lvl r draws, false⟩])
      (s.spawnFruit lvl r draws) := by
  by_cases hactive : s.gameActive
  · have hstate : s.spawnFruit lvl r draws =
        { s with
          fruits := s.fruits ++ (List.range (GameState.spawnCount lvl r)).map
            fun i ↦ GameState.launchFruit lvl (draws i) (s.spawned + i)
          spawned := s.spawned + GameState.spawnCount lvl r } := by
      simp [GameState.spawnFruit, hactive]
    rw [hstate]
    constructor
    · intro fruit hfruit
      change fruit.id < s.spawned + GameState.spawnCount lvl r
      rcases List.mem_append.mp hfruit with hold | hlaunched
      · have hid := h.numbered fruit hold
        omega
      · obtain ⟨i, hi, rfl⟩ := List.mem_map.mp hlaunched
        have hlt := List.mem_range.mp hi
        change s.spawned + i < s.spawned + GameState.spawnCount lvl r
        omega
    · intro u hu
      change u.before.spawned ≤ s.spawned + GameState.spawnCount lvl r ∧
        u.after.spawned ≤ s.spawned + GameState.spawnCount lvl r
      rcases List.mem_append.mp hu with hpast | hnew
      · have hbounds := h.past u hpast
        omega
      · rw [List.mem_singleton.mp hnew]
        exact ⟨Nat.le_add_right _ _, le_rfl⟩
    · intro id
      rw [flightSteps_concat_none turns rfl]
      exact h.steps id
    · intro fruit hfruit hwhole
      rcases List.mem_append.mp hfruit with hold | hlaunched
      · exact (h.airborne fruit hold hwhole).rests rfl
      · obtain ⟨i, hi, rfl⟩ := List.mem_map.mp hlaunched
        have hlt := List.mem_range.mp hi
        apply h.airborne_launch (hdraws i)
        · simp [GameTurn.draw, hlt]
        · rfl
  · have hstate : s.spawnFruit lvl r draws = s := by simp [GameState.spawnFruit, hactive]
    rw [hstate]
    exact h.still _ rfl rfl rfl (fun _ ↦ rfl) fun fruit hfruit ↦
      ⟨fruit, hfruit, rfl, fun _ ↦ rfl⟩

/-- A whole fruit in a frame is moved, and stays while it is in flight. -/
theorem advance_whole {old : Fruit R} (hwhole : old.isSliced = false) (gravity dt : R)
    {m : Fruit R × Bool} (h : old.advance gravity dt = some m) :
    m.1 = old.move gravity dt ∧ (m.2 = true ↔ m.1.InFlight) := by
  simp only [Fruit.advance] at h
  rw [hwhole] at h
  rw [← Option.some.inj h]
  refine ⟨rfl, ?_⟩
  simp only [Fruit.InFlight]
  rw [Bool.not_eq_true', Bool.and_eq_false_iff, decide_eq_false_iff_not, decide_eq_false_iff_not,
    not_lt, not_lt]

/-- A frame moves the fruits in flight by its step. -/
theorem FlightLog.frame (h : FlightLog lvl turns s) {elapsed now : R} (helapsed : 0 ≤ elapsed)
    (hrender : s.render lvl elapsed now = some t) :
    FlightLog lvl (turns ++ [⟨.frame elapsed now, s, t, false⟩]) t := by
  have ⟨_, _, _, _, hspawned, _⟩ := render_spec hrender
  have hstep : ∀ id, id < s.spawned → GameTurn.flightStep ⟨.frame elapsed now, s, t, false⟩ id =
      some (GameState.frameStep elapsed) := fun id hid ↦ if_pos hid
  have hnone : ∀ id, ¬id < s.spawned →
      GameTurn.flightStep ⟨.frame elapsed now, s, t, false⟩ id = none :=
    fun id hid ↦ if_neg hid
  constructor
  · intro fruit hfruit
    have ⟨old, hold, hadvance⟩ := exists_advance_of_mem hrender hfruit
    have hid := (advance_same hadvance).1
    rw [hid, hspawned]
    exact h.numbered old hold
  · intro u hu
    rw [hspawned]
    rcases List.mem_append.mp hu with hpast | hnew
    · exact h.past u hpast
    · rw [List.mem_singleton.mp hnew]
      exact ⟨le_rfl, hspawned.le⟩
  · intro id dt hdt
    by_cases hid : id < s.spawned
    · rw [flightSteps_concat_some turns (hstep id hid)] at hdt
      rcases List.mem_append.mp hdt with hpast | hnew
      · exact h.steps id dt hpast
      · rw [List.mem_singleton.mp hnew]
        exact frameStep_bounds helapsed
    · rw [flightSteps_concat_none turns (hnone id hid)] at hdt
      exact h.steps id dt hdt
  · intro fruit hfruit hwhole
    have ⟨old, hold, hadvance⟩ := exists_advance_of_mem hrender hfruit
    have ⟨hid, hsliced⟩ := advance_same hadvance
    rw [hwhole] at hsliced
    have ⟨hmove, hstays⟩ := advance_whole hsliced.symm _ _ hadvance
    have ⟨⟨draw, hrange, hdraw, hflies⟩, _⟩ := h.airborne old hold hsliced.symm
    refine ⟨⟨draw, hrange, ?_, ?_⟩, hstays.mp rfl⟩
    · rw [hid]
      exact drawOf_concat hdraw _
    · have hmoved := flies_move hflies (GameState.frameStep elapsed)
      rw [← hmove] at hmoved
      rw [hid, flightSteps_concat_some turns (hstep old.id (h.numbered old hold))]
      exact hmoved

private theorem exists_same_of_strikes {hits : Fruit R → Bool} (h : Strikes hits s t)
    {fruit : Fruit R} (hfruit : fruit ∈ t.fruits) :
    ∃ old ∈ s.fruits, fruit.id = old.id ∧ (fruit.isSliced = false → fruit = old) := by
  obtain ⟨old, hold, rfl⟩ := h.exists_old hfruit
  refine ⟨old, hold, Fruit.sliceIf_id hits old, ?_⟩
  simp only [Fruit.sliceIf]
  split
  · intro hwhole
    cases hwhole
  · exact fun _ ↦ rfl

/-- Every admissible event keeps the log. -/
theorem FlightLog.step (h : FlightLog lvl turns s) {e : GameEvent R} (hadmissible : e.Admissible)
    (hstep : s.step lvl e = some t) : FlightLog lvl (turns ++ [⟨e, s, t, false⟩]) t := by
  by_cases hframe : ∃ elapsed now, e = .frame elapsed now
  · obtain ⟨elapsed, now, rfl⟩ := hframe
    exact h.frame hadmissible hstep
  · have hnone : ∀ id, GameTurn.flightStep ⟨e, s, t, false⟩ id = none := by
      intro id
      cases e with
      | frame elapsed now => exact absurd ⟨elapsed, now, rfl⟩ hframe
      | _ => rfl
    rcases step_cases hstep with hstroke | ⟨r, draws, rfl, rfl⟩ | ⟨elapsed, now, rfl, _⟩ |
      ⟨rfl, rfl⟩
    · exact h.still _ rfl rfl hstroke.spawned hnone fun fruit hfruit ↦
        exists_same_of_strikes hstroke hfruit
    · exact h.spawn r hadmissible
    · exact absurd ⟨elapsed, now, rfl⟩ hframe
    · exact h.still _ rfl rfl rfl hnone fun fruit hfruit ↦ ⟨fruit, hfruit, rfl, fun _ ↦ rfl⟩

/-! ### Bounds on the flight -/

/-- After a turn whole fruits are below the top and have not flown for too long; one that the
turn removed was falling. -/
structure GameTurn.FlightSafe (past : List (GameTurn R)) (t : GameTurn R) : Prop where
  raised : t.raised = false
  belowTop : ∀ fruit ∈ t.after.fruits, fruit.isSliced = false → 0 ≤ fruit.y
  falling : ∀ fruit ∈ t.before.fruits, fruit.isSliced = false →
    fruit.id ∉ t.after.fruits.map Fruit.id → 0 < fruit.vy
  brief : ∀ fruit ∈ t.after.fruits, fruit.isSliced = false →
    (flightSteps (past ++ [t]) fruit.id).sum ≤ 240

private theorem FlightLog.falling (h : FlightLog lvl turns s) (hlvl : lvl.Floaty) {e : GameEvent R}
    (hadmissible : e.Admissible) (hstep : s.step lvl e = some t) {fruit : Fruit R}
    (hfruit : fruit ∈ s.fruits) (hwhole : fruit.isSliced = false)
    (hgone : fruit.id ∉ t.fruits.map Fruit.id) : 0 < fruit.vy := by
  obtain ⟨elapsed, now, m, rfl, hm, hdropped⟩ := exists_advance_of_gone hstep hfruit hgone
  obtain ⟨hmove, hstays⟩ := advance_whole hwhole _ _ hm
  obtain ⟨draw, _, _, hflies⟩ := (h.airborne fruit hfruit hwhole).flies
  by_contra hrising
  rw [not_lt] at hrising
  have hy := hflies.y_le hlvl (h.steps fruit.id) hrising
  have hup := mul_nonpos_of_nonpos_of_nonneg hrising (frameStep_bounds hadmissible).1
  have hflight : m.1.InFlight := by
    rw [hmove]
    left
    change fruit.y + fruit.vy * GameState.frameStep elapsed ≤ 560
    linarith
  rw [hstays.mpr hflight] at hdropped
  cases hdropped

/-- The flights that were logged are safe. -/
theorem FlightLog.safe (h : FlightLog lvl turns s) (hlvl : lvl.Floaty) {e : GameEvent R}
    (hadmissible : e.Admissible) (hstep : s.step lvl e = some t) :
    (⟨e, s, t, false⟩ : GameTurn R).FlightSafe turns := by
  have hafter := h.step hadmissible hstep
  constructor
  · rfl
  · intro fruit hfruit hwhole
    have ⟨draw, hrange, _, hflies⟩ := (hafter.airborne fruit hfruit hwhole).flies
    exact hflies.y_nonneg hlvl hrange (hafter.steps fruit.id)
  · exact fun fruit hfruit hwhole hgone ↦ h.falling hlvl hadmissible hstep hfruit hwhole hgone
  · intro fruit hfruit hwhole
    have hair := hafter.airborne fruit hfruit hwhole
    have ⟨draw, hrange, _, hflies⟩ := hair.flies
    exact hflies.sum_le hlvl hrange (hafter.steps fruit.id) hair.inFlight

/-- The log of the flights next to the ledger of the fruits, which keeps frames from raising. -/
structure Logged (lvl : Level R) (first : ℕ) (turns : List (GameTurn R)) (s : GameState R) :
    Prop where
  log : FlightLog lvl turns s
  ledger : Ledger first (everSliced turns) s

/-- Every turn with an admissible event is logged. -/
theorem Logged.step {first : ℕ} (h : Logged lvl first turns s) {e : GameEvent R}
    (hadmissible : e.Admissible) :
    Logged lvl first (turns ++ [(gameMachine lvl).step s e])
      ((gameMachine lvl).step s e).after := by
  constructor
  · have ⟨t, hstep⟩ := exists_step h.ledger.wellFormed lvl e
    rw [gameMachine_step_of_step hstep]
    exact h.log.step hadmissible hstep
  · exact (accounted_step h.ledger e).2

/-- A level starts with an empty log. -/
theorem Logged.start (lvl : Level R) (s : GameState R) :
    Logged lvl s.spawned [] (s.startLevel lvl) := ⟨.start lvl s, .start lvl s⟩

end

/-- Throughout a run with admissible events the flights are logged. -/
theorem logged_trace (lvl : Level R) (s : GameState R) {events : List (GameEvent R)}
    (hevents : ∀ e ∈ events, e.Admissible) :
    ∀ past t rest, (gameMachine lvl).trace (s.startLevel lvl) events = past ++ t :: rest →
      Logged lvl s.spawned (past ++ [t]) t.after := by
  apply (gameMachine lvl).split_forall (I := fun past u ↦ Logged lvl s.spawned past u)
    (P := fun past t ↦ Logged lvl s.spawned (past ++ [t]) t.after)
  · intro past u e he h
    exact h.step (hevents e he)
  · intro past u e he v h hnext
    rw [← Option.some.inj hnext]
    exact h.step (hevents e he)
  · exact .start lvl s

/-- Whatever the frame times, whole fruits stay below the top, are removed only while they fall,
and are removed before they have flown for more than 240 units. -/
theorem flights_safe {lvl : Level R} (hlvl : lvl ∈ levels) (s : GameState R)
    {events : List (GameEvent R)} (hevents : ∀ e ∈ events, e.Admissible) :
    ∀ past t rest, (gameMachine lvl).trace (s.startLevel lvl) events = past ++ t :: rest →
      t.FlightSafe past := by
  apply (gameMachine lvl).split_forall (I := fun past u ↦ Logged lvl s.spawned past u)
    (P := fun past t ↦ t.FlightSafe past)
  · intro past u e he h
    have ⟨v, hstep⟩ := exists_step h.ledger.wellFormed lvl e
    rw [gameMachine_step_of_step hstep]
    exact h.log.safe (floaty_of_mem_levels hlvl) (hevents e he) hstep
  · intro past u e he v h hnext
    rw [← Option.some.inj hnext]
    exact h.step (hevents e he)
  · exact .start lvl s

/-- A pair is launched and moved by two frames. -/
def liftPair : List (GameEvent ℚ) :=
  [.spawn 0.5 fun _ ↦ ⟨0.5, 0.5, 0.5, 0.5, 0.5, 0.5⟩, .frame 1000 0, .frame 10 0]

/-- The pair has flown for a little more than three units. -/
theorem flights_safe_liftPair :
    ∃ past t, (gameMachine firstLevel).trace (GameState.init.startLevel firstLevel) liftPair =
        past ++ [t] ∧ t.after.fruits.map (fun fruit ↦ (fruit.id, fruit.isSliced)) =
        [(0, false), (1, false)] ∧ (flightSteps (past ++ [t]) 1).length = 2 ∧
        t.FlightSafe past := by
  have hsplit : ∃ past t, (gameMachine firstLevel).trace
      (GameState.init.startLevel firstLevel) liftPair = past ++ [t] ∧
      t.after.fruits.map (fun fruit ↦ (fruit.id, fruit.isSliced)) =
        [(0, false), (1, false)] ∧ (flightSteps (past ++ [t]) 1).length = 2 := by
    refine ⟨[_, _], _, rfl, ?_⟩
    decide +kernel
  have hevents : ∀ e ∈ liftPair, e.Admissible := by
    simp only [liftPair, List.forall_mem_cons, GameEvent.Admissible]
    refine ⟨fun _ ↦ ?_, ?_⟩
    · constructor <;> norm_num
    · norm_num
  have ⟨past, t, htrace, hfruits, hsteps⟩ := hsplit
  exact ⟨past, t, htrace, hfruits, hsteps,
    flights_safe List.mem_cons_self GameState.init hevents past t [] htrace⟩

end VisionGame.Game
