import VisionGame.Game.Flight

/-!
# Drift of a fruit

Library `Game`. `components/FruitNinjaGame.tsx:91–177,647–671,735–753`. A fruit drifts sideways at
a constant speed, so that it reaches a side of the field at a time given by its launch. Its flight
may last longer: the flight time from which the drift is computed is not the one its launch speed
and the gravity give. Which launches keep a fruit between the sides while it is above the bottom
of the field is decided by the flight in the largest steps, which stays there longest.
-/

namespace VisionGame.Game
open VisionGame.Base

variable {R : Type} [Scalar R]

/-! ### When a fruit reaches a side -/

/-- When a fruit that drifts reaches a side of the field. -/
def GameState.FruitDraw.sideTime (draw : GameState.FruitDraw R) : R :=
  if 0 < draw.drift then (800 - draw.start) / draw.drift else draw.start / -draw.drift

/-- A fruit is launched between the sides. -/
theorem start_bounds {draw : GameState.FruitDraw R} (h : draw.InRange) :
    0 ≤ draw.start ∧ draw.start ≤ 800 := by
  have ⟨hlow, hhigh⟩ := h.launch
  simp only [GameState.FruitDraw.start]
  constructor
  · linarith
  · linarith

private theorem sideTime_nonneg {draw : GameState.FruitDraw R} (h : draw.InRange) :
    0 ≤ draw.sideTime := by
  have ⟨hlow, hhigh⟩ := start_bounds h
  simp only [GameState.FruitDraw.sideTime]
  split
  · next hright => exact div_nonneg (sub_nonneg.mpr hhigh) hright.le
  · next hleft => exact div_nonneg hlow (neg_nonneg.mpr (not_lt.mp hleft))

/-- A fruit is between the sides until it reaches one. -/
theorem between_sides_iff {draw : GameState.FruitDraw R} (h : draw.InRange) {time : R}
    (htime : 0 ≤ time) :
    (0 ≤ draw.start + draw.drift * time ∧ draw.start + draw.drift * time ≤ 800) ↔
      draw.drift = 0 ∨ time ≤ draw.sideTime := by
  have ⟨hlow, hhigh⟩ := start_bounds h
  simp only [GameState.FruitDraw.sideTime]
  rcases lt_trichotomy draw.drift 0 with hleft | hstill | hright
  · rw [if_neg hleft.not_gt, le_div_iff₀ (neg_pos.mpr hleft)]
    have hmoved := mul_nonpos_of_nonpos_of_nonneg hleft.le htime
    constructor
    · rintro ⟨hinside, _⟩
      right
      linarith
    · rintro (hstill | hbefore)
      · exact absurd hstill hleft.ne
      · constructor
        · linarith
        · linarith
  · rw [hstill, zero_mul, add_zero]
    exact ⟨fun _ ↦ .inl rfl, fun _ ↦ ⟨hlow, hhigh⟩⟩
  · rw [if_pos hright, le_div_iff₀ hright]
    have hmoved := mul_nonneg hright.le htime
    constructor
    · rintro ⟨_, hinside⟩
      right
      linarith
    · rintro (hstill | hbefore)
      · exact absurd hstill hright.ne'
      · constructor
        · linarith
        · linarith

/-! ### The flight in the largest steps -/

/-- How fast a flight in the largest steps goes on at a time. -/
def Level.coarseVy (lvl : Level R) (draw : GameState.FruitDraw R) (time : R) : R :=
  lvl.climb draw + lvl.gravity * (2.5 * ⌊time / 2.5⌋)

/-- A launch without drift, or one that brings a fruit to a side only when a flight in the largest
steps has come down to the bottom of the field again. -/
def Level.Confines (lvl : Level R) (draw : GameState.FruitDraw R) : Prop :=
  draw.drift = 0 ∨ 500 ≤ lvl.coarseY draw draw.sideTime ∧ 0 < lvl.coarseVy draw draw.sideTime

instance (lvl : Level R) (draw : GameState.FruitDraw R) : Decidable (lvl.Confines draw) :=
  inferInstanceAs (Decidable (_ ∨ _ ∧ _))

section
variable {lvl : Level R} {draw : GameState.FruitDraw R}

private theorem coarseY_support (hlvl : lvl.Floaty) (start time : R) :
    lvl.coarseY draw start + lvl.coarseVy draw start * (time - start) ≤ lvl.coarseY draw time := by
  have hsupport := coarse_support frameCap_pos start time
  have hscaled := mul_le_mul_of_nonneg_left hsupport hlvl.gravity.le
  simp only [Level.coarseY, Level.coarseVy]
  linarith

private theorem exists_small_step {depth time speed : R} (hdepth : 0 < depth) (htime : 0 < time)
    (hspeed : 0 < speed) : ∃ dt, 0 < dt ∧ dt * speed ≤ depth ∧ dt < time := by
  refine ⟨min (depth / speed) (time / 2), ?_, ?_, ?_⟩
  · exact lt_min (div_pos hdepth hspeed) (half_pos htime)
  · rw [← le_div_iff₀ hspeed]
    exact min_le_left _ _
  · exact (min_le_right _ _).trans_lt (half_lt_self htime)

private theorem exists_later_of_rising (hlvl : lvl.Floaty) (hdraw : draw.InRange) {start : R}
    (hrising : lvl.coarseVy draw start ≤ 0) :
    ∃ time, start < time ∧ lvl.coarseY draw time ≤ 500 := by
  obtain ⟨_, hnext⟩ := floor_steps_bounds frameCap_pos start
  obtain ⟨_, hslow⟩ := climb_bounds hlvl hdraw
  have hgravity := hlvl.gravity
  have hup := hlvl.upwards
  have habove := hlvl.aboveBottom
  have hclimb : lvl.climb draw = -(lvl.gravity * (-lvl.climb draw / lvl.gravity)) := by
    field_simp
  have hspeed : lvl.maxSpeedY ^ 2 ≤ lvl.climb draw ^ 2 := by
    rw [← neg_sq, ← neg_sq (lvl.climb draw)]
    apply pow_le_pow_left₀
    · linarith
    · linarith
  have hapex : 0 ≤ -lvl.climb draw / lvl.gravity := div_nonneg (by linarith) hgravity.le
  simp only [Level.coarseVy] at hrising
  generalize -lvl.climb draw / lvl.gravity = apex at hclimb hapex
  refine ⟨apex + 2.5, ?_, ?_⟩
  · have hsteps : 2.5 * (⌊start / 2.5⌋ : R) ≤ apex := by
      apply le_of_mul_le_mul_left _ hgravity
      linarith
    linarith
  · have hlater : 0 ≤ apex + 2.5 := by linarith
    have hcoarse := coarse_le_sq frameCap_pos hlater
    have hscaled := mul_le_mul_of_nonneg_left hcoarse hgravity.le
    simp only [Level.coarseY]
    rw [hclimb] at hspeed ⊢
    have hdeep : lvl.gravity * (50 + 6.25 * lvl.gravity) ≤
        lvl.gravity * (lvl.gravity * apex ^ 2) := by linarith
    have hdepth := le_of_mul_le_mul_left hdeep hgravity
    linarith

private theorem exists_later_of_high {start : R} (hhigh : lvl.coarseY draw start < 500)
    (hfalling : 0 < lvl.coarseVy draw start) :
    ∃ time, start < time ∧ lvl.coarseY draw time ≤ 500 := by
  obtain ⟨_, hnext⟩ := floor_steps_bounds frameCap_pos start
  obtain ⟨dt, hdt, hdeep, hstep⟩ := exists_small_step (sub_pos.mpr hhigh) (sub_pos.mpr hnext)
    hfalling
  refine ⟨start + dt, lt_add_of_pos_right _ hdt, ?_⟩
  have hsegment : coarse 2.5 (start + dt) = _ :=
    coarse_segment frameCap_pos (le_add_of_nonneg_right hdt.le) (by linarith)
  simp only [Level.coarseY, Level.coarseVy] at hdeep ⊢
  rw [hsegment]
  linarith

private theorem exists_later_coarseY_le (hlvl : lvl.Floaty) (hdraw : draw.InRange) {start : R}
    (h : ¬(500 ≤ lvl.coarseY draw start ∧ 0 < lvl.coarseVy draw start)) :
    ∃ time, start < time ∧ lvl.coarseY draw time ≤ 500 := by
  rcases le_or_gt (lvl.coarseVy draw start) 0 with hrising | hfalling
  · exact exists_later_of_rising hlvl hdraw hrising
  · rw [not_and_or, not_le, not_lt] at h
    rcases h with hhigh | hrising
    · exact exists_later_of_high hhigh hfalling
    · exact exists_later_of_rising hlvl hdraw hrising

end

/-! ### Flying through a run -/

private theorem spawnCount_pos {lvl : Level R} (h : lvl ∈ levels) :
    0 < GameState.spawnCount lvl 0 := by
  have hmin : 0 < lvl.spawnCountMin := by
    simp only [levels, List.mem_cons, List.not_mem_nil, or_false] at h
    rcases h with rfl | rfl | rfl | rfl | rfl | rfl <;> norm_num
  simp only [GameState.spawnCount]
  rw [zero_mul, zero_add, Int.floor_intCast]
  exact Int.pos_iff_toNat_pos.mp hmin

/-- Fruits are launched with the same random numbers and moved by frames of given lengths. -/
def flightEvents (draw : GameState.FruitDraw R) (dts : List R) : List (GameEvent R) :=
  .spawn 0 (fun _ ↦ draw) :: dts.map fun dt ↦ .frame (dt * 16.666) 0

/-- The flight is admissible when its random numbers and steps are. -/
theorem admissible_flightEvents {draw : GameState.FruitDraw R} (hdraw : draw.InRange)
    {dts : List R} (hdts : ∀ dt ∈ dts, 0 ≤ dt ∧ dt ≤ 2.5) :
    ∀ e ∈ flightEvents draw dts, e.Admissible := by
  simp only [flightEvents, List.forall_mem_cons]
  refine ⟨fun _ ↦ hdraw, ?_⟩
  intro e he
  obtain ⟨dt, hdt, rfl⟩ := List.mem_map.mp he
  exact mul_nonneg (hdts dt hdt).1 (by norm_num)

private theorem frameStep_mul {dt : R} (h : dt ≤ 2.5) : GameState.frameStep (dt * 16.666) = dt := by
  simp only [GameState.frameStep]
  rw [mul_div_cancel_right₀ dt (by norm_num), min_eq_right h]

private theorem inFlight_of_move {lvl : Level R} (hlvl : lvl.Floaty) {fruit : Fruit R} {dt : R}
    (hdt : 0 ≤ dt) (h : (fruit.move lvl.gravity dt).InFlight) : fruit.InFlight := by
  simp only [Fruit.InFlight, Fruit.move] at h ⊢
  by_contra hdown
  rw [not_or, not_le, not_le] at hdown
  obtain ⟨hlow, hfalling⟩ := hdown
  have hmoved := mul_nonneg hfalling.le hdt
  have hfaster := mul_nonneg hlvl.gravity.le hdt
  rcases h with hhigh | hrising
  · linarith
  · linarith

/-- The first fruit of a run was launched with a draw, has been moved by some steps, and is still
there. -/
structure Carries (lvl : Level R) (draw : GameState.FruitDraw R) (dts : List R)
    (turns : List (GameTurn R)) (s : GameState R) : Prop where
  logged : Logged lvl 0 turns s
  launched : drawOf turns 0 = some draw
  steps : flightSteps turns 0 = dts
  aboard : ∃ fruit ∈ s.fruits, fruit.id = 0 ∧ fruit.isSliced = false

section
variable {lvl : Level R} {draw : GameState.FruitDraw R} {dts : List R}
  {turns : List (GameTurn R)} {s : GameState R}

/-- The fruit flies by the steps of its run. -/
theorem Carries.flies (h : Carries lvl draw dts turns s) {fruit : Fruit R}
    (hfruit : fruit ∈ s.fruits) (hid : fruit.id = 0) (hwhole : fruit.isSliced = false) :
    fruit.Flies lvl draw dts := by
  have ⟨own, _, hown, hflies⟩ := (h.logged.log.airborne fruit hfruit hwhole).flies
  rw [hid, h.launched] at hown
  rw [hid, h.steps, ← Option.some.inj hown] at hflies
  exact hflies

private theorem exists_carries_launch (hlvl : lvl ∈ levels) (hdraw : draw.InRange) :
    ∃ t, (gameMachine lvl).trace (GameState.init.startLevel lvl) (flightEvents draw []) = [t] ∧
      Carries lvl draw [] [t] t.after := by
  have hcount := spawnCount_pos hlvl
  have hlogged := (Logged.start lvl GameState.init).step (e := .spawn 0 fun _ ↦ draw)
    fun _ ↦ hdraw
  refine ⟨_, Machine.trace_singleton _ _ _, ?_⟩
  constructor
  · exact hlogged
  · have hnew : GameTurn.draw ((gameMachine lvl).step (GameState.init.startLevel lvl)
        (.spawn 0 fun _ ↦ draw)) 0 = some draw :=
      if_pos ⟨le_rfl, Nat.lt_of_lt_of_eq hcount (Nat.zero_add _).symm⟩
    simp only [drawOf, List.findSome?_cons]
    rw [hnew]
  · rfl
  · refine ⟨GameState.launchFruit lvl draw 0, ?_, rfl, rfl⟩
    apply List.mem_append_right
    exact List.mem_map.mpr ⟨0, List.mem_range.mpr hcount, rfl⟩

private theorem Carries.frame (h : Carries lvl draw dts turns s) {dt : R} (hdt : 0 ≤ dt ∧ dt ≤ 2.5)
    (hflight : ∀ fruit : Fruit R, fruit.Flies lvl draw (dts ++ [dt]) → fruit.InFlight) :
    Carries lvl draw (dts ++ [dt])
      (turns ++ [(gameMachine lvl).step s (.frame (dt * 16.666) 0)])
      ((gameMachine lvl).step s (.frame (dt * 16.666) 0)).after := by
  have hlogged := h.logged.step (e := .frame (dt * 16.666) 0) (mul_nonneg hdt.1 (by norm_num))
  have ⟨t, hstep⟩ := exists_step h.logged.ledger.wellFormed lvl (.frame (dt * 16.666) 0)
  rw [gameMachine_step_of_step hstep] at hlogged ⊢
  have ⟨fruit, hfruit, hid, hwhole⟩ := h.aboard
  have hspawned := h.logged.log.numbered fruit hfruit
  rw [hid] at hspawned
  have hmoves : GameTurn.flightStep ⟨.frame (dt * 16.666) 0, s, t, false⟩ 0 = some dt := by
    have hframe : GameTurn.flightStep ⟨.frame (dt * 16.666) 0, s, t, false⟩ 0 =
        some (GameState.frameStep (dt * 16.666)) := if_pos hspawned
    rw [frameStep_mul hdt.2] at hframe
    exact hframe
  constructor
  · exact hlogged
  · exact drawOf_concat h.launched _
  · rw [flightSteps_concat_some turns hmoves, h.steps]
  · have ⟨m, hm, hkept⟩ := exists_advance_of_before hstep hfruit
    have ⟨hmove, hstays⟩ := advance_whole hwhole _ _ hm
    have ⟨hsame, hsliced⟩ := advance_same hm
    have hmoved := flies_move (h.flies hfruit hid hwhole) dt
    rw [frameStep_mul hdt.2] at hmove
    rw [← hmove] at hmoved
    exact ⟨m.1, hkept (hstays.mpr (hflight m.1 hmoved)), hsame.trans hid, hsliced.trans hwhole⟩

private theorem exists_carries (hlvl : lvl ∈ levels) (hdraw : draw.InRange)
    (hdts : ∀ dt ∈ dts, 0 ≤ dt ∧ dt ≤ 2.5)
    (hflight : ∀ fruit : Fruit R, fruit.Flies lvl draw dts → fruit.InFlight) :
    ∃ past t, (gameMachine lvl).trace (GameState.init.startLevel lvl) (flightEvents draw dts) =
      past ++ [t] ∧ Carries lvl draw dts (past ++ [t]) t.after := by
  induction dts using List.reverseRecOn with
  | nil =>
    have ⟨t, htrace, hcarries⟩ := exists_carries_launch hlvl hdraw
    exact ⟨[], t, htrace, hcarries⟩
  | append_singleton dts dt ih =>
    have ⟨hdt, hle⟩ := hdts dt (by simp)
    have ⟨past, t, htrace, hcarries⟩ := ih (fun x hx ↦ hdts x (List.mem_append_left _ hx))
      fun fruit hflies ↦ inFlight_of_move (floaty_of_mem_levels hlvl) hdt
        (hflight _ (flies_move hflies dt))
    have hnext := Machine.trace_concat (gameMachine lvl) htrace rfl (.frame (dt * 16.666) 0)
    refine ⟨past ++ [t], _, ?_, hcarries.frame ⟨hdt, hle⟩ hflight⟩
    rw [← hnext]
    simp [flightEvents]

end

/-! ### Between the sides -/

/-- In every run of a level the whole fruits launched with these random numbers are between the
sides while they are above the bottom of the field. -/
def StaysInside (lvl : Level R) (draw : GameState.FruitDraw R) : Prop :=
  ∀ (s : GameState R) (events : List (GameEvent R)), (∀ e ∈ events, e.Admissible) →
    ∀ past t rest, (gameMachine lvl).trace (s.startLevel lvl) events = past ++ t :: rest →
      ∀ fruit ∈ t.after.fruits, fruit.isSliced = false →
        drawOf (past ++ [t]) fruit.id = some draw → fruit.y ≤ 500 →
        0 ≤ fruit.x ∧ fruit.x ≤ 800

private theorem inside_of_confines {lvl : Level R} (hlvl : lvl.Floaty)
    {draw : GameState.FruitDraw R}
    (hdraw : draw.InRange) (hconfines : lvl.Confines draw) {dts : List R}
    (hdts : ∀ dt ∈ dts, 0 ≤ dt ∧ dt ≤ 2.5) {fruit : Fruit R} (h : fruit.Flies lvl draw dts)
    (hy : fruit.y ≤ 500) : 0 ≤ fruit.x ∧ fruit.x ≤ 800 := by
  have htime : 0 ≤ dts.sum := List.sum_nonneg fun dt hdt ↦ (hdts dt hdt).1
  rw [h.across]
  apply (between_sides_iff hdraw htime).mpr
  rcases hconfines with hstill | ⟨hdown, hfalling⟩
  · exact .inl hstill
  · right
    by_contra hlate
    have hcoarse := h.coarseY_le hlvl hdts
    have hsupport : _ ≤ lvl.coarseY draw dts.sum := coarseY_support hlvl draw.sideTime dts.sum
    have hfallen := mul_pos hfalling (sub_pos.mpr (not_le.mp hlate))
    linarith

/-- The fruits launched with some random numbers stay between the sides exactly when these
confine them. -/
theorem staysInside_iff {lvl : Level R} (hlvl : lvl ∈ levels) {draw : GameState.FruitDraw R}
    (hdraw : draw.InRange) : StaysInside lvl draw ↔ lvl.Confines draw := by
  have hfloaty := floaty_of_mem_levels hlvl
  constructor
  · intro h
    by_contra hconfines
    simp only [Level.Confines] at hconfines
    rw [not_or] at hconfines
    have ⟨hdrift, hup⟩ := hconfines
    have ⟨time, hlate, hy⟩ := exists_later_coarseY_le hfloaty hdraw hup
    have htime : 0 ≤ time := (sideTime_nonneg hdraw).trans hlate.le
    obtain ⟨dts, hdts, rfl, hstairs⟩ := exists_coarse_steps frameCap_pos htime
    have hheight : ∀ fruit : Fruit R, fruit.Flies lvl draw dts → fruit.y ≤ 500 := by
      intro fruit hflies
      rw [hflies.y_eq, hstairs]
      exact hy
    have ⟨past, t, htrace, hcarries⟩ := exists_carries hlvl hdraw hdts
      fun fruit hflies ↦ .inl ((hheight fruit hflies).trans (by norm_num))
    have ⟨fruit, hfruit, hid, hwhole⟩ := hcarries.aboard
    have hflies := hcarries.flies hfruit hid hwhole
    have hinside := h GameState.init _ (admissible_flightEvents hdraw hdts) past t [] htrace fruit
      hfruit hwhole (by rw [hid, hcarries.launched]) (hheight fruit hflies)
    rw [hflies.across, between_sides_iff hdraw htime] at hinside
    rcases hinside with hstill | hearly
    · exact hdrift hstill
    · exact absurd hlate hearly.not_gt
  · intro hconfines s events hevents past t rest htrace fruit hfruit hwhole hdraw' hy
    have hlog := (logged_trace lvl s hevents past t rest htrace).log
    have ⟨own, _, hown, hflies⟩ := (hlog.airborne fruit hfruit hwhole).flies
    rw [hdraw'] at hown
    rw [← Option.some.inj hown] at hflies
    exact inside_of_confines hfloaty hdraw hconfines (hlog.steps fruit.id) hflies hy

/-- From the left end of the launches to the right end of the targets, in little time. -/
def sidewaysDraw : GameState.FruitDraw ℚ := ⟨0, 29 / 32, 0, 0, 0, 1 / 2⟩

/-- From the middle to the middle. -/
def uprightDraw : GameState.FruitDraw ℚ := ⟨1 / 2, 1 / 2, 1 / 2, 1 / 2, 1 / 2, 1 / 2⟩

/-- In the first level the upright launch stays between the sides and the sideways one does not. -/
theorem staysInside_iff_firstLevel :
    StaysInside firstLevel uprightDraw ∧ ¬StaysInside firstLevel sidewaysDraw := by
  have hupright : uprightDraw.InRange := by constructor <;> norm_num [uprightDraw]
  have hsideways : sidewaysDraw.InRange := by constructor <;> norm_num [sidewaysDraw]
  constructor
  · apply (staysInside_iff List.mem_cons_self hupright).mpr
    decide +kernel
  · intro h
    have hconfines := (staysInside_iff List.mem_cons_self hsideways).mp h
    revert hconfines
    decide +kernel

/-- The sideways launch leaves the field through the right side high above its bottom. -/
theorem staysInside_fails :
    (∀ e ∈ flightEvents sidewaysDraw (List.replicate 41 2.5), e.Admissible) ∧
      ¬∀ t ∈ (gameMachine firstLevel).trace (GameState.init.startLevel firstLevel)
          (flightEvents sidewaysDraw (List.replicate 41 2.5)),
        ∀ fruit ∈ t.after.fruits, fruit.isSliced = false → fruit.y ≤ 500 →
          0 ≤ fruit.x ∧ fruit.x ≤ 800 := by
  constructor
  · apply admissible_flightEvents
    · constructor <;> norm_num [sidewaysDraw]
    · intro dt hdt
      rw [List.eq_of_mem_replicate hdt]
      norm_num
  · intro hinside
    have hout : ((gameMachine firstLevel).trace (GameState.init.startLevel firstLevel)
        (flightEvents sidewaysDraw (List.replicate 41 2.5))).any (fun t ↦ t.after.fruits.any
          fun fruit ↦ !fruit.isSliced && decide (fruit.y ≤ 136 ∧ 800 < fruit.x)) = true := by
      decide +kernel
    have ⟨t, ht, hfruits⟩ := List.any_eq_true.mp hout
    have ⟨fruit, hfruit, hgone⟩ := List.any_eq_true.mp hfruits
    rw [Bool.and_eq_true, Bool.not_eq_true', decide_eq_true_iff] at hgone
    have ⟨hwhole, hhigh, hright⟩ := hgone
    have hx := (hinside t ht fruit hfruit hwhole (hhigh.trans (by norm_num))).2
    exact absurd hright hx.not_gt

end VisionGame.Game
