import Mathlib.Algebra.BigOperators.Group.List.Lemmas
import Mathlib.Algebra.Order.BigOperators.Group.List
import Mathlib.Algebra.Order.Floor.Ring
import Mathlib.Tactic.FieldSimp
import Mathlib.Tactic.Linarith
import Mathlib.Tactic.Ring

/-!
# Explicit Euler steps of irregular length

Library `Base`. A body under constant acceleration is moved by explicit Euler steps: each step
moves it by the velocity it had before. Its velocity depends on the time that has passed only;
its position also depends on how the time was cut into steps, through the staircase of the
steps, which is twice the area under the time shown at the beginning of each step. Among the
ways to cut a time into steps of at most `cap`, the coarsest one has the lowest staircase; as a
function of the time it is convex, and its support lines bound every flight from below.
-/

namespace VisionGame.Base

/-! ### Steps -/

section
variable {R : Type} [Field R]

/-- One explicit Euler step of a body with a position and a velocity. -/
def eulerStep (accel : R) (body : R × R) (dt : R) : R × R :=
  (body.1 + body.2 * dt, body.2 + accel * dt)

/-- The body after some steps. -/
def euler (accel : R) (body : R × R) (dts : List R) : R × R := dts.foldl (eulerStep accel) body

/-- One more step is taken from where the others have led. -/
theorem euler_concat (accel : R) (body : R × R) (dts : List R) (dt : R) :
    euler accel body (dts ++ [dt]) = eulerStep accel (euler accel body dts) dt := by
  simp only [euler]
  rw [List.foldl_append]
  rfl

/-- Steps of two bodies side by side add up to those of a body that has both accelerations. -/
theorem euler_add (accel accel' : R) (body body' : R × R) (dts : List R) :
    euler (accel + accel') (body + body') dts = euler accel body dts + euler accel' body' dts := by
  induction dts using List.reverseRecOn with
  | nil => rfl
  | append_singleton dts dt ih =>
    rw [euler_concat, euler_concat, euler_concat, ih]
    ext
    · simp only [eulerStep, Prod.fst_add, Prod.snd_add]
      ring
    · simp only [eulerStep, Prod.snd_add]
      ring

/-- Twice the sum of the products of each step with the time before it. -/
def staircase (dts : List R) : R := dts.sum ^ 2 - (dts.map (· ^ 2)).sum

/-- One more step adds its own stair. -/
theorem staircase_concat (dts : List R) (dt : R) :
    staircase (dts ++ [dt]) = staircase dts + 2 * dts.sum * dt := by
  simp only [staircase, List.sum_append, List.map_append, List.map_cons, List.map_nil,
    List.sum_singleton]
  ring

/-- The velocity depends on the time only. -/
theorem euler_velocity (accel : R) (body : R × R) (dts : List R) :
    (euler accel body dts).2 = body.2 + accel * dts.sum := by
  induction dts using List.reverseRecOn with
  | nil => simp [euler]
  | append_singleton dts dt ih =>
    rw [euler_concat, List.sum_append, List.sum_singleton]
    simp only [eulerStep]
    rw [ih]
    ring

/-- The position depends on the time and the staircase. -/
theorem euler_position [NeZero (2 : R)] (accel : R) (body : R × R) (dts : List R) :
    (euler accel body dts).1 =
      body.1 + body.2 * dts.sum + accel * staircase dts / 2 := by
  have htwo : (2 : R) ≠ 0 := NeZero.ne 2
  induction dts using List.reverseRecOn with
  | nil => simp [euler, staircase]
  | append_singleton dts dt ih =>
    rw [euler_concat, List.sum_append, List.sum_singleton, staircase_concat]
    simp only [eulerStep]
    rw [ih, euler_velocity]
    field_simp
    ring

end

/-! ### Staircases -/

section
variable {R : Type} [Field R] [LinearOrder R] [IsStrictOrderedRing R]

/-- No staircase is higher than that of arbitrarily small steps. -/
theorem staircase_le (dts : List R) : staircase dts ≤ dts.sum ^ 2 := by
  have hsquares : 0 ≤ (dts.map (· ^ 2)).sum := by
    apply List.sum_nonneg
    intro x hx
    obtain ⟨dt, _, rfl⟩ := List.mem_map.mp hx
    exact sq_nonneg dt
  simp only [staircase]
  linarith

variable [FloorRing R]

/-- Staircase of a time cut into steps of `cap` and a shorter last one. -/
def coarse (cap time : R) : R := cap * ⌊time / cap⌋ * (2 * time - cap * (⌊time / cap⌋ + 1))

variable {cap : R}

/-- The number of full steps in a time, between its neighbours. -/
theorem floor_steps_bounds (hcap : 0 < cap) (time : R) :
    cap * ⌊time / cap⌋ ≤ time ∧ time < cap * (⌊time / cap⌋ + 1) := by
  have hlow := Int.floor_le (time / cap)
  have hhigh := Int.lt_floor_add_one (time / cap)
  rw [le_div_iff₀ hcap] at hlow
  rw [div_lt_iff₀ hcap] at hhigh
  constructor
  · linarith
  · linarith

/-- Each number of steps gives a line below the coarsest staircase. -/
theorem line_le_coarse (hcap : 0 < cap) (k : ℤ) (time : R) :
    cap * k * (2 * time - cap * (k + 1)) ≤ coarse cap time := by
  have ⟨hlow, hhigh⟩ := floor_steps_bounds hcap time
  simp only [coarse]
  generalize ⌊time / cap⌋ = n at hlow hhigh ⊢
  -- the line and the staircase differ by `n - k` times a factor of the same sign
  suffices hprod : 0 ≤ ((n : R) - k) * (2 * time - cap * (n + k + 1)) by
    have hscaled := mul_nonneg hcap.le hprod
    linarith
  rcases lt_trichotomy k n with hless | heq | hmore
  · have hstep : (k : R) + 1 ≤ n := by exact_mod_cast hless
    have hcapstep : cap * (k + 1) ≤ cap * n := mul_le_mul_of_nonneg_left hstep hcap.le
    apply mul_nonneg
    · linarith
    · linarith
  · rw [heq, sub_self, zero_mul]
  · have hstep : (n : R) + 1 ≤ k := by exact_mod_cast hmore
    have hcapstep : cap * (n + 1) ≤ cap * k := mul_le_mul_of_nonneg_left hstep hcap.le
    apply mul_nonneg_of_nonpos_of_nonpos
    · linarith
    · linarith

/-- From any time on, the coarsest staircase stays above the line it follows there. -/
theorem coarse_support (hcap : 0 < cap) (start time : R) :
    coarse cap start + 2 * (cap * ⌊start / cap⌋) * (time - start) ≤ coarse cap time := by
  have hline := line_le_coarse hcap ⌊start / cap⌋ time
  simp only [coarse] at hline ⊢
  linarith

/-- The coarsest staircase follows its line until the next full step. -/
theorem coarse_segment (hcap : 0 < cap) {start time : R} (hstart : start ≤ time)
    (htime : time < cap * (⌊start / cap⌋ + 1)) :
    coarse cap time = coarse cap start + 2 * (cap * ⌊start / cap⌋) * (time - start) := by
  have ⟨hlow, _⟩ := floor_steps_bounds hcap start
  have hfloor : ⌊time / cap⌋ = ⌊start / cap⌋ := by
    apply Int.floor_eq_iff.mpr
    rw [le_div_iff₀ hcap, div_lt_iff₀ hcap]
    constructor
    · linarith
    · linarith
  simp only [coarse]
  rw [hfloor]
  ring

/-- The coarsest staircase is not higher than that of arbitrarily small steps. -/
theorem coarse_le_sq (hcap : 0 < cap) {time : R} (htime : 0 ≤ time) :
    coarse cap time ≤ time ^ 2 := by
  have ⟨hlow, hhigh⟩ := floor_steps_bounds hcap time
  have hsteps : (0 : R) ≤ ⌊time / cap⌋ := by
    exact_mod_cast Int.floor_nonneg.mpr (div_nonneg htime hcap.le)
  simp only [coarse]
  have hsquare := sq_nonneg (time - cap * ⌊time / cap⌋)
  have hfull := mul_nonneg (mul_nonneg hcap.le hsteps) hcap.le
  linarith

/-- The coarsest staircase lags behind the square of the time by at most `cap` times it. -/
theorem sub_le_coarse (hcap : 0 < cap) (time : R) : time ^ 2 - cap * time ≤ coarse cap time := by
  have ⟨hlow, hhigh⟩ := floor_steps_bounds hcap time
  have hrest := mul_nonneg (sub_nonneg.mpr hlow) (sub_nonneg.mpr hhigh.le)
  simp only [coarse]
  linarith

/-- A step of at most `cap` raises the coarsest staircase by no more than its own. -/
theorem coarse_add_le (hcap : 0 < cap) {time dt : R} (hdt : 0 ≤ dt) (hle : dt ≤ cap) :
    coarse cap (time + dt) ≤ coarse cap time + 2 * time * dt := by
  have ⟨hlow, hhigh⟩ := floor_steps_bounds hcap time
  rcases lt_or_ge (time + dt) (cap * (⌊time / cap⌋ + 1)) with hsame | hnext
  · rw [coarse_segment hcap (le_add_of_nonneg_right hdt) hsame]
    have hslow := mul_le_mul_of_nonneg_right hlow hdt
    linarith
  · have hfloor : ⌊(time + dt) / cap⌋ = ⌊time / cap⌋ + 1 := by
      apply Int.floor_eq_iff.mpr
      rw [le_div_iff₀ hcap, div_lt_iff₀ hcap]
      push_cast
      constructor
      · linarith
      · linarith
    simp only [coarse]
    rw [hfloor]
    push_cast
    have hlag := mul_nonneg (sub_nonneg.mpr hhigh.le) (sub_nonneg.mpr hle)
    linarith

/-- Steps of at most `cap` have a staircase at least as high as the coarsest one. -/
theorem coarse_le_staircase (hcap : 0 < cap) {dts : List R}
    (hdts : ∀ dt ∈ dts, 0 ≤ dt ∧ dt ≤ cap) : coarse cap dts.sum ≤ staircase dts := by
  induction dts using List.reverseRecOn with
  | nil => simp [coarse, staircase]
  | append_singleton dts dt ih =>
    have ⟨hdt, hle⟩ := hdts dt (by simp)
    have hbefore := ih fun x hx ↦ hdts x (List.mem_append_left _ hx)
    have hstep : coarse cap (dts.sum + dt) ≤ _ := coarse_add_le hcap hdt hle
    rw [List.sum_append, List.sum_singleton, staircase_concat]
    linarith

/-- Every time can be cut into steps of at most `cap` with the coarsest staircase. -/
theorem exists_coarse_steps (hcap : 0 < cap) {time : R} (htime : 0 ≤ time) :
    ∃ dts : List R, (∀ dt ∈ dts, 0 ≤ dt ∧ dt ≤ cap) ∧ dts.sum = time ∧
      staircase dts = coarse cap time := by
  have ⟨hlow, hhigh⟩ := floor_steps_bounds hcap time
  have ⟨n, hn⟩ := Int.eq_ofNat_of_zero_le (Int.floor_nonneg.mpr (div_nonneg htime hcap.le))
  have hcast : ((⌊time / cap⌋ : ℤ) : R) = n := by
    rw [hn]
    exact Int.cast_natCast n
  rw [hcast] at hlow hhigh
  refine ⟨List.replicate n cap ++ [time - cap * n], ?_, ?_, ?_⟩
  · intro dt hdt
    rcases List.mem_append.mp hdt with hfull | hlast
    · rw [List.eq_of_mem_replicate hfull]
      exact ⟨hcap.le, le_rfl⟩
    · rw [List.mem_singleton.mp hlast]
      constructor
      · linarith
      · linarith
  · rw [List.sum_append, List.sum_replicate, List.sum_singleton, nsmul_eq_mul]
    ring
  · simp only [staircase, coarse, List.sum_append, List.map_append, List.map_replicate,
      List.map_cons, List.map_nil, List.sum_replicate, List.sum_singleton, nsmul_eq_mul]
    rw [hcast]
    ring

end

end VisionGame.Base
