import VisionGame.Base.Machine
import VisionGame.Vision.FilterSpec

/-!
# The path of the cursor

Library `Vision`. `src/mediapipe/pc_controller.py:13–101`. Runs of the calls that touch the
cursor, with any clock readings. Each coordinate is filtered on its own; the invariant ties the
last output of its filter to the calls made so far and keeps it on the screen, so that the
clamp matters at the far edge only.
-/

namespace VisionGame.Vision
open VisionGame.Base

variable {R : Type} [Scalar R]

/-! ### Calls -/

/-- Call of the controller that concerns the cursor. -/
inductive CursorCall (R : Type) where
  | updateFilterParams (suavidad : R)
  | click (freeze : Bool) (debounceTime now : R)
  | rightClick (now : R)
  | moveMouse (normX normY now : R)

/-- The position of a move lies in the unit square. -/
def CursorCall.InUnit : CursorCall R → Prop
  | .moveMouse normX normY _ => normX ∈ Set.Icc (0 : R) 1 ∧ normY ∈ Set.Icc (0 : R) 1
  | _ => True

/-- A call between the controllers before and after it. -/
structure CursorTurn (R : Type) where
  call : CursorCall R
  before : PCController R
  after : PCController R
  sent : List OsEvent
  /-- Outputs of the two filters, if they are called. -/
  smooth : Option (R × R)

namespace PCController

/-- The filters are set from a number; `pc_controller.py:41–51`. -/
def withSuavidad (suavidad : R) (self : PCController R) : PCController R :=
  { self with suavidad := .num suavidad }.setFilters suavidad

/-- A controller is constructed; `pc_controller.py:13–39`. -/
def construct (screenWidth screenHeight : ℤ) (suavidad : R) : PCController R :=
  (blank screenWidth screenHeight).withSuavidad suavidad

/-- A click holds the cursor; `pc_controller.py:59–60`. -/
def isFrozen (self : PCController R) (now : R) : Bool :=
  0 < self.lastClickFreezeTime && now - self.lastClickFreezeTime < 0.25

/-- Outputs of the two filters in a move; `pc_controller.py:59–68`. -/
def smoothed (self : PCController R) (normX normY now : R) : Option (R × R) :=
  if self.isFrozen now then none
  else some ((self.filterX.filter (normX * self.screenWidth) now).1,
    (self.filterY.filter (normY * self.screenHeight) now).1)

/-- One call. -/
def serve (self : PCController R) : CursorCall R → PCController R × List OsEvent
  | .updateFilterParams suavidad => (self.withSuavidad suavidad, [])
  | .click freeze debounceTime now => self.click freeze debounceTime now
  | .rightClick now => self.rightClick now
  | .moveMouse normX normY now => self.moveMouse normX normY now

/-- Outputs of the two filters in a call. -/
def smoothedBy (self : PCController R) : CursorCall R → Option (R × R)
  | .moveMouse normX normY now => self.smoothed normX normY now
  | _ => none

end PCController

/-- The controller as a machine. -/
def cursorMachine : Machine (PCController R) (CursorCall R) (CursorTurn R) where
  step self call := ⟨call, self, (self.serve call).1, (self.serve call).2, self.smoothedBy call⟩
  next t := some t.after

/-- The last outputs since the filters were reset, after one more call. -/
def CursorTurn.lastSmooth (last : Option (R × R)) (t : CursorTurn R) : Option (R × R) :=
  match t.call with
  | .updateFilterParams _ => none
  | _ => t.smooth.or last

/-- The last outputs since the filters were reset. -/
def lastSmooth (past : List (CursorTurn R)) : Option (R × R) :=
  past.foldl CursorTurn.lastSmooth none

/-! ### One coordinate -/

/-- One coordinate of a move: its filter does not divide by zero, its output lies between the
last output and the target, and is the target after a reset; it lies on the screen, and the
position that is sent differs from its floor at the far edge only. -/
structure CoordinateSafe (size : ℤ) (f : OneEuroFilter R) (last : Option R) (target now : R)
    (final : ℤ) : Prop where
  noZeroDivision : f.filterChecked target now = .ok (f.filter target now)
  onSegment : ∀ p, last = some p → (f.filter target now).1 ∈ Set.uIcc p target
  fresh : last = none → (f.filter target now).1 = target
  onScreen : (f.filter target now).1 ∈ Set.Icc (0 : R) size
  clamp : final ≠ ⌊(f.filter target now).1⌋ → ⌊(f.filter target now).1⌋ = size

/-- The filter of a coordinate is tuned, and its last output lies on the screen. -/
structure Follows (size : ℤ) (f : OneEuroFilter R) (last : Option R) : Prop where
  tuned : f.Tuned
  lastOutput : f.last = last
  onScreen : ∀ p, last = some p → p ∈ Set.Icc (0 : R) size

section
variable (hpi : 0 < (Scalar.pi : R)) {size : ℤ} {f : OneEuroFilter R} {last : Option R}
  (h : Follows size f last) {target : R} (htarget : target ∈ Set.Icc (0 : R) size)
include hpi h htarget

/-- An output lies on the screen. -/
theorem Follows.output_mem (now : R) : (f.filter target now).1 ∈ Set.Icc (0 : R) size := by
  cases hl : last with
  | none =>
    rw [OneEuroFilter.filter_of_last_eq_none (h.lastOutput.trans hl)]
    exact htarget
  | some p =>
    have hmem := OneEuroFilter.filter_mem_uIcc hpi h.tuned (h.lastOutput.trans hl) target now
    exact Set.uIcc_subset_Icc (h.onScreen p hl) htarget hmem

private theorem Follows.filter (now : R) :
    Follows size (f.filter target now).2 (some (f.filter target now).1) := by
  have ⟨htuned, hlast⟩ := f.filter_keeps target now
  constructor
  · exact htuned h.tuned
  · exact hlast
  · intro p hp
    rw [← Option.some.inj hp]
    exact h.output_mem hpi htarget now

private theorem Follows.coordinateSafe (now : R) :
    CoordinateSafe size f last target now
      (max 0 (min (size - 1) (Scalar.toInt (f.filter target now).1))) := by
  have hmem := h.output_mem hpi htarget now
  constructor
  · exact OneEuroFilter.filterChecked_ok hpi h.tuned target now
  · intro p hp
    exact OneEuroFilter.filter_mem_uIcc hpi h.tuned (h.lastOutput.trans hp) target now
  · intro hnone
    exact OneEuroFilter.filter_of_last_eq_none (h.lastOutput.trans hnone) target now
  · exact hmem
  · intro hne
    have hfloor : Scalar.toInt (f.filter target now).1 = ⌊(f.filter target now).1⌋ :=
      if_pos hmem.1
    have hnonneg : 0 ≤ ⌊(f.filter target now).1⌋ := Int.floor_nonneg.mpr hmem.1
    have hle : ⌊(f.filter target now).1⌋ ≤ size := Int.floor_le_iff.mpr (hmem.2.trans_lt (by simp))
    rw [hfloor] at hne
    omega

end

/-! ### Runs -/

namespace PCController

/-- A frozen move does nothing. -/
theorem moveMouse_of_frozen {self : PCController R} {now : R} (h : self.isFrozen now = true)
    (normX normY : R) : self.moveMouse normX normY now = (self, []) := by
  simp only [isFrozen, Bool.and_eq_true, decide_eq_true_eq] at h
  simp only [moveMouse, if_pos h]

/-- A move that is not frozen runs both filters and sends the clamped outputs. -/
theorem moveMouse_of_not_frozen {self : PCController R} {now : R} (h : self.isFrozen now = false)
    (normX normY : R) :
    self.moveMouse normX normY now =
      ({ self with
          filterX := (self.filterX.filter (normX * self.screenWidth) now).2
          filterY := (self.filterY.filter (normY * self.screenHeight) now).2 },
        [.setCursorPos
          (max 0 (min (self.screenWidth - 1)
            (Scalar.toInt (self.filterX.filter (normX * self.screenWidth) now).1)))
          (max 0 (min (self.screenHeight - 1)
            (Scalar.toInt (self.filterY.filter (normY * self.screenHeight) now).1)))]) := by
  simp only [isFrozen, Bool.and_eq_false_imp, decide_eq_true_eq, decide_eq_false_iff_not] at h
  simp only [moveMouse, if_neg fun hboth : _ ∧ _ ↦ h hboth.1 hboth.2]

/-- A number resets both filters. -/
theorem serve_updateFilterParams (self : PCController R) (suavidad : R) :
    (self.serve (.updateFilterParams suavidad)).1 =
      { self with
        suavidad := .num suavidad
        filterX := .init (max 0.02 (1.8 - (suavidad / 10) * 1.7))
          (max 0.001 (0.035 - (suavidad / 10) * 0.030)) 1
        filterY := .init (max 0.02 (1.8 - (suavidad / 10) * 1.7))
          (max 0.001 (0.035 - (suavidad / 10) * 0.030)) 1 } := rfl

/-- What the method does with a number that a float holds. -/
theorem exec_updateFilterParams_num (self : PCController R) {suavidad : R}
    (h : |suavidad| < (Json.floatLimit : R)) :
    Effect.exec (updateFilterParams (.num suavidad)) self =
      (.ok (), self.withSuavidad suavidad) :=
  exec_updateFilterParams_some self (Json.asFloat_num h)

end PCController

/-- A filter that is reset follows nothing. -/
theorem follows_init (size : ℤ) (suavidad : R) :
    Follows size (.init (max 0.02 (1.8 - (suavidad / 10) * 1.7))
      (max 0.001 (0.035 - (suavidad / 10) * 0.030)) 1) none := by
  constructor
  · constructor
    · exact lt_max_of_lt_left (by norm_num)
    · exact le_max_of_le_left (by norm_num)
    · exact one_pos
  · rfl
  · intro p hp
    cases hp

/-- The controller of a screen whose filters follow the last outputs. -/
structure Steers (W H : ℤ) (last : Option (R × R)) (c : PCController R) : Prop where
  width : c.screenWidth = W
  height : c.screenHeight = H
  followsX : Follows W c.filterX (last.map Prod.fst)
  followsY : Follows H c.filterY (last.map Prod.snd)

/-- A move that is not frozen sends one position, safe in both coordinates; a frozen one sends
nothing. -/
def CursorTurn.PathSafe (W H : ℤ) (last : Option (R × R)) (t : CursorTurn R) : Prop :=
  ∀ normX normY now, t.call = .moveMouse normX normY now →
    if t.before.isFrozen now then t.sent = []
    else
      ∃ x y, t.sent = [.setCursorPos x y] ∧
        CoordinateSafe W t.before.filterX (last.map Prod.fst) (normX * W) now x ∧
        CoordinateSafe H t.before.filterY (last.map Prod.snd) (normY * H) now y

private theorem target_mem {size : ℤ} (hsize : 1 ≤ size) {norm : R}
    (h : norm ∈ Set.Icc (0 : R) 1) : norm * size ∈ Set.Icc (0 : R) size := by
  have hpos : (0 : R) ≤ size := by exact_mod_cast zero_le_one.trans hsize
  exact ⟨mul_nonneg h.1 hpos, mul_le_of_le_one_left hpos h.2⟩

section
variable (hpi : 0 < (Scalar.pi : R)) {W H : ℤ} (hW : 1 ≤ W) (hH : 1 ≤ H)
  {last : Option (R × R)} {self : PCController R} (h : Steers W H last self)
include hpi hW hH h

/-- A call is safe. -/
theorem pathSafe_step {call : CursorCall R} (hcall : call.InUnit) :
    (cursorMachine.step self call).PathSafe W H last := by
  intro normX normY now hmove
  change call = _ at hmove
  subst hmove
  change if self.isFrozen now then (self.moveMouse normX normY now).2 = [] else
    ∃ x y, (self.moveMouse normX normY now).2 = [.setCursorPos x y] ∧ _
  cases hfrozen : self.isFrozen now with
  | true => rw [PCController.moveMouse_of_frozen hfrozen, if_pos rfl]
  | false =>
    rw [PCController.moveMouse_of_not_frozen hfrozen, if_neg Bool.false_ne_true, h.width, h.height]
    exact ⟨_, _, rfl, h.followsX.coordinateSafe hpi (target_mem hW hcall.1) now,
      h.followsY.coordinateSafe hpi (target_mem hH hcall.2) now⟩

/-- A call leaves filters that follow the last outputs. -/
theorem steers_step {call : CursorCall R} (hcall : call.InUnit) :
    Steers W H ((cursorMachine.step self call).lastSmooth last) (self.serve call).1 := by
  cases call with
  | updateFilterParams suavidad =>
    rw [PCController.serve_updateFilterParams]
    exact ⟨h.width, h.height, follows_init W suavidad, follows_init H suavidad⟩
  | click freeze debounceTime now =>
    simp only [PCController.serve, PCController.click]
    split
    · exact ⟨h.width, h.height, h.followsX, h.followsY⟩
    · exact h
  | rightClick now =>
    simp only [PCController.serve, PCController.rightClick]
    split
    · exact ⟨h.width, h.height, h.followsX, h.followsY⟩
    · exact h
  | moveMouse normX normY now =>
    change Steers W H ((self.smoothed normX normY now).or last) (self.moveMouse normX normY now).1
    cases hfrozen : self.isFrozen now with
    | true =>
      rw [PCController.moveMouse_of_frozen hfrozen, PCController.smoothed, if_pos hfrozen]
      exact h
    | false =>
      rw [PCController.moveMouse_of_not_frozen hfrozen, PCController.smoothed, hfrozen,
        if_neg Bool.false_ne_true, h.width, h.height]
      exact ⟨rfl, rfl, h.followsX.filter hpi (target_mem hW hcall.1) now,
        h.followsY.filter hpi (target_mem hH hcall.2) now⟩

end

/-- On every screen, after any calls that move the cursor within the unit square, a cursor move
does not divide by zero, does not overshoot, stays on the screen and is clamped at the far edge
only. -/
theorem cursor_path_safe (hpi : 0 < (Scalar.pi : R)) {W H : ℤ} (hW : 1 ≤ W) (hH : 1 ≤ H)
    (suavidad : R) {calls : List (CursorCall R)} (hcalls : ∀ call ∈ calls, call.InUnit) :
    ∀ pre t post, cursorMachine.trace (.construct W H suavidad) calls = pre ++ t :: post →
      t.PathSafe W H (lastSmooth pre) := by
  apply cursorMachine.split_forall (I := fun pre self ↦ Steers W H (lastSmooth pre) self)
    (P := fun pre t ↦ t.PathSafe W H (lastSmooth pre)) calls
  · intro pre self call hmem hs
    exact pathSafe_step hpi hW hH hs (hcalls call hmem)
  · intro pre self call hmem next hs hnext
    have hlast : lastSmooth (pre ++ [cursorMachine.step self call]) =
        (cursorMachine.step self call).lastSmooth (lastSmooth pre) := by
      simp only [lastSmooth, List.foldl_append, List.foldl_cons, List.foldl_nil]
    rw [← Option.some.inj hnext, hlast]
    exact steers_step hpi hW hH hs (hcalls call hmem)
  · change Steers W H none ((PCController.blank W H).serve (.updateFilterParams suavidad)).1
    rw [PCController.serve_updateFilterParams]
    exact ⟨rfl, rfl, follows_init W suavidad, follows_init H suavidad⟩

/-- The cursor moves to a corner, is held by a click, and moves back on a clock that jumps. -/
def cornerAndBack : List (CursorCall ℚ) :=
  [.moveMouse (1 / 2) (1 / 2) 1, .moveMouse 1 1 2, .click true 0.3 3, .moveMouse 0 0 3.1,
    .moveMouse 0 0 4, .moveMouse 0 0 3.5]

/-- The move back sends a position, and is safe. -/
theorem cursor_path_safe_cornerAndBack :
    ∃ pre t, cursorMachine.trace (.construct 4 3 5) cornerAndBack = pre ++ [t] ∧ t.sent ≠ [] ∧
      t.PathSafe 4 3 (lastSmooth pre) := by
  have hsplit : ∃ pre t, cursorMachine.trace (.construct 4 3 5) cornerAndBack = pre ++ [t] ∧
      t.sent ≠ [] := by
    refine ⟨[_, _, _, _, _], _, rfl, ?_⟩
    decide +kernel
  have ⟨pre, t, htrace, hsent⟩ := hsplit
  have hpi : (0 : ℚ) < Scalar.pi := by
    change (0 : ℚ) < 355 / 113
    norm_num
  have hunit : ∀ call ∈ cornerAndBack, call.InUnit := by
    simp only [cornerAndBack, List.forall_mem_cons, CursorCall.InUnit, Set.mem_Icc]
    norm_num
  exact ⟨pre, t, htrace, hsent,
    cursor_path_safe hpi (by decide) (by decide) 5 hunit pre t [] htrace⟩

end VisionGame.Vision
