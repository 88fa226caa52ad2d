import VisionGame.Base.Effect
import VisionGame.Base.Json
import VisionGame.Base.Signal
import VisionGame.Vision.OneEuroFilter

/-!
# The mouse and keyboard controller

Library `Vision`. `src/mediapipe/pc_controller.py`. Each method reads one clock value, may
change the controller and sends events to the operating system; it is a function to the new
controller and the events in the order they are sent.
-/

namespace VisionGame.Vision
open VisionGame.Base

/-- Errors the modelled Python code can raise. -/
inductive PyError where
  | typeError
  | overflowError
  | attributeError
  | lookupError
  | valueError
  | zeroDivisionError
  deriving DecidableEq, Repr

/-- Events sent to the operating system: the four `mouse_event` flags of
`pc_controller.py:7–10`, `SetCursorPos` and `pyautogui.hotkey`. -/
inductive OsEvent where
  | leftDown
  | leftUp
  | rightDown
  | rightUp
  | setCursorPos (x y : ℤ)
  | hotkey (keys : List String)
  deriving DecidableEq, Repr

/-- Edge of the left button that an event is, if it is one. -/
@[simp] def OsEvent.leftEdge : OsEvent → Option Edge
  | leftDown => some .press
  | leftUp => some .release
  | _ => none

/-- Left-button edges among some events, in order. -/
def leftEdges (es : List OsEvent) : List Edge := es.filterMap OsEvent.leftEdge

/-- No events, no edges. -/
@[simp] theorem leftEdges_nil : leftEdges [] = [] := rfl

/-- The first event gives its edge, if it has one. -/
@[simp] theorem leftEdges_cons (e : OsEvent) (es : List OsEvent) :
    leftEdges (e :: es) = e.leftEdge.toList ++ leftEdges es := by
  cases h : e.leftEdge <;> (rw [leftEdges, List.filterMap_cons, h]; rfl)

/-- Edges of two stretches follow each other. -/
@[simp] theorem leftEdges_append (es fs : List OsEvent) :
    leftEdges (es ++ fs) = leftEdges es ++ leftEdges fs :=
  List.filterMap_append

/-- Controller state; `pc_controller.py:13–39`. `suavidad` is whatever the settings hold. -/
structure PCController (R : Type) where
  screenWidth : ℤ
  screenHeight : ℤ
  suavidad : Json R
  filterX : OneEuroFilter R
  filterY : OneEuroFilter R
  lastSwipeTime : R
  lastClickTime : R
  lastRightClickTime : R
  lastClickFreezeTime : R
  isDragging : Bool

variable {R : Type} [Scalar R]

/-- The conversion in `value / 10.0`. -/
def toFloat {σ : Type} (value : Json R) : Effect PyError σ R := do
  let x ← Effect.orRaise .typeError value.asNumber
  if |x| < (Json.floatLimit : R) then return x
  else throw .overflowError

/-- A number that a float holds is converted. -/
theorem exec_toFloat_some {σ : Type} {value : Json R} {x : R} (h : value.asFloat = some x)
    (s : σ) : Effect.exec (toFloat value) s = (.ok x, s) := by
  have hlimit := of_decide_eq_true (Option.filter_eq_some_iff.mp h).2
  unfold toFloat
  rw [Effect.exec_bind, Json.asNumber_of_asFloat h, Effect.exec_orRaise_some]
  dsimp only
  rw [if_pos hlimit, Effect.exec_pure]

/-- Any other value raises. -/
theorem exec_toFloat_none {σ : Type} {value : Json R} (h : value.asFloat = none) (s : σ) :
    ∃ e, Effect.exec (toFloat value) s = (.error e, s) ∧ (e = .typeError ∨ e = .overflowError) := by
  unfold toFloat
  rw [Effect.exec_bind]
  cases hv : value.asNumber with
  | none => exact ⟨.typeError, rfl, .inl rfl⟩
  | some x =>
    rw [Effect.exec_orRaise_some]
    dsimp only
    have hlimit : ¬ |x| < (Json.floatLimit : R) := by
      intro hlt
      unfold Json.asFloat at h
      rw [hv, Option.filter_some, decide_eq_true hlt] at h
      cases h
    rw [if_neg hlimit, Effect.exec_throw]
    exact ⟨.overflowError, rfl, .inr rfl⟩

/-- A conversion changes nothing. -/
theorem respects_toFloat {σ : Type} {r : σ → σ → Prop} [Std.Refl r] [IsTrans σ r]
    (value : Json R) : Effect.Respects r (toFloat value) := by
  unfold toFloat
  refine Effect.respects_bind (Effect.respects_orRaise _ _) fun x ↦ ?_
  split
  · exact Effect.respects_pure _
  · exact Effect.respects_throw _

namespace PCController

/-- Filters of a smoothing; `pc_controller.py:46–51`. -/
def setFilters (suavidad : R) (self : PCController R) : PCController R :=
  let minCutoff := max 0.02 (1.8 - (suavidad / 10) * 1.7)
  let beta := max 0.001 (0.035 - (suavidad / 10) * 0.030)
  { self with filterX := .init minCutoff beta 1, filterY := .init minCutoff beta 1 }

/-- `pc_controller.py:41–51`. The setting is stored before it is used, so a value that cannot be
divided raises after `self.suavidad` has changed. -/
def updateFilterParams (suavidad : Json R) : Effect PyError (PCController R) Unit := do
  modify fun self ↦ { self with suavidad := suavidad }
  let s ← toFloat suavidad
  modify (setFilters s)

/-- Fresh controller before its filter parameters are set; `pc_controller.py:13–39`. -/
def blank (screenWidth screenHeight : ℤ) : PCController R where
  screenWidth := screenWidth
  screenHeight := screenHeight
  suavidad := .null
  filterX := .init 0 0 0
  filterY := .init 0 0 0
  lastSwipeTime := 0
  lastClickTime := 0
  lastRightClickTime := 0
  lastClickFreezeTime := 0
  isDragging := false

/-- `pc_controller.py:53–75`. -/
def moveMouse (self : PCController R) (normX normY now : R) : PCController R × List OsEvent :=
  if 0 < self.lastClickFreezeTime ∧ now - self.lastClickFreezeTime < 0.25 then (self, [])
  else
    let targetX := normX * self.screenWidth
    let targetY := normY * self.screenHeight
    let smoothX := self.filterX.filter targetX now
    let smoothY := self.filterY.filter targetY now
    let finalX := max 0 (min (self.screenWidth - 1) (Scalar.toInt smoothX.1))
    let finalY := max 0 (min (self.screenHeight - 1) (Scalar.toInt smoothY.1))
    ({ self with filterX := smoothX.2, filterY := smoothY.2 }, [.setCursorPos finalX finalY])

/-- `pc_controller.py:77–90`. -/
def click (self : PCController R) (freeze : Bool) (debounceTime now : R) :
    PCController R × List OsEvent :=
  if now - self.lastClickTime > debounceTime then
    ({ self with lastClickTime := now, lastClickFreezeTime := if freeze then now else 0 },
      [.leftDown, .leftUp])
  else (self, [])

/-- `pc_controller.py:92–101`. -/
def rightClick (self : PCController R) (now : R) : PCController R × List OsEvent :=
  if now - self.lastRightClickTime > 0.4 then
    ({ self with lastRightClickTime := now, lastClickFreezeTime := now },
      [.rightDown, .rightUp])
  else (self, [])

/-- `pc_controller.py:103–108`. -/
def dragStart (self : PCController R) : PCController R × List OsEvent :=
  if self.isDragging then (self, []) else ({ self with isDragging := true }, [.leftDown])

/-- `pc_controller.py:110–115`. -/
def dragStop (self : PCController R) : PCController R × List OsEvent :=
  if self.isDragging then ({ self with isDragging := false }, [.leftUp]) else (self, [])

/-- The limiter shared by `swipe_left` and `swipe_right`; `pc_controller.py:117–133`. -/
def swipe (keys : List String) (self : PCController R) (now : R) :
    PCController R × List OsEvent :=
  if now - self.lastSwipeTime > 0.8 then
    ({ self with lastSwipeTime := now }, [.hotkey keys])
  else (self, [])

/-- `pc_controller.py:117–124`. -/
def swipeLeft (self : PCController R) (now : R) : PCController R × List OsEvent :=
  swipe ["win", "ctrl", "left"] self now

/-- `pc_controller.py:126–133`. -/
def swipeRight (self : PCController R) (now : R) : PCController R × List OsEvent :=
  swipe ["win", "ctrl", "right"] self now

/-! ### What each method sends and keeps -/

/-- At most one cursor move. -/
def IsCursor (es : List OsEvent) : Prop := es = [] ∨ ∃ x y, es = [.setCursorPos x y]

/-- At most one full left click. -/
def IsClick (es : List OsEvent) : Prop := es = [] ∨ es = [.leftDown, .leftUp]

/-- The click would pass its limiter. -/
def clickDue (self : PCController R) (debounceTime now : R) : Bool :=
  now - self.lastClickTime > debounceTime

/-- The part of a controller that neither the filter parameters nor a cursor move touch. -/
def buttons (self : PCController R) : Bool × R × R × R × R :=
  (self.isDragging, self.lastClickTime, self.lastRightClickTime, self.lastSwipeTime,
    self.lastClickFreezeTime)

/-- A cursor move has no edge. -/
theorem leftEdges_of_isCursor {es : List OsEvent} (h : IsCursor es) : leftEdges es = [] := by
  rcases h with rfl | ⟨x, y, rfl⟩ <;> rfl

/-- A number that a float holds sets the filters. -/
theorem exec_updateFilterParams_some (self : PCController R) {v : Json R} {x : R}
    (h : v.asFloat = some x) :
    Effect.exec (updateFilterParams v) self =
      (.ok (), { self with suavidad := v }.setFilters x) := by
  unfold updateFilterParams
  rw [Effect.exec_bind_modify, Effect.exec_bind_ok (exec_toFloat_some h _), Effect.exec_modify]

/-- Any other value is stored, and raises. -/
theorem exec_updateFilterParams_none (self : PCController R) {v : Json R} (h : v.asFloat = none) :
    ∃ e, Effect.exec (updateFilterParams v) self = (.error e, { self with suavidad := v }) ∧
      (e = .typeError ∨ e = .overflowError) := by
  obtain ⟨e, hexec, he⟩ := exec_toFloat_none h { self with suavidad := v }
  refine ⟨e, ?_, he⟩
  unfold updateFilterParams
  rw [Effect.exec_bind_modify, Effect.exec_bind_error hexec]

/-- Setting the filters succeeds with a number that a float holds, and leaves the buttons alone. -/
theorem exec_updateFilterParams (self : PCController R) (v : Json R) :
    ((Effect.exec (updateFilterParams v) self).1 = .ok () ↔ v.asFloat.isSome) ∧
      (Effect.exec (updateFilterParams v) self).2.buttons = self.buttons := by
  cases h : v.asFloat with
  | some x =>
    rw [exec_updateFilterParams_some self h]
    exact ⟨by simp, rfl⟩
  | none =>
    obtain ⟨e, hexec, _⟩ := exec_updateFilterParams_none self h
    rw [hexec]
    exact ⟨by simp, rfl⟩

/-- The only errors of setting the filters are those of a value that cannot be converted. -/
theorem exec_updateFilterParams_error (self : PCController R) {v : Json R} {e : PyError}
    (h : (Effect.exec (updateFilterParams v) self).1 = .error e) :
    e = .typeError ∨ e = .overflowError := by
  cases hv : v.asFloat with
  | some x =>
    rw [exec_updateFilterParams_some self hv] at h
    cases h
  | none =>
    obtain ⟨e', hexec, he⟩ := exec_updateFilterParams_none self hv
    rw [hexec] at h
    cases h
    exact he

/-- A cursor move leaves buttons and timers alone. -/
theorem moveMouse_buttons (self : PCController R) (x y now : R) :
    (self.moveMouse x y now).1.buttons = self.buttons := by
  simp only [moveMouse]
  split <;> rfl

/-- It goes on with a drag. -/
theorem moveMouse_isDragging (self : PCController R) (x y now : R) :
    (self.moveMouse x y now).1.isDragging = self.isDragging :=
  congrArg Prod.fst (self.moveMouse_buttons x y now)

/-- It is no click. -/
theorem moveMouse_lastClickTime (self : PCController R) (x y now : R) :
    (self.moveMouse x y now).1.lastClickTime = self.lastClickTime :=
  congrArg (·.2.1) (self.moveMouse_buttons x y now)

/-- It sends at most one position. -/
theorem moveMouse_isCursor (self : PCController R) (x y now : R) :
    IsCursor (self.moveMouse x y now).2 := by
  simp only [moveMouse]
  split
  · exact Or.inl rfl
  · exact Or.inr ⟨_, _, rfl⟩

/-- The limiter decides whether a click sends both edges or nothing. -/
theorem click_events (self : PCController R) (freeze : Bool) (debounce now : R) :
    (self.click freeze debounce now).2 =
      if self.clickDue debounce now then [.leftDown, .leftUp] else [] := by
  unfold click clickDue
  split <;> simp [*]

/-- A click goes on with a drag. -/
theorem click_isDragging (self : PCController R) (freeze : Bool) (debounce now : R) :
    (self.click freeze debounce now).1.isDragging = self.isDragging := by
  simp only [click]
  split <;> rfl

/-- So does a right click. -/
theorem rightClick_isDragging (self : PCController R) (now : R) :
    (self.rightClick now).1.isDragging = self.isDragging := by
  simp only [rightClick]
  split <;> rfl

/-- A right click is sent as a whole or not at all. -/
theorem rightClick_events (self : PCController R) (now : R) :
    (self.rightClick now).2 = [] ∨ (self.rightClick now).2 = [.rightDown, .rightUp] := by
  simp only [rightClick]
  split
  · exact Or.inr rfl
  · exact Or.inl rfl

/-- A swipe goes on with a drag. -/
theorem swipe_isDragging (keys : List String) (self : PCController R) (now : R) :
    (swipe keys self now).1.isDragging = self.isDragging := by
  simp only [swipe]
  split <;> rfl

/-- A swipe sends at most one hotkey. -/
theorem swipe_events (keys : List String) (self : PCController R) (now : R) :
    (swipe keys self now).2 = [] ∨ ∃ keys', (swipe keys self now).2 = [.hotkey keys'] := by
  simp only [swipe]
  split
  · exact Or.inr ⟨keys, rfl⟩
  · exact Or.inl rfl

omit [Scalar R] in
/-- After its start a drag is in progress. -/
theorem dragStart_isDragging (self : PCController R) : self.dragStart.1.isDragging = true := by
  simp only [dragStart]
  split <;> simp [*]

omit [Scalar R] in
/-- The button is pressed unless a drag is in progress. -/
theorem dragStart_events (self : PCController R) :
    self.dragStart.2 = if self.isDragging then [] else [.leftDown] := by
  simp only [dragStart]
  split <;> rfl

omit [Scalar R] in
/-- After its end no drag is in progress. -/
theorem dragStop_isDragging (self : PCController R) : self.dragStop.1.isDragging = false := by
  simp only [dragStop]
  split <;> simp [*]

omit [Scalar R] in
/-- The button is released if a drag is in progress. -/
theorem dragStop_events (self : PCController R) :
    self.dragStop.2 = if self.isDragging then [.leftUp] else [] := by
  simp only [dragStop]
  split <;> rfl

end PCController
end VisionGame.Vision
