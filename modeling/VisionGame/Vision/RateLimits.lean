import VisionGame.Base.Window
import VisionGame.Vision.CursorPath
import VisionGame.Vision.Loop

/-!
# Rate limits and the click freeze

Library `Vision`. `src/mediapipe/pc_controller.py:30–133`,
`src/mediapipe/app_gestures.py:328–337`. The clicks, the swipes and the log each keep the time of
the last call that took effect. Every limiter is greedy on its own calls, whatever calls come in
between and whichever way the clock goes; the freeze follows the last click of either button that
took effect.
-/

namespace VisionGame.Vision
open VisionGame.Base

/-! ### Calls -/

/-- Call that is limited in rate, or suppressed by a freeze. -/
inductive LimitedCall (R : Type) where
  | click (freeze : Bool) (debounceTime now : R)
  | rightClick (now : R)
  | swipeLeft (now : R)
  | swipeRight (now : R)
  | moveMouse (normX normY now : R)
  | logGestureEvent (gesture : Gesture) (action : Action) (now : R)

/-- Limiters: both swipes share one, and each pair of gesture and action has its own, because
its key is its own. -/
inductive Limiter where
  | click
  | rightClick
  | swipe
  | log (gesture : Gesture) (action : Action)
  deriving DecidableEq

/-- Key of a pair in the dictionary of the log; `app_gestures.py:334`. -/
def logKey (gesture : Gesture) (action : Action) : String := gesture.name ++ ":" ++ action.name

/-- Gestures have different names. -/
theorem Gesture.name_injective : Function.Injective Gesture.name := by
  intro g h heq
  cases g <;> cases h <;> first | rfl | exact absurd heq (by decide)

/-- Actions have different names. -/
theorem Action.name_injective : Function.Injective Action.name := by
  intro a b heq
  cases a <;> cases b <;> first | rfl | exact absurd heq (by decide)

/-- Pairs with the same key are the same: no name holds a colon. -/
theorem logKey_inj {g h : Gesture} {a b : Action} (heq : logKey g a = logKey h b) :
    g = h ∧ a = b := by
  have hgesture : ':' ∉ g.name.toList := by cases g <;> decide
  have haction : ':' ∉ a.name.toList := by cases a <;> decide
  have hlist : g.name.toList ++ ':' :: a.name.toList = h.name.toList ++ ':' :: b.name.toList := by
    have htext := congrArg String.toList heq
    simpa [logKey, String.toList_append] using htext
  have ⟨hname, _, hrest⟩ := (List.append_cons_inj_of_notMem hgesture haction).mp hlist
  exact ⟨Gesture.name_injective (String.toList_inj.mp hname),
    Action.name_injective (String.toList_inj.mp hrest)⟩

namespace LimitedCall

variable {R : Type}

/-- Clock reading of the call. -/
def now : LimitedCall R → R
  | click _ _ now => now
  | rightClick now => now
  | swipeLeft now => now
  | swipeRight now => now
  | moveMouse _ _ now => now
  | logGestureEvent _ _ now => now

/-- Limiter of the call; a cursor move has none. -/
def limiter : LimitedCall R → Option Limiter
  | click .. => some .click
  | rightClick _ => some .rightClick
  | swipeLeft _ => some .swipe
  | swipeRight _ => some .swipe
  | moveMouse .. => none
  | logGestureEvent gesture action _ => some (.log gesture action)

/-- The call is a click of one of the buttons. -/
def isClick : LimitedCall R → Bool
  | click .. => true
  | rightClick _ => true
  | _ => false

/-- The click freezes the cursor: a right click always does. -/
def freezes : LimitedCall R → Bool
  | click freeze _ _ => freeze
  | rightClick _ => true
  | _ => false

private theorem isClick_of_limiter_eq_none {call : LimitedCall R} (h : call.limiter = none) :
    call.isClick = false := by
  cases call with
  | moveMouse normX normY now => rfl
  | _ => cases h

/-- Interval that the call asks for. -/
def interval [Scalar R] : LimitedCall R → R
  | click _ debounceTime _ => debounceTime
  | rightClick _ => 0.4
  | swipeLeft _ => 0.8
  | swipeRight _ => 0.8
  | moveMouse .. => 0
  | logGestureEvent .. => 0.6

end LimitedCall

/-- Controller and log. -/
structure Limits (R : Type) where
  controller : PCController R
  log : GestureLog R

/-- A call between the states before and after it, with the events it sends. -/
structure LimitedTurn (R : Type) where
  call : LimitedCall R
  before : Limits R
  after : Limits R
  sent : List OsEvent

/-- The call sent or queued something. -/
def LimitedTurn.effective {R : Type} (t : LimitedTurn R) : Bool :=
  !t.sent.isEmpty || t.before.log.queue.length < t.after.log.queue.length

variable {R : Type} [Scalar R]

namespace Limits

/-- Fresh controller and log; `pc_controller.py:13–39` and `app_gestures.py:326–332`. -/
def init (screenWidth screenHeight : ℤ) (suavidad : R) : Limits R :=
  ⟨.construct screenWidth screenHeight suavidad, ⟨fun _ _ ↦ 0, []⟩⟩

/-- Run a method of the controller. -/
def control (s : Limits R) (r : PCController R × List OsEvent) : Limits R × List OsEvent :=
  ({ s with controller := r.1 }, r.2)

/-- One call. -/
def serve (s : Limits R) : LimitedCall R → Limits R × List OsEvent
  | .click freeze debounceTime now => s.control (s.controller.click freeze debounceTime now)
  | .rightClick now => s.control (s.controller.rightClick now)
  | .swipeLeft now => s.control (s.controller.swipeLeft now)
  | .swipeRight now => s.control (s.controller.swipeRight now)
  | .moveMouse normX normY now => s.control (s.controller.moveMouse normX normY now)
  | .logGestureEvent gesture action now =>
    ({ s with log := VisionGame.Vision.logGestureEvent now gesture action s.log }, [])

end Limits

/-- Controller and log as a machine. -/
def limitsMachine : Machine (Limits R) (LimitedCall R) (LimitedTurn R) where
  step s call := ⟨call, s, (s.serve call).1, (s.serve call).2⟩
  next t := some t.after

/-! ### Specification -/

/-- The call took effect in this limiter. -/
def LimitedTurn.effectiveIn {R : Type} (l : Limiter) (t : LimitedTurn R) : Bool :=
  t.call.limiter = some l && t.effective

/-- The call is a click that took effect. -/
def LimitedTurn.clicks {R : Type} (t : LimitedTurn R) : Bool := t.call.isClick && t.effective

/-- Reading of the last call that took effect in a limiter, 0 before the first one. -/
def lastReading (l : Limiter) (past : List (LimitedTurn R)) : R :=
  ((lastWhere (LimitedTurn.effectiveIn l) past).map (·.call.now)).getD 0

/-- The last click of either button that took effect froze the cursor less than 0.25 s ago. -/
def FrozenBy (past : List (LimitedTurn R)) (now : R) : Prop :=
  ∃ t, lastWhere LimitedTurn.clicks past = some t ∧ t.call.freezes = true ∧
    now - t.call.now < 0.25

/-- The call sends its own events, or queues its own entry, and nothing else. -/
def LimitedTurn.Acts {R : Type} (t : LimitedTurn R) : Prop :=
  match t.call with
  | .click .. => t.sent = [.leftDown, .leftUp] ∧ t.after.log = t.before.log
  | .rightClick _ => t.sent = [.rightDown, .rightUp] ∧ t.after.log = t.before.log
  | .swipeLeft _ => t.sent = [.hotkey ["win", "ctrl", "left"]] ∧ t.after.log = t.before.log
  | .swipeRight _ => t.sent = [.hotkey ["win", "ctrl", "right"]] ∧ t.after.log = t.before.log
  | .moveMouse .. => (∃ x y, t.sent = [.setCursorPos x y]) ∧ t.after.log = t.before.log
  | .logGestureEvent gesture action _ =>
    t.sent = [] ∧ t.after.log.queue = t.before.log.queue ++ [(gesture, action)]

/-- A limited call takes effect exactly when its limiter is due, and a cursor move is suppressed
exactly while the last click freezes it. A call that takes effect acts, and any other one does
nothing. -/
structure Limited (past : List (LimitedTurn R)) (t : LimitedTurn R) : Prop where
  greedy : ∀ l, t.call.limiter = some l →
    (t.effective = true ↔ t.call.interval < t.call.now - lastReading l past)
  freeze : t.call.limiter = none → (t.effective = false ↔ FrozenBy past t.call.now)
  acts : t.effective = true → t.Acts
  idle : t.effective = false → t.after = t.before ∧ t.sent = []

/-! ### One call -/

/-- Time kept by a limiter. -/
def Limits.timer (s : Limits R) : Limiter → R
  | .click => s.controller.lastClickTime
  | .rightClick => s.controller.lastRightClickTime
  | .swipe => s.controller.lastSwipeTime
  | .log gesture action => s.log.lastLogged gesture action

/-- Time kept for the freeze. -/
def Limits.freezeTime (s : Limits R) : R := s.controller.lastClickFreezeTime

/-- What a call does: it passes its limiter and sets its timer, or it does not and changes
nothing; a cursor move is sent and leaves the timers alone, or it is frozen. -/
inductive LimitedStep (s : Limits R) (call : LimitedCall R) : Prop where
  | taken (l : Limiter) (hl : call.limiter = some l)
      (hdue : call.interval < call.now - s.timer l)
      (heffective : (limitsMachine.step s call).effective = true)
      (hacts : (limitsMachine.step s call).Acts)
      (htimer : (s.serve call).1.timer = Function.update s.timer l call.now)
      (hfreeze : (s.serve call).1.freezeTime =
        if call.isClick then (if call.freezes then call.now else 0) else s.freezeTime)
  | refused (l : Limiter) (hl : call.limiter = some l)
      (hdue : ¬ call.interval < call.now - s.timer l)
      (heffective : (limitsMachine.step s call).effective = false)
      (hidle : s.serve call = (s, []))
  | moved (hl : call.limiter = none) (hthawed : s.controller.isFrozen call.now = false)
      (heffective : (limitsMachine.step s call).effective = true)
      (hacts : (limitsMachine.step s call).Acts)
      (htimer : (s.serve call).1.timer = s.timer)
      (hfreeze : (s.serve call).1.freezeTime = s.freezeTime)
  | frozen (hl : call.limiter = none) (hfrozen : s.controller.isFrozen call.now = true)
      (heffective : (limitsMachine.step s call).effective = false)
      (hidle : s.serve call = (s, []))

private theorem effective_of_idle {s : Limits R} {call : LimitedCall R}
    (h : s.serve call = (s, [])) : (limitsMachine.step s call).effective = false := by
  simp only [LimitedTurn.effective, limitsMachine, h, List.isEmpty_nil, Bool.not_true,
    Bool.false_or, lt_self_iff_false, decide_false]

private theorem effective_of_sent {s s' : Limits R} {call : LimitedCall R} {e : OsEvent}
    {es : List OsEvent} (h : s.serve call = (s', e :: es)) :
    (limitsMachine.step s call).effective = true := by
  simp only [LimitedTurn.effective, limitsMachine, h, List.isEmpty_cons, Bool.not_false,
    Bool.true_or]

private theorem refused_of {s : Limits R} {call : LimitedCall R} {l : Limiter}
    (hl : call.limiter = some l) (hdue : ¬ call.interval < call.now - s.timer l)
    (h : s.serve call = (s, [])) : LimitedStep s call :=
  .refused l hl hdue (effective_of_idle h) h

private theorem taken_of {s s' : Limits R} {call : LimitedCall R} {l : Limiter} {e : OsEvent}
    {es : List OsEvent} (hl : call.limiter = some l) (hdue : call.interval < call.now - s.timer l)
    (h : s.serve call = (s', e :: es)) (hacts : (limitsMachine.step s call).Acts)
    (htimer : s'.timer = Function.update s.timer l call.now)
    (hfreeze : s'.freezeTime =
      if call.isClick then (if call.freezes then call.now else 0) else s.freezeTime) :
    LimitedStep s call := by
  refine .taken l hl hdue (effective_of_sent h) hacts ?_ ?_
  · rw [h]
    exact htimer
  · rw [h]
    exact hfreeze

private theorem limitedStep_swipe {s : Limits R} {call : LimitedCall R} (keys : List String)
    (hl : call.limiter = some .swipe) (hinterval : call.interval = 0.8)
    (hclick : call.isClick = false)
    (hacts : (limitsMachine.step s call).sent = [.hotkey keys] → (limitsMachine.step s call).Acts)
    (h : s.serve call = s.control (PCController.swipe keys s.controller call.now)) :
    LimitedStep s call := by
  by_cases hdue : call.interval < call.now - s.timer .swipe
  · have hpass : call.now - s.controller.lastSwipeTime > 0.8 := hinterval ▸ hdue
    have hserve : s.serve call = ({ s with controller :=
        { s.controller with lastSwipeTime := call.now } }, [.hotkey keys]) := by
      rw [h, PCController.swipe, if_pos hpass]
      rfl
    refine taken_of hl hdue hserve (hacts (congrArg Prod.snd hserve)) ?_ ?_
    · funext k
      cases k <;> rfl
    · rw [hclick]
      rfl
  · have hstop : ¬ call.now - s.controller.lastSwipeTime > 0.8 := hinterval ▸ hdue
    refine refused_of hl hdue ?_
    rw [h, PCController.swipe, if_neg hstop]
    rfl

/-- Every call takes one of these steps. -/
theorem limitedStep (s : Limits R) (call : LimitedCall R) : LimitedStep s call := by
  cases call with
  | click freeze debounceTime now =>
    by_cases hdue : now - s.controller.lastClickTime > debounceTime
    · have hserve : s.serve (.click freeze debounceTime now) = ({ s with controller :=
          { s.controller with
            lastClickTime := now
            lastClickFreezeTime := if freeze then now else 0 } }, [.leftDown, .leftUp]) := by
        rw [Limits.serve, PCController.click, if_pos hdue]
        rfl
      have hacts : (limitsMachine.step s (.click freeze debounceTime now)).Acts :=
        ⟨congrArg Prod.snd hserve, congrArg (fun served ↦ served.1.log) hserve⟩
      refine taken_of (l := .click) rfl hdue hserve hacts ?_ rfl
      funext k
      cases k <;> rfl
    · refine refused_of rfl hdue ?_
      rw [Limits.serve, PCController.click, if_neg hdue]
      rfl
  | rightClick now =>
    by_cases hdue : now - s.controller.lastRightClickTime > 0.4
    · have hserve : s.serve (.rightClick now) = ({ s with controller :=
          { s.controller with lastRightClickTime := now, lastClickFreezeTime := now } },
          [.rightDown, .rightUp]) := by
        rw [Limits.serve, PCController.rightClick, if_pos hdue]
        rfl
      have hacts : (limitsMachine.step s (.rightClick now)).Acts :=
        ⟨congrArg Prod.snd hserve, congrArg (fun served ↦ served.1.log) hserve⟩
      refine taken_of (l := .rightClick) rfl hdue hserve hacts ?_ rfl
      funext k
      cases k <;> rfl
    · refine refused_of rfl hdue ?_
      rw [Limits.serve, PCController.rightClick, if_neg hdue]
      rfl
  | swipeLeft now =>
    exact limitedStep_swipe ["win", "ctrl", "left"] rfl rfl rfl (fun hsent ↦ ⟨hsent, rfl⟩) rfl
  | swipeRight now =>
    exact limitedStep_swipe ["win", "ctrl", "right"] rfl rfl rfl (fun hsent ↦ ⟨hsent, rfl⟩) rfl
  | moveMouse normX normY now =>
    cases hfrozen : s.controller.isFrozen now with
    | true =>
      have hserve : s.serve (.moveMouse normX normY now) = (s, []) := by
        rw [Limits.serve, PCController.moveMouse_of_frozen hfrozen]
        rfl
      exact .frozen rfl hfrozen (effective_of_idle hserve) hserve
    | false =>
      have hmove := PCController.moveMouse_of_not_frozen hfrozen normX normY
      have hserve : s.serve (.moveMouse normX normY now) =
          s.control (s.controller.moveMouse normX normY now) := rfl
      rw [hmove] at hserve
      refine .moved rfl hfrozen (effective_of_sent hserve) ⟨⟨_, _, congrArg Prod.snd hserve⟩, rfl⟩
        ?_ ?_
      · rw [hserve]
        funext k
        cases k <;> rfl
      · rw [hserve]
        rfl
  | logGestureEvent gesture action now =>
    by_cases hdue : now - s.log.lastLogged gesture action > 0.6
    · have hserve : s.serve (.logGestureEvent gesture action now) = ({ s with log :=
          { lastLogged := fun g a ↦
              if g = gesture ∧ a = action then now else s.log.lastLogged g a
            queue := s.log.queue ++ [(gesture, action)] } }, []) := by
        rw [Limits.serve, VisionGame.Vision.logGestureEvent, if_pos hdue]
      refine .taken (.log gesture action) rfl hdue ?_ ⟨rfl, ?_⟩ ?_ ?_
      · simp only [LimitedTurn.effective, limitsMachine, hserve, List.length_append,
          List.length_singleton, Nat.lt_succ_self, decide_true, Bool.or_true]
      · exact congrArg (fun served ↦ served.1.log.queue) hserve
      · rw [hserve]
        funext k
        cases k with
        | log g a => simp [Limits.timer, Function.update_apply, LimitedCall.now]
        | _ => rfl
      · rw [hserve]
        rfl
    · refine refused_of rfl hdue ?_
      rw [Limits.serve, VisionGame.Vision.logGestureEvent, if_neg hdue]

/-! ### Sequences of calls -/

private theorem lastReading_concat (l : Limiter) (past : List (LimitedTurn R)) (t : LimitedTurn R) :
    lastReading l (past ++ [t]) =
      if t.effectiveIn l = true then t.call.now else lastReading l past := by
  simp only [lastReading, lastWhere_concat]
  split <;> rfl

/-- Freeze time that the clicks so far lead to: 0 unless the last one that took effect freezes. -/
def freezeReading (past : List (LimitedTurn R)) : R :=
  ((lastWhere LimitedTurn.clicks past).map fun t ↦
    if t.call.freezes then t.call.now else 0).getD 0

private theorem freezeReading_concat (past : List (LimitedTurn R)) (t : LimitedTurn R) :
    freezeReading (past ++ [t]) =
      if t.clicks = true then (if t.call.freezes then t.call.now else 0)
      else freezeReading past := by
  simp only [freezeReading, lastWhere_concat]
  by_cases h : t.clicks = true <;> simp [h]

/-- The timers hold the readings of the last calls that took effect, all of them positive. -/
structure Tracks (past : List (LimitedTurn R)) (s : Limits R) : Prop where
  timer : ∀ l, s.timer l = lastReading l past
  freezeTime : s.freezeTime = freezeReading past
  positive : ∀ t ∈ past, 0 < t.call.now

section
variable {past : List (LimitedTurn R)} {s : Limits R} (h : Tracks past s)
include h

/-- The controller is frozen exactly when the last click freezes it. -/
theorem Tracks.isFrozen_iff (now : R) : s.controller.isFrozen now = true ↔ FrozenBy past now := by
  have htime : s.controller.lastClickFreezeTime = freezeReading past := h.freezeTime
  simp only [PCController.isFrozen, Bool.and_eq_true, decide_eq_true_eq, htime, freezeReading,
    FrozenBy]
  cases hlast : lastWhere LimitedTurn.clicks past with
  | none => simp
  | some t =>
    have hpos := h.positive t (mem_of_lastWhere hlast)
    by_cases hfreezes : t.call.freezes = true <;> simp [hfreezes, hpos]

/-- A call agrees with the specification. -/
theorem Tracks.limited (call : LimitedCall R) : Limited past (limitsMachine.step s call) := by
  constructor
  · intro l hl
    change call.limiter = some l at hl
    change _ ↔ call.interval < call.now - lastReading l past
    rw [← h.timer l]
    cases limitedStep s call with
    | taken k hk hdue heffective _ _ _ =>
      rw [hk, Option.some.injEq] at hl
      rw [← hl]
      exact iff_of_true heffective hdue
    | refused k hk hdue heffective _ =>
      rw [hk, Option.some.injEq] at hl
      rw [← hl]
      exact iff_of_false (by rw [heffective]; decide) hdue
    | moved hk _ _ _ _ _ =>
      rw [hk] at hl
      cases hl
    | frozen hk _ _ _ =>
      rw [hk] at hl
      cases hl
  · intro hl
    change call.limiter = none at hl
    change _ ↔ FrozenBy past call.now
    rw [← h.isFrozen_iff]
    cases limitedStep s call with
    | taken k hk _ _ _ _ _ =>
      rw [hk] at hl
      cases hl
    | refused k hk _ _ _ =>
      rw [hk] at hl
      cases hl
    | moved _ hthawed heffective _ _ _ => rw [heffective, hthawed, eq_comm]
    | frozen _ hfrozen heffective _ => exact iff_of_true heffective hfrozen
  · intro heffective
    cases limitedStep s call with
    | taken _ _ _ _ hacts _ _ => exact hacts
    | moved _ _ _ hacts _ _ => exact hacts
    | refused _ _ _ hnot _ => exact absurd heffective (by rw [hnot]; decide)
    | frozen _ _ hnot _ => exact absurd heffective (by rw [hnot]; decide)
  · intro hnot
    cases limitedStep s call with
    | taken _ _ _ heffective _ _ _ => exact absurd hnot (by rw [heffective]; decide)
    | moved _ _ heffective _ _ _ => exact absurd hnot (by rw [heffective]; decide)
    | refused _ _ _ _ hidle => exact ⟨congrArg Prod.fst hidle, congrArg Prod.snd hidle⟩
    | frozen _ _ _ hidle => exact ⟨congrArg Prod.fst hidle, congrArg Prod.snd hidle⟩

/-- A call at a positive time leaves timers that hold the last readings. -/
theorem Tracks.step {call : LimitedCall R} (hpos : 0 < call.now) :
    Tracks (past ++ [limitsMachine.step s call]) (s.serve call).1 := by
  have hcall : (limitsMachine.step s call).call = call := rfl
  constructor
  · intro l
    rw [lastReading_concat, ← h.timer l, LimitedTurn.effectiveIn, hcall]
    cases limitedStep s call with
    | taken k hk _ heffective _ htimer _ =>
      rw [htimer, hk, heffective, Function.update_apply]
      simp [eq_comm]
    | refused _ _ _ heffective hidle => simp [heffective, hidle]
    | moved hk _ _ _ htimer _ => simp [hk, htimer]
    | frozen hk _ _ hidle => simp [hk, hidle]
  · rw [freezeReading_concat, ← h.freezeTime, LimitedTurn.clicks, hcall]
    cases limitedStep s call with
    | taken _ _ _ heffective _ _ hfreeze => simp [heffective, hfreeze]
    | refused _ _ _ heffective hidle => simp [heffective, hidle]
    | moved hk _ heffective _ _ hfreeze =>
      have hclick : call.isClick = false := LimitedCall.isClick_of_limiter_eq_none hk
      simp [hclick, hfreeze]
    | frozen _ _ heffective hidle => simp [heffective, hidle]
  · intro t ht
    rcases List.mem_append.mp ht with hold | hnew
    · exact h.positive t hold
    · rw [List.mem_singleton.mp hnew]
      exact hpos

end

/-- On a fresh controller and log, every call with any positive clock readings is limited by its
own limiter, and by the freeze of the last click, only, and sends or queues what is its own. -/
theorem calls_limited (screenWidth screenHeight : ℤ) (suavidad : R) {calls : List (LimitedCall R)}
    (hcalls : ∀ call ∈ calls, 0 < call.now) :
    ∀ past t post,
      limitsMachine.trace (.init screenWidth screenHeight suavidad) calls = past ++ t :: post →
        Limited past t := by
  apply limitsMachine.split_forall (I := Tracks) (P := Limited) calls
  · intro past s call _ h
    exact h.limited call
  · intro past s call hmem next h hnext
    rw [← Option.some.inj hnext]
    exact h.step (hcalls call hmem)
  · constructor
    · intro l
      change Limits.timer
        ⟨((PCController.blank _ _).serve (.updateFilterParams suavidad)).1, _⟩ l = 0
      rw [PCController.serve_updateFilterParams]
      cases l <;> rfl
    · change Limits.freezeTime
        ⟨((PCController.blank _ _).serve (.updateFilterParams suavidad)).1, _⟩ = 0
      rw [PCController.serve_updateFilterParams]
      rfl
    · intro t ht
      cases ht

/-- Clicks of both kinds, a log entry and moves on a clock that jumps back. -/
def jumpingClock : List (LimitedCall ℚ) :=
  [.click true 0.3 10, .logGestureEvent .click .click 10, .moveMouse 0 0 10.1,
    .click false 0.15 9, .rightClick 9.5, .moveMouse 1 1 9]

/-- The last move is suppressed by the right click, which lies in its future. -/
theorem calls_limited_jumpingClock :
    ∃ past t, limitsMachine.trace (.init 4 3 5) jumpingClock = past ++ [t] ∧
      t.effective = false ∧ Limited past t := by
  have hsplit : ∃ past t, limitsMachine.trace (.init 4 3 5) jumpingClock = past ++ [t] ∧
      t.effective = false := by
    refine ⟨[_, _, _, _, _], _, rfl, ?_⟩
    decide +kernel
  have ⟨past, t, htrace, heffective⟩ := hsplit
  have hpositive : ∀ call ∈ jumpingClock, 0 < call.now := by
    simp only [jumpingClock, List.forall_mem_cons, LimitedCall.now]
    norm_num
  exact ⟨past, t, htrace, heffective, calls_limited 4 3 5 hpositive past t [] htrace⟩

end VisionGame.Vision
