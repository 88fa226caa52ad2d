import VisionGame.Base.Window
import VisionGame.Vision.CallRules

/-!
# Spaced actions in whole runs

Library `Vision`. `src/mediapipe/pc_controller.py:92–133`,
`src/mediapipe/app_gestures.py:490,678–707`. Right clicks and desktop switches are limited by the
controller, Win+D by the loop itself. Each limiter keeps a timer that an iteration either leaves
alone or, when enough time has gone by, sets to its reading as it lets an event pass. Two events of
one limiter are therefore spaced in every run, whatever happens in between.
-/

namespace VisionGame.Vision
open VisionGame.Base
open Effect

/-! ### Limiters -/

/-- Limiters of a run: of right clicks (`pc_controller.py:92–101`), of desktop switches to either
side (`pc_controller.py:117–133`) and of Win+D (`app_gestures.py:699–707`). -/
inductive ActionLimiter where
  | rightClick
  | swipe
  | showDesktop
  deriving DecidableEq

/-- A right click, a desktop switch or Win+D. -/
def OsEvent.limiter : OsEvent → Option ActionLimiter
  | rightDown => some .rightClick
  | hotkey ["win", "ctrl", "left"] => some .swipe
  | hotkey ["win", "ctrl", "right"] => some .swipe
  | hotkey ["win", "d"] => some .showDesktop
  | _ => none

namespace ActionLimiter

/-- An event of the limiter is among some events. -/
def passes (l : ActionLimiter) (es : List OsEvent) : Bool := es.any (·.limiter = some l)

/-- No events pass no limiter. -/
@[simp] theorem passes_nil (l : ActionLimiter) : l.passes [] = false := rfl

/-- Events pass a limiter with the first of them or with the others. -/
@[simp] theorem passes_cons (l : ActionLimiter) (e : OsEvent) (es : List OsEvent) :
    l.passes (e :: es) = (decide (e.limiter = some l) || l.passes es) := rfl

/-- Events pass a limiter with one of two stretches. -/
@[simp] theorem passes_append (l : ActionLimiter) (es fs : List OsEvent) :
    l.passes (es ++ fs) = (l.passes es || l.passes fs) :=
  List.any_append

variable {R : Type} [Scalar R]

/-- Time that has to go by between two events. -/
def interval : ActionLimiter → R
  | rightClick => 0.4
  | swipe => 0.8
  | showDesktop => 1.5

private theorem interval_nonneg (l : ActionLimiter) : 0 ≤ (l.interval : R) := by
  cases l <;> norm_num [interval]

/-- Reading of the last event. -/
def timer (l : ActionLimiter) (s : LoopState R) : R :=
  match l with
  | rightClick => s.controller.lastRightClickTime
  | swipe => s.controller.lastSwipeTime
  | showDesktop => s.lastDesktopTime

omit [Scalar R] in
private theorem timer_congr (l : ActionLimiter) {s t : LoopState R}
    (hcontroller : t.controller.buttons = s.controller.buttons)
    (hdesktop : t.lastDesktopTime = s.lastDesktopTime) : l.timer t = l.timer s := by
  simp only [PCController.buttons, Prod.mk.injEq] at hcontroller
  cases l with
  | rightClick => exact hcontroller.2.2.1
  | swipe => exact hcontroller.2.2.2.1
  | showDesktop => exact hdesktop

end ActionLimiter

variable {R : Type} [Scalar R] {l : ActionLimiter} {now : R}

/-- From one state to another the limiter lets nothing pass and keeps its timer, or lets something
pass when it is due and sets its timer. -/
def Paced (l : ActionLimiter) (now : R) (s t : LoopState R) : Prop :=
  ∃ sent, t.cur.out = s.cur.out ++ sent ∧
    if l.passes sent then l.timer t = now ∧ l.interval < now - l.timer s
    else l.timer t = l.timer s

/-- A limiter that is not concerned keeps its timer and lets nothing pass. -/
theorem paced_of_same {s t : LoopState R} {sent : List OsEvent}
    (hout : t.cur.out = s.cur.out ++ sent) (hsent : l.passes sent = false)
    (htimer : l.timer t = l.timer s) : Paced l now s t := by
  refine ⟨sent, hout, ?_⟩
  rw [hsent]
  exact htimer

instance : Std.Refl (Paced l now) :=
  ⟨fun s ↦ paced_of_same (List.append_nil s.cur.out).symm rfl rfl⟩

instance : IsTrans (LoopState R) (Paced l now) where
  trans := by
    rintro s t u ⟨first, hfirst, hst⟩ ⟨second, hsecond, htu⟩
    refine ⟨first ++ second, ?_, ?_⟩
    · rw [hsecond, hfirst, List.append_assoc]
    · rw [ActionLimiter.passes_append]
      cases hpasses : l.passes first with
      | false =>
        rw [hpasses, if_neg Bool.false_ne_true] at hst
        rw [hst] at htu
        exact htu
      | true =>
        rw [hpasses, if_pos rfl] at hst
        cases hagain : l.passes second with
        | false =>
          rw [hagain, if_neg Bool.false_ne_true] at htu
          exact ⟨htu.trans hst.1, hst.2⟩
        | true =>
          -- no time has gone by since the first event
          rw [hagain, if_pos rfl, hst.1, sub_self] at htu
          exact absurd htu.2 (not_lt.mpr l.interval_nonneg)

namespace Loop

/-! ### One iteration -/

private theorem paced_perform {f : PCController R → PCController R × List OsEvent}
    (hsent : ∀ c, l.passes (f c).2 = false)
    (htimers : ∀ c, (f c).1.lastRightClickTime = c.lastRightClickTime ∧
      (f c).1.lastSwipeTime = c.lastSwipeTime) : Respects (Paced l now) (perform f) := by
  intro s
  apply paced_of_same rfl (hsent s.controller)
  cases l with
  | rightClick => exact (htimers s.controller).1
  | swipe => exact (htimers s.controller).2
  | showDesktop => rfl

private theorem rightClick_paced : Respects (Paced l now) (perform fun c ↦ c.rightClick now) := by
  intro s
  simp only [exec_perform, PCController.rightClick]
  split
  · next hdue =>
    refine ⟨[.rightDown, .rightUp], rfl, ?_⟩
    cases l with
    | rightClick => exact ⟨rfl, hdue⟩
    | _ => rfl
  · refine paced_of_same rfl rfl ?_
    cases l <;> rfl

private theorem swipe_paced {keys : List String}
    (hkeys : keys = ["win", "ctrl", "left"] ∨ keys = ["win", "ctrl", "right"]) :
    Respects (Paced l now) (perform fun c ↦ PCController.swipe keys c now) := by
  have hlimiter : (OsEvent.hotkey keys).limiter = some .swipe := by
    rcases hkeys with rfl | rfl <;> rfl
  intro s
  simp only [exec_perform, PCController.swipe]
  split
  · next hdue =>
    refine ⟨[.hotkey keys], rfl, ?_⟩
    rw [ActionLimiter.passes_cons, hlimiter]
    cases l with
    | swipe => exact ⟨rfl, hdue⟩
    | _ => rfl
  · refine paced_of_same rfl rfl ?_
    cases l <;> rfl

private theorem showDesktop_paced : Respects (Paced l now) (showDesktop now) := by
  intro s
  simp only [showDesktop]
  rw [exec_bind_get]
  split
  · next hdue =>
    refine ⟨[.hotkey ["win", "d"]], rfl, ?_⟩
    cases l with
    | showDesktop => exact ⟨rfl, hdue⟩
    | _ => rfl
  · exact Std.Refl.refl s

private theorem keptByCalls_paced (l : ActionLimiter) (inp : IterInput R) (analysis : Analysis R) :
    KeptByCalls (Paced l inp.clock.act) inp analysis := by
  constructor
  · intro s
    have hbuttons := (PCController.exec_updateFilterParams s.controller s.shared.globals.suavVal).2
    exact paced_of_same (List.append_nil _).symm rfl (l.timer_congr hbuttons rfl)
  · exact fun gesture action _ s ↦ paced_of_same (List.append_nil _).symm rfl (by cases l <;> rfl)
  · intro s target _
    have hbuttons := s.controller.moveMouse_buttons target.1 target.2 inp.clock.move
    refine paced_of_same rfl ?_ (l.timer_congr hbuttons rfl)
    rcases s.controller.moveMouse_isCursor target.1 target.2 inp.clock.move with h | ⟨x, y, h⟩
    · rw [h]
      rfl
    · rw [h]
      rfl
  · intro freeze debounce
    apply paced_perform
    · intro c
      rw [PCController.click_events]
      split <;> rfl
    · intro c
      unfold PCController.click
      split <;> exact ⟨rfl, rfl⟩
  · exact rightClick_paced
  · apply paced_perform
    · intro c
      rw [PCController.dragStart_events]
      split <;> rfl
    · intro c
      unfold PCController.dragStart
      split <;> exact ⟨rfl, rfl⟩
  · apply paced_perform
    · intro c
      rw [PCController.dragStop_events]
      split <;> rfl
    · intro c
      unfold PCController.dragStop
      split <;> exact ⟨rfl, rfl⟩
  · exact swipe_paced (.inl rfl)
  · exact swipe_paced (.inr rfl)
  · exact showDesktop_paced
  · exact fun action s ↦ paced_of_same (List.append_nil _).symm rfl (by cases l <;> rfl)

private theorem iteration_paced (l : ActionLimiter) (inp : IterInput R) :
    Respects (Paced l inp.clock.act) (iteration inp) := by
  apply respects_iteration ?_ (keptByCalls_paced l inp)
  intro s t h
  simp only [called, Prod.mk.injEq] at h
  exact paced_of_same (by rw [h.2.2.2, List.append_nil]) rfl (l.timer_congr h.1 h.2.1)

end Loop

/-! ### Runs -/

/-- Clock reading of the actions in a turn. -/
def Turn.act (t : Turn R) : R := (t.iteration.map (·.input.clock.act)).getD 0

/-- Reading of the last turn that sent an event of a limiter, 0 before the first one. -/
def lastPass (l : ActionLimiter) (past : List (Turn R)) : R :=
  ((lastWhere (fun t ↦ l.passes t.sent) past).map Turn.act).getD 0

private theorem lastPass_concat (l : ActionLimiter) (past : List (Turn R)) (t : Turn R) :
    lastPass l (past ++ [t]) = if l.passes t.sent = true then t.act else lastPass l past := by
  simp only [lastPass, lastWhere_concat]
  split <;> rfl

/-- A turn that sends an event of a limiter comes later than the last one by more than the interval
of the limiter. -/
def Turn.Spaced (l : ActionLimiter) (past : List (Turn R)) (t : Turn R) : Prop :=
  l.passes t.sent = true → l.interval < t.act - lastPass l past

private theorem visionMachine_paced (l : ActionLimiter) (s : LoopState R) (t : Tick R) :
    if l.passes (visionMachine.step s t).sent then
      l.timer (visionMachine.step s t).after = (visionMachine.step s t).act ∧
        l.interval < (visionMachine.step s t).act - l.timer s
    else l.timer (visionMachine.step s t).after = l.timer s := by
  have henter : l.timer (s.enter t.env) = l.timer s := by cases l <;> rfl
  rcases visionMachine_step_cases s t with hstop | hiter
  · rw [hstop]
    exact henter
  · obtain ⟨sent, hsent, hpaced⟩ := Loop.iteration_paced l t.input (s.enter t.env)
    have hturn : (Turn.iterated (iterate t.input (s.enter t.env))).sent = sent := hsent
    rw [hiter, hturn, ← henter]
    exact hpaced

/-- A fist is shown at three times. -/
def threeFists : List (Tick ℚ) :=
  let fist := GestureAnalyzer.handPose ⟨false, false, false, false, false⟩ false (1 / 2)
  [10, 11, 11.6].map fun t ↦ .seeing t [⟨fist, "Right"⟩]

end VisionGame.Vision
