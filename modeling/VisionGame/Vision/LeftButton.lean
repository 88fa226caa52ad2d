import VisionGame.Vision.IterationSpec

/-!
# The left mouse button over whole runs

Library `Vision`. `src/mediapipe/pc_controller.py:77–115` and
`src/mediapipe/app_gestures.py:625–758`. Three controller methods drive the left button.
`drag_start` and `drag_stop` look at `is_dragging`, `click` does not; and the paths that
leave an iteration early do not come past `drag_stop`. Two theorems say over whole runs
exactly when the button line alternates and exactly when no drag is left behind.
-/

namespace VisionGame.Vision
open VisionGame.Base
open Effect Edge Loop

variable {R : Type} [Scalar R]

namespace Loop

/-! ### What one iteration does to the button -/

/-- The action clicks the left button in this mode. -/
def Clicks (gameMode : Json R) (action : Option Action) : Prop :=
  (gameMode.isStr "normal" ∨ gameMode.isStr "osugame") ∧ action = some .click

/-- The iteration reaches the dispatch and acts on a hand, with an action of this kind. -/
def Selects (inp : IterInput R) (s : LoopState R) (p : Json R → Option Action → Prop) : Prop :=
  ReachesRelease inp s ∧ ∃ r, analysed inp (ready inp s) = some r ∧
    p (watched inp s).shared.globals.gameMode
      (restrictAction (watched inp s).shared.globals.gameMode r.1.action)

/-- The iteration executes `DRAG` in normal mode. -/
def DragsIn (inp : IterInput R) (s : LoopState R) : Prop := Selects inp s Drags

/-- The iteration executes a left click and its limiter lets it pass. -/
def ClicksIn (inp : IterInput R) (s : LoopState R) : Prop :=
  Selects inp s Clicks ∧
    clickPasses inp (watched inp s).shared.globals.gameMode s.controller = true

instance (gameMode : Json R) (action : Option Action) : Decidable (Clicks gameMode action) :=
  inferInstanceAs (Decidable (_ ∧ _))

omit [Scalar R] in
private theorem Acts.leftEdges_eq {gameMode : Json R} {action : Option Action}
    {passes dragging : Bool} {acts : List OsEvent} (h : Acts gameMode action passes dragging acts) :
    leftEdges acts =
      (if Clicks gameMode action ∧ passes then [.press, .release] else []) ++
        if Drags gameMode action ∧ ¬ dragging then [.press] else [] := by
  simp only [Acts] at h
  by_cases hn : gameMode.isStr "normal" = true
  · rw [if_pos hn] at h
    rcases action with _ | a
    · simp [h, Clicks, Drags]
    cases a with
    | moveMouse => simp [PCController.leftEdges_of_isCursor h, Clicks, Drags]
    | click => cases passes <;> simp [h, hn, Clicks, Drags]
    | rightClick => rcases h with rfl | rfl <;> simp [Clicks, Drags]
    | drag =>
      obtain ⟨moves, hmoves, rfl⟩ := h
      have hm := PCController.leftEdges_of_isCursor hmoves
      cases dragging <;> simp [hm, hn, Clicks, Drags]
    | hover => simp [h, Clicks, Drags]
    | showDesktop => rcases h with rfl | ⟨keys, rfl⟩ <;> simp [Clicks, Drags]
    | swipeRight => rcases h with rfl | ⟨keys, rfl⟩ <;> simp [Clicks, Drags]
    | swipeLeft => rcases h with rfl | ⟨keys, rfl⟩ <;> simp [Clicks, Drags]
  · rw [if_neg hn] at h
    rcases action with _ | a
    · simp [h, Clicks, Drags]
    cases a with
    | moveMouse => simp [PCController.leftEdges_of_isCursor h, Clicks, Drags]
    | drag => simp [PCController.leftEdges_of_isCursor h, hn, Clicks, Drags]
    | click =>
      obtain ⟨moves, hmoves, rfl⟩ := h
      have hm := PCController.leftEdges_of_isCursor hmoves
      by_cases ho : gameMode.isStr "osugame" = true ∧ passes = true
      · simp [ho, hm, Clicks, Drags]
      · rw [if_neg ho]
        simp [hm, hn, ho, Clicks, Drags]
    | _ => simp [h, Clicks, Drags]

omit [Scalar R] in
private theorem Clicks.not_drags {gameMode : Json R} {action : Option Action}
    (h : Clicks gameMode action) : ¬ Drags gameMode action := by
  intro hd
  rw [h.2] at hd
  cases hd.2

private theorem ClicksIn.not_dragsIn {inp : IterInput R} {s : LoopState R} (h : ClicksIn inp s) :
    ¬ DragsIn inp s := by
  obtain ⟨⟨-, r, hr, hclick⟩, -⟩ := h
  rintro ⟨-, r', hr', hdrag⟩
  rw [hr] at hr'
  cases hr'
  exact hclick.not_drags hdrag

open Classical in
/-- One iteration seen from the left button: what it sends, how it leaves `is_dragging`, and
whether it ran the branch of `DRAG`. -/
structure ButtonView (inp : IterInput R) (s : LoopState R) : Prop where
  edges : leftEdges (iterate inp s).after.cur.out =
    (if ClicksIn inp s then [.press, .release] else []) ++
      (if DragsIn inp s ∧ ¬ s.controller.isDragging then [.press] else []) ++
      if s.controller.isDragging ∧ ReachesRelease inp s ∧ ¬ DragsIn inp s then [.release] else []
  dragging : (iterate inp s).after.controller.isDragging = true ↔
    DragsIn inp s ∨ (s.controller.isDragging ∧ ¬ ReachesRelease inp s)
  executed : (iterate inp s).after.cur.executed = some .drag ↔ DragsIn inp s

private theorem buttonView_cut {inp : IterInput R} {s : LoopState R} (hs : s.cur = {})
    (h : ¬ ReachesRelease inp s) : ButtonView inp s := by
  have hclicks : ¬ ClicksIn inp s := fun hc ↦ h hc.1.1
  have hdrags : ¬ DragsIn inp s := fun hd ↦ h hd.1
  have ⟨hout, hdrag, hexec⟩ := iterate_cut hs h
  constructor
  · simp [hout, hclicks, hdrags, h]
  · simp [hdrag, hdrags, h]
  · simp [hexec, hdrags]

private theorem buttonView_idle {inp : IterInput R} {s : LoopState R} (hs : s.cur = {})
    (h : ReachesRelease inp s) (ha : analysed inp (ready inp s) = none) :
    ButtonView inp s := by
  have hselects (p : Json R → Option Action → Prop) : ¬ Selects inp s p := by
    rintro ⟨-, r, hr, -⟩
    rw [ha] at hr
    cases hr
  have hclicks : ¬ ClicksIn inp s := fun hc ↦ hselects _ hc.1
  have hdrags : ¬ DragsIn inp s := hselects _
  have ⟨hout, hdrag, hexec⟩ := iterate_idle hs h ha
  constructor
  · cases hd : s.controller.isDragging <;> simp [hout, hclicks, hdrags, h, hd]
  · simp [hdrag, hdrags, h]
  · simp [hexec, hdrags]

private theorem buttonView_analysed {inp : IterInput R} {s : LoopState R} (hs : s.cur = {})
    (h : ReachesRelease inp s) {r : Analysis R × GestureAnalyzer R}
    (ha : analysed inp (ready inp s) = some r) : ButtonView inp s := by
  have hselects (p : Json R → Option Action → Prop) : Selects inp s p ↔
      p (watched inp s).shared.globals.gameMode
        (restrictAction (watched inp s).shared.globals.gameMode r.1.action) := by
    constructor
    · rintro ⟨-, r', hr', hp⟩
      rw [ha] at hr'
      cases hr'
      exact hp
    · exact fun hp ↦ ⟨h, r, ha, hp⟩
  have hdrags : DragsIn inp s ↔ Drags (watched inp s).shared.globals.gameMode
      (restrictAction (watched inp s).shared.globals.gameMode r.1.action) := hselects Drags
  have hclicks := hselects Clicks
  have ⟨⟨acts, hacts, hout⟩, hdrag, hexec⟩ := iterate_acts hs h ha rfl rfl
  constructor
  · classical
    rw [hout, leftEdges_append, hacts.leftEdges_eq]
    simp only [ClicksIn, hclicks, ← hdrags]
    by_cases hd : DragsIn inp s
    · simp [hd]
    · cases hdr : s.controller.isDragging <;> simp [hd, h]
  · rw [hdrag, ← hdrags]
    simp [DragsIn, h]
  · rw [hexec, ← hdrags]

/-- Every iteration clicks, drags and releases as its selected action says. -/
theorem iterate_buttonView (inp : IterInput R) {s : LoopState R} (hs : s.cur = {}) :
    ButtonView inp s := by
  by_cases hr : ReachesRelease inp s
  · cases ha : analysed inp (ready inp s) with
    | none => exact buttonView_idle hs hr ha
    | some r => exact buttonView_analysed hs hr ha
  · exact buttonView_cut hs hr

/-- The four things an iteration does with the button: a click, which comes before the release
of a drag; a drag; the release of a drag; or nothing, when it is cut short. -/
theorem iterate_edges_cases (inp : IterInput R) {s : LoopState R} (hs : s.cur = {}) :
    (ClicksIn inp s ∧ (iterate inp s).after.controller.isDragging = false ∧
      leftEdges (iterate inp s).after.cur.out =
        [.press, .release] ++ if s.controller.isDragging then [.release] else []) ∨
    (¬ ClicksIn inp s ∧ (iterate inp s).after.controller.isDragging = true ∧
      leftEdges (iterate inp s).after.cur.out =
        if s.controller.isDragging then [] else [.press]) ∨
    (¬ ClicksIn inp s ∧ (iterate inp s).after.controller.isDragging = false ∧
      leftEdges (iterate inp s).after.cur.out =
        if s.controller.isDragging then [.release] else []) ∨
    (¬ ClicksIn inp s ∧
      (iterate inp s).after.controller.isDragging = s.controller.isDragging ∧
      leftEdges (iterate inp s).after.cur.out = []) := by
  have hview := iterate_buttonView inp hs
  rw [hview.edges]
  by_cases hclick : ClicksIn inp s
  · have hreach : ReachesRelease inp s := hclick.1.1
    refine Or.inl ⟨hclick, ?_, ?_⟩
    · rw [Bool.eq_false_iff, ne_eq, hview.dragging]
      simp [hclick.not_dragsIn, hreach]
    · simp [hclick, hclick.not_dragsIn, hreach]
  · by_cases hdrag : DragsIn inp s
    · refine Or.inr (Or.inl ⟨hclick, hview.dragging.mpr (Or.inl hdrag), ?_⟩)
      cases s.controller.isDragging <;> simp [hclick, hdrag]
    · by_cases hreach : ReachesRelease inp s
      · refine Or.inr (Or.inr (Or.inl ⟨hclick, ?_, ?_⟩))
        · rw [Bool.eq_false_iff, ne_eq, hview.dragging]
          simp [hdrag, hreach]
        · simp [hclick, hdrag, hreach]
      · refine Or.inr (Or.inr (Or.inr ⟨hclick, ?_, ?_⟩))
        · rw [Bool.eq_iff_iff, hview.dragging]
          simp [hdrag, hreach]
        · simp [hclick, hdrag, hreach]

/-- Whatever an iteration sends, `is_dragging` is the level of the button after it. -/
theorem iterate_level (inp : IterInput R) {s : LoopState R} (hs : s.cur = {}) :
    levelAfter s.controller.isDragging (leftEdges (iterate inp s).after.cur.out) =
      (iterate inp s).after.controller.isDragging := by
  rcases iterate_edges_cases inp hs with
    ⟨-, hafter, hedges⟩ | ⟨-, hafter, hedges⟩ | ⟨-, hafter, hedges⟩ | ⟨-, hafter, hedges⟩
  · rw [hedges, hafter]
    cases s.controller.isDragging <;> rfl
  · rw [hedges, hafter]
    cases s.controller.isDragging <;> rfl
  · rw [hedges, hafter]
    cases s.controller.isDragging <;> rfl
  · rw [hedges, hafter]
    rfl

/-- The edges of an iteration alternate unless it clicks while the button is down. -/
theorem iterate_alternates_iff (inp : IterInput R) {s : LoopState R} (hs : s.cur = {}) :
    Alternates s.controller.isDragging (leftEdges (iterate inp s).after.cur.out) ↔
      ¬ (s.controller.isDragging = true ∧ ClicksIn inp s) := by
  rcases iterate_edges_cases inp hs with
    ⟨hclick, -, hedges⟩ | ⟨hclick, -, hedges⟩ | ⟨hclick, -, hedges⟩ | ⟨hclick, -, hedges⟩
  · rw [hedges]
    cases s.controller.isDragging <;> simp [hclick, level]
  · rw [hedges]
    cases s.controller.isDragging <;> simp [hclick, level]
  · rw [hedges]
    cases s.controller.isDragging <;> simp [hclick, level]
  · rw [hedges]
    simp [hclick]

/-- An iteration ends by `break` with a drag in progress exactly when it drags and reads `q`. -/
theorem quit_dragging_iff {inp : IterInput R} {s : LoopState R} (hs : s.cur = {})
    (hd : DragsIn inp s) : (iterate inp s).result = .ok .quit ↔ inp.key = .q := by
  rw [iterate_quit_iff (by rw [hs])]
  obtain ⟨hr, r, -, hmode, -⟩ := hd
  have hstr : ∃ m, (watched inp s).shared.globals.gameMode = .str m :=
    ⟨_, Json.isStr_iff.mp hmode⟩
  constructor
  · exact fun h ↦ h.2.1
  · exact fun h ↦ ⟨hr, h, hstr⟩

end Loop

/-! ### The button line of a run -/

/-- Left-button edges sent during some turns. -/
def buttonEdges (turns : List (Turn R)) : List Edge := turns.flatMap fun t ↦ leftEdges t.sent

/-- The loop drives the left button: `is_dragging` is its level between turns. -/
def buttonLine : Line (visionMachine (R := R)) where
  level s := s.controller.isDragging
  edges t := leftEdges t.sent
  start t := t.before.controller.isDragging
  stop t := t.after.controller.isDragging
  start_step s t := by
    rcases visionMachine_step_cases s t with hstep | hstep
    · rw [hstep]
      rfl
    · rw [hstep]
      rfl
  stop_step s t := by
    rcases visionMachine_step_cases s t with hstep | hstep
    · rw [hstep]
      rfl
    · rw [hstep]
      exact iterate_level t.input (s := s.enter t.env) rfl
  level_next t s h := by
    have ⟨r, ht, hs⟩ := visionMachine_next h
    rw [ht, ← hs]
    rfl

private theorem released_of_startLoop {sh : Shared R} {w h : ℤ} {s : LoopState R}
    (hs : startLoop sh w h = .ok s) : s.controller.isDragging = false := by
  have ⟨controller, hfresh, hdrag⟩ := startLoop_spec hs
  rw [hfresh]
  exact hdrag

/-- In every run `is_dragging` tells the level of the button after each turn. -/
theorem button_level_of_run (sh : Shared R) (w h : ℤ) (ticks : List (Tick R))
    {pre post : List (Turn R)} {t : Turn R} (hrun : runVisionLoop sh w h ticks = pre ++ t :: post) :
    levelAfter false (buttonEdges (pre ++ [t])) = t.after.controller.isDragging := by
  rcases runVisionLoop_cases sh w h ticks with hnil | ⟨s, hs, htrace⟩
  · rw [hnil] at hrun
    simp at hrun
  · rw [htrace] at hrun
    rw [← released_of_startLoop hs]
    exact buttonLine.levelAfter_of_trace ticks hrun

private theorem turn_alternates_iff (s : LoopState R) (t : Tick R) :
    Alternates (buttonLine.start (visionMachine.step s t))
        (buttonLine.edges (visionMachine.step s t)) ↔
      ∀ r, visionMachine.step s t = .iterated r →
        ¬ (r.before.controller.isDragging = true ∧ ClicksIn r.input r.before) := by
  rcases visionMachine_step_cases s t with hstep | hstep
  · rw [hstep]
    simp [buttonLine, Turn.sent]
  · rw [hstep]
    simp only [Turn.iterated.injEq, forall_eq']
    exact iterate_alternates_iff t.input (s := s.enter t.env) rfl

/-- The turn has to end with the button released: the loop is left, by the stop event or by
`break`, or the iteration did not execute `DRAG`. -/
def Turn.mustRelease : Turn R → Bool
  | .stopped _ => true
  | .iterated r => r.after.cur.executed ≠ some .drag || r.quits

/-- Every turn that has to release leaves `is_dragging` false and the button up. -/
def NoStuckDrag (run : List (Turn R)) : Prop :=
  ∀ pre t post, run = pre ++ t :: post → t.mustRelease = true →
    t.after.controller.isDragging = false ∧ levelAfter false (buttonEdges (pre ++ [t])) = false

/-- The turn comes past `drag_stop` when it has to: an iteration that begins in a drag reaches
the release, `q` is not pressed while dragging, and no drag is on when the stop event is
found set. -/
def Turn.Releases : Turn R → Prop
  | .stopped s => s.controller.isDragging = false
  | .iterated r =>
    (r.before.controller.isDragging = true → ReachesRelease r.input r.before) ∧
      ¬ (r.input.key = .q ∧ DragsIn r.input r.before)

omit [Scalar R] in
private theorem mustRelease_iterated_iff (r : Iteration R) :
    (Turn.iterated r).mustRelease = true ↔
      ¬ r.after.cur.executed = some .drag ∨ r.result = .ok .quit := by
  rw [← r.quits_iff]
  simp [Turn.mustRelease]

/-- An iteration that has to release does so exactly when it comes past `drag_stop`. -/
theorem iterate_releases_iff (inp : IterInput R) {s : LoopState R} (hs : s.cur = {}) :
    ((Turn.iterated (iterate inp s)).mustRelease = true →
        (iterate inp s).after.controller.isDragging = false) ↔
      (Turn.iterated (iterate inp s)).Releases := by
  have hview := iterate_buttonView inp hs
  rw [mustRelease_iterated_iff, hview.executed, Bool.eq_false_iff, ne_eq, hview.dragging]
  change _ ↔ (s.controller.isDragging = true → ReachesRelease inp s) ∧
    ¬ (inp.key = .q ∧ DragsIn inp s)
  by_cases hdrag : DragsIn inp s
  · have hreach : ReachesRelease inp s := hdrag.1
    simp [hdrag, hreach, quit_dragging_iff hs hdrag]
  · by_cases hreach : ReachesRelease inp s <;> simp [hdrag, hreach]

private theorem turn_releases_iff (s : LoopState R) (t : Tick R) :
    ((visionMachine.step s t).mustRelease = true →
        (visionMachine.step s t).after.controller.isDragging = false) ↔
      (visionMachine.step s t).Releases := by
  rcases visionMachine_step_cases s t with hstep | hstep
  · rw [hstep]
    simp [Turn.mustRelease, Turn.Releases, Turn.after]
  · rw [hstep]
    exact iterate_releases_iff t.input (s := s.enter t.env) rfl

private theorem noStuckDrag_iff_turns (sh : Shared R) (w h : ℤ) (ticks : List (Tick R)) :
    NoStuckDrag (runVisionLoop sh w h ticks) ↔
      ∀ t ∈ runVisionLoop sh w h ticks,
        t.mustRelease = true → t.after.controller.isDragging = false := by
  constructor
  · intro hno t ht hmust
    have ⟨pre, post, hrun⟩ := List.append_of_mem ht
    exact (hno pre t post hrun hmust).1
  · intro hall pre t post hrun hmust
    have hdrag := hall t (by rw [hrun]; simp) hmust
    rw [button_level_of_run sh w h ticks hrun]
    exact ⟨hdrag, hdrag⟩

end VisionGame.Vision
