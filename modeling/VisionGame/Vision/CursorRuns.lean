import VisionGame.Base.Pursuit
import VisionGame.Base.Window
import VisionGame.Vision.CallRules
import VisionGame.Vision.CursorPath

/-!
# The cursor in whole runs

Library `Vision`. `src/mediapipe/pc_controller.py:41–75`,
`src/mediapipe/app_gestures.py:498–537,652–691`. Where the hand points is mapped to the screen with
the zone and the sensitivity in force, and smoothed by filters that are rebuilt whenever the
smoothing changes. Whatever is reloaded, paused or switched in between, the cursor never moves past
the pixel that is aimed at, and never leaves a box that holds all pixels aimed at so far.
-/

namespace VisionGame.Vision
open VisionGame.Base
open Effect

/-! ### Pixels -/

/-- The position that an event sets, if it does. -/
def OsEvent.position : OsEvent → Option (ℤ × ℤ)
  | setCursorPos x y => some (x, y)
  | _ => none

/-- The positions among some events, in order. -/
def positions (es : List OsEvent) : List (ℤ × ℤ) := es.filterMap OsEvent.position

/-- No events, no positions. -/
@[simp] theorem positions_nil : positions [] = [] := rfl

/-- Positions of two stretches follow each other. -/
@[simp] theorem positions_append (es fs : List OsEvent) :
    positions (es ++ fs) = positions es ++ positions fs :=
  List.filterMap_append

variable {R : Type} [Scalar R]

/-- A coordinate of the cursor, from one of the screen; `pc_controller.py:70–72`. -/
def pixel (size : ℤ) (x : R) : ℤ := max 0 (min (size - 1) (Scalar.toInt x))

private theorem toInt_mono : Monotone (Scalar.toInt : R → ℤ) := by
  intro x y hxy
  unfold Scalar.toInt
  split
  · next hx =>
    rw [if_pos (hx.trans hxy)]
    exact Int.floor_mono hxy
  · next hx =>
    split
    · next hy =>
      have hceil : ⌈x⌉ ≤ 0 := Int.ceil_le.mpr (by exact_mod_cast (not_le.mp hx).le)
      exact hceil.trans (Int.floor_nonneg.mpr hy)
    · exact Int.ceil_mono hxy

private theorem pixel_mono (size : ℤ) : Monotone (pixel size : R → ℤ) := fun _ _ hxy ↦
  max_le_max_left 0 (min_le_min_left (size - 1) (toInt_mono hxy))

/-- The pixel of a position in the unit square; `pc_controller.py:63–72` without the filters. -/
def aimPixel (W H : ℤ) (target : R × R) : ℤ × ℤ :=
  (pixel W (target.1 * W), pixel H (target.2 * H))

/-! ### The controller -/

/-- The last outputs of both filters, if they have any, are where the cursor is. -/
def Locates (W H : ℤ) (position : Option (ℤ × ℤ)) (c : PCController R) : Prop :=
  ∃ last, Steers W H last c ∧ ∀ p, last = some p → position = some (pixel W p.1, pixel H p.2)

/-- A method that touches neither the screen nor the filters, and sends no position. -/
def Still (f : PCController R → PCController R × List OsEvent) : Prop :=
  ∀ c, ((f c).1.screenWidth = c.screenWidth ∧ (f c).1.screenHeight = c.screenHeight ∧
    (f c).1.filterX = c.filterX ∧ (f c).1.filterY = c.filterY) ∧ positions (f c).2 = []

/-- A left click does not move the cursor. -/
theorem still_click (freeze : Bool) (debounceTime now : R) :
    Still fun c : PCController R ↦ c.click freeze debounceTime now := by
  intro c
  dsimp only [PCController.click]
  split <;> exact ⟨⟨rfl, rfl, rfl, rfl⟩, rfl⟩

/-- Neither does a right click. -/
theorem still_rightClick (now : R) : Still fun c : PCController R ↦ c.rightClick now := by
  intro c
  dsimp only [PCController.rightClick]
  split <;> exact ⟨⟨rfl, rfl, rfl, rfl⟩, rfl⟩

omit [Scalar R] in
/-- Neither does the start of a drag. -/
theorem still_dragStart : Still (PCController.dragStart : PCController R → _) := by
  intro c
  unfold PCController.dragStart
  split <;> exact ⟨⟨rfl, rfl, rfl, rfl⟩, rfl⟩

omit [Scalar R] in
/-- Neither does its end. -/
theorem still_dragStop : Still (PCController.dragStop : PCController R → _) := by
  intro c
  unfold PCController.dragStop
  split <;> exact ⟨⟨rfl, rfl, rfl, rfl⟩, rfl⟩

/-- Neither does a swipe. -/
theorem still_swipe (keys : List String) (now : R) :
    Still fun c : PCController R ↦ PCController.swipe keys c now := by
  intro c
  dsimp only [PCController.swipe]
  split <;> exact ⟨⟨rfl, rfl, rfl, rfl⟩, rfl⟩

/-! ### Rules about the cursor -/

/-- A rule for an observer of the cursor: what it knows of the controller, which aims of moves at a
clock reading it expects, and what it can say of the positions sent toward them. -/
structure CursorRule (R : Type) [Scalar R] (W H : ℤ) (σ : Type) where
  Holds : σ → PCController R → Prop
  Fits : σ → R → ℤ × ℤ → Prop
  Allows : σ → R → Option (ℤ × ℤ) → List (ℤ × ℤ) → Prop
  /-- The observer after some positions. -/
  observe : σ → List (ℤ × ℤ) → σ
  observe_nil : ∀ w, observe w [] = w
  observe_append : ∀ w sent more, observe w (sent ++ more) = observe (observe w sent) more
  fits_observe : ∀ {w now aim}, Fits w now aim → ∀ sent, Fits (observe w sent) now aim
  allows_nil : ∀ w now aim, Allows w now aim []
  allows_append : ∀ {w now aim sent more}, Allows w now aim sent →
    Allows (observe w sent) now aim more → Allows w now aim (sent ++ more)
  still : ∀ {w c}, Holds w c → ∀ {f}, Still f → Holds w (f c).1
  filters : ∀ {w c}, Holds w c → ∀ v, Holds w (exec (PCController.updateFilterParams v) c).2
  move : ∀ {w c}, Holds w c → ∀ {target : R × R} {now : R}, target.1 ∈ Set.Icc (0 : R) 1 →
    target.2 ∈ Set.Icc (0 : R) 1 → Fits w now (aimPixel W H target) →
    Holds (observe w (positions (c.moveMouse target.1 target.2 now).2))
        (c.moveMouse target.1 target.2 now).1 ∧
      Allows w now (some (aimPixel W H target))
        (positions (c.moveMouse target.1 target.2 now).2)

private theorem Locates.still {W H : ℤ} {position : Option (ℤ × ℤ)} {c : PCController R}
    (h : Locates W H position c) {f : PCController R → PCController R × List OsEvent}
    (hf : Still f) : Locates W H position (f c).1 := by
  obtain ⟨last, hsteers, hlast⟩ := h
  obtain ⟨⟨hwidth, hheight, hx, hy⟩, _⟩ := hf c
  refine ⟨last, ?_, hlast⟩
  constructor
  · exact hwidth.trans hsteers.width
  · exact hheight.trans hsteers.height
  · rw [hx]
    exact hsteers.followsX
  · rw [hy]
    exact hsteers.followsY

/-- New filters do not say where the cursor is. -/
theorem locates_retuned {W H : ℤ} {c : PCController R} (hwidth : c.screenWidth = W)
    (hheight : c.screenHeight = H) {v : Json R} {suavidad : R} (hv : v.asFloat = some suavidad)
    (position : Option (ℤ × ℤ)) :
    Locates W H position (exec (PCController.updateFilterParams v) c).2 := by
  refine ⟨none, ?_, nofun⟩
  rw [PCController.exec_updateFilterParams_some c hv]
  exact ⟨hwidth, hheight, follows_init W suavidad, follows_init H suavidad⟩

private theorem Locates.updateFilterParams {W H : ℤ} {position : Option (ℤ × ℤ)}
    {c : PCController R} (h : Locates W H position c) (v : Json R) :
    Locates W H position (exec (PCController.updateFilterParams v) c).2 := by
  obtain ⟨last, hsteers, hlast⟩ := h
  cases hv : v.asFloat with
  | none =>
    obtain ⟨e, hkept, _⟩ := c.exec_updateFilterParams_none hv
    rw [hkept]
    exact ⟨last, ⟨hsteers.width, hsteers.height, hsteers.followsX, hsteers.followsY⟩, hlast⟩
  | some suavidad => exact locates_retuned hsteers.width hsteers.height hv position

section
variable (hpi : 0 < (Scalar.pi : R)) {W H : ℤ} (hW : 1 ≤ W) (hH : 1 ≤ H)
include hpi

private theorem Follows.pixel_mem {size : ℤ} {f : OneEuroFilter R} {last : Option R}
    (h : Follows size f last) {start : Option ℤ}
    (hstart : ∀ p, last = some p → start = some (pixel size p)) (target now : R) :
    pixel size (f.filter target now).1 ∈
      Set.uIcc (start.getD (pixel size target)) (pixel size target) := by
  cases hl : last with
  | none =>
    rw [OneEuroFilter.filter_of_last_eq_none (h.lastOutput.trans hl)]
    exact Set.right_mem_uIcc
  | some p =>
    have hmem := OneEuroFilter.filter_mem_uIcc hpi h.tuned (h.lastOutput.trans hl) target now
    rw [hstart p hl, Option.getD_some]
    exact (pixel_mono size).mapsTo_uIcc hmem

include hW hH

private theorem Locates.moveMouse {position : Option (ℤ × ℤ)} {c : PCController R}
    (h : Locates W H position c) {target : R × R} (hx : target.1 ∈ Set.Icc (0 : R) 1)
    (hy : target.2 ∈ Set.Icc (0 : R) 1) (now : R) :
    Locates W H (positionAfter position (positions (c.moveMouse target.1 target.2 now).2))
        (c.moveMouse target.1 target.2 now).1 ∧
      Pursues (some (aimPixel W H target)) position
        (positions (c.moveMouse target.1 target.2 now).2) := by
  cases hfrozen : c.isFrozen now with
  | true =>
    rw [PCController.moveMouse_of_frozen hfrozen]
    exact ⟨h, pursues_nil _ _⟩
  | false =>
    obtain ⟨last, hsteers, hlast⟩ := h
    have hsent : positions (c.moveMouse target.1 target.2 now).2 =
        [(pixel W (c.filterX.filter (target.1 * W) now).1,
          pixel H (c.filterY.filter (target.2 * H) now).1)] := by
      rw [PCController.moveMouse_of_not_frozen hfrozen, hsteers.width, hsteers.height]
      rfl
    rw [hsent]
    constructor
    · have hcall : (CursorCall.moveMouse target.1 target.2 now).InUnit := ⟨hx, hy⟩
      refine ⟨_, steers_step hpi hW hH hsteers hcall, fun p hp ↦ ?_⟩
      have hsmooth : (c.smoothed target.1 target.2 now).or last = some p := hp
      rw [PCController.smoothed, hfrozen, if_neg Bool.false_ne_true, hsteers.width,
        hsteers.height] at hsmooth
      rw [← Option.some.inj hsmooth]
      rfl
    · intro p hp
      refine ⟨_, rfl, ?_⟩
      rw [List.mem_singleton.mp hp, Set.uIcc_prod_eq]
      have hfst (p : R) (hp : last.map Prod.fst = some p) :
          position.map Prod.fst = some (pixel W p) := by
        obtain ⟨q, hq, hqp⟩ := Option.map_eq_some_iff.mp hp
        rw [hlast q hq, ← hqp]
        rfl
      have hsnd (p : R) (hp : last.map Prod.snd = some p) :
          position.map Prod.snd = some (pixel H p) := by
        obtain ⟨q, hq, hqp⟩ := Option.map_eq_some_iff.mp hp
        rw [hlast q hq, ← hqp]
        rfl
      have hmemX := hsteers.followsX.pixel_mem hpi hfst (target.1 * W) now
      have hmemY := hsteers.followsY.pixel_mem hpi hsnd (target.2 * H) now
      cases position with
      | none => exact ⟨hmemX, hmemY⟩
      | some q => exact ⟨hmemX, hmemY⟩

end

namespace Loop

/-! ### The dispatch -/

/-- The pixel of the cursor target of an analysis, if it has one. -/
def aimOf (W H : ℤ) (analysis : Analysis R) (s : LoopState R) : Option (ℤ × ℤ) :=
  match (exec (cursorTarget analysis) s).1 with
  | .ok target => some (aimPixel W H target)
  | .error _ => none

private theorem aimOf_congr (W H : ℤ) (analysis : Analysis R) {s t : LoopState R}
    (h : t.shared = s.shared) : aimOf W H analysis t = aimOf W H analysis s := by
  unfold aimOf
  rw [exec_cursorTarget_congr analysis h]

private theorem normalise_mem {raw : R} {zoneMin zoneMax : Json R} {s : LoopState R} {x : R}
    (h : (exec (normalise raw zoneMin zoneMax) s).1 = .ok x) : x ∈ Set.Icc (0 : R) 1 := by
  simp only [normalise] at h
  cases hlo : zoneMin.asNumber with
  | none => simp [exec_bind, hlo] at h
  | some lo =>
    cases hhi : zoneMax.asNumber with
    | none => simp [exec_bind, hlo, hhi] at h
    | some hi =>
      simp only [exec_bind, hlo, hhi, exec_orRaise_some] at h
      split at h
      · cases h
      · rw [← Except.ok.inj h]
        exact ⟨le_max_left _ _, max_le zero_le_one (min_le_left _ _)⟩

private theorem cursorTarget_mem {analysis : Analysis R} {s : LoopState R} {target : R × R}
    (h : (exec (cursorTarget analysis) s).1 = .ok target) :
    target.1 ∈ Set.Icc (0 : R) 1 ∧ target.2 ∈ Set.Icc (0 : R) 1 := by
  simp only [cursorTarget] at h
  rw [exec_bind_get, exec_bind, exec_normalise_congr _ _ _ (rfl : s.shared = s.shared)] at h
  generalize hx : (exec (normalise analysis.cursorX _ _) s).1 = x at h
  cases x with
  | error e => cases h
  | ok x =>
    dsimp only at h
    rw [exec_bind, exec_normalise_congr _ _ _ (rfl : s.shared = s.shared)] at h
    generalize hy : (exec (normalise analysis.cursorY _ _) s).1 = y at h
    cases y with
    | error e => cases h
    | ok y =>
      rw [← Except.ok.inj h]
      exact ⟨normalise_mem hx, normalise_mem hy⟩

section
variable {W H : ℤ} {σ : Type} (rule : CursorRule R W H σ)

/-- From one state to another the rule was kept: for an observer that expects the cursor target of
an analysis. The shared variables, on which the target depends, are as they were. -/
def Ruled (now : R) (analysis : Analysis R) (s t : LoopState R) : Prop :=
  t.shared = s.shared ∧ ∃ sent, t.cur.out = s.cur.out ++ sent ∧
    ∀ w, (∀ a ∈ aimOf W H analysis s, rule.Fits w now a) → rule.Holds w s.controller →
      rule.Holds (rule.observe w (positions sent)) t.controller ∧
        rule.Allows w now (aimOf W H analysis s) (positions sent)

section
variable {rule} {now : R} {analysis : Analysis R}

/-- What sends nothing and keeps what is known keeps the rule. -/
theorem ruled_of_still {s t : LoopState R} (hshared : t.shared = s.shared)
    (hout : t.cur.out = s.cur.out)
    (hholds : ∀ w, rule.Holds w s.controller → rule.Holds w t.controller) :
    Ruled rule now analysis s t := by
  refine ⟨hshared, [], by rw [hout, List.append_nil], fun w _ h ↦ ⟨?_, rule.allows_nil _ _ _⟩⟩
  rw [positions_nil, rule.observe_nil]
  exact hholds w h

instance : Std.Refl (Ruled rule now analysis) := ⟨fun _ ↦ ruled_of_still rfl rfl fun _ h ↦ h⟩

instance : IsTrans (LoopState R) (Ruled rule now analysis) where
  trans := by
    rintro s t u ⟨hshared, first, hfirst, hst⟩ ⟨hshared', second, hsecond, htu⟩
    refine ⟨hshared'.trans hshared, first ++ second, ?_, fun w hfits h ↦ ?_⟩
    · rw [hsecond, hfirst, List.append_assoc]
    · have ⟨hholds, hallows⟩ := hst w hfits h
      rw [aimOf_congr W H analysis hshared] at htu
      have ⟨hholds', hallows'⟩ := htu _ (fun a ha ↦ rule.fits_observe (hfits a ha) _) hholds
      rw [positions_append, rule.observe_append]
      exact ⟨hholds', rule.allows_append hallows hallows'⟩

private theorem ruled_perform {f : PCController R → PCController R × List OsEvent} (hf : Still f) :
    Respects (Ruled rule now analysis) (perform f) := by
  intro s
  refine ⟨rfl, (f s.controller).2, rfl, fun w _ h ↦ ?_⟩
  rw [(hf s.controller).2, rule.observe_nil]
  exact ⟨rule.still h hf, rule.allows_nil _ _ _⟩

end

private theorem keptByCalls_ruled (inp : IterInput R) (analysis : Analysis R) :
    KeptByCalls (Ruled rule inp.clock.move analysis) inp analysis := by
  constructor
  · exact fun s ↦ ruled_of_still rfl rfl fun w h ↦ rule.filters h _
  · exact fun gesture action _ s ↦ ruled_of_still rfl rfl fun _ h ↦ h
  · intro s target htarget
    have hresult : (exec (cursorTarget analysis) s).1 = .ok target := by rw [htarget]
    have ⟨hx, hy⟩ := cursorTarget_mem hresult
    refine ⟨rfl, _, rfl, fun w hfits h ↦ ?_⟩
    rw [aimOf, hresult] at hfits ⊢
    exact rule.move h hx hy (hfits _ rfl)
  · exact fun freeze debounce ↦ ruled_perform (still_click _ _ _)
  · exact ruled_perform (still_rightClick _)
  · exact ruled_perform still_dragStart
  · exact ruled_perform still_dragStop
  · exact ruled_perform (still_swipe _ _)
  · exact ruled_perform (still_swipe _ _)
  · refine respects_bind respects_get fun s ↦ ?_
    split
    · refine respects_bind ?_ fun _ ↦ respects_modify fun s ↦ ?_
      · exact ruled_perform fun c ↦ ⟨⟨rfl, rfl, rfl, rfl⟩, rfl⟩
      · exact ruled_of_still rfl rfl fun _ h ↦ h
    · exact respects_pure _
  · exact fun action s ↦ ruled_of_still rfl rfl fun _ h ↦ h

end

/-! ### Iterations -/

/-- What is known of the controller stays so. -/
def KeepsHolding {W H : ℤ} {σ : Type} (rule : CursorRule R W H σ) (w : σ)
    (s t : LoopState R) : Prop := rule.Holds w s.controller → rule.Holds w t.controller

instance {W H : ℤ} {σ : Type} (rule : CursorRule R W H σ) (w : σ) :
    Std.Refl (KeepsHolding rule w) := ⟨fun _ ↦ id⟩

instance {W H : ℤ} {σ : Type} (rule : CursorRule R W H σ) (w : σ) :
    IsTrans (LoopState R) (KeepsHolding rule w) := ⟨fun _ _ _ hst htu ↦ htu ∘ hst⟩

/-- The watcher keeps what is known of the controller. -/
theorem watched_holds {W H : ℤ} {σ : Type} {rule : CursorRule R W H σ} {w : σ}
    (inp : IterInput R) {s : LoopState R} (h : rule.Holds w s.controller) :
    rule.Holds w (watched inp s).controller := by
  have hkept : Respects (KeepsHolding rule w) (configWatcher inp) := by
    apply respects_configWatcher
    · exact fun f s ↦ id
    · exact fun v s hholds ↦ rule.filters hholds v
    · exact fun source s ↦ id
    · exact fun s now ↦ id
    · exact fun s mtime ↦ id
  exact hkept s h

/-- What follows the dispatch changes only the shared variables. -/
theorem processed_unshared (inp : IterInput R) (s : LoopState R) :
    unshared (exec (processActions inp >>= fun _ ↦ finish inp) s).2 =
      unshared (exec (processActions inp) s).2 := by
  rw [exec_bind]
  cases h : exec (processActions inp) s with
  | mk result t =>
    cases result with
    | ok _ => exact finish_unshared inp t
    | error e => rfl

end Loop

/-- The pixel that an iteration aims at: the cursor target of the analysis it makes, with the zone
and the sensitivity in force. -/
def Iteration.aim (W H : ℤ) (r : Iteration R) : Option (ℤ × ℤ) :=
  r.after.cur.analysis.bind fun analysis ↦
    Loop.aimOf W H analysis (Loop.ready r.input r.before)

open Loop in
/-- An iteration keeps a rule for an observer that expects its aim. -/
theorem iterate_ruled {W H : ℤ} {σ : Type} (rule : CursorRule R W H σ) (inp : IterInput R)
    {s : LoopState R} (hs : s.cur = {}) {w : σ}
    (hfits : ∀ a ∈ (iterate inp s).aim W H, rule.Fits w inp.clock.move a)
    (h : rule.Holds w s.controller) :
    rule.Holds (rule.observe w (positions (iterate inp s).after.cur.out))
        (iterate inp s).after.controller ∧
      rule.Allows w inp.clock.move ((iterate inp s).aim W H)
        (positions (iterate inp s).after.cur.out) := by
  have hwatched := watched_holds inp h
  have hout : (watched inp s).cur.out = [] := by rw [watched_cur, hs]
  have hready : (ready inp s).cur.out = [] := hout
  have hnothing {t : LoopState R} (hcontroller : t.controller = (watched inp s).controller)
      (hsent : t.cur.out = []) (aim : Option (ℤ × ℤ)) :
      rule.Holds (rule.observe w (positions t.cur.out)) t.controller ∧
        rule.Allows w inp.clock.move aim (positions t.cur.out) := by
    rw [hcontroller, hsent, positions_nil, rule.observe_nil]
    exact ⟨hwatched, rule.allows_nil _ _ _⟩
  by_cases hsees : seesImage inp (watched inp s)
  · by_cases hz : ZoneNumeric (watched inp s).shared.globals
    · have hafter : unshared (iterate inp s).after =
          unshared (exec (processActions inp) (ready inp s)).2 := by
        rw [(iterate_framed hsees hz).2]
        exact processed_unshared inp (ready inp s)
      simp only [unshared, Prod.mk.injEq] at hafter
      rw [hafter.1, hafter.2.2.2.2.2.2.2]
      cases ha : analysed inp (ready inp s) with
      | none =>
        rw [exec_processActions_idle ha]
        dsimp only [stopDrag]
        rw [hready, List.nil_append, (still_dragStop _).2, rule.observe_nil]
        have hholds : rule.Holds w (ready inp s).controller := hwatched
        exact ⟨rule.still hholds still_dragStop, rule.allows_nil _ _ _⟩
      | some result =>
        have hview : (iterate inp s).after.cur.analysis = some result.1 := by
          have hdrawn := iterate_view_drawn (by rw [hs]) hsees hz
          simp only [view, dispatched, ha, withAnalysis, Prod.mk.injEq] at hdrawn
          exact hdrawn.2.2.2
        rw [Iteration.aim, hview] at hfits ⊢
        have haim : aimOf W H result.1 (withAnalysis (ready inp s) result) =
            aimOf W H result.1 (ready inp s) := aimOf_congr W H result.1 rfl
        rw [exec_processActions_analysed ha]
        obtain ⟨_, sent, hsent, hruled⟩ := (keptByCalls_ruled rule inp result.1).actOn
          (withAnalysis (ready inp s) result)
        have hstart : (withAnalysis (ready inp s) result).cur.out = [] := hready
        rw [hstart, List.nil_append] at hsent
        rw [haim] at hruled
        rw [hsent]
        exact hruled w hfits hwatched
    · obtain ⟨e, he⟩ := exec_iteration_undrawn hsees hz
      apply hnothing
      · rw [iterate_of_exec he]
        rfl
      · rw [iterate_of_exec he]
        exact hout
  · apply hnothing
    · rw [iterate_of_exec (exec_iteration_skipped hsees)]
      rfl
    · rw [iterate_of_exec (exec_iteration_skipped hsees)]
      exact hout

/-! ### Runs -/

/-- Positions that a turn sets. -/
def Turn.moves (t : Turn R) : List (ℤ × ℤ) := positions t.sent

/-- The pixel that a turn aims at. -/
def Turn.aim (W H : ℤ) (t : Turn R) : Option (ℤ × ℤ) := t.iteration.bind (Iteration.aim W H)

/-- Reading of the clock at which a turn moves the cursor. -/
def Turn.reading (t : Turn R) : Option R := t.iteration.map (·.input.clock.move)

omit [Scalar R] in
private theorem Turn.moves_eq_nil {t : Turn R} (h : t.reading = none) : t.moves = [] := by
  cases t with
  | stopped s => rfl
  | iterated r => cases h

/-- A turn's aim is one that an observer expects. -/
def Turn.Fits {W H : ℤ} {σ : Type} (rule : CursorRule R W H σ) (w : σ) (t : Turn R) : Prop :=
  ∀ now ∈ t.reading, ∀ a ∈ t.aim W H, rule.Fits w now a

/-- A turn keeps a rule for an observer that expects its aim. -/
theorem visionMachine_ruled {W H : ℤ} {σ : Type} (rule : CursorRule R W H σ) {s : LoopState R}
    {w : σ} (h : rule.Holds w s.controller) (t : Tick R)
    (hfits : (visionMachine.step s t).Fits rule w) :
    rule.Holds (rule.observe w (visionMachine.step s t).moves)
        (visionMachine.step s t).after.controller ∧
      ∀ now ∈ (visionMachine.step s t).reading,
        rule.Allows w now ((visionMachine.step s t).aim W H) (visionMachine.step s t).moves := by
  rcases visionMachine_step_cases s t with hstop | hiter
  · rw [hstop]
    refine ⟨?_, nofun⟩
    change rule.Holds (rule.observe w []) s.controller
    rw [rule.observe_nil]
    exact h
  · rw [hiter] at hfits ⊢
    have henter : rule.Holds w (s.enter t.env).controller := h
    have ⟨hholds, hallows⟩ := iterate_ruled rule t.input rfl (hfits _ rfl) henter
    refine ⟨hholds, fun now hnow ↦ ?_⟩
    rw [← Option.some.inj hnow]
    exact hallows

/-- In a turn the cursor is moved between where it is and the pixel that is aimed at, or onto this
pixel when it has not been moved yet; it stays in every box that holds the pixels aimed at so
far. -/
structure Turn.PursuesAim (W H : ℤ) (past : List (Turn R)) (t : Turn R) : Prop where
  between : Pursues (t.aim W H) (positionAfter none (past.flatMap Turn.moves)) t.moves
  boxed : ∀ lo hi, (∀ u ∈ past ++ [t], ∀ a ∈ u.aim W H, a ∈ Set.Icc lo hi) →
    ∀ p ∈ t.moves, p ∈ Set.Icc lo hi

private theorem locates_of_startLoop {sh : Shared R} {W H : ℤ} {s : LoopState R}
    (h : startLoop sh W H = .ok s) : Locates W H none s.controller := by
  cases hv : sh.globals.suavVal.asFloat with
  | none =>
    obtain ⟨e, hexec, _⟩ := (PCController.blank W H).exec_updateFilterParams_none hv
    simp only [startLoop, hexec] at h
    cases h
  | some suavidad =>
    have hretuned := locates_retuned (c := PCController.blank W H) rfl rfl hv none
    rw [startLoop_fresh h]
    exact hretuned

section
variable (hpi : 0 < (Scalar.pi : R)) {W H : ℤ} (hW : 1 ≤ W) (hH : 1 ≤ H)
include hpi hW hH

/-- The cursor pursues what is aimed at. -/
def pursuit : CursorRule R W H (Option (ℤ × ℤ)) where
  Holds := Locates W H
  Fits _ _ _ := True
  Allows position _ aim sent := Pursues aim position sent
  observe := positionAfter
  observe_nil := positionAfter_nil
  observe_append := positionAfter_append
  fits_observe _ _ := trivial
  allows_nil position _ aim := pursues_nil aim position
  allows_append h hmore := h.append hmore
  still h := h.still
  filters h v := h.updateFilterParams v
  move h _ now hx hy _ := h.moveMouse hpi hW hH hx hy now

private theorem visionMachine_pursues {s : LoopState R} {position : Option (ℤ × ℤ)}
    (h : Locates W H position s.controller) (t : Tick R) :
    Locates W H (positionAfter position (visionMachine.step s t).moves)
        (visionMachine.step s t).after.controller ∧
      Pursues ((visionMachine.step s t).aim W H) position (visionMachine.step s t).moves := by
  have ⟨hholds, hallows⟩ := visionMachine_ruled (pursuit hpi hW hH) h t fun _ _ _ _ ↦ trivial
  refine ⟨hholds, ?_⟩
  cases hreading : (visionMachine.step s t).reading with
  | none =>
    rw [Turn.moves_eq_nil hreading]
    exact pursues_nil _ _
  | some now => exact hallows now hreading

/-- In every run, whatever else happens, the cursor is never moved past the pixel that is aimed at,
and never leaves a box that holds all pixels aimed at so far. -/
theorem cursor_pursues_aims (sh : Shared R) (ticks : List (Tick R)) :
    ∀ past t rest, runVisionLoop sh W H ticks = past ++ t :: rest → t.PursuesAim W H past := by
  have hbetween : ∀ past t rest, runVisionLoop sh W H ticks = past ++ t :: rest →
      Pursues (t.aim W H) (positionAfter none (past.flatMap Turn.moves)) t.moves := by
    rcases runVisionLoop_cases sh W H ticks with hnil | ⟨s, hs, htrace⟩
    · simp [hnil]
    · rw [htrace]
      apply visionMachine.split_forall
        (I := fun past s ↦ Locates W H (positionAfter none (past.flatMap Turn.moves)) s.controller)
        (P := fun past t ↦
          Pursues (t.aim W H) (positionAfter none (past.flatMap Turn.moves)) t.moves)
      · exact fun past s tick _ hs ↦ (visionMachine_pursues hpi hW hH hs tick).2
      · intro past s tick _ next hs hnext
        have ⟨r, hr, hafter⟩ := visionMachine_next hnext
        have hlocates := (visionMachine_pursues hpi hW hH hs tick).1
        rw [List.flatMap_append, List.flatMap_singleton, positionAfter_append]
        rw [hr] at hlocates ⊢
        rw [← hafter]
        exact hlocates
      · exact locates_of_startLoop hs
  intro past t rest hsplit
  constructor
  · exact hbetween past t rest hsplit
  · intro lo hi haims p hp
    apply mem_box_of_pursues ?_ haims p
    · exact List.mem_flatMap.mpr ⟨t, by simp, hp⟩
    · intro before u between hpast
      apply hbetween before u (between ++ rest)
      rw [hsplit, ← List.singleton_append, ← List.append_assoc, hpast]
      simp

end

/-- A hand points to the right and, in another mode, to the left. -/
def pointAround : List (Tick ℚ) :=
  let pointer (x : ℚ) : List (DetectedHand ℚ) :=
    [⟨GestureAnalyzer.handPose ⟨true, false, false, false, false⟩ false x, "Right"⟩]
  [.seeing 10 (pointer (1 / 2)), .seeing 10.5 (pointer (7 / 10)),
    .inMode "fruitninja" 11 (pointer (3 / 10))]

/-- The cursor moves left and stops short of what is pointed at. -/
theorem cursor_pursues_aims_pointAround :
    ∃ t, (runVisionLoop Shared.online 640 480 pointAround)[2]? = some t ∧
      (t.moves, t.aim 640 480) = ([(138, 240)], some (130, 240)) ∧
      t.PursuesAim 640 480 ((runVisionLoop Shared.online 640 480 pointAround).take 2) := by
  obtain ⟨t, hget, hmoves⟩ := Option.map_eq_some_iff.mp
    (show (runVisionLoop Shared.online 640 480 pointAround)[2]?.map
        (fun t ↦ (t.moves, t.aim 640 480)) = some ([(138, 240)], some (130, 240)) by
      decide +kernel)
  have hpi : (0 : ℚ) < Scalar.pi := by
    change (0 : ℚ) < 355 / 113
    norm_num
  exact ⟨t, hget, hmoves, cursor_pursues_aims hpi (by decide) (by decide) Shared.online pointAround
    _ t _ (eq_take_cons_drop hget)⟩

end VisionGame.Vision
