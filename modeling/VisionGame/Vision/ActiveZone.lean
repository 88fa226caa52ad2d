import VisionGame.Vision.SettingsSpec

/-!
# The active zone

Library `Vision`. `src/mediapipe/app_gestures.py:444–470,512–533,1005–1028`. Start-up, hot
reload and calibration write the zone; only calibration tests its width. Over whole runs of
the program the zone stays at least a tenth wide in both directions, and no iteration divides
by zero, exactly when every document that is taken over brings such a zone.
-/

namespace VisionGame.Vision
open VisionGame.Base
open Effect

variable {R : Type} [Scalar R]

/-- The four zone variables. -/
structure ActiveZone (R : Type) where
  xMin : Json R
  xMax : Json R
  yMin : Json R
  yMax : Json R

/-- Zone the globals hold. -/
def Globals.zone (g : Globals R) : ActiveZone R := ⟨g.zoneXMin, g.zoneXMax, g.zoneYMin, g.zoneYMax⟩

/-- Two numbers in increasing order, at least a tenth apart. -/
def GoodPair (lo hi : Json R) : Prop :=
  ∃ a b, lo.asNumber = some a ∧ hi.asNumber = some b ∧ 0.1 ≤ b - a

/-- Both ranges are in order and wide enough. -/
def ActiveZone.Good (z : ActiveZone R) : Prop := GoodPair z.xMin z.xMax ∧ GoodPair z.yMin z.yMax

/-- First two entries of a value, when it has them. -/
def pairOf (zone : Json R) : Option (Json R × Json R) :=
  match zone.index 0, zone.index 1 with
  | some lo, some hi => some (lo, hi)
  | _, _ => none

/-- Zone after the settings of a document have been taken over: a sensitivity that is not a
number, or one that no float holds, stops before the zone, entries that are missing stop at their
range. -/
def ActiveZone.take (cfg : Dict (Json R)) (z : ActiveZone R) : ActiveZone R :=
  match (cfg.getD "sens_val" (.num 3)).asFloat, pairOf (cfg.getD "zone_x" defaultZone),
    pairOf (cfg.getD "zone_y" defaultZone) with
  | none, _, _ => z
  | some _, none, _ => z
  | some _, some x, none => { z with xMin := x.1, xMax := x.2 }
  | some _, some x, some y => ⟨x.1, x.2, y.1, y.2⟩

/-- The ranges a document brings are good, as far as they are taken over. -/
def BringsGoodZone (cfg : Dict (Json R)) : Prop :=
  (cfg.getD "sens_val" (.num 3)).asFloat.isSome →
    ∀ x, pairOf (cfg.getD "zone_x" defaultZone) = some x →
      GoodPair x.1 x.2 ∧
        ∀ y, pairOf (cfg.getD "zone_y" defaultZone) = some y → GoodPair y.1 y.2

/-- A good zone stays good exactly when the document brings good ranges. -/
theorem ActiveZone.good_take_iff {cfg : Dict (Json R)} {z : ActiveZone R} (h : z.Good) :
    (z.take cfg).Good ↔ BringsGoodZone cfg := by
  unfold ActiveZone.take BringsGoodZone
  cases (cfg.getD "sens_val" (.num 3)).asFloat with
  | none => simp [h]
  | some sens =>
    cases pairOf (cfg.getD "zone_x" defaultZone) with
    | none => simp [h]
    | some x =>
      cases pairOf (cfg.getD "zone_y" defaultZone) with
      | none => simp [Good, h.2]
      | some y => simp [Good]

/-- The lower bound of such a pair is below the upper one. -/
theorem GoodPair.lt {lo hi : Json R} (h : GoodPair lo hi) :
    ∃ a b, lo.asNumber = some a ∧ hi.asNumber = some b ∧ a < b := by
  have ⟨a, b, ha, hb, hab⟩ := h
  have hpos : (0 : R) < b - a := lt_of_lt_of_le (by norm_num) hab
  exact ⟨a, b, ha, hb, sub_pos.mp hpos⟩

/-- Such a pair has a width that can be divided by. -/
theorem GoodPair.span {lo hi : Json R} (h : GoodPair lo hi) :
    ∃ w, Loop.span lo hi = some w ∧ w ≠ 0 := by
  have ⟨a, b, ha, hb, hab⟩ := h.lt
  refine ⟨b - a, ?_, sub_ne_zero.mpr (ne_of_gt hab)⟩
  simp only [Loop.span]
  rw [ha, hb]

/-- In a good zone the cursor target exists. -/
theorem ActiveZone.Good.usable {g : Globals R} (h : g.zone.Good) : Loop.ZoneUsable g :=
  ⟨h.1.span, h.2.span⟩

/-- A good zone can be drawn. -/
theorem ActiveZone.Good.numeric {g : Globals R} (h : g.zone.Good) : Loop.ZoneNumeric g := by
  have ⟨⟨a, b, ha, hb, _⟩, ⟨c, d, hc, hd, _⟩⟩ := h
  refine ⟨?_, ?_, ?_, ?_⟩
  · exact Option.isSome_of_eq_some ha
  · exact Option.isSome_of_eq_some hc
  · exact Option.isSome_of_eq_some hb
  · exact Option.isSome_of_eq_some hd

omit [Scalar R] in
private theorem zone_of_settled {sh th : Shared R} (h : sh.settled = th.settled) :
    sh.globals.zone = th.globals.zone := by
  have hzone := congrArg (fun sh : Shared R ↦ sh.globals.zone) h
  exact hzone

/-- The default zone of a rejected calibration is good. -/
theorem good_default : (⟨.num 0.2, .num 0.8, .num 0.2, .num 0.8⟩ : ActiveZone R).Good := by
  have hpair : GoodPair (R := R) (.num 0.2) (.num 0.8) := ⟨0.2, 0.8, rfl, rfl, by norm_num⟩
  exact ⟨hpair, hpair⟩

private theorem triggerCalibrationKey_good (written : WriteOutcome R) (x y : R) {sh : Shared R}
    (h : sh.globals.zone.Good) : (triggerCalibrationKey written x y sh).globals.zone.Good := by
  simp only [triggerCalibrationKey]
  split
  · exact h
  · split
    · split
      · exact good_default
      · next hz =>
        simp only [zoneTooSmall] at hz
        push Not at hz
        exact ⟨⟨_, _, rfl, rfl, hz.1⟩, ⟨_, _, rfl, rfl, hz.2⟩⟩
    · exact h

/-! ### The writers of the zone -/

omit [Scalar R] in
/-- A zone is read or a lookup raises. -/
theorem exec_zonePair {σ : Type} (zone : Json R) (s : σ) :
    exec (zonePair zone) s =
      (match pairOf zone with
        | some p => .ok p
        | none => .error .lookupError, s) := by
  unfold zonePair pairOf
  cases zone.index 0 with
  | none => rfl
  | some lo => cases zone.index 1 <;> rfl

omit [Scalar R] in
private theorem startCameraStream_zone (source : Json R) (opens : Bool) (written : WriteOutcome R)
    (sh : Shared R) :
    (startCameraStream source opens written sh).globals.zone = sh.globals.zone := by
  simp only [startCameraStream]
  split <;> rfl

private theorem main_zone (created opened : WriteOutcome R) (opens : Bool) (sh : Shared R) :
    (exec (main created opened opens) sh).2.globals.zone =
      match (loadConfig created sh).1 with
      | .other _ => sh.globals.zone
      | .object cfg => sh.globals.zone.take cfg := by
  have hload : (loadConfig created sh).2.globals = sh.globals := by
    simp only [loadConfig]
    cases sh.file <;> rfl
  simp only [main]
  rw [exec_bind_get]
  rw [exec_bind_modify]
  cases (loadConfig created sh).1 with
  | other _ => exact congrArg Globals.zone hload
  | object cfg =>
    rw [← hload]
    dsimp only
    simp only [ActiveZone.take]
    rw [exec_bind_modify]
    cases hsens : (cfg.getD "sens_val" (.num 3)).asFloat with
    | none =>
      obtain ⟨e, hexec, _⟩ := exec_toFloat_none hsens
        ((loadConfig created sh).2.assign fun g ↦
          { g with
            config := cfg
            cameraSrc := cfg.getD "camera_source" (.str "0")
            gameMode := cfg.getD "game_mode" (.str "normal")
            targetHandDisplay := cfg.getD "target_hand" (.str "DERECHA")
            sensVal := cfg.getD "sens_val" (.num 3)
            suavVal := cfg.getD "suav_val" (.num 10)
            targetHandMp := handLabel (cfg.getD "target_hand" (.str "DERECHA")) })
      rw [exec_bind_error hexec]
      rfl
    | some sens =>
      rw [exec_bind_ok (exec_toFloat_some hsens _)]
      rw [exec_bind_modify]
      rw [exec_bind, exec_zonePair]
      cases pairOf (cfg.getD "zone_x" defaultZone) with
      | none => rfl
      | some x =>
        dsimp only
        rw [exec_bind_modify]
        rw [exec_bind, exec_zonePair]
        cases pairOf (cfg.getD "zone_y" defaultZone) with
        | none => rfl
        | some y =>
          dsimp only
          rw [exec_bind_modify]
          rw [exec_modify]
          exact startCameraStream_zone ..

namespace Loop

/-- What the end of a reload leaves alone. -/
private def zoned (s : LoopState R) : ActiveZone R := s.shared.globals.zone

/-- A reload takes over the zone of its document, as far as it comes. -/
theorem reloadConfig_zone (inp : IterInput R) (cfg : Dict (Json R)) (s : LoopState R) :
    (exec (reloadConfig inp (.object cfg)) s).2.shared.globals.zone =
      s.shared.globals.zone.take cfg := by
  unfold reloadConfig ActiveZone.take
  rw [exec_bind_assign]
  cases hsens : (cfg.getD "sens_val" (.num 3)).asFloat with
  | none =>
    obtain ⟨e, hexec, _⟩ := exec_toFloat_none hsens { s with
      shared := s.shared.assign fun g ↦ { g with suavVal := cfg.getD "suav_val" (.num 10) } }
    rw [exec_bind_error hexec]
    rfl
  | some sens =>
    rw [exec_bind_ok (exec_toFloat_some hsens _)]
    rw [exec_bind_assign]
    rw [exec_bind_assign]
    rw [exec_bind, exec_zonePair]
    cases pairOf (cfg.getD "zone_x" defaultZone) with
    | none => rfl
    | some x =>
      dsimp only
      rw [exec_bind_assign]
      rw [exec_bind, exec_zonePair]
      cases pairOf (cfg.getD "zone_y" defaultZone) with
      | none => rfl
      | some y =>
        dsimp only
        rw [exec_bind_assign]
        have htail : Respects (SameUnder zoned) (do
            updateFilterParams (cfg.getD "suav_val" (.num 10))
            followCamera inp (cfg.getD "camera_source" (.str "0"))) :=
          respects_bind (respects_zoom fun _ _ ↦ rfl) fun _ ↦
            respects_followCamera _ _ fun _ ↦ startCameraStream_zone ..
        exact htail _

/-- What the watcher does to a good zone. -/
theorem watched_good_iff (inp : IterInput R) {s : LoopState R} (h : s.shared.globals.zone.Good) :
    (watched inp s).shared.globals.zone.Good ↔
      ∀ cfg, Reloads inp s (.object cfg) → BringsGoodZone cfg := by
  by_cases hr : ∃ document, Reloads inp s document
  · have ⟨document, hdocument⟩ := hr
    rw [watched_of_reloads hdocument]
    cases document with
    | other v =>
      have hnone : ∀ cfg, Reloads inp s (.object cfg) → BringsGoodZone cfg := by
        intro cfg hcfg
        cases hdocument.unique hcfg
      exact iff_of_true h hnone
    | object cfg =>
      have hnoted : (noted inp s).shared.globals.zone.Good := h
      rw [reloadConfig_zone, ActiveZone.good_take_iff hnoted]
      constructor
      · intro hgood cfg' hcfg'
        cases hdocument.unique hcfg'
        exact hgood
      · exact fun hall ↦ hall cfg hdocument
  · have hnone : ∀ document, ¬ Reloads inp s document := fun d hd ↦ hr ⟨d, hd⟩
    rw [(watched_of_not_reloads hnone).1]
    exact iff_of_true h fun cfg hcfg ↦ absurd hcfg (hnone _)

/-! ### The zone over an iteration -/

/-- An iteration that dispatches in a good zone leaves a good zone. -/
theorem iterate_good {inp : IterInput R} {s : LoopState R} (hs : s.cur = {})
    (h : (watched inp s).shared.globals.zone.Good) :
    (iterate inp s).after.shared.globals.zone.Good := by
  have hsettled : (watched inp s).shared.settled.globals.zone.Good := h
  by_cases hp : ∃ hand, Presses inp s hand
  · have ⟨hand, hhand⟩ := hp
    have hzone := zone_of_settled ((iterate_settled_of_presses hs hhand).trans
      (settled_triggerCalibrationKey ..).symm)
    rw [hzone]
    exact triggerCalibrationKey_good _ _ _ h
  · have hnone : ∀ hand, ¬ Presses inp s hand := fun hand hh ↦ hp ⟨hand, hh⟩
    rw [zone_of_settled (iterate_settled_of_not_presses hs hnone)]
    exact h

private theorem exec_finish_ne_zeroDivision (inp : IterInput R) (s : LoopState R) :
    (exec (finish inp) s).1 ≠ .error .zeroDivisionError := by
  simp only [finish]
  by_cases h : ∃ m, s.shared.globals.gameMode = .str m
  · obtain ⟨m, hm⟩ := h
    rw [exec_bind_ok (exec_showStatus_ok hm), exec_handleKey_end]
    simp
  · rw [exec_bind_error (exec_showStatus_error h)]
    simp

/-- An iteration that dispatches in a good zone does not divide by zero. -/
theorem iterate_ne_zeroDivision {inp : IterInput R} {s : LoopState R} (hs : s.cur = {})
    (h : (watched inp s).shared.globals.zone.Good) :
    (iterate inp s).result ≠ .error .zeroDivisionError := by
  by_cases hr : ReachesRelease inp s
  · have ⟨t, _, hresult, _⟩ := iterate_of_reaches (by rw [hs]) hr
    rw [hresult]
    exact exec_finish_ne_zeroDivision inp t
  · rcases iterate_cut_cases hr with
      ⟨_, hcut⟩ | ⟨_, hundrawn, _⟩ | ⟨_, _, r, e, t, hcut, _, _, he⟩
    · rw [hcut]
      simp
    · exact absurd h.numeric hundrawn
    · rw [hcut]
      exact fun herror ↦ he h.usable (Except.error.inj herror)

end Loop

/-! ### The zone over runs of the program -/

/-- In every state of the turn the zone is good, and nothing is divided by zero. -/
def Turn.ZoneSafe : Turn R → Prop
  | .stopped s => s.shared.globals.zone.Good
  | .iterated r =>
    r.before.shared.globals.zone.Good ∧
      (Loop.watched r.input r.before).shared.globals.zone.Good ∧
      r.after.shared.globals.zone.Good ∧ r.result ≠ .error .zeroDivisionError

/-- A document that the turn reloads brings a good zone. -/
def Turn.ReloadsGoodZone : Turn R → Prop
  | .stopped _ => True
  | .iterated r => ∀ cfg, Loop.Reloads r.input r.before (.object cfg) → BringsGoodZone cfg

/-- What happens before an iteration does not assign the zone: only start-up, the watcher and
the calibration key do. -/
def Tick.KeepsZone (t : Tick R) : Prop := ∀ sh, (t.env sh).globals.zone = sh.globals.zone

private theorem OutsideEvent.handle_zone (e : OutsideEvent R) (sh : Shared R) :
    (e.handle sh).globals.zone = sh.globals.zone := by
  cases e with
  | connect source opens written => exact startCameraStream_zone ..
  | _ => rfl

/-- Outside events before an iteration leave the zone alone. -/
theorem Tick.keepsZone_of_outside (events : List (OutsideEvent R)) {t : Tick R}
    (h : t.env = OutsideEvent.run events) : t.KeepsZone := by
  intro sh
  rw [h]
  exact OutsideEvent.run_keeps (f := fun sh ↦ sh.globals.zone) (fun e _ ↦ e.handle_zone) sh

/-- Settings that start-up takes over: those of the file, or the defaults when there is none
that can be parsed. -/
def startupDocument (file : Option (ConfigFile R)) : Document R :=
  (loadConfig .refused ⟨Globals.init, file⟩).1

/-- The settings of start-up bring a good zone. -/
def StartsGoodZone (file : Option (ConfigFile R)) : Prop :=
  ∀ cfg, startupDocument file = .object cfg → BringsGoodZone cfg

private theorem startsGoodZone_none : StartsGoodZone (R := R) none := by
  intro cfg hcfg
  cases hcfg
  have hpair : pairOf (R := R) defaultZone = some (.num 0.2, .num 0.8) := rfl
  have hx : (defaultConfig (R := R)).getD "zone_x" defaultZone = defaultZone := rfl
  have hy : (defaultConfig (R := R)).getD "zone_y" defaultZone = defaultZone := rfl
  intro _ x h
  rw [hx, hpair] at h
  cases h
  refine ⟨good_default.1, fun y h ↦ ?_⟩
  rw [hy, hpair] at h
  cases h
  exact good_default.2

private theorem turn_zoneSafe_iff {s : LoopState R} {t : Tick R} (ht : t.KeepsZone)
    (hs : s.shared.globals.zone.Good) :
    (visionMachine.step s t).ZoneSafe ↔ (visionMachine.step s t).ReloadsGoodZone := by
  have henter : (s.enter t.env).shared.globals.zone.Good := by
    have hzone : (s.enter t.env).shared.globals.zone = s.shared.globals.zone := ht s.shared
    rw [hzone]
    exact hs
  rcases visionMachine_step_cases s t with hstep | hstep
  · rw [hstep]
    exact iff_of_true henter trivial
  · rw [hstep]
    have hwatched := Loop.watched_good_iff t.input henter
    constructor
    · intro hsafe
      exact hwatched.mp hsafe.2.1
    · intro hgood
      have hw := hwatched.mpr hgood
      exact ⟨henter, hw, Loop.iterate_good rfl hw, Loop.iterate_ne_zeroDivision rfl hw⟩

/-- Start-up leaves a good zone exactly when the settings it takes over bring one. -/
theorem main_good_iff (created opened : WriteOutcome R) (opens : Bool)
    (file : Option (ConfigFile R)) :
    (exec (main created opened opens) ⟨Globals.init, file⟩).2.globals.zone.Good ↔
      StartsGoodZone file := by
  have hinit : (⟨Globals.init, file⟩ : Shared R).globals.zone.Good := good_default
  have hdocument : (loadConfig created ⟨Globals.init, file⟩).1 = startupDocument file := by
    unfold startupDocument loadConfig
    cases file <;> rfl
  rw [main_zone, hdocument]
  simp only [StartsGoodZone]
  cases startupDocument file with
  | other v => exact iff_of_true hinit (by simp)
  | object cfg =>
    rw [ActiveZone.good_take_iff hinit]
    simp

/-- Throughout a run of the program the zone is good and nothing is divided by zero exactly
when the settings of start-up and those of every reload bring a good zone. -/
theorem zone_invariant_iff (created opened : WriteOutcome R) (opens : Bool)
    (file : Option (ConfigFile R)) (w h : ℤ) (ticks : List (Tick R))
    (hticks : ∀ t ∈ ticks, t.KeepsZone) :
    ((runProgram created opened opens file w h ticks).1.globals.zone.Good ∧
        ∀ t ∈ (runProgram created opened opens file w h ticks).2, t.ZoneSafe) ↔
      StartsGoodZone file ∧
        ∀ t ∈ (runProgram created opened opens file w h ticks).2, t.ReloadsGoodZone := by
  have hmain := main_good_iff created opened opens file
  simp only [runProgram]
  cases hexec : exec (main created opened opens) ⟨Globals.init, file⟩ with
  | mk result sh =>
    rw [hexec] at hmain
    cases result with
    | error e => simpa using hmain
    | ok _ =>
      dsimp only at hmain ⊢
      rw [hmain]
      apply and_congr_right
      intro hstart
      rcases runVisionLoop_cases sh w h ticks with hnil | ⟨s, hs, htrace⟩
      · simp [hnil]
      · rw [htrace]
        refine visionMachine.trace_forall_iff (I := fun s ↦ s.shared.globals.zone.Good) ticks
          (fun s t ht hgood ↦ turn_zoneSafe_iff (hticks t ht) hgood) ?_ ?_
        · intro s t ht u hgood hreload hnext
          have ⟨r, hr, hu⟩ := visionMachine_next hnext
          have hsafe := (turn_zoneSafe_iff (hticks t ht) hgood).mpr hreload
          rw [hr] at hsafe
          rw [← hu]
          exact hsafe.2.2.1
        · have ⟨controller, hfresh, _⟩ := startLoop_spec hs
          rw [hfresh]
          exact hmain.mpr hstart

/-- A run without a settings file, which writes none: the defaults keep the zone good. -/
theorem zone_invariant_of_defaults :
    (runProgram (R := ℚ) .refused .refused true none 640 480
        [.seeing 10 [⟨GestureAnalyzer.dragPose, "Right"⟩]]).1.globals.zone.Good ∧
      ∀ t ∈ (runProgram (R := ℚ) .refused .refused true none 640 480
        [.seeing 10 [⟨GestureAnalyzer.dragPose, "Right"⟩]]).2, t.ZoneSafe := by
  rw [zone_invariant_iff .refused .refused true none 640 480 _
    (List.forall_mem_singleton.mpr fun _ ↦ rfl)]
  have hfiles : (runProgram (R := ℚ) .refused .refused true none 640 480
      [.seeing 10 [⟨GestureAnalyzer.dragPose, "Right"⟩]]).2.all
        (fun t ↦ t.before.shared.file.isNone) = true := by
    decide +kernel
  refine ⟨startsGoodZone_none, fun t ht ↦ ?_⟩
  have hnone := List.all_eq_true.mp hfiles t ht
  cases t with
  | stopped s => trivial
  | iterated r =>
    rintro cfg ⟨-, mtime, hfile, -⟩
    change r.before.shared.file.isNone = true at hnone
    rw [hfile] at hnone
    cases hnone

/-- A file whose horizontal range is a point: the first drag divides by zero. -/
theorem zone_invariant_fails :
    ¬ ∀ t ∈ (runProgram (R := ℚ) .refused .refused true
        (some ⟨1, some (.object (Dict.ofList [("zone_x", .arr [.num 0.5, .num 0.5])]))⟩) 640 480
        [.seeing 10 [⟨GestureAnalyzer.dragPose, "Right"⟩]]).2, t.ZoneSafe := by
  intro hall
  have hraise : (runProgram (R := ℚ) .refused .refused true
      (some ⟨1, some (.object (Dict.ofList [("zone_x", .arr [.num 0.5, .num 0.5])]))⟩) 640 480
      [.seeing 10 [⟨GestureAnalyzer.dragPose, "Right"⟩]]).2.any
        (·.iteration.any fun r ↦ r.result = .error .zeroDivisionError) = true := by
    decide +kernel
  have ⟨t, ht, hraises⟩ := List.any_eq_true.mp hraise
  have hsafe := hall t ht
  cases t with
  | stopped s => cases hraises
  | iterated r => exact hsafe.2.2.2 (of_decide_eq_true hraises)

end VisionGame.Vision
