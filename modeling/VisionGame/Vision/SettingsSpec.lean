import VisionGame.Vision.IterationSpec

/-!
# What one iteration does to the settings

Library `Vision`. `src/mediapipe/app_gestures.py:427–470,498–537,747–755`. Two places of an
iteration write the settings, the zone and the file: the config watcher at its start and the
key `c` at its end. Everything in between leaves them alone.
-/

namespace VisionGame.Vision
open VisionGame.Base
open Effect

variable {R : Type} [Scalar R]

/-- Shared variables without those every iteration overwrites: pause, status texts, camera. -/
def Shared.settled (sh : Shared R) : Shared R :=
  sh.assign fun g ↦
    { g with detectionActive := false, cameraConnected := false, currentGesture := "",
             currentAction := "", vs := none }

/-- The calibration key reads and writes settled variables only. -/
theorem settled_triggerCalibrationKey (written : WriteOutcome R) (x y : R) (sh : Shared R) :
    (triggerCalibrationKey written x y sh).settled =
      triggerCalibrationKey written x y sh.settled := by
  unfold triggerCalibrationKey
  by_cases h1 : sh.globals.calibrationStep = 1
  · have h1' : sh.settled.globals.calibrationStep = 1 := h1
    dsimp only
    rw [if_pos h1, if_pos h1']
    rfl
  · have h1' : ¬ sh.settled.globals.calibrationStep = 1 := h1
    by_cases h2 : sh.globals.calibrationStep = 2
    · have h2' : sh.settled.globals.calibrationStep = 2 := h2
      dsimp only
      rw [if_neg h1, if_neg h1', if_pos h2, if_pos h2']
      by_cases hz : zoneTooSmall (min sh.globals.calibXMin x) (max sh.globals.calibXMin x)
          (min sh.globals.calibYMin y) (max sh.globals.calibYMin y)
      · have hz' : zoneTooSmall (min sh.settled.globals.calibXMin x)
            (max sh.settled.globals.calibXMin x) (min sh.settled.globals.calibYMin y)
            (max sh.settled.globals.calibYMin y) := hz
        rw [if_pos hz, if_pos hz']
        rfl
      · have hz' : ¬ zoneTooSmall (min sh.settled.globals.calibXMin x)
            (max sh.settled.globals.calibXMin x) (min sh.settled.globals.calibYMin y)
            (max sh.settled.globals.calibYMin y) := hz
        rw [if_neg hz, if_neg hz']
        rfl
    · have h2' : ¬ sh.settled.globals.calibrationStep = 2 := h2
      dsimp only
      rw [if_neg h1, if_neg h1', if_neg h2, if_neg h2']

namespace Loop

/-! ### The rest of an iteration -/

/-- The iteration comes to the calibration key with this hand: it reaches its end and reads
`c` while the hand is selected. -/
structure Presses (inp : IterInput R) (s : LoopState R) (hand : DetectedHand R) : Prop where
  reaches : ReachesRelease inp s
  printable : ∃ m, (watched inp s).shared.globals.gameMode = .str m
  key : inp.key = .c
  selected : selectedHand inp s = some hand

/-- What the key does to settled variables: only `c` with a hand does anything. -/
theorem settled_handleKey (inp : IterInput R) (s : LoopState R) :
    (exec (handleKey inp) s).2.shared.settled =
      match inp.key, s.cur.hand with
      | .c, some hand =>
        triggerCalibrationKey inp.written (hand.landmarks 5).x (hand.landmarks 5).y s.shared.settled
      | _, _ => s.shared.settled := by
  simp only [handleKey]
  cases inp.key with
  | q => rfl
  | p => rfl
  | c =>
    rw [exec_bind_get]
    cases s.cur.hand with
    | none => rfl
    | some hand => exact settled_triggerCalibrationKey ..
  | other => rfl

/-- The rest of an iteration does to settled variables what the key does, unless the mode
cannot be printed. -/
theorem settled_finish (inp : IterInput R) (s : LoopState R) :
    (exec (finish inp) s).2.shared.settled =
      match inp.key, s.cur.hand, s.shared.globals.gameMode with
      | .c, some hand, .str _ =>
        triggerCalibrationKey inp.written (hand.landmarks 5).x (hand.landmarks 5).y s.shared.settled
      | _, _, _ => s.shared.settled := by
  simp only [finish]
  cases hm : s.shared.globals.gameMode with
  | str m =>
    rw [exec_bind_ok (exec_showStatus_ok hm), settled_handleKey]
    change (match inp.key, s.cur.hand with
      | .c, some hand =>
        triggerCalibrationKey inp.written (hand.landmarks 5).x (hand.landmarks 5).y s.shared.settled
      | _, _ => s.shared.settled) = _
    cases inp.key <;> cases s.cur.hand <;> rfl
  | _ =>
    rw [exec_bind_error (exec_showStatus_error (by simp [hm]))]
    cases inp.key <;> cases s.cur.hand <;> rfl

private theorem shared_hand_of_seen {inp : IterInput R} {s t : LoopState R}
    (hsee : seesImage inp (watched inp s)) (hseen : seen t = seen (dispatched inp s)) :
    t.shared = (ready inp s).shared ∧ t.cur.hand = selectedHand inp s := by
  simp only [seen, Prod.mk.injEq] at hseen
  constructor
  · exact hseen.1.trans (dispatched_shared inp s)
  · rw [hseen.2.2.2.2.1, dispatched_hand hsee]

/-- An iteration that comes to the calibration key does what the key does. -/
theorem iterate_settled_of_presses {inp : IterInput R} {s : LoopState R} (hs : s.cur = {})
    {hand : DetectedHand R} (h : Presses inp s hand) :
    (iterate inp s).after.shared.settled =
      triggerCalibrationKey inp.written (hand.landmarks 5).x (hand.landmarks 5).y
        (watched inp s).shared.settled := by
  obtain ⟨t, hseen, _, hafter⟩ := iterate_of_reaches (by rw [hs]) h.reaches
  obtain ⟨hshared, hhand⟩ := shared_hand_of_seen h.reaches.1 hseen
  obtain ⟨m, hm⟩ := h.printable
  have hmode : (ready inp s).shared.globals.gameMode = .str m := hm
  rw [hafter, settled_finish, hhand, h.selected, hshared, h.key, hmode]
  rfl

/-- Any other iteration keeps the settled variables it has after the watcher. -/
theorem iterate_settled_of_not_presses {inp : IterInput R} {s : LoopState R} (hs : s.cur = {})
    (h : ∀ hand, ¬ Presses inp s hand) :
    (iterate inp s).after.shared.settled = (watched inp s).shared.settled := by
  by_cases hr : ReachesRelease inp s
  · obtain ⟨t, hseen, _, hafter⟩ := iterate_of_reaches (by rw [hs]) hr
    obtain ⟨hshared, hhand⟩ := shared_hand_of_seen hr.1 hseen
    rw [hafter, settled_finish, hhand, hshared]
    split
    · next hand m hk hh hm => exact absurd ⟨hr, ⟨m, hm⟩, hk, hh⟩ (h hand)
    · rfl
  · rcases iterate_cut_cases hr with
      ⟨_, hcut⟩ | ⟨_, _, e, hcut⟩ | ⟨_, _, r, e, t, hcut, _, hq, _⟩
    · rw [hcut]
      rfl
    · rw [hcut]
      rfl
    · have hshared : t.shared = (ready inp s).shared := congrArg Prod.fst hq
      rw [hcut, hshared]
      rfl

/-- After the watcher an iteration does not touch its note of the modification time. -/
theorem iterate_lastMtime (inp : IterInput R) {s : LoopState R} (hs : s.cur = {}) :
    (iterate inp s).after.lastMtime = (watched inp s).lastMtime := by
  by_cases hsee : seesImage inp (watched inp s)
  · by_cases hzone : ZoneNumeric (watched inp s).shared.globals
    · obtain ⟨t, hseen, hafter⟩ := iterate_drawn (by rw [hs]) hsee hzone
      simp only [unshared, Prod.mk.injEq] at hafter
      simp only [seen, Prod.mk.injEq] at hseen
      rw [hafter.2.2.2.2.1, hseen.2.2.1.2]
      simp only [dispatched]
      cases analysed inp (ready inp s) <;> rfl
    · obtain ⟨e, he⟩ := exec_iteration_undrawn hsee hzone
      rw [iterate_of_exec he]
      rfl
  · rw [iterate_of_exec (exec_iteration_skipped hsee)]
    rfl

/-! ### The watcher -/

/-- The watcher is due and finds this document under a new modification time. -/
def Reloads (inp : IterInput R) (s : LoopState R) (document : Document R) : Prop :=
  inp.clock.check - s.lastConfigCheck > 1 ∧
    ∃ mtime, s.shared.file = some ⟨mtime, some document⟩ ∧ mtime ≠ s.lastMtime

/-- The watcher finds one document. -/
theorem Reloads.unique {inp : IterInput R} {s : LoopState R} {d e : Document R}
    (hd : Reloads inp s d) (he : Reloads inp s e) : d = e := by
  have ⟨_, m, hm, _⟩ := hd
  have ⟨_, n, hn, _⟩ := he
  rw [hm] at hn
  have hfile := Option.some.inj hn
  exact Option.some.inj (ConfigFile.mk.inj hfile).2

/-- State in which a document is reloaded. -/
def noted (inp : IterInput R) (s : LoopState R) : LoopState R :=
  { s with
    lastConfigCheck := inp.clock.check
    lastMtime := (s.shared.file.map (·.mtime)).getD s.lastMtime }

/-- The watcher is due and finds the file changed. -/
structure Processes (inp : IterInput R) (s : LoopState R) (file : ConfigFile R) : Prop where
  due : inp.clock.check - s.lastConfigCheck > 1
  found : s.shared.file = some file
  changed : file.mtime ≠ s.lastMtime

/-- A watcher that processes a file reads its content and reloads it, and leaves what that
leaves, error or not. -/
theorem Processes.watched_eq {inp : IterInput R} {s : LoopState R} {file : ConfigFile R}
    (h : Processes inp s file) :
    exec (checkConfig inp) { s with lastConfigCheck := inp.clock.check } =
        exec (Effect.orRaise .valueError file.content >>= reloadConfig inp) (noted inp s) ∧
      watched inp s =
        (exec (Effect.orRaise .valueError file.content >>= reloadConfig inp) (noted inp s)).2 := by
  have hcheck : exec (checkConfig inp) { s with lastConfigCheck := inp.clock.check } =
      exec (Effect.orRaise .valueError file.content >>= reloadConfig inp) (noted inp s) := by
    unfold checkConfig noted
    rw [exec_bind_get, h.found]
    dsimp only
    rw [if_pos h.changed, exec_bind_modify]
    rfl
  refine ⟨hcheck, ?_⟩
  unfold watched configWatcher
  rw [exec_bind_get, if_pos h.due, exec_bind_modify, exec_tryCatch, hcheck]
  cases exec (Effect.orRaise .valueError file.content >>= reloadConfig inp) (noted inp s) with
  | mk result t => cases result <;> rfl

/-- A watcher that reloads a document leaves what the reload leaves, error or not. -/
theorem watched_of_reloads {inp : IterInput R} {s : LoopState R} {document : Document R}
    (h : Reloads inp s document) :
    watched inp s = (exec (reloadConfig inp document) (noted inp s)).2 := by
  have ⟨hdue, mtime, hfile, hnew⟩ := h
  have hprocesses : Processes inp s ⟨mtime, some document⟩ := ⟨hdue, hfile, hnew⟩
  rw [hprocesses.watched_eq.2, exec_bind, exec_orRaise_some]

/-- A watcher that reloads nothing leaves the shared variables and the controller alone, and its
note of the modification time unless the file has a new one. -/
theorem watched_of_not_reloads {inp : IterInput R} {s : LoopState R}
    (h : ∀ document, ¬ Reloads inp s document) :
    (watched inp s).shared = s.shared ∧ (watched inp s).controller = s.controller ∧
      ∀ file, s.shared.file = some file → file.mtime = s.lastMtime →
        (watched inp s).lastMtime = s.lastMtime := by
  unfold watched configWatcher
  rw [exec_bind_get]
  split
  · next hdue =>
    rw [exec_bind_modify]
    rw [exec_tryCatch]
    simp only [checkConfig]
    rw [exec_bind_get]
    cases hfile : s.shared.file with
    | none => exact ⟨rfl, rfl, nofun⟩
    | some file =>
      dsimp only
      by_cases hnew : file.mtime ≠ s.lastMtime
      · have hcontent : file.content = none := by
          cases hc : file.content with
          | none => rfl
          | some document =>
            refine absurd ⟨hdue, file.mtime, ?_, hnew⟩ (h document)
            rw [hfile, ← hc]
        rw [if_pos hnew, exec_bind, exec_modify, hcontent]
        refine ⟨rfl, rfl, fun f hf hsame ↦ ?_⟩
        rw [← Option.some.inj hf] at hsame
        exact absurd hsame hnew
      · rw [if_neg hnew]
        exact ⟨rfl, rfl, fun _ _ _ ↦ rfl⟩
  · exact ⟨rfl, rfl, fun _ _ _ ↦ rfl⟩

end Loop
end VisionGame.Vision
