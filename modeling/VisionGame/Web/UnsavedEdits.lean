import VisionGame.Web.ControlPage

/-!
# Unsaved edits on the control page

Library `Web`. `app/page.tsx:57–66,127–192`, `convex/settings.ts:28–51`. Sliders change the page
only; every answer of the query overwrites the page, whatever made it arrive. Save keeps the
values of the user exactly as long as every answer that arrives brings them.
-/

namespace VisionGame.Web
open VisionGame.Base

variable {R : Type} [Scalar R]

/-! ### What Save stores -/

private theorem stored_concat_sliders (updates : List (SettingsArgs R)) {args : SettingsArgs R}
    {s d : R} (hs : args.sensitivity = some s) (hd : args.triggerDelay = some d) :
    (getSettings (stored (updates ++ [args]))).sensitivity = s ∧
      (getSettings (stored (updates ++ [args]))).triggerDelay = d := by
  have ⟨hsens, hdelay⟩ := stored_sliders (updates ++ [args])
  rw [lastCarried_concat] at hsens hdelay
  rw [hs, Option.some_or, Option.getD_some] at hsens
  rw [hd, Option.some_or, Option.getD_some] at hdelay
  exact ⟨hsens, hdelay⟩

namespace ControlWorld

/-- The settings once the store has taken everything under way. -/
def drained (w : ControlWorld R) : Settings R := getSettings (stored (w.log ++ w.outbox))

/-- Pressing Save stores the values that the user last set on this page. -/
def SavesEdits (w : ControlWorld R) : Prop :=
  (∀ v, w.lastSensitivity = some v → w.handleSave.drained.sensitivity = v) ∧
    ∀ v, w.lastTriggerDelay = some v → w.handleSave.drained.triggerDelay = v

/-- Save stores what the page shows. -/
theorem savesEdits_iff (w : ControlWorld R) :
    w.SavesEdits ↔ (∀ v, w.lastSensitivity = some v → w.page.sensitivity = v) ∧
      ∀ v, w.lastTriggerDelay = some v → w.page.triggerDelay = v := by
  have hdrained : w.handleSave.drained =
      getSettings (stored (w.log ++ w.outbox ++ [w.page.savedArgs])) := by
    rw [List.append_assoc]
    rfl
  have hsaved : w.page.savedArgs.sensitivity = some w.page.sensitivity ∧
      w.page.savedArgs.triggerDelay = some w.page.triggerDelay := ⟨rfl, rfl⟩
  have ⟨hs, hd⟩ := stored_concat_sliders (w.log ++ w.outbox) hsaved.1 hsaved.2
  simp only [SavesEdits, hdrained, hs, hd]

/-- Among the mutations that an answer takes into account, the last one that carries a slider
carries what the user last set on this page; or none carries it, and the user set the default. -/
def BringsEdits (n : ℕ) (w : ControlWorld R) : Prop :=
  (∀ v, w.lastSensitivity = some v →
      (lastCarried SettingsArgs.sensitivity (w.log.take n)).getD 65 = v) ∧
    ∀ v, w.lastTriggerDelay = some v →
      (lastCarried SettingsArgs.triggerDelay (w.log.take n)).getD 200 = v

/-- These are the answers that show what the user last set. -/
theorem bringsEdits_iff (n : ℕ) (w : ControlWorld R) :
    w.BringsEdits n ↔ (∀ v, w.lastSensitivity = some v → (w.answer n).sensitivity = v) ∧
      ∀ v, w.lastTriggerDelay = some v → (w.answer n).triggerDelay = v := by
  have ⟨hsens, hdelay⟩ := stored_sliders (w.log.take n)
  simp only [BringsEdits, answer, hsens, hdelay]

end ControlWorld

/-- Every answer that arrives brings the values that the user last set. -/
def ControlTurn.KeepsEdits (t : ControlTurn R) : Prop :=
  ∀ n, t.event = .refresh n → t.before.arrives n = true → t.before.BringsEdits n

/-! ### Runs -/

/-- What the page shows and what the user last set, for the two sliders. -/
private def ControlWorld.sliders (w : ControlWorld R) : (R × Option R) × R × Option R :=
  ((w.page.sensitivity, w.lastSensitivity), w.page.triggerDelay, w.lastTriggerDelay)

private theorem savesEdits_of_sliders {w w' : ControlWorld R} (h : w.SavesEdits)
    (hsame : w'.sliders = w.sliders) : w'.SavesEdits := by
  have hs := congrArg (·.1) hsame
  have hd := congrArg (·.2) hsame
  simp only [ControlWorld.sliders, Prod.mk.injEq] at hs hd
  rw [ControlWorld.savesEdits_iff] at h ⊢
  rw [hs.1, hs.2, hd.1, hd.2]
  exact h

private theorem savesEdits_of_none {w : ControlWorld R} (hs : w.lastSensitivity = none)
    (hd : w.lastTriggerDelay = none) : w.SavesEdits := by
  constructor
  · intro v hv
    rw [hs] at hv
    cases hv
  · intro v hv
    rw [hd] at hv
    cases hv

private theorem savesEdits_perform {w : ControlWorld R} (h : w.SavesEdits) {e : ControlEvent R}
    (he : ∀ n, e ≠ .refresh n) : (w.perform e).SavesEdits := by
  cases e with
  | slideSensitivity value =>
    have hboth := w.savesEdits_iff.mp h
    rw [ControlWorld.savesEdits_iff]
    exact ⟨fun v hv ↦ Option.some.inj hv, hboth.2⟩
  | slideTriggerDelay value =>
    have hboth := w.savesEdits_iff.mp h
    rw [ControlWorld.savesEdits_iff]
    exact ⟨hboth.1, fun v hv ↦ Option.some.inj hv⟩
  | changeMapping gesture action => exact savesEdits_of_sliders h rfl
  | toggleCamera value => exact savesEdits_of_sliders h rfl
  | selectProfile profile =>
    apply savesEdits_of_sliders h
    simp only [ControlWorld.perform, ControlWorld.handleProfileChange]
    split
    · rfl
    · rfl
  | save => exact savesEdits_of_sliders h rfl
  | reset =>
    rw [ControlWorld.savesEdits_iff]
    exact ⟨fun v hv ↦ Option.some.inj hv, fun v hv ↦ Option.some.inj hv⟩
  | showTab game => exact savesEdits_of_sliders h rfl
  | commit =>
    apply savesEdits_of_sliders h
    simp only [ControlWorld.perform, ControlWorld.commit]
    split
    · rfl
    · rfl
  | refresh n => exact absurd rfl (he n)
  | reload sent => exact savesEdits_of_none rfl rfl

/-- An event keeps the edits exactly when an answer that it delivers brings them. -/
theorem savesEdits_step_iff {w : ControlWorld R} (h : w.SavesEdits) (e : ControlEvent R) :
    (w.handle e).SavesEdits ↔ (controlMachine.step w e).KeepsEdits := by
  by_cases he : ∃ n, e = .refresh n
  · obtain ⟨n, rfl⟩ := he
    have hkeeps : (controlMachine.step w (.refresh n)).KeepsEdits ↔
        (w.arrives n = true → w.BringsEdits n) := by
      constructor
      · intro hk
        exact hk n rfl
      · intro hk m hm
        cases hm
        exact hk
    rw [hkeeps]
    change (w.refresh n).SavesEdits ↔ _
    cases ha : w.arrives n with
    | true =>
      rw [ControlWorld.savesEdits_iff, ControlWorld.bringsEdits_iff]
      simp only [ControlWorld.refresh, ha, ite_true, true_imp_iff]
      rfl
    | false =>
      simp only [ControlWorld.refresh, ha, Bool.false_eq_true, ite_false, false_imp_iff, iff_true]
      exact h
  · have hne : ∀ n, e ≠ .refresh n := fun n hn ↦ he ⟨n, hn⟩
    constructor
    · intro _ n hn
      exact absurd hn (hne n)
    · intro _
      simp only [ControlWorld.handle]
      split
      · exact savesEdits_perform h hne
      · exact h

/-- In every run on a page, pressing Save at any moment stores what the user last set exactly
when every answer that arrives brings it. -/
theorem unsaved_edits_survive_iff (log : List (SettingsArgs R)) (events : List (ControlEvent R)) :
    (∀ t ∈ controlMachine.trace (.load log) events, t.after.SavesEdits) ↔
      ∀ t ∈ controlMachine.trace (.load log) events, t.KeepsEdits := by
  apply controlMachine.trace_forall_iff (I := ControlWorld.SavesEdits) events
  · intro w e _ hw
    exact savesEdits_step_iff hw e
  · intro w e _ w' hw hkeeps hnext
    rw [← Option.some.inj hnext]
    exact (savesEdits_step_iff hw e).mpr hkeeps
  · exact savesEdits_of_none rfl rfl

/-- The slider is moved to 80 and a gesture remapped; the store takes the mapping, and its
answer takes the slider back to 65. -/
def remapAfterSlide : List (ControlEvent ℚ) :=
  [.refresh 0, .slideSensitivity 80, .changeMapping .pinch .mute, .commit, .refresh 1]

/-- Remapping a gesture loses the slider's value. -/
theorem unsaved_edits_survive_fails :
    ¬ ∀ t ∈ controlMachine.trace (.load []) remapAfterSlide, t.after.SavesEdits := by
  intro h
  have hlast := h (controlMachine.trace (.load []) remapAfterSlide)[4] (List.getElem_mem _)
  have hsens := ((ControlWorld.savesEdits_iff _).mp hlast).1 80 rfl
  exact absurd hsens (by decide)

end VisionGame.Web
