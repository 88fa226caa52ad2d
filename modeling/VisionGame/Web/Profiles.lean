import VisionGame.Web.Vocabulary

/-!
# Saved profiles

Library `Web`. `lib/gestures.ts:113–142`, `app/page.tsx:57–66,127–192`,
`components/advanced-settings.tsx:109–113`. Save writes the mappings of the active profile into
a table of the module, where a selection finds them. A reload of the page starts the table
afresh; what was saved is forgotten unless it is the shipped preset.
-/

namespace VisionGame.Web
open VisionGame.Base

variable {R : Type}

/-! ### What a selection yields -/

/-- Mappings are an object. -/
def IsObject (m : Document R) : Prop := ∃ fields, m = .object fields

/-- The page's own mappings are objects. -/
theorem keptByPage_isObject : KeptByPage (IsObject (R := R)) where
  map _ := ⟨_, rfl⟩
  edit _ _ _ _ := ⟨_, rfl⟩
  copy _ _ := ⟨_, rfl⟩

private theorem IsObject.copy_eq {m : Document R} (h : IsObject m) : .object (spread m) = m := by
  obtain ⟨fields, rfl⟩ := h
  rfl

/-- The shipped table holds the preset of every profile. -/
theorem shippedMappings_apply (p : Profile) :
    (shippedMappings p.id : Option (Document R)) = some p.preset.toDocument := by
  cases p <;> simp [shippedMappings, Dict.ofList, Profile.id]

namespace ControlWorld

/-- What selecting a profile makes the page's mappings. -/
def selected (p : Profile) (w : ControlWorld R) : Document R :=
  (w.handleProfileChange p).page.mappings

/-- Selecting a profile yields what was last saved under it, or its preset. -/
def RemembersProfiles (w : ControlWorld R) : Prop :=
  ∀ p : Profile, w.selected p = (w.lastSaved p.id).getD p.preset.toDocument

/-- A selection finds the mappings in the table. -/
theorem selected_of_table {w : ControlWorld R} {p : Profile} {m : Document R}
    (h : w.profileMappings p.id = some m) : w.selected p = m := by
  simp only [selected, handleProfileChange]
  rw [h]
  rfl

end ControlWorld

/-- Selections yield what was last saved, and saving, editing or resetting under one profile
does not change what selecting another one yields. -/
structure ControlTurn.Remembers (t : ControlTurn R) : Prop where
  remembered : t.after.RemembersProfiles
  separate : (t.event = .save ∨ t.event = .reset ∨ ∃ g a, t.event = .changeMapping g a) →
    ∀ p : Profile, p.id ≠ t.before.page.activeProfile → t.after.selected p = t.before.selected p

/-- The page is loaded again only when nothing but presets was saved last. -/
def ControlTurn.ReloadsPresets (t : ControlTurn R) : Prop :=
  ∀ sent, t.event = .reload sent → ∀ (p : Profile) (m : Document R),
    t.before.lastSaved p.id = some m → m = p.preset.toDocument

/-! ### Runs -/

/-- All mappings are objects, and the table holds what was last saved under each profile, or its
preset. -/
structure ControlWorld.KeepsProfiles (w : ControlWorld R) : Prop where
  objects : w.AllMappings IsObject
  table : ∀ p : Profile,
    w.profileMappings p.id = some ((w.lastSaved p.id).getD p.preset.toDocument)

private theorem ControlWorld.KeepsProfiles.remembers {w : ControlWorld R} (h : w.KeepsProfiles) :
    w.RemembersProfiles := fun p ↦ selected_of_table (h.table p)

variable [Scalar R]

private theorem answer_isObject {w : ControlWorld R} (h : w.AllMappings IsObject) (n : ℕ) :
    IsObject (w.answer n).mappings := by
  have hnull : ¬IsObject (.other .null : Document R) := by
    rintro ⟨fields, hfields⟩
    cases hfields
  rcases h.answer_cases hnull n with ⟨hobject, _⟩ | ⟨hquery | hinsert, _⟩
  · exact hobject
  · rw [hquery]
    exact ⟨_, rfl⟩
  · rw [hinsert]
    exact ⟨_, rfl⟩

private theorem table_perform {w : ControlWorld R} (h : w.KeepsProfiles) {e : ControlEvent R}
    (he : ∀ sent, e ≠ .reload sent) (p : Profile) :
    (w.perform e).profileMappings p.id =
      some (((w.perform e).lastSaved p.id).getD p.preset.toDocument) := by
  cases e with
  | selectProfile profile =>
    simp only [ControlWorld.perform, ControlWorld.handleProfileChange]
    split
    · exact h.table p
    · exact h.table p
  | save =>
    change (w.profileMappings.set w.page.activeProfile (.object (spread w.page.mappings))) p.id =
      some (((w.lastSaved.set w.page.activeProfile w.page.mappings) p.id).getD _)
    rw [Dict.set_apply, Dict.set_apply, h.objects.page.copy_eq]
    split
    · rfl
    · exact h.table p
  | commit =>
    simp only [ControlWorld.perform, ControlWorld.commit]
    split
    · exact h.table p
    · exact h.table p
  | refresh n =>
    simp only [ControlWorld.perform, ControlWorld.refresh]
    split
    · exact h.table p
    · exact h.table p
  | reload sent => exact absurd rfl (he sent)
  | _ => exact h.table p

/-- A reload leaves the table in step exactly when nothing but presets was saved last. -/
theorem table_reload_iff (w : ControlWorld R) (sent : ℕ) :
    (w.reload sent).RemembersProfiles ↔ ∀ (p : Profile) (m : Document R),
      w.lastSaved p.id = some m → m = p.preset.toDocument := by
  have hselected (p : Profile) : (w.reload sent).selected p = p.preset.toDocument :=
    ControlWorld.selected_of_table (shippedMappings_apply p)
  have hsaved (p : Profile) : (w.reload sent).lastSaved p.id = w.lastSaved p.id := rfl
  simp only [ControlWorld.RemembersProfiles]
  constructor
  · intro h p m hm
    have hp := h p
    rw [hselected, hsaved, hm] at hp
    exact hp.symm
  · intro h p
    rw [hselected, hsaved]
    cases hm : w.lastSaved p.id with
    | none => rfl
    | some m => exact (h p m hm).symm

private theorem table_other {w : ControlWorld R} {e : ControlEvent R}
    (he : e = .save ∨ e = .reset ∨ ∃ g a, e = .changeMapping g a) {p : Profile}
    (hp : p.id ≠ w.page.activeProfile) :
    (w.handle e).profileMappings p.id = w.profileMappings p.id := by
  simp only [ControlWorld.handle]
  split
  · rcases he with rfl | rfl | ⟨g, a, rfl⟩
    · exact Dict.set_of_ne _ _ hp
    · rfl
    · rfl
  · rfl

/-- A turn remembers the profiles exactly when it does not reload the page over a profile that
was saved with other mappings than its preset; then the table is in step. -/
theorem remembers_step {w : ControlWorld R} (h : w.KeepsProfiles) (e : ControlEvent R) :
    ((controlMachine.step w e).Remembers ↔ (controlMachine.step w e).ReloadsPresets) ∧
      ((controlMachine.step w e).ReloadsPresets → (w.handle e).KeepsProfiles) := by
  have hobjects : (w.handle e).AllMappings IsObject := by
    simp only [ControlWorld.handle]
    split
    · exact h.objects.perform keptByPage_isObject e fun n _ _ ↦ answer_isObject h.objects n
    · exact h.objects
  have hseparate : (e = .save ∨ e = .reset ∨ ∃ g a, e = .changeMapping g a) →
      ∀ p : Profile, p.id ≠ w.page.activeProfile → (w.handle e).selected p = w.selected p := by
    intro he p hp
    have hafter := (table_other he hp).trans (h.table p)
    rw [ControlWorld.selected_of_table hafter, ControlWorld.selected_of_table (h.table p)]
  by_cases hreload : ∃ sent, e = .reload sent
  · obtain ⟨sent, rfl⟩ := hreload
    have hreloads : (controlMachine.step w (.reload sent)).ReloadsPresets ↔
        ∀ (p : Profile) (m : Document R), w.lastSaved p.id = some m → m = p.preset.toDocument := by
      constructor
      · intro hr
        exact hr sent rfl
      · intro hr _ _
        exact hr
    rw [hreloads, ← table_reload_iff w sent]
    constructor
    · constructor
      · intro hr
        exact hr.remembered
      · intro hr
        exact ⟨hr, hseparate⟩
    · intro hr
      refine ⟨hobjects, fun p ↦ ?_⟩
      have hp := hr p
      rw [ControlWorld.selected_of_table (shippedMappings_apply p)] at hp
      exact (shippedMappings_apply p).trans (congrArg some hp)
  · have hne : ∀ sent, e ≠ .reload sent := fun sent hs ↦ hreload ⟨sent, hs⟩
    have hkeeps : (w.handle e).KeepsProfiles := by
      refine ⟨hobjects, fun p ↦ ?_⟩
      simp only [ControlWorld.handle]
      split
      · exact table_perform h hne p
      · exact h.table p
    constructor
    · constructor
      · intro _ sent hs
        exact absurd hs (hne sent)
      · intro _
        exact ⟨hkeeps.remembers, hseparate⟩
    · intro _
      exact hkeeps

/-- From an empty table on, selections yield after every event what was last saved under their
profile, or its preset, exactly when the page is never loaded again over a profile that was
saved with other mappings than its preset. -/
theorem profiles_remembered_iff (events : List (ControlEvent R)) :
    (∀ t ∈ controlMachine.trace (.load []) events, t.Remembers) ↔
      ∀ t ∈ controlMachine.trace (.load []) events, t.ReloadsPresets := by
  apply controlMachine.trace_forall_iff (I := ControlWorld.KeepsProfiles) events
  · intro w e _ hw
    exact (remembers_step hw e).1
  · intro w e _ w' hw hr hnext
    rw [← Option.some.inj hnext]
    exact (remembers_step hw e).2 hr
  · exact ⟨.load keptByPage_isObject (by simp), fun p ↦ shippedMappings_apply p⟩

/-- The pinch is remapped and saved under the profile of the page, and the page loaded again. -/
def saveThenReload : List (ControlEvent ℚ) := [.changeMapping .pinch .mute, .save, .reload 2]

/-- Selecting the profile again yields its preset. -/
theorem profiles_remembered_fails :
    ¬∀ t ∈ controlMachine.trace (.load []) saveThenReload, t.Remembers := by
  intro h
  have hlast := h (controlMachine.trace (.load []) saveThenReload)[2] (List.getElem_mem _)
  have hsaved := congrArg (spread · "pinch") (hlast.remembered .escritorio)
  have hpreset : spread (Profile.escritorio.preset.toDocument : Document ℚ) "pinch" =
      some (.str "play-pause") := spread_toDocument _ .pinch
  rw [ControlWorld.selected_of_table (shippedMappings_apply .escritorio), hpreset] at hsaved
  have hmute : some (Json.str "play-pause") = some (.str "mute" : Json ℚ) := hsaved
  exact absurd (Json.str.inj (Option.some.inj hmute)) (by decide)

end VisionGame.Web
