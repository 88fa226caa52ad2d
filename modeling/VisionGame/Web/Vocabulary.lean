import VisionGame.Web.ControlPage

/-!
# The vocabulary of the mappings

Library `Web`. `lib/gestures.ts:15–142`, `app/page.tsx:36–66,127–192`, `convex/settings.ts:4–51`.
Five sources produce mappings: the page's defaults, the presets, edits, the query on an empty
table and the insert. What the first three produce assigns an action to every gesture; the query
answers with actions of another vocabulary, and the insert with no mappings at all. The page
keeps to the vocabulary exactly as long as every answer that arrives has mappings which some
mutation supplied.
-/

namespace VisionGame.Web
open VisionGame.Base

variable {R : Type}

/-! ### Where mappings come from -/

/-- A property of mappings that the page's own sources have and its handlers keep. -/
structure KeptByPage (P : Document R → Prop) : Prop where
  map : ∀ m : GestureMap, P m.toDocument
  edit : ∀ m (g : GestureId) (a : OsActionId), P m →
    P (.object ((spread m).set g.text (.str a.text)))
  copy : ∀ m, P m → P (.object (spread m))

/-- All mappings around have a property: the page's, those of the module's table and those that
mutations carry. -/
structure ControlWorld.AllMappings (P : Document R → Prop) (w : ControlWorld R) : Prop where
  page : P w.page.mappings
  table : ∀ k m, w.profileMappings k = some m → P m
  sent : ∀ args ∈ w.log ++ w.outbox, ∀ m, args.mappings = some m → P m

private theorem exists_of_shippedMappings {k : String} {m : Document R}
    (h : shippedMappings k = some m) : ∃ p : Profile, m = p.preset.toDocument := by
  have ⟨kv, hkv, hm⟩ := Dict.exists_of_ofList h
  have ⟨p, _, hp⟩ := List.mem_map.mp hkv
  refine ⟨p, ?_⟩
  rw [← hm, ← hp]

namespace ControlWorld.AllMappings

variable {P : Document R → Prop} {w : ControlWorld R}

/-- A mutation that carries mappings with the property is sent. -/
theorem send (h : w.AllMappings P) {args : SettingsArgs R}
    (hargs : ∀ m, args.mappings = some m → P m) : (w.send args).AllMappings P where
  page := h.page
  table := h.table
  sent := by
    intro a ha m hm
    change a ∈ w.log ++ (w.outbox ++ [args]) at ha
    rw [← List.append_assoc, List.mem_append, List.mem_singleton] at ha
    rcases ha with hold | hnew
    · exact h.sent a hold m hm
    · rw [hnew] at hm
      exact hargs m hm

private theorem send_mappings (h : w.AllMappings P) {args : SettingsArgs R} {m : Document R}
    (hargs : args.mappings = some m) (hm : P m) : (w.send args).AllMappings P := by
  apply h.send
  intro n hn
  rw [hargs] at hn
  rw [← Option.some.inj hn]
  exact hm

private theorem setProfile (h : w.AllMappings P) (profile : String) {m : Document R} (hm : P m) :
    ∀ k n, (w.profileMappings.set profile m) k = some n → P n := by
  intro k n hn
  rw [Dict.set_apply] at hn
  split at hn
  · rw [← Option.some.inj hn]
    exact hm
  · exact h.table k n hn

variable [Scalar R]

/-- A page that is loaded over a log whose mappings have the property. -/
theorem load (hP : KeptByPage P) {log : List (SettingsArgs R)}
    (hlog : ∀ args ∈ log, ∀ m, args.mappings = some m → P m) :
    (ControlWorld.load log).AllMappings P where
  page := hP.map defaultMap
  table := by
    intro k m hm
    have ⟨p, hp⟩ := exists_of_shippedMappings hm
    rw [hp]
    exact hP.map p.preset
  sent := by
    intro args hargs
    change args ∈ log ++ [] at hargs
    rw [List.append_nil] at hargs
    exact hlog args hargs

/-- Every event keeps the property, an answer if its mappings have it. -/
theorem perform (hP : KeptByPage P) (h : w.AllMappings P) (e : ControlEvent R)
    (hanswer : ∀ n, e = .refresh n → w.arrives n = true → P (w.answer n).mappings) :
    (w.perform e).AllMappings P := by
  cases e with
  | slideSensitivity value => exact ⟨h.page, h.table, h.sent⟩
  | slideTriggerDelay value => exact ⟨h.page, h.table, h.sent⟩
  | changeMapping gesture action =>
    have hnext := hP.edit w.page.mappings gesture action h.page
    simp only [ControlWorld.perform, ControlWorld.handleMappingChange]
    apply AllMappings.send_mappings
    · exact ⟨hnext, h.table, h.sent⟩
    · rfl
    · exact hnext
  | toggleCamera value =>
    simp only [ControlWorld.perform, ControlWorld.handleCameraToggle]
    apply AllMappings.send
    · exact ⟨h.page, h.table, h.sent⟩
    · intro m hm
      cases hm
  | selectProfile profile =>
    simp only [ControlWorld.perform, ControlWorld.handleProfileChange]
    split
    · exact ⟨h.page, h.table, h.sent⟩
    · next preset hpreset =>
      have hkept := h.table _ _ hpreset
      apply AllMappings.send_mappings
      · exact ⟨hkept, h.table, h.sent⟩
      · rfl
      · exact hkept
  | save =>
    have hcopy := hP.copy w.page.mappings h.page
    simp only [ControlWorld.perform, ControlWorld.handleSave]
    apply AllMappings.send_mappings
    · exact ⟨h.page, h.setProfile w.page.activeProfile hcopy, h.sent⟩
    · rfl
    · exact h.page
  | reset =>
    have hdefault := hP.map defaultMap
    simp only [ControlWorld.perform, ControlWorld.handleReset]
    apply AllMappings.send_mappings
    · exact ⟨hdefault, h.table, h.sent⟩
    · rfl
    · exact hdefault
  | showTab game => exact ⟨h.page, h.table, h.sent⟩
  | commit =>
    simp only [ControlWorld.perform, ControlWorld.commit]
    split
    · exact h
    · next args rest hout =>
      refine ⟨h.page, h.table, ?_⟩
      intro a ha
      apply h.sent a
      rw [hout]
      change a ∈ w.log ++ [args] ++ rest at ha
      rw [List.append_assoc, List.singleton_append] at ha
      exact ha
  | refresh n =>
    simp only [ControlWorld.perform, ControlWorld.refresh]
    split
    · next harrives => exact ⟨hanswer n rfl harrives, h.table, h.sent⟩
    · exact h
  | reload sent =>
    have hlog : ∀ args ∈ w.log, ∀ m, args.mappings = some m → P m :=
      fun args hargs ↦ h.sent args (List.mem_append_left _ hargs)
    have hloaded := load hP hlog
    refine ⟨hloaded.page, hloaded.table, ?_⟩
    intro args hargs
    rcases List.mem_append.mp hargs with hold | hout
    · exact hlog args hold
    · exact h.sent args (List.mem_append_right _ (List.mem_of_mem_take hout))

/-- An answer has mappings that some mutation supplied, or those of the query on an empty table
or of the insert when no mutation supplied any. -/
theorem answer_cases (hnull : ¬P (.other .null)) (h : w.AllMappings P) (n : ℕ) :
    (P (w.answer n).mappings ∧ ∃ args ∈ w.log.take n, args.mappings ≠ none) ∨
      ((w.answer n).mappings = defaultSettings.mappings ∨
        (w.answer n).mappings = .object Dict.empty) ∧
        ∀ args ∈ w.log.take n, args.mappings = none := by
  have hsent : ∀ args ∈ w.log.take n, ∀ m, args.mappings = some m → P m :=
    fun args hargs ↦ h.sent args (List.mem_append_left _ (List.mem_of_mem_take hargs))
  have hsupplied : ∀ args ∈ w.log.take n, args.mappings ≠ some (.other .null) :=
    fun args hargs hm ↦ hnull (hsent args hargs _ hm)
  have hanswer := stored_mappings _ hsupplied
  cases hlast : lastCarried SettingsArgs.mappings (w.log.take n) with
  | none =>
    right
    rw [hlast, Option.getD_none] at hanswer
    constructor
    · split at hanswer
      · exact .inl hanswer
      · exact .inr hanswer
    · exact (lastCarried_eq_none_iff _).mp hlast
  | some m =>
    left
    obtain ⟨args, hargs, hm⟩ := exists_of_lastCarried hlast
    rw [hlast, Option.getD_some] at hanswer
    constructor
    · exact Eq.subst hanswer.symm (hsent args hargs m hm)
    · exact ⟨args, hargs, by simp [hm]⟩

end ControlWorld.AllMappings

/-! ### The vocabulary -/

/-- Every gesture is assigned an action of `OS_ACTIONS`. -/
def InVocabulary (m : Document R) : Prop :=
  ∀ g : GestureId, ∃ a ∈ osActions, spread m g.text = some (.str a.text)

private theorem mem_osActions (a : OsActionId) : a ∈ osActions := by
  cases a <;> decide

/-- The object that holds a map assigns what the map does. -/
theorem spread_toDocument (m : GestureMap) (g : GestureId) :
    spread (m.toDocument : Document R) g.text = some (.str (m g).text) := by
  cases g <;> simp [GestureMap.toDocument, spread, gestures, Dict.ofList, GestureId.text]

/-- Presets are in the vocabulary, and edits and copies keep it. -/
theorem keptByPage_inVocabulary : KeptByPage (InVocabulary (R := R)) where
  map m g := ⟨m g, mem_osActions _, spread_toDocument m g⟩
  edit m g a h g' := by
    change ∃ a' ∈ osActions, (spread m).set g.text (.str a.text) g'.text = some (.str a'.text)
    rw [Dict.set_apply]
    split
    · exact ⟨a, mem_osActions a, rfl⟩
    · exact h g'
  copy _ h := h

private theorem not_inVocabulary_empty : ¬InVocabulary (.object Dict.empty : Document R) := by
  intro h
  have ⟨a, _, ha⟩ := h .pinch
  cases ha

variable [Scalar R]

/-- What the query answers on an empty table is not in the vocabulary. -/
theorem not_inVocabulary_default : ¬InVocabulary (defaultSettings : Settings R).mappings := by
  intro h
  have ⟨a, _, ha⟩ := h .pinch
  have hclick : spread (defaultSettings : Settings R).mappings "pinch" = some (.str "click") := by
    simp [defaultSettings, spread, Dict.ofList]
  have htext := Json.str.inj (Option.some.inj (hclick.symm.trans ha))
  revert htext
  cases a <;> decide

/-- An answer is in the vocabulary exactly when some mutation supplied its mappings. -/
theorem answer_inVocabulary_iff {w : ControlWorld R} (h : w.AllMappings InVocabulary) (n : ℕ) :
    InVocabulary (w.answer n).mappings ↔ ∃ args ∈ w.log.take n, args.mappings ≠ none := by
  have hnull : ¬InVocabulary (.other .null : Document R) := by
    intro hvoc
    have ⟨a, _, ha⟩ := hvoc .pinch
    cases ha
  rcases h.answer_cases hnull n with ⟨hvoc, hsupplied⟩ | ⟨hown, hnone⟩
  · exact iff_of_true hvoc hsupplied
  · apply iff_of_false
    · rcases hown with hquery | hinsert
      · rw [hquery]
        exact not_inVocabulary_default
      · rw [hinsert]
        exact not_inVocabulary_empty
    · rintro ⟨args, hargs, hm⟩
      exact hm (hnone args hargs)

/-! ### Runs -/

/-- Every answer that arrives has mappings that some mutation supplied. -/
def ControlTurn.ReadsSupplied (t : ControlTurn R) : Prop :=
  ∀ n, t.event = .refresh n → t.before.arrives n = true →
    ∃ args ∈ t.before.log.take n, args.mappings ≠ none

/-- After a turn the page keeps to the vocabulary exactly when an answer that arrived has
mappings that some mutation supplied; then all mappings around are in the vocabulary. -/
theorem inVocabulary_step {w : ControlWorld R} (h : w.AllMappings InVocabulary)
    (e : ControlEvent R) :
    (InVocabulary (w.handle e).page.mappings ↔ (controlMachine.step w e).ReadsSupplied) ∧
      ((controlMachine.step w e).ReadsSupplied → (w.handle e).AllMappings InVocabulary) := by
  have hkeeps : (controlMachine.step w e).ReadsSupplied →
      (w.handle e).AllMappings InVocabulary := by
    intro hreads
    simp only [ControlWorld.handle]
    split
    · apply h.perform keptByPage_inVocabulary e
      intro n hn harrives
      exact (answer_inVocabulary_iff h n).mpr (hreads n hn harrives)
    · exact h
  refine ⟨⟨?_, fun hreads ↦ (hkeeps hreads).page⟩, hkeeps⟩
  rintro hvoc n hn harrives
  apply (answer_inVocabulary_iff h n).mp
  change e = .refresh n at hn
  change w.arrives n = true at harrives
  rw [hn] at hvoc
  have hshown : (w.handle (.refresh n)).page.mappings = (w.answer n).mappings := by
    change (w.refresh n).page.mappings = _
    simp only [ControlWorld.refresh]
    rw [if_pos harrives]
    rfl
  rw [← hshown]
  exact hvoc

/-- From an empty table on, the page's mappings assign an action of `OS_ACTIONS` to every
gesture after every event, exactly when every answer that arrives has mappings which some
mutation supplied. -/
theorem vocabulary_iff (events : List (ControlEvent R)) :
    (∀ t ∈ controlMachine.trace (.load []) events, InVocabulary t.after.page.mappings) ↔
      ∀ t ∈ controlMachine.trace (.load []) events, t.ReadsSupplied := by
  apply controlMachine.trace_forall_iff (I := ControlWorld.AllMappings InVocabulary) events
  · intro w e _ hw
    exact (inVocabulary_step hw e).1
  · intro w e _ w' hw hreads hnext
    rw [← Option.some.inj hnext]
    exact (inVocabulary_step hw e).2 hreads
  · exact .load keptByPage_inVocabulary (by simp)

/-- The first answer on an empty table leaves the vocabulary: the pinch clicks. -/
theorem vocabulary_fails :
    ¬∀ t ∈ controlMachine.trace (.load [] : ControlWorld ℚ) [.refresh 0],
      InVocabulary t.after.page.mappings := by
  intro h
  exact not_inVocabulary_default (h _ List.mem_cons_self)

end VisionGame.Web
