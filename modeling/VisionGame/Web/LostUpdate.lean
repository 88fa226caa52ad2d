import VisionGame.Web.PythonConfig

/-!
# What an Apply changes in the settings file

Library `Web`. A page applies its whole copy, and the route merges it key by key without
looking at what happened since the page fetched. The invariant says that outside the edited
keys every copy, on a page or under way, is what was fetched, with the two numbers normalised.
It gives exactly the keys that an Apply can change besides the edited ones.
-/

namespace VisionGame.Web
open VisionGame.Base VisionGame.Vision

variable {R : Type} [Scalar R]

/-! ### Copies -/

/-- The two numbers are normalised when they are fetched, unless they are nonzero numbers. -/
def Renumbered (fetched : Dict (Json R)) (k : String) : Prop :=
  (k = "sens_val" ∨ k = "suav_val") ∧ ¬ ∃ x : R, x ≠ 0 ∧ fetched k = some (.num x)

private theorem numberOr_num (numeral : Json R → Option R) (default : R) {x : R} (hx : x ≠ 0) :
    numberOr numeral default (some (.num x)) = .num x := by
  unfold numberOr toNumber
  simp only [if_neg hx]

/-- Normalising changes nothing but the two numbers. -/
theorem normalised_of_not_renumbered (numeral : Json R → Option R) {data : Dict (Json R)}
    {k : String} (h : ¬ Renumbered data k) : normalised numeral data k = data k := by
  simp only [normalised]
  by_cases hsuav : k = "suav_val"
  · have ⟨x, hx, hk⟩ : ∃ x : R, x ≠ 0 ∧ data k = some (.num x) := by
      by_contra hnone
      exact h ⟨.inr hsuav, hnone⟩
    rw [hsuav] at hk ⊢
    rw [Dict.set_self, hk, numberOr_num numeral 10 hx]
  · rw [Dict.set_of_ne _ _ hsuav]
    by_cases hsens : k = "sens_val"
    · have ⟨x, hx, hk⟩ : ∃ x : R, x ≠ 0 ∧ data k = some (.num x) := by
        by_contra hnone
        exact h ⟨.inl hsens, hnone⟩
      rw [hsens] at hk ⊢
      rw [Dict.set_self, hk, numberOr_num numeral 3 hx]
    · rw [Dict.set_of_ne _ _ hsens]

/-- The copy is what was fetched, normalised, under the edits since. -/
def Copy.Consistent (numeral : Json R → Option R) (c : Copy R) : Prop :=
  c.config = (normalised numeral c.fetched).merge c.edits

private theorem consistent_initial (numeral : Json R → Option R) :
    (Copy.initial : Copy R).Consistent numeral := by
  have hkept : normalised numeral (initialConfig : Dict (Json R)) = initialConfig := by
    funext k
    apply normalised_of_not_renumbered
    rintro ⟨rfl | rfl, hnone⟩
    · exact hnone ⟨3, by norm_num, by simp [initialConfig, Dict.ofList]⟩
    · exact hnone ⟨10, by norm_num, by simp [initialConfig, Dict.ofList]⟩
  unfold Copy.Consistent Copy.initial
  rw [hkept, Dict.merge_empty]

private theorem consistent_edit {numeral : Json R → Option R} {c : Copy R}
    (h : c.Consistent numeral) (e : Edit R) : (c.edit e).Consistent numeral := by
  unfold Copy.Consistent Copy.edit
  rw [Dict.merge_set, ← h]

private theorem consistent_receive {numeral : Json R → Option R} {c : Copy R}
    (h : c.Consistent numeral) (data : Option (Document R)) :
    (c.receive numeral data).Consistent numeral := by
  simp only [Copy.receive]
  split
  · exact h
  · exact h
  · exact (Dict.merge_empty _).symm

/-! ### Runs -/

/-- Every copy, on a page or under way, is consistent. -/
def World.Consistent (numeral : Json R → Option R) (w : World R) : Prop :=
  w.Each (Copy.Consistent numeral) fun _ ↦ True

/-- Every event keeps the copies consistent. -/
theorem consistent_handle {numeral : Json R → Option R} {w : World R}
    (h : w.Consistent numeral) (e : Event R) : (w.handle numeral e).Consistent numeral :=
  h.handle (consistent_initial numeral) (fun _ change _ _ hcopy ↦ consistent_edit hcopy change)
    (fun data _ _ hcopy ↦ consistent_receive hcopy data) trivial

/-! ### What an Apply changes -/

/-- `config.json` as the route reads it. -/
def World.config (w : World R) : Dict (Json R) := currentConfig w.shared.file

/-- The copy whose Apply the server takes up in this turn. -/
def Turn.applied (t : Turn R) : Option (Copy R) :=
  match t.event with
  | .serve i _ =>
    match t.before.requests[i]? with
    | some (.post _ copy) => some copy
    | _ => none
  | _ => none

/-- An Apply changes only keys that were edited on its page since the page last fetched. -/
def Turn.ChangesOnlyEdited (t : Turn R) : Prop :=
  ∀ copy, t.applied = some copy → ∀ k, t.after.config k ≠ t.before.config k →
    copy.edits k ≠ none

/-- An Apply changes only keys that were edited on its page since the page last fetched, to
their last edit, and keys that are no longer what the page fetched or that were normalised,
back to what the page made of them when it fetched. -/
def Turn.ChangesOnlyCopied (numeral : Json R → Option R) (t : Turn R) : Prop :=
  ∀ copy, t.applied = some copy → ∀ k, t.after.config k ≠ t.before.config k →
    (copy.edits k ≠ none ∧ t.after.config k = copy.edits k) ∨
      (copy.edits k = none ∧ t.after.config k = normalised numeral copy.fetched k ∧
        (t.before.config k ≠ copy.fetched k ∨ Renumbered copy.fetched k))

private theorem config_serve {w : World R} {i p : ℕ} {copy : Copy R} (env : PostEnv R)
    (hi : w.requests[i]? = some (.post p copy)) :
    (w.serve i env).config = w.config ∨ (w.serve i env).config = w.config.merge copy.config := by
  have hfile : (w.serve i env).shared.file =
      (postConfig env (some (.object copy.config)) w.shared.file).2 := by
    unfold World.serve
    rw [hi]
  unfold World.config
  rw [hfile]
  rcases postConfig_cases env (.object copy.config) w.shared.file with hkeep | hmerge
  · exact .inl (congrArg currentConfig hkeep)
  · exact .inr hmerge

private theorem merge_changes {numeral : Json R → Option R} {copy : Copy R}
    (h : copy.Consistent numeral) {d : Dict (Json R)} {k : String}
    (hchange : d.merge copy.config k ≠ d k) :
    (copy.edits k ≠ none ∧ d.merge copy.config k = copy.edits k) ∨
      (copy.edits k = none ∧ d.merge copy.config k = normalised numeral copy.fetched k ∧
        (d k ≠ copy.fetched k ∨ Renumbered copy.fetched k)) := by
  cases hv : copy.config k with
  | none => exact absurd (Dict.merge_of_none d hv) hchange
  | some v =>
    rw [Dict.merge_of_some d hv] at hchange ⊢
    rw [h] at hv
    cases hedit : copy.edits k with
    | some u =>
      rw [Dict.merge_of_some _ hedit] at hv
      exact .inl ⟨by simp, hv.symm⟩
    | none =>
      rw [Dict.merge_of_none _ hedit] at hv
      refine .inr ⟨rfl, hv.symm, ?_⟩
      by_contra hnot
      have ⟨hsame, hkept⟩ := not_or.mp hnot
      rw [normalised_of_not_renumbered numeral hkept] at hv
      exact hchange (hv.symm.trans (not_not.mp hsame).symm)

/-- An event that applies a consistent copy changes only what the copy makes it change. -/
theorem changesOnlyCopied_step {numeral : Json R → Option R} {w : World R}
    (h : w.Consistent numeral) (e : Event R) :
    ((settingsMachine numeral).step w e).ChangesOnlyCopied numeral := by
  intro copy hcopy k
  cases e with
  | serve i env =>
    change (match w.requests[i]? with
      | some (.post _ copy) => some copy
      | _ => none) = some copy at hcopy
    change (w.serve i env).config k ≠ w.config k → _
    split at hcopy
    · next p sent hi =>
      rw [Option.some.inj hcopy] at hi
      intro hchange
      have hafter : ((settingsMachine numeral).step w (.serve i env)).after = w.serve i env := rfl
      have hbefore : ((settingsMachine numeral).step w (.serve i env)).before = w := rfl
      rw [hafter, hbefore]
      rcases config_serve env hi with hkeep | hmerge
      · exact absurd (congrFun hkeep k) hchange
      · rw [hmerge] at hchange ⊢
        exact merge_changes (h.posts p copy (List.mem_of_getElem? hi)) hchange
    · cases hcopy
  | _ => cases hcopy

/-- In every run, whatever the pages, the server and the Python process do in whatever order,
an Apply changes only keys edited since its page last fetched, and keys that are no longer
what it fetched or that were normalised. -/
theorem apply_changes_only_copied (numeral : Json R → Option R) (sh : Shared R)
    (events : List (Event R)) :
    ∀ t ∈ (settingsMachine numeral).trace (.init sh) events, t.ChangesOnlyCopied numeral := by
  apply (settingsMachine numeral).trace_forall (I := World.Consistent numeral)
    (P := Turn.ChangesOnlyCopied numeral) events
  · intro w e _ hw
    exact changesOnlyCopied_step hw e
  · intro w e _ v hw hv
    rw [← Option.some.inj hv]
    exact consistent_handle hw e
  · exact ⟨nofun, nofun, nofun⟩

/-! ### A lost calibration -/

/-- A page fetches, a calibration commits a zone, and the page applies another mode. -/
def calibratedBetween : List (Event ℚ) :=
  [.openPage 0, .serve 0 ⟨true, none⟩, .deliver 0,
    .python startCalibrationGui, .python (triggerCalibrationKey (.done 2) 0.9 0.9),
    .python (triggerCalibrationKey (.done 3) 0.1 0.1),
    .edit 0 (.gameMode .osugame), .saveConfig 0, .serve 0 ⟨true, some 4⟩]

/-- The world in which this happens: the program has written its defaults. -/
def defaultWorld : World ℚ := .init ⟨Globals.init, some ⟨1, some (.object defaultConfig)⟩⟩

/-- Lower end of a zone range. -/
def lowerEnd : Option (Json R) → Option R
  | some (.arr (.num lo :: _)) => some lo
  | _ => none

/-- The turn applies a copy whose zone was not edited, and moves the zone. -/
def Turn.movesZone (t : Turn ℚ) : Bool :=
  match t.applied with
  | some copy =>
    (copy.edits "zone_x").isNone &&
      lowerEnd (t.after.config "zone_x") != lowerEnd (t.before.config "zone_x")
  | none => false

private theorem exists_movesZone :
    ∃ t ∈ (settingsMachine fun _ ↦ none).trace defaultWorld calibratedBetween,
      t.movesZone = true := by
  apply List.any_eq_true.mp
  decide +kernel

/-- The Apply that moves the zone changes only what the page's copy makes it change. -/
theorem apply_changes_only_copied_of_calibration :
    ∃ t ∈ (settingsMachine fun _ ↦ none).trace defaultWorld calibratedBetween,
      t.movesZone = true ∧ t.ChangesOnlyCopied fun _ ↦ none := by
  have ⟨t, ht, hmoves⟩ := exists_movesZone
  exact ⟨t, ht, hmoves, apply_changes_only_copied (fun _ ↦ none) _ calibratedBetween t ht⟩

/-- The zone is back to what it was before the calibration, although nobody edited it. -/
theorem apply_reverts_calibration :
    ¬ ∀ t ∈ (settingsMachine fun _ ↦ none).trace defaultWorld calibratedBetween,
      t.ChangesOnlyEdited := by
  intro hall
  have ⟨t, ht, hmoves⟩ := exists_movesZone
  unfold Turn.movesZone at hmoves
  split at hmoves
  · next copy hcopy =>
    have ⟨hunedited, hzone⟩ := Bool.and_eq_true_iff.mp hmoves
    apply hall t ht copy hcopy "zone_x"
    · intro hsame
      rw [hsame] at hzone
      simp at hzone
    · exact Option.isNone_iff_eq_none.mp hunedited
  · cases hmoves

end VisionGame.Web
