import Mathlib.Data.List.Perm.Subperm
import VisionGame.Base.Weights

/-!
# Things that fade

Library `Base`. Things appear with a level of at most one, lose level at some rate while time
passes, and disappear for good; only the levels are looked at. Against the history of the time
that has passed and of what has appeared, those with a level above one less what is lost in a
stretch of the history have appeared in the stretch. When everything is gone at some level, all
that is there has appeared lately.
-/

namespace VisionGame.Base

variable {ρ R : Type} [Field R] [LinearOrder R] [IsStrictOrderedRing R]

/-- Some of what was there has lost level, and so many things have appeared at most. -/
def Fades (levels : List R) (loss : R) (births : ℕ) (levels' : List R) : Prop :=
  ∃ new : List R, new.length ≤ births ∧ (∀ level ∈ new, level ≤ 1) ∧
    levels'.Subperm (levels.map (· - loss) ++ new)

namespace Fades

variable {levels levels' : List R} {loss : R} {births : ℕ}

omit [IsStrictOrderedRing R] in
/-- Nothing has happened. -/
theorem refl (levels : List R) : Fades levels 0 0 levels := by
  refine ⟨[], le_rfl, by simp, ?_⟩
  simp only [sub_zero, List.map_id', List.append_nil]
  exact List.Subperm.refl levels

omit [IsStrictOrderedRing R] in
/-- What has lost level stays or disappears. -/
theorem of_sublist (h : levels'.Sublist (levels.map (· - loss))) : Fades levels loss 0 levels' := by
  refine ⟨[], le_rfl, by simp, ?_⟩
  rw [List.append_nil]
  exact h.subperm

omit [IsStrictOrderedRing R] in
/-- More may appear than did. -/
theorem mono (h : Fades levels loss births levels') {more : ℕ} (hmore : births ≤ more) :
    Fades levels loss more levels' := by
  have ⟨new, hfew, hle, hsub⟩ := h
  exact ⟨new, hfew.trans hmore, hle, hsub⟩

omit [IsStrictOrderedRing R] in
/-- Then more things appear. -/
theorem append (h : Fades levels loss births levels') {new later : List R}
    (hnew : ∀ level ∈ new, level ≤ 1) (hlater : later.Subperm (levels' ++ new)) :
    Fades levels loss (births + new.length) later := by
  have ⟨first, hfew, hfirst, hsub⟩ := h
  refine ⟨first ++ new, ?_, ?_, ?_⟩
  · rw [List.length_append]
    omega
  · intro level hlevel
    rcases List.mem_append.mp hlevel with hold | hmem
    · exact hfirst level hold
    · exact hnew level hmem
  · rw [← List.append_assoc]
    exact hlater.trans ((List.subperm_append_right new).mpr hsub)

end Fades

/-- Everything with a level above one less what is lost in a stretch up to now has appeared in
the stretch. -/
structure Recent (rate : R) (units : ρ → R) (births : ρ → ℕ) (history : List ρ)
    (levels : List R) : Prop where
  le_one : ∀ level ∈ levels, level ≤ 1
  young : ∀ old recent, history = old ++ recent →
    levels.countP (1 - rate * weigh units recent < ·) ≤ (recent.map births).sum

namespace Recent

variable {rate : R} {units : ρ → R} {births : ρ → ℕ} {history : List ρ} {levels : List R}

omit [IsStrictOrderedRing R] in
/-- At first nothing is there. -/
theorem start (rate : R) (units : ρ → R) (births : ρ → ℕ) :
    Recent rate units births [] [] :=
  ⟨by simp, fun _ _ _ ↦ Nat.zero_le _⟩

/-- A step in which things fade and appear. -/
theorem step (h : Recent rate units births history levels) {r : ρ} {levels' : List R}
    (hloss : 0 ≤ rate * units r) (hfades : Fades levels (rate * units r) (births r) levels') :
    Recent rate units births (history ++ [r]) levels' := by
  have ⟨new, hfew, hnew, hsub⟩ := hfades
  have hle : ∀ level ∈ levels', level ≤ 1 := by
    intro level hlevel
    rcases List.mem_append.mp (hsub.subset hlevel) with hold | hmem
    · obtain ⟨before, hbefore, rfl⟩ := List.mem_map.mp hold
      exact (sub_le_self before hloss).trans (h.le_one before hbefore)
    · exact hnew level hmem
  refine ⟨hle, fun old recent hsplit ↦ ?_⟩
  rcases List.eq_nil_or_concat' recent with rfl | ⟨recent, last, rfl⟩
  · have hnone : levels'.countP (1 - rate * weigh units ([] : List ρ) < ·) = 0 := by
      apply List.countP_eq_zero.mpr
      intro level hlevel hyoung
      have habove := of_decide_eq_true hyoung
      rw [weigh_nil, mul_zero, sub_zero] at habove
      exact absurd (hle level hlevel) (not_le.mpr habove)
    rw [hnone]
    exact Nat.zero_le _
  · rw [← List.append_assoc] at hsplit
    have ⟨hhistory, hlast⟩ := List.append_inj' hsplit rfl
    have hr : r = last := List.singleton_inj.mp hlast
    rw [← hr, weigh_append, weigh_cons, weigh_nil, add_zero, List.map_append, List.sum_append,
      List.map_singleton, List.sum_singleton]
    have hold : (levels.map (· - rate * units r)).countP
        (1 - rate * (weigh units recent + units r) < ·) =
          levels.countP (1 - rate * weigh units recent < ·) := by
      rw [List.countP_map]
      apply List.countP_congr
      intro level _
      rw [Function.comp_apply, decide_eq_true_iff, decide_eq_true_iff, mul_add, ← sub_sub,
        sub_lt_sub_iff_right]
    have hcount := hsub.countP_le (1 - rate * (weigh units recent + units r) < ·)
    rw [List.countP_append, hold] at hcount
    have hyoung := h.young old recent hhistory
    have hborn := (List.countP_le_length (p := (1 - rate * (weigh units recent + units r) < ·))
      (l := new)).trans hfew
    omega

/-- When nothing is there below a level, all that is there has appeared in the stretches that
lose more. -/
theorem length_le (h : Recent rate units births history levels) {floor : R}
    (hfloor : ∀ level ∈ levels, floor ≤ level) {old recent : List ρ}
    (hsplit : history = old ++ recent) (hlong : 1 - floor < rate * weigh units recent) :
    levels.length ≤ (recent.map births).sum := by
  have hall : levels.countP (1 - rate * weigh units recent < ·) = levels.length := by
    apply List.countP_eq_length.mpr
    intro level hlevel
    have habove := hfloor level hlevel
    exact decide_eq_true (by linarith)
  rw [← hall]
  exact h.young old recent hsplit

end Recent
end VisionGame.Base
