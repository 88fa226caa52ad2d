import Mathlib.Data.List.Nodup
import VisionGame.Base.Effect

/-!
# Updates made in stages

Library `Base`. A sequence of stages writes one item after the other; a stage that raises ends the
sequence, and what the stages before it wrote stays. `Staged` says what is asked of each stage: it
gives its own item a value as meant when the item is ready, raises when it is not, and leaves the
other items alone. The rule then says which items a whole sequence has written.
-/

namespace VisionGame.Base
open Effect

variable {ε σ κ : Type} {V : κ → Type}

/-- Stages, one after the other. -/
def stages (run : κ → Effect ε σ Unit) : List κ → Effect ε σ Unit
  | [] => pure ()
  | k :: ks => do
    run k
    stages run ks

/-- Each stage writes its own item, and only when that is ready. -/
structure Staged (run : κ → Effect ε σ Unit) (ready : κ → Bool) (view : ∀ k, σ → V k)
    (meant : ∀ k, V k → Prop) : Prop where
  writes : ∀ k s, ready k = true →
    ∃ t, exec (run k) s = (.ok (), t) ∧ meant k (view k t) ∧ ∀ j, j ≠ k → view j t = view j s
  raises : ∀ k s, ready k = false →
    ∃ e t, exec (run k) s = (.error e, t) ∧ ∀ j, view j t = view j s

section
variable {run : κ → Effect ε σ Unit} {ready : κ → Bool} {view : ∀ k, σ → V k}
  {meant : ∀ k, V k → Prop}

/-- The items before the first one that is not ready are written as meant, the others are left
alone, and the sequence returns when there is no such item. -/
theorem Staged.exec_stages (h : Staged run ready view meant) {ks : List κ} (hks : ks.Nodup)
    (s : σ) :
    (∀ k ∈ ks.takeWhile ready, meant k (view k (exec (stages run ks) s).2)) ∧
      (∀ k, k ∉ ks.takeWhile ready → view k (exec (stages run ks) s).2 = view k s) ∧
      ((exec (stages run ks) s).1 = .ok () ↔ ks.takeWhile ready = ks) := by
  induction ks generalizing s with
  | nil => simp [stages]
  | cons k ks ih =>
    have ⟨hfresh, hrest⟩ := List.nodup_cons.mp hks
    simp only [stages]
    cases hready : ready k with
    | true =>
      have ⟨t, hrun, hwritten, hothers⟩ := h.writes k s hready
      have ⟨htaken, hkept, hok⟩ := ih hrest t
      rw [exec_bind_ok hrun, List.takeWhile_cons_of_pos hready]
      refine ⟨?_, ?_, ?_⟩
      · intro j hj
        rcases List.mem_cons.mp hj with rfl | hlater
        · rw [hkept j fun hmem ↦ hfresh ((List.takeWhile_prefix ready).mem hmem)]
          exact hwritten
        · exact htaken j hlater
      · intro j hj
        rw [List.mem_cons, not_or] at hj
        rw [hkept j hj.2, hothers j hj.1]
      · rw [hok, List.cons_eq_cons]
        exact (and_iff_right rfl).symm
    | false =>
      have ⟨e, t, hrun, hothers⟩ := h.raises k s hready
      rw [exec_bind_error hrun, List.takeWhile_cons_of_neg (by simp [hready])]
      refine ⟨?_, fun j _ ↦ hothers j, ?_⟩
      · intro j hj
        cases hj
      · simp

end

end VisionGame.Base
