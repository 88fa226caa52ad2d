import Mathlib.Order.Lattice
import VisionGame.Base.Window

/-!
# Leases that run out

Library `Base`. Leases are granted as long as there are few, each with the time at which it runs
out. A lease is given back at that time or later, so that one which has not run out is always
among those not given back. The bound on the latter therefore bounds how many run at once.
-/

namespace VisionGame.Base

/-- Leases not given back, and those given back, by the times at which they run out. -/
structure Leases (τ : Type) where
  pending : List τ
  ended : List τ

namespace Leases

variable {τ : Type}

/-- No lease granted. -/
def empty : Leases τ := ⟨[], []⟩

/-- One more lease is granted. -/
def grant (due : τ) (l : Leases τ) : Leases τ := { l with pending := due :: l.pending }

/-- A lease is given back. -/
def giveBack (k : ℕ) (l : Leases τ) : Leases τ :=
  ⟨l.pending.eraseIdx k, l.pending[k]?.toList ++ l.ended⟩

/-- All leases that were granted. -/
def granted (l : Leases τ) : List τ := l.pending ++ l.ended

/-- A lease that is granted is the newest one. -/
theorem granted_grant (due : τ) (l : Leases τ) : (l.grant due).granted = due :: l.granted := rfl

/-- A lease that is given back was granted all the same. -/
theorem granted_giveBack (k : ℕ) (l : Leases τ) : (l.giveBack k).granted.Perm l.granted := by
  simp only [granted, giveBack]
  rw [← List.append_assoc]
  exact (List.perm_append_comm.trans (perm_eraseIdx l.pending k)).append_right l.ended

variable [LinearOrder τ]

/-- At most `cap` leases are not given back, and those given back have run out. -/
structure Sound (cap : ℕ) (now : τ) (l : Leases τ) : Prop where
  few : l.pending.length ≤ cap
  ended : ∀ due ∈ l.ended, due ≤ now

/-- Without leases all is sound. -/
theorem Sound.empty (cap : ℕ) (now : τ) : (empty : Leases τ).Sound cap now := by
  constructor <;> simp [Leases.empty]

section
variable {cap : ℕ} {now : τ} {l : Leases τ} (h : l.Sound cap now)
include h

/-- A lease may be granted while there is room for it. -/
theorem Sound.grant (hroom : l.pending.length < cap) (due : τ) : (l.grant due).Sound cap now :=
  ⟨hroom, h.ended⟩

/-- A lease may be given back once it has run out. -/
theorem Sound.giveBack {k : ℕ} (hdue : ∀ due ∈ l.pending[k]?, due ≤ now) :
    (l.giveBack k).Sound cap now := by
  refine ⟨(List.eraseIdx_sublist ..).length_le.trans h.few, fun due hmem ↦ ?_⟩
  rcases List.mem_append.mp hmem with hnew | hold
  · exact hdue due (Option.mem_toList.mp hnew)
  · exact h.ended due hold

/-- Time may pass. -/
theorem Sound.later {later : τ} (hlater : now ≤ later) : l.Sound cap later :=
  ⟨h.few, fun due hmem ↦ (h.ended due hmem).trans hlater⟩

/-- No more leases run at once than may be pending. -/
theorem Sound.running_le : (l.granted.filter (now < ·)).length ≤ cap := by
  have hover : l.ended.filter (now < ·) = [] := by
    apply List.filter_eq_nil_iff.mpr
    intro due hmem
    simpa using h.ended due hmem
  rw [granted, List.filter_append, hover, List.append_nil]
  exact (List.length_filter_le _ _).trans h.few

end
end Leases
end VisionGame.Base
