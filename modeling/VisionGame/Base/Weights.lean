import Mathlib.Algebra.Order.BigOperators.Group.List
import Mathlib.Algebra.Order.Floor.Ring
import Mathlib.Tactic.Linarith
import Mathlib.Tactic.Ring

/-!
# Marks in a weighted list

Library `Base`. The entries of a list have weights, and some are marked. When the entries between
two marks always weigh at least `gap`, the weight of a stretch bounds the number of its marks; the
shortest stretch at the end of a list that weighs more than a bound is at most one entry heavier.
-/

namespace VisionGame.Base

variable {α R : Type} [Field R] [LinearOrder R] [IsStrictOrderedRing R]
variable {mark : α → Bool} {weight : α → R} {gap : R} {l : List α}

/-- What the entries of a list weigh. -/
def weigh (weight : α → R) (l : List α) : R := (l.map weight).sum

omit [LinearOrder R] [IsStrictOrderedRing R] in
/-- The empty list weighs nothing. -/
@[simp] theorem weigh_nil (weight : α → R) : weigh weight [] = 0 := List.sum_nil

omit [LinearOrder R] [IsStrictOrderedRing R] in
/-- The first entry adds its weight. -/
@[simp] theorem weigh_cons (weight : α → R) (a : α) (l : List α) :
    weigh weight (a :: l) = weight a + weigh weight l := List.sum_cons

omit [LinearOrder R] [IsStrictOrderedRing R] in
/-- Weights of two lists add up. -/
@[simp] theorem weigh_append (weight : α → R) (l l' : List α) :
    weigh weight (l ++ l') = weigh weight l + weigh weight l' := by
  unfold weigh
  rw [List.map_append, List.sum_append]

/-- The entries between two marks weigh at least `gap`. -/
def Spaced (mark : α → Bool) (weight : α → R) (gap : R) (l : List α) : Prop :=
  ∀ pre a mid b post, l = pre ++ a :: (mid ++ b :: post) → mark a = true → mark b = true →
    gap ≤ weigh weight mid

omit [IsStrictOrderedRing R] in
/-- A stretch of a spaced list is spaced. -/
theorem Spaced.stretch {pre post : List α} (h : Spaced mark weight gap (pre ++ (l ++ post))) :
    Spaced mark weight gap l := by
  intro before a mid b after hl ha hb
  apply h (pre ++ before) a mid b (after ++ post) ?_ ha hb
  rw [hl]
  simp

omit [IsStrictOrderedRing R] in
/-- Two marks are spaced when the entries between them weigh enough. -/
theorem spaced_pair {a b : α} {mid : List α} (hmid : ∀ c ∈ mid, mark c = false)
    (h : gap ≤ weigh weight mid) : Spaced mark weight gap (a :: (mid ++ [b])) := by
  intro pre x mid' y post hl hx hy
  have hfew : (mid ++ [b]).countP mark ≤ 1 := by
    rw [List.countP_append, List.countP_eq_zero.mpr fun c hc ↦ by rw [hmid c hc]; decide, zero_add]
    exact List.countP_le_length
  cases pre with
  | nil =>
    have ⟨_, htail⟩ := List.cons.inj hl
    rcases List.eq_nil_or_concat' post with rfl | ⟨post, z, rfl⟩
    · have ⟨hsame, _⟩ := List.append_inj' htail rfl
      rw [← hsame]
      exact h
    · rw [← List.cons_append, ← List.append_assoc] at htail
      have ⟨hsame, _⟩ := List.append_inj' htail rfl
      have hunmarked := hmid y (by simp [hsame])
      rw [hy] at hunmarked
      cases hunmarked
  | cons c pre =>
    rw [List.cons_append] at hl
    have ⟨_, htail⟩ := List.cons.inj hl
    rw [htail, List.countP_append, List.countP_cons_of_pos hx, List.countP_append,
      List.countP_cons_of_pos hy] at hfew
    omega

private theorem Spaced.count_mul_le (hweight : ∀ a ∈ l, 0 ≤ weight a)
    (h : Spaced mark weight gap l) (since : R) (hsince : 0 ≤ since)
    (hfirst : ∀ mid b post, l = mid ++ b :: post → mark b = true →
      gap ≤ since + weigh weight mid) :
    l.countP mark * gap ≤ since + weigh weight l := by
  induction l generalizing since with
  | nil =>
    rw [weigh_nil, List.countP_nil, Nat.cast_zero, zero_mul, add_zero]
    exact hsince
  | cons a l ih =>
    have hwhole : Spaced mark weight gap ([a] ++ (l ++ [])) := by rwa [List.append_nil]
    have hrest := hwhole.stretch
    have hnonneg : ∀ b ∈ l, 0 ≤ weight b := fun b hb ↦ hweight b (List.mem_cons_of_mem a hb)
    have ha := hweight a List.mem_cons_self
    rw [weigh_cons]
    by_cases hmark : mark a = true
    · have hgap := hfirst [] a l rfl hmark
      have hcount := ih hnonneg hrest 0 le_rfl fun mid b post hl hb ↦ by
        rw [zero_add]
        exact h [] a mid b post (congrArg (a :: ·) hl) hmark hb
      rw [weigh_nil] at hgap
      rw [List.countP_cons_of_pos hmark, Nat.cast_succ, add_mul, one_mul]
      linarith
    · have hcount := ih hnonneg hrest (since + weight a) (add_nonneg hsince ha)
        fun mid b post hl hb ↦ by
          have hgap := hfirst (a :: mid) b post (congrArg (a :: ·) hl) hb
          rw [weigh_cons, ← add_assoc] at hgap
          exact hgap
      rw [List.countP_cons_of_neg hmark]
      linarith

/-- A spaced list has at most one mark more than gaps fit into its weight. -/
theorem Spaced.count_le [FloorRing R] (hgap : 0 < gap) (hweight : ∀ a ∈ l, 0 ≤ weight a)
    (h : Spaced mark weight gap l) : (l.countP mark : ℤ) ≤ ⌊weigh weight l / gap⌋ + 1 := by
  -- a gap before the list makes its first mark like the others
  have hcount := h.count_mul_le hweight gap hgap.le fun mid b post hl _ ↦ by
    have hmid : 0 ≤ weigh weight mid := by
      apply List.sum_nonneg
      intro w hw
      obtain ⟨a, ha, rfl⟩ := List.mem_map.mp hw
      apply hweight a
      rw [hl]
      exact List.mem_append_left _ ha
    linarith
  rw [← sub_le_iff_le_add, Int.le_floor, le_div_iff₀ hgap]
  push_cast
  linarith

/-- Among the stretches at the end of a list that are heavier than a bound, one is heavier by at
most one entry. -/
theorem exists_window {cap bound : R} (hcap : ∀ a ∈ l, weight a ≤ cap)
    (h : bound < weigh weight l) (hbound : 0 ≤ bound) :
    ∃ old recent, l = old ++ recent ∧ bound < weigh weight recent ∧
      weigh weight recent ≤ bound + cap := by
  induction l with
  | nil =>
    rw [weigh_nil] at h
    exact absurd h (not_lt.mpr hbound)
  | cons a l ih =>
    by_cases hrest : bound < weigh weight l
    · have ⟨old, recent, hl, hlow, hhigh⟩ :=
        ih (fun b hb ↦ hcap b (List.mem_cons_of_mem a hb)) hrest
      exact ⟨a :: old, recent, congrArg (a :: ·) hl, hlow, hhigh⟩
    · refine ⟨[], a :: l, rfl, h, ?_⟩
      have ha := hcap a List.mem_cons_self
      rw [weigh_cons]
      linarith

end VisionGame.Base
