import VisionGame.Base.Machine

/-!
# Two-level lines and their edges

Library `Base`. A line such as a mouse button is up or down and changes by edges. A list of
edges is read from a starting level; it alternates when every edge changes the level it
meets, and its final level is the one its last edge leaves, whether or not it alternates.
The last section is about a machine whose records carry edges: its whole run alternates
exactly when each record does from the level it starts at.
-/

namespace VisionGame.Base

/-- Change of a two-level line. -/
inductive Edge where
  | press
  | release
  deriving DecidableEq, Repr

namespace Edge

/-- Level an edge leaves; `true` is pressed. -/
def level : Edge → Bool
  | press => true
  | release => false

/-- Level of a line after some edges, from its level before them. -/
def levelAfter (start : Bool) (es : List Edge) : Bool :=
  es.foldl (fun _ e ↦ e.level) start

/-- Every edge changes the level it meets. -/
def Alternates : Bool → List Edge → Prop
  | _, [] => True
  | start, e :: es => e.level ≠ start ∧ Alternates e.level es

instance decidableAlternates : ∀ (start : Bool) (es : List Edge), Decidable (Alternates start es)
  | _, [] => isTrue True.intro
  | start, e :: es =>
    have := decidableAlternates e.level es
    inferInstanceAs (Decidable (e.level ≠ start ∧ Alternates e.level es))

/-- Without edges the level stays. -/
@[simp] theorem levelAfter_nil (start : Bool) : levelAfter start [] = start := rfl

/-- An edge sets the level for the ones that follow. -/
@[simp] theorem levelAfter_cons (start : Bool) (e : Edge) (es : List Edge) :
    levelAfter start (e :: es) = levelAfter e.level es := rfl

/-- No edges alternate. -/
@[simp] theorem alternates_nil (start : Bool) : Alternates start [] := True.intro

/-- The first edge leaves the level, and the others alternate from there. -/
@[simp] theorem alternates_cons (start : Bool) (e : Edge) (es : List Edge) :
    Alternates start (e :: es) ↔ e.level ≠ start ∧ Alternates e.level es := Iff.rfl

/-- The second of two stretches starts from the level the first one leaves. -/
theorem levelAfter_append (start : Bool) (es fs : List Edge) :
    levelAfter start (es ++ fs) = levelAfter (levelAfter start es) fs :=
  List.foldl_append

/-- Two stretches alternate when each does from the level it meets. -/
theorem alternates_append (start : Bool) (es fs : List Edge) :
    Alternates start (es ++ fs) ↔
      Alternates start es ∧ Alternates (levelAfter start es) fs := by
  induction es generalizing start with
  | nil => simp
  | cons e es ih => simp [ih, and_assoc]

/-- A line that starts released is pressed exactly when its last edge is a press. -/
theorem levelAfter_false_iff (es : List Edge) :
    levelAfter false es = true ↔ es.getLast? = some .press := by
  rcases List.eq_nil_or_concat es with rfl | ⟨fs, e, rfl⟩
  · simp
  · cases e <;> simp [levelAfter_append, level]

end Edge

open Edge

/-- How a machine drives a line: the edges of a record lead from the level of the state the
record starts in to the level of the state it leaves. -/
structure Line {σ ι ρ : Type} (M : Machine σ ι ρ) where
  level : σ → Bool
  edges : ρ → List Edge
  start : ρ → Bool
  stop : ρ → Bool
  start_step : ∀ s i, start (M.step s i) = level s
  stop_step : ∀ s i, levelAfter (level s) (edges (M.step s i)) = stop (M.step s i)
  level_next : ∀ r t, M.next r = some t → level t = stop r

namespace Line

variable {σ ι ρ : Type} {M : Machine σ ι ρ} (L : Line M)

/-- After any record of a run the line stands where the record leaves it. -/
theorem levelAfter_of_trace (is : List ι) {s : σ} {pre post : List ρ} {r : ρ}
    (h : M.trace s is = pre ++ r :: post) :
    levelAfter (L.level s) ((pre ++ [r]).flatMap L.edges) = L.stop r := by
  induction is generalizing s pre with
  | nil => simp [Machine.trace] at h
  | cons i is ih =>
    rw [Machine.trace] at h
    cases pre with
    | nil =>
      obtain ⟨hr, -⟩ := List.cons.inj h
      rw [← hr]
      simpa using L.stop_step s i
    | cons q pre =>
      obtain ⟨hq, htail⟩ := List.cons.inj h
      cases hn : M.next (M.step s i) with
      | none =>
        rw [hn] at htail
        simp at htail
      | some t =>
        rw [hn] at htail
        rw [List.cons_append, List.flatMap_cons, levelAfter_append, ← hq, L.stop_step,
          ← L.level_next _ t hn]
        exact ih htail

/-- The edges of a run alternate exactly when those of each record do, from its start. -/
theorem alternates_trace_iff (is : List ι) (s : σ) :
    Alternates (L.level s) ((M.trace s is).flatMap L.edges) ↔
      ∀ r ∈ M.trace s is, Alternates (L.start r) (L.edges r) := by
  induction is generalizing s with
  | nil => simp [Machine.trace]
  | cons i is ih =>
    rw [Machine.trace, List.flatMap_cons, alternates_append, List.forall_mem_cons,
      L.start_step, L.stop_step]
    cases hn : M.next (M.step s i) with
    | none => simp
    | some t => rw [← L.level_next _ t hn, ih]

end Line
end VisionGame.Base
