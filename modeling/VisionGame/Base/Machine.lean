import Mathlib.Data.List.Forall2
import Mathlib.Logic.Basic

/-!
# Machines driven by a list of inputs

Library `Base`. A `Machine` turns a state and an input into a record of what happened; the
record says which state the next input meets, or that the machine has halted. `trace` is
the list of records of a run. The rules lift facts about one step to whole runs: an
invariant rule, a rule for two step properties that are equivalent under an invariant, and
a rule whose invariant also sees the records produced so far. `Since` speaks about the records
after the last one of some kind, a budget on the states bounds the records of some kind in a
stretch, and the last rules compare two runs, on the same inputs or on inputs that correspond.
-/

namespace VisionGame.Base

/-! ### What has held since -/

/-- Some record of a history met `P`, given the records before it, and every later one meets
`Q`. -/
def Since {ρ : Type} (P : List ρ → ρ → Prop) (Q : ρ → Prop) (past : List ρ) : Prop :=
  ∃ before r between, past = before ++ r :: between ∧ P before r ∧ ∀ j ∈ between, Q j

/-- Before the first record nothing has happened. -/
theorem not_since_nil {ρ : Type} (P : List ρ → ρ → Prop) (Q : ρ → Prop) : ¬Since P Q [] := by
  rintro ⟨before, r, between, hpast, _⟩
  simp at hpast

/-- One more record begins the stretch, or goes on with it. -/
theorem since_concat {ρ : Type} (P : List ρ → ρ → Prop) (Q : ρ → Prop) (past : List ρ) (r : ρ) :
    Since P Q (past ++ [r]) ↔ P past r ∨ Since P Q past ∧ Q r := by
  constructor
  · rintro ⟨before, k, between, hpast, hk, hbetween⟩
    rcases List.eq_nil_or_concat between with hnil | ⟨init, j, hconcat⟩
    · rw [hnil] at hpast
      have ⟨hbefore, hr⟩ := List.append_inj' hpast rfl
      rw [hbefore, List.singleton_inj.mp hr]
      exact .inl hk
    · rw [hconcat] at hpast hbetween
      have hsplit : past ++ [r] = (before ++ k :: init) ++ [j] := by rw [hpast]; simp
      have ⟨hinit, hr⟩ := List.append_inj' hsplit rfl
      rw [List.singleton_inj.mp hr]
      right
      constructor
      · exact ⟨before, k, init, hinit, hk, fun i hi ↦ hbetween i (by simp [hi])⟩
      · exact hbetween j (by simp)
  · rintro (hr | ⟨⟨before, k, between, hpast, hk, hbetween⟩, hr⟩)
    · exact ⟨past, r, [], rfl, hr, by simp⟩
    · refine ⟨before, k, between ++ [r], by rw [hpast]; simp, hk, ?_⟩
      intro j hj
      rcases List.mem_append.mp hj with hold | hnew
      · exact hbetween j hold
      · rw [List.mem_singleton.mp hnew]
        exact hr

/-! ### Machines -/

/-- Deterministic machine over states `σ` and inputs `ι` that leaves records `ρ`. -/
structure Machine (σ ι ρ : Type) where
  /-- What the machine does on an input. -/
  step : σ → ι → ρ
  /-- The state after a record, absent once the machine has halted. -/
  next : ρ → Option σ

namespace Machine

variable {σ ι ρ : Type}

/-- Records of a run; inputs that arrive after the machine has halted are not consumed. -/
def trace (M : Machine σ ι ρ) : σ → List ι → List ρ
  | _, [] => []
  | s, i :: is =>
    M.step s i :: match M.next (M.step s i) with
      | some t => M.trace t is
      | none => []

variable (M : Machine σ ι ρ)

/-- A step that goes on is followed by the others. -/
theorem trace_cons_next {s t : σ} {i : ι} (is : List ι) (h : M.next (M.step s i) = some t) :
    M.trace s (i :: is) = M.step s i :: M.trace t is := by
  rw [trace, h]

/-- A step that halts is the last one. -/
theorem trace_cons_halt {s : σ} {i : ι} (is : List ι) (h : M.next (M.step s i) = none) :
    M.trace s (i :: is) = [M.step s i] := by
  rw [trace, h]

/-- One input makes one step. -/
theorem trace_singleton (s : σ) (i : ι) : M.trace s [i] = [M.step s i] := by
  simp only [trace]
  split <;> rfl

/-- Records that show their inputs show the first ones of the run. -/
theorem map_trace_isPrefix (input : ρ → ι) (h : ∀ s i, input (M.step s i) = i) (s : σ)
    (is : List ι) : (M.trace s is).map input <+: is := by
  induction is generalizing s with
  | nil => exact List.prefix_rfl
  | cons i is ih =>
    cases hn : M.next (M.step s i) with
    | none =>
      rw [M.trace_cons_halt is hn, List.map_singleton, h]
      exact List.prefix_append [i] is
    | some t =>
      rw [M.trace_cons_next is hn, List.map_cons, h, List.cons_prefix_cons]
      exact ⟨rfl, ih t⟩

/-- One more input adds one more record to a run that has not halted. -/
theorem trace_concat {is : List ι} {s t : σ} {past : List ρ} {r : ρ}
    (h : M.trace s is = past ++ [r]) (hr : M.next r = some t) (i : ι) :
    M.trace s (is ++ [i]) = past ++ [r] ++ [M.step t i] := by
  induction is generalizing s past with
  | nil => simp [trace] at h
  | cons j is ih =>
    cases hn : M.next (M.step s j) with
    | none =>
      rw [M.trace_cons_halt is hn] at h
      have hone : [] ++ [M.step s j] = past ++ [r] := h
      obtain ⟨-, hlast⟩ := List.append_inj' hone rfl
      rw [List.singleton_inj.mp hlast, hr] at hn
      cases hn
    | some u =>
      rw [M.trace_cons_next is hn] at h
      rw [List.cons_append, M.trace_cons_next _ hn]
      cases past with
      | nil =>
        obtain ⟨hstep, hnil⟩ := List.cons.inj h
        rw [hstep, hr] at hn
        cases is with
        | nil =>
          rw [hstep, Option.some.inj hn, List.nil_append, M.trace_singleton]
          rfl
        | cons k is => simp [trace] at hnil
      | cons q past =>
        obtain ⟨hstep, htail⟩ := List.cons.inj h
        rw [ih htail, hstep]
        rfl

/-- Two step properties that agree under an invariant hold throughout exactly the same
runs, provided that the second one is enough to keep the invariant. -/
theorem trace_forall_iff {I : σ → Prop} {P C : ρ → Prop} (is : List ι)
    (hstep : ∀ s, ∀ i ∈ is, I s → (P (M.step s i) ↔ C (M.step s i)))
    (hnext : ∀ s, ∀ i ∈ is, ∀ t, I s → C (M.step s i) → M.next (M.step s i) = some t → I t)
    {s : σ} (hs : I s) : (∀ r ∈ M.trace s is, P r) ↔ ∀ r ∈ M.trace s is, C r := by
  induction is generalizing s with
  | nil => simp [trace]
  | cons i is ih =>
    have hmem : i ∈ i :: is := List.mem_cons_self
    have htail {t : σ} := ih (fun s j hj ↦ hstep s j (List.mem_cons_of_mem _ hj))
      (fun s j hj ↦ hnext s j (List.mem_cons_of_mem _ hj)) (s := t)
    cases h : M.next (M.step s i) with
    | none =>
      rw [M.trace_cons_halt is h]
      simpa using hstep s i hmem hs
    | some t =>
      rw [M.trace_cons_next is h, List.forall_mem_cons, List.forall_mem_cons,
        hstep s i hmem hs]
      constructor
      · rintro ⟨hc, hp⟩
        exact ⟨hc, (htail (hnext s i hmem t hs hc h)).mp hp⟩
      · rintro ⟨hc, hp⟩
        exact ⟨hc, (htail (hnext s i hmem t hs hc h)).mpr hp⟩

/-- In a run all of whose records meet `C`, a step property that `C` and an invariant imply
holds of every record, provided that steps meeting `C` keep the invariant. -/
theorem trace_forall_of {I : σ → Prop} {C P : ρ → Prop} (is : List ι)
    (hstep : ∀ s, ∀ i ∈ is, I s → C (M.step s i) → P (M.step s i))
    (hnext : ∀ s, ∀ i ∈ is, ∀ t, I s → C (M.step s i) → M.next (M.step s i) = some t → I t)
    {s : σ} (hs : I s) (hc : ∀ r ∈ M.trace s is, C r) : ∀ r ∈ M.trace s is, P r := by
  have hboth := (M.trace_forall_iff (P := fun r ↦ C r ∧ P r) is
    (fun s i hi h ↦ ⟨And.left, fun hc ↦ ⟨hc, hstep s i hi h hc⟩⟩) hnext hs).mpr hc
  exact fun r hr ↦ (hboth r hr).2

/-- A step property that holds under an invariant, which every step keeps, holds of every
record of every run. -/
theorem trace_forall {I : σ → Prop} {P : ρ → Prop} (is : List ι)
    (hstep : ∀ s, ∀ i ∈ is, I s → P (M.step s i))
    (hnext : ∀ s, ∀ i ∈ is, ∀ t, I s → M.next (M.step s i) = some t → I t)
    {s : σ} (hs : I s) : ∀ r ∈ M.trace s is, P r :=
  M.trace_forall_of (C := fun _ ↦ True) is (fun s i hi h _ ↦ hstep s i hi h)
    (fun s i hi t h _ ↦ hnext s i hi t h) hs (fun _ _ ↦ True.intro)

/-- A record in a run is a step from a state that meets an invariant, provided that the steps
before it keep the invariant. -/
theorem exists_step_of_split {I : σ → Prop} {C : ρ → Prop} (is : List ι)
    (hnext : ∀ s, ∀ i ∈ is, ∀ t, I s → C (M.step s i) → M.next (M.step s i) = some t → I t)
    {s : σ} (hs : I s) {pre post : List ρ} {r : ρ} (h : M.trace s is = pre ++ r :: post)
    (hc : ∀ q ∈ pre, C q) : ∃ t, ∃ i ∈ is, I t ∧ M.step t i = r := by
  induction is generalizing s pre with
  | nil => simp [trace] at h
  | cons i is ih =>
    have hmem : i ∈ i :: is := List.mem_cons_self
    rw [trace] at h
    cases pre with
    | nil => exact ⟨s, i, hmem, hs, (List.cons.inj h).1⟩
    | cons q pre =>
      have ⟨hq, htail⟩ := List.cons.inj h
      have ⟨hcq, hcpre⟩ := List.forall_mem_cons.mp hc
      rw [← hq] at hcq
      cases hn : M.next (M.step s i) with
      | none =>
        rw [hn] at htail
        simp at htail
      | some t =>
        rw [hn] at htail
        have ⟨u, j, hj, hu, hr⟩ := ih (fun s j hj ↦ hnext s j (List.mem_cons_of_mem _ hj))
          (hnext s i hmem t hs hcq hn) htail hcpre
        exact ⟨u, j, List.mem_cons_of_mem _ hj, hu, hr⟩

/-! ### Machines that remember their records -/

/-- The machine that carries along the records it has produced so far. -/
def remember : Machine (List ρ × σ) ι (List ρ × ρ) where
  step s i := (s.1, M.step s.2 i)
  next r := (M.next r.2).map fun t ↦ (r.1 ++ [r.2], t)

/-- The remembering machine meets every record of the run together with exactly the records
before it. -/
theorem mem_remember_iff (is : List ι) (s : σ) (past before : List ρ) (r : ρ) :
    (before, r) ∈ M.remember.trace (past, s) is ↔
      ∃ pre post, M.trace s is = pre ++ r :: post ∧ before = past ++ pre := by
  induction is generalizing s past with
  | nil => simp [trace]
  | cons i is ih =>
    cases h : M.next (M.step s i) with
    | none =>
      have hr : M.remember.next (M.remember.step (past, s) i) = none := by simp [remember, h]
      rw [M.trace_cons_halt is h, M.remember.trace_cons_halt is hr, List.mem_singleton]
      constructor
      · intro he
        obtain ⟨rfl, rfl⟩ := Prod.mk.inj he
        exact ⟨[], [], rfl, (List.append_nil _).symm⟩
      · rintro ⟨pre, post, he, rfl⟩
        cases pre with
        | nil => simpa [remember] using (List.cons.inj he).1.symm
        | cons q pre => simp at he
    | some t =>
      have hr : M.remember.next (M.remember.step (past, s) i) = some (past ++ [M.step s i], t) := by
        simp [remember, h]
      rw [M.trace_cons_next is h, M.remember.trace_cons_next is hr, List.mem_cons, ih]
      constructor
      · rintro (he | ⟨pre, post, he, rfl⟩)
        · obtain ⟨rfl, rfl⟩ := Prod.mk.inj he
          exact ⟨[], M.trace t is, rfl, (List.append_nil _).symm⟩
        · exact ⟨M.step s i :: pre, post, by rw [he, List.cons_append], by simp⟩
      · rintro ⟨pre, post, he, rfl⟩
        cases pre with
        | nil =>
          left
          simpa [remember] using (List.cons.inj he).1.symm
        | cons q pre =>
          obtain ⟨hq, htail⟩ := List.cons.inj he
          exact Or.inr ⟨pre, post, htail, by simp [hq]⟩

/-- A property of a record and its past holds at every split of a run exactly when it holds
of every record of the remembering machine. -/
theorem forall_split_iff (is : List ι) (s : σ) (P : List ρ → ρ → Prop) :
    (∀ pre r post, M.trace s is = pre ++ r :: post → P pre r) ↔
      ∀ p ∈ M.remember.trace ([], s) is, P p.1 p.2 := by
  constructor
  · rintro h ⟨pre, r⟩ hp
    obtain ⟨before, post, he, hpre⟩ := (M.mem_remember_iff is s [] pre r).mp hp
    rw [List.nil_append] at hpre
    rw [hpre]
    exact h before r post he
  · intro h pre r post he
    exact h (pre, r) ((M.mem_remember_iff is s [] pre r).mpr ⟨pre, post, he, rfl⟩)

/-- Two properties of a step and the records before it that agree under an invariant of the run
so far hold throughout exactly the same runs, provided that the second one is enough to keep the
invariant. -/
theorem split_forall_iff {I : List ρ → σ → Prop} {P C : List ρ → ρ → Prop} (is : List ι)
    (hstep : ∀ past s, ∀ i ∈ is, I past s → (P past (M.step s i) ↔ C past (M.step s i)))
    (hnext : ∀ past s, ∀ i ∈ is, ∀ t, I past s → C past (M.step s i) →
      M.next (M.step s i) = some t → I (past ++ [M.step s i]) t)
    {s : σ} (hs : I [] s) :
    (∀ past r post, M.trace s is = past ++ r :: post → P past r) ↔
      ∀ past r post, M.trace s is = past ++ r :: post → C past r := by
  rw [M.forall_split_iff, M.forall_split_iff]
  apply M.remember.trace_forall_iff (I := fun u ↦ I u.1 u.2) (P := fun p ↦ P p.1 p.2)
    (C := fun p ↦ C p.1 p.2) is
  · rintro ⟨past, u⟩ i hi hu
    exact hstep past u i hi hu
  · rintro ⟨past, u⟩ i hi ⟨past', v⟩ hu hc hv
    obtain ⟨t, ht, hpair⟩ := Option.map_eq_some_iff.mp hv
    obtain ⟨rfl, rfl⟩ := Prod.mk.inj hpair
    exact hnext past u i hi t hu hc ht
  · exact hs

/-- In a run all of whose records meet `C` after the records before them, so does every property
that `C` and an invariant of the run so far imply, provided that steps meeting `C` keep it. -/
theorem split_forall_of {I : List ρ → σ → Prop} {C P : List ρ → ρ → Prop} (is : List ι)
    (hstep : ∀ past s, ∀ i ∈ is, I past s → C past (M.step s i) → P past (M.step s i))
    (hnext : ∀ past s, ∀ i ∈ is, ∀ t, I past s → C past (M.step s i) →
      M.next (M.step s i) = some t → I (past ++ [M.step s i]) t)
    {s : σ} (hs : I [] s) (hc : ∀ past r post, M.trace s is = past ++ r :: post → C past r) :
    ∀ past r post, M.trace s is = past ++ r :: post → P past r := by
  have hboth := (M.split_forall_iff (P := fun past r ↦ C past r ∧ P past r) is
    (fun past s i hi h ↦ ⟨And.left, fun hc ↦ ⟨hc, hstep past s i hi h hc⟩⟩) hnext hs).mpr hc
  exact fun past r post hsplit ↦ (hboth past r post hsplit).2

/-- A property that holds of each step under an invariant of the run so far, which every step
keeps, holds of every record and the records before it. -/
theorem split_forall {I : List ρ → σ → Prop} {P : List ρ → ρ → Prop} (is : List ι)
    (hstep : ∀ past s, ∀ i ∈ is, I past s → P past (M.step s i))
    (hnext : ∀ past s, ∀ i ∈ is, ∀ t, I past s → M.next (M.step s i) = some t →
      I (past ++ [M.step s i]) t)
    {s : σ} (hs : I [] s) : ∀ past r post, M.trace s is = past ++ r :: post → P past r :=
  M.split_forall_of (C := fun _ _ ↦ True) is (fun past s i hi h _ ↦ hstep past s i hi h)
    (fun past s i hi t h _ ↦ hnext past s i hi t h) hs (fun _ _ _ _ ↦ True.intro)

/-! ### Stretches of a run -/

/-- What is left of a run after some of its records is a run of its own. -/
theorem exists_trace_of_append (is : List ι) {s : σ} {pre post : List ρ}
    (h : M.trace s is = pre ++ post) (hpost : post ≠ []) : ∃ t js, M.trace t js = post := by
  induction is generalizing s pre with
  | nil =>
    have hnil := List.append_eq_nil_iff.mp h.symm
    exact absurd hnil.2 hpost
  | cons i is ih =>
    cases pre with
    | nil => exact ⟨s, i :: is, h⟩
    | cons r pre =>
      rw [trace, List.cons_append] at h
      have ⟨_, htail⟩ := List.cons.inj h
      cases hn : M.next (M.step s i) with
      | none =>
        rw [hn] at htail
        exact absurd (List.append_eq_nil_iff.mp htail.symm).2 hpost
      | some t =>
        rw [hn] at htail
        exact ih htail

/-- When every step that meets `C` pays for itself out of a budget on the states, a run begins
with at most as many counted records as the budget it starts with, as long as all meet `C`. -/
theorem countP_prefix_le {budget : σ → ℕ} {p : ρ → Bool} {C : ρ → Prop}
    (hpay : ∀ s i, C (M.step s i) →
      (if p (M.step s i) then 1 else 0) + (M.next (M.step s i)).elim 0 budget ≤ budget s)
    (is : List ι) {s : σ} {stretch post : List ρ} (h : M.trace s is = stretch ++ post)
    (hc : ∀ r ∈ stretch, C r) : stretch.countP p ≤ budget s := by
  induction is generalizing s stretch with
  | nil =>
    have hnil := (List.append_eq_nil_iff.mp h.symm).1
    simp [hnil]
  | cons i is ih =>
    cases stretch with
    | nil => simp
    | cons r rest =>
      rw [trace, List.cons_append] at h
      have ⟨hr, htail⟩ := List.cons.inj h
      have ⟨hcr, hcrest⟩ := List.forall_mem_cons.mp hc
      have hpaid := hpay s i (hr ▸ hcr)
      rw [hr] at hpaid
      rw [List.countP_cons]
      cases hn : M.next (M.step s i) with
      | none =>
        rw [hn] at htail
        have hrest := (List.append_eq_nil_iff.mp htail.symm).1
        rw [hrest, List.countP_nil]
        omega
      | some t =>
        rw [hn] at htail
        rw [← hr, hn, Option.elim_some, hr] at hpaid
        have hrest := ih htail hcrest
        omega

/-- A bound on the budget bounds the counted records in every stretch that meets `C`. -/
theorem countP_stretch_le {budget : σ → ℕ} {n : ℕ} (hn : ∀ s, budget s ≤ n) {p : ρ → Bool}
    {C : ρ → Prop}
    (hpay : ∀ s i, C (M.step s i) →
      (if p (M.step s i) then 1 else 0) + (M.next (M.step s i)).elim 0 budget ≤ budget s)
    (is : List ι) {s : σ} {pre stretch post : List ρ}
    (h : M.trace s is = pre ++ stretch ++ post) (hc : ∀ r ∈ stretch, C r) :
    stretch.countP p ≤ n := by
  by_cases hnil : stretch ++ post = []
  · rw [(List.append_eq_nil_iff.mp hnil).1]
    exact Nat.zero_le n
  · rw [List.append_assoc] at h
    have ⟨t, js, hrun⟩ := M.exists_trace_of_append is h hnil
    exact Nat.le_trans (M.countP_prefix_le hpay js hrun hc) (hn t)

/-! ### Two runs on the same inputs -/

/-- Two runs on the same inputs show the same exactly when every input meets a condition on the
inputs before it, provided that a relation between the states decides about each step and is
kept by it. -/
theorem map_trace_eq_iff {I : List ι → σ → σ → Prop} {C : List ι → ι → Prop} {ω : Type}
    {f : ρ → ω} (is : List ι)
    (hstep : ∀ past, ∀ i ∈ is, ∀ s t, I past s t → (f (M.step s i) = f (M.step t i) ↔ C past i))
    (hnext : ∀ past, ∀ i ∈ is, ∀ s t, I past s t → ∃ s' t', M.next (M.step s i) = some s' ∧
      M.next (M.step t i) = some t' ∧ I (past ++ [i]) s' t')
    {past : List ι} {s t : σ} (h : I past s t) :
    (M.trace s is).map f = (M.trace t is).map f ↔
      ∀ before i after, is = before ++ i :: after → C (past ++ before) i := by
  induction is generalizing past s t with
  | nil => simp [trace]
  | cons i is ih =>
    have hmem : i ∈ i :: is := List.mem_cons_self
    have ⟨s', t', hs, ht, hnew⟩ := hnext past i hmem s t h
    have htail := ih (fun past j hj ↦ hstep past j (List.mem_cons_of_mem _ hj))
      (fun past j hj ↦ hnext past j (List.mem_cons_of_mem _ hj)) hnew
    rw [M.trace_cons_next is hs, M.trace_cons_next is ht, List.map_cons, List.map_cons,
      List.cons_eq_cons, hstep past i hmem s t h, htail]
    constructor
    · rintro ⟨hfirst, hrest⟩ before j after hsplit
      cases before with
      | nil =>
        rw [← (List.cons.inj hsplit).1, List.append_nil]
        exact hfirst
      | cons k before =>
        have ⟨hk, htl⟩ := List.cons.inj hsplit
        have hc := hrest before j after htl
        rw [hk, List.append_assoc, List.singleton_append] at hc
        exact hc
    · intro hall
      constructor
      · have hc := hall [] i is rfl
        rw [List.append_nil] at hc
        exact hc
      · intro before j after hsplit
        rw [List.append_assoc, List.singleton_append]
        exact hall (i :: before) j after (by rw [hsplit, List.cons_append])

/-! ### Two runs on inputs that correspond -/

/-- Runs of two machines on inputs that correspond leave records that correspond, provided that
a relation between the states decides about each pair of records and is kept by it. -/
theorem forall₂_trace {σ' ι' ρ' : Type} (N : Machine σ' ι' ρ') {I : σ → σ' → Prop}
    {J : ι → ι' → Prop} {Q : ρ → ρ' → Prop}
    (hstep : ∀ s t i j, I s t → J i j → Q (M.step s i) (N.step t j))
    (hnext : ∀ s t i j, I s t → J i j →
      Option.Rel I (M.next (M.step s i)) (N.next (N.step t j)))
    {is : List ι} {js : List ι'} (h : List.Forall₂ J is js) {s : σ} {t : σ'} (hst : I s t) :
    List.Forall₂ Q (M.trace s is) (N.trace t js) := by
  induction h generalizing s t with
  | nil => exact .nil
  | @cons i j is js hij _ ih =>
    have hrecord := hstep s t i j hst hij
    have hafter := hnext s t i j hst hij
    simp only [trace]
    refine .cons hrecord ?_
    generalize M.next (M.step s i) = s' at hafter ⊢
    generalize N.next (N.step t j) = t' at hafter ⊢
    cases hafter with
    | some hnew => exact ih hnew
    | none => exact .nil

end Machine
end VisionGame.Base
