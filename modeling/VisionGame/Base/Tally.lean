import Mathlib.Algebra.GroupWithZero.Nat
import Mathlib.Data.Finset.Card
import Mathlib.Data.List.Nodup

/-!
# Tallies that are announced

Library `Base`. A tally counts items, each under a label, until it is reset; in between its
size can be announced for a label, if it is more than one. The tally is fair when no item was
announced twice and each announcement was of items under its own label. Announcing keeps a
tally fair exactly when the counted items are all under the label that is announced.
-/

namespace VisionGame.Base

/-- Items that are counted, and those of each announcement with its label. -/
structure Tally (ι κ : Type) where
  counted : List (ι × κ)
  announced : List (κ × List (ι × κ))

namespace Tally

variable {ι κ : Type}

/-- Nothing is counted or announced yet. -/
def empty : Tally ι κ := ⟨[], []⟩

/-- Items are counted under a label. -/
def count (k : κ) (xs : List ι) (t : Tally ι κ) : Tally ι κ :=
  { t with counted := t.counted ++ xs.map fun x ↦ (x, k) }

/-- Several items are announced for a label. -/
def announce (k : κ) (t : Tally ι κ) : Tally ι κ :=
  if 1 < t.counted.length then { t with announced := t.announced ++ [(k, t.counted)] } else t

/-- Nothing is counted any more. -/
def reset (t : Tally ι κ) : Tally ι κ := { t with counted := [] }

/-- The items of all announcements. -/
def announcedItems (t : Tally ι κ) : List ι := t.announced.flatMap fun a ↦ a.2.map Prod.fst

/-- The sizes that were announced. -/
def sizes (t : Tally ι κ) : List ℕ := t.announced.map fun a ↦ a.2.length

/-- No item was announced twice, and each announcement was of items under its own label. -/
structure Fair (t : Tally ι κ) : Prop where
  once : t.announcedItems.Nodup
  own : ∀ a ∈ t.announced, ∀ c ∈ a.2, c.2 = a.1

/-- A counted item was counted before, or is new and under the label. -/
theorem mem_counted_count {k : κ} {xs : List ι} {t : Tally ι κ} {c : ι × κ} :
    c ∈ (t.count k xs).counted ↔ c ∈ t.counted ∨ c.1 ∈ xs ∧ c.2 = k := by
  simp only [count, List.mem_append, List.mem_map]
  constructor
  · rintro (hold | ⟨x, hx, rfl⟩)
    · exact .inl hold
    · exact .inr ⟨hx, rfl⟩
  · rintro (hold | ⟨hx, hk⟩)
    · exact .inl hold
    · exact .inr ⟨c.1, hx, Prod.ext rfl hk.symm⟩

/-- Counting adds the items to those that are counted. -/
theorem items_count (k : κ) (xs : List ι) (t : Tally ι κ) :
    (t.count k xs).counted.map Prod.fst = t.counted.map Prod.fst ++ xs := by
  simp only [count]
  rw [List.map_append, List.map_map]
  exact congrArg _ (List.map_id xs)

/-- An announcement counts nothing. -/
@[simp] theorem announce_counted (k : κ) (t : Tally ι κ) :
    (t.announce k).counted = t.counted := by
  simp only [announce]
  split <;> rfl

/-- Counting is no announcement. -/
@[simp] theorem fair_count (k : κ) (xs : List ι) (t : Tally ι κ) :
    (t.count k xs).Fair ↔ t.Fair :=
  ⟨fun h ↦ ⟨h.once, h.own⟩, fun h ↦ ⟨h.once, h.own⟩⟩

/-- A reset is no announcement. -/
@[simp] theorem fair_reset (t : Tally ι κ) : t.reset.Fair ↔ t.Fair :=
  ⟨fun h ↦ ⟨h.once, h.own⟩, fun h ↦ ⟨h.once, h.own⟩⟩

/-- Several items that are announced are a new announcement. -/
theorem announce_of_lt {k : κ} {t : Tally ι κ} (h : 1 < t.counted.length) :
    (t.announce k).announced = t.announced ++ [(k, t.counted)] := by
  simp only [announce]
  rw [if_pos h]

/-- Announcing no more than one item announces nothing. -/
theorem announce_of_le {k : κ} {t : Tally ι κ} (h : t.counted.length ≤ 1) : t.announce k = t := by
  simp only [announce]
  rw [if_neg (not_lt.mpr h)]

/-- An announcement adds its size. -/
theorem sizes_announce (k : κ) (t : Tally ι κ) :
    (t.announce k).sizes =
      if 1 < t.counted.length then t.sizes ++ [t.counted.length] else t.sizes := by
  simp only [sizes]
  split
  · next h =>
    rw [announce_of_lt h, List.map_append]
    rfl
  · next h => rw [announce_of_le (not_lt.mp h)]

/-- An announced item was announced before or is counted. -/
theorem mem_announcedItems_announce {k : κ} {t : Tally ι κ} {x : ι}
    (h : x ∈ (t.announce k).announcedItems) :
    x ∈ t.announcedItems ∨ ∃ c ∈ t.counted, c.1 = x := by
  by_cases hlen : 1 < t.counted.length
  · simp only [announcedItems] at h
    rw [announce_of_lt hlen, List.flatMap_append, List.mem_append] at h
    rcases h with hold | hnew
    · exact .inl hold
    · right
      simpa using hnew
  · rw [announce_of_le (not_lt.mp hlen)] at h
    exact .inl h

/-- Announcing keeps a tally fair exactly when it counts only items under the label, provided
that these are distinct and not announced yet. -/
theorem fair_announce_iff {k : κ} {t : Tally ι κ} (h : t.Fair)
    (hnodup : (t.counted.map Prod.fst).Nodup)
    (hfresh : ∀ c ∈ t.counted, c.2 = k → c.1 ∉ t.announcedItems) :
    (t.announce k).Fair ↔ (1 < t.counted.length → ∀ c ∈ t.counted, c.2 = k) := by
  constructor
  · intro hfair hlen c hc
    have hmem : (k, t.counted) ∈ (t.announce k).announced := by
      rw [announce_of_lt hlen]
      simp
    exact hfair.own _ hmem c hc
  · intro hown
    by_cases hlen : 1 < t.counted.length
    · constructor
      · simp only [announcedItems]
        rw [announce_of_lt hlen, List.flatMap_append]
        apply List.Nodup.append h.once
        · simpa using hnodup
        · intro x hold hnew
          have ⟨c, hc, hx⟩ : ∃ c ∈ t.counted, c.1 = x := by simpa using hnew
          rw [← hx] at hold
          exact hfresh c hc (hown hlen c hc) hold
      · rw [announce_of_lt hlen]
        intro a ha
        rcases List.mem_append.mp ha with hold | hnew
        · exact h.own a hold
        · rw [List.mem_singleton.mp hnew]
          exact hown hlen
    · rw [announce_of_le (not_lt.mp hlen)]
      exact h

/-- The announced sizes add up to the number of announced items. -/
theorem sum_sizes (t : Tally ι κ) : t.sizes.sum = t.announcedItems.length := by
  simp only [sizes, announcedItems]
  rw [List.length_flatMap]
  simp only [List.length_map]

/-- The announced sizes of a fair tally add up to no more than the number of items there are. -/
theorem Fair.sum_sizes_le [DecidableEq ι] {t : Tally ι κ} (h : t.Fair) {items : Finset ι}
    (hitems : ∀ x ∈ t.announcedItems, x ∈ items) : t.sizes.sum ≤ items.card := by
  rw [sum_sizes, ← List.toFinset_card_of_nodup h.once]
  apply Finset.card_le_card
  intro x hx
  exact hitems x (List.mem_toFinset.mp hx)

end Tally
end VisionGame.Base
