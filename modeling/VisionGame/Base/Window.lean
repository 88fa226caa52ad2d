import Mathlib.Data.List.DropRight

/-!
# Windows over a log

Library `Base`. A window is backed by a log when its entries are the samples of the most
recent log entries, all of them entries that qualify. Appending to both and dropping old
entries of the window keep it backed. Further lemmas are about the most recent entries of a
list and about splitting it at a position.
-/

namespace VisionGame.Base

variable {α β : Type} {sample : α → Option β} {p : α → Prop} {log : List α} {window : List β}

/-- The window holds the samples of the most recent entries of the log, which all qualify. -/
def Backed (sample : α → Option β) (p : α → Prop) (log : List α) (window : List β) : Prop :=
  ∃ front recent, log = front ++ recent ∧ recent.map sample = window.map some ∧
    ∀ a ∈ recent, p a

/-- The empty window is backed by every log. -/
theorem backed_nil : Backed sample p log [] := ⟨log, [], by simp, rfl, by simp⟩

namespace Backed

/-- A qualifying entry may be appended to both. -/
theorem push (h : Backed sample p log window) {a : α} {b : β} (hb : sample a = some b)
    (ha : p a) : Backed sample p (log ++ [a]) (window ++ [b]) := by
  have ⟨front, recent, hlog, hmap, hall⟩ := h
  refine ⟨front, recent ++ [a], ?_, ?_, ?_⟩
  · rw [hlog, List.append_assoc]
  · rw [List.map_append, List.map_append, hmap, List.map_singleton, List.map_singleton, hb]
  · intro c hc
    rcases List.mem_append.mp hc with hc | hc
    · exact hall c hc
    · rw [List.mem_singleton.mp hc]
      exact ha

/-- Old entries may be dropped from the window. -/
theorem drop (h : Backed sample p log window) (n : ℕ) :
    Backed sample p log (window.drop n) := by
  have ⟨front, recent, hlog, hmap, hall⟩ := h
  refine ⟨front ++ recent.take n, recent.drop n, ?_, ?_, ?_⟩
  · rw [List.append_assoc, List.take_append_drop, hlog]
  · rw [List.map_drop, List.map_drop, hmap]
  · exact fun a ha ↦ hall a (List.mem_of_mem_drop ha)

/-- The log entry behind the newest sample qualifies. -/
theorem last (h : Backed sample p log window) (hne : window ≠ []) :
    ∃ a, log.getLast? = some a ∧ p a := by
  have ⟨front, recent, hlog, hmap, hall⟩ := h
  have hrecent : recent ≠ [] := by
    intro hnil
    rw [hnil] at hmap
    exact hne (List.map_eq_nil_iff.mp hmap.symm)
  refine ⟨recent.getLast hrecent, ?_, hall _ (List.getLast_mem hrecent)⟩
  rw [hlog, List.getLast?_append_of_ne_nil _ hrecent, List.getLast?_eq_some_getLast hrecent]

/-- The entries behind a window are the last ones of the log, as many as it has samples. -/
theorem rtake (h : Backed sample p log window) :
    (log.rtake window.length).map sample = window.map some ∧
      ∀ a ∈ log.rtake window.length, p a := by
  have ⟨front, recent, hlog, hmap, hall⟩ := h
  have hlen : recent.length = window.length := by
    have hl := congrArg List.length hmap
    rw [List.length_map, List.length_map] at hl
    exact hl
  have htake : log.rtake window.length = recent := by
    rw [List.rtake, hlog, List.length_append, hlen, Nat.add_sub_cancel, List.drop_left]
  rw [htake]
  exact ⟨hmap, hall⟩

end Backed

/-! ### The most recent entries of a list -/

/-- Appending an entry and dropping the oldest one beyond the bound keeps the most recent
entries. -/
theorem rtake_concat {n : ℕ} (hn : 0 < n) (l : List α) (a : α) :
    (l ++ [a]).rtake n =
      if n < (l.rtake n ++ [a]).length then (l.rtake n ++ [a]).drop 1 else l.rtake n ++ [a] := by
  simp only [List.rtake, List.length_append, List.length_drop, List.length_singleton]
  rcases Nat.lt_or_ge l.length n with hshort | hlong
  · have hall : l.length - n = 0 := by omega
    have hall' : l.length + 1 - n = 0 := by omega
    rw [hall, hall', if_neg (by omega), List.drop_zero, List.drop_zero]
  · have hdrop : l.length + 1 - n = l.length - n + 1 := by omega
    have hle : 1 ≤ (l.drop (l.length - n)).length := by
      rw [List.length_drop]
      omega
    rw [if_pos (by omega), hdrop, List.drop_append_of_le_length (by omega),
      List.drop_append_of_le_length hle, List.drop_drop]

/-- The suffix of some length is made of the most recent entries. -/
theorem suffix_iff_eq_rtake {l w : List α} : w <:+ l ↔ w = l.rtake w.length :=
  List.suffix_iff_eq_drop

/-- There are at most as many recent entries as are asked for. -/
theorem length_rtake_le (l : List α) (n : ℕ) : (l.rtake n).length ≤ n := by
  rw [List.rtake, List.length_drop]
  omega

/-- While a stretch of entries with a property reaches back far enough, the recent entries have
it. -/
theorem forall_mem_rtake {q : α → Bool} {l : List α} {n : ℕ}
    (h : n ≤ (l.rtakeWhile q).length) : ∀ a ∈ l.rtake n, q a = true := by
  intro a ha
  have hsuffix : l.rtake n <:+ l.rtakeWhile q := by
    refine List.suffix_of_suffix_length_le (List.drop_suffix _ _) (List.rtakeWhile_suffix q l) ?_
    exact (length_rtake_le l n).trans h
  exact List.mem_rtakeWhile_imp (hsuffix.mem ha)

/-- The most recent entry that qualifies. -/
def lastWhere (q : α → Bool) (l : List α) : Option α := (l.filter q).getLast?

/-- One more entry is the most recent one that qualifies, or changes nothing. -/
theorem lastWhere_concat (q : α → Bool) (l : List α) (a : α) :
    lastWhere q (l ++ [a]) = if q a = true then some a else lastWhere q l := by
  simp only [lastWhere, List.filter_append]
  split
  · next h => rw [List.filter_cons_of_pos h, List.filter_nil, List.getLast?_concat]
  · next h => rw [List.filter_cons_of_neg h, List.filter_nil, List.append_nil]

/-- The most recent entry that qualifies is an entry. -/
theorem mem_of_lastWhere {q : α → Bool} {l : List α} {a : α} (h : lastWhere q l = some a) :
    a ∈ l :=
  List.mem_of_mem_filter (List.mem_of_getLast? h)

/-! ### Positions of a list -/

/-- A list is what stands before a position, the entry there, and what stands after it. -/
theorem eq_take_cons_drop {l : List α} {n : ℕ} {a : α} (h : l[n]? = some a) :
    l = l.take n ++ a :: l.drop (n + 1) := by
  have ⟨hn, ha⟩ := List.getElem?_eq_some_iff.mp h
  rw [← ha, ← List.drop_eq_getElem_cons hn, List.take_append_drop]

/-- Every way to split a list is a split at a position. -/
theorem forall_split_of_getElem? {l : List α} {P : List α → α → Prop}
    (h : ∀ n < l.length, ∀ a, l[n]? = some a → P (l.take n) a) :
    ∀ pre a post, l = pre ++ a :: post → P pre a := by
  intro pre a post hl
  have hlen : pre.length < l.length := by
    rw [hl, List.length_append, List.length_cons]
    omega
  have hget : l[pre.length]? = some a := by
    rw [hl, List.getElem?_append_right (le_refl _), Nat.sub_self, List.getElem?_cons_zero]
  have hpre := h pre.length hlen a hget
  rw [hl, List.take_left] at hpre
  exact hpre

/-- The entry at a position and the other ones make up the list. -/
theorem perm_eraseIdx (l : List α) (k : ℕ) : (l[k]?.toList ++ l.eraseIdx k).Perm l := by
  induction l generalizing k with
  | nil => simp
  | cons a l ih =>
    cases k with
    | zero => simp
    | succ k =>
      rw [List.getElem?_cons_succ, List.eraseIdx_cons_succ]
      exact List.perm_middle.trans ((ih k).cons a)

/-! ### Replays of a log -/

/-- These are the entries of the log at positions that never go back. -/
structure Replays (log : List α) (positions : List ℕ) (shown : List α) : Prop where
  sorted : positions.Pairwise (· ≤ ·)
  entries : shown.map some = positions.map (log[·]?)

namespace Replays

/-- Nothing may have been shown. -/
theorem nil (log : List α) : Replays log [] [] := ⟨.nil, rfl⟩

section
variable {positions : List ℕ} {shown : List α} (h : Replays log positions shown)
include h

/-- The positions are those of entries. -/
theorem lt_length {i : ℕ} (hi : i ∈ positions) : i < log.length := by
  have hmem : log[i]? ∈ shown.map some := by
    rw [h.entries]
    exact List.mem_map_of_mem hi
  obtain ⟨a, _, ha⟩ := List.mem_map.mp hmem
  exact (List.getElem?_eq_some_iff.mp ha.symm).1

/-- Nothing is shown of an empty log. -/
theorem eq_nil (hlog : log = []) : shown = [] := by
  cases positions with
  | nil => exact List.map_eq_nil_iff.mp h.entries
  | cons i positions =>
    have hlt := h.lt_length List.mem_cons_self
    rw [hlog] at hlt
    exact absurd hlt (Nat.not_lt_zero i)

/-- The log may grow. -/
theorem later (more : List α) : Replays (log ++ more) positions shown := by
  refine ⟨h.sorted, h.entries.trans (List.map_congr_left fun i hi ↦ ?_)⟩
  rw [List.getElem?_append_left (h.lt_length hi)]

/-- The newest entry may be shown next. -/
theorem concat {a : α} (ha : log.getLast? = some a) :
    Replays log (positions ++ [log.length - 1]) (shown ++ [a]) := by
  constructor
  · refine List.pairwise_append.mpr ⟨h.sorted, List.pairwise_singleton .., fun i hi j hj ↦ ?_⟩
    rw [List.mem_singleton.mp hj]
    exact Nat.le_sub_one_of_lt (h.lt_length hi)
  · rw [List.map_append, List.map_append, h.entries, List.map_singleton, List.map_singleton, ← ha,
      List.getLast?_eq_getElem?]

/-- The beginning of a replay is one. -/
theorem take {first : List α} (hfirst : first <+: shown) :
    Replays log (positions.take first.length) first := by
  refine ⟨h.sorted.sublist (List.take_sublist ..), ?_⟩
  rw [List.map_take, ← h.entries, ← List.map_take, ← List.prefix_iff_eq_take.mp hfirst]

end
end Replays

end VisionGame.Base
