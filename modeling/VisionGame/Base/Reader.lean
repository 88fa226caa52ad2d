import Mathlib.Data.List.Infix
import Mathlib.Data.Nat.Notation

/-!
# Readers of what has arrived

Library `Base`. A reader takes a value off the front of what has arrived, or finds that not enough
of it is there. `Reads p w a` says that `p` takes `a` off `w` whatever follows, and nothing off a
part of `w`. Readers compose, and so does what they read. One that is applied again and again to
the beginning of a sequence of encodings finds the beginning of the sequence.
-/

namespace VisionGame.Base

/-- Takes a value off the front of a list, and leaves the rest. -/
abbrev Reader (β : Type) := StateT (List β) Option

variable {β α γ : Type}

namespace Reader

/-! ### Readers -/

/-- Exactly this. -/
def literal [DecidableEq β] (w : List β) : Reader β Unit := fun s ↦
  if w.isPrefixOf s then some ((), s.drop w.length) else none

/-- So many. -/
def take (n : ℕ) : Reader β (List β) := fun s ↦
  if n ≤ s.length then some (s.take n, s.drop n) else none

/-- Everything before the first occurrence of `stop`, which is dropped. -/
def upTo [DecidableEq β] (stop : List β) : Reader β (List β)
  | [] => none
  | b :: s =>
    if stop.isPrefixOf (b :: s) then some ([], (b :: s).drop stop.length)
    else (upTo stop s).map fun r ↦ (b :: r.1, r.2)

/-- A value that is known or missing, off nothing. -/
def expect (a : Option α) : Reader β α := fun s ↦ a.map (·, s)

/-- Values one after the other, at most so many. -/
def atMost (p : Reader β α) : ℕ → List β → List α
  | 0, _ => []
  | k + 1, s =>
    match p s with
    | some (a, rest) => a :: atMost p k rest
    | none => []

/-- All values that have arrived. -/
def all (p : Reader β α) (s : List β) : List α := atMost p s.length s

end Reader

/-- The reader takes `a` off `w` whatever follows, and nothing off a part of `w`. -/
structure Reads (p : Reader β α) (w : List β) (a : α) : Prop where
  whole : ∀ rest, p (w ++ rest) = some (a, rest)
  short : ∀ v, v <+: w → v ≠ w → p v = none

namespace Reads
open Reader

/-! ### How readers compose -/

/-- Nothing is read for a constant. -/
theorem pure (a : α) : Reads (Pure.pure a : Reader β α) [] a :=
  ⟨fun _ ↦ rfl, fun _ hpre hne ↦ absurd (List.prefix_nil.mp hpre) hne⟩

/-- One reader after the other reads what the two read. -/
theorem bind {p : Reader β α} {f : α → Reader β γ} {w w' : List β} {a : α} {c : γ}
    (hp : Reads p w a) (hf : Reads (f a) w' c) : Reads (p >>= f) (w ++ w') c := by
  constructor
  · intro rest
    change (p (w ++ w' ++ rest)).bind (fun r ↦ f r.1 r.2) = _
    rw [List.append_assoc, hp.whole]
    exact hf.whole rest
  · intro v hpre hne
    change (p v).bind (fun r ↦ f r.1 r.2) = _
    rcases List.prefix_or_prefix_of_prefix hpre (List.prefix_append w w') with hin | hout
    · by_cases heq : v = w
      · -- all of `w` is there and nothing of `w'`
        have hall := hp.whole []
        rw [List.append_nil] at hall
        rw [heq, hall]
        refine hf.short [] List.nil_prefix fun hnil ↦ hne ?_
        rw [heq, ← hnil, List.append_nil]
      · rw [hp.short v hin heq]
        rfl
    · obtain ⟨u, rfl⟩ := hout
      rw [hp.whole]
      refine hf.short u ((List.prefix_append_right_inj w).mp hpre) fun heq ↦ hne ?_
      rw [heq]

/-- What has been read may be mapped. -/
theorem map {p : Reader β α} {w : List β} {a : α} (h : Reads p w a) (f : α → γ) :
    Reads (f <$> p) w (f a) := by
  constructor
  · intro rest
    change (p (w ++ rest)).bind (fun r ↦ some (f r.1, r.2)) = _
    rw [h.whole]
    rfl
  · intro v hpre hne
    change (p v).bind (fun r ↦ some (f r.1, r.2)) = _
    rw [h.short v hpre hne]
    rfl

/-! ### What the readers read -/

/-- A word is read as itself. -/
theorem literal [DecidableEq β] (w : List β) : Reads (literal w) w () := by
  constructor
  · intro rest
    have hpre : w.isPrefixOf (w ++ rest) = true :=
      List.isPrefixOf_iff_prefix.mpr (List.prefix_append w rest)
    rw [Reader.literal, if_pos hpre, List.drop_left]
  · intro v hpre hne
    refine if_neg fun h ↦ hne ?_
    have hback := List.isPrefixOf_iff_prefix.mp h
    exact hpre.eq_of_length (Nat.le_antisymm hpre.length_le hback.length_le)

/-- As many entries as a word has are read as the word. -/
theorem take (w : List β) : Reads (take w.length) w w := by
  constructor
  · intro rest
    have hle : w.length ≤ (w ++ rest).length := by
      rw [List.length_append]
      exact Nat.le_add_right ..
    rw [Reader.take, if_pos hle, List.take_left, List.drop_left]
  · intro v hpre hne
    refine if_neg fun h ↦ hne ?_
    exact hpre.eq_of_length (Nat.le_antisymm hpre.length_le h)

/-- A value that is there costs nothing. -/
theorem expect {a : α} {o : Option α} (h : o = some a) : Reads (expect o : Reader β α) [] a := by
  constructor
  · intro rest
    rw [h]
    rfl
  · exact fun _ hpre hne ↦ absurd (List.prefix_nil.mp hpre) hne

/-- The end mark is not found in less than its length. -/
theorem upTo_eq_none [DecidableEq β] {stop s : List β} (h : s.length < stop.length) :
    Reader.upTo stop s = none := by
  induction s with
  | nil => rfl
  | cons b s ih =>
    have hnot : ¬stop.isPrefixOf (b :: s) = true := fun hpre ↦
      Nat.not_le_of_lt h (List.isPrefixOf_iff_prefix.mp hpre).length_le
    rw [Reader.upTo, if_neg hnot, ih (Nat.lt_of_succ_lt h)]
    rfl

/-- A text in which the end mark cannot begin is read up to the mark. -/
theorem upTo [DecidableEq β] {c : β} {stop w : List β} (h : c ∉ w) :
    Reads (upTo (c :: stop)) (w ++ c :: stop) w := by
  induction w with
  | nil =>
    constructor
    · intro rest
      have hpre : (c :: stop).isPrefixOf (c :: (stop ++ rest)) = true :=
        List.isPrefixOf_iff_prefix.mpr (List.prefix_append (c :: stop) rest)
      change Reader.upTo (c :: stop) (c :: (stop ++ rest)) = _
      rw [Reader.upTo, if_pos hpre]
      exact congrArg (fun s ↦ some ([], s)) List.drop_left
    · intro v hpre hne
      refine upTo_eq_none (Nat.lt_of_le_of_ne hpre.length_le fun hlen ↦ hne ?_)
      exact hpre.eq_of_length hlen
  | cons b w ih =>
    rw [List.mem_cons, not_or] at h
    have hw := ih h.2
    have hnot (s : List β) : ¬(c :: stop).isPrefixOf (b :: s) = true := fun hpre ↦
      h.1 (List.cons_prefix_cons.mp (List.isPrefixOf_iff_prefix.mp hpre)).1
    constructor
    · intro rest
      rw [List.cons_append, List.cons_append, Reader.upTo, if_neg (hnot _), hw.whole]
      rfl
    · intro v hpre hne
      cases v with
      | nil => rfl
      | cons b' v =>
        rw [List.cons_append, List.cons_prefix_cons] at hpre
        have hv : v ≠ w ++ c :: stop := fun heq ↦ hne (by rw [hpre.1, heq, List.cons_append])
        rw [hpre.1, Reader.upTo, if_neg (hnot _), hw.short v hpre.2 hv]
        rfl

/-! ### Sequences -/

section
variable {p : Reader β α} {enc : α → List β} (h : ∀ a, Reads p (enc a) a)
include h

/-- Of the beginning of a sequence of encodings, the beginning of the sequence is read. -/
theorem atMost_prefix (hnil : p [] = none) (as : List α) (k : ℕ) {v : List β}
    (hpre : v <+: as.flatMap enc) : atMost p k v <+: as := by
  induction as generalizing k v with
  | nil =>
    rw [List.prefix_nil.mp hpre]
    cases k with
    | zero => exact List.prefix_rfl
    | succ k =>
      rw [atMost, hnil]
  | cons a as ih =>
    cases k with
    | zero => exact List.nil_prefix
    | succ k =>
      rw [List.flatMap_cons] at hpre
      rw [atMost]
      rcases List.prefix_or_prefix_of_prefix hpre (List.prefix_append _ _) with hin | ⟨u, rfl⟩
      · by_cases heq : v = enc a
        · have hall := (h a).whole []
          rw [List.append_nil] at hall
          rw [heq, hall]
          exact List.cons_prefix_cons.mpr ⟨rfl, ih k List.nil_prefix⟩
        · rw [(h a).short v hin heq]
          exact List.nil_prefix
      · rw [(h a).whole]
        have htail := (List.prefix_append_right_inj _).mp hpre
        exact List.cons_prefix_cons.mpr ⟨rfl, ih k htail⟩

/-- Of a whole sequence of encodings everything is read. -/
theorem atMost_flatMap (as : List α) {k : ℕ} (hk : as.length ≤ k) (hnil : p [] = none) :
    atMost p k (as.flatMap enc) = as := by
  induction as generalizing k with
  | nil =>
    cases k with
    | zero => rfl
    | succ k =>
      rw [List.flatMap_nil, atMost, hnil]
  | cons a as ih =>
    cases k with
    | zero => exact absurd hk (Nat.not_succ_le_zero _)
    | succ k =>
      rw [List.flatMap_cons, atMost, (h a).whole]
      exact congrArg (a :: ·) (ih (Nat.le_of_succ_le_succ hk))

variable (hne : ∀ a, enc a ≠ [])
include hne

/-- Nothing is read off nothing. -/
theorem nil_eq_none [Nonempty α] : p [] = none :=
  (h (Classical.arbitrary α)).short [] List.nil_prefix (hne _).symm

/-- From a beginning of the whole, a beginning of the values is read. -/
theorem all_prefix [Nonempty α] (as : List α) {v : List β} (hpre : v <+: as.flatMap enc) :
    p.all v <+: as :=
  atMost_prefix h (nil_eq_none h hne) as v.length hpre

/-- From the whole, all values are read. -/
theorem all_flatMap [Nonempty α] (as : List α) : p.all (as.flatMap enc) = as := by
  refine atMost_flatMap h as ?_ (nil_eq_none h hne)
  induction as with
  | nil => exact Nat.zero_le _
  | cons a as ih =>
    have hpos := List.length_pos_iff.mpr (hne a)
    rw [List.flatMap_cons, List.length_append, List.length_cons]
    omega

end
end Reads
end VisionGame.Base
