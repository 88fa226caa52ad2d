import Mathlib.Data.List.Induction
import Mathlib.Order.Interval.Set.UnorderedInterval

/-!
# Positions that pursue aims

Library `Base`. Something is moved in rounds, and each round has at most one aim. Its moves pursue
the aim when each of them ends between the position before the round and the aim. In a lattice,
such as the plane with its coordinates, to lie between two points is to lie in the box they span.
Moves that pursue their aims never leave a box that holds all of these.
-/

namespace VisionGame.Base

variable {α : Type}

/-- Position after some moves. -/
def positionAfter (start : Option α) (moves : List α) : Option α := moves.getLast?.or start

/-- Without moves the position stays. -/
@[simp] theorem positionAfter_nil (start : Option α) : positionAfter start [] = start := rfl

/-- A move leads to its position. -/
@[simp] theorem positionAfter_singleton (start : Option α) (p : α) :
    positionAfter start [p] = some p := rfl

/-- Moves are made one after the other. -/
@[simp] theorem positionAfter_append (start : Option α) (moves more : List α) :
    positionAfter start (moves ++ more) = positionAfter (positionAfter start moves) more := by
  unfold positionAfter
  rw [List.getLast?_append, Option.or_assoc]

variable [Lattice α]

/-- Every move ends between the starting position and the aim; without a starting position it ends
at the aim. -/
def Pursues (aim start : Option α) (moves : List α) : Prop :=
  ∀ p ∈ moves, ∃ a, aim = some a ∧ p ∈ Set.uIcc (start.getD a) a

/-- Without moves any aim is pursued. -/
theorem pursues_nil (aim start : Option α) : Pursues aim start [] := nofun

/-- Moves that pursue an aim do not make those that go on pursuing it stray. -/
theorem Pursues.append {aim start : Option α} {moves more : List α} (h : Pursues aim start moves)
    (hmore : Pursues aim (positionAfter start moves) more) :
    Pursues aim start (moves ++ more) := by
  intro p hp
  rcases List.mem_append.mp hp with hold | hnew
  · exact h p hold
  · obtain ⟨a, ha, hbetween⟩ := hmore p hnew
    refine ⟨a, ha, ?_⟩
    cases hlast : moves.getLast? with
    | none =>
      rw [positionAfter, hlast, Option.none_or] at hbetween
      exact hbetween
    | some q =>
      rw [positionAfter, hlast, Option.some_or, Option.getD_some] at hbetween
      obtain ⟨b, hb, hq⟩ := h q (List.mem_of_getLast? hlast)
      rw [ha] at hb
      cases hb
      exact Set.uIcc_subset_uIcc_right hq hbetween

/-- Moves stay in a box that holds their starting position and their aim. -/
theorem Pursues.mem_box {aim start : Option α} {moves : List α} (h : Pursues aim start moves)
    {lo hi : α} (hstart : ∀ p ∈ start, p ∈ Set.Icc lo hi) (haim : ∀ a ∈ aim, a ∈ Set.Icc lo hi) :
    ∀ p ∈ moves, p ∈ Set.Icc lo hi := by
  intro p hp
  obtain ⟨a, ha, hbetween⟩ := h p hp
  have hmem : a ∈ Set.Icc lo hi := haim a ha
  apply Set.uIcc_subset_Icc ?_ hmem hbetween
  cases start with
  | none => exact hmem
  | some q => exact hstart q rfl

section
variable {ρ : Type} {aim : ρ → Option α} {moves : ρ → List α}

/-- Rounds whose moves pursue their aims never leave a box that holds all aims. -/
theorem mem_box_of_pursues {rounds : List ρ}
    (h : ∀ past r rest, rounds = past ++ r :: rest →
      Pursues (aim r) (positionAfter none (past.flatMap moves)) (moves r))
    {lo hi : α} (haims : ∀ r ∈ rounds, ∀ a ∈ aim r, a ∈ Set.Icc lo hi) :
    ∀ p ∈ rounds.flatMap moves, p ∈ Set.Icc lo hi := by
  induction rounds using List.reverseRecOn with
  | nil => exact nofun
  | append_singleton past r ih =>
    have hpast : ∀ p ∈ past.flatMap moves, p ∈ Set.Icc lo hi := by
      apply ih
      · intro before q rest hsplit
        apply h before q (rest ++ [r])
        rw [hsplit, List.append_assoc, List.cons_append]
      · exact fun q hq ↦ haims q (List.mem_append_left [r] hq)
    rw [List.flatMap_append, List.flatMap_singleton]
    intro p hp
    rcases List.mem_append.mp hp with hold | hnew
    · exact hpast p hold
    · apply (h past r [] rfl).mem_box ?_ (haims r (by simp)) p hnew
      intro q hq
      rw [positionAfter, Option.or_none] at hq
      exact hpast q (List.mem_of_getLast? hq)

end

end VisionGame.Base
