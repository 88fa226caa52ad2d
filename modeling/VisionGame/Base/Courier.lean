import Mathlib.Data.List.Nodup
import VisionGame.Base.Window

/-!
# A courier and its messages

Library `Base`. A courier takes jobs one after the other, numbers them, and may hand a message
over to a network for each of them. The network delivers a message at most once, in any order, or
loses it. Whatever the network does, no number arrives twice. Numbers arrive in order as long as
the courier hands a message over only when no other one is under way.
-/

namespace VisionGame.Base

/-- Number of the next job, messages under way and messages delivered, each with the number of
its job. -/
structure Courier (μ : Type) where
  taken : ℕ
  flight : List (ℕ × μ)
  delivered : List (ℕ × μ)

namespace Courier

variable {μ : Type}

/-- No job taken. -/
def idle : Courier μ := ⟨0, [], []⟩

/-- A job is taken, and a message handed over for it, if there is one. -/
def send (message : Option μ) (c : Courier μ) : Courier μ :=
  { c with taken := c.taken + 1, flight := c.flight ++ message.toList.map (c.taken, ·) }

/-- A message under way is lost. -/
def lose (k : ℕ) (c : Courier μ) : Courier μ := { c with flight := c.flight.eraseIdx k }

/-- A message under way is delivered. -/
def arrive (k : ℕ) (c : Courier μ) : Courier μ :=
  { c with flight := c.flight.eraseIdx k, delivered := c.delivered ++ c.flight[k]?.toList }

/-! ### What an operation does to the messages -/

/-- Messages under way or delivered. -/
def messages (c : Courier μ) : List (ℕ × μ) := c.delivered ++ c.flight

/-- A job adds its message, if there is one, at the end. -/
theorem messages_send (message : Option μ) (c : Courier μ) :
    (c.send message).messages = c.messages ++ message.toList.map (c.taken, ·) :=
  (List.append_assoc ..).symm

/-- A loss leaves out a message. -/
theorem messages_lose (k : ℕ) (c : Courier μ) :
    (c.lose k).messages.Sublist c.messages :=
  (List.eraseIdx_sublist ..).append_left _

/-- A delivery permutes the messages. -/
theorem messages_arrive (k : ℕ) (c : Courier μ) : (c.arrive k).messages.Perm c.messages := by
  simp only [messages, arrive]
  rw [List.append_assoc]
  exact (perm_eraseIdx c.flight k).append_left c.delivered

/-! ### Every number at most once -/

/-- The numbers of the messages are taken and distinct. -/
structure Once (c : Courier μ) : Prop where
  below : ∀ m ∈ c.messages, m.1 < c.taken
  nodup : (c.messages.map Prod.fst).Nodup

/-- With nothing under way nothing arrives twice. -/
theorem Once.idle : Once (idle : Courier μ) := by constructor <;> simp [Courier.idle, messages]

section
variable {c : Courier μ} (h : c.Once)
include h

/-- A job gets a number of its own. -/
theorem Once.send (message : Option μ) : (c.send message).Once := by
  have hnew : ∀ m ∈ message.toList.map (c.taken, ·), m.1 = c.taken := by
    intro m hm
    obtain ⟨_, _, rfl⟩ := List.mem_map.mp hm
    rfl
  constructor
  · intro m hm
    change m.1 < c.taken + 1
    rw [messages_send] at hm
    rcases List.mem_append.mp hm with hold | hadded
    · exact Nat.lt_succ_of_lt (h.below m hold)
    · rw [hnew m hadded]
      exact Nat.lt_succ_self _
  · rw [messages_send, List.map_append]
    apply h.nodup.append
    · cases message <;> simp
    · intro n hold hadded
      obtain ⟨m, hm, rfl⟩ := List.mem_map.mp hold
      obtain ⟨m', hm', heq⟩ := List.mem_map.mp hadded
      have hlt := h.below m hm
      rw [← heq, hnew m' hm'] at hlt
      exact Nat.lt_irrefl _ hlt

/-- A lost message does not arrive twice. -/
theorem Once.lose (k : ℕ) : (c.lose k).Once where
  below m hm := h.below m ((messages_lose k c).subset hm)
  nodup := ((messages_lose k c).map Prod.fst).nodup h.nodup

/-- Neither does one that arrives. -/
theorem Once.arrive (k : ℕ) : (c.arrive k).Once where
  below m hm := h.below m ((messages_arrive k c).mem_iff.mp hm)
  nodup := ((messages_arrive k c).map Prod.fst).nodup_iff.mpr h.nodup

/-- No number is delivered twice. -/
theorem Once.nodup_delivered : (c.delivered.map Prod.fst).Nodup :=
  ((List.sublist_append_left ..).map Prod.fst).nodup h.nodup

end

/-! ### In order -/

/-- At most one message is under way, and the numbers grow: first those delivered, then the one
under way, then the next one. -/
structure InOrder (c : Courier μ) : Prop where
  single : c.flight.length ≤ 1
  sorted : (c.messages.map Prod.fst ++ [c.taken]).Pairwise (· < ·)

/-- With nothing under way all is in order. -/
theorem InOrder.idle : InOrder (idle : Courier μ) := by
  constructor <;> simp [Courier.idle, messages]

section
variable {c : Courier μ} (h : c.InOrder)
include h

/-- A message handed over while no other one is under way keeps the order. -/
theorem InOrder.send (hempty : c.flight = []) (message : Option μ) :
    (c.send message).InOrder := by
  constructor
  · simp only [Courier.send, hempty, List.nil_append, List.length_map]
    cases message <;> simp
  · change ((c.send message).messages.map Prod.fst ++ [c.taken + 1]).Pairwise (· < ·)
    rw [messages_send, List.map_append, List.pairwise_append]
    have ⟨hsorted, _, hbelow⟩ := List.pairwise_append.mp h.sorted
    have hlast : ∀ n ∈ c.messages.map Prod.fst, n < c.taken := fun n hn ↦
      hbelow n hn c.taken (List.mem_singleton.mpr rfl)
    refine ⟨?_, List.pairwise_singleton _ _, ?_⟩
    · cases message with
      | none => simpa using hsorted
      | some m => exact h.sorted
    · intro n hn n' hn'
      rw [List.mem_singleton.mp hn']
      rcases List.mem_append.mp hn with hold | hadded
      · exact Nat.lt_succ_of_lt (hlast n hold)
      · obtain ⟨m, hm, rfl⟩ := List.mem_map.mp hadded
        obtain ⟨_, _, rfl⟩ := List.mem_map.mp hm
        exact Nat.lt_succ_self _

/-- A loss leaves the others in order. -/
theorem InOrder.lose (k : ℕ) : (c.lose k).InOrder where
  single := Nat.le_trans (List.eraseIdx_sublist ..).length_le h.single
  sorted := h.sorted.sublist (((messages_lose k c).map Prod.fst).append_right _)

/-- The only message under way is the last one. -/
theorem InOrder.arrive (k : ℕ) : (c.arrive k).InOrder := by
  have hsame : (c.arrive k).messages = c.messages := by
    simp only [messages, Courier.arrive]
    rw [List.append_assoc]
    apply congrArg (c.delivered ++ ·)
    have hsingle := h.single
    match hflight : c.flight, k with
    | [], _ => rfl
    | [m], 0 => rfl
    | [m], k + 1 => rfl
    | m :: m' :: ms, _ =>
      rw [hflight] at hsingle
      simp at hsingle
  constructor
  · exact Nat.le_trans (List.eraseIdx_sublist ..).length_le h.single
  · rw [hsame]
    exact h.sorted

/-- Numbers are delivered in order. -/
theorem InOrder.sorted_delivered : (c.delivered.map Prod.fst).Pairwise (· < ·) :=
  (List.pairwise_append.mp h.sorted).1.sublist ((List.sublist_append_left ..).map Prod.fst)

end
end Courier
end VisionGame.Base
