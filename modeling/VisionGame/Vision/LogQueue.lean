import VisionGame.Vision.CallRules

/-!
# The queue of logged gestures

Library `Vision`. `src/mediapipe/app_gestures.py:323–337,648–650`. Of everything an iteration
does, only `log_gesture_event` touches the log, at one clock reading and never for moving or
hovering. Next to the queue stands the list of its entries with the readings they were logged at:
two entries for the same gesture and action are more than 0.6 s apart.
-/

namespace VisionGame.Vision
open VisionGame.Base
open Effect

variable {R : Type} [Scalar R]

/-- Calls of `log_gesture_event` at one clock reading. -/
def logCalls (now : R) (calls : List (Gesture × Action)) (log : GestureLog R) : GestureLog R :=
  calls.foldl (fun log call ↦ logGestureEvent now call.1 call.2 log) log

/-- From one state to another the log was only called, at this reading. -/
def Logs (now : R) (s t : LoopState R) : Prop :=
  ∃ calls, t.log = logCalls now calls s.log ∧ ∀ call ∈ calls, call.2.IsLogged

/-- A log that is left alone was not called. -/
theorem logs_of_same {now : R} {s t : LoopState R} (h : t.log = s.log) : Logs now s t :=
  ⟨[], h, by simp⟩

instance (now : R) : Std.Refl (Logs now) := ⟨fun _ ↦ logs_of_same rfl⟩

instance (now : R) : IsTrans (LoopState R) (Logs now) where
  trans := by
    rintro s t u ⟨first, hfirst, hlogged⟩ ⟨second, hsecond, hlogged'⟩
    refine ⟨first ++ second, ?_, ?_⟩
    · rw [hsecond, hfirst]
      simp only [logCalls]
      rw [List.foldl_append]
    · intro call hcall
      rcases List.mem_append.mp hcall with h | h
      · exact hlogged call h
      · exact hlogged' call h

namespace Loop

/-! ### One iteration -/

private theorem keptByCalls_logs (inp : IterInput R) (analysis : Analysis R) :
    KeptByCalls (Logs inp.clock.log) inp analysis := by
  have hperform (f : PCController R → PCController R × List OsEvent) :
      Respects (Logs inp.clock.log) (perform f) := fun s ↦ logs_of_same rfl
  constructor
  · exact fun s ↦ logs_of_same rfl
  · intro gesture action haction s
    exact ⟨[(gesture, action)], rfl, by simpa using haction⟩
  · exact fun s target _ ↦ hperform _ s
  · exact fun freeze debounce ↦ hperform _
  · exact hperform _
  · exact hperform _
  · exact hperform _
  · exact hperform _
  · exact hperform _
  · refine respects_bind respects_get fun s ↦ ?_
    split
    · exact respects_bind (hperform _) fun _ ↦ respects_modify fun s ↦ logs_of_same rfl
    · exact respects_pure _
  · exact fun action s ↦ logs_of_same rfl

private theorem iteration_logs (inp : IterInput R) :
    Respects (Logs inp.clock.log) (iteration inp) :=
  respects_iteration (fun _ _ h ↦ logs_of_same (congrArg (fun u ↦ u.2.2.1) h))
    (keptByCalls_logs inp)

end Loop

/-- A turn of the loop only calls the log, at the reading of its input. -/
theorem visionMachine_logs (s : LoopState R) (t : Tick R) :
    Logs t.input.clock.log s (visionMachine.step s t).after := by
  have ⟨calls, hcalls, hlogged⟩ := Loop.iteration_logs t.input (s.enter t.env)
  rcases visionMachine_step_cases s t with hstop | hiter
  · rw [hstop]
    exact logs_of_same rfl
  · rw [hiter]
    exact ⟨calls, hcalls, hlogged⟩

/-! ### Entries and their readings -/

/-- The entries of the queue with the readings they were logged at. -/
structure Stamped (logged : List ((Gesture × Action) × R)) (log : GestureLog R) : Prop where
  keys : logged.map Prod.fst = log.queue
  known : ∀ p ∈ logged, p.2 ≤ log.lastLogged p.1.1 p.1.2
  spaced : logged.Pairwise fun p q ↦ p.1 = q.1 → p.2 + 0.6 < q.2
  worth : ∀ p ∈ logged, p.1.2.IsLogged

/-- An empty queue is stamped. -/
theorem Stamped.empty (lastLogged : Gesture → Action → R) : Stamped [] ⟨lastLogged, []⟩ := by
  constructor <;> simp

/-- Entries that the log has gained, at one reading. -/
def gained (now : R) (before after : GestureLog R) : List ((Gesture × Action) × R) :=
  (after.queue.drop before.queue.length).map (·, now)

section
variable {logged : List ((Gesture × Action) × R)} {log : GestureLog R} (h : Stamped logged log)
include h

private theorem Stamped.call (now : R) {call : Gesture × Action} (hcall : call.2.IsLogged) :
    ∃ more, (∀ p ∈ more, p.2 = now) ∧
      Stamped (logged ++ more) (logGestureEvent now call.1 call.2 log) := by
  simp only [logGestureEvent]
  split
  · next hdue =>
    have hold (p : (Gesture × Action) × R) (hp : p ∈ logged) :
        p.1 = call → p.2 + 0.6 < now := by
      rintro rfl
      have hknown := h.known p hp
      linarith
    refine ⟨[(call, now)], by simp, ?_, ?_, ?_, ?_⟩
    · rw [List.map_append, h.keys]
      rfl
    · intro p hp
      dsimp only
      rcases List.mem_append.mp hp with hmem | hnew
      · split
        · next heq =>
          have hlater := hold p hmem (Prod.ext heq.1 heq.2)
          linarith
        · exact h.known p hmem
      · rw [List.mem_singleton.mp hnew, if_pos ⟨rfl, rfl⟩]
    · rw [List.pairwise_append]
      refine ⟨h.spaced, List.pairwise_singleton _ _, fun p hp q hq ↦ ?_⟩
      rw [List.mem_singleton.mp hq]
      exact hold p hp
    · intro p hp
      rcases List.mem_append.mp hp with hmem | hnew
      · exact h.worth p hmem
      · rw [List.mem_singleton.mp hnew]
        exact hcall
  · exact ⟨[], by simp, by rwa [List.append_nil]⟩

private theorem Stamped.calls (now : R) {calls : List (Gesture × Action)}
    (hcalls : ∀ call ∈ calls, call.2.IsLogged) :
    ∃ more, (∀ p ∈ more, p.2 = now) ∧ Stamped (logged ++ more) (logCalls now calls log) := by
  induction calls generalizing logged log with
  | nil => exact ⟨[], by simp, by rwa [List.append_nil]⟩
  | cons call calls ih =>
    have ⟨hcall, hrest⟩ := List.forall_mem_cons.mp hcalls
    obtain ⟨first, hfirst, hstamped⟩ := h.call now hcall
    obtain ⟨more, hmore, hall⟩ := ih hstamped hrest
    refine ⟨first ++ more, ?_, by rwa [← List.append_assoc]⟩
    intro p hp
    rcases List.mem_append.mp hp with hmem | hmem
    · exact hfirst p hmem
    · exact hmore p hmem

/-- A turn adds the entries it gains, at its reading. -/
theorem Stamped.logs {now : R} {s t : LoopState R} (hs : s.log = log) (hlogs : Logs now s t) :
    Stamped (logged ++ gained now log t.log) t.log := by
  obtain ⟨calls, hcalls, hlogged⟩ := hlogs
  obtain ⟨more, hmore, hstamped⟩ := h.calls now hlogged
  rw [← hs] at hstamped
  rw [← hcalls] at hstamped
  have hgained : gained now log t.log = more := by
    simp only [gained]
    rw [← hstamped.keys, ← h.keys, List.length_map, List.map_append,
      List.drop_left' (List.length_map _), List.map_map]
    conv_rhs => rw [← List.map_id more]
    apply List.map_congr_left
    intro p hp
    rw [← hmore p hp]
    rfl
  rw [hgained]
  exact hstamped

end
end VisionGame.Vision
