import Mathlib.Order.Defs.Unbundled

/-!
# Stateful computations whose writes survive a raised error

Library `Base`. An `Effect ε σ α` reads and writes a state `σ` and either returns or raises.
Unlike a transaction, a raised error keeps every write made before it, which is how an
imperative `try`/`except` behaves. The section on `Respects` is the reasoning kit: a
preorder on states that every primitive write respects is respected by the whole program,
on its normal and on its raising paths alike.
-/

namespace VisionGame.Base

/-- Computations over a state that may raise; errors do not roll the state back. -/
abbrev Effect (ε σ : Type) := ExceptT ε (StateM σ)

namespace Effect

variable {ε σ τ α β : Type}

/-- Outcome of a computation together with the state it leaves behind. -/
def exec (m : Effect ε σ α) (s : σ) : Except ε α × σ := StateT.run (ExceptT.run m) s

/-- Run a computation over a part of the state. -/
def zoom (view : σ → τ) (put : τ → σ → σ) (m : Effect ε τ α) : Effect ε σ α :=
  ExceptT.mk fun s ↦ ((exec m (view s)).1, put (exec m (view s)).2 s)

/-- Raise unless a value is present. -/
def orRaise (e : ε) : Option α → Effect ε σ α
  | some a => pure a
  | none => throw e

/-- `pure` leaves the state alone. -/
@[simp] theorem exec_pure (a : α) (s : σ) :
    exec (pure a : Effect ε σ α) s = (.ok a, s) := rfl

/-- `throw` raises and leaves the state alone. -/
@[simp] theorem exec_throw (e : ε) (s : σ) :
    exec (throw e : Effect ε σ α) s = (.error e, s) := rfl

/-- `get` returns the state. -/
@[simp] theorem exec_get (s : σ) : exec (get : Effect ε σ σ) s = (.ok s, s) := rfl

/-- `modify` changes the state. -/
@[simp] theorem exec_modify (f : σ → σ) (s : σ) :
    exec (modify f : Effect ε σ PUnit) s = (.ok ⟨⟩, f s) := rfl

/-- A program on a part of the state changes that part. -/
@[simp] theorem exec_zoom (view : σ → τ) (put : τ → σ → σ) (m : Effect ε τ α) (s : σ) :
    exec (zoom view put m) s = ((exec m (view s)).1, put (exec m (view s)).2 s) := rfl

/-- Sequencing stops at the first raised error and keeps the state reached there. -/
theorem exec_bind (m : Effect ε σ α) (f : α → Effect ε σ β) (s : σ) :
    exec (m >>= f) s =
      match exec m s with
      | (.ok a, t) => exec (f a) t
      | (.error e, t) => (.error e, t) := by
  change (ExceptT.bindCont f (exec m s).1) (exec m s).2 = _
  cases h : exec m s with
  | mk r t => cases r <;> rfl

/-- Mapping over the result leaves the state to the computation. -/
@[simp] theorem exec_map (f : α → β) (m : Effect ε σ α) (s : σ) :
    exec (f <$> m) s = ((exec m s).1.map f, (exec m s).2) := by
  change (ExceptT.map f m).run s = _
  change (match (exec m s).1 with
    | .ok a => (pure (.ok (f a)) : StateM σ (Except ε β))
    | .error e => pure (.error e)) (exec m s).2 = _
  cases h : exec m s with
  | mk r t => cases r <;> rfl

/-- A computation that returns hands its value and state to the rest. -/
theorem exec_bind_ok {m : Effect ε σ α} {f : α → Effect ε σ β} {s t : σ} {a : α}
    (h : exec m s = (.ok a, t)) : exec (m >>= f) s = exec (f a) t := by
  rw [exec_bind, h]

/-- A computation that raises skips the rest. -/
theorem exec_bind_error {m : Effect ε σ α} {f : α → Effect ε σ β} {s t : σ} {e : ε}
    (h : exec m s = (.error e, t)) : exec (m >>= f) s = (.error e, t) := by
  rw [exec_bind, h]

/-- What follows a read runs on the state that was read. -/
theorem exec_bind_get (f : σ → Effect ε σ β) (s : σ) :
    exec (get >>= f) s = exec (f s) s := rfl

/-- What follows a write runs on the written state. -/
theorem exec_bind_modify (f : σ → σ) (g : PUnit → Effect ε σ β) (s : σ) :
    exec (modify f >>= g) s = exec (g ⟨⟩) (f s) := rfl

/-- The handler of a `try` block starts from the state the error left behind. -/
theorem exec_tryCatch (m : Effect ε σ α) (handler : ε → Effect ε σ α) (s : σ) :
    exec (tryCatch m handler) s =
      match exec m s with
      | (.ok a, t) => (.ok a, t)
      | (.error e, t) => exec (handler e) t := by
  change (match (exec m s).1 with
    | .ok a => (pure (.ok a) : StateM σ (Except ε α))
    | .error e => ExceptT.run (handler e)) (exec m s).2 = _
  cases h : exec m s with
  | mk r t => cases r <;> rfl

/-- A value that is there is returned. -/
@[simp] theorem exec_orRaise_some (e : ε) (a : α) (s : σ) :
    exec (orRaise e (some a) : Effect ε σ α) s = (.ok a, s) := rfl

/-- A value that is missing raises. -/
@[simp] theorem exec_orRaise_none (e : ε) (s : σ) :
    exec (orRaise e none : Effect ε σ α) s = (.error e, s) := rfl

/-! ### Relations kept by every path -/

/-- Whatever the outcome, the final state stands in `r` to the initial one. -/
def Respects (r : σ → σ → Prop) (m : Effect ε σ α) : Prop := ∀ s, r s (exec m s).2

/-- Two states that agree under an observation. -/
def SameUnder (f : σ → τ) (s t : σ) : Prop := f t = f s

instance (f : σ → τ) : Std.Refl (SameUnder f) := ⟨fun _ ↦ rfl⟩

instance (f : σ → τ) : IsTrans σ (SameUnder f) := ⟨fun _ _ _ hab hbc ↦ hbc.trans hab⟩

variable {r : σ → σ → Prop}

/-- Returning a value changes nothing. -/
theorem respects_pure [Std.Refl r] (a : α) : Respects r (pure a : Effect ε σ α) :=
  fun s ↦ Std.Refl.refl s

/-- Raising changes nothing. -/
theorem respects_throw [Std.Refl r] (e : ε) : Respects r (throw e : Effect ε σ α) :=
  fun s ↦ Std.Refl.refl s

/-- Reading the state changes nothing. -/
theorem respects_get [Std.Refl r] : Respects r (get : Effect ε σ σ) :=
  fun s ↦ Std.Refl.refl s

/-- Demanding a value changes nothing, whether or not it is there. -/
theorem respects_orRaise [Std.Refl r] (e : ε) (a : Option α) :
    Respects r (orRaise e a : Effect ε σ α) := by
  cases a with
  | none => exact respects_throw e
  | some a => exact respects_pure a

/-- A write is respected when its function is. -/
theorem respects_modify {f : σ → σ} (h : ∀ s, r s (f s)) :
    Respects r (modify f : Effect ε σ PUnit) := h

/-- Both halves of a sequence are respected, so the sequence is. -/
theorem respects_bind [IsTrans σ r] {m : Effect ε σ α} {f : α → Effect ε σ β}
    (hm : Respects r m) (hf : ∀ a, Respects r (f a)) : Respects r (m >>= f) := by
  intro s
  have hs := hm s
  rw [exec_bind]
  cases h : exec m s with
  | mk res t =>
    rw [h] at hs
    cases res with
    | ok a => exact IsTrans.trans _ _ _ hs (hf a t)
    | error e => exact hs

/-- A `try` block is respected when its body and its handler are. -/
theorem respects_tryCatch [IsTrans σ r] {m : Effect ε σ α} {handler : ε → Effect ε σ α}
    (hm : Respects r m) (hh : ∀ e, Respects r (handler e)) :
    Respects r (tryCatch m handler) := by
  intro s
  have hs := hm s
  rw [exec_tryCatch]
  cases h : exec m s with
  | mk res t =>
    rw [h] at hs
    cases res with
    | ok a => exact hs
    | error e => exact IsTrans.trans _ _ _ hs (hh e t)

/-- A computation on a part is respected when writing the part back is. -/
theorem respects_zoom {view : σ → τ} {put : τ → σ → σ} {m : Effect ε τ α}
    (h : ∀ s t, r s (put t s)) : Respects r (zoom view put m) :=
  fun s ↦ h s _

end Effect
end VisionGame.Base
