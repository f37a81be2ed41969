import Mathlib

/-!
# Computations that fail without rolling back

A program that mutates its state through a reference and returns early on an error leaves the state
as the failing statement found it. `ExecM` is the monad of such programs: an exception is a result,
not a rollback. `exec` runs one from a state, and the lemmas below evaluate the monad operations, so
that a proof about a program steps through it with `simp` or with one `exec_bind_*` at a time.
-/

namespace ExecLib

variable {ε σ α β : Type}

/-- A program over a mutable state `σ` that may stop with an error `ε`. -/
abbrev ExecM (ε σ : Type) : Type → Type := ExceptT ε (StateM σ)

/-- Runs a program from a state. The final state is there on an error too. -/
def exec (m : ExecM ε σ α) (s : σ) : Except ε α × σ := StateT.run (ExceptT.run m) s

/-- Runs a program and returns its outcome, an error included. -/
def attempt (m : ExecM ε σ α) : ExecM ε σ (Except ε α) :=
  ExceptT.mk do
    let r ← ExceptT.run m
    return .ok r

@[simp]
theorem exec_pure (a : α) (s : σ) : exec (pure a : ExecM ε σ α) s = (.ok a, s) := rfl

@[simp]
theorem exec_throw (err : ε) (s : σ) : exec (throw err : ExecM ε σ α) s = (.error err, s) := rfl

@[simp]
theorem exec_get (s : σ) : exec (get : ExecM ε σ σ) s = (.ok s, s) := rfl

@[simp]
theorem exec_modify (f : σ → σ) (s : σ) :
    exec (modify f : ExecM ε σ PUnit) s = (.ok ⟨⟩, f s) := rfl

@[simp]
theorem exec_attempt (m : ExecM ε σ α) (s : σ) :
    exec (attempt m) s = (.ok (exec m s).1, (exec m s).2) := rfl

theorem exec_bind (m : ExecM ε σ α) (f : α → ExecM ε σ β) (s : σ) :
    exec (m >>= f) s =
      match exec m s with
      | (.ok a, t) => exec (f a) t
      | (.error err, t) => (.error err, t) := by
  change StateT.run (ExceptT.run (m >>= f)) s = _
  rw [ExceptT.run_bind, StateT.run_bind]
  rcases h : StateT.run (ExceptT.run m) s with ⟨r, t⟩
  have hm : exec m s = (r, t) := h
  rw [hm]
  cases r <;> rfl

theorem exec_bind_ok {m : ExecM ε σ α} {f : α → ExecM ε σ β} {s t : σ} {a : α}
    (h : exec m s = (.ok a, t)) : exec (m >>= f) s = exec (f a) t := by
  rw [exec_bind, h]

theorem exec_bind_error {m : ExecM ε σ α} {f : α → ExecM ε σ β} {s t : σ} {err : ε}
    (h : exec m s = (.error err, t)) : exec (m >>= f) s = (.error err, t) := by
  rw [exec_bind, h]

@[simp]
theorem exec_bind_pure (a : α) (f : α → ExecM ε σ β) (s : σ) :
    exec (pure a >>= f) s = exec (f a) s := by
  rw [exec_bind, exec_pure]

@[simp]
theorem exec_bind_get (f : σ → ExecM ε σ β) (s : σ) :
    exec (get >>= f) s = exec (f s) s := by
  rw [exec_bind, exec_get]

@[simp]
theorem exec_bind_modify (g : σ → σ) (f : PUnit → ExecM ε σ β) (s : σ) :
    exec (modify g >>= f) s = exec (f ⟨⟩) (g s) := by
  rw [exec_bind, exec_modify]

@[simp]
theorem exec_bind_throw (err : ε) (f : α → ExecM ε σ β) (s : σ) :
    exec (throw err >>= f) s = (.error err, s) := by
  rw [exec_bind, exec_throw]

theorem exec_ite (c : Prop) [Decidable c] (m n : ExecM ε σ α) (s : σ) :
    exec (if c then m else n) s = if c then exec m s else exec n s := by
  split <;> rfl

/-- A program that ends in `ok` ran its first part to `ok`. -/
theorem exec_bind_eq_ok {m : ExecM ε σ α} {f : α → ExecM ε σ β} {s u : σ} {b : β}
    (h : exec (m >>= f) s = (.ok b, u)) :
    ∃ a t, exec m s = (.ok a, t) ∧ exec (f a) t = (.ok b, u) := by
  rw [exec_bind] at h
  rcases hm : exec m s with ⟨r, t⟩
  cases r with
  | error err => simp [hm] at h
  | ok a => exact ⟨a, t, rfl, by simpa [hm] using h⟩

end ExecLib
