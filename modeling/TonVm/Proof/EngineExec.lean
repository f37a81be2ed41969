import TonVm.Lib.Invariant
import TonVm.Executor.Math

/-!
# Running the primitives of the engine
-/

namespace TonVm.Engine

open ExecLib

variable [TonTypes] {α β : Type}

@[simp]
theorem lift_ok (a : α) : lift (.ok a) = (pure a : M α) := rfl

@[simp]
theorem lift_error (failure : Failure) : lift (.error failure) = (throw failure.toError : M α) := rfl

/-- A computation without a state whose results have a property. -/
theorem maintains_lift {I : Engine → Prop} {E : Error → Prop} {x : Except Failure α} {Q : α → Prop}
    (h : Yields Q x) (hE : ∀ failure : Failure, E failure.toError) : Maintains I E (lift x) Q := by
  cases x with
  | ok a => exact .pure (h a rfl)
  | error failure => exact .throw (hE failure)

/-- A panic is not caught, everything else is. -/
theorem exec_catchError (m : M α) (e : Engine) :
    exec (catchError m) e =
      match exec m e with
      | (.error .panic, s) => (.error .panic, s)
      | (r, s) => (.ok r, s) := by
  unfold catchError
  rw [exec_bind, exec_attempt]
  rcases exec m e with ⟨(_ | _ | _) | _, s⟩ <;> rfl

theorem exec_lift_eq_ok {x : Except Failure α} {a : α} {e t : Engine}
    (h : exec (lift x) e = (.ok a, t)) : x = .ok a ∧ t = e := by
  cases x with
  | error failure => cases h
  | ok b =>
    cases h
    exact ⟨rfl, rfl⟩

theorem exec_var_eq_ok {i : Nat} {item : StackItem} {e t : Engine}
    (h : exec (var i) e = (.ok item, t)) : e.cmd.vars[i]? = some item ∧ t = e := by
  unfold var at h
  rw [exec_bind_get] at h
  split at h
  · cases h
    exact ⟨‹_›, rfl⟩
  · cases h

theorem exec_bind_lift_eq_ok {β : Type} {x : Except Failure α} {k : α → M β} {b : β} {e t : Engine}
    (h : exec (lift x >>= k) e = (.ok b, t)) : ∃ a, x = .ok a ∧ exec (k a) e = (.ok b, t) := by
  obtain ⟨a, s, hlift, hk⟩ := exec_bind_eq_ok h
  obtain ⟨hx, rfl⟩ := exec_lift_eq_ok hlift
  exact ⟨a, hx, hk⟩

theorem exec_bind_var_eq_ok {i : Nat} {k : StackItem → M α} {a : α} {e t : Engine}
    (h : exec (var i >>= k) e = (.ok a, t)) :
    ∃ item, e.cmd.vars[i]? = some item ∧ exec (k item) e = (.ok a, t) := by
  obtain ⟨item, s, hvar, hk⟩ := exec_bind_eq_ok h
  obtain ⟨hitem, rfl⟩ := exec_var_eq_ok hvar
  exact ⟨item, hitem, hk⟩

theorem exec_loadInstruction (e : Engine) :
    exec loadInstruction e = (.ok (), { e with
      cmd := {}
      step := e.step + 1
      gas := e.gas.useGas (Gas.basicGasPrice
        (0 + (TonTypes.pos e.cc.code - e.cmdCode.dataStart))) }) := rfl

theorem exec_nextCmd_eq_ok {e t : Engine} {byte : UInt8} (h : exec nextCmd e = (.ok byte, t)) :
    ∃ rest, TonTypes.getNextByte e.cc.code = .ok (byte, rest) ∧
      t = { e with cc.code := rest, lastCmd := byte } := by
  unfold nextCmd at h
  rw [exec_bind_get] at h
  split at h
  · cases h
    exact ⟨_, ‹_›, rfl⟩
  · cases h

theorem exec_stackItem_eq_ok {i : Nat} {item : StackItem} {e t : Engine}
    (h : exec (stackItem i) e = (.ok item, t)) : Stack.get i e.cc.stack = .ok item ∧ t = e := by
  unfold stackItem at h
  rw [exec_bind_get] at h
  exact exec_lift_eq_ok h

theorem exec_checkDepth_eq_ok {depth : Nat} {e t : Engine}
    (h : exec (checkDepth depth) e = (.ok (), t)) : depth ≤ e.cc.stack.length ∧ t = e := by
  unfold checkDepth at h
  rw [exec_bind_get] at h
  split at h
  · cases h
  · cases h
    exact ⟨by omega, rfl⟩

end TonVm.Engine
