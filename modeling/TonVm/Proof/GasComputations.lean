import TonVm.Lib.Invariant
import TonVm.Executor.Engine

/-!
# Computations through a gas consumer

What holds of every result of such a computation, whatever the consumer answers, and how the engine
runs a computation that is put together from others.
-/

namespace TonVm

open ExecLib

variable {α β : Type}

/-! ### Results that may be failures -/

theorem ok_bind (a : α) (f : α → Except Failure β) : (.ok a >>= f) = f a := rfl

theorem error_bind (failure : Failure) (f : α → Except Failure β) :
    ((.error failure : Except Failure α) >>= f) = .error failure := rfl

theorem bind_eq_ok {x : Except Failure α} {f : α → Except Failure β} {b : β}
    (h : x >>= f = .ok b) : ∃ a, x = .ok a ∧ f a = .ok b := by
  cases x with
  | ok a => exact ⟨a, rfl, h⟩
  | error failure => cases h

/-! ### Every result -/

/-- Every result of a computation through a gas consumer has a property. -/
def GasMOf.All {C S B : Type} (Q : α → Prop) : GasMOf C S B α → Prop
  | .pure a => Q a
  | .fail _ => True
  | .finalizeCell _ next => ∀ cell, (next cell).All Q
  | .loadCell _ next => ∀ slice, (next slice).All Q

theorem GasMOf.All.bind {C S B : Type} {Q : α → Prop} {R : β → Prop} {m : GasMOf C S B α}
    {f : α → GasMOf C S B β} (hm : m.All Q) (hf : ∀ a, Q a → (f a).All R) : (m >>= f).All R := by
  induction m with
  | pure a => exact hf a hm
  | fail err => trivial
  | finalizeCell builder next ih => exact fun cell => ih cell (hm cell)
  | loadCell cell next ih => exact fun slice => ih slice (hm slice)

namespace GasMOf.All

variable {C S B : Type} {Q R : α → Prop} {P : β → Prop} {m n : GasMOf C S B α}
  {f : α → GasMOf C S B β}

theorem mono (h : m.All Q) (hR : ∀ a, Q a → R a) : m.All R := by
  induction m with
  | pure a => exact hR a h
  | fail err => trivial
  | finalizeCell builder next ih => exact fun cell => ih cell (h cell)
  | loadCell cell next ih => exact fun slice => ih slice (h slice)

theorem any (m : GasMOf C S B α) : m.All fun _ => True := by
  induction m with
  | pure a => trivial
  | fail err => trivial
  | finalizeCell builder next ih => exact ih
  | loadCell cell next ih => exact ih

/-- The result of the first computation does not matter. -/
theorem bind_any (h : ∀ a, (f a).All P) : (m >>= f).All P := (any m).bind fun a _ => h a

theorem ofExcept {x : Except Failure α} (h : Yields Q x) : (GasMOf.ofExcept x : GasMOf C S B α).All Q := by
  cases x with
  | ok a => exact h a rfl
  | error err => trivial

theorem ite {c : Prop} [Decidable c] (hm : c → m.All Q) (hn : ¬c → n.All Q) :
    (if c then m else n).All Q := by
  split
  · exact hm ‹_›
  · exact hn ‹_›

/-- Two continuations that agree on the results. -/
theorem bind_congr {g : α → GasMOf C S B β} (h : m.All Q) (hfg : ∀ a, Q a → f a = g a) :
    m >>= f = m >>= g := by
  induction m with
  | pure a => exact hfg a h
  | fail err => rfl
  | finalizeCell builder next ih =>
    exact congrArg (GasMOf.finalizeCell builder) (funext fun cell => ih cell (h cell))
  | loadCell cell next ih =>
    exact congrArg (GasMOf.loadCell cell) (funext fun slice => ih slice (h slice))

end GasMOf.All

variable [TonTypes]

namespace Engine

theorem exists_of_isOk {m : M α} {e : Engine} (h : (exec m e).1.isOk = true) :
    ∃ a, exec m e = (.ok a, (exec m e).2) := by
  cases hm : exec m e with
  | mk result t =>
    rw [hm] at h
    cases result with
    | ok a => exact ⟨a, rfl⟩
    | error err => cases h

theorem runGasWith_bind (load : Cell → M SliceData) (m : GasM α) (f : α → GasM β) :
    runGasWith load (m >>= f) = runGasWith load m >>= fun a => runGasWith load (f a) := by
  induction m with
  | pure a => rfl
  | fail failure => rfl
  | finalizeCell builder next ih =>
    refine (bind_congr ih).trans ?_
    exact (bind_assoc _ _ _).symm
  | loadCell cell next ih =>
    refine (bind_congr ih).trans ?_
    exact (bind_assoc _ _ _).symm

theorem runGasWith_liftM (load : Cell → M SliceData) (x : Except Failure α) :
    runGasWith load (liftM x) = lift x := by
  cases x <;> rfl

theorem runGas_bind (m : GasM α) (f : α → GasM β) :
    runGas (m >>= f) = runGas m >>= fun a => runGas (f a) :=
  runGasWith_bind loadCell m f

theorem exec_runGas_of_all {m : GasM α} {Q : α → Prop} (h : m.All Q) {e t : Engine} {a : α}
    (hexec : exec (runGas m) e = (.ok a, t)) : Q a := by
  unfold runGas at hexec
  induction m generalizing e with
  | pure b =>
    cases hexec
    exact h
  | fail err => cases hexec
  | finalizeCell builder next ih =>
    obtain ⟨cell, s, -, hrest⟩ := exec_bind_eq_ok hexec
    exact ih cell (h cell) hrest
  | loadCell cell next ih =>
    obtain ⟨slice, s, -, hrest⟩ := exec_bind_eq_ok hexec
    exact ih slice (h slice) hrest

/-- Every run of a computation that returns, returns a result with a property. -/
def Ensures (m : GasM α) (Q : α → Prop) : Prop :=
  ∀ e a t, exec (runGas m) e = (.ok a, t) → Q a

namespace Ensures

variable {m n : GasM α} {f : α → GasM β} {Q R : α → Prop} {P : β → Prop}

theorem of_all (h : m.All Q) : Ensures m Q := fun _ _ _ hexec => exec_runGas_of_all h hexec

theorem pure {a : α} (h : Q a) : Ensures (pure a) Q := of_all h

theorem fail (failure : Failure) : Ensures (.fail failure) Q := of_all trivial

theorem bind (hm : Ensures m Q) (hf : ∀ a, Q a → Ensures (f a) P) : Ensures (m >>= f) P := by
  intro e b t h
  rw [runGas_bind] at h
  obtain ⟨a, s, hexec, hrest⟩ := exec_bind_eq_ok h
  exact hf a (hm e a s hexec) s b t hrest

theorem lift {x : Except Failure α} (h : ∀ a, x = .ok a → Q a) : Ensures (liftM x) Q := by
  cases x with
  | ok a => exact pure (h a rfl)
  | error failure => exact fail failure

theorem ite {c : Prop} [Decidable c] (hm : c → Ensures m Q) (hn : ¬c → Ensures n Q) :
    Ensures (if c then m else n) Q := by
  split
  · exact hm ‹_›
  · exact hn ‹_›

theorem mono (h : Ensures m Q) (hR : ∀ a, Q a → R a) : Ensures m R :=
  fun e a t hexec => hR a (h e a t hexec)

theorem and (h : Ensures m Q) (h' : Ensures m R) : Ensures m fun a => Q a ∧ R a :=
  fun e a t hexec => ⟨h e a t hexec, h' e a t hexec⟩

end Ensures

end Engine

end TonVm
