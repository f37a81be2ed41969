import TonVm.Lib.Exec

/-!
# What a computation leaves alone

`Leaves f m` says that a program does not change an observation `f` of the state, whether it succeeds
or fails. The rules for building programs are instances, so for a program without a case split
instance resolution finds the proof from the program text. `FailsLeaving f m` says so only of the runs
that fail.
-/

namespace ExecLib

variable {ε σ τ α β : Type} {f : σ → τ}

/-- The program does not change what `f` observes. -/
class Leaves (f : σ → τ) (m : ExecM ε σ α) : Prop where
  out : ∀ s, f (exec m s).2 = f s

namespace Leaves

theorem eq {m : ExecM ε σ α} (h : Leaves f m) {s t : σ} {r : Except ε α}
    (hm : exec m s = (r, t)) : f t = f s := by
  have := h.out s
  rwa [hm] at this

instance pure (a : α) : Leaves f (Pure.pure a : ExecM ε σ α) := ⟨fun _ => rfl⟩

instance throw (err : ε) : Leaves f (MonadExcept.throw err : ExecM ε σ α) := ⟨fun _ => rfl⟩

instance get : Leaves f (MonadState.get : ExecM ε σ σ) := ⟨fun _ => rfl⟩

instance attempt (m : ExecM ε σ α) [h : Leaves f m] : Leaves f (ExecLib.attempt m) := ⟨h.out⟩

instance bind (m : ExecM ε σ α) (k : α → ExecM ε σ β) [hm : Leaves f m] [hk : ∀ a, Leaves f (k a)] :
    Leaves f (m >>= k) := by
  refine ⟨fun s => ?_⟩
  rw [exec_bind]
  rcases h : exec m s with ⟨_ | a, t⟩
  · exact hm.eq h
  · exact ((hk a).out t).trans (hm.eq h)

theorem andThen {m : ExecM ε σ α} {k : α → ExecM ε σ β} (hm : Leaves f m)
    (hk : ∀ a, Leaves f (k a)) : Leaves f (m >>= k) := inferInstance

instance ite (c : Prop) [Decidable c] (m n : ExecM ε σ α) [hm : Leaves f m] [hn : Leaves f n] :
    Leaves f (if c then m else n) := by
  split
  · exact hm
  · exact hn

theorem choose {c : Prop} [Decidable c] {m n : ExecM ε σ α} (hm : Leaves f m) (hn : Leaves f n) :
    Leaves f (if c then m else n) := inferInstance

/-- What leaves more alone leaves less alone. -/
theorem comp {υ : Type} (g : τ → υ) {m : ExecM ε σ α} (h : Leaves f m) :
    Leaves (fun s => g (f s)) m :=
  ⟨fun s => congrArg g (h.out s)⟩

end Leaves

/-- The program does not change what `f` observes when it fails. -/
class FailsLeaving (f : σ → τ) (m : ExecM ε σ α) : Prop where
  out : ∀ s err t, exec m s = (.error err, t) → f t = f s

namespace FailsLeaving

instance (priority := low) ofLeaves (m : ExecM ε σ α) [h : Leaves f m] : FailsLeaving f m :=
  ⟨fun _ _ _ => h.eq⟩

theorem ofTotal {m : ExecM ε σ α} (h : ∀ s, ∃ a t, exec m s = (.ok a, t)) : FailsLeaving f m := by
  refine ⟨fun s err t herr => ?_⟩
  obtain ⟨a, t', hok⟩ := h s
  rw [hok] at herr
  cases herr

/-- Only the part that runs last may change the observation, and only if it succeeds. -/
instance bind (m : ExecM ε σ α) (k : α → ExecM ε σ β) [hm : Leaves f m]
    [hk : ∀ a, FailsLeaving f (k a)] : FailsLeaving f (m >>= k) := by
  refine ⟨fun s err t h => ?_⟩
  rw [exec_bind] at h
  rcases hstep : exec m s with ⟨_ | a, s'⟩
  · rw [hstep] at h
    cases h
    exact hm.eq hstep
  · rw [hstep] at h
    exact ((hk a).out s' err t h).trans (hm.eq hstep)

theorem andThen {m : ExecM ε σ α} {k : α → ExecM ε σ β} (hm : Leaves f m)
    (hk : ∀ a, FailsLeaving f (k a)) : FailsLeaving f (m >>= k) := inferInstance

/-- What comes after a program cannot spoil it when it never fails. -/
theorem thenTotal {m : ExecM ε σ α} {k : α → ExecM ε σ β} (hm : FailsLeaving f m)
    (hk : ∀ a s, ∃ b t, exec (k a) s = (.ok b, t)) : FailsLeaving f (m >>= k) := by
  refine ⟨fun s err t h => ?_⟩
  rw [exec_bind] at h
  rcases hstep : exec m s with ⟨_ | a, s'⟩
  · rw [hstep] at h
    cases h
    exact hm.out s err _ hstep
  · obtain ⟨b, t', hok⟩ := hk a s'
    rw [hstep] at h
    dsimp only at h
    rw [hok] at h
    cases h

instance thenPure (m : ExecM ε σ α) (g : α → β) [hm : FailsLeaving f m] :
    FailsLeaving f (m >>= fun a => pure (g a)) := hm.thenTotal fun a s => ⟨g a, s, rfl⟩

instance ite (c : Prop) [Decidable c] (m n : ExecM ε σ α) [hm : FailsLeaving f m]
    [hn : FailsLeaving f n] : FailsLeaving f (if c then m else n) := by
  split
  · exact hm
  · exact hn

end FailsLeaving

end ExecLib
