import TonVm.Lib.Frame

/-!
# A program that goes on where another one stops

Two versions of a program, of which the first stops at certain errors and the second goes on with a
replacement for the result. `Recovers S Q m n s` says so of a run from `s`: the second does what the
first does, unless the first stops with an error of `S`, and then it ends with `Q`. Parts that the two
versions share have to avoid the errors of `S`, which `Avoids` finds from the program text.
-/

namespace ExecLib

variable {ε σ α β : Type} {S : ε → Prop}

/-- No run stops with an error of `S`. -/
class Avoids (S : ε → Prop) (m : ExecM ε σ α) : Prop where
  out : ∀ s err t, exec m s = (.error err, t) → ¬S err

instance avoids_pure (a : α) : Avoids S (pure a : ExecM ε σ α) := ⟨nofun⟩

instance avoids_get : Avoids S (get : ExecM ε σ σ) := ⟨nofun⟩

instance avoids_modify (f : σ → σ) : Avoids S (modify f : ExecM ε σ PUnit) := ⟨nofun⟩

instance avoids_bind (m : ExecM ε σ α) (k : α → ExecM ε σ β) [hm : Avoids S m]
    [hk : ∀ a, Avoids S (k a)] : Avoids S (m >>= k) := by
  refine ⟨fun s err t h => ?_⟩
  rw [exec_bind] at h
  rcases hs : exec m s with ⟨r, u⟩
  rw [hs] at h
  cases r with
  | ok a => exact (hk a).out u err t h
  | error failure =>
    cases h
    exact hm.out s _ _ hs

/-- A bind that takes a pair apart. -/
instance (priority := high) avoids_bind_pair {γ : Type} (m : ExecM ε σ (α × γ))
    (k : α × γ → ExecM ε σ β) [hm : Avoids S m] [hk : ∀ a c, Avoids S (k (a, c))] :
    Avoids S (m >>= k) :=
  @avoids_bind _ _ _ _ _ m k hm fun p => hk p.1 p.2

instance avoids_ite (c : Prop) [Decidable c] (m n : ExecM ε σ α) [Avoids S m] [Avoids S n] :
    Avoids S (if c then m else n) := by
  split <;> infer_instance

theorem avoids_throw {err : ε} (h : ¬S err) : Avoids S (throw err : ExecM ε σ α) := by
  refine ⟨fun s err' t hexec => ?_⟩
  cases hexec
  exact h

/-- The second program recovers from the errors of `S` that stop the first, and then ends with `Q`. -/
structure Recovers (S : ε → Prop) (Q : α → σ → Prop) (m n : ExecM ε σ α) (s : σ) : Prop where
  succeeds : ∀ a t, exec m s = (.ok a, t) → exec n s = (.ok a, t)
  recovers : ∀ err t, exec m s = (.error err, t) → S err → ∃ a u, exec n s = (.ok a, u) ∧ Q a u
  fails : ∀ err t, exec m s = (.error err, t) → ¬S err → exec n s = (.error err, t)

namespace Recovers

variable {Q : α → σ → Prop} {m n : ExecM ε σ α} {s : σ}

/-- A part that both versions share. -/
theorem same (m : ExecM ε σ α) [hm : Avoids S m] (s : σ) : Recovers S Q m m s where
  succeeds _ _ h := h
  recovers err t h hS := absurd hS (hm.out s err t h)
  fails _ _ h _ := h

theorem mono {R : α → σ → Prop} (h : Recovers S Q m n s) (hQ : ∀ a t, Q a t → R a t) :
    Recovers S R m n s where
  succeeds := h.succeeds
  recovers err t herr hS := by
    obtain ⟨a, u, hn, hu⟩ := h.recovers err t herr hS
    exact ⟨a, u, hn, hQ a u hu⟩
  fails := h.fails

/-- The second program does not stop with an error of `S` itself. -/
theorem avoids (h : Recovers S Q m n s) {err : ε} {t : σ} (hn : exec n s = (.error err, t)) :
    ¬S err := by
  intro hS
  rcases hm : exec m s with ⟨r, u⟩
  cases r with
  | ok a =>
    rw [h.succeeds a u hm] at hn
    cases hn
  | error failure =>
    by_cases hfailure : S failure
    · obtain ⟨a, v, hok, -⟩ := h.recovers failure u hm hfailure
      rw [hok] at hn
      cases hn
    · rw [h.fails failure u hm hfailure] at hn
      cases hn
      exact hfailure hS

/-- The first version stops where the second goes on. -/
theorem ofError {err : ε} {a : α} {t u : σ} (hm : exec m s = (.error err, t)) (hS : S err)
    (hn : exec n s = (.ok a, u)) (hu : Q a u) : Recovers S Q m n s := by
  refine ⟨fun _ _ h => ?_, fun _ _ _ _ => ⟨a, u, hn, hu⟩, fun err' t' h hnot => ?_⟩
  · rw [hm] at h
    cases h
  · rw [hm] at h
    cases h
    exact absurd hS hnot

theorem bind {R : β → σ → Prop} {f g : α → ExecM ε σ β} (h : Recovers S Q m n s)
    (hok : ∀ a t, exec m s = (.ok a, t) → Recovers S R (f a) (g a) t)
    (hrest : ∀ a t, Q a t → ∃ b u, exec (g a) t = (.ok b, u) ∧ R b u) :
    Recovers S R (m >>= f) (n >>= g) s := by
  rcases hm : exec m s with ⟨r, t⟩
  cases r with
  | ok a =>
    have hn := h.succeeds a t hm
    have hnext := hok a t hm
    refine ⟨?_, ?_, ?_⟩
    · intro b u hb
      rw [exec_bind_ok hm] at hb
      rw [exec_bind_ok hn, hnext.succeeds b u hb]
    · intro err u herr hS
      rw [exec_bind_ok hm] at herr
      rw [exec_bind_ok hn]
      exact hnext.recovers err u herr hS
    · intro err u herr hS
      rw [exec_bind_ok hm] at herr
      rw [exec_bind_ok hn, hnext.fails err u herr hS]
  | error failure =>
    refine ⟨?_, ?_, ?_⟩
    · intro b u hb
      rw [exec_bind_error hm] at hb
      cases hb
    · intro err u herr hS
      rw [exec_bind_error hm] at herr
      cases herr
      obtain ⟨a, v, hn, hQ⟩ := h.recovers _ _ hm hS
      rw [exec_bind_ok hn]
      exact hrest a v hQ
    · intro err u herr hS
      rw [exec_bind_error hm] at herr
      cases herr
      rw [exec_bind_error (h.fails _ _ hm hS)]

/-- A shared part before the two versions. -/
theorem after {p : ExecM ε σ α} [Avoids S p] {R : β → σ → Prop} {f g : α → ExecM ε σ β}
    (hok : ∀ a t, exec p s = (.ok a, t) → Recovers S R (f a) (g a) t) :
    Recovers S R (p >>= f) (p >>= g) s :=
  (same (Q := fun _ _ => False) p s).bind hok fun _ _ h => h.elim

/-- A shared part that only reads the state. -/
theorem reading {p : ExecM ε σ α} [Avoids S p] [hp : Leaves id p] {R : β → σ → Prop}
    {f g : α → ExecM ε σ β} (h : ∀ a, Recovers S R (f a) (g a) s) :
    Recovers S R (p >>= f) (p >>= g) s := by
  refine after fun a t ht => ?_
  obtain rfl : t = s := hp.eq ht
  exact h a

/-- A shared part behind the two versions. -/
theorem before {R : β → σ → Prop} {f : α → ExecM ε σ β} [hf : ∀ a, Avoids S (f a)]
    (h : Recovers S Q m n s) (hrest : ∀ a t, Q a t → ∃ b u, exec (f a) t = (.ok b, u) ∧ R b u) :
    Recovers S R (m >>= f) (n >>= f) s :=
  h.bind (fun a t _ => same (f a) t) hrest

end Recovers

end ExecLib
