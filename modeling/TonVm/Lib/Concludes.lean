import TonVm.Lib.Exec

/-!
# Two postconditions

`Concludes F Q m s` says how a program ends from one state: a run that fails in a state with `F`, and
one that succeeds with a result and a state with `Q`. The rules follow the program text.
-/

namespace ExecLib

variable {ε σ α β : Type} {F F' : ε → σ → Prop} {Q Q' : α → σ → Prop} {R : β → σ → Prop}

structure Concludes (F : ε → σ → Prop) (Q : α → σ → Prop) (m : ExecM ε σ α) (s : σ) : Prop where
  ok : ∀ {a t}, exec m s = (.ok a, t) → Q a t
  error : ∀ {err t}, exec m s = (.error err, t) → F err t

namespace Concludes

variable {m n : ExecM ε σ α} {k : α → ExecM ε σ β} {s t : σ}

theorem of_ok {a : α} (h : exec m s = (.ok a, t)) (hQ : Q a t) : Concludes F Q m s := by
  constructor
  · intro b u hm
    rw [h] at hm
    cases hm
    exact hQ
  · intro err u hm
    rw [h] at hm
    cases hm

theorem of_error {err : ε} (h : exec m s = (.error err, t)) (hF : F err t) : Concludes F Q m s := by
  constructor
  · intro a u hm
    rw [h] at hm
    cases hm
  · intro err' u hm
    rw [h] at hm
    cases hm
    exact hF

theorem of_exec {s' : σ} {m' : ExecM ε σ α} (h : Concludes F Q m' s') (hexec : exec m s = exec m' s') :
    Concludes F Q m s :=
  ⟨fun hm => h.ok (hexec ▸ hm), fun hm => h.error (hexec ▸ hm)⟩

theorem mono (h : Concludes F Q m s) (hF : ∀ err t, F err t → F' err t)
    (hQ : ∀ a t, Q a t → Q' a t) : Concludes F' Q' m s :=
  ⟨fun hm => hQ _ _ (h.ok hm), fun hm => hF _ _ (h.error hm)⟩

protected theorem pure {a : α} (h : Q a s) : Concludes F Q (pure a) s := of_ok (exec_pure a s) h

protected theorem throw {err : ε} (h : F err s) : Concludes F Q (throw err) s :=
  of_error (exec_throw err s) h

theorem bind_ok {a : α} (hm : exec m s = (.ok a, t)) (hk : Concludes F R (k a) t) :
    Concludes F R (m >>= k) s := hk.of_exec (exec_bind_ok hm)

protected theorem bind (hm : Concludes F Q m s) (hk : ∀ a t, Q a t → Concludes F R (k a) t) :
    Concludes F R (m >>= k) s := by
  rcases hexec : exec m s with ⟨err | a, t⟩
  · exact of_error (exec_bind_error hexec) (hm.error hexec)
  · exact bind_ok hexec (hk a t (hm.ok hexec))

protected theorem ite {c : Prop} [Decidable c] (hm : c → Concludes F Q m s)
    (hn : ¬c → Concludes F Q n s) : Concludes F Q (if c then m else n) s := by
  by_cases h : c
  · rw [if_pos h]
    exact hm h
  · rw [if_neg h]
    exact hn h

end Concludes

end ExecLib
