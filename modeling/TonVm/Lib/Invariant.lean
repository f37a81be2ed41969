import TonVm.Lib.Exec

/-!
# Invariants of computations that fail without rolling back

`Maintains I E m Q` says that a program started in a state with `I` ends in a state with `I`, whether
it succeeds or fails, that what it returns satisfies `Q`, and that the error it stops with satisfies
`E`. There is one rule for each way to build a program. `Yields Q x` is the part of it that remains
for a computation without a state.
-/

namespace ExecLib

variable {ε σ α β : Type} {I : σ → Prop} {E : ε → Prop}

/-- What an outcome has to satisfy. -/
def Outcome (E : ε → Prop) (Q : α → Prop) : Except ε α → Prop
  | .ok a => Q a
  | .error err => E err

/-- How a program ends from one state. -/
def Ends (I : σ → Prop) (E : ε → Prop) (m : ExecM ε σ α) (Q : α → Prop) (s : σ) : Prop :=
  Outcome E Q (exec m s).1 ∧ I (exec m s).2

/-- A bind from one state: the rest of the program starts where the first part ended. -/
theorem Ends.bind {m : ExecM ε σ α} {f : α → ExecM ε σ β} {R : α → Prop} {P : β → Prop} {s : σ}
    (hm : Ends I E m R s)
    (hf : ∀ a t, exec m s = (.ok a, t) → R a → I t → Ends I E (f a) P t) :
    Ends I E (m >>= f) P s := by
  unfold Ends at hm ⊢
  rw [exec_bind]
  rcases h : exec m s with ⟨r, t⟩
  rw [h] at hm
  cases r with
  | ok a => exact hf a t h hm.1 hm.2
  | error err => exact hm

theorem Ends.attempt {m : ExecM ε σ α} {Q : α → Prop} {s : σ} (h : Ends I E m Q s) :
    Ends I E (attempt m) (Outcome E Q) s := ⟨h.1, h.2⟩

def Maintains (I : σ → Prop) (E : ε → Prop) (m : ExecM ε σ α) (Q : α → Prop) : Prop :=
  ∀ s, I s → Ends I E m Q s

namespace Maintains

variable {m n : ExecM ε σ α} {f : α → ExecM ε σ β} {Q R : α → Prop} {P : β → Prop}

theorem state (h : Maintains I E m Q) {s t : σ} {r : Except ε α} (hs : I s)
    (hm : exec m s = (r, t)) : I t := by
  have := (h s hs).2
  rwa [hm] at this

theorem result (h : Maintains I E m Q) {s t : σ} {a : α} (hs : I s)
    (hm : exec m s = (.ok a, t)) : Q a := by
  have := (h s hs).1
  rwa [hm] at this

theorem error (h : Maintains I E m Q) {s t : σ} {err : ε} (hs : I s)
    (hm : exec m s = (.error err, t)) : E err := by
  have := (h s hs).1
  rwa [hm] at this

theorem mono (h : Maintains I E m R) (hQ : ∀ a, R a → Q a) : Maintains I E m Q := by
  intro s hs
  obtain ⟨h₁, h₂⟩ := h s hs
  refine ⟨?_, h₂⟩
  cases hr : (exec m s).1 with
  | ok a => exact hQ a (by simpa [hr, Outcome] using h₁)
  | error err => simpa [hr, Outcome] using h₁

protected theorem pure {a : α} (h : Q a) : Maintains I E (pure a) Q := fun _ hs => ⟨h, hs⟩

protected theorem throw {err : ε} (h : E err) : Maintains I E (throw err) Q :=
  fun _ hs => ⟨h, hs⟩

protected theorem bind (hm : Maintains I E m R) (hf : ∀ a, R a → Maintains I E (f a) P) :
    Maintains I E (m >>= f) P := by
  intro s hs
  exact (hm s hs).bind fun a t _ ha ht => hf a ha t ht

protected theorem get : Maintains I E (get : ExecM ε σ σ) I := fun _ hs => ⟨hs, hs⟩

protected theorem modify {g : σ → σ} (h : ∀ s, I s → I (g s)) :
    Maintains I E (modify g : ExecM ε σ PUnit) fun _ => True :=
  fun s hs => ⟨trivial, h s hs⟩

protected theorem ite {c : Prop} [Decidable c] (hm : c → Maintains I E m Q)
    (hn : ¬c → Maintains I E n Q) : Maintains I E (if c then m else n) Q := by
  by_cases h : c
  · rw [if_pos h]
    exact hm h
  · rw [if_neg h]
    exact hn h

protected theorem attempt (h : Maintains I E m Q) : Maintains I E (attempt m) (Outcome E Q) :=
  fun s hs => (h s hs).attempt

end Maintains

/-- What a computation without a state returns satisfies `Q`. -/
def Yields (Q : α → Prop) (x : Except ε α) : Prop := ∀ a, x = .ok a → Q a

namespace Yields

variable {Q : α → Prop} {R : β → Prop} {x y : Except ε α} {f : α → Except ε β}

protected theorem pure {a : α} (h : Q a) : Yields Q (.ok a : Except ε α) := by
  rintro _ ⟨⟩
  exact h

protected theorem error (err : ε) : Yields Q (.error err) := by
  rintro _ ⟨⟩

protected theorem bind (hx : Yields Q x) (hf : ∀ a, Q a → Yields R (f a)) :
    Yields R (x >>= f) := by
  intro b h
  cases x with
  | error err => cases h
  | ok a => exact hf a (hx a rfl) b h

/-- The result of the first computation does not matter. -/
theorem bind_any (hf : ∀ a, Yields R (f a)) : Yields R (x >>= f) :=
  .bind (Q := fun _ => True) (fun _ _ => trivial) fun a _ => hf a

protected theorem ite {c : Prop} [Decidable c] (hx : c → Yields Q x) (hy : ¬c → Yields Q y) :
    Yields Q (if c then x else y) := by
  split
  · exact hx ‹_›
  · exact hy ‹_›

end Yields

end ExecLib
