import Mathlib.Logic.Relation

/-!
# Counted rounds of a relation

What a loop does when a round of it is known as a relation between states. An invariant may depend on
the number of rounds.
-/

namespace Iteration

variable {σ : Type} {R : σ → σ → Prop}

/-- A number of rounds. -/
inductive Times (R : σ → σ → Prop) (s : σ) : Nat → σ → Prop where
  | zero : Times R s 0 s
  | succ {n : Nat} {t u : σ} : Times R s n t → R t u → Times R s (n + 1) u

/-- What a round keeps, with the number of rounds, holds after any number. -/
theorem Times.keeps {I : Nat → σ → Prop} (hround : ∀ n t u, I n t → R t u → I (n + 1) u) {s t : σ}
    {n : Nat} (h : Times R s n t) (hs : I 0 s) : I n t := by
  induction h with
  | zero => exact hs
  | succ _ hlast ih => exact hround _ _ _ ih hlast

end Iteration
