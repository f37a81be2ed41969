import Mathlib.Algebra.BigOperators.Group.List.Basic
import Mathlib.Algebra.Order.Ring.Nat

/-!
# Shares rounded down

Rounding every share of a sum down loses less than one for each of them. And the first point at which
a sequence is greatest, as a search with a strict comparison keeps it.
-/

namespace Apportion

theorem sum_map_div_le (d : Nat) (l : List Nat) : (l.map (· / d)).sum ≤ l.sum / d := by
  induction l with
  | nil => simp
  | cons a l ih =>
    rw [List.map_cons, List.sum_cons, List.sum_cons]
    exact (Nat.add_le_add_left ih _).trans Nat.div_add_div_le_add_div

theorem sum_div_lt {d : Nat} (hd : 0 < d) (l : List Nat) :
    l.sum / d < (l.map (· / d)).sum + max 1 l.length := by
  induction l with
  | nil => simp
  | cons a l ih =>
    rw [List.map_cons, List.sum_cons, List.sum_cons, List.length_cons]
    have hadd : (a + l.sum) / d ≤ a / d + l.sum / d + 1 := by
      rw [Nat.add_div hd]
      split <;> omega
    cases l with
    | nil => simp
    | cons b l =>
      rw [List.length_cons] at ih ⊢
      omega

/-- The sum over a list, by a property of its elements. -/
theorem sum_filter_add_sum_filter_not {α : Type} (p : α → Bool) (g : α → Nat) (l : List α) :
    ((l.filter p).map g).sum + ((l.filter fun a => !p a).map g).sum = (l.map g).sum := by
  induction l with
  | nil => rfl
  | cons a l ih =>
    cases h : p a <;> simp only [List.filter_cons, h, List.map_cons, List.sum_cons] <;> simp <;> omega

/-- `m` is the first point up to `n` at which `f` is greatest. -/
structure FirstMax (f : Nat → Nat) (n m : Nat) : Prop where
  le : m ≤ n
  max : ∀ k ≤ n, f k ≤ f m
  first : ∀ k < m, f k < f m

namespace FirstMax

variable {f g : Nat → Nat} {n m : Nat}

theorem zero (f : Nat → Nat) : FirstMax f 0 0 where
  le := le_rfl
  max k hk := by rw [Nat.le_zero.1 hk]
  first := nofun

theorem congr (h : FirstMax f n m) (hfg : ∀ k ≤ n, f k = g k) : FirstMax g n m where
  le := h.le
  max k hk := by
    rw [← hfg k hk, ← hfg m h.le]
    exact h.max k hk
  first k hk := by
    rw [← hfg k (hk.le.trans h.le), ← hfg m h.le]
    exact h.first k hk

theorem unique (h : FirstMax f n m) {k : Nat} (hk : FirstMax f n k) : k = m := by
  rcases lt_trichotomy k m with hlt | heq | hgt
  · exact absurd (hk.max m h.le) (h.first k hlt).not_ge
  · exact heq
  · exact absurd (h.max k hk.le) (hk.first m hgt).not_ge

/-- The next point is taken only if it is greater. -/
theorem succ (h : FirstMax f n m) : FirstMax f (n + 1) (if f m < f (n + 1) then n + 1 else m) := by
  split
  · rename_i hlt
    refine ⟨le_rfl, fun k hk => ?_, fun k hk => ?_⟩
    · rcases Nat.le_succ_iff.1 hk with hk | rfl
      · exact (h.max k hk).trans hlt.le
      · exact le_rfl
    · exact (h.max k (Nat.lt_succ_iff.1 hk)).trans_lt hlt
  · rename_i hle
    refine ⟨h.le.trans (Nat.le_succ n), fun k hk => ?_, h.first⟩
    rcases Nat.le_succ_iff.1 hk with hk | rfl
    · exact h.max k hk
    · exact not_lt.1 hle

end FirstMax

end Apportion
