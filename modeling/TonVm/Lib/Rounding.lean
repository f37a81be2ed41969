import Mathlib.Algebra.Order.Floor.Ring
import Mathlib.Algebra.Order.Field.Basic
import Mathlib.Tactic.Linarith
import Mathlib.Tactic.Ring
import Mathlib.Tactic.FieldSimp
import Mathlib.Tactic.Push

/-!
# Rounding a quotient of integers

A quotient `q` and a remainder `r` with `q * y + r = x` determine how `x / y` was rounded: each mode
is a pair of bounds on `r` by the divisor. The bounds are stated for either sign of the divisor, the
first alternative for a positive one.
-/

namespace RoundLib

variable {x y q r : ℤ}

theorem div_eq_add_div {K : Type*} [Field K] [CharZero K] (hy : y ≠ 0) (h : q * y + r = x) :
    (x : K) / y = q + r / y := by
  have hy' : (y : K) ≠ 0 := Int.cast_ne_zero.2 hy
  have h' : (q : K) * y + r = x := by exact_mod_cast h
  rw [← h', add_div, mul_div_cancel_right₀ _ hy']

variable {K : Type*} [Field K] [LinearOrder K] [IsStrictOrderedRing K] [FloorRing K]

/-- Rounding towards zero. -/
def truncate (a : K) : ℤ := if 0 ≤ a then ⌊a⌋ else ⌈a⌉

theorem floor_div_eq (h : q * y + r = x) (hr : 0 ≤ r ∧ r < y ∨ y < r ∧ r ≤ 0) :
    ⌊(x : K) / y⌋ = q := by
  have hy : y ≠ 0 := by omega
  rw [div_eq_add_div hy h, Int.floor_intCast_add, add_eq_left, Int.floor_eq_zero_iff]
  rcases hr with ⟨h0, h1⟩ | ⟨h1, h0⟩
  · have hpos : (0 : K) < y := Int.cast_pos.2 (by omega)
    exact ⟨div_nonneg (Int.cast_nonneg h0) hpos.le, (div_lt_one hpos).2 (Int.cast_lt.2 h1)⟩
  · have hneg : (y : K) < 0 := Int.cast_lt_zero.2 (by omega)
    exact ⟨div_nonneg_of_nonpos (Int.cast_nonpos.2 h0) hneg.le,
      (div_lt_one_of_neg hneg).2 (Int.cast_lt.2 h1)⟩

theorem ceil_div_eq (h : q * y + r = x) (hr : -y < r ∧ r ≤ 0 ∨ 0 ≤ r ∧ r < -y) :
    ⌈(x : K) / y⌉ = q := by
  have hneg : -q * y + -r = -x := by
    rw [← h]
    ring
  have hfloor : ⌊((-x : ℤ) : K) / y⌋ = -q := floor_div_eq hneg (by omega)
  rw [Int.cast_neg, neg_div, Int.floor_neg, neg_inj] at hfloor
  exact hfloor

theorem floor_div_add_half_eq (h : q * y + r = x)
    (hr : -y ≤ 2 * r ∧ 2 * r < y ∨ y < 2 * r ∧ 2 * r ≤ -y) : ⌊(x : K) / y + 1 / 2⌋ = q := by
  have hy : (y : K) ≠ 0 := Int.cast_ne_zero.2 (by omega)
  have hdouble : q * (2 * y) + (2 * r + y) = 2 * x + y := by
    rw [← h]
    ring
  have hfloor : ⌊((2 * x + y : ℤ) : K) / (2 * y : ℤ)⌋ = q := floor_div_eq hdouble (by omega)
  have hhalf : (x : K) / y + 1 / 2 = ((2 * x + y : ℤ) : K) / (2 * y : ℤ) := by
    push_cast
    field_simp
  rw [hhalf, hfloor]

/-- A truncated quotient leaves a remainder on the side of the dividend. -/
theorem truncate_div_eq (h : q * y + r = x) (hr : r.natAbs < y.natAbs)
    (hnonneg : 0 ≤ x → 0 ≤ r) (hnonpos : x ≤ 0 → r ≤ 0) : truncate ((x : K) / y) = q := by
  unfold truncate
  split_ifs with hquot
  · refine floor_div_eq h ?_
    rcases div_nonneg_iff.1 hquot with ⟨hx, hy⟩ | ⟨hx, hy⟩
    · have := hnonneg (Int.cast_nonneg_iff.1 hx)
      have := Int.cast_nonneg_iff.1 hy
      omega
    · have := hnonpos (Int.cast_nonpos.1 hx)
      have := Int.cast_nonpos.1 hy
      omega
  · refine ceil_div_eq h ?_
    rcases div_neg_iff.1 (not_le.1 hquot) with ⟨hx, hy⟩ | ⟨hx, hy⟩
    · have := hnonneg (Int.cast_pos.1 hx).le
      have := Int.cast_lt_zero.1 hy
      omega
    · have := hnonpos (Int.cast_lt_zero.1 hx).le
      have := Int.cast_pos.1 hy
      omega

end RoundLib
