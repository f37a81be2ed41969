import TonVm.Lib.Rounding
import Mathlib.Data.Rat.Floor
import TonVm.Proof.Integer

/-!
# Rounded division

The general division starts from the library's division towards zero or towards negative infinity, the
division by a power of two from a shift and a mask of the magnitude; both then correct the quotient by
the signs. Either way the quotient is the exact ratio, rounded as the mode says, and what the mode
bounds is the remainder, which is never larger than the divisor.
-/

namespace TonVm

open RoundLib

/-- What a mode makes of an exact ratio. -/
def Round.apply : Round → ℚ → ℤ
  | ceil, a => ⌈a⌉
  | floorToNegativeInfinity, a => ⌊a⌋
  | floorToZero, a => truncate a
  | nearest, a => ⌊a + 1 / 2⌋

/-- A quotient and a remainder on the side of the dividend. -/
structure Truncated (x y q r : Int) : Prop where
  eq : q * y + r = x
  lt : r.natAbs < y.natAbs
  nonneg : 0 ≤ x → 0 ≤ r
  nonpos : x ≤ 0 → r ≤ 0

/-- A quotient and a remainder that a mode may leave. -/
structure Rounds (mode : Round) (x y : Int) (p : Int × Int) : Prop where
  eq : p.1 * y + p.2 = x
  lt : p.2.natAbs < y.natAbs
  quotient : p.1 = mode.apply ((x : ℚ) / y)

section Corrections

variable {x y q r : Int}

theorem truncated_tdiv (hy : y ≠ 0) : Truncated x y (x.tdiv y) (x.tmod y) where
  eq := by
    rw [mul_comm]
    exact Int.mul_tdiv_add_tmod x y
  lt := by
    rw [Int.natAbs_tmod]
    exact Nat.mod_lt _ (Int.natAbs_pos.2 hy)
  nonneg := Int.tmod_nonneg y
  nonpos := fun hx => by
    have := Int.tmod_nonneg (a := -x) y (by omega)
    rw [Int.neg_tmod] at this
    omega

/-- A remainder that is not zero has the sign of the dividend, so in every correction the comparison
of the dividend's sign repeats that of the remainder's. -/
theorem Truncated.sign_eq (h : Truncated x y q r) (hr : r ≠ 0) : r.sign = x.sign := by
  rcases lt_trichotomy x 0 with hx | hx | hx
  · have := h.nonpos hx.le
    rw [Int.sign_eq_neg_one_of_neg hx, Int.sign_eq_neg_one_of_neg (by omega)]
  · have := h.nonneg hx.ge
    have := h.nonpos hx.le
    omega
  · have := h.nonneg hx.le
    rw [Int.sign_eq_one_of_pos hx, Int.sign_eq_one_of_pos (by omega)]

theorem sign_eq_sign_iff {a b : Int} (ha : a ≠ 0) (hb : b ≠ 0) :
    a.sign = b.sign ↔ (0 < a ↔ 0 < b) := by
  rcases lt_or_gt_of_ne ha with ha | ha <;> rcases lt_or_gt_of_ne hb with hb | hb <;>
    simp [Int.sign_eq_one_of_pos, Int.sign_eq_neg_one_of_neg, ha, hb, ha.le, hb.le, not_lt.2]

theorem Truncated.ne_zero (h : Truncated x y q r) : y ≠ 0 := by
  rintro rfl
  exact absurd h.lt (by simp)

theorem rounds_truncated (h : Truncated x y q r) : Rounds .floorToZero x y (q, r) :=
  ⟨h.eq, h.lt, (truncate_div_eq h.eq h.lt h.nonneg h.nonpos).symm⟩

theorem rounds_floor {p : Int × Int} (heq : p.1 * y + p.2 = x)
    (hr : 0 ≤ p.2 ∧ p.2 < y ∨ y < p.2 ∧ p.2 ≤ 0) : Rounds .floorToNegativeInfinity x y p :=
  ⟨heq, by omega, (floor_div_eq heq hr).symm⟩

theorem rounds_ceil {p : Int × Int} (heq : p.1 * y + p.2 = x)
    (hr : -y < p.2 ∧ p.2 ≤ 0 ∨ 0 ≤ p.2 ∧ p.2 < -y) : Rounds .ceil x y p :=
  ⟨heq, by omega, (ceil_div_eq heq hr).symm⟩

theorem rounds_nearest {p : Int × Int} (heq : p.1 * y + p.2 = x)
    (hr : -y ≤ 2 * p.2 ∧ 2 * p.2 < y ∨ y < 2 * p.2 ∧ 2 * p.2 ≤ -y) : Rounds .nearest x y p :=
  ⟨heq, by omega, (floor_div_add_half_eq heq hr).symm⟩

theorem rounds_roundFloorToNegativeInfinity (h : Truncated x y q r) :
    Rounds .floorToNegativeInfinity x y (roundFloorToNegativeInfinity q r x y) := by
  have hy := h.ne_zero
  have hlt := h.lt
  have heq := h.eq
  unfold roundFloorToNegativeInfinity
  by_cases hr : r = 0
  · rw [if_pos (.inl hr)]
    exact rounds_floor heq (by dsimp only; omega)
  · have hsign := sign_eq_sign_iff hr hy
    rw [← h.sign_eq hr]
    by_cases hry : r.sign = y.sign
    · rw [if_pos (.inr hry)]
      exact rounds_floor heq (by dsimp only; omega)
    · rw [if_neg (by simp [hr, hry]), if_neg hry]
      exact rounds_floor (by dsimp only; rw [← heq]; ring) (by dsimp only; omega)

theorem rounds_roundCeil (h : Truncated x y q r) : Rounds .ceil x y (roundCeil q r x y) := by
  have hy := h.ne_zero
  have hlt := h.lt
  have heq := h.eq
  unfold roundCeil
  by_cases hr : r = 0
  · rw [if_pos (.inl hr)]
    exact rounds_ceil heq (by dsimp only; omega)
  · have hsign := sign_eq_sign_iff hr hy
    rw [← h.sign_eq hr]
    by_cases hry : r.sign = y.sign
    · rw [if_neg (by simp [hr, hry]), if_pos hry]
      exact rounds_ceil (by dsimp only; rw [← heq]; ring) (by dsimp only; omega)
    · rw [if_pos (.inr hry)]
      exact rounds_ceil heq (by dsimp only; omega)

theorem rounds_roundNearest (h : Truncated x y q r) :
    Rounds .nearest x y (roundNearest q r x y) := by
  have hy := h.ne_zero
  have hlt := h.lt
  have heq := h.eq
  unfold roundNearest
  by_cases hr : r = 0
  · rw [if_pos hr]
    exact rounds_nearest heq (by dsimp only; omega)
  · have hsign := sign_eq_sign_iff hr hy
    rw [if_neg hr, ← h.sign_eq hr]
    -- a tie goes up only where the ratio is positive
    by_cases hry : r.sign = y.sign
    · simp only [hry, if_true, and_true]
      split
      · exact rounds_nearest (by dsimp only; rw [← heq]; ring) (by dsimp only; omega)
      · exact rounds_nearest heq (by dsimp only; omega)
    · simp only [hry, Ne.symm hry, if_false, and_false, or_false]
      split
      · exact rounds_nearest (by dsimp only; rw [← heq]; ring) (by dsimp only; omega)
      · exact rounds_nearest heq (by dsimp only; omega)

end Corrections

theorem rounds_divmod (x : Int) {y : Int} (hy : y ≠ 0) (mode : Round) :
    Rounds mode x y (divmod x y mode) := by
  have h : Truncated x y (x.tdiv y) (x.tmod y) := truncated_tdiv hy
  cases mode with
  | ceil => exact rounds_roundCeil h
  | floorToZero => exact rounds_truncated h
  | nearest => exact rounds_roundNearest h
  | floorToNegativeInfinity =>
    refine rounds_floor (p := (x.fdiv y, x.fmod y)) ?_ ?_
    · rw [mul_comm]
      exact Int.mul_fdiv_add_fmod x y
    · dsimp only
      rcases lt_or_gt_of_ne hy with hneg | hpos
      · have hneg' : 0 < -y := by omega
        have hnonneg := Int.fmod_nonneg_of_pos (-x) hneg'
        have hlt := Int.fmod_lt_of_pos (-x) hneg'
        rw [Int.neg_fmod_neg] at hnonneg hlt
        exact .inr ⟨by omega, by omega⟩
      · exact .inl ⟨Int.fmod_nonneg_of_pos x hpos, Int.fmod_lt_of_pos x hpos⟩

/-- A quotient and a remainder are what a mode leaves in only one way. -/
theorem Rounds.unique {mode : Round} {x y : Int} {p p' : Int × Int} (h : Rounds mode x y p)
    (h' : Rounds mode x y p') : p = p' := by
  have hfst : p.1 = p'.1 := h.quotient.trans h'.quotient.symm
  refine Prod.ext hfst ?_
  have heq := h.eq.trans h'.eq.symm
  rw [hfst] at heq
  omega

/-- The shift and the mask of the magnitude divide towards zero. -/
theorem truncated_shift (x : Int) (shift : Nat) :
    Truncated x (2 ^ shift)
      (if x < 0 then -((x.natAbs >>> shift : Nat) : Int) else ((x.natAbs >>> shift : Nat) : Int))
      (if x < 0 then -((x.natAbs &&& (2 ^ shift - 1) : Nat) : Int)
        else ((x.natAbs &&& (2 ^ shift - 1) : Nat) : Int)) := by
  rw [Nat.shiftRight_eq_div_pow, Nat.and_two_pow_sub_one_eq_mod]
  have hdiv : x.natAbs / 2 ^ shift * 2 ^ shift + x.natAbs % 2 ^ shift = x.natAbs :=
    Nat.div_add_mod' _ _
  have hlt : x.natAbs % 2 ^ shift < 2 ^ shift := Nat.mod_lt _ (by positivity)
  have hpow : (2 ^ shift : Int).natAbs = 2 ^ shift := by
    rw [Int.natAbs_pow]
    rfl
  have hcast : ((x.natAbs / 2 ^ shift : Nat) : Int) * 2 ^ shift + (x.natAbs % 2 ^ shift : Nat)
      = x.natAbs := by exact_mod_cast hdiv
  split_ifs with hx
  · refine ⟨?_, by rw [hpow]; omega, fun h => by omega, fun h => by omega⟩
    rw [neg_mul, ← neg_add, hcast]
    omega
  · refine ⟨?_, by rw [hpow]; omega, fun h => by omega, fun h => by omega⟩
    rw [hcast]
    omega

theorem rounds_divByShift (x : Int) (shift : Nat) (mode : Round) :
    Rounds mode x (2 ^ shift) (divByShift x shift mode) := by
  have h := truncated_shift x shift
  cases mode with
  | ceil => exact rounds_roundCeil h
  | floorToZero => exact rounds_truncated h
  | nearest => exact rounds_roundNearest h
  | floorToNegativeInfinity => exact rounds_roundFloorToNegativeInfinity h

theorem divByShift_eq_divmod (x : Int) (shift : Nat) (mode : Round) :
    divByShift x shift mode = divmod x (2 ^ shift) mode :=
  (rounds_divByShift x shift mode).unique (rounds_divmod x (by positivity) mode)

/-- Both divisions round as their mode says, and they agree. -/
theorem division_rounds (x : Int) (mode : Round) :
    (∀ y : Int, y ≠ 0 → (divmod x y mode).1 * y + (divmod x y mode).2 = x ∧
      (divmod x y mode).1 = mode.apply ((x : ℚ) / y)) ∧
    ∀ shift : Nat, divByShift x shift mode = divmod x (2 ^ shift) mode := by
  refine ⟨fun y hy => ?_, fun shift => ?_⟩
  · have h := rounds_divmod x hy mode
    exact ⟨h.eq, h.quotient⟩
  · exact divByShift_eq_divmod x shift mode

/-- A negative tie goes up, by either division. -/
theorem division_rounds_tie :
    (divmod (-5) 2 .nearest).1 * 2 + (divmod (-5) 2 .nearest).2 = -5 ∧
    (divmod (-5) 2 .nearest).1 = Round.nearest.apply (((-5 : Int) : ℚ) / (2 : Int)) ∧
    divByShift (-5) 1 .nearest = (-2, -1) :=
  have h := division_rounds (-5) .nearest
  have hdiv := h.1 2 (by decide)
  ⟨hdiv.1, hdiv.2, (h.2 1).trans (by decide)⟩

end TonVm
