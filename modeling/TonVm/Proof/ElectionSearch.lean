import TonVm.Executor.Elections
import TonVm.Lib.Apportionment
import TonVm.Proof.GasComputations

/-!
# The search for the best stake

The search goes through the validators in decreasing order of their stakes. At each of them it keeps
the stakes that the factor does not limit, their sum, and the sum of the factors of the others; the
total at this validator follows from these. A validator that is limited once stays so, since the
stakes decrease. `Tracks` is this invariant, `GramsFit` says what the operators of `Grams` have to be
exact on, and `StepFits` what a step needs in all.
-/

namespace TonVm

open Apportion

/-! ### Operators that are exact -/

/-- The operators are exact where the amounts are below a bound. -/
structure GramsOps.Exact (grams : GramsOps) (bound : Nat) : Prop where
  add : ∀ {a b}, a + b < bound → grams.add a b = .ok (a + b)
  sub : ∀ {a b}, b ≤ a → a < bound → grams.sub a b = .ok (a - b)
  mul : ∀ {a b}, a * b < bound → grams.mul a b = .ok (a * b)
  shr : ∀ {a n}, a < bound → grams.shr a n = .ok (a / 2 ^ n)

theorem u128_of_lt (mode : Overflow) {n : Nat} (h : n < 2 ^ 128) : mode.u128 n = .ok n := by
  cases mode with
  | wrap => exact congrArg Except.ok (Nat.mod_eq_of_lt h)
  | panic => exact if_pos h

theorem sub_of_le (mode : Overflow) {a b : Nat} (hle : b ≤ a) (ha : a < 2 ^ 128) :
    mode.sub a b = .ok (a - b) := by
  cases mode with
  | wrap =>
    refine congrArg Except.ok ?_
    rw [u128Sub, show a + 2 ^ 128 - b = a - b + 2 ^ 128 by omega, Nat.add_mod_right]
    exact Nat.mod_eq_of_lt (by omega)
  | panic => exact if_pos hle

theorem exact_grams (mode : Overflow) : mode.grams.Exact (2 ^ 128) where
  add := u128_of_lt mode
  sub := sub_of_le mode
  mul := u128_of_lt mode
  shr _ := congrArg Except.ok (Nat.shiftRight_eq_div_pow _ _)

/-! ### Totals -/

/-- The factor limits the stake of a validator when the least stake accepted is `stake`. -/
def Validator.IsCut (stake : Nat) (validator : Validator) : Prop :=
  stake * validator.maxFactor.toNat ≤ validator.key.stake * 2 ^ 16

instance (stake : Nat) (validator : Validator) : Decidable (validator.IsCut stake) :=
  inferInstanceAs (Decidable (_ ≤ _))

/-- The sum of the stakes that are not limited. -/
def uncutStake (stake : Nat) (validators : List Validator) : Nat :=
  ((validators.filter fun v => !decide (v.IsCut stake)).map (·.key.stake)).sum

/-- The sum of the factors of the stakes that are limited. -/
def cutFactors (stake : Nat) (validators : List Validator) : Nat :=
  ((validators.filter fun v => decide (v.IsCut stake)).map (·.maxFactor.toNat)).sum

/-- The total that the search computes at a stake. -/
def electionTotal (stake : Nat) (validators : List Validator) : Nat :=
  uncutStake stake validators + stake * cutFactors stake validators / 2 ^ 16

/-- The sum of the stakes as they are limited. -/
def acceptedStake (stake : Nat) (validators : List Validator) : Nat :=
  (validators.map fun v => min v.key.stake (stake * v.maxFactor.toNat / 2 ^ 16)).sum

/-- The products of a stake with the factors of the stakes that are limited. -/
def cutProducts (stake : Nat) (validators : List Validator) : List Nat :=
  (validators.filter fun v => decide (v.IsCut stake)).map fun v => stake * v.maxFactor.toNat

theorem sum_cutProducts (stake : Nat) (validators : List Validator) :
    (cutProducts stake validators).sum = stake * cutFactors stake validators := by
  rw [cutProducts, cutFactors, List.sum_map_mul_left]

theorem acceptedStake_eq (stake : Nat) (validators : List Validator) :
    acceptedStake stake validators =
      uncutStake stake validators + ((cutProducts stake validators).map (· / 2 ^ 16)).sum := by
  induction validators with
  | nil => rfl
  | cons v validators ih =>
    unfold acceptedStake uncutStake cutProducts at ih ⊢
    rw [List.map_cons, List.sum_cons, ih]
    by_cases hcut : v.IsCut stake
    · have hle : stake * v.maxFactor.toNat / 2 ^ 16 ≤ v.key.stake := Nat.div_le_of_le_mul ((mul_comm _ _).trans_ge hcut)
      simp only [List.filter_cons, hcut, decide_true, Bool.not_true, if_true, if_false, List.map_cons,
        List.sum_cons, Bool.false_eq_true, min_eq_right hle]
      omega
    · have hle : v.key.stake ≤ stake * v.maxFactor.toNat / 2 ^ 16 :=
        (Nat.le_div_iff_mul_le (by decide)).2 (not_le.1 hcut).le
      simp only [List.filter_cons, hcut, decide_false, Bool.not_false, if_true, if_false, List.map_cons,
        List.sum_cons, Bool.false_eq_true, min_eq_left hle]
      omega

/-- The total is the sum of the limited stakes, up to what rounding the parts loses. -/
theorem electionTotal_bounds (stake : Nat) (validators : List Validator) :
    acceptedStake stake validators ≤ electionTotal stake validators ∧
      electionTotal stake validators < acceptedStake stake validators +
        max 1 (validators.countP fun v => decide (v.IsCut stake)) := by
  have hle := sum_map_div_le (2 ^ 16) (cutProducts stake validators)
  have hlt := sum_div_lt (show 0 < 2 ^ 16 by decide) (cutProducts stake validators)
  rw [sum_cutProducts] at hle hlt
  rw [cutProducts, List.length_map, ← List.countP_eq_length_filter, ← cutProducts] at hlt
  rw [acceptedStake_eq, electionTotal]
  omega

/-- The stake of the last validator of a list. -/
def lastStake (validators : List Validator) : Nat :=
  (validators.getLast?.map (·.key.stake)).getD 0

/-- The total of the first `k` validators. -/
def prefixTotal (validators : List Validator) (k : Nat) : Nat :=
  electionTotal (lastStake (validators.take k)) (validators.take k)

/-- The stakes decrease. -/
abbrev Decreasing (validators : List Validator) : Prop :=
  validators.Pairwise fun a b => b.key.stake ≤ a.key.stake

theorem Validator.IsCut.mono {stake stake' : Nat} {validator : Validator} (h : validator.IsCut stake)
    (hle : stake' ≤ stake) : validator.IsCut stake' :=
  (Nat.mul_le_mul_right _ hle).trans h

/-- What is limited stays limited at the next stake. -/
theorem isCut_next {validators : List Validator} {v : Validator} (h : Decreasing (validators ++ [v]))
    {u : Validator} (hu : u ∈ validators) (hcut : u.IsCut (lastStake validators)) :
    u.IsCut v.key.stake := by
  refine hcut.mono ?_
  have hne : validators ≠ [] := List.ne_nil_of_mem hu
  rw [lastStake, List.getLast?_eq_getLast_of_ne_nil hne]
  exact (List.pairwise_append.1 h).2.2 _ (List.getLast_mem hne) v (List.mem_singleton.2 rfl)

/-! ### The sorted list -/

/-- The entry of a validator in the sorted list. -/
def stakeEntry (v : Validator) : StakeAndFactor :=
  ⟨v.key.stake * ElectionState.precision * 2 ^ 16 / v.maxFactor.toNat, v.key.stake, v.maxFactor⟩

abbrev Sorted (list : List StakeAndFactor) : Prop := list.Pairwise fun a b => b.stake ≤ a.stake

/-- The comparison of the scaled stakes is the comparison of the stake with its limit. -/
theorem stakeEntry_lt_iff {v : Validator} (hfactor : v.maxFactor ≠ 0) (stake : Nat) :
    (stakeEntry v).stake < stake * ElectionState.precision ↔ ¬v.IsCut stake := by
  have hpos : 0 < v.maxFactor.toNat := Nat.pos_of_ne_zero fun h => hfactor (UInt32.toNat_inj.1 h)
  have hprecision : 0 < ElectionState.precision := by decide
  have hleft : v.key.stake * ElectionState.precision * 2 ^ 16 =
      v.key.stake * 2 ^ 16 * ElectionState.precision := by ring
  have hright : stake * ElectionState.precision * v.maxFactor.toNat =
      stake * v.maxFactor.toNat * ElectionState.precision := by ring
  show _ / _ < _ ↔ ¬_ ≤ _
  rw [Nat.div_lt_iff_lt_mul hpos, hleft, hright, Nat.mul_lt_mul_right hprecision, not_le]

theorem sortedInsert_perm (element : StakeAndFactor) (list : List StakeAndFactor) :
    (sortedInsert element list).Perm (element :: list) := by
  induction list with
  | nil => rfl
  | cons a list ih =>
    unfold sortedInsert
    split
    · rfl
    · exact (ih.cons a).trans (.swap _ _ _)

theorem sorted_sortedInsert {element : StakeAndFactor} {list : List StakeAndFactor}
    (h : Sorted list) : Sorted (sortedInsert element list) := by
  induction list with
  | nil => exact List.pairwise_singleton _ _
  | cons a list ih =>
    obtain ⟨hhead, htail⟩ := List.pairwise_cons.1 h
    unfold sortedInsert
    split
    · rename_i hle
      refine List.pairwise_cons.2 ⟨fun b hb => ?_, h⟩
      rcases List.mem_cons.1 hb with rfl | hb
      · exact hle
      · exact (hhead b hb).trans hle
    · rename_i hlt
      refine List.pairwise_cons.2 ⟨fun b hb => ?_, ih htail⟩
      rcases List.mem_cons.1 ((sortedInsert_perm element list).mem_iff.1 hb) with rfl | hb
      · exact (not_le.1 hlt).le
      · exact hhead b hb

/-- The entries that the loop takes off at a stake, and those that stay. -/
def popped (stakeBig : Nat) (list : List StakeAndFactor) : List StakeAndFactor :=
  list.filter fun e => !decide (e.stake < stakeBig)

def kept (stakeBig : Nat) (list : List StakeAndFactor) : List StakeAndFactor :=
  list.filter fun e => decide (e.stake < stakeBig)

/-- The loop over the greatest entries takes off all that are great enough. -/
theorem cutWith_panic {grams : GramsOps} {bound : Nat} (hgrams : grams.Exact bound) {stakeBig : Nat}
    {list : List StakeAndFactor} (hsorted : Sorted list) {wholeStake cutFactSum : Nat}
    (hcut : cutFactSum < 2 ^ 128) (hlt : wholeStake < bound)
    (hwhole : ((popped stakeBig list).map (·.validatorStake)).sum ≤ wholeStake) :
    ElectionState.cutWith .panic grams stakeBig list wholeStake cutFactSum =
      if cutFactSum + ((popped stakeBig list).map (·.maxFactor.toNat)).sum < 2 ^ 128 then
        .ok (kept stakeBig list, wholeStake - ((popped stakeBig list).map (·.validatorStake)).sum,
          cutFactSum + ((popped stakeBig list).map (·.maxFactor.toNat)).sum)
      else .error .panic := by
  induction list generalizing wholeStake cutFactSum with
  | nil => exact (if_pos hcut).symm
  | cons e list ih =>
    obtain ⟨hhead, htail⟩ := List.pairwise_cons.1 hsorted
    unfold ElectionState.cutWith
    split
    · -- the greatest entry stays, and so do the others
      rename_i hsmall
      have hkept (a : StakeAndFactor) (ha : a ∈ e :: list) : a.stake < stakeBig := by
        rcases List.mem_cons.1 ha with rfl | ha
        · exact hsmall
        · exact (hhead a ha).trans_lt hsmall
      have hnone : popped stakeBig (e :: list) = [] :=
        List.filter_eq_nil_iff.2 fun a ha => by simp [hkept a ha]
      have hall : kept stakeBig (e :: list) = e :: list :=
        List.filter_eq_self.2 fun a ha => by simp [hkept a ha]
      rw [hnone, hall]
      exact (if_pos hcut).symm
    · rename_i hge
      have hpopped : popped stakeBig (e :: list) = e :: popped stakeBig list :=
        List.filter_cons_of_pos (by simp [hge])
      have hkept : kept stakeBig (e :: list) = kept stakeBig list :=
        List.filter_cons_of_neg (by simp [hge])
      rw [hpopped, List.map_cons, List.sum_cons] at hwhole
      rw [hpopped, hkept, List.map_cons, List.sum_cons, List.map_cons, List.sum_cons, ← Nat.add_assoc,
        ← Nat.sub_sub, hgrams.sub (Nat.le_of_add_right_le hwhole) hlt]
      by_cases hfits : cutFactSum + e.maxFactor.toNat < 2 ^ 128
      · rw [u128_of_lt .panic hfits]
        exact ih htail hfits (by omega) (by omega)
      · have hadd : Overflow.panic.u128 (cutFactSum + e.maxFactor.toNat) = .error .panic :=
          if_neg hfits
        rw [hadd, if_neg (by omega)]
        rfl

section Entries

variable {list : List StakeAndFactor} {validators : List Validator} {stake stakeBig : Nat}
  (hperm : list.Perm (validators.map stakeEntry))
  (hcut : ∀ v ∈ validators, (stakeEntry v).stake < stakeBig ↔ ¬v.IsCut stake)

include hperm hcut

theorem kept_perm : (kept stakeBig list).Perm
    ((validators.filter fun v => !decide (v.IsCut stake)).map stakeEntry) := by
  refine (hperm.filter _).trans (.of_eq ?_)
  rw [List.filter_map]
  refine congrArg (List.map stakeEntry) (List.filter_congr fun v hv => ?_)
  rw [Function.comp_apply, ← decide_not, decide_eq_decide]
  exact hcut v hv

theorem popped_perm : (popped stakeBig list).Perm
    ((validators.filter fun v => decide (v.IsCut stake)).map stakeEntry) := by
  refine (hperm.filter _).trans (.of_eq ?_)
  rw [List.filter_map]
  refine congrArg (List.map stakeEntry) (List.filter_congr fun v hv => ?_)
  rw [Function.comp_apply, ← decide_not, decide_eq_decide, hcut v hv, not_not]

theorem sum_popped (g : StakeAndFactor → Nat) : ((popped stakeBig list).map g).sum =
    ((validators.filter fun v => decide (v.IsCut stake)).map fun v => g (stakeEntry v)).sum := by
  rw [((popped_perm hperm hcut).map g).sum_eq, List.map_map]
  rfl

end Entries

/-! ### One step -/

theorem u128_panic_of_not {n : Nat} (h : ¬n < 2 ^ 128) : Overflow.panic.u128 n = .error .panic :=
  if_neg h

theorem lastStake_append (validators : List Validator) (v : Validator) :
    lastStake (validators ++ [v]) = v.key.stake := by
  rw [lastStake, List.getLast?_append_cons]
  rfl

theorem prefixTotal_append_of_le {validators : List Validator} {k : Nat} (h : k ≤ validators.length)
    (rest : List Validator) : prefixTotal (validators ++ rest) k = prefixTotal validators k := by
  rw [prefixTotal, prefixTotal, List.take_append_of_le_length h]

theorem prefixTotal_append (validators : List Validator) (v : Validator) :
    prefixTotal (validators ++ [v]) (validators.length + 1) =
      electionTotal v.key.stake (validators ++ [v]) := by
  have hlen : (validators ++ [v]).length = validators.length + 1 := by simp
  rw [prefixTotal, ← hlen, List.take_length, lastStake_append]

/-- The validators that the sorted list has entries of before a step takes some off. -/
def candidates (validators : List Validator) (v : Validator) : List Validator :=
  (validators.filter fun u => !decide (u.IsCut (lastStake validators))) ++ [v]

section Step

variable {validators : List Validator} {v : Validator} (hdec : Decreasing (validators ++ [v]))

include hdec

theorem filter_candidates_not : ((candidates validators v).filter fun u => !decide (u.IsCut v.key.stake)) =
    (validators ++ [v]).filter fun u => !decide (u.IsCut v.key.stake) := by
  unfold candidates
  rw [List.filter_append, List.filter_append, List.filter_filter]
  congr 1
  refine List.filter_congr fun u hu => ?_
  have := isCut_next hdec hu
  by_cases hcut : u.IsCut (lastStake validators) <;> simp_all

theorem cutFactors_step : cutFactors (lastStake validators) validators +
    (((candidates validators v).filter fun u => decide (u.IsCut v.key.stake)).map
      (·.maxFactor.toNat)).sum = cutFactors v.key.stake (validators ++ [v]) := by
  have hsplit := sum_filter_add_sum_filter_not (fun u => decide (u.IsCut (lastStake validators)))
    (·.maxFactor.toNat) (validators.filter fun u => decide (u.IsCut v.key.stake))
  have hcut : ((validators.filter fun u => decide (u.IsCut v.key.stake)).filter
      fun u => decide (u.IsCut (lastStake validators))) =
      validators.filter fun u => decide (u.IsCut (lastStake validators)) := by
    rw [List.filter_filter]
    refine List.filter_congr fun u hu => ?_
    have := isCut_next hdec hu
    by_cases hcut : u.IsCut (lastStake validators) <;> simp_all
  rw [hcut, List.filter_comm] at hsplit
  unfold cutFactors candidates
  rw [List.filter_append, List.filter_append, List.map_append, List.map_append, List.sum_append,
    List.sum_append, ← hsplit]
  omega

theorem uncutStake_step : uncutStake (lastStake validators) validators + v.key.stake =
    uncutStake v.key.stake (validators ++ [v]) +
      (((candidates validators v).filter fun u => decide (u.IsCut v.key.stake)).map
        (·.key.stake)).sum := by
  have hsplit := sum_filter_add_sum_filter_not (fun u => decide (u.IsCut v.key.stake)) (·.key.stake)
    (candidates validators v)
  rw [filter_candidates_not hdec] at hsplit
  rw [uncutStake, uncutStake, Nat.add_comm _ (List.sum _), hsplit, candidates, List.map_append,
    List.sum_append]
  rfl

end Step

/-- The amounts of `Grams` that a step of the search computes at a validator. -/
structure GramsFit (bound : Nat) (validators : List Validator) (v : Validator) : Prop where
  whole : uncutStake (lastStake validators) validators + v.key.stake < bound
  product : v.key.stake * cutFactors v.key.stake (validators ++ [v]) < bound
  total : electionTotal v.key.stake (validators ++ [v]) < bound

/-- What a step of the search needs: a factor, and numbers that fit. -/
structure StepFits (bound : Nat) (validators : List Validator) (v : Validator) : Prop
    extends GramsFit bound validators v where
  factor : v.maxFactor ≠ 0
  factors : cutFactors v.key.stake (validators ++ [v]) < 2 ^ 128

/-- The state of the search after some validators. -/
structure Tracks (validators : List Validator) (st : ElectionState) : Prop where
  factors : ∀ v ∈ validators, v.maxFactor ≠ 0
  perm : st.wholesStakes.Perm
    ((validators.filter fun v => !decide (v.IsCut (lastStake validators))).map stakeEntry)
  sorted : Sorted st.wholesStakes
  wholeStake : st.wholeStake = uncutStake (lastStake validators) validators
  cutFactSum : st.cutFactSum = cutFactors (lastStake validators) validators
  cutFactSum_lt : st.cutFactSum < 2 ^ 128
  best : FirstMax (prefixTotal validators) validators.length st.m
  bestStake : st.bestStake = prefixTotal validators st.m
  mStake : st.mStake = lastStake (validators.take st.m)

theorem tracks_nil : Tracks [] {} where
  factors := nofun
  perm := .nil
  sorted := .nil
  wholeStake := rfl
  cutFactSum := rfl
  cutFactSum_lt := by decide
  best := .zero _
  bestStake := rfl
  mStake := rfl

theorem Tracks.insert_perm {validators : List Validator} {st : ElectionState} (h : Tracks validators st)
    (v : Validator) : (sortedInsert (stakeEntry v) st.wholesStakes).Perm
      ((candidates validators v).map stakeEntry) := by
  refine (sortedInsert_perm _ _).trans ((h.perm.cons _).trans ?_)
  rw [candidates, List.map_append]
  exact (List.perm_append_singleton _ _).symm

/-- The state after a step that goes well. -/
def ElectionState.advance (st : ElectionState) (qty : Nat) (v : Validator) (validators : List Validator) :
    ElectionState :=
  let st := { st with
    wholesStakes := kept (v.key.stake * precision) (sortedInsert (stakeEntry v) st.wholesStakes)
    wholeStake := uncutStake v.key.stake validators
    cutFactSum := cutFactors v.key.stake validators }
  if st.bestStake < electionTotal v.key.stake validators then
    { st with bestStake := electionTotal v.key.stake validators, m := qty + 1, mStake := v.key.stake }
  else st

section Step

variable {validators : List Validator} {v : Validator} {st : ElectionState}
  (hdec : Decreasing (validators ++ [v])) (h : Tracks validators st)

include hdec h

section Exact

variable {grams : GramsOps} {bound : Nat} (hgrams : grams.Exact bound)

include hgrams

/-- What the inner loop takes off. -/
theorem cutWith_candidates (hfactor : v.maxFactor ≠ 0) (hfits : st.wholeStake + v.key.stake < bound) :
    ElectionState.cutWith .panic grams (v.key.stake * ElectionState.precision)
        (sortedInsert (stakeEntry v) st.wholesStakes) (st.wholeStake + v.key.stake) st.cutFactSum =
      if cutFactors v.key.stake (validators ++ [v]) < 2 ^ 128 then
        .ok (kept (v.key.stake * ElectionState.precision) (sortedInsert (stakeEntry v) st.wholesStakes),
          uncutStake v.key.stake (validators ++ [v]), cutFactors v.key.stake (validators ++ [v]))
      else .error .panic := by
  have hcut : ∀ u ∈ candidates validators v,
      (stakeEntry u).stake < v.key.stake * ElectionState.precision ↔ ¬u.IsCut v.key.stake := by
    intro u hu
    refine stakeEntry_lt_iff ?_ _
    rcases List.mem_append.1 hu with hu | hu
    · exact h.factors u (List.mem_of_mem_filter hu)
    · rwa [List.mem_singleton.1 hu]
  have hperm := h.insert_perm v
  have hwhole := uncutStake_step hdec
  have hsum := cutFactors_step hdec
  -- the scaled stake is a large number that is not to be computed with
  generalize v.key.stake * ElectionState.precision = stakeBig at hcut ⊢
  have hstakes : ((popped stakeBig (sortedInsert (stakeEntry v) st.wholesStakes)).map
      (·.validatorStake)).sum = (((candidates validators v).filter fun u =>
        decide (u.IsCut v.key.stake)).map (·.key.stake)).sum := sum_popped hperm hcut _
  have hfactors : ((popped stakeBig (sortedInsert (stakeEntry v) st.wholesStakes)).map
      (·.maxFactor.toNat)).sum = (((candidates validators v).filter fun u =>
        decide (u.IsCut v.key.stake)).map (·.maxFactor.toNat)).sum := sum_popped hperm hcut _
  rw [cutWith_panic hgrams (sorted_sortedInsert h.sorted) h.cutFactSum_lt hfits, hstakes, hfactors,
    h.cutFactSum, hsum, h.wholeStake, hwhole, Nat.add_sub_cancel]
  rw [hstakes, h.wholeStake, hwhole]
  exact Nat.le_add_left _ _

/-- A step goes on where everything fits. -/
theorem nextWith_of_fits (hfits : StepFits bound validators v) :
    st.nextWith .panic grams validators.length v =
      .ok (st.advance validators.length v (validators ++ [v])) := by
  have hwhole := hfits.whole
  rw [← h.wholeStake] at hwhole
  have hcut := cutWith_candidates hdec h hgrams hfits.factor hwhole
  rw [if_pos hfits.factors] at hcut
  unfold ElectionState.nextWith
  rw [hgrams.add hwhole, ok_bind]
  dsimp only
  rw [if_neg hfits.factor]
  rw [← stakeEntry, hcut, ok_bind]
  dsimp only
  rw [hgrams.mul hfits.product, ok_bind, hgrams.shr hfits.product, ok_bind, hgrams.add hfits.total,
    ok_bind, ← electionTotal]
  unfold ElectionState.advance
  dsimp only
  split <;> rfl

omit hdec in
/-- A step divides by a factor of zero. -/
theorem nextWith_of_zero (hfits : GramsFit bound validators v) (hzero : v.maxFactor = 0) :
    st.nextWith .panic grams validators.length v = .error .panic := by
  have hwhole := hfits.whole
  rw [← h.wholeStake] at hwhole
  unfold ElectionState.nextWith
  rw [hgrams.add hwhole, ok_bind]
  exact if_pos hzero

end Exact

theorem nextWith_of_not_fits (hfits : ¬StepFits (2 ^ 128) validators v) :
    st.nextWith .panic Overflow.panic.grams validators.length v = .error .panic := by
  unfold ElectionState.nextWith Overflow.grams
  dsimp only
  rw [← Overflow.grams]
  by_cases hwhole : st.wholeStake + v.key.stake < 2 ^ 128
  · rw [u128_of_lt .panic hwhole, ok_bind]
    by_cases hfactor : v.maxFactor = 0
    · rw [if_pos hfactor]
    · have hcut := cutWith_candidates hdec h (exact_grams .panic) hfactor hwhole
      rw [if_neg hfactor, ← stakeEntry, hcut]
      by_cases hfactors : cutFactors v.key.stake (validators ++ [v]) < 2 ^ 128
      · rw [if_pos hfactors, ok_bind]
        dsimp only
        by_cases hproduct : v.key.stake * cutFactors v.key.stake (validators ++ [v]) < 2 ^ 128
        · have htotal : ¬electionTotal v.key.stake (validators ++ [v]) < 2 ^ 128 := fun htotal =>
            hfits ⟨⟨by rwa [← h.wholeStake], hproduct, htotal⟩, hfactor, hfactors⟩
          rw [u128_of_lt .panic hproduct, ok_bind, ok_bind, Nat.shiftRight_eq_div_pow, ← electionTotal,
            u128_panic_of_not htotal, error_bind]
        · rw [u128_panic_of_not hproduct, error_bind]
      · rw [if_neg hfactors, error_bind]
  · rw [u128_panic_of_not hwhole, error_bind]

theorem tracks_advance {bound : Nat} (hfits : StepFits bound validators v) :
    Tracks (validators ++ [v]) (st.advance validators.length v (validators ++ [v])) := by
  have hlast := lastStake_append validators v
  have hfactors : ∀ u ∈ validators ++ [v], u.maxFactor ≠ 0 := by
    intro u hu
    rcases List.mem_append.1 hu with hu | hu
    · exact h.factors u hu
    · rw [List.mem_singleton.1 hu]
      exact hfits.factor
  have hkept : (kept (v.key.stake * ElectionState.precision)
      (sortedInsert (stakeEntry v) st.wholesStakes)).Perm
      (((validators ++ [v]).filter fun u =>
        !decide (u.IsCut (lastStake (validators ++ [v])))).map stakeEntry) := by
    rw [hlast, ← filter_candidates_not hdec]
    refine kept_perm (h.insert_perm v) fun u hu => stakeEntry_lt_iff (hfactors u ?_) _
    rcases List.mem_append.1 hu with hu | hu
    · exact List.mem_append_left _ (List.mem_of_mem_filter hu)
    · exact List.mem_append_right _ hu
  have hsorted : Sorted (kept (v.key.stake * ElectionState.precision)
      (sortedInsert (stakeEntry v) st.wholesStakes)) := (sorted_sortedInsert h.sorted).filter _
  have htotal := prefixTotal_append validators v
  have hbest : FirstMax (prefixTotal (validators ++ [v])) (validators ++ [v]).length
      (if st.bestStake < electionTotal v.key.stake (validators ++ [v]) then validators.length + 1
        else st.m) := by
    have hfirst := (h.best.congr fun k hk => (prefixTotal_append_of_le hk [v]).symm).succ
    rw [List.length_append]
    rwa [htotal, prefixTotal_append_of_le h.best.le, ← h.bestStake] at hfirst
  unfold ElectionState.advance
  dsimp only
  split_ifs at hbest ⊢
  · have hlen : (validators ++ [v]).length = validators.length + 1 := List.length_append
    refine ⟨hfactors, hkept, hsorted, ?_, ?_, hfits.factors, hbest, htotal.symm, ?_⟩
    · rw [hlast]
    · rw [hlast]
    · rw [← hlen, List.take_length, hlast]
  · refine ⟨hfactors, hkept, hsorted, ?_, ?_, hfits.factors, hbest, ?_, ?_⟩
    · rw [hlast]
    · rw [hlast]
    · rw [prefixTotal_append_of_le h.best.le, h.bestStake]
    · rw [List.take_append_of_le_length h.best.le, h.mStake]

end Step

/-! ### The whole search -/

/-- Every step of the search over the validators `rest` fits, after the validators `done`. -/
def FitsFrom (Fits : List Validator → Validator → Prop) (done : List Validator) :
    List Validator → Prop
  | [] => True
  | v :: rest => Fits done v ∧ FitsFrom Fits (done ++ [v]) rest

theorem FitsFrom.take {Fits : List Validator → Validator → Prop} {done rest : List Validator}
    (h : FitsFrom Fits done rest) (k : Nat) : FitsFrom Fits done (rest.take k) := by
  induction rest generalizing done k with
  | nil =>
    rw [List.take_nil]
    trivial
  | cons v rest ih =>
    cases k with
    | zero => trivial
    | succ k => exact ⟨h.1, ih h.2 k⟩

/-- The factors of so few validators add up. -/
theorem cutFactors_lt {validators : List Validator} (h : validators.length ≤ 2 ^ 16) (stake : Nat) :
    cutFactors stake validators < 2 ^ 128 := by
  have hbound : cutFactors stake validators ≤
      ((validators.filter fun v => decide (v.IsCut stake)).map (·.maxFactor.toNat)).length •
        (2 ^ 32 : Nat) :=
    List.sum_le_card_nsmul _ _ fun n hn => by
      obtain ⟨v, -, rfl⟩ := List.mem_map.1 hn
      exact v.maxFactor.toNat_lt.le
  have hlen := List.length_filter_le (fun v => decide (v.IsCut stake)) validators
  rw [List.length_map, smul_eq_mul] at hbound
  omega

section Search

variable {done rest : List Validator} {st : ElectionState} (hdec : Decreasing (done ++ rest))
  (h : Tracks done st)

include hdec h

section Exact

variable {grams : GramsOps} {bound : Nat} (hgrams : grams.Exact bound)

include hgrams

/-- The search goes on where every step fits, and the invariant holds at its end. -/
theorem searchWith_of_fits (hfits : FitsFrom (StepFits bound) done rest) :
    ∃ st', ElectionState.searchWith .panic grams done.length rest st = .ok st' ∧
      Tracks (done ++ rest) st' := by
  induction rest generalizing done st with
  | nil =>
    rw [List.append_nil]
    exact ⟨st, rfl, h⟩
  | cons v rest ih =>
    rw [List.append_cons] at hdec ⊢
    have hstep := hdec.sublist (List.sublist_append_left _ _)
    have hnext := nextWith_of_fits hstep h hgrams hfits.1
    obtain ⟨st', hsearch, htracks⟩ := ih hdec (tracks_advance hstep h hfits.1) hfits.2
    refine ⟨st', ?_, htracks⟩
    rw [List.length_append] at hsearch
    unfold ElectionState.searchWith
    rw [hnext, ok_bind]
    exact hsearch

/-- Where the amounts of `Grams` fit, a search of few validators panics at a factor of zero alone. -/
theorem searchWith_of_gramsFit (hfits : FitsFrom (GramsFit bound) done rest)
    (hlen : (done ++ rest).length ≤ 2 ^ 16) :
    (∀ v ∈ rest, v.maxFactor ≠ 0) ∧ FitsFrom (StepFits bound) done rest ∨
      (∃ v ∈ rest, v.maxFactor = 0) ∧
        ElectionState.searchWith .panic grams done.length rest st = .error .panic := by
  induction rest generalizing done st with
  | nil => exact .inl ⟨nofun, trivial⟩
  | cons v rest ih =>
    rw [List.append_cons] at hdec hlen
    have hstep := hdec.sublist (List.sublist_append_left _ _)
    unfold ElectionState.searchWith
    by_cases hfactor : v.maxFactor = 0
    · refine .inr ⟨⟨v, List.mem_cons_self, hfactor⟩, ?_⟩
      rw [nextWith_of_zero h hgrams hfits.1 hfactor, error_bind]
    · have hle : (done ++ [v]).length ≤ 2 ^ 16 :=
        hlen.trans' (List.sublist_append_left _ _).length_le
      have hv : StepFits bound done v := ⟨hfits.1, hfactor, cutFactors_lt hle _⟩
      rcases ih hdec (tracks_advance hstep h hv) hfits.2 hlen with ⟨hfactors, hrest⟩ | ⟨hzero, hpanic⟩
      · exact .inl ⟨List.forall_mem_cons.2 ⟨hfactor, hfactors⟩, hv, hrest⟩
      · obtain ⟨u, hu, hzero⟩ := hzero
        refine .inr ⟨⟨u, List.mem_cons_of_mem v hu, hzero⟩, ?_⟩
        rw [List.length_append] at hpanic
        rw [nextWith_of_fits hstep h hgrams hv, ok_bind]
        exact hpanic

end Exact

theorem searchWith_of_not_fits (hfits : ¬FitsFrom (StepFits (2 ^ 128)) done rest) :
    ElectionState.searchWith .panic Overflow.panic.grams done.length rest st = .error .panic := by
  induction rest generalizing done st with
  | nil => exact absurd trivial hfits
  | cons v rest ih =>
    rw [List.append_cons] at hdec
    have hstep := hdec.sublist (List.sublist_append_left _ _)
    unfold ElectionState.searchWith
    by_cases hv : StepFits (2 ^ 128) done v
    · have hsearch := ih hdec (tracks_advance hstep h hv) fun hrest => hfits ⟨hv, hrest⟩
      rw [List.length_append] at hsearch
      rw [nextWith_of_fits hstep h (exact_grams .panic) hv, ok_bind]
      exact hsearch
    · rw [nextWith_of_not_fits hstep h hv, error_bind]

end Search

end TonVm
