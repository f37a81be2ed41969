import TonVm.Plain
import TonVm.Proof.ElectionSearch

/-!
# The stakes of an election

The number of validators that the search finds is the first one with the greatest total, and the total
is the sum of the stakes as they are then limited, up to less than one for each that is limited. So the
two checks that `calculate_elections` makes of its own sums never fail.
-/

namespace TonVm

open Apportion

/-! ### The order of the validators -/

theorem ValidatorKey.le_iff (a b : ValidatorKey) : a.le b = true ↔ a.stake < b.stake ∨
    a.stake = b.stake ∧ (a.time.toNat < b.time.toNat ∨
      a.time.toNat = b.time.toNat ∧ a.pubKey.toNat ≤ b.pubKey.toNat) := by
  have htime : a.time = b.time ↔ a.time.toNat = b.time.toNat := UInt32.toNat_inj.symm
  have hlt : a.time < b.time ↔ a.time.toNat < b.time.toNat := Iff.rfl
  unfold le
  split_ifs with hstake htimes
  · rw [decide_eq_true_iff]
    omega
  · rw [decide_eq_true_iff, hlt]
    rw [Ne, htime] at htimes
    omega
  · rw [decide_eq_true_iff]
    rw [Ne, htime] at htimes
    omega

theorem decreasing_sortValidators (validators : List Validator) :
    Decreasing (sortValidators validators) := by
  have htrans (a b c : Validator) (hab : b.key.le a.key = true) (hbc : c.key.le b.key = true) :
      c.key.le a.key = true := by
    rw [ValidatorKey.le_iff] at hab hbc ⊢
    omega
  have htotal (a b : Validator) : (b.key.le a.key || a.key.le b.key) = true := by
    rw [Bool.or_eq_true, ValidatorKey.le_iff, ValidatorKey.le_iff]
    omega
  refine (List.pairwise_mergeSort htrans htotal validators).imp fun {a b} hab => ?_
  rw [ValidatorKey.le_iff] at hab
  omega

theorem sortValidators_perm (validators : List Validator) :
    (sortValidators validators).Perm validators :=
  List.mergeSort_perm validators _

/-! ### Sums of true stakes -/

/-- The true stake of a validator when `mStake` is the least stake accepted. -/
def limitStake (mStake : Nat) (validator : Validator) : Validator :=
  { validator with
    trueStake := min validator.key.stake (u128 (mStake * validator.maxFactor.toNat) >>> 16) }

/-- The validators with the true stakes of the first `m`. -/
def limitStakes (m mStake : Nat) (validators : List Validator) : List Validator :=
  (validators.take m).map (limitStake mStake) ++ validators.drop m

/-- The sum of the true stakes, added up one by one. -/
def sumTrueStakes (mode : Overflow) : Nat → List Validator → Except Failure Nat
  | sum, [] => .ok sum
  | sum, v :: validators => do sumTrueStakes mode (← mode.u128 (sum + v.trueStake)) validators

theorem limitStakesWith_sum {mode : Overflow} {mStake m sum best : Nat}
    {validators limited : List Validator}
    (h : limitStakesWith mode mStake m validators sum = .ok (limited, best)) :
    sumTrueStakes mode sum (limited.take m) = .ok best := by
  induction validators generalizing m sum limited best with
  | nil =>
    cases m <;> cases h <;> rfl
  | cons v validators ih =>
    cases m with
    | zero =>
      cases h
      rfl
    | succ m =>
      unfold limitStakesWith at h
      obtain ⟨limit, hlimit, h⟩ := bind_eq_ok h
      obtain ⟨sum', hsum, h⟩ := bind_eq_ok h
      obtain ⟨⟨rest, best'⟩, hrest, h⟩ := bind_eq_ok h
      cases h
      rw [List.take_succ_cons, sumTrueStakes, hsum]
      exact ih hrest

theorem acceptedStake_cons (mStake : Nat) (v : Validator) (validators : List Validator) :
    acceptedStake mStake (v :: validators) =
      min v.key.stake (mStake * v.maxFactor.toNat / 2 ^ 16) + acceptedStake mStake validators := rfl

/-- The products of the limits fit. -/
def LimitsFit (mStake : Nat) (validators : List Validator) : Prop :=
  ∀ v ∈ validators, mStake * v.maxFactor.toNat < 2 ^ 128

theorem limitStake_of_fits {mStake : Nat} {v : Validator} (h : mStake * v.maxFactor.toNat < 2 ^ 128) :
    limitStake mStake v =
      { v with trueStake := min v.key.stake (mStake * v.maxFactor.toNat / 2 ^ 16) } := by
  rw [limitStake, u128, Nat.mod_eq_of_lt h, Nat.shiftRight_eq_div_pow]

theorem limitStakesWith_of_fits {mStake m sum : Nat} {validators : List Validator}
    (hlimits : LimitsFit mStake (validators.take m))
    (hsum : sum + acceptedStake mStake (validators.take m) < 2 ^ 128) :
    limitStakesWith .panic mStake m validators sum =
      .ok (limitStakes m mStake validators, sum + acceptedStake mStake (validators.take m)) := by
  induction validators generalizing m sum with
  | nil => cases m <;> rfl
  | cons v validators ih =>
    cases m with
    | zero => rfl
    | succ m =>
      rw [List.take_succ_cons] at hlimits hsum ⊢
      rw [acceptedStake_cons, ← Nat.add_assoc] at hsum ⊢
      have hv := hlimits v List.mem_cons_self
      have hrest := ih (fun u hu => hlimits u (List.mem_cons_of_mem v hu)) hsum
      have hadd := hsum.trans_le' (Nat.le_add_right _ _)
      unfold limitStakesWith
      rw [u128_of_lt .panic hv, ok_bind, Nat.shiftRight_eq_div_pow]
      dsimp only
      rw [u128_of_lt .panic hadd, ok_bind, hrest, ok_bind, ← limitStake_of_fits hv]
      rfl

theorem limitStakesWith_of_not_fits {mStake m sum : Nat} {validators : List Validator}
    (hlt : sum < 2 ^ 128) (h : ¬(LimitsFit mStake (validators.take m) ∧
      sum + acceptedStake mStake (validators.take m) < 2 ^ 128)) :
    limitStakesWith .panic mStake m validators sum = .error .panic := by
  induction validators generalizing m sum with
  | nil =>
    rw [List.take_nil] at h
    exact absurd ⟨nofun, hlt⟩ h
  | cons v validators ih =>
    cases m with
    | zero => exact absurd ⟨nofun, hlt⟩ h
    | succ m =>
      rw [List.take_succ_cons, acceptedStake_cons, ← Nat.add_assoc] at h
      unfold limitStakesWith
      by_cases hv : mStake * v.maxFactor.toNat < 2 ^ 128
      · rw [u128_of_lt .panic hv, ok_bind, Nat.shiftRight_eq_div_pow]
        dsimp only
        by_cases hadd : sum + min v.key.stake (mStake * v.maxFactor.toNat / 2 ^ 16) < 2 ^ 128
        · have hrest := ih hadd fun hrest => h ⟨List.forall_mem_cons.2 ⟨hv, hrest.1⟩, hrest.2⟩
          rw [u128_of_lt .panic hadd, ok_bind, hrest, error_bind]
        · rw [u128_panic_of_not hadd, error_bind]
      · rw [u128_panic_of_not hv, error_bind]

theorem limitStakesWith_eq_ok {mStake m sum best : Nat} {validators limited : List Validator}
    (hlt : sum < 2 ^ 128) (h : limitStakesWith .panic mStake m validators sum = .ok (limited, best)) :
    limited = limitStakes m mStake validators ∧
      best = sum + acceptedStake mStake (validators.take m) := by
  by_cases hfits : LimitsFit mStake (validators.take m) ∧
      sum + acceptedStake mStake (validators.take m) < 2 ^ 128
  · rw [limitStakesWith_of_fits hfits.1 hfits.2] at h
    cases h
    exact ⟨rfl, rfl⟩
  · rw [limitStakesWith_of_not_fits hlt hfits] at h
    cases h

/-! ### What is settled -/

/-- The weight of a validator, by its part of the stake. -/
def stakeWeight (bestStake : Nat) (v : Validator) : Nat := v.trueStake * 2 ^ 60 / bestStake

def sumWeights (mode : Overflow) (bestStake : Nat) : Nat → List Validator → Except Failure Nat
  | sum, [] => .ok sum
  | sum, v :: validators => do
    sumWeights mode bestStake (← mode.u64 (sum + stakeWeight bestStake v)) validators

def validatorDescr (bestStake : Nat) (v : Validator) : ValidatorDescr :=
  ⟨v.key.pubKey, stakeWeight bestStake v, v.adnlAddr⟩

section Settlement

variable [TonTypes]

/-- What electing some validators adds to a result. -/
structure Elects (mode : Overflow) (bestStake : Nat) (elected : List Validator)
    (result r : ElectionResult) : Prop where
  totalStake : sumTrueStakes mode result.totalStake elected = .ok r.totalStake
  totalWeight : sumWeights mode bestStake result.totalWeight elected = .ok r.totalWeight
  list : r.list = result.list ++ elected.map (validatorDescr bestStake)
  bestStake : elected ≠ [] → bestStake ≠ 0

theorem bind_lift_ok {α β : Type} (a : α) (f : α → GasM β) :
    ((liftM (.ok a : Except Failure α) : GasM α) >>= f) = f a := rfl

theorem all_liftM {α : Type} (x : Except Failure α) : (liftM x : GasM α).All fun a => x = .ok a := by
  cases x with
  | ok a => exact rfl
  | error failure => trivial

/-- A credit changes the credits alone. -/
theorem creditWith_all (mode : Overflow) (result : ElectionResult) (v : Validator) :
    (result.creditWith mode v).All fun r => r = { result with credits := r.credits } := by
  unfold ElectionResult.creditWith
  refine .bind_any fun leftover => .ite (fun _ => rfl) fun _ => ?_
  refine .bind_any fun builder => .bind_any fun cell => .bind_any fun key => .bind_any fun found => ?_
  cases found with
  | none => exact .bind_any fun _ => .bind_any fun _ => .bind_any fun _ => rfl
  | some data =>
    exact .bind_any fun _ => .bind_any fun _ => .bind_any fun _ => .bind_any fun _ => rfl

theorem electWith_all (mode : Overflow) (report : ElectionError → Failure) (result : ElectionResult)
    (bestStake : Nat) (v : Validator) :
    (result.electWith mode report bestStake v).All (Elects mode bestStake [v] result) := by
  unfold ElectionResult.electWith
  refine .bind (all_liftM _) fun totalStake hstake => .ite (fun _ => trivial) fun hbest =>
    .ite (fun _ => trivial) fun _ => .bind (all_liftM _) fun totalWeight hweight => ?_
  refine .bind_any fun _ => .bind_any fun _ => .bind_any fun _ => .bind_any fun _ => .bind_any fun _ => ?_
  refine ⟨?_, ?_, rfl, fun _ => hbest⟩
  · rw [sumTrueStakes, hstake]
    rfl
  · have hweight : mode.u64 (result.totalWeight + stakeWeight bestStake v) = .ok totalWeight := hweight
    rw [sumWeights, hweight]
    rfl

theorem Elects.ofCredits {mode : Overflow} {bestStake : Nat} {elected : List Validator}
    {result r : ElectionResult} {credits : HashmapE}
    (h : Elects mode bestStake elected { result with credits } r) :
    Elects mode bestStake elected result r :=
  ⟨h.totalStake, h.totalWeight, h.list, h.bestStake⟩

theorem Elects.cons {mode : Overflow} {bestStake : Nat} {v : Validator} {elected : List Validator}
    {result r r' : ElectionResult} (hv : Elects mode bestStake [v] result r)
    (h : Elects mode bestStake elected r r') : Elects mode bestStake (v :: elected) result r' := by
  obtain ⟨totalStake, hstake, htotal⟩ := bind_eq_ok hv.totalStake
  obtain ⟨totalWeight, hweight, hsum⟩ := bind_eq_ok hv.totalWeight
  cases htotal
  cases hsum
  refine ⟨?_, ?_, ?_, fun _ => hv.bestStake (List.cons_ne_nil _ _)⟩
  · rw [sumTrueStakes, hstake]
    exact h.totalStake
  · rw [sumWeights, hweight]
    exact h.totalWeight
  · rw [h.list, hv.list, List.append_assoc]
    rfl

theorem settleWith_all (mode : Overflow) (report : ElectionError → Failure) (bestStake m : Nat)
    (validators : List Validator) (result : ElectionResult) :
    (ElectionResult.settleWith mode report bestStake m validators result).All
      (Elects mode bestStake (validators.take m) result) := by
  induction validators generalizing m result with
  | nil =>
    rw [List.take_nil]
    exact ⟨rfl, rfl, (List.append_nil _).symm, nofun⟩
  | cons v validators ih =>
    unfold ElectionResult.settleWith
    refine .bind (creditWith_all mode result v) fun credited hcredited => ?_
    rw [hcredited]
    cases m with
    | zero => exact (ih 0 _).mono fun r hr => hr.ofCredits
    | succ m =>
      refine .bind (electWith_all mode report _ bestStake v) fun r hr => ?_
      exact (ih m r).mono fun r' hr' => (hr.cons hr').ofCredits

/-- The only error that is reported while settling is that of a weight. -/
theorem settleWith_congr {mode : Overflow} {report report' : ElectionError → Failure}
    (h : report .weight = report' .weight) (bestStake m : Nat) (validators : List Validator)
    (result : ElectionResult) :
    ElectionResult.settleWith mode report bestStake m validators result =
      ElectionResult.settleWith mode report' bestStake m validators result := by
  have helect (r : ElectionResult) (v : Validator) :
      r.electWith mode report bestStake v = r.electWith mode report' bestStake v := by
    unfold ElectionResult.electWith
    rw [h]
  induction validators generalizing m result with
  | nil => rfl
  | cons v validators ih =>
    unfold ElectionResult.settleWith
    refine bind_congr fun credited => ?_
    cases m with
    | zero => exact ih 0 credited
    | succ m =>
      dsimp only
      rw [helect]
      exact bind_congr fun r => ih m r

end Settlement

/-! ### The checks of the sums -/

/-- A search that returns has the invariant at its end. -/
theorem tracks_of_search {validators : List Validator} (hdec : Decreasing validators)
    {st : ElectionState} (h : ElectionState.searchWith .panic Overflow.panic.grams 0 validators {} = .ok st) :
    FitsFrom (StepFits (2 ^ 128)) [] validators ∧ Tracks validators st := by
  have hdec : Decreasing ([] ++ validators) := hdec
  by_cases hfits : FitsFrom (StepFits (2 ^ 128)) [] validators
  · obtain ⟨st', hsearch, htracks⟩ := searchWith_of_fits hdec tracks_nil (exact_grams .panic) hfits
    rw [List.length_nil, h] at hsearch
    cases hsearch
    exact ⟨hfits, htracks⟩
  · have hpanic := searchWith_of_not_fits hdec tracks_nil hfits
    rw [List.length_nil, h] at hpanic
    cases hpanic

/-- The best total and the sum of the limited stakes differ by less than one for each of them. -/
theorem Tracks.close {validators : List Validator} {st : ElectionState} (h : Tracks validators st) :
    acceptedStake st.mStake (validators.take st.m) ≤ st.bestStake ∧
      st.bestStake < acceptedStake st.mStake (validators.take st.m) + max 1 st.m := by
  have hbounds := electionTotal_bounds st.mStake (validators.take st.m)
  have htotal : electionTotal st.mStake (validators.take st.m) = st.bestStake := by
    rw [h.bestStake, h.mStake, prefixTotal]
  have hcount : (validators.take st.m).countP (fun v => decide (v.IsCut st.mStake)) ≤ st.m :=
    List.countP_le_length.trans (List.length_take_le _ _)
  rw [htotal] at hbounds
  omega

theorem Tracks.m_le {validators : List Validator} {n : Nat} {st : ElectionState}
    (h : Tracks (validators.take n) st) : st.m ≤ n :=
  h.best.le.trans (List.length_take_le _ _)

/-- The two sums of the stakes do not differ by much. -/
theorem Tracks.not_differ {validators : List Validator} {n : Nat} {st : ElectionState}
    (h : Tracks (validators.take n) st) (hn : n ≤ 1000000000) :
    ¬1000000000 < max (st.bestStake - acceptedStake st.mStake (validators.take st.m))
      (acceptedStake st.mStake (validators.take st.m) - st.bestStake) := by
  have hle := h.m_le
  have hclose := h.close
  rw [List.take_take, min_eq_left hle] at hclose
  omega

/-- The check of the sum of all true stakes never fails. -/
theorem settleWith_total [TonTypes] {mode : Overflow} {report : ElectionError → Failure}
    {bestStake m : Nat} {validators : List Validator} {credits : HashmapE}
    (hsum : sumTrueStakes mode 0 (validators.take m) = .ok bestStake) :
    (ElectionResult.settleWith mode report bestStake m validators { credits }).All
      fun r => r.totalStake = bestStake := by
  refine (settleWith_all mode report bestStake m validators { credits }).mono fun r hr => ?_
  exact Except.ok.inj (hr.totalStake.symm.trans hsum)

theorem concludeWith_congr [TonTypes] {report report' : ElectionError → Failure}
    (hstake : report .stake = report' .stake) (hweight : report .weight = report' .weight)
    {validators : List Validator} {n : Nat} {st : ElectionState} (hn : n ≤ 1000000000)
    (h : Tracks (validators.take n) st) (credits : Option Cell) (cfg17 : ConfigParam17) :
    concludeWith .panic report credits validators cfg17 st =
      concludeWith .panic report' credits validators cfg17 st := by
  unfold concludeWith
  rw [hstake]
  split
  · rfl
  · cases hlimit : limitStakesWith .panic st.mStake st.m validators 0 with
    | error failure => rfl
    | ok limited =>
      obtain ⟨limited, best⟩ := limited
      have hsum := limitStakesWith_sum hlimit
      obtain ⟨-, hbest⟩ := limitStakesWith_eq_ok (by decide) hlimit
      have hclose : ¬1000000000 < max (st.bestStake - best) (best - st.bestStake) := by
        rw [hbest, Nat.zero_add]
        exact h.not_differ hn
      rw [bind_lift_ok, bind_lift_ok]
      dsimp only
      rw [if_neg hclose, if_neg hclose, settleWith_congr hweight]
      refine (settleWith_total hsum).bind_congr fun r hr => ?_
      rw [if_neg (not_not.2 hr), if_neg (not_not.2 hr)]

/-- What the search has found: at every prefix the running sums are those of the stakes that are
limited and of the others, and `m` is the first number of validators with the greatest total. -/
structure MaximisesStake (validators : List Validator) (st : ElectionState) : Prop where
  tracks : ∀ k ≤ validators.length, ∃ stk,
    ElectionState.searchWith .panic Overflow.panic.grams 0 (validators.take k) {} = .ok stk ∧
    Tracks (validators.take k) stk
  total : ∀ k ≤ validators.length,
    acceptedStake (lastStake (validators.take k)) (validators.take k) ≤ prefixTotal validators k ∧
    prefixTotal validators k < acceptedStake (lastStake (validators.take k)) (validators.take k) +
      max 1 ((validators.take k).countP fun v => decide (v.IsCut (lastStake (validators.take k))))
  grows : ∀ k k' v, k ≤ k' → v ∈ validators.take k → v.IsCut (lastStake (validators.take k)) →
    v.IsCut (lastStake (validators.take k'))
  best : FirstMax (prefixTotal validators) validators.length st.m
  bestStake : st.bestStake = prefixTotal validators st.m
  differs : validators.length ≤ 1000000000 → ¬1000000000 <
    max (st.bestStake - acceptedStake st.mStake (validators.take st.m))
      (acceptedStake st.mStake (validators.take st.m) - st.bestStake)

theorem lastStake_take_le {validators : List Validator} (hdec : Decreasing validators) {k k' : Nat}
    (hk : validators.take k ≠ []) (hle : k ≤ k') :
    lastStake (validators.take k') ≤ lastStake (validators.take k) := by
  have hsplit : validators.take k' = validators.take k ++ (validators.take k').drop k := by
    conv_lhs => rw [← List.take_append_drop k (validators.take k'), List.take_take, min_eq_left hle]
  have hdec' : Decreasing (validators.take k') := hdec.sublist (List.take_sublist _ _)
  rw [hsplit] at hdec' ⊢
  generalize (validators.take k').drop k = rest at hdec' ⊢
  rcases List.eq_nil_or_concat rest with rfl | ⟨before, v, rfl⟩
  · rw [List.append_nil]
  · rw [List.concat_eq_append] at hdec' ⊢
    rw [← List.append_assoc, lastStake_append, lastStake, List.getLast?_eq_getLast_of_ne_nil hk]
    exact (List.pairwise_append.1 hdec').2.2 _ (List.getLast_mem hk) v (by simp)

/-- In the whole function the checks of the sums never fail. -/
theorem calculateElectionsWith_congr [TonTypes] {report report' : ElectionError → Failure}
    (hnotEnough : report .notEnough = report' .notEnough) (hstake : report .stake = report' .stake)
    (hweight : report .weight = report' .weight) (credits : Option Cell) (validators : List Validator)
    (cfg16 : ConfigParam16) (cfg17 : ConfigParam17) :
    calculateElectionsWith .panic Overflow.panic.grams report credits validators cfg16 cfg17 =
      calculateElectionsWith .panic Overflow.panic.grams report' credits validators cfg16 cfg17 := by
  unfold calculateElectionsWith
  rw [hnotEnough]
  split
  · rfl
  · dsimp only
    have hn : min cfg16.maxValidators.toNat validators.length ≤ 1000000000 := by
      have := cfg16.maxValidators.toNat_lt
      omega
    have hdec : Decreasing ((sortValidators validators).take
        (min cfg16.maxValidators.toNat validators.length)) :=
      (decreasing_sortValidators validators).sublist (List.take_sublist _ _)
    cases hsearch : ElectionState.searchWith .panic Overflow.panic.grams 0
        ((sortValidators validators).take (min cfg16.maxValidators.toNat validators.length)) {} with
    | error failure => rfl
    | ok st =>
      rw [bind_lift_ok, bind_lift_ok]
      exact concludeWith_congr hstake hweight hn (tracks_of_search hdec hsearch).2 credits cfg17

/-- The search chooses the first number of validators with the greatest total, its totals are those
of the limited stakes up to the rounding, and the checks of the sums never fail. -/
theorem election_maximises_stake [TonTypes] {validators : List Validator} (hdec : Decreasing validators)
    {st : ElectionState} (hst : ElectionState.searchWith .panic Overflow.panic.grams 0 validators {} = .ok st) :
    MaximisesStake validators st ∧
    ∀ (report report' : ElectionError → Failure) (credits : Option Cell) (all : List Validator)
      (cfg16 : ConfigParam16) (cfg17 : ConfigParam17), report .notEnough = report' .notEnough →
      report .stake = report' .stake → report .weight = report' .weight →
      calculateElectionsWith .panic Overflow.panic.grams report credits all cfg16 cfg17 =
        calculateElectionsWith .panic Overflow.panic.grams report' credits all cfg16 cfg17 := by
  refine ⟨?_, fun report report' credits all cfg16 cfg17 hnotEnough hstake hweight =>
    calculateElectionsWith_congr hnotEnough hstake hweight credits all cfg16 cfg17⟩
  obtain ⟨hfits, htracks⟩ := tracks_of_search hdec hst
  have hclose := htracks.close
  have hm := htracks.best.le
  refine ⟨fun k hk => ?_, fun k hk => electionTotal_bounds _ _, fun k k' v hle hv hcut => ?_,
    htracks.best, htracks.bestStake, fun hn => by omega⟩
  · have hprefix : Decreasing ([] ++ validators.take k) := hdec.sublist (List.take_sublist _ _)
    exact searchWith_of_fits hprefix tracks_nil (exact_grams .panic) (hfits.take k)
  · exact hcut.mono (lastStake_take_le hdec (List.ne_nil_of_mem hv) hle)

section Concrete

open scoped Plain

/-- Two stakes with the factor one: the second limits the first. -/
def pair : List Validator :=
  [{ key := ⟨5, 0, 1⟩, maxFactor := 65536, addr := ⟨-1, 1⟩, adnlAddr := 1 },
    { key := ⟨3, 0, 2⟩, maxFactor := 65536, addr := ⟨-1, 2⟩, adnlAddr := 2 }]

theorem election_maximises_stake_pair :
    MaximisesStake pair { cutFactSum := 131072, bestStake := 6, m := 2, mStake := 3 } :=
  (election_maximises_stake (by decide) rfl).1

end Concrete

end TonVm
