import TonVm.Proof.ElectionStake

/-!
# The weights of an election

A weight is the part that a true stake has of the whole stake, in units of `2 ^ -60`, rounded down. No
true stake exceeds the whole, so the weights add up to `2 ^ 60` up to less than one for each validator,
and all of them fit. The true stakes are at most `2 ^ 112` by the shift that computes them, and their
number fits sixteen bits, so this holds whatever else has overflowed.
-/

namespace TonVm

open ExecLib Apportion

/-! ### Sums that fit -/

theorem u64_of_lt (mode : Overflow) {n : Nat} (h : n < 2 ^ 64) : mode.u64 n = .ok n := by
  cases mode with
  | wrap => exact congrArg Except.ok (Nat.mod_eq_of_lt h)
  | panic => exact if_pos h

theorem sumTrueStakes_of_lt (mode : Overflow) {sum : Nat} {validators : List Validator}
    (h : sum + (validators.map (·.trueStake)).sum < 2 ^ 128) :
    sumTrueStakes mode sum validators = .ok (sum + (validators.map (·.trueStake)).sum) := by
  induction validators generalizing sum with
  | nil => rfl
  | cons v validators ih =>
    rw [List.map_cons, List.sum_cons, ← Nat.add_assoc] at h ⊢
    rw [sumTrueStakes, u128_of_lt mode (h.trans_le' (Nat.le_add_right _ _)), ok_bind, ih h]

theorem sumWeights_of_lt (mode : Overflow) {bestStake sum : Nat} {validators : List Validator}
    (h : sum + (validators.map (stakeWeight bestStake)).sum < 2 ^ 64) :
    sumWeights mode bestStake sum validators =
      .ok (sum + (validators.map (stakeWeight bestStake)).sum) := by
  induction validators generalizing sum with
  | nil => rfl
  | cons v validators ih =>
    rw [List.map_cons, List.sum_cons, ← Nat.add_assoc] at h ⊢
    rw [sumWeights, u64_of_lt mode (h.trans_le' (Nat.le_add_right _ _)), ok_bind, ih h]

/-! ### Weights -/

section Weights

variable {validators : List Validator} {bestStake : Nat}
  (hsum : (validators.map (·.trueStake)).sum = bestStake)

include hsum

theorem trueStake_le {v : Validator} (hv : v ∈ validators) : v.trueStake ≤ bestStake :=
  hsum ▸ List.single_le_sum (fun _ _ => Nat.zero_le _) _ (List.mem_map_of_mem hv)

theorem stakeWeight_le {v : Validator} (hv : v ∈ validators) : stakeWeight bestStake v ≤ 2 ^ 60 :=
  Nat.div_le_of_le_mul (Nat.mul_le_mul_right _ (trueStake_le hsum hv))

theorem sum_stakeWeight (hpos : 0 < bestStake) :
    (validators.map (stakeWeight bestStake)).sum ≤ 2 ^ 60 ∧
      2 ^ 60 < (validators.map (stakeWeight bestStake)).sum + max 1 validators.length := by
  have hle := sum_map_div_le bestStake (validators.map fun v => v.trueStake * 2 ^ 60)
  have hlt := sum_div_lt hpos (validators.map fun v => v.trueStake * 2 ^ 60)
  have htotal : (validators.map fun v => v.trueStake * 2 ^ 60).sum / bestStake = 2 ^ 60 := by
    rw [List.sum_map_mul_right, hsum, Nat.mul_div_cancel_left _ hpos]
  rw [htotal, List.map_map] at hle hlt
  rw [List.length_map] at hlt
  exact ⟨hle, hlt⟩

end Weights

/-! ### The elected validators -/

theorem nextWith_m {mode : Overflow} {grams : GramsOps} {st st' : ElectionState} {qty : Nat} {v : Validator}
    (h : st.nextWith mode grams qty v = .ok st') : st'.m = st.m ∨ st'.m = qty + 1 := by
  unfold ElectionState.nextWith at h
  obtain ⟨whole, -, h⟩ := bind_eq_ok h
  dsimp only at h
  split at h
  · cases h
  · obtain ⟨cut, -, h⟩ := bind_eq_ok h
    obtain ⟨product, -, h⟩ := bind_eq_ok h
    obtain ⟨shifted, -, h⟩ := bind_eq_ok h
    obtain ⟨total, -, h⟩ := bind_eq_ok h
    split at h
    · cases h
      exact .inr rfl
    · cases h
      exact .inl rfl

theorem searchWith_m_le {mode : Overflow} {grams : GramsOps} {st st' : ElectionState} {qty : Nat}
    {validators : List Validator} (h : ElectionState.searchWith mode grams qty validators st = .ok st')
    (hm : st.m ≤ qty) : st'.m ≤ qty + validators.length := by
  induction validators generalizing qty st with
  | nil =>
    cases h
    exact hm
  | cons v validators ih =>
    obtain ⟨next, hnext, hrest⟩ := bind_eq_ok h
    have hm' : next.m ≤ qty + 1 := by
      rcases nextWith_m hnext with h | h <;> omega
    have := ih hrest hm'
    rw [List.length_cons]
    omega

theorem take_limitStakes (m mStake : Nat) (validators : List Validator) :
    (limitStakes m mStake validators).take m = (validators.take m).map (limitStake mStake) := by
  rw [limitStakes, List.take_append, List.length_map, List.length_take]
  rcases le_total m validators.length with hle | hle
  · rw [min_eq_left hle, Nat.sub_self, List.take_zero, List.append_nil, List.take_of_length_le]
    rw [List.length_map, List.length_take]
    exact min_le_left _ _
  · rw [List.drop_of_length_le hle, List.take_nil, List.append_nil, List.take_of_length_le]
    rw [List.length_map, List.length_take]
    exact min_le_left _ _

theorem trueStake_limitStake_lt (mStake : Nat) (v : Validator) :
    (limitStake mStake v).trueStake < 2 ^ 112 := by
  have hlt : u128 (mStake * v.maxFactor.toNat) < 2 ^ 112 * 2 ^ 16 := Nat.mod_lt _ (by decide)
  refine (min_le_right _ _).trans_lt ?_
  rw [Nat.shiftRight_eq_div_pow]
  exact Nat.div_lt_of_lt_mul ((mul_comm _ _).trans_gt hlt)

/-- The true stakes of the elected validators add up without an overflow. -/
theorem sum_trueStake_lt {m mStake : Nat} (hm : m < 2 ^ 16) (validators : List Validator) :
    ((((limitStakes m mStake validators).take m)).map (·.trueStake)).sum < 2 ^ 128 := by
  rw [take_limitStakes, List.map_map]
  have hbound : (((validators.take m).map ((·.trueStake) ∘ limitStake mStake)).sum ≤
      ((validators.take m).map ((·.trueStake) ∘ limitStake mStake)).length • (2 ^ 112 : Nat)) :=
    List.sum_le_card_nsmul _ _ fun n hn => by
      obtain ⟨v, -, rfl⟩ := List.mem_map.1 hn
      exact (trueStake_limitStake_lt mStake v).le
  rw [List.length_map, List.length_take, smul_eq_mul] at hbound
  have hle : min m validators.length * 2 ^ 112 ≤ (2 ^ 16 - 1) * 2 ^ 112 :=
    Nat.mul_le_mul_right _ (by omega)
  omega

theorem u128_eq_ok {mode : Overflow} {n c : Nat} (h : mode.u128 n = .ok c) : c = u128 n := by
  cases mode with
  | wrap => exact (Except.ok.inj h).symm
  | panic =>
    unfold Overflow.u128 at h
    dsimp only at h
    split_ifs at h with hlt
    exact (Except.ok.inj h).symm.trans (Nat.mod_eq_of_lt hlt).symm

theorem limitStakesWith_list {mode : Overflow} {mStake m sum best : Nat}
    {validators limited : List Validator}
    (h : limitStakesWith mode mStake m validators sum = .ok (limited, best)) :
    limited = limitStakes m mStake validators := by
  induction validators generalizing m sum limited best with
  | nil => cases m <;> cases h <;> rfl
  | cons v validators ih =>
    cases m with
    | zero =>
      cases h
      rfl
    | succ m =>
      obtain ⟨limit, hlimit, h⟩ := bind_eq_ok h
      obtain ⟨sum', -, h⟩ := bind_eq_ok h
      obtain ⟨⟨rest, best'⟩, hrest, h⟩ := bind_eq_ok h
      cases h
      rw [ih hrest, u128_eq_ok hlimit]
      rfl

/-- The sum of the true stakes of the elected validators, whatever an overflow does. -/
theorem limitStakesWith_best {mode : Overflow} {mStake m best : Nat} (hm : m < 2 ^ 16)
    {validators limited : List Validator}
    (h : limitStakesWith mode mStake m validators 0 = .ok (limited, best)) :
    ((limited.take m).map (·.trueStake)).sum = best := by
  have hsum := limitStakesWith_sum h
  have hlt : ((limited.take m).map (·.trueStake)).sum < 2 ^ 128 := by
    rw [limitStakesWith_list h]
    exact sum_trueStake_lt hm validators
  rw [sumTrueStakes_of_lt mode (by rwa [Nat.zero_add]), Nat.zero_add] at hsum
  exact Except.ok.inj hsum

/-- The validators that the search looks at. -/
def searched (validators : List Validator) (cfg16 : ConfigParam16) : List Validator :=
  (sortValidators validators).take (min cfg16.maxValidators.toNat validators.length)

theorem length_searched (validators : List Validator) (cfg16 : ConfigParam16) :
    (searched validators cfg16).length = min cfg16.maxValidators.toNat validators.length := by
  rw [searched, List.length_take, (sortValidators_perm validators).length_eq, min_assoc, min_self]

theorem length_searched_le (validators : List Validator) (cfg16 : ConfigParam16) :
    (searched validators cfg16).length ≤ 2 ^ 16 := by
  have hmax := cfg16.maxValidators.toNat_lt
  rw [length_searched]
  omega

theorem decreasing_searched (validators : List Validator) (cfg16 : ConfigParam16) :
    Decreasing ([] ++ searched validators cfg16) :=
  (decreasing_sortValidators validators).sublist (List.take_sublist _ _)

theorem m_le_of_search {mode : Overflow} {grams : GramsOps} {validators : List Validator} {cfg16 : ConfigParam16}
    {st : ElectionState}
    (h : ElectionState.searchWith mode grams 0 (searched validators cfg16) {} = .ok st) :
    st.m < 2 ^ 16 ∧ st.m ≤ validators.length := by
  have hle := searchWith_m_le h (Nat.le_refl 0)
  have hmax := cfg16.maxValidators.toNat_lt
  rw [length_searched] at hle
  omega

/-- The validators that are elected after a search. -/
def electedBy (validators : List Validator) (st : ElectionState) : List Validator :=
  (limitStakes st.m st.mStake (sortValidators validators)).take st.m

theorem length_electedBy {mode : Overflow} {grams : GramsOps} {validators : List Validator} {cfg16 : ConfigParam16}
    {st : ElectionState}
    (h : ElectionState.searchWith mode grams 0 (searched validators cfg16) {} = .ok st) :
    (electedBy validators st).length = st.m := by
  rw [electedBy, take_limitStakes, List.length_map, List.length_take,
    (sortValidators_perm validators).length_eq]
  exact min_eq_left (m_le_of_search h).2

section Elections

variable [TonTypes]

/-- An election that returns: what the search found, the validators with their true stakes, and the
result. -/
structure Held (mode : Overflow) (grams : GramsOps) (validators : List Validator) (cfg16 : ConfigParam16)
    (credits : Option Cell) (st : ElectionState) (limited : List Validator)
    (result : ElectionResult) : Prop where
  search : ElectionState.searchWith mode grams 0 (searched validators cfg16) {} = .ok st
  some : st.m ≠ 0
  limits : limitStakesWith mode st.mStake st.m (sortValidators validators) 0 =
    .ok (limited, result.totalStake)
  elects : Elects mode result.totalStake (limited.take st.m) { credits := ⟨32 + 256, credits⟩ } result

/-- What holds of every settlement holds of every election. -/
theorem ensures_calculateElectionsWith {mode : Overflow} {grams : GramsOps} {report : ElectionError → Failure}
    {credits : Option Cell} {Q : Nat → Nat → List Validator → ElectionResult → Prop}
    (hQ : ∀ best m limited, Engine.Ensures (ElectionResult.settleWith mode report best m limited
      { credits := ⟨32 + 256, credits⟩ }) (Q best m limited))
    (validators : List Validator) (cfg16 : ConfigParam16) (cfg17 : ConfigParam17) :
    Engine.Ensures (calculateElectionsWith mode grams report credits validators cfg16 cfg17) fun result =>
      ∃ st limited, Held mode grams validators cfg16 credits st limited result ∧
        Q result.totalStake st.m limited result := by
  unfold calculateElectionsWith
  refine .ite (fun _ => .fail _) fun _ => ?_
  refine .bind (.lift fun _ h => h) fun st hsearch => ?_
  unfold concludeWith
  refine .ite (fun _ => .fail _) fun hstake => ?_
  refine .bind (.lift fun _ h => h) fun ⟨limited, best⟩ hlimit => .ite (fun _ => .fail _) fun _ => ?_
  refine .bind ((Engine.Ensures.of_all (settleWith_all mode report best st.m limited _)).and
    (hQ best st.m limited)) fun result hresult => .ite (fun _ => .fail _) fun htotal => .pure ?_
  rw [not_not] at htotal
  subst htotal
  exact ⟨st, limited, ⟨hsearch, fun hm => hstake (.inl hm), hlimit, hresult.1⟩, hresult.2⟩

section Held

variable {mode : Overflow} {grams : GramsOps} {validators : List Validator} {cfg16 : ConfigParam16}
  {credits : Option Cell} {st : ElectionState} {limited : List Validator} {result : ElectionResult}

theorem Held.elected (h : Held mode grams validators cfg16 credits st limited result) :
    limited.take st.m = electedBy validators st := by
  rw [limitStakesWith_list h.limits, electedBy]

theorem Held.length_elected (h : Held mode grams validators cfg16 credits st limited result) :
    (limited.take st.m).length = st.m := by
  rw [h.elected]
  exact length_electedBy h.search

theorem Held.sum (h : Held mode grams validators cfg16 credits st limited result) :
    ((limited.take st.m).map (·.trueStake)).sum = result.totalStake :=
  limitStakesWith_best (m_le_of_search h.search).1 h.limits

theorem Held.pos (h : Held mode grams validators cfg16 credits st limited result) :
    0 < result.totalStake := by
  refine Nat.pos_of_ne_zero (h.elects.bestStake fun hnil => h.some ?_)
  rw [← h.length_elected, hnil, List.length_nil]

/-- The weights that an election gives to the elected validators. -/
structure Weighs (elected : List Validator) (result : ElectionResult) : Prop where
  pos : 0 < result.totalStake
  totalStake : result.totalStake = (elected.map (·.trueStake)).sum
  list : result.list = elected.map fun v =>
    ⟨v.key.pubKey, v.trueStake * 2 ^ 60 / result.totalStake, v.adnlAddr⟩
  le : ∀ descr ∈ result.list, descr.weight ≤ 2 ^ 60
  totalWeight : result.totalWeight = (result.list.map (·.weight)).sum
  totalWeight_le : result.totalWeight ≤ 2 ^ 60
  lt_totalWeight : 2 ^ 60 < result.totalWeight + elected.length
  monotone : ∀ v ∈ elected, ∀ w ∈ elected, v.trueStake ≤ w.trueStake →
    v.trueStake * 2 ^ 60 / result.totalStake ≤ w.trueStake * 2 ^ 60 / result.totalStake

theorem Held.weighs (h : Held mode grams validators cfg16 credits st limited result) :
    Weighs (limited.take st.m) result := by
  have hlist : result.list = (limited.take st.m).map (validatorDescr result.totalStake) := h.elects.list
  obtain ⟨hle, hlt⟩ := sum_stakeWeight h.sum h.pos
  have hweight : result.totalWeight = ((limited.take st.m).map (stakeWeight result.totalStake)).sum := by
    have hsum := h.elects.totalWeight
    rw [sumWeights_of_lt mode (by show 0 + _ < _; omega)] at hsum
    exact (Except.ok.inj hsum).symm.trans (Nat.zero_add _)
  have hsome := h.some
  rw [← hweight] at hle hlt
  rw [h.length_elected] at hlt
  refine ⟨h.pos, h.sum.symm, hlist, fun descr hdescr => ?_, ?_, hle, ?_, fun v _ w _ hvw => ?_⟩
  · rw [hlist] at hdescr
    obtain ⟨v, hv, rfl⟩ := List.mem_map.1 hdescr
    exact stakeWeight_le h.sum hv
  · rw [hweight, hlist, List.map_map]
    rfl
  · rw [h.length_elected]
    omega
  · exact Nat.div_le_div_right (Nat.mul_le_mul_right _ hvw)

end Held

/-! ### The error of a weight -/

theorem electWith_congr_of_le {mode : Overflow} (report report' : ElectionError → Failure)
    {bestStake : Nat} {v : Validator} (h : v.trueStake ≤ bestStake) (result : ElectionResult) :
    result.electWith mode report bestStake v = result.electWith mode report' bestStake v := by
  have hfits : ¬2 ^ 64 ≤ v.trueStake * 2 ^ 60 / bestStake := by
    have : v.trueStake * 2 ^ 60 / bestStake ≤ 2 ^ 60 :=
      Nat.div_le_of_le_mul (Nat.mul_le_mul_right _ h)
    omega
  unfold ElectionResult.electWith
  refine bind_congr fun totalStake => ?_
  dsimp only
  rw [if_neg hfits, if_neg hfits]

theorem settleWith_congr_of_le {mode : Overflow} (report report' : ElectionError → Failure)
    {bestStake m : Nat} {validators : List Validator}
    (h : ∀ v ∈ validators.take m, v.trueStake ≤ bestStake) (result : ElectionResult) :
    ElectionResult.settleWith mode report bestStake m validators result =
      ElectionResult.settleWith mode report' bestStake m validators result := by
  induction validators generalizing m result with
  | nil => rfl
  | cons v validators ih =>
    unfold ElectionResult.settleWith
    refine bind_congr fun credited => ?_
    cases m with
    | zero => exact ih (fun v hv => absurd hv List.not_mem_nil) credited
    | succ m =>
      rw [List.take_succ_cons, List.forall_mem_cons] at h
      dsimp only
      rw [electWith_congr_of_le report report' h.1]
      exact bind_congr fun r => ih h.2 r

/-- What is reported for a weight that does not fit does not matter. -/
theorem calculateElectionsWith_weight (mode : Overflow) (grams : GramsOps)
    {report report' : ElectionError → Failure} (h : ∀ error, error ≠ .weight → report error = report' error) (credits : Option Cell)
    (validators : List Validator) (cfg16 : ConfigParam16) (cfg17 : ConfigParam17) :
    calculateElectionsWith mode grams report credits validators cfg16 cfg17 =
      calculateElectionsWith mode grams report' credits validators cfg16 cfg17 := by
  unfold calculateElectionsWith
  rw [h .notEnough nofun]
  split
  · rfl
  · refine GasMOf.All.bind_congr (all_liftM _) fun st hsearch => ?_
    unfold concludeWith
    rw [h .stake nofun, h .differ nofun, h .total nofun]
    split
    · rfl
    · refine GasMOf.All.bind_congr (all_liftM _) fun ⟨limited, best⟩ hlimit => ?_
      have hsum := limitStakesWith_best (m_le_of_search hsearch).1 hlimit
      dsimp only
      rw [settleWith_congr_of_le report report' fun v hv => trueStake_le hsum hv]

/-- The weights of every election that returns, and that the error of a weight is never returned: an
election is the same whatever is reported for it. -/
theorem validator_weights (mode : Overflow) (grams : GramsOps) (report : ElectionError → Failure) (credits : Option Cell)
    (validators : List Validator) (cfg16 : ConfigParam16) (cfg17 : ConfigParam17) :
    (∀ e result t, exec (Engine.runGas
        (calculateElectionsWith mode grams report credits validators cfg16 cfg17)) e = (.ok result, t) →
      ∃ st, ElectionState.searchWith mode grams 0 (searched validators cfg16) {} = .ok st ∧
        (electedBy validators st).length = st.m ∧ Weighs (electedBy validators st) result) ∧
    ∀ report' : ElectionError → Failure, (∀ error, error ≠ .weight → report error = report' error) →
      calculateElectionsWith mode grams report credits validators cfg16 cfg17 =
        calculateElectionsWith mode grams report' credits validators cfg16 cfg17 := by
  refine ⟨fun e result t h => ?_, fun report' hreport =>
    calculateElectionsWith_weight mode grams hreport credits validators cfg16 cfg17⟩
  obtain ⟨st, limited, hheld, -⟩ := ensures_calculateElectionsWith (Q := fun _ _ _ _ => True)
    (fun _ _ _ _ _ _ _ => trivial) validators cfg16 cfg17 e result t h
  refine ⟨st, hheld.search, ?_⟩
  rw [← hheld.elected]
  exact ⟨hheld.length_elected, hheld.weighs⟩

end Elections

section Concrete

open scoped Plain

theorem sortValidators_pair : sortValidators pair = pair := List.mergeSort_of_pairwise (by decide)

theorem wrapping_pair_isOk : (exec (Engine.runGas (calculateElectionsWith .wrap Overflow.wrap.grams
    (fun _ => .code .fatalError) none pair ⟨100, 100, 1⟩ ⟨0, 10, 1⟩)) Plain.idle).1.isOk = true := by
  unfold calculateElectionsWith
  rw [sortValidators_pair]
  decide +kernel

theorem validator_weights_pair : ∃ result st,
    ElectionState.searchWith .wrap Overflow.wrap.grams 0 (searched pair ⟨100, 100, 1⟩) {} = .ok st ∧
    (electedBy pair st).length = st.m ∧ Weighs (electedBy pair st) result := by
  obtain ⟨result, hresult⟩ := Engine.exists_of_isOk wrapping_pair_isOk
  exact ⟨_, (validator_weights .wrap _ _ none pair _ _).1 _ _ _ hresult⟩

end Concrete

end TonVm
