import TonVm.Proof.Calm
import TonVm.Proof.ElectionCredits

/-!
# Panics of an election

With checked arithmetic an election panics where a number does not fit, and in any build where it
divides by zero: at a validator whose factor is zero, and where the stakes of the elected validators are
limited to nothing. All of it can be reached with contracts that are accepted. The operators of `Grams`
may do anything where an amount exceeds a bound; below it they are exact. What an election then needs is
told here without running it, and it is exactly what is needed: where it is not met, the checked build
panics, unless a method of the packages fails before.
-/

namespace TonVm

open ExecLib FiniteMap Apportion

/-! ### Computations that do not panic -/

/-- The methods that an election reads and writes with do not panic. -/
class CalmStores [TonTypes] : Prop where
  appendBits : ∀ builder value n, Calm (TonTypes.appendBits builder value n)
  appendRaw : ∀ builder bytes n, Calm (TonTypes.appendRaw builder bytes n)
  builderIntoCell : ∀ builder, Calm (TonTypes.builderIntoCell builder)
  getNextInt : ∀ slice n, Calm (TonTypes.getNextInt slice n)
  updateWithGas : ∀ mode dict key value, CalmGas (TonTypes.updateWithGas mode dict key value)

attribute [instance] CalmStores.appendBits CalmStores.appendRaw CalmStores.builderIntoCell
  CalmStores.getNextInt

namespace Engine

variable [TonTypes] {α β : Type}

/-- No run of a computation panics. -/
def Survives (m : GasM α) : Prop := ∀ e t, exec (runGas m) e ≠ (.error .panic, t)

namespace Survives

variable {m n : GasM α} {f : α → GasM β} {Q : α → Prop}

theorem pure (a : α) : Survives (pure a : GasM α) := by
  intro e t h
  cases h

theorem bind (hm : Survives m) (hQ : Ensures m Q) (hf : ∀ a, Q a → Survives (f a)) :
    Survives (m >>= f) := by
  intro e t h
  rw [runGas_bind, exec_bind] at h
  rcases hs : exec (runGas m) e with ⟨_ | a, s⟩
  · rw [hs] at h
    cases h
    exact hm e _ hs
  · rw [hs] at h
    exact hf a (hQ e a s hs) s t h

theorem ite {c : Prop} [Decidable c] (hm : c → Survives m) (hn : ¬c → Survives n) :
    Survives (if c then m else n) := by
  split
  · exact hm ‹_›
  · exact hn ‹_›

theorem of_calm [CalmTypes] (h : CalmGas m) : Survives m :=
  fun e t hexec => (avoids_runGas h).out e _ t hexec rfl

theorem lift [CalmTypes] (x : Except Failure α) [Calm x] : Survives (liftM x) := of_calm (.lift x)

end Survives

end Engine

/-- The settlement of an election of the first `m` validators, with the least stake `mStake`. -/
def settlement [TonTypes] (credits : Option Cell) (validators : List Validator) (m mStake : Nat) :
    GasM ElectionResult :=
  ElectionResult.settleWith .panic (fun _ => .code .fatalError)
    (((limitStakes m mStake (sortValidators validators)).take m).map (·.trueStake)).sum m
    (limitStakes m mStake (sortValidators validators)) { credits := ⟨32 + 256, credits⟩ }

/-! ### What a settlement needs -/

theorem sum_trueStake {m mStake : Nat} {validators : List Validator}
    (h : LimitsFit mStake (validators.take m)) :
    (((limitStakes m mStake validators).take m).map (·.trueStake)).sum =
      acceptedStake mStake (validators.take m) := by
  rw [take_limitStakes, List.map_map, acceptedStake]
  refine congrArg List.sum (List.map_congr_left fun v hv => ?_)
  rw [Function.comp_apply, limitStake_of_fits (h v hv)]

theorem limitStakesWith_of_limitsFit {m mStake : Nat} (hm : m < 2 ^ 16) {validators : List Validator}
    (h : LimitsFit mStake (validators.take m)) :
    limitStakesWith .panic mStake m validators 0 = .ok (limitStakes m mStake validators,
      (((limitStakes m mStake validators).take m).map (·.trueStake)).sum) := by
  have hlt : (((limitStakes m mStake validators).take m).map (·.trueStake)).sum < 2 ^ 128 :=
    sum_trueStake_lt hm _
  rw [sum_trueStake h] at hlt ⊢
  rw [limitStakesWith_of_fits h (by rwa [Nat.zero_add]), Nat.zero_add]

section Fits

variable [TonTypes] [Views] [DictView]

/-- The sums of a settlement fit, and no share is one of nothing. -/
structure SettlementFits (bestStake m : Nat) (validators : List Validator) (result : ElectionResult) :
    Prop where
  isCredits : IsCredits result.credits
  le : ∀ v ∈ validators, v.trueStake ≤ v.key.stake ∧ v.key.stake < 2 ^ 128
  credit : ∀ key, creditAt result.credits key +
    ((validators.filter fun v => addrBits v.addr = key).map leftover).sum < 2 ^ 128
  best : ∀ v ∈ validators.take m, v.trueStake ≤ bestStake ∧ bestStake ≠ 0
  totalStake : result.totalStake + ((validators.take m).map (·.trueStake)).sum < 2 ^ 128
  totalWeight : result.totalWeight + ((validators.take m).map (stakeWeight bestStake)).sum < 2 ^ 64

/-- What an election of the first `m` validators needs: the limits of the stakes fit, the accepted stake
is not zero, and every credit fits after what is left over has been added to it. -/
structure SharesFit (credits : Option Cell) (validators : List Validator) (m mStake : Nat) : Prop where
  limits : LimitsFit mStake ((sortValidators validators).take m)
  best : acceptedStake mStake ((sortValidators validators).take m) ≠ 0
  credit : ∀ key, creditAt ⟨32 + 256, credits⟩ key +
    (((limitStakes m mStake (sortValidators validators)).filter
      fun v => addrBits v.addr = key).map leftover).sum < 2 ^ 128

/-- What an election needs: there are too few validators; or no factor is zero, and at the first number
of validators with the greatest total the stake is not enough or the shares fit. -/
def ElectionFits (credits : Option Cell) (validators : List Validator) (cfg16 : ConfigParam16)
    (cfg17 : ConfigParam17) : Prop :=
  validators.length < cfg16.minValidators.toNat ∨
  (∀ v ∈ searched validators cfg16, v.maxFactor ≠ 0) ∧
    ∀ m, FirstMax (prefixTotal (searched validators cfg16)) (searched validators cfg16).length m →
      (m = 0 ∨ prefixTotal (searched validators cfg16) m < cfg17.minTotalStake) ∨
        SharesFit credits validators m (lastStake ((searched validators cfg16).take m))

namespace SettlementFits

variable {bestStake m : Nat} {v : Validator} {validators : List Validator}
  {result credited elected : ElectionResult}

theorem creditHead (h : SettlementFits bestStake m (v :: validators) result) :
    leftover v + creditAt result.credits (addrBits v.addr) < 2 ^ 128 := by
  have hsum := h.credit (addrBits v.addr)
  rw [List.filter_cons_of_pos (by simp), List.map_cons, List.sum_cons] at hsum
  omega

/-- What the credit of one validator leaves for the others. -/
theorem creditTail (h : SettlementFits bestStake m (v :: validators) result)
    (hcredits : Credits [v] result.credits credited.credits) (key : List Bool) :
    creditAt credited.credits key +
      ((validators.filter fun v => addrBits v.addr = key).map leftover).sum < 2 ^ 128 := by
  have hsum := h.credit key
  rw [hcredits.credit key]
  rw [List.filter_cons] at hsum ⊢
  split_ifs at hsum ⊢
  · simpa [Nat.add_assoc] using hsum
  · simpa using hsum

theorem tail (h : SettlementFits bestStake 0 (v :: validators) result)
    (hcredits : Credits [v] result.credits credited.credits)
    (hcredited : credited = { result with credits := credited.credits }) :
    SettlementFits bestStake 0 validators credited := by
  refine ⟨hcredits.isCredits, fun u hu => h.le u (List.mem_cons_of_mem v hu), h.creditTail hcredits,
    nofun, ?_, ?_⟩
  · rw [hcredited]
    exact h.totalStake
  · rw [hcredited]
    exact h.totalWeight

theorem tailElected (h : SettlementFits bestStake (m + 1) (v :: validators) result)
    (hcredits : Credits [v] result.credits credited.credits)
    (hcredited : credited = { result with credits := credited.credits })
    (hsame : elected.credits = credited.credits) (helects : Elects .panic bestStake [v] credited elected) :
    SettlementFits bestStake m validators elected := by
  have hstake := h.totalStake
  have hweight := h.totalWeight
  have hbest := h.best
  rw [List.take_succ_cons, List.map_cons, List.sum_cons, ← Nat.add_assoc] at hstake hweight
  rw [List.take_succ_cons, List.forall_mem_cons] at hbest
  obtain ⟨stake, hstakes, hstake'⟩ := bind_eq_ok helects.totalStake
  obtain ⟨weight, hweights, hweight'⟩ := bind_eq_ok helects.totalWeight
  rw [u128_of_lt .panic (by rw [hcredited]; exact hstake.trans_le' (Nat.le_add_right _ _))] at hstakes
  rw [u64_of_lt .panic (by rw [hcredited]; exact hweight.trans_le' (Nat.le_add_right _ _))] at hweights
  cases hstakes
  cases hweights
  refine ⟨hsame ▸ hcredits.isCredits, fun u hu => h.le u (List.mem_cons_of_mem v hu), fun key => ?_,
    hbest.2, ?_, ?_⟩
  · rw [hsame]
    exact h.creditTail hcredits key
  · rw [← Except.ok.inj hstake', hcredited]
    exact hstake
  · rw [← Except.ok.inj hweight', hcredited]
    exact hweight

end SettlementFits

theorem settlementFits {credits : Option Cell} {validators : List Validator} {m mStake : Nat}
    (hcredits : IsCredits ⟨32 + 256, credits⟩) (hfresh : ∀ v ∈ validators, v.Fresh)
    (hm : m < 2 ^ 16) (h : SharesFit credits validators m mStake) :
    SettlementFits (((limitStakes m mStake (sortValidators validators)).take m).map (·.trueStake)).sum m
      (limitStakes m mStake (sortValidators validators)) { credits := ⟨32 + 256, credits⟩ } := by
  have hbest : (((limitStakes m mStake (sortValidators validators)).take m).map (·.trueStake)).sum ≠
      0 := by
    rw [sum_trueStake h.limits]
    exact h.best
  have hweights := (sum_stakeWeight rfl (Nat.pos_of_ne_zero hbest)).1
  refine ⟨hcredits, fun v hv => ⟨trueStake_le_stake hfresh _ _ hv, ?_⟩, h.credit,
    fun v hv => ⟨trueStake_le rfl hv, hbest⟩, ?_, ?_⟩
  · exact (limited_of_fresh hfresh _ _ hv).stake
  · show 0 + _ < _
    rw [Nat.zero_add]
    exact sum_trueStake_lt hm _
  · show 0 + _ < _
    omega

variable [LawfulViews] [LawfulStores]

/-- A settlement that returns has fitted. -/
theorem sharesFit_of_settlement {credits : Option Cell} (hcredits : IsCredits ⟨32 + 256, credits⟩)
    {validators : List Validator} (hfresh : ∀ v ∈ validators, v.Fresh) {m mStake : Nat} (hm : m ≠ 0)
    (hlen : m ≤ validators.length) (hlimits : LimitsFit mStake ((sortValidators validators).take m))
    {e t : Engine} {result : ElectionResult}
    (h : exec (Engine.runGas (settlement credits validators m mStake)) e = (.ok result, t)) :
    SharesFit credits validators m mStake := by
  have helects := Engine.exec_runGas_of_all (settleWith_all .panic _ _ _ _ _) h
  have hadded := ensures_settleWith_credits _ _ _
    (fun v hv => (limited_of_fresh hfresh _ _ hv).stake) hcredits e result t h
  have hbest := helects.bestStake fun hnil => hm ?_
  · refine ⟨hlimits, ?_, fun key => ?_⟩
    · rwa [sum_trueStake hlimits] at hbest
    · rw [← hadded.credit key]
      exact creditAt_lt _ _
  · have hzero := congrArg List.length hnil
    rw [take_limitStakes, List.length_map, List.length_take, (sortValidators_perm validators).length_eq,
      min_eq_left hlen] at hzero
    exact hzero

theorem sharesFit_of_not_panic {credits : Option Cell} (hcredits : IsCredits ⟨32 + 256, credits⟩)
    {validators : List Validator} (hfresh : ∀ v ∈ validators, v.Fresh) {cfg16 : ConfigParam16}
    {cfg17 : ConfigParam17} {st : ElectionState} (htracks : Tracks (searched validators cfg16) st)
    (hstake : ¬(st.m = 0 ∨ st.bestStake < cfg17.minTotalStake)) {e : Engine}
    (hworks : ∀ err t, exec (Engine.runGas (settlement credits validators st.m st.mStake)) e =
      (.error err, t) → err = .panic)
    (h : ∀ t, exec (Engine.runGas (concludeWith .panic (fun _ => .code .fatalError) credits
      (sortValidators validators) cfg17 st)) e ≠ (.error .panic, t)) :
    SharesFit credits validators st.m st.mStake := by
  have hmax := cfg16.maxValidators.toNat_lt
  have hle := htracks.best.le
  rw [length_searched] at hle
  unfold concludeWith at h
  rw [if_neg hstake] at h
  have hlimits : LimitsFit st.mStake ((sortValidators validators).take st.m) := by
    by_contra hlimits
    rw [limitStakesWith_of_not_fits (by decide) fun hfits => hlimits hfits.1] at h
    exact h e rfl
  have hdiffer := Tracks.not_differ htracks (by omega)
  rw [← sum_trueStake hlimits] at hdiffer
  rw [limitStakesWith_of_limitsFit (by omega) hlimits, bind_lift_ok] at h
  dsimp only at h
  rw [if_neg hdiffer, Engine.runGas_bind, ← settlement] at h
  rcases hrun : exec (Engine.runGas (settlement credits validators st.m st.mStake)) e with ⟨err | result, t⟩
  · rw [hworks err t hrun] at hrun
    exact absurd (exec_bind_error hrun) (h t)
  · exact sharesFit_of_settlement hcredits hfresh (fun hm => hstake (.inl hm)) (by omega) hlimits hrun

/-- An election that does not panic where nothing else fails has fitted. -/
theorem electionFits_of_not_panic {grams : GramsOps} {bound : Nat} (hgrams : grams.Exact bound)
    {credits : Option Cell} (hcredits : IsCredits ⟨32 + 256, credits⟩) {validators : List Validator}
    (hfresh : ∀ v ∈ validators, v.Fresh) {cfg16 : ConfigParam16} {cfg17 : ConfigParam17}
    (hbound : FitsFrom (GramsFit bound) [] (searched validators cfg16)) {e : Engine}
    (hworks : ∀ m, FirstMax (prefixTotal (searched validators cfg16))
        (searched validators cfg16).length m → ∀ err t,
      exec (Engine.runGas (settlement credits validators m
        (lastStake ((searched validators cfg16).take m)))) e = (.error err, t) → err = .panic)
    (h : ∀ t, exec (Engine.runGas (calculateElectionsWith .panic grams (fun _ => .code .fatalError)
      credits validators cfg16 cfg17)) e ≠ (.error .panic, t)) :
    ElectionFits credits validators cfg16 cfg17 := by
  by_cases hlen : validators.length < cfg16.minValidators.toNat
  · exact .inl hlen
  have hdec := decreasing_searched validators cfg16
  unfold calculateElectionsWith at h
  rw [if_neg hlen] at h
  dsimp only at h
  rw [← searched] at h
  rcases searchWith_of_gramsFit hdec tracks_nil hgrams hbound (length_searched_le validators cfg16) with
    ⟨hfactors, hfits⟩ | ⟨-, hpanic⟩
  · obtain ⟨st, hsearch, htracks⟩ := searchWith_of_fits hdec tracks_nil hgrams hfits
    rw [List.length_nil] at hsearch
    rw [List.nil_append] at htracks
    refine .inr ⟨hfactors, fun m hm => ?_⟩
    rw [htracks.best.unique hm, ← htracks.bestStake, ← htracks.mStake]
    rw [hsearch, bind_lift_ok] at h
    by_cases hstake : st.m = 0 ∨ st.bestStake < cfg17.minTotalStake
    · exact .inl hstake
    · have hworks := hworks st.m htracks.best
      rw [← htracks.mStake] at hworks
      exact .inr (sharesFit_of_not_panic hcredits hfresh htracks hstake hworks h)
  · rw [List.length_nil] at hpanic
    rw [hpanic] at h
    exact absurd rfl (h e)

end Fits

/-! ### A settlement that does not panic -/

section Settlement

variable [TonTypes] [CalmTypes] [CalmStores]

instance (addr : SimpleAddress) : Calm addr.write := by
  unfold SimpleAddress.write
  infer_instance

theorem survives_electWith (report : ElectionError → Failure) {result : ElectionResult}
    {bestStake : Nat} (hbest : bestStake ≠ 0) {v : Validator} (hle : v.trueStake ≤ bestStake)
    (hstake : result.totalStake + v.trueStake < 2 ^ 128)
    (hweight : result.totalWeight + stakeWeight bestStake v < 2 ^ 64) :
    Engine.Survives (result.electWith .panic report bestStake v) := by
  have hfits : ¬2 ^ 64 ≤ v.trueStake * 2 ^ 60 / bestStake := by
    have : v.trueStake * 2 ^ 60 / bestStake ≤ 2 ^ 60 :=
      Nat.div_le_of_le_mul (Nat.mul_le_mul_right _ hle)
    omega
  unfold ElectionResult.electWith
  rw [u128_of_lt .panic hstake, bind_lift_ok, if_neg hbest]
  dsimp only
  rw [if_neg hfits, ← stakeWeight, u64_of_lt .panic hweight, bind_lift_ok]
  exact .of_calm (.bind (.lift _) fun _ => .bind (.lift _) fun _ => .bind (.lift _) fun _ =>
    .bind (.lift _) fun _ => .bind (CalmStores.updateWithGas _ _ _ _) fun _ => .pure _)

variable [Views] [LawfulViews] [DictView] [LawfulStores]

theorem survives_creditWith {result : ElectionResult} (hcredits : IsCredits result.credits)
    {v : Validator} (hle : v.trueStake ≤ v.key.stake)
    (hfits : leftover v + creditAt result.credits (addrBits v.addr) < 2 ^ 128) :
    Engine.Survives (result.creditWith .panic v) := by
  have hsub : Overflow.panic.sub v.key.stake v.trueStake = .ok (leftover v) := if_pos hle
  have hwrite (key : SliceData) (value : Nat) : CalmGas (writeCredit result key value) :=
    .bind (.lift _) fun _ => .bind (CalmStores.updateWithGas _ _ _ _) fun _ => .pure _
  unfold ElectionResult.creditWith
  rw [hsub, bind_lift_ok]
  refine .ite (fun _ => .pure _) fun _ => ?_
  refine .bind (.lift _) (.lift fun _ => builderBits_of_write) fun builder hbuilder => ?_
  refine .bind (.lift _) (.lift fun _ h => h) fun cell hcell => ?_
  refine .bind (.lift _) (.lift fun _ h => h) fun key hkey => ?_
  have hbits : sliceBits key = addrBits v.addr :=
    (LawfulStores.loadCell builder cell key hcell hkey).trans hbuilder
  have hwidth : (sliceBits key).length = result.credits.bitLen := by
    rw [hbits, length_addrBits, hcredits.bitLen]
  refine .bind (.of_calm (CalmTypes.getWithGas _ _))
    (LawfulStores.getWithGas _ _ hcredits.isDict hwidth) fun found hfound => ?_
  rw [hbits] at hfound
  cases found with
  | none => exact .of_calm (hwrite key _)
  | some data =>
    refine .bind (.lift _) (.lift fun _ h => h) fun r hread => ?_
    obtain ⟨credit, after⟩ := r
    have hcredit : credit = creditAt result.credits (addrBits v.addr) := by
      rw [creditValue_of_getNextInt hread, creditAt, ← hfound]
      rfl
    dsimp only
    rw [u128_of_lt .panic (hcredit ▸ hfits), bind_lift_ok]
    exact .of_calm (hwrite key _)

/-- A settlement that fits does not panic. -/
theorem survives_settleWith (report : ElectionError → Failure) {bestStake m : Nat}
    {validators : List Validator} {result : ElectionResult}
    (h : SettlementFits bestStake m validators result) :
    Engine.Survives (ElectionResult.settleWith .panic report bestStake m validators result) := by
  induction validators generalizing m result with
  | nil => exact .pure _
  | cons v validators ih =>
    obtain ⟨hle, hlt⟩ := h.le v List.mem_cons_self
    unfold ElectionResult.settleWith
    refine .bind (survives_creditWith h.isCredits hle h.creditHead)
      ((ensures_creditWith h.isCredits v hlt).and (.of_all (creditWith_all .panic result v)))
      fun credited h' => ?_
    obtain ⟨hcredits, hcredited⟩ := h'
    cases m with
    | zero => exact ih (h.tail hcredits hcredited)
    | succ m =>
      have hbest := h.best v List.mem_cons_self
      have hstake := h.totalStake
      have hweight := h.totalWeight
      rw [List.take_succ_cons, List.map_cons, List.sum_cons, ← Nat.add_assoc] at hstake hweight
      refine .bind (survives_electWith report hbest.2 hbest.1 ?_ ?_)
        ((Engine.Ensures.of_all (electWith_all .panic report credited bestStake v)).and
          (.of_all (electWith_credits .panic report credited bestStake v)))
        fun elected h' => ih (h.tailElected hcredits hcredited h'.2 h'.1)
      · rw [hcredited]
        exact hstake.trans_le' (Nat.le_add_right _ _)
      · rw [hcredited]
        exact hweight.trans_le' (Nat.le_add_right _ _)

theorem survives_calculateElectionsWith {grams : GramsOps} {bound : Nat} (hgrams : grams.Exact bound)
    {credits : Option Cell} (hcredits : IsCredits ⟨32 + 256, credits⟩) {validators : List Validator}
    (hfresh : ∀ v ∈ validators, v.Fresh) {cfg16 : ConfigParam16} {cfg17 : ConfigParam17}
    (hbound : FitsFrom (GramsFit bound) [] (searched validators cfg16))
    (h : ElectionFits credits validators cfg16 cfg17) :
    Engine.Survives (calculateElectionsWith .panic grams (fun _ => .code .fatalError) credits validators
      cfg16 cfg17) := by
  have hfail : Engine.Survives (.fail (.code .fatalError) : GasM ElectionResult) :=
    .of_calm (.fail nofun)
  unfold calculateElectionsWith
  refine .ite (fun _ => hfail) fun hlen => ?_
  obtain ⟨hfactors, hshares⟩ := h.resolve_left hlen
  have hdec := decreasing_searched validators cfg16
  rcases searchWith_of_gramsFit hdec tracks_nil hgrams hbound (length_searched_le validators cfg16) with
    ⟨-, hfits⟩ | ⟨⟨v, hv, hzero⟩, -⟩
  · obtain ⟨st, hsearch, htracks⟩ := searchWith_of_fits hdec tracks_nil hgrams hfits
    rw [List.length_nil] at hsearch
    rw [List.nil_append] at htracks
    have hshares := hshares st.m htracks.best
    rw [← htracks.bestStake, ← htracks.mStake] at hshares
    have hm := (m_le_of_search hsearch).1
    dsimp only
    rw [← searched, hsearch, bind_lift_ok]
    unfold concludeWith
    refine .ite (fun _ => hfail) fun hstake => ?_
    have hshares := hshares.resolve_left hstake
    rw [limitStakesWith_of_limitsFit hm hshares.limits, bind_lift_ok]
    refine .ite (fun _ => hfail) fun _ => ?_
    refine .bind (survives_settleWith _ (settlementFits hcredits hfresh hm hshares))
      (Q := fun _ => True) (fun _ _ _ _ => trivial) fun result _ => ?_
    exact .ite (fun _ => hfail) fun _ => .pure _
  · exact absurd hzero (hfactors v hv)

/-- Where the operators of `Grams` are exact on the amounts of the search, an election that fits never
panics. And where the settlement has no error of its own, an election does not panic exactly if it
fits. -/
theorem election_panics_iff {grams : GramsOps} {bound : Nat} (hgrams : grams.Exact bound)
    {credits : Option Cell} (hcredits : IsCredits ⟨32 + 256, credits⟩) {validators : List Validator}
    (hfresh : ∀ v ∈ validators, v.Fresh) (cfg16 : ConfigParam16) (cfg17 : ConfigParam17)
    (hbound : FitsFrom (GramsFit bound) [] (searched validators cfg16)) :
    (ElectionFits credits validators cfg16 cfg17 → ∀ e t,
      exec (Engine.runGas (calculateElectionsWith .panic grams (fun _ => .code .fatalError) credits
        validators cfg16 cfg17)) e ≠ (.error .panic, t)) ∧
    ∀ e, (∀ m, FirstMax (prefixTotal (searched validators cfg16))
          (searched validators cfg16).length m → ∀ err t,
        exec (Engine.runGas (settlement credits validators m
          (lastStake ((searched validators cfg16).take m)))) e = (.error err, t) → err = .panic) →
      ((∀ t, exec (Engine.runGas (calculateElectionsWith .panic grams (fun _ => .code .fatalError)
          credits validators cfg16 cfg17)) e ≠ (.error .panic, t)) ↔
        ElectionFits credits validators cfg16 cfg17) := by
  have hsurvives (h : ElectionFits credits validators cfg16 cfg17) :=
    survives_calculateElectionsWith hgrams hcredits hfresh hbound h
  exact ⟨fun h e t => hsurvives h e t, fun e hworks =>
    ⟨electionFits_of_not_panic hgrams hcredits hfresh hbound hworks, fun h t => hsurvives h e t⟩⟩

end Settlement

/-! ### Plain cells -/

namespace Plain

open scoped TonVm.Plain

instance (builder : Builder) (bits : List Bool) : Calm (builder.appendBits bits) := by
  unfold Builder.appendBits
  infer_instance

scoped instance calmStores : CalmStores where
  appendBits builder value n := inferInstanceAs (Calm (Builder.appendBits _ _))
  appendRaw builder bytes n := inferInstanceAs (Calm (Builder.appendBits _ _))
  builderIntoCell builder := by
    unfold TonTypes.builderIntoCell types Builder.finalize
    infer_instance
  getNextInt slice n := by
    unfold TonTypes.getNextInt types
    infer_instance
  updateWithGas mode dict key value := by
    have hstore : CalmGas (do
        return (Entries.find (Slice.bits key) dict, ← store dict.bitLen
          ((Entries.load dict).insert (Slice.bits key) (valueBuilder value)))) :=
      .bind (calmGas_store _ _) fun _ => .pure _
    refine .bind (calmGas_visit dict) fun _ => ?_
    cases mode <;> dsimp only <;> split <;> first | exact hstore | exact .pure _

end Plain

section Concrete

open scoped Plain

theorem searched_pair : searched pair ⟨100, 100, 1⟩ = pair := by
  rw [searched, sortValidators_pair]
  rfl

theorem creditAt_le_creditTotal (dict : HashmapE) (key : List Bool) :
    creditAt dict key ≤ creditTotal dict := by
  rw [creditAt, dictValue]
  cases hvalue : lookup (dictEntries dict) key with
  | none => exact Nat.zero_le _
  | some value =>
    obtain ⟨entry, hentry, rfl⟩ := Option.map_eq_some_iff.1 hvalue
    exact List.single_le_sum (fun _ _ => Nat.zero_le _) _
      (List.mem_map_of_mem (List.mem_of_find?_eq_some hentry))

theorem gramsFit_pair : FitsFrom (GramsFit (2 ^ 128)) [] (searched pair ⟨100, 100, 1⟩) := by
  rw [searched_pair]
  exact ⟨⟨by decide, by decide, by decide⟩, ⟨by decide, by decide, by decide⟩, trivial⟩

theorem firstMax_pair : FirstMax (prefixTotal pair) pair.length 2 :=
  ⟨by decide, by decide, by decide⟩

/-- Both are elected with a stake of 3, and 2 are left over. -/
theorem sharesFit_pair : SharesFit credited pair 2 3 := by
  have htotal : creditTotal ⟨32 + 256, credited⟩ = 10 := by decide +kernel
  have hleft : ((limitStakes 2 3 pair).map leftover).sum = 2 := by decide
  refine ⟨?_, ?_, fun key => ?_⟩
  · rw [sortValidators_pair]
    unfold LimitsFit
    decide
  · rw [sortValidators_pair]
    decide
  · have hcredit := creditAt_le_creditTotal ⟨32 + 256, credited⟩ key
    have hsum := ((List.filter_sublist (p := fun v => addrBits v.addr = key)
      (l := limitStakes 2 3 pair)).map leftover).sum_le_sum fun _ _ => Nat.zero_le _
    rw [sortValidators_pair]
    omega

theorem electionFits_pair : ElectionFits credited pair ⟨100, 100, 1⟩ ⟨0, 10, 1⟩ := by
  unfold ElectionFits
  rw [searched_pair]
  refine .inr ⟨by decide, fun m hm => .inr ?_⟩
  rw [firstMax_pair.unique hm]
  exact sharesFit_pair

theorem election_panics_iff_pair : ElectionFits credited pair ⟨100, 100, 1⟩ ⟨0, 10, 1⟩ ∧
    ∀ e t, exec (Engine.runGas (calculateElectionsWith .panic Overflow.panic.grams
      (fun _ => .code .fatalError) credited pair ⟨100, 100, 1⟩ ⟨0, 10, 1⟩)) e ≠ (.error .panic, t) :=
  ⟨electionFits_pair, (election_panics_iff (exact_grams .panic) isCredits_credited fresh_pair
    ⟨100, 100, 1⟩ ⟨0, 10, 1⟩ gramsFit_pair).1 electionFits_pair⟩

/-- A depool whose factor is zero. -/
def worthless : List Validator :=
  [{ key := ⟨5, 0xFFFFFFFF, 7⟩, maxFactor := 0, addr := ⟨-1, 1⟩, adnlAddr := 1 }]

/-- Two depools with a stake of one and the factor one half: together they are worth one, and each of
them is limited to nothing. -/
def halves : List Validator :=
  [{ key := ⟨1, 0xFFFFFFFF, 8⟩, maxFactor := 32768, addr := ⟨-1, 2⟩, adnlAddr := 2 },
    { key := ⟨1, 0xFFFFFFFF, 7⟩, maxFactor := 32768, addr := ⟨-1, 1⟩, adnlAddr := 1 }]

/-- A stake whose product with its factor does not fit `u128`, although the search multiplies nothing. -/
def heavy : List Validator :=
  [{ key := ⟨2 ^ 112, 0, 7⟩, maxFactor := 131072, addr := ⟨-1, 1⟩, adnlAddr := 1 }]

/-- Elections of depools that are accepted divide by zero, and the limit of a heavy stake overflows. -/
theorem elections_panic :
    ((exec (@Engine.findValidators Plain.types Plain.depools ⟨1, 100, 1⟩)
        (Plain.elector [Plain.depool 1 7 5 0])).1.toOption = some worthless ∧
      (exec (Engine.runGas (calculateElections none worthless ⟨100, 100, 1⟩ ⟨1, 100, 1⟩))
        (Plain.elector [Plain.depool 1 7 5 0])).1 = .error .panic) ∧
    ((exec (@Engine.findValidators Plain.types Plain.depools ⟨1, 100, 1⟩)
        (Plain.elector [Plain.depool 2 8 1 32768, Plain.depool 1 7 1 32768])).1.toOption = some halves ∧
      (exec (Engine.runGas (calculateElections none halves ⟨100, 100, 1⟩ ⟨1, 100, 1⟩))
        (Plain.elector [Plain.depool 2 8 1 32768, Plain.depool 1 7 1 32768])).1 = .error .panic) ∧
    FitsFrom (GramsFit (2 ^ 120)) [] heavy ∧
      (exec (Engine.runGas (calculateElectionsWith .panic Overflow.panic.grams
        (fun _ => .code .fatalError) none heavy ⟨100, 100, 1⟩ ⟨1, 2 ^ 119, 1⟩))
        (Plain.elector [])).1 = .error .panic := by
  have hworthless : sortValidators worthless = worthless := List.mergeSort_of_pairwise (by decide)
  have hhalves : sortValidators halves = halves := List.mergeSort_of_pairwise (by decide)
  have hheavy : sortValidators heavy = heavy := List.mergeSort_of_pairwise (by decide)
  refine ⟨⟨by decide +kernel, ?_⟩, ⟨by decide +kernel, ?_⟩,
    ⟨⟨by decide, by decide, by decide⟩, trivial⟩, ?_⟩
  · unfold calculateElections calculateElectionsWith
    rw [hworthless]
    decide +kernel
  · unfold calculateElections calculateElectionsWith
    rw [hhalves]
    decide +kernel
  · unfold calculateElectionsWith
    rw [hheavy]
    decide +kernel

end Concrete

end TonVm
