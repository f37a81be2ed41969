import TonVm.Proof.ElectionFrozen

/-!
# The credits of an election

The part of a stake that an election does not use is credited to the address that it came from. Each
validator adds to the credit of its address, also where several have the same one, so the stakes that
are used and the credits that are added make up all stakes.
-/

namespace TonVm

open ExecLib FiniteMap

/-- The part of a stake that is not used. -/
def leftover (v : Validator) : Nat := v.key.stake - v.trueStake

/-- The workchain of an address fits `i32`. -/
def SimpleAddress.InRange (addr : SimpleAddress) : Prop :=
  -2 ^ 31 ≤ addr.workchainId ∧ addr.workchainId < 2 ^ 31

theorem addrBits_injOn {a b : SimpleAddress} (ha : a.InRange) (hb : b.InRange)
    (h : addrBits a = addrBits b) : a = b := by
  obtain ⟨hwc, hhash⟩ := List.append_inj h (by rw [Plain.length_bitsOf, Plain.length_bitsOf])
  have hvalue := congrArg Plain.natOf hwc
  rw [Plain.natOf_bitsOf, Plain.natOf_bitsOf, asUsize, asUsize] at hvalue
  have hworkchain : a.workchainId = b.workchainId := by
    obtain ⟨ha, ha'⟩ := ha
    obtain ⟨hb, hb'⟩ := hb
    omega
  obtain ⟨_, _⟩ := a
  cases hworkchain
  cases hashBits_injective hhash
  rfl

/-! ### The validators with their true stakes -/

/-- A validator before an election: its stake and its address are values of their types, and it has no
true stake yet. -/
structure Validator.Fresh (v : Validator) : Prop where
  stake : v.key.stake < 2 ^ 128
  addr : v.addr.InRange
  trueStake : v.trueStake = 0

/-- The validators that `process_validator` makes are fresh, with a stake within the limits. -/
theorem fresh_of_makeValidator [TonTypes] {addr : MsgAddressInt} {stake minStake maxStake : Nat}
    {maxFactor time : UInt32} {pubKey adnlAddr : UInt256} {v : Validator}
    (haddr : -2 ^ 31 ≤ addr.workchainId ∧ addr.workchainId < 2 ^ 31)
    (h : makeValidator addr stake minStake maxStake maxFactor time pubKey adnlAddr = .ok v) :
    v.Fresh ∧ minStake ≤ v.key.stake ∧ v.key.stake ≤ maxStake := by
  obtain ⟨⟨address, rest⟩, -, h⟩ := bind_eq_ok h
  dsimp only at h
  split at h
  · cases h
  · rename_i hmin
    split at h
    · cases h
    · rename_i hmax
      cases h
      exact ⟨⟨(not_le.1 hmax).trans (by decide), haddr, rfl⟩, not_lt.1 hmin, min_le_right _ _⟩

/-- A validator without its true stake. -/
def Validator.reset (v : Validator) : Validator := { v with trueStake := 0 }

theorem drop_limitStakes (m mStake : Nat) (validators : List Validator) :
    (limitStakes m mStake validators).drop m = validators.drop m := by
  rw [limitStakes, List.drop_append, List.length_map, List.length_take]
  rcases le_total m validators.length with hle | hle
  · rw [min_eq_left hle, Nat.sub_self, List.drop_zero, List.drop_of_length_le, List.nil_append]
    rw [List.length_map, List.length_take]
    exact min_le_left _ _
  · rw [List.drop_of_length_le hle, List.drop_nil, List.append_nil, List.drop_of_length_le]
    rw [List.length_map, List.length_take]
    exact min_le_left _ _

theorem map_reset_limitStakes (m mStake : Nat) (validators : List Validator) :
    (limitStakes m mStake validators).map Validator.reset = validators.map Validator.reset := by
  rw [limitStakes, List.map_append, List.map_map]
  conv_rhs => rw [← List.take_append_drop m validators, List.map_append]
  rfl

/-- The stakes are the true stakes and what is left over. -/
theorem sum_leftover_add_sum_trueStake {validators : List Validator}
    (h : ∀ v ∈ validators, v.trueStake ≤ v.key.stake) :
    (validators.map leftover).sum + (validators.map (·.trueStake)).sum =
      (validators.map (·.key.stake)).sum := by
  induction validators with
  | nil => rfl
  | cons v validators ih =>
    rw [List.forall_mem_cons] at h
    have hrest := ih h.2
    have hv : leftover v + v.trueStake = v.key.stake := Nat.sub_add_cancel h.1
    simp only [List.map_cons, List.sum_cons]
    omega

section Fresh

variable {validators : List Validator} (h : ∀ v ∈ validators, v.Fresh)

include h

theorem map_reset : validators.map Validator.reset = validators := by
  have hid : validators.map Validator.reset = validators.map id := List.map_congr_left fun v hv => by
    rw [Validator.reset, ← (h v hv).trueStake, id_eq]
  rw [hid, List.map_id]

/-- The validators with their true stakes are the same validators in another order. -/
theorem reset_perm (m mStake : Nat) :
    ((limitStakes m mStake (sortValidators validators)).map Validator.reset).Perm validators := by
  have hperm := (sortValidators_perm validators).map Validator.reset
  rwa [map_reset h, ← map_reset_limitStakes m mStake] at hperm

theorem limited_of_fresh (m mStake : Nat) {v : Validator}
    (hv : v ∈ limitStakes m mStake (sortValidators validators)) : v.reset.Fresh :=
  h _ ((reset_perm h m mStake).mem_iff.1 (List.mem_map_of_mem hv))

theorem trueStake_of_drop (m mStake : Nat) {v : Validator}
    (hv : v ∈ (limitStakes m mStake (sortValidators validators)).drop m) : v.trueStake = 0 := by
  rw [drop_limitStakes] at hv
  exact (h v ((sortValidators_perm validators).mem_iff.1 (List.mem_of_mem_drop hv))).trueStake

theorem trueStake_le_stake (m mStake : Nat) {v : Validator}
    (hv : v ∈ limitStakes m mStake (sortValidators validators)) : v.trueStake ≤ v.key.stake := by
  rw [← List.take_append_drop m (limitStakes _ _ _), List.mem_append] at hv
  rcases hv with hv | hv
  · rw [take_limitStakes] at hv
    obtain ⟨u, -, rfl⟩ := List.mem_map.1 hv
    exact min_le_left _ _
  · rw [trueStake_of_drop h m mStake hv]
    exact Nat.zero_le _

end Fresh

/-- A credit as it is read from an entry: a `u128`. -/
def creditValue (bits : List Bool) : Nat := Plain.natOf (bits.take 128)

theorem creditValue_bitsOf {value : Nat} (h : value < 2 ^ 128) :
    creditValue (Plain.bitsOf 128 value) = value := by
  rw [creditValue, List.take_of_length_le (Plain.length_bitsOf _ _).le, Plain.natOf_bitsOf,
    Nat.mod_eq_of_lt h]

theorem creditValue_lt (bits : List Bool) : creditValue bits < 2 ^ 128 :=
  (Plain.natOf_lt _).trans_le (Nat.pow_le_pow_right two_pos (List.length_take_le _ _))

section Dictionary

variable [TonTypes] [Views] [DictView]

/-- The credit at a key of a dictionary. -/
def creditAt (dict : HashmapE) (key : List Bool) : Nat := (dictValue dict key).elim 0 creditValue

theorem creditAt_lt (dict : HashmapE) (key : List Bool) : creditAt dict key < 2 ^ 128 := by
  rw [creditAt]
  cases dictValue dict key with
  | none => exact Nat.two_pow_pos 128
  | some value => exact creditValue_lt value

/-- The credit of an address. -/
def creditOf (dict : HashmapE) (addr : SimpleAddress) : Nat := creditAt dict (addrBits addr)

/-- All credits. -/
def creditTotal (dict : HashmapE) : Nat :=
  ((dictEntries dict).map fun entry => creditValue (sliceBits entry.2)).sum

/-- A dictionary by addresses. -/
structure IsCredits (dict : HashmapE) : Prop where
  isDict : IsDict dict
  bitLen : dict.bitLen = 288

/-- The credits after those of some validators have been added. -/
structure Credits (validators : List Validator) (dict dict' : HashmapE) : Prop where
  isCredits : IsCredits dict'
  le : ∀ v ∈ validators, v.trueStake ≤ v.key.stake
  credit : ∀ key, creditAt dict' key = creditAt dict key +
    ((validators.filter fun v => addrBits v.addr = key).map leftover).sum
  total : creditTotal dict' = creditTotal dict + (validators.map leftover).sum

theorem Credits.nil {dict : HashmapE} (h : IsCredits dict) : Credits [] dict dict :=
  ⟨h, nofun, fun _ => rfl, rfl⟩

theorem Credits.append {validators validators' : List Validator} {dict dict' dict'' : HashmapE}
    (h : Credits validators dict dict') (h' : Credits validators' dict' dict'') :
    Credits (validators ++ validators') dict dict'' := by
  refine ⟨h'.isCredits, fun v hv => ?_, fun key => ?_, ?_⟩
  · rcases List.mem_append.1 hv with hv | hv
    · exact h.le v hv
    · exact h'.le v hv
  · rw [h'.credit, h.credit, List.filter_append, List.map_append, List.sum_append, Nat.add_assoc]
  · rw [h'.total, h.total, List.map_append, List.sum_append, Nat.add_assoc]

theorem Credits.ofUnused {dict : HashmapE} (h : IsCredits dict) {v : Validator}
    (hle : v.trueStake ≤ v.key.stake) (hzero : leftover v = 0) : Credits [v] dict dict := by
  refine ⟨h, by simpa using hle, fun key => ?_, ?_⟩
  · rw [List.filter_cons]
    split_ifs
    · simp [hzero]
    · rfl
  · simp [hzero]

/-- Writing the sum of the old credit and what is left over. -/
theorem Credits.ofStores {dict dict' : HashmapE} (h : IsCredits dict) {v : Validator}
    (hle : v.trueStake ≤ v.key.stake) {value : Nat} (hlt : value < 2 ^ 128)
    (hvalue : value = leftover v + creditAt dict (addrBits v.addr))
    (hstores : Stores dict (addrBits v.addr) (Plain.bitsOf 128 value) dict') :
    Credits [v] dict dict' := by
  have hread := creditValue_bitsOf hlt
  refine ⟨⟨hstores.isDict, hstores.bitLen.trans h.bitLen⟩, by simpa using hle, fun key => ?_, ?_⟩
  · rw [creditAt, hstores.value, List.filter_cons]
    by_cases hkey : key = addrBits v.addr
    · subst hkey
      rw [Function.update_self, Option.elim_some, hread, hvalue]
      simp [Nat.add_comm]
    · simp [Function.update_of_ne hkey, Ne.symm hkey, creditAt]
  · have hsum := hstores.sum h.isDict creditValue
    rw [hread] at hsum
    simp only [creditTotal, List.map_cons, List.map_nil, List.sum_cons, List.sum_nil]
    rw [creditAt] at hvalue
    omega

/-- What an election does with the stakes: each address is credited what is left over of the stakes of
its validators, those that are not elected get their whole stake back, and nothing is lost. -/
structure ConservesStakes (validators limited : List Validator) (m : Nat) (before : HashmapE)
    (result : ElectionResult) : Prop where
  same : (limited.map Validator.reset).Perm validators
  le : ∀ v ∈ limited, v.trueStake ≤ v.key.stake
  credit : ∀ addr : SimpleAddress, addr.InRange → creditOf result.credits addr =
    creditOf before addr + ((limited.filter (·.addr = addr)).map leftover).sum
  refunded : ∀ v ∈ limited.drop m, leftover v = v.key.stake
  grows : creditTotal before ≤ creditTotal result.credits
  total : result.totalStake + (creditTotal result.credits - creditTotal before) =
    (validators.map (·.key.stake)).sum

theorem Credits.conserves {validators limited : List Validator} {m : Nat} {before : HashmapE}
    {result : ElectionResult} (h : Credits limited before result.credits)
    (hsame : (limited.map Validator.reset).Perm validators) (haddr : ∀ v ∈ limited, v.addr.InRange)
    (hdrop : ∀ v ∈ limited.drop m, v.trueStake = 0)
    (hsum : ((limited.take m).map (·.trueStake)).sum = result.totalStake) :
    ConservesStakes validators limited m before result := by
  have hstakes : (limited.map (·.key.stake)).sum = (validators.map (·.key.stake)).sum := by
    rw [← (hsame.map (·.key.stake)).sum_eq, List.map_map]
    rfl
  have htrue : (limited.map (·.trueStake)).sum = result.totalStake := by
    have hzero : ((limited.drop m).map (·.trueStake)).sum = 0 := List.sum_eq_zero fun n hn => by
      obtain ⟨v, hv, rfl⟩ := List.mem_map.1 hn
      exact hdrop v hv
    rw [← List.take_append_drop m limited, List.map_append, List.sum_append, hzero, hsum, Nat.add_zero]
  have htotal := sum_leftover_add_sum_trueStake h.le
  have hgrown := h.total
  refine ⟨hsame, h.le, fun addr hrange => ?_, fun v hv => ?_, by omega, by omega⟩
  · have hfilter : (limited.filter fun v => addrBits v.addr = addrBits addr) =
        limited.filter (·.addr = addr) := List.filter_congr fun v hv =>
      decide_eq_decide.2 ⟨addrBits_injOn (haddr v hv) hrange, congrArg addrBits⟩
    rw [creditOf, h.credit, hfilter, creditOf]
  · rw [leftover, hdrop v hv, Nat.sub_zero]

end Dictionary

/-! ### The settlement -/

theorem sub_panic_eq_ok {a b c : Nat} (h : Overflow.panic.sub a b = .ok c) : b ≤ a ∧ c = a - b := by
  unfold Overflow.sub at h
  dsimp only at h
  split_ifs at h with hle
  cases h
  exact ⟨hle, rfl⟩

theorem u128_panic_eq_ok {n c : Nat} (h : Overflow.panic.u128 n = .ok c) : n < 2 ^ 128 ∧ c = n := by
  unfold Overflow.u128 at h
  dsimp only at h
  split_ifs at h with hlt
  cases h
  exact ⟨hlt, rfl⟩

/-- A credit that is found is read as a number. -/
theorem creditValue_of_getNextInt [TonTypes] [Views] [LawfulViews] [DictView] [LawfulStores]
    {data rest : SliceData} {credit : Nat} (h : TonTypes.getNextInt data 128 = .ok (credit, rest)) :
    credit = creditValue (sliceBits data) := by
  obtain ⟨rest', hok, -⟩ :=
    LawfulViews.getNextInt data 128 (LawfulStores.getNextInt_le data 128 _ h)
  rw [hok] at h
  cases h
  rfl

theorem electWith_credits [TonTypes] (mode : Overflow) (report : ElectionError → Failure)
    (result : ElectionResult) (bestStake : Nat) (v : Validator) :
    (result.electWith mode report bestStake v).All fun r => r.credits = result.credits := by
  unfold ElectionResult.electWith
  refine .bind_any fun _ => .ite (fun _ => trivial) fun _ => .ite (fun _ => trivial) fun _ => ?_
  exact .bind_any fun _ => .bind_any fun _ => .bind_any fun _ => .bind_any fun _ => .bind_any fun _ =>
    .bind_any fun _ => rfl

/-- The value is stored under the key. -/
def writeCredit [TonTypes] (result : ElectionResult) (key : SliceData) (value : Nat) :
    GasM ElectionResult := do
  let value ← liftM (TonTypes.appendBits TonTypes.builderDefault value 128)
  let (_, credits) ← TonTypes.updateWithGas .set result.credits key (.builder value)
  return { result with credits }

section Settlement

variable [TonTypes] [Views] [LawfulViews] [DictView] [LawfulStores]

theorem ensures_creditWith {result : ElectionResult} (hcredits : IsCredits result.credits)
    (v : Validator) (hstake : v.key.stake < 2 ^ 128) :
    Engine.Ensures (result.creditWith .panic v) fun r => Credits [v] result.credits r.credits := by
  unfold ElectionResult.creditWith
  refine .bind (.lift fun _ => sub_panic_eq_ok) fun rest hsub => ?_
  obtain ⟨hle, hrest⟩ := hsub
  refine .ite (fun hzero => .pure (.ofUnused hcredits hle (hrest.symm.trans hzero))) fun _ => ?_
  refine .bind (.lift fun _ => builderBits_of_write) fun builder hbuilder => ?_
  refine .bind (.lift fun _ h => h) fun cell hcell => .bind (.lift fun _ h => h) fun key hkey => ?_
  have hbits : sliceBits key = addrBits v.addr :=
    (LawfulStores.loadCell builder cell key hcell hkey).trans hbuilder
  have hwidth : (sliceBits key).length = result.credits.bitLen := by
    rw [hbits, length_addrBits, hcredits.bitLen]
  have hwrite {value : Nat} (hlt : value < 2 ^ 128)
      (hvalue : value = leftover v + creditAt result.credits (addrBits v.addr)) :
      Engine.Ensures (writeCredit result key value)
        fun r => Credits [v] result.credits r.credits := by
    unfold writeCredit
    refine .bind (.lift fun _ => builderBits_of_appendBits) fun written hwritten => ?_
    refine .bind (LawfulStores.updateWithGas _ _ written hcredits.isDict hwidth) fun stored hstored =>
      .pure ?_
    rw [hbits, hwritten, LawfulViews.builderDefault.1, List.nil_append] at hstored
    exact .ofStores hcredits hle hlt hvalue hstored
  refine .bind (LawfulStores.getWithGas _ _ hcredits.isDict hwidth) fun found hfound => ?_
  rw [hbits] at hfound
  cases found with
  | none =>
    refine hwrite ?_ ?_
    · omega
    · rw [hrest, creditAt, ← hfound]
      rfl
  | some data =>
    have hcredit : creditAt result.credits (addrBits v.addr) = creditValue (sliceBits data) := by
      rw [creditAt, ← hfound]
      rfl
    refine .bind (.lift fun _ h => h) fun r hread => ?_
    obtain ⟨credit, after⟩ := r
    have hvalue := creditValue_of_getNextInt hread
    refine .bind (.lift fun _ => u128_panic_eq_ok) fun sum h => ?_
    obtain ⟨hlt, hsum⟩ := h
    refine hwrite (hsum ▸ hlt) ?_
    rw [hsum, hrest, hcredit, hvalue, leftover]

/-- The credits after the settlement. -/
theorem ensures_settleWith_credits (report : ElectionError → Failure) (bestStake m : Nat)
    {validators : List Validator} (hstakes : ∀ v ∈ validators, v.key.stake < 2 ^ 128)
    {result : ElectionResult} (hcredits : IsCredits result.credits) :
    Engine.Ensures (ElectionResult.settleWith .panic report bestStake m validators result) fun r =>
      Credits validators result.credits r.credits := by
  induction validators generalizing m result with
  | nil => exact .pure (.nil hcredits)
  | cons v validators ih =>
    rw [List.forall_mem_cons] at hstakes
    unfold ElectionResult.settleWith
    refine .bind (ensures_creditWith hcredits v hstakes.1) fun credited hcredited => ?_
    cases m with
    | zero =>
      exact (ih 0 hstakes.2 hcredited.isCredits).mono fun r hr => hcredited.append hr
    | succ m =>
      refine .bind (.of_all (electWith_credits .panic report credited bestStake v)) fun r hr => ?_
      have hrest := ih m hstakes.2 (hr.symm ▸ hcredited.isCredits)
      rw [hr] at hrest
      exact hrest.mono fun r' hr' => hcredited.append hr'

/-- No stake is lost in an election that returns without an overflow. -/
theorem election_conserves_stakes {grams : GramsOps} {report : ElectionError → Failure}
    {credits : Option Cell}
    (hcredits : IsCredits ⟨32 + 256, credits⟩) {validators : List Validator}
    (hfresh : ∀ v ∈ validators, v.Fresh) {cfg16 : ConfigParam16} {cfg17 : ConfigParam17}
    {e t : Engine} {result : ElectionResult}
    (h : exec (Engine.runGas (calculateElectionsWith .panic grams report credits validators cfg16 cfg17)) e =
      (.ok result, t)) :
    ∃ st, ElectionState.searchWith .panic grams 0 (searched validators cfg16) {} = .ok st ∧
      ConservesStakes validators (limitStakes st.m st.mStake (sortValidators validators)) st.m
        ⟨32 + 256, credits⟩ result := by
  obtain ⟨st, limited, hheld, hsettled⟩ := ensures_calculateElectionsWith
    (Q := fun _ _ limited result => (∀ v ∈ limited, v.key.stake < 2 ^ 128) →
      Credits limited ⟨32 + 256, credits⟩ result.credits)
    (fun best m limited e r t hexec hstakes =>
      ensures_settleWith_credits report best m hstakes hcredits e r t hexec)
    validators cfg16 cfg17 e result t h
  have hsum := hheld.sum
  have hlimited := limitStakesWith_list hheld.limits
  subst hlimited
  have hadded := hsettled fun v hv => (limited_of_fresh hfresh _ _ hv).stake
  exact ⟨st, hheld.search, hadded.conserves (reset_perm hfresh st.m st.mStake)
    (fun v hv => (limited_of_fresh hfresh _ _ hv).addr) (fun v => trueStake_of_drop hfresh _ _) hsum⟩

end Settlement

section Concrete

open scoped Plain

/-- The first of the two has a credit of 10. -/
def credited : Option Cell :=
  (Plain.Entries.chain [(addrBits ⟨-1, 1⟩, { bits := Plain.bitsOf 128 10 })]).toOption.join

theorem isCredits_credited : IsCredits ⟨32 + 256, credited⟩ :=
  ⟨⟨by decide +kernel, by decide +kernel⟩, rfl⟩

theorem fresh_pair : ∀ v ∈ pair, v.Fresh := by
  intro v hv
  rcases List.mem_pair.1 hv with rfl | rfl <;>
    exact ⟨by decide, ⟨by decide, by decide⟩, rfl⟩

theorem election_pair_isOk : (exec (Engine.runGas (calculateElectionsWith .panic Overflow.panic.grams
    (fun _ => .code .fatalError) credited pair ⟨100, 100, 1⟩ ⟨0, 10, 1⟩)) Plain.idle).1.isOk = true := by
  unfold calculateElectionsWith
  rw [sortValidators_pair]
  decide +kernel

theorem election_conserves_stakes_pair : ∃ result m mStake, ConservesStakes pair
    (limitStakes m mStake (sortValidators pair)) m ⟨32 + 256, credited⟩ result := by
  obtain ⟨result, hresult⟩ := Engine.exists_of_isOk election_pair_isOk
  obtain ⟨st, -, hconserves⟩ := election_conserves_stakes isCredits_credited fresh_pair hresult
  exact ⟨result, st.m, st.mStake, hconserves⟩

end Concrete

end TonVm
