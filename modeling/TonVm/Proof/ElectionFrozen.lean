import TonVm.Proof.Bytes
import TonVm.Proof.DictionaryStore
import TonVm.Proof.ElectionWeights

/-!
# The frozen stakes of an election

The elected validators are written one after the other into a dictionary with their public keys as the
keys. Nothing keeps two validators from having the same public key, and then the later one is written
over the other, whose stake is frozen nowhere.
-/

namespace TonVm

open ExecLib FiniteMap

/-! ### Keys and values -/

/-- A hash as a string of bits. -/
def hashBits (hash : UInt256) : List Bool := Plain.ofBytes (hashBytes hash)

theorem length_hashBytes (hash : UInt256) : (hashBytes hash).length = 32 := by
  rw [hashBytes, List.length_reverse, length_bytesLe]

theorem length_hashBits (hash : UInt256) : (hashBits hash).length = 256 := by
  rw [hashBits, Plain.length_ofBytes, length_hashBytes]

theorem natOf_hashBits (hash : UInt256) : Plain.natOf (hashBits hash) = hash.toNat := by
  rw [hashBits, Plain.natOf_ofBytes, hashBytes, fromBytesBe, List.reverse_reverse, fromBytesLe_bytesLe]
  exact Nat.mod_eq_of_lt hash.isLt

theorem hashBits_injective : Function.Injective hashBits := fun a b h =>
  BitVec.eq_of_toNat_eq (by rw [← natOf_hashBits, h, natOf_hashBits])

/-- An address as it is written: the workchain and the hash. -/
def addrBits (addr : SimpleAddress) : List Bool :=
  Plain.bitsOf 32 (asUsize addr.workchainId) ++ hashBits addr.address

theorem length_addrBits (addr : SimpleAddress) : (addrBits addr).length = 288 := by
  rw [addrBits, List.length_append, Plain.length_bitsOf, length_hashBits]

/-- What is frozen for a validator: its address, its weight, its true stake, and that it is not
banned. -/
def frozenBits (bestStake : Nat) (v : Validator) : List Bool :=
  addrBits v.addr ++ Plain.bitsOf 64 (stakeWeight bestStake v) ++ Plain.bitsOf 128 v.trueStake ++
    Plain.bitsOf 8 0

/-- The stake in a frozen entry. -/
def frozenStake (bits : List Bool) : Nat := Plain.natOf ((bits.drop (288 + 64)).take 128)

theorem frozenStake_frozenBits {v : Validator} (h : v.trueStake < 2 ^ 128) (bestStake : Nat) :
    frozenStake (frozenBits bestStake v) = v.trueStake := by
  have hfront : (addrBits v.addr ++ Plain.bitsOf 64 (stakeWeight bestStake v)).length = 288 + 64 := by
    rw [List.length_append, length_addrBits, Plain.length_bitsOf]
  rw [frozenStake, frozenBits, List.append_assoc (_ ++ _), List.drop_left' hfront,
    List.take_left' (Plain.length_bitsOf _ _), Plain.natOf_bitsOf, Nat.mod_eq_of_lt h]

/-- The entry that electing a validator writes. -/
def frozenEntry (bestStake : Nat) (v : Validator) : List Bool × List Bool :=
  (hashBits v.key.pubKey, frozenBits bestStake v)

/-! ### The frozen dictionary -/

section Dictionary

variable [TonTypes] [Views] [DictView]

/-- The frozen stakes after the settlement: one validator after the other is written. -/
structure Freezes (bestStake : Nat) (elected : List Validator) (result r : ElectionResult) : Prop where
  isDict : IsDict r.frozen
  bitLen : r.frozen.bitLen = 256
  value : dictValue r.frozen = writes (dictValue result.frozen) (elected.map (frozenEntry bestStake))

/-- The frozen dictionary has one entry for each elected validator, with the address, the weight and
the true stake, and the stakes in it add up to the total stake. -/
structure FrozenAccounts (elected : List Validator) (result : ElectionResult) : Prop where
  length : (dictEntries result.frozen).length = elected.length
  records : ∀ v ∈ elected, dictValue result.frozen (hashBits v.key.pubKey) =
    some (frozenBits result.totalStake v)
  sum : ((dictEntries result.frozen).map fun entry => frozenStake (sliceBits entry.2)).sum =
    result.totalStake

section Frozen

variable {bestStake : Nat} {elected : List Validator} {start result : ElectionResult}
  (h : Freezes bestStake elected start result) (hstart : dictValue start.frozen = fun _ => none)

include h hstart

theorem Freezes.isSome (key : List Bool) : (lookup (dictEntries result.frozen) key).isSome ↔
    key ∈ elected.map fun v => hashBits v.key.pubKey := by
  have hvalue : (dictValue result.frozen key).isSome ↔
      key ∈ (elected.map (frozenEntry bestStake)).map Prod.fst := by
    rw [h.value, hstart, writes_isSome]
    simp
  rw [dictValue, Option.isSome_map, List.map_map] at hvalue
  exact hvalue

/-- Fewer entries than validators stand for a key that two of them have. -/
theorem Freezes.nodup (hlength : (dictEntries result.frozen).length = elected.length) :
    (elected.map (·.key.pubKey)).Nodup := by
  have hperm := keys_perm h.isDict.nodup
    (List.nodup_dedup (elected.map fun v => hashBits v.key.pubKey)) fun key => by
      rw [h.isSome hstart, List.mem_dedup]
  have hlen := hperm.length_eq
  rw [List.length_map, hlength] at hlen
  have hsame : (elected.map fun v => hashBits v.key.pubKey).dedup =
      elected.map fun v => hashBits v.key.pubKey :=
    (List.dedup_sublist _).eq_of_length (by rw [← hlen, List.length_map])
  have hnodup := List.dedup_eq_self.1 hsame
  have hmap : (elected.map fun v => hashBits v.key.pubKey) =
      (elected.map (·.key.pubKey)).map hashBits := by
    rw [List.map_map]
    rfl
  rw [hmap] at hnodup
  exact hnodup.of_map hashBits

theorem Freezes.accounts (hnodup : (elected.map (·.key.pubKey)).Nodup)
    (hsum : (elected.map (·.trueStake)).sum = bestStake) (htotal : result.totalStake = bestStake)
    (hlt : ∀ v ∈ elected, v.trueStake < 2 ^ 128) : FrozenAccounts elected result := by
  have hkeys : (elected.map fun v => hashBits v.key.pubKey).Nodup := by
    have := hnodup.map hashBits_injective
    rwa [List.map_map] at this
  have hentries : ((elected.map (frozenEntry bestStake)).map Prod.fst).Nodup := by
    rwa [List.map_map]
  have hrecords (v : Validator) (hv : v ∈ elected) :
      dictValue result.frozen (hashBits v.key.pubKey) = some (frozenBits bestStake v) := by
    rw [h.value]
    exact writes_of_mem hentries (List.mem_map_of_mem hv)
  refine ⟨?_, fun v hv => htotal ▸ hrecords v hv, ?_⟩
  · have hlen := (keys_perm h.isDict.nodup hkeys (h.isSome hstart)).length_eq
    rwa [List.length_map, List.length_map] at hlen
  · rw [sum_values h.isDict.nodup hkeys (h.isSome hstart) fun value => frozenStake (sliceBits value),
      List.map_map, htotal, ← hsum]
    refine congrArg List.sum (List.map_congr_left fun v hv => ?_)
    have hrecord := hrecords v hv
    rw [dictValue] at hrecord
    obtain ⟨value, hvalue, hbits⟩ := Option.map_eq_some_iff.1 hrecord
    rw [Function.comp_apply, hvalue, Option.elim_some, hbits, frozenStake_frozenBits (hlt v hv)]

end Frozen

end Dictionary

/-! ### The settlement -/

section Settlement

variable [TonTypes] [Views] [LawfulViews]

theorem builderBits_of_write {addr : SimpleAddress} {builder : BuilderData}
    (h : addr.write = .ok builder) : builderBits builder = addrBits addr := by
  obtain ⟨front, hfront, hback⟩ := bind_eq_ok h
  have hbytes : 256 ≤ 8 * (hashBytes addr.address).length := by rw [length_hashBytes]
  have hbits := (LawfulViews.appendRaw front (hashBytes addr.address) 256 hbytes).bits builder hback
  rw [builderBits_of_appendBits hfront, LawfulViews.builderDefault.1, List.nil_append] at hbits
  exact hbits.trans (by rw [← hashBits, List.take_of_length_le (length_hashBits _).le, addrBits])

variable [DictView] [LawfulStores]

theorem ensures_electWith (mode : Overflow) (report : ElectionError → Failure)
    {result : ElectionResult} (hdict : IsDict result.frozen) (hlen : result.frozen.bitLen = 256)
    (bestStake : Nat) (v : Validator) :
    Engine.Ensures (result.electWith mode report bestStake v) fun r =>
      Stores result.frozen (hashBits v.key.pubKey) (frozenBits bestStake v) r.frozen := by
  have hkey : sliceBits (TonTypes.fromRaw (hashBytes v.key.pubKey) 256) = hashBits v.key.pubKey := by
    rw [LawfulStores.fromRaw _ _ (by rw [length_hashBytes])]
    exact List.take_of_length_le (length_hashBits _).le
  have hwidth : (sliceBits (TonTypes.fromRaw (hashBytes v.key.pubKey) 256)).length =
      result.frozen.bitLen := by
    rw [hkey, length_hashBits, hlen]
  unfold ElectionResult.electWith
  refine .bind (.lift fun _ h => h) fun _ _ => .ite (fun _ => .fail _) fun _ =>
    .ite (fun _ => .fail _) fun _ => .bind (.lift fun _ h => h) fun _ _ => ?_
  refine .bind (.lift fun _ => builderBits_of_write) fun addr haddr => ?_
  refine .bind (.lift fun _ => builderBits_of_appendBits) fun weighed hweighed => ?_
  refine .bind (.lift fun _ => builderBits_of_appendBits) fun staked hstaked => ?_
  refine .bind (.lift fun _ => builderBits_of_appendBits) fun value hvalue => ?_
  refine .bind (LawfulStores.updateWithGas _ _ value hdict hwidth) fun stored hstored => .pure ?_
  rw [hkey, hvalue, hstaked, hweighed, haddr] at hstored
  exact hstored

theorem ensures_settleWith_frozen (mode : Overflow) (report : ElectionError → Failure)
    (bestStake m : Nat) (validators : List Validator) {result : ElectionResult}
    (hdict : IsDict result.frozen) (hlen : result.frozen.bitLen = 256) :
    Engine.Ensures (ElectionResult.settleWith mode report bestStake m validators result)
      (Freezes bestStake (validators.take m) result) := by
  induction validators generalizing m result with
  | nil =>
    rw [List.take_nil]
    exact .pure ⟨hdict, hlen, rfl⟩
  | cons v validators ih =>
    unfold ElectionResult.settleWith
    refine .bind (.of_all (creditWith_all mode result v)) fun credited hcredited => ?_
    have hfrozen : credited.frozen = result.frozen := by rw [hcredited]
    rw [← hfrozen] at hdict hlen
    cases m with
    | zero =>
      refine (ih 0 hdict hlen).mono fun r hr => ⟨hr.isDict, hr.bitLen, ?_⟩
      rw [hr.value, hfrozen]
      rfl
    | succ m =>
      refine .bind (ensures_electWith mode report hdict hlen bestStake v) fun r hr => ?_
      refine (ih m hr.isDict (hr.bitLen.trans hlen)).mono fun r' hr' => ⟨hr'.isDict, hr'.bitLen, ?_⟩
      rw [hr'.value, hr.value, hfrozen]
      rfl

/-- The frozen stakes account for every elected validator exactly where the elected validators have
different public keys. -/
theorem frozen_accounts_iff {mode : Overflow} {grams : GramsOps} {report : ElectionError → Failure}
    {credits : Option Cell} {validators : List Validator} {cfg16 : ConfigParam16}
    {cfg17 : ConfigParam17} {e t : Engine} {result : ElectionResult}
    (h : exec (Engine.runGas (calculateElectionsWith mode grams report credits validators cfg16 cfg17)) e =
      (.ok result, t)) :
    ∃ st, ElectionState.searchWith mode grams 0 (searched validators cfg16) {} = .ok st ∧
      (electedBy validators st).length = st.m ∧
      (FrozenAccounts (electedBy validators st) result ↔
        ((electedBy validators st).map (·.key.pubKey)).Nodup) := by
  have hnone : dictEntries (⟨256, none⟩ : HashmapE) = [] := LawfulStores.dictEntries_none 256
  obtain ⟨st, limited, hheld, hfreezes⟩ := ensures_calculateElectionsWith
    (fun best m limited => ensures_settleWith_frozen mode report best m limited (isDict_none 256) rfl)
    validators cfg16 cfg17 e result t h
  have hstart : dictValue (⟨256, none⟩ : HashmapE) = fun _ => none := by
    funext key
    rw [dictValue, hnone, lookup_nil]
    rfl
  refine ⟨st, hheld.search, ?_⟩
  rw [← hheld.elected]
  refine ⟨hheld.length_elected, fun haccounts => hfreezes.nodup hstart haccounts.length, fun hnodup =>
    hfreezes.accounts hstart hnodup hheld.sum rfl fun v hv => ?_⟩
  rw [hheld.elected, electedBy, take_limitStakes] at hv
  obtain ⟨u, -, rfl⟩ := List.mem_map.1 hv
  exact (trueStake_limitStake_lt st.mStake u).trans (by decide)

end Settlement

section Concrete

open scoped Plain

theorem frozen_accounts_pair : ∃ result st,
    ElectionState.searchWith .wrap Overflow.wrap.grams 0 (searched pair ⟨100, 100, 1⟩) {} = .ok st ∧
    FrozenAccounts (electedBy pair st) result := by
  obtain ⟨result, hresult⟩ := Engine.exists_of_isOk wrapping_pair_isOk
  obtain ⟨st, hst, -, hiff⟩ := frozen_accounts_iff hresult
  refine ⟨result, st, hst, hiff.2 ?_⟩
  rw [electedBy, take_limitStakes, sortValidators_pair, List.map_map]
  exact List.Nodup.sublist ((List.take_sublist _ _).map _) (by decide : (pair.map (·.key.pubKey)).Nodup)

/-- Two depools with the same public key. -/
def twins : List Validator :=
  [{ key := ⟨5, 0xFFFFFFFF, 7⟩, maxFactor := 65536, addr := ⟨-1, 1⟩, adnlAddr := 1 },
    { key := ⟨3, 0xFFFFFFFF, 7⟩, maxFactor := 65536, addr := ⟨-1, 2⟩, adnlAddr := 2 }]

theorem sortValidators_twins : sortValidators twins = twins := List.mergeSort_of_pairwise (by decide)

/-- Both depools are found and elected with a stake of 3 each, and one of the stakes is frozen. -/
theorem twins_freeze_one :
    (exec (@Engine.findValidators Plain.types Plain.depools ⟨1, 100, 1⟩)
      (Plain.elector [Plain.depool 1 7 5 65536, Plain.depool 2 7 3 65536])).1.toOption = some twins ∧
    ((exec (Engine.runGas (calculateElections none twins ⟨100, 100, 1⟩ ⟨1, 100, 1⟩))
      (Plain.elector [Plain.depool 1 7 5 65536, Plain.depool 2 7 3 65536])).1.toOption.map fun result =>
        (result.list.length, result.totalStake, (dictEntries result.frozen).length,
          ((dictEntries result.frozen).map fun entry => frozenStake (sliceBits entry.2)).sum)) =
      some (2, 6, 1, 3) := by
  refine ⟨by decide +kernel, ?_⟩
  unfold calculateElections calculateElectionsWith
  rw [sortValidators_twins]
  decide +kernel

end Concrete

end TonVm
