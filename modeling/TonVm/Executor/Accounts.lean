import TonVm.Executor.Elections

/-!
# The elector and account lookup

`TRYELECT` reads the depool contracts of validators and stakers and elects among them. The sums of the
stakes of a depool are `u128` in the source; the model wraps as the release build does. An amount that
becomes a `Grams` is checked to be one, that is below `2 ^ 120`.
-/

namespace TonVm

open ExecLib

/-! ### Reading the contracts -/

section Depools

variable [TonTypes] [TonBlock]

/-- `process_depool`: the public key and the stake of a depool, and the data that follows. -/
def processDepool (account : Account) (data : SliceData) :
    GasM (UInt256 × Nat × SliceData) := do
  let (pubKey, data) ← TonTypes.getNextHash data
  let (cell, _) ← TonTypes.checkedDrainReference data
  let data ← GasM.load cell
  let data ← TonTypes.moveBy data (256 + 16)
  let data ← TonBlock.msgAddressSkip data
  let (stake, data) ← TonTypes.getNextInt data 64
  let (state, data) ← TonTypes.getNextByte data
  if 2 < state then
    .fail .other
  if state ≠ 1 then
    .fail (.code .fatalError)
  match account.balance with
  | none => .fail .other
  | some balance =>
    if balance < stake then
      .fail (.code .fatalError)
    let (cell, _) ← TonTypes.checkedDrainReference data
    let data ← GasM.load cell
    let data ← TonTypes.moveBy data (64 + 32)
    let (_, data) ← TonTypes.getNextDictionary data
    let data ← TonTypes.moveBy data 32
    let (_, data) ← TonTypes.getNextDictionary data
    let (_, data) ← TonTypes.getNextDictionary data
    let (_, data) ← TonTypes.getNextDictionary data
    return (pubKey, stake, data)

/-- The stakes found so far, by the address of the validator's depool. -/
abbrev Stakers := List (MsgAddressInt × Nat)

/-- `process_staker`: the address of the validator's depool and the stake. -/
def processStaker (shardAcc : Cell) : GasM (MsgAddressInt × Nat) := do
  let account ← TonBlock.readAccount shardAcc
  match account.data with
  | none => .fail .other
  | some data =>
    let slice ← TonTypes.loadCell data
    let (_, stake, data) ← processDepool account slice
    match ← TonBlock.msgAddressMaybe data with
    | some addr => return (addr, stake)
    | none => .fail (.code .fatalError)

/-- The validator at an address with a stake, after its stakers are added. -/
def makeValidator (addr : MsgAddressInt) (stake minStake maxStake : Nat) (maxFactor : UInt32)
    (time : UInt32) (pubKey adnlAddr : UInt256) : Except Failure Validator := do
  let (address, _) ← TonTypes.getNextHash addr.address
  let stake := min stake maxStake
  if stake < minStake then
    .error (.code .fatalError)
  if 2 ^ 120 ≤ stake then
    .error .other
  return { key := ⟨stake, time, pubKey⟩, maxFactor, addr := ⟨addr.workchainId, address⟩, adnlAddr }

/-- `process_validator`: the validator or why it cannot be used, and the stakers that are left. The
stakers of an account are used up once its data are read, also when its stake is then too small. -/
def processValidator (shardAcc : Cell) (stakers : Stakers) (minStake maxStake : Nat) :
    GasM (Except Failure Validator × Stakers) := do
  let account ← TonBlock.readAccount shardAcc
  match account.data with
  | none => .fail .other
  | some data =>
    let slice ← GasM.load data
    let (pubKey, stake, data) ← processDepool account slice
    let (maxFactor, data) ← TonTypes.getNextInt data 32
    let (adnlAddr, data) ← TonTypes.getNextHash data
    let time : Nat :=
      match TonTypes.getNextInt data 32 with
      | .ok (time, _) => time
      | .error _ => 0
    match account.addr with
    | none => .fail .other
    | some addr =>
      let own := stakers.filter fun staker => TonBlock.addressEq staker.1 addr
      let rest := stakers.filter fun staker => !TonBlock.addressEq staker.1 addr
      let stake := own.foldl (fun sum staker => u128 (sum + staker.2)) stake
      return (makeValidator addr stake minStake maxStake (UInt32.ofNat maxFactor)
        (~~~UInt32.ofNat time) pubKey adnlAddr, rest)

end Depools

namespace Engine

variable [TonTypes] [TonBlock]

/-- `read_config_param`. -/
def readConfigParam {α : Type} (parse : Cell → Except Failure α) (index : Int) : M α := do
  match ← getConfigParam index with
  | some cell => lift (parse cell)
  | none => err .fatalError

/-- `process_stakers`: an account that cannot be used is skipped. -/
def processStakers : List Cell → Stakers → M Stakers
  | [], stakers => return stakers
  | shardAcc :: accounts, stakers => do
    match ← catchError (runGas (processStaker shardAcc)) with
    | .ok staker => processStakers accounts (stakers ++ [staker])
    | .error _ => processStakers accounts stakers

/-- The loop of `find_validators`; an account that cannot be used is skipped. -/
def processValidators (cfg17 : ConfigParam17) (curValidators : List UInt256) (mcSeqno : Nat) :
    List Cell → Stakers → M (List Validator)
  | [], _ => return []
  | shardAcc :: accounts, stakers => do
    match ← catchError (runGas
        (processValidator shardAcc stakers cfg17.minStake cfg17.maxStake)) with
    | .ok (.ok descr, stakers) =>
      let descr :=
        if descr.key.pubKey ∈ curValidators then { descr with mcSeqNoSince := mcSeqno } else descr
      return descr :: (← processValidators cfg17 curValidators mcSeqno accounts stakers)
    | .ok (.error .panic, _) => throw .panic
    | .ok (.error _, stakers) => processValidators cfg17 curValidators mcSeqno accounts stakers
    | .error _ => processValidators cfg17 curValidators mcSeqno accounts stakers

def findValidators (cfg17 : ConfigParam17) : M (List Validator) := do
  let cfg30 ← readConfigParam TonBlock.configParam30 30
  match (← get).indexProvider with
  | none => fail
  | some indexProvider =>
    let validators ← lift (indexProvider.getAccountsByInitCodeHash cfg30.validatorInitCodeHash)
    let stakers ← lift (indexProvider.getAccountsByInitCodeHash cfg30.stakerInitCodeHash)
    let seqno ← lift (← smciParam 13).asInteger
    let mcSeqno ← lift (seqno.intoUsize 0 (2 ^ 32 - 1))
    let stakers ← processStakers stakers []
    let curValidators ← do
      match ← catchError (readConfigParam TonBlock.configParam34 34) with
      | .ok cfg34 => pure cfg34.curValidators
      | .error _ => pure []
    processValidators cfg17 curValidators mcSeqno validators stakers

abbrev executeTryElect : M Unit := do
  loadInstruction
  checkCapability .capDelections
  fetchStack 1
  let credits ← lift (← var 0).asDict
  let cfg1 ← readConfigParam TonBlock.configParam1 1
  let slice ← lift (← smciParam 8).asSlice
  let (myAddr, _) ← lift (TonBlock.msgAddressInt slice)
  if !myAddr.isMasterchain || !TonTypes.hashEqSlice cfg1.electorAddr myAddr.address then
    err .typeCheckError
  let cfg15 ← readConfigParam TonBlock.configParam15 15
  let cfg16 ← readConfigParam TonBlock.configParam16 16
  let cfg17 ← readConfigParam TonBlock.configParam17 17
  let validators ← findValidators cfg17
  let result ← runGas (calculateElections credits validators cfg16 cfg17)
  let since ← lift (← smciParam 3).asInteger
  let utimeSince := UInt32.ofNat (← lift (since.intoUsize 0 (2 ^ 32 - 1)))
  let cell ← lift (TonBlock.validatorSet utimeSince (utimeSince + cfg15.validatorsElectedFor)
    cfg16.maxMainValidators result.totalWeight result.list)
  push (.cell cell)
  push (dictItem result.frozen)
  push (dictItem result.credits)
  push (.int (u128 result.totalStake))
  push (.int ((result.totalWeight % 2 ^ 64 : Nat) : Int))

/-! ### Account lookup -/

/-- `prepare_items_list`: nested pairs that end in an empty tuple. -/
def prepareItemsList : List Cell → StackItem
  | [] => .tuple []
  | cell :: cells => .tuple [.cell cell, prepareItemsList cells]

def executeFindAccounts (f : IndexProvider → UInt256 → Except Failure (List Cell)) : M Unit := do
  loadInstruction
  checkCapability .capIndexAccounts
  fetchStack 1
  let slice ← lift (← var 0).asSlice
  let (hash, _) ← lift (TonTypes.getNextHash slice)
  match (← get).indexProvider with
  | some indexProvider => push (prepareItemsList (← lift (f indexProvider hash)))
  | none => err .fatalError

abbrev executeFindByInitCodeHash : M Unit :=
  executeFindAccounts IndexProvider.getAccountsByInitCodeHash

abbrev executeFindByCodeHash : M Unit :=
  executeFindAccounts IndexProvider.getAccountsByCodeHash

abbrev executeFindByDataHash : M Unit :=
  executeFindAccounts IndexProvider.getAccountsByDataHash

end Engine

end TonVm
