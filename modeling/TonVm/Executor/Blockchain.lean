import TonVm.Executor.Dictionary

/-!
# Output actions, addresses and debugging

The instructions that append to the action list in c5 and those that parse message addresses. What
they take from `ton_block` is a class of its own. The debug instructions are here without their
output, which is not part of the state of the machine.
-/

namespace TonVm

open ExecLib

inductive OutAction where
  | sendMsg
  | setCode
  | reserve
  | changeLib
  | copyleft
  deriving DecidableEq, Repr

/-- A message address of an account: its workchain and its address, the account id. -/
structure MsgAddressIntOf (SliceData : Type) where
  workchainId : Int
  address : SliceData
  isMasterchain : Bool

section TonBlock

variable [TonTypes]

abbrev MsgAddressInt := MsgAddressIntOf SliceData

/-- What the machine reads from an account. -/
structure Account where
  data : Option Cell
  /-- The balance in nanograms. -/
  balance : Option Nat
  addr : Option MsgAddressInt

structure ConfigParam1 where
  electorAddr : UInt256

structure ConfigParam15 where
  validatorsElectedFor : UInt32

structure ConfigParam16 where
  maxValidators : UInt16
  maxMainValidators : UInt16
  minValidators : UInt16

/-- Amounts in nanograms. -/
structure ConfigParam17 where
  minStake : Nat
  maxStake : Nat
  minTotalStake : Nat

structure DelectorParams where
  validatorInitCodeHash : UInt256
  stakerInitCodeHash : UInt256

/-- The public keys of the current validators. -/
structure ConfigParam34 where
  curValidators : List UInt256

structure ValidatorDescr where
  publicKey : UInt256
  weight : Nat
  adnlAddr : UInt256

/-- The structures of `ton_block` that the machine reads and writes. -/
class TonBlock where
  /-- The tag of an action in the list. -/
  actionTag : OutAction → Nat
  /-- `MsgAddressInt::construct_from`. -/
  msgAddressInt : SliceData → Except Failure (MsgAddressInt × SliceData)
  addressEq : MsgAddressInt → MsgAddressInt → Bool
  /-- `MsgAddress::skip`. -/
  msgAddressSkip : SliceData → Except Failure SliceData
  /-- `MsgAddress::construct_maybe_from`, as an internal address. -/
  msgAddressMaybe : SliceData → Except Failure (Option MsgAddressInt)
  /-- `ShardAccount::read_account`, from the cell of the shard account. -/
  readAccount : Cell → Except Failure Account
  configParam1 : Cell → Except Failure ConfigParam1
  configParam15 : Cell → Except Failure ConfigParam15
  configParam16 : Cell → Except Failure ConfigParam16
  configParam17 : Cell → Except Failure ConfigParam17
  configParam30 : Cell → Except Failure DelectorParams
  configParam34 : Cell → Except Failure ConfigParam34
  /-- `ValidatorSet::with_values_version_2` and its serialization. -/
  validatorSet : UInt32 → UInt32 → UInt16 → Nat → List ValidatorDescr → Except Failure Cell

end TonBlock

namespace Engine

variable [TonTypes]

/-! ### Actions -/

/-- `serialize_grams`: the number of bytes and the bytes. -/
def serializeGrams (grams : Nat) : Except Failure BuilderData := do
  let bytes := bitsToBytes (bits grams)
  let builder ← TonTypes.withRaw [UInt8.ofNat bytes <<< 4] 4
  TonTypes.appendRaw builder (bytesLe bytes grams).reverse (bytes * 8)

def serializeCurrencyCollection (grams : Nat) (other : Option Cell) :
    Except Failure BuilderData := do
  let builder ← serializeGrams grams
  match other with
  | some cell => TonTypes.checkedAppendReference (← TonTypes.appendBits builder 1 1) cell
  | none => TonTypes.appendBits builder 0 1

/-- The builder of the new head of the action list. -/
def actionBuilder (c5 : Cell) (actionId : Nat) (cell : Option Cell) (suffix : BuilderData) :
    Except Failure BuilderData := do
  let newAction ← TonTypes.checkedAppendReference TonTypes.builderDefault c5
  let newAction ← TonTypes.appendBits newAction actionId 32
  let newAction ← TonTypes.appendBuilder newAction suffix
  match cell with
  | some cell => TonTypes.checkedAppendReference newAction cell
  | none => return newAction

def addAction (actionId : Nat) (cell : Option Cell) (suffix : BuilderData) : M Unit := do
  match (← get).ctrls.get 5 with
  | none => err .typeCheckError
  | some c5 =>
    let newAction ← lift (actionBuilder (← lift c5.asCell) actionId cell suffix)
    putCtrl 5 (.cell (← finalizeCell newAction))

section Actions

variable [TonBlock]

abbrev executeChangelib : M Unit := do
  checkCapability .capSetLibCode
  loadInstruction
  fetchStack 2
  let x ← indexVar 0 2
  let hash ← lift (← var 1).asInteger
  let hash ← lift (hash.asBuilder .unsignedBigEndian 256)
  let suffix ← lift (TonTypes.withRaw [UInt8.ofNat (x * 2)] 8)
  let suffix ← lift (TonTypes.appendBuilder suffix hash)
  addAction (TonBlock.actionTag .changeLib) none suffix

abbrev executeSendrawmsg : M Unit := do
  loadInstruction
  fetchStack 2
  let x ← indexVar 0 255
  let cell ← lift (← var 1).asCell
  let suffix ← lift (TonTypes.withRaw [UInt8.ofNat x] 8)
  addAction (TonBlock.actionTag .sendMsg) (some cell) suffix

abbrev executeSetcode : M Unit := do
  loadInstruction
  fetchStack 1
  let cell ← lift (← var 0).asCell
  addAction (TonBlock.actionTag .setCode) (some cell) TonTypes.builderDefault

abbrev executeSetlibcode : M Unit := do
  checkCapability .capSetLibCode
  loadInstruction
  fetchStack 2
  let x ← indexVar 0 2
  let cell ← lift (← var 1).asCell
  let suffix ← lift (TonTypes.withRaw [UInt8.ofNat (x * 2 + 1)] 8)
  addAction (TonBlock.actionTag .changeLib) (some cell) suffix

/-- `COPYLEFT`: at most once in a run, and nothing in the masterchain. -/
abbrev executeCopyleft : M Unit := do
  checkCapability .capCopyleft
  if (← get).copylefted then
    err .illegalInstruction
  modify fun e => { e with copylefted := true }
  loadInstruction
  let slice ← lift (← smciParam 8).asSlice
  let (myaddr, _) ← lift (TonBlock.msgAddressInt slice)
  fetchStack 2
  if !myaddr.isMasterchain then
    let num ← indexVar 0 255
    let slice ← lift (← var 1).asSlice
    if TonTypes.remainingBits slice ≠ 32 * 8 then
      err .typeCheckError
    let suffix ← lift (TonTypes.appendRaw TonTypes.builderDefault [UInt8.ofNat num] 8)
    let suffix ← lift (TonTypes.appendBytestring suffix slice)
    addAction (TonBlock.actionTag .copyleft) none suffix

/-- A reserve action: the mode is in the suffix already, the amount follows it. -/
def reserve (grams : Nat) (other : Option Cell) (suffix : BuilderData) : M Unit := do
  let amount ← lift (serializeCurrencyCollection grams other)
  let suffix ← lift (TonTypes.appendBuilder suffix amount)
  addAction (TonBlock.actionTag .reserve) none suffix

abbrev executeRawreserve : M Unit := do
  loadInstruction
  fetchStack 2
  let y ← indexVar 0 15
  let suffix ← lift (TonTypes.withRaw [UInt8.ofNat y] 8)
  let x ← lift (← var 1).asGrams
  reserve x none suffix

abbrev executeRawreservex : M Unit := do
  loadInstruction
  fetchStack 3
  let y ← indexVar 0 15
  let suffix ← lift (TonTypes.withRaw [UInt8.ofNat y] 8)
  let other ← lift (← var 1).asDict
  let x ← lift (← var 2).asGrams
  reserve x other suffix

end Actions

/-! ### Addresses -/

def readRewritePfx (cell : SliceData) : Except Failure (StackItem × SliceData) := do
  let (present, cell) ← TonTypes.getNextBit cell
  if present then
    let (len, cell) ← TonTypes.getNextInt cell 5
    let (slice, cell) ← TonTypes.getNextSlice cell len
    return (.slice slice, cell)
  else
    return (.none, cell)

/-- `parse_address`: the fields of an address, and what follows it. -/
def parseAddress (cell : SliceData) : Except Failure (List StackItem × SliceData) := do
  let (addrType, cell) ← TonTypes.getNextInt cell 2
  let tag ← StackItem.checkedInt addrType
  match addrType % 4 with
  | 0 => return ([tag], cell)
  | 1 =>
    let (len, cell) ← TonTypes.getNextInt cell 9
    let (slice, cell) ← TonTypes.getNextSlice cell len
    return ([tag, .slice slice], cell)
  | 2 =>
    let (pfx, cell) ← readRewritePfx cell
    let (workchain, cell) ← TonTypes.getNextByte cell
    let workchain ← StackItem.checkedInt workchain.toInt8.toInt
    let (slice, cell) ← TonTypes.getNextSlice cell 256
    return ([tag, pfx, workchain, .slice slice], cell)
  | _ =>
    let (pfx, cell) ← readRewritePfx cell
    let (len, cell) ← TonTypes.getNextInt cell 9
    let (workchain, cell) ← TonTypes.getNextInt cell 32
    let workchain ← StackItem.checkedInt (asI32 workchain)
    let (slice, cell) ← TonTypes.getNextSlice cell len
    return ([tag, pfx, workchain, .slice slice], cell)

def executeLdmsgaddr (T : OperationBehavior) : M Unit := do
  loadInstruction
  fetchStack 1
  let slice ← lift (← var 0).asSlice
  match parseAddress slice with
  | .ok (_, remainder) =>
    push (.slice (TonTypes.shrinkByRemainder slice remainder))
    push (.slice remainder)
    if T = .quiet then
      push (.boolean true)
  | .error .panic => throw .panic
  | .error _ =>
    if T = .quiet then
      push (← popVar)
      push (.boolean false)
    else
      err .cellUnderflow

/-- `load_address`: an error of the operation counts as a failed parse. -/
def loadAddress (T : OperationBehavior) (op : List StackItem → M (List StackItem)) : M Unit := do
  loadInstruction
  fetchStack 1
  let slice ← lift (← var 0).asSlice
  let result ← catchError do
    let (addr, _) ← lift (parseAddress slice)
    op addr
  match result with
  | .ok items => pushAll items
  | .error _ => pure ()
  let result := result.isOk
  if T = .quiet then
    push (.boolean result)
  else if !result then
    err .cellUnderflow

abbrev executeParsemsgaddr (T : OperationBehavior) : M Unit :=
  loadAddress T fun items => return [.tuple items]

/-- `get_bigint`: the data as the high bits of a 256-bit number. -/
def getBigint (slice : SliceData) : Int :=
  let length := TonTypes.remainingBits slice
  if length = 0 then
    0
  else if length < 256 then
    fromBytesBe (getBytestring slice) * 2 ^ (256 - length)
  else
    fromBytesBe ((getBytestring slice).take 32)

/-- `IntegerData::mask`. -/
def intMask (length : Nat) : Except Failure IntegerData :=
  match IntegerData.one.shl .quiet length with
  | .ok x =>
    match x.sub .quiet .one with
    | .ok x => .ok x
    | .error _ => .error .panic
  | .error _ => .error .panic

/-- The address with its first bits replaced by a rewriting prefix, as an integer. -/
def rewriteStd (T : OperationBehavior) (y : IntegerData) (pfx : StackItem) :
    Except Failure IntegerData := do
  match pfx with
  | .slice rewritePfx =>
    let length := TonTypes.remainingBits rewritePfx
    if 256 < length then
      .error (.code .cellUnderflow)
    else if 0 < length then
      let start ← IntegerData.ofInt (getBigint rewritePfx)
      let masked ← y.and T (← intMask (256 - length))
      masked.or T start
    else
      return y
  | _ => return y

/-- The workchain and the rewritten address, from the parts of a parsed one. -/
def stdParts (T : OperationBehavior) : List StackItem → M (List StackItem)
  | [_, pfx, workchain, addr] => do
    let addr ← lift addr.asSlice
    if TonTypes.remainingBits addr ≠ 256 then
      err .cellUnderflow
    let y ← lift (IntegerData.ofInt (getBigint addr))
    let y ← lift (rewriteStd T y pfx)
    return [workchain, .integer y]
  | _ => err .cellUnderflow

def executeRewriteStdAddr (T : OperationBehavior) : M Unit := loadAddress T (stdParts T)

/-- The address with its first bits replaced by a rewriting prefix, as a slice. -/
def rewriteVar (addr : SliceData) (pfx : StackItem) : M SliceData := do
  match pfx with
  | .slice rewritePfx =>
    let length := TonTypes.remainingBits rewritePfx
    if TonTypes.remainingBits addr < length then
      err .cellUnderflow
    else if 0 < length then
      let b := TonTypes.sliceAsBuilder rewritePfx
      let b ← lift (TonTypes.appendBytestring b (shrinkDataFrom addr length))
      finalizeCellAndLoad b
    else
      return addr
  | _ => return addr

/-- The same with the address as a slice. -/
def varParts : List StackItem → M (List StackItem)
  | [_, pfx, workchain, addr] => do
    let addr ← lift addr.asSlice
    return [workchain, .slice (← rewriteVar addr pfx)]
  | _ => err .cellUnderflow

def executeRewriteVarAddr (T : OperationBehavior) : M Unit := loadAddress T varParts

/-! ### Debugging -/

/-- `internal_dump`, without the output. -/
def internalDump (opts : Option InstructionOptions) : M Unit := loadInstruction opts

abbrev executeDumpStack : M Unit := internalDump none

abbrev executeDumpStackTop : M Unit := internalDump (some (.integer 1 15))

abbrev executePrintHex : M Unit := internalDump none

abbrev executePrintBin : M Unit := internalDump none

abbrev executePrintStr : M Unit := internalDump none

abbrev executeDumpHex : M Unit := internalDump none

abbrev executeDumpBin : M Unit := internalDump none

abbrev executeDumpStr : M Unit := internalDump none

/-- `switch_debug`. -/
def switchDebug (on : Bool) : M Unit :=
  modify fun e => { e with debugOn := e.debugOn + if on then 1 else -1 }

abbrev executeDebugOn : M Unit := do
  loadInstruction
  switchDebug true

/-- `DEBUGOFF`, which switches debugging on, as the source has it. -/
abbrev executeDebugOff : M Unit := do
  loadInstruction
  switchDebug true

abbrev executeDumpVar : M Unit := internalDump (some (.integer 0 15))

abbrev executePrintVar : M Unit := internalDump (some (.integer 0 15))

/-- `internal_dump_string`: the operand is to be valid UTF-8. -/
def internalDumpString : M Unit := do
  loadInstruction (some (.bytestring 12 0 4 1))
  let bytes := TonTypes.getBytestringFrom (← param sliceRaw) 8
  if !ByteArray.validateUTF8 ⟨bytes.toArray⟩ then
    err .invalidOpcode

/-- `execute_dump_string`: the byte read here only chooses the name in the output. -/
abbrev executeDumpString : M Unit := do
  let _ ← nextCmd
  internalDumpString

end Engine

end TonVm
