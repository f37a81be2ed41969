import TonVm.Executor.Handlers

/-!
# Starting the machine

`Engine::setup` fills the control registers with their defaults and lets the registers given by the
caller override them. The temporary data of c7 is the smart contract information.
-/

namespace TonVm

section SmartContractInfo

variable [TonTypes]

/-- The smart contract information of c7. The balance is given by its grams and the root of its
dictionary of other currencies. -/
structure SmartContractInfo where
  actions : UInt16 := 0
  msgsSent : UInt16 := 0
  unixTime : UInt32 := 0
  blockLt : UInt64 := 0
  transLt : UInt64 := 0
  seqNo : UInt32 := 0
  randSeed : IntegerData := .zero
  balanceGrams : BitVec 128 := 0
  balanceOther : Option Cell := none
  balanceRemainingGrams : BitVec 128 := 0
  balanceRemainingOther : Option Cell := none
  myself : SliceData := TonTypes.sliceDefault
  configParams : Option Cell := none
  mycode : Cell := TonTypes.cellDefault
  initCodeHash : UInt256 := 0
  storageFeeCollected : BitVec 128 := 0
  capabilities : List GlobalCapability := []

namespace SmartContractInfo

def oldDefault (mycode : Cell) : SmartContractInfo :=
  { mycode, capabilities := [.capInitCodeHash, .capMycode] }

def cellOrNone : Option Cell → StackItem
  | some cell => .cell cell
  | none => .none

/-- The parameters that depend on a capability: each goes to its own place, and a gap before it is
filled with Null. -/
def additionalParams (capabilities : List GlobalCapability)
    (params : List (GlobalCapability × StackItem)) : List StackItem :=
  params.zipIdx.foldl (fun added ((capability, item), i) =>
    if capabilities.contains capability then
      added ++ List.replicate (i - added.length) StackItem.none ++ [item]
    else
      added) []

/-- `into_temp_data_item`. The checked integers are those of machine types, which are in range. -/
def intoTempDataItem (info : SmartContractInfo) : StackItem :=
  let balance := max info.balanceRemainingGrams.toNat info.balanceGrams.toNat
  let balanceOther := info.balanceRemainingOther.or info.balanceOther
  let params := [
    .int 0x076ef1ea,
    .int info.actions.toNat,
    .int info.msgsSent.toNat,
    .int info.unixTime.toNat,
    .int info.blockLt.toNat,
    .int info.transLt.toNat,
    .integer info.randSeed,
    .tuple [.int balance, cellOrNone balanceOther],
    .slice info.myself,
    cellOrNone info.configParams]
  .tuple [.tuple (params ++ additionalParams info.capabilities [
    (.capMycode, .cell info.mycode),
    (.capInitCodeHash, .int info.initCodeHash.toNat),
    (.capStorageFeeToTvm, .int info.storageFeeCollected.toNat),
    (.capDelections, .int info.seqNo.toNat)])]

end SmartContractInfo

end SmartContractInfo

namespace Engine

variable [TonTypes]

def withCapabilities (capabilities : List GlobalCapability) : Engine where
  cc := .newEmpty
  gas := Gas.empty
  capabilities := capabilities

/-- The registers before those of the caller are applied. -/
def defaultCtrls (engine : Engine) (code : SliceData) : SaveList where
  c0 := some (.continuation (.withType (.quit 0)))
  c1 := some (.continuation (.withType (.quit 1)))
  c2 := if engine.checkCapabilities .capsTvmBugfixes2022 then
      some (.continuation (.withType .excQuit))
    else
      engine.ctrls.c2
  c3 := some (.continuation (.withCode code))
  c4 := some (.cell TonTypes.cellDefault)
  c5 := some (.cell TonTypes.cellDefault)
  c7 := some (SmartContractInfo.oldDefault (TonTypes.sliceIntoCell code)).intoTempDataItem

def setupWithLibraries (engine : Engine) (code : SliceData) (ctrls : Option SaveList)
    (stack : Option Stack) (gas : Option Gas) (libraries : List HashmapE) : Engine :=
  { engine with
    cc := { engine.cc with code := code, stack := stack.getD engine.cc.stack }
    cmdCode := .from code
    gas := gas.getD Gas.test
    ctrls := (defaultCtrls engine code).apply (ctrls.getD {})
    libraries := libraries }

def setup (engine : Engine) (code : SliceData) (ctrls : Option SaveList) (stack : Option Stack)
    (gas : Option Gas) : Engine :=
  engine.setupWithLibraries code ctrls stack gas []

/-- `execute` on code page 0. -/
def execute [TonBlock] (seekFuel fuel : Nat) : M (Option Int) :=
  executeLoop (getHandler Handlers.newCodePage0) seekFuel fuel

end Engine

end TonVm
