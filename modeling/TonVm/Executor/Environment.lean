import TonVm.Executor.Tuples
import TonVm.Stack.IntegerEncoding

/-!
# The environment of a contract

Gas control, the smart contract info in the first item of c7 with the random seed and the
configuration, hashes and signatures, and the variable-length integers of currency amounts.
-/

namespace TonVm

open ExecLib

namespace Engine

variable [TonTypes]

/-! ### Gas -/

def i64Min : Int := -2 ^ 63

def i64Max : Int := 2 ^ 63 - 1

/-- `i64::from_int`. -/
def i64FromInt (v : Int) : Option Int :=
  if i64Min ≤ v ∧ v ≤ i64Max then some v else none

def gramtogas (engine : Engine) (nanograms : IntegerData) : Except Failure Int := do
  let (gas, _) ← nanograms.div .quiet (.value engine.gas.gasPrice) .floorToZero
  match gas.takeValueOf i64FromInt with
  | .ok v => .ok v
  | .error _ => .ok i64Max

def setgaslimit (gasLimit : Int) : M Unit := do
  if gasLimit < (← get).gasUsed then
    err .outOfGas
  else
    newGasLimit gasLimit

abbrev executeAccept : M Unit := do
  loadInstruction
  newGasLimit i64Max

abbrev executeSetgaslimit : M Unit := do
  loadInstruction
  fetchStack 1
  let x ← lift (← var 0).asInteger
  setgaslimit (← lift (x.takeValueOf i64FromInt))

abbrev executeBuygas : M Unit := do
  loadInstruction
  fetchStack 1
  let nanograms ← lift (← var 0).asInteger
  setgaslimit (← lift (gramtogas (← get) nanograms))

abbrev executeGramtogas : M Unit := do
  loadInstruction
  fetchStack 1
  let nanograms ← lift (← var 0).asInteger
  pushInt (← if nanograms.isNeg then pure 0 else lift (gramtogas (← get) nanograms))

abbrev executeGastogram : M Unit := do
  loadInstruction
  fetchStack 1
  let gas ← lift (← var 0).asInteger
  push (.integer (← lift (gas.mul .quiet (.value (← get).gas.gasPrice))))

def executeCommit : M Unit := do
  loadInstruction
  commit

/-- `GASREMAINING`; the remaining gas is an `i64`. -/
abbrev executeGasRemaining : M Unit := do
  checkCapability .capsTvmBugfixes2022
  loadInstruction
  push (.int (Int.bmod (← get).gas.gasRemaining (2 ^ 64)))

/-! ### Smart contract info -/

def smciParam (index : Nat) : M StackItem := do
  let tuple ← globals
  match tuple.head? with
  | none => err .rangeCheckError
  | some first =>
    match (← lift first.asTuple)[index]? with
    | some item => return item
    | none => err .rangeCheckError

def rand : M IntegerData := do
  lift (← smciParam 6).asInteger

/-- `set_rand`: c7 is emptied while its first item is rebuilt, and an error leaves it empty. -/
def setRand (rand : IntegerData) : M Unit := do
  let tuple ← globals
  setCtrl 7 (.tuple [])
  match tuple with
  | [] => err .rangeCheckError
  | t1 :: rest =>
    let items ← lift t1.asTuple
    if items.length ≤ 6 then
      err .rangeCheckError
    useGas (Gas.tupleGasPrice items.length)
    useGas (Gas.tupleGasPrice tuple.length)
    setCtrl 7 (.tuple (.tuple (items.set 6 (.integer rand)) :: rest))

/-- The random seed as bytes. -/
def randBytes : M (List UInt8) := do
  return TonTypes.builderBytes (← lift ((← rand).asBuilder .unsignedBigEndian 256))

abbrev executeAddrand : M Unit := do
  loadInstruction
  fetchStack 1
  let seed ← randBytes
  let x ← lift (← var 0).asInteger
  let added ← lift (x.asBuilder .unsignedBigEndian 256)
  let hash := TonTypes.sha256 (seed ++ TonTypes.builderBytes added)
  setRand (← lift (Encoding.deserialize .unsignedBigEndian 256 (hashBytes hash)))

abbrev executeRand : M Unit := do
  loadInstruction
  fetchStack 1
  let (low, high) := TonTypes.sha512 (← randBytes)
  let x ← lift (← var 0).asInteger
  push (.integer (← lift ((IntegerData.ofHash high).mulShr256 .signaling x)))
  setRand (← lift (Encoding.deserialize .unsignedBigEndian 256 (hashBytes low)))

abbrev executeRandu256 : M Unit := do
  loadInstruction
  let (low, high) := TonTypes.sha512 (← randBytes)
  setRand (← lift (Encoding.deserialize .unsignedBigEndian 256 (hashBytes low)))
  push (.integer (← lift (Encoding.deserialize .unsignedBigEndian 256 (hashBytes high))))

abbrev executeSetrand : M Unit := do
  loadInstruction
  fetchStack 1
  setRand (← lift (← var 0).asInteger)

/-- `get_config_param`: the reference in the value of the configuration dictionary. -/
def getConfigParam (index : Int) : M (Option Cell) := do
  match ← smciParam 9 with
  | .cell data =>
    let key ← lift (TonTypes.appendBits TonTypes.builderDefault (index % 2 ^ 32).toNat 32)
    let key ← lift (TonTypes.loadBuilder key)
    match ← runGas (TonTypes.getWithGas ⟨32, some data⟩ key) with
    | some value => return TonTypes.referenceOpt value 0
    | none => return none
  | _ => return none

abbrev executeConfigParam (opt : Bool) : M Unit := do
  loadInstruction
  fetchStack 1
  let x ← lift (← var 0).asInteger
  let index ← lift (x.into (-2 ^ 31) (2 ^ 31 - 1))
  match ← getConfigParam index with
  | some value =>
    push (.cell value)
    if !opt then
      push (.boolean true)
  | none => push (if opt then .none else .boolean false)

abbrev executeConfigDict : M Unit := do
  loadInstruction
  push (← smciParam 9)
  push (.int 32)

abbrev executeConfigOptParam : M Unit := executeConfigParam true

abbrev executeConfigRefParam : M Unit := executeConfigParam false

def extractConfig : M Unit := do
  loadInstruction (some (.length 0 16))
  push (← smciParam (← param lengthRaw))

/-- `extract_config` behind a capability. -/
def extractConfigIf (capability : GlobalCapability) : M Unit := do
  checkCapability capability
  extractConfig

abbrev executeBalance : M Unit := extractConfig

abbrev executeConfigRoot : M Unit := extractConfig

abbrev executeGetparam : M Unit := extractConfig

abbrev executeNow : M Unit := extractConfig

abbrev executeBlocklt : M Unit := extractConfig

abbrev executeLtime : M Unit := extractConfig

abbrev executeMyAddr : M Unit := extractConfig

abbrev executeMyCode : M Unit := extractConfigIf .capMycode

abbrev executeRandseed : M Unit := extractConfig

abbrev executeInitCodeHash : M Unit := extractConfigIf .capInitCodeHash

abbrev executeSeqNo : M Unit := extractConfigIf .capDelections

abbrev executeStorageFeesCollected : M Unit := extractConfigIf .capStorageFeeToTvm

/-! ### Hashes and signatures -/

abbrev executeHashcu : M Unit := do
  loadInstruction
  fetchStack 1
  push (.integer (.ofHash (TonTypes.reprHash (← lift (← var 0).asCell))))

abbrev executeHashsu : M Unit := do
  loadInstruction
  fetchStack 1
  let slice ← lift (← var 0).asSlice
  let cell ← finalizeCell (TonTypes.sliceAsBuilder slice)
  push (.integer (.ofHash (TonTypes.reprHash cell)))

abbrev executeSha256u : M Unit := do
  loadInstruction
  fetchStack 1
  let slice ← lift (← var 0).asSlice
  if TonTypes.remainingBits slice % 8 = 0 then
    push (.integer (.ofHash (TonTypes.sha256 (getBytestring slice))))
  else
    err .cellUnderflow

def publicKeyBits : Nat := 256

def signatureBits : Nat := 512

/-- The bytes that are signed: a hash, or the data of a slice. -/
def signedData (hash : Bool) : M (List UInt8) := do
  if hash then
    let x ← lift (← var 2).asInteger
    return TonTypes.builderBytes (← lift (x.asBuilder .unsignedBigEndian 256))
  else
    let slice ← lift (← var 2).asSlice
    if TonTypes.remainingBits slice % 8 ≠ 0 then
      err .cellUnderflow
    else
      return getBytestring slice

def checkSignature (hash : Bool) : M Unit := do
  loadInstruction
  fetchStack 3
  let x ← lift (← var 0).asInteger
  let pubKey ← lift (x.asBuilder .unsignedBigEndian publicKeyBits)
  let signature ← lift (← var 1).asSlice
  if hash then
    let _ ← lift (← var 2).asInteger
  else
    let _ ← lift (← var 2).asSlice
  if TonTypes.remainingBits signature < signatureBits then
    err .cellUnderflow
  let data ← signedData hash
  let bugfixes := (← get).checkCapabilities .capsTvmBugfixes2022
  let pubKey := TonTypes.builderBytes pubKey
  let signature := (getBytestring signature).take (signatureBits / 8)
  if !TonTypes.publicKeyValid pubKey then
    if bugfixes then
      push (.boolean false)
    else
      err .fatalError
  else if !TonTypes.signatureValid signature then
    if bugfixes || hash then
      push (.boolean false)
    else
      err .fatalError
  else
    push (.boolean (TonTypes.signatureVerify pubKey data signature))

abbrev executeChksigns : M Unit := checkSignature false

abbrev executeChksignu : M Unit := checkSignature true

/-! ### Currency amounts -/

/-- Loads an integer behind its length in bytes, which takes `len` bits. -/
def loadVar (len : Nat) (sign : Bool) : M Unit := do
  loadInstruction
  fetchStack 1
  let slice ← lift (← var 0).asSlice
  let (bytes, slice) ← lift (TonTypes.getNextInt slice len)
  let (vec, slice) ← lift (TonTypes.getNextBytes slice bytes)
  pushInt (if sign then fromSignedBytesBe vec else fromBytesBe vec)
  push (.slice slice)

abbrev executeLdgrams : M Unit := loadVar 4 false

abbrev executeLdvarint16 : M Unit := loadVar 4 true

abbrev executeLdvaruint32 : M Unit := loadVar 5 false

abbrev executeLdvarint32 : M Unit := loadVar 5 true

/-- The size in bits and the bytes of an integer to be stored. -/
def varBytes (x : IntegerData) (sign : Bool) : Except Failure (Nat × List UInt8) := do
  if sign then
    let size ← x.signedBitsize
    return (size, ← x.takeValueOf fun v => some (toSignedBytesBe v))
  else
    x.checkNeg
    let size ← x.ubitsize
    return (size, ← x.takeValueOf fun v => some (toBytesBe v.natAbs))

def storeVar (maxBits len : Nat) (sign : Bool) : M Unit := do
  loadInstruction
  fetchStack 2
  let x ← lift (← var 0).asInteger
  if (← get).checkCapabilities .capsTvmBugfixes2022 && x.isNan then
    err .integerOverflow
  let b ← lift (← var 1).asBuilder
  let (size, vec) ← lift (varBytes x sign)
  if maxBits < size then
    err .rangeCheckError
  let bytes := if size ≠ 0 then vec.length else 0
  let x ← lift (TonTypes.appendBits TonTypes.builderDefault bytes len)
  let x ← lift (TonTypes.appendRaw x vec (bytes * 8))
  if TonTypes.canAppend b x then
    match TonTypes.appendBuilder b x with
    | .ok b => push (.builder b)
    | .error _ => throw .panic
  else
    err .cellOverflow

abbrev executeStgrams : M Unit := storeVar 120 4 false

abbrev executeStvarint16 : M Unit := storeVar 120 4 true

abbrev executeStvaruint32 : M Unit := storeVar 248 5 false

abbrev executeStvarint32 : M Unit := storeVar 248 5 true

end Engine

end TonVm
