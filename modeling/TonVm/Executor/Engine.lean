import TonVm.Lib.Exec
import TonVm.Stack.Ops
import TonVm.Executor.Gas

/-!
# The engine

The state of the virtual machine, the monad its functions run in, and the primitives every
instruction is built from: gas, registers, instruction variables and cell loading. A function of the
source that takes `&mut Engine` and returns a `Result` is a program of `M`: when it fails, what it
wrote before stays written.

Tracing, logging and the debug buffer are left out, and so are the cargo features that are off by
default.
-/

namespace TonVm

open ExecLib

/-- `Mask::bit`. -/
def UInt8.bit (how bits : UInt8) : Bool := how &&& bits = bits

/-- `Mask::any`. -/
def UInt8.any (how bits : UInt8) : Bool := how &&& bits ≠ 0

/-- The capabilities of `ton_block` that switch behaviour of the machine. -/
inductive GlobalCapability where
  | capsTvmBugfixes2022
  | capSetLibCode
  | capResolveMerkleCell
  | capFixTupleIndexBug
  | capStcontNewFormat
  | capFastStorageStat
  | capFastStorageStatBugfix
  | capMycode
  | capInitCodeHash
  | capStorageFeeToTvm
  | capDelections
  | capIndexAccounts
  | capCopyleft
  deriving DecidableEq, Repr

/-- The mode byte of the division instructions. -/
structure DivMode where
  flags : UInt8
  deriving DecidableEq, Repr

structure RegisterPair where
  ra : Nat
  rb : Nat

structure RegisterTrio where
  ra : Nat
  rb : Nat
  rc : Nat

structure LengthAndIndex where
  length : Nat
  index : Nat

inductive WhereToGetParams where
  | getFromLastByte2Bits
  | getFromLastByte
  | getFromNextByte
  | getFromNextByteLong
  | getFromNextByteMinusOne
  | getFromNextByteMinusOneMinusOne
  | getFromNextByteMinusOneMinusTwo
  deriving DecidableEq

/-- What an instruction takes from the code. Ranges exclude their end. -/
inductive InstructionOptions where
  | argumentConstraints
  | argumentAndReturnConstraints
  | bigInteger
  | bytestring (offset r x bytes : Nat)
  | controlRegister
  | dictionary (offset bits : Nat)
  | divisionMode
  | integer (start stop : Int)
  | length (start stop : Nat)
  | lengthAndIndex
  | lengthMinusOne (start stop : Nat)
  | lengthMinusOneAndIndexMinusOne
  | lengthMinusTwoAndIndex
  | pargs (start stop : Nat)
  | rargs (start stop : Nat)
  | bitstring (offset r x refs : Nat)
  | stackRegister (start stop : Nat)
  | stackRegisterPair (place : WhereToGetParams)
  | stackRegisterTrio (place : WhereToGetParams)

section Engine

variable [TonTypes]

inductive InstructionParameter where
  | bigInteger (value : IntegerData)
  | controlRegister (index : Nat)
  | divisionMode (mode : DivMode)
  | integer (value : Int)
  | length (value : Nat)
  | lengthAndIndex (value : LengthAndIndex)
  | nargs (value : Int)
  | pargs (value : Nat)
  | rargs (value : Nat)
  | slice (value : SliceData)
  | stackRegister (index : Nat)
  | stackRegisterPair (value : RegisterPair)
  | stackRegisterTrio (value : RegisterTrio)

/-- The instruction in execution: parameters taken from the code and variables taken from the stack.
Its name only occurs in messages. -/
@[ext]
structure InstructionExt where
  params : List InstructionParameter := []
  vars : List StackItem := []

/-- The windows of the slice at which the current instruction starts. -/
structure SliceProto where
  dataStart : Nat := 0
  dataEnd : Nat := 0
  refsStart : Nat := 0
  refsEnd : Nat := 0

def SliceProto.from (slice : SliceData) : SliceProto where
  dataStart := TonTypes.pos slice
  dataEnd := TonTypes.pos slice + TonTypes.remainingBits slice
  refsStart := (TonTypes.getReferences slice).1
  refsEnd := (TonTypes.getReferences slice).2

@[ext]
structure CommittedState where
  c4 : StackItem
  c5 : StackItem
  committed : Bool

namespace CommittedState

def newEmpty : CommittedState := ⟨.none, .none, false⟩

def withParams (c4 c5 : StackItem) : CommittedState :=
  if SaveList.canPut 4 c4 && SaveList.canPut 5 c5 then ⟨c4, c5, true⟩ else newEmpty

end CommittedState

/-- The accounts of the shard by the hashes of their parts; an account is given by its cell. -/
structure IndexProvider where
  getAccountsByInitCodeHash : UInt256 → Except Failure (List Cell)
  getAccountsByCodeHash : UInt256 → Except Failure (List Cell)
  getAccountsByDataHash : UInt256 → Except Failure (List Cell)

@[ext]
structure Engine where
  cc : ContinuationData
  cmd : InstructionExt := {}
  ctrls : SaveList := {}
  libraries : List HashmapE := []
  indexProvider : Option IndexProvider := none
  visitedCells : List UInt256 := []
  visitedExoticCells : List (UInt256 × SliceData) := []
  cstate : CommittedState := .newEmpty
  gas : Gas
  codePage : Int := 0
  debugOn : Int := 1
  step : Nat := 0
  cmdCode : SliceProto := {}
  lastCmd : UInt8 := 0
  copylefted : Bool := false
  capabilities : List GlobalCapability
  blockVersion : Nat := 0

/-- Programs over the engine. -/
abbrev M := ExecM Error Engine

namespace Engine

/-! ### Errors -/

/-- The `?` operator on a result that carries no state. -/
def lift {α : Type} (x : Except Failure α) : M α :=
  match x with
  | .ok a => pure a
  | .error err => throw err.toError

/-- `err!` with a bare exception code. -/
def err {α : Type} (code : ExceptionCode) : M α := throw (.exception (.fromCode code))

/-- `fail!` with a message: an error that is no TVM exception. -/
def fail {α : Type} : M α := throw .other

/-- `match` or `if let` on the result of a call. A panic is not a result. -/
def catchError {α : Type} (m : M α) : M (Except Error α) := do
  match ← attempt m with
  | .error .panic => throw .panic
  | result => return result

/-! ### Capabilities and gas -/

def checkCapabilities (engine : Engine) (capability : GlobalCapability) : Bool :=
  engine.capabilities.contains capability

def checkCapability (capability : GlobalCapability) : M Unit := do
  unless (← get).checkCapabilities capability do
    err .invalidOpcode

def useGas (amount : Int) : M Unit :=
  modify fun e => { e with gas := e.gas.useGas amount }

def checkGasRemaining : M Unit := do
  match (← get).gas.checkGasRemaining with
  | .ok () => pure ()
  | .error e => throw e

def tryUseGas (amount : Int) : M Unit := do
  useGas amount
  checkGasRemaining

def gasUsed (engine : Engine) : Int := engine.gas.getGasUsedFull

def newGasLimit (gasLimit : Int) : M Unit :=
  modify fun e => { e with gas := e.gas.newGasLimit gasLimit }

/-! ### Instruction parameters and variables -/

def cregRaw (cmd : InstructionExt) : Option Nat :=
  cmd.params.findSome? fun | .controlRegister x => some x | _ => none

def divisionModeRaw (cmd : InstructionExt) : Option DivMode :=
  cmd.params.findSome? fun | .divisionMode x => some x | _ => none

def integerRaw (cmd : InstructionExt) : Option Int :=
  cmd.params.findSome? fun | .integer x => some x | _ => none

def bigintegerRaw (cmd : InstructionExt) : Option IntegerData :=
  cmd.params.findSome? fun | .bigInteger x => some x | _ => none

def lengthRaw (cmd : InstructionExt) : Option Nat :=
  cmd.params.findSome? fun | .length x => some x | _ => none

def nargsRaw (cmd : InstructionExt) : Option Int :=
  cmd.params.findSome? fun | .nargs x => some x | _ => none

def pargsRaw (cmd : InstructionExt) : Option Nat :=
  cmd.params.findSome? fun | .pargs x => some x | _ => none

def rargsRaw (cmd : InstructionExt) : Option Nat :=
  cmd.params.findSome? fun | .rargs x => some x | _ => none

def sliceRaw (cmd : InstructionExt) : Option SliceData :=
  cmd.params.findSome? fun | .slice x => some x | _ => none

def sregRaw (cmd : InstructionExt) : Option Nat :=
  cmd.params.findSome? fun | .stackRegister x => some x | _ => none

def sregsRaw (cmd : InstructionExt) : Option RegisterPair :=
  cmd.params.findSome? fun | .stackRegisterPair x => some x | _ => none

def sregs3Raw (cmd : InstructionExt) : Option RegisterTrio :=
  cmd.params.findSome? fun | .stackRegisterTrio x => some x | _ => none

def lengthAndIndexRaw (cmd : InstructionExt) : Option LengthAndIndex :=
  cmd.params.findSome? fun | .lengthAndIndex x => some x | _ => none

/-- `unwrap` of a parameter of the current instruction. -/
def param {α : Type} (raw : InstructionExt → Option α) : M α := do
  match raw (← get).cmd with
  | some x => pure x
  | none => throw .panic

def pushParam (parameter : InstructionParameter) : M Unit :=
  modify fun e => { e with cmd.params := e.cmd.params ++ [parameter] }

def var (index : Nat) : M StackItem := do
  match (← get).cmd.vars[index]? with
  | some item => pure item
  | none => throw .panic

/-- Writes through `var_mut`. -/
def setVar (index : Nat) (item : StackItem) : M Unit := do
  if index < (← get).cmd.vars.length then
    modify fun e => { e with cmd.vars := e.cmd.vars.set index item }
  else
    throw .panic

def varCount (engine : Engine) : Nat := engine.cmd.vars.length

def pushVar (item : StackItem) : M Unit :=
  modify fun e => { e with cmd.vars := e.cmd.vars ++ [item] }

def lastVar : M StackItem := do
  match (← get).cmd.vars.getLast? with
  | some item => pure item
  | none => fail

def popVar : M StackItem := do
  let item ← lastVar
  modify fun e => { e with cmd.vars := e.cmd.vars.dropLast }
  return item

/-- `vars.remove(index)`. -/
def removeVar (index : Nat) : M StackItem := do
  let item ← var index
  modify fun e => { e with cmd.vars := e.cmd.vars.eraseIdx index }
  return item

/-! ### The stack of the current continuation -/

def push (item : StackItem) : M Unit :=
  modify fun e => { e with cc.stack := Stack.push item e.cc.stack }

/-- Pushes `int!(value)`. -/
def pushInt (value : Int) : M Unit := do
  push (← lift (StackItem.checkedInt value))

def pushAll (items : List StackItem) : M Unit :=
  modify fun e => { e with cc.stack := e.cc.stack ++ items }

/-- An operation on the stack alone. -/
def onStack (op : Stack → Except Failure Stack) : M Unit := do
  let stack ← lift (op (← get).cc.stack)
  modify fun e => { e with cc.stack := stack }

/-- Removes items from the stack and returns them. -/
def takeStack {α : Type} (op : Stack → Except Failure (α × Stack)) : M α := do
  let (a, stack) ← lift (op (← get).cc.stack)
  modify fun e => { e with cc.stack := stack }
  return a

/-! ### Control registers -/

def ctrl (index : Nat) : M StackItem := do
  match (← get).ctrls.get index with
  | some item => pure item
  | none => err .rangeCheckError

def setCtrl (index : Nat) (item : StackItem) : M Unit :=
  modify fun e => { e with ctrls := e.ctrls.putOpt index item }

/-- `ctrls.put(index, item)`, which checks the type. -/
def putCtrl (index : Nat) (item : StackItem) : M Unit := do
  let ctrls ← lift (SaveList.put (← get).ctrls index item)
  modify fun e => { e with ctrls := ctrls }

def commit : M Unit :=
  modify fun e => { e with
    cstate := .withParams ((e.ctrls.get 4).getD .none) ((e.ctrls.get 5).getD .none) }

/-! ### Cells -/

/-- `finalize_cell`: the price is charged without a check. -/
def finalizeCell (builder : BuilderData) : M Cell := do
  useGas Gas.finalizePrice
  match TonTypes.finalize builder 1024 with
  | .ok cell => pure cell
  | .error _ => err .cellOverflow

/-- Runs a computation of the package with the engine as its gas consumer. -/
def runGasWith {α : Type} (load : Cell → M SliceData) : GasM α → M α
  | .pure a => pure a
  | .fail failure => throw failure.toError
  | .finalizeCell builder next => do
    let cell ← finalizeCell builder
    runGasWith load (next cell)
  | .loadCell cell next => do
    let slice ← load cell
    runGasWith load (next slice)

/-- The library lookup of `load_library_cell`: the first dictionary that holds the hash decides. -/
def findLibrary (load : Cell → M SliceData) (hash : SliceData) : List HashmapE → M Cell
  | [] => err .cellUnderflow
  | library :: libraries => do
    match ← runGasWith load (TonTypes.getWithGas library hash) with
    | some bucket =>
      let lib ← lift (TonTypes.sliceReference bucket 0)
      if TonTypes.hashEqSlice (TonTypes.reprHash lib) hash then
        return lib
      else
        err .dictionaryError
    | none => findLibrary load hash libraries

def loadLibraryCell (load : Cell → M SliceData) (cell : Cell) : M Cell := do
  checkCapability .capSetLibCode
  let hash ← lift (TonTypes.loadCell cell)
  let hash ← lift (TonTypes.moveBy hash 8)
  findLibrary load hash (← get).libraries

/-- One pass of the loop of `load_hashed_cell` on an exotic cell that is not cached: the cell to go on
with. -/
def resolveExotic (load : Cell → M SliceData) (cell : Cell) : M Cell := do
  match TonTypes.cellType cell with
  | .libraryReference =>
    tryUseGas (Gas.loadCellPrice true)
    loadLibraryCell load cell
  | .merkleProof =>
    if (← get).checkCapabilities .capResolveMerkleCell then
      tryUseGas (Gas.loadCellPrice true)
      let slice ← lift (TonTypes.loadCell cell)
      let slice ← lift (TonTypes.moveBy slice 8)
      let (hash, _) ← lift (TonTypes.getNextHash slice)
      let child := TonTypes.virtualize (← lift (TonTypes.cellReference cell 0)) 1
      if TonTypes.reprHash child ≠ hash then
        err .cellUnderflow
      return child
    else
      err .cellUnderflow
  | .merkleUpdate =>
    if (← get).checkCapabilities .capResolveMerkleCell then
      tryUseGas (Gas.loadCellPrice true)
      let slice ← lift (TonTypes.loadCell cell)
      let slice ← lift (TonTypes.moveBy slice 8)
      let (hash, slice) ← lift (TonTypes.getNextHash slice)
      let old := TonTypes.virtualize (← lift (TonTypes.cellReference cell 0)) 1
      if TonTypes.reprHash old ≠ hash then
        err .cellUnderflow
      let slice ← lift (TonTypes.moveBy slice 16)
      let (hash, _) ← lift (TonTypes.getNextHash slice)
      let child := TonTypes.virtualize (← lift (TonTypes.cellReference cell 1)) 1
      if TonTypes.reprHash child ≠ hash then
        err .cellUnderflow
      return child
    else
      err .cellUnderflow
  | _ => err .cellUnderflow

/-- The loop of `load_hashed_cell`, with a program to run when the fuel is used up. Every pass on an
exotic cell pays for a load first, so the fuel that `loadHashedCell` derives from the remaining gas
never is. -/
def loadHashedCellLoop (stuck : M SliceData) : Nat → Cell → Bool → List UInt256 → M SliceData
  | 0, _, _, _ => stuck
  | fuel + 1, cell, resolveSpecial, previousHashes => do
    let hash := TonTypes.reprHash cell
    if !resolveSpecial || TonTypes.cellType cell = .ordinary then
      if (← get).visitedCells.contains hash then
        tryUseGas (Gas.loadCellPrice false)
      else
        tryUseGas (Gas.loadCellPrice true)
        modify fun e => { e with visitedCells := hash :: e.visitedCells }
      finish (← lift (TonTypes.loadCell cell)) previousHashes
    else
      match (← get).visitedExoticCells.lookup hash with
      | some slice =>
        tryUseGas (Gas.loadCellPrice false)
        finish slice previousHashes
      | none =>
        let load := fun c => loadHashedCellLoop stuck fuel c true []
        let child ← resolveExotic load cell
        loadHashedCellLoop stuck fuel child resolveSpecial (hash :: previousHashes)
where
  /-- Caches the slice for the exotic cells passed on the way. -/
  finish (slice : SliceData) (previousHashes : List UInt256) : M SliceData := do
    modify fun e => { e with
      visitedExoticCells := previousHashes.map (·, slice) ++ e.visitedExoticCells }
    return slice

/-- `load_hashed_cell`, with a pass of the loop for every load the remaining gas can pay. -/
def loadHashedCell (cell : Cell) (resolveSpecial : Bool) : M SliceData := do
  let fuel := (← get).gas.gasRemaining.toNat / 100 + 2
  loadHashedCellLoop (throw .panic) fuel cell resolveSpecial []

/-- The `GasConsumer` of the engine. -/
def loadCell (cell : Cell) : M SliceData := loadHashedCell cell true

def finalizeCellAndLoad (builder : BuilderData) : M SliceData := do
  let cell ← finalizeCell builder
  loadHashedCell cell true

def runGas {α : Type} (m : GasM α) : M α := runGasWith loadCell m

end Engine

end Engine

end TonVm
