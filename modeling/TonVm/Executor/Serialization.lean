import TonVm.Executor.Environment
import TonVm.Stack.CodecOld

/-!
# Building cells

The instructions that store data in builders. A family of instructions shares one function, and a
mask says whether the operands are swapped, whether a failure is reported on the stack and where a
length comes from.
-/

namespace TonVm

open ExecLib

namespace StoreMask

def QUIET : UInt8 := 0x01
def STACK : UInt8 := 0x02
def CMD : UInt8 := 0x04
def BITS : UInt8 := 0x08
def REFS : UInt8 := 0x10
def INV : UInt8 := 0x20

end StoreMask

namespace Engine

variable [TonTypes]

open StoreMask

/-! ### Size of a builder -/

def sizeB (how : UInt8) : M Unit := do
  loadInstruction
  fetchStack 1
  let b ← lift (← var 0).asBuilder
  if UInt8.bit how BITS then
    pushInt (if UInt8.bit how INV then TonTypes.bitsFree b else TonTypes.bitsUsed b)
  if UInt8.bit how REFS then
    pushInt (if UInt8.bit how INV then TonTypes.referencesFree b else TonTypes.referencesUsed b)

abbrev executeBbits : M Unit := sizeB BITS

abbrev executeBrefs : M Unit := sizeB REFS

abbrev executeBbitrefs : M Unit := sizeB (BITS ||| REFS)

abbrev executeBrembits : M Unit := sizeB (INV ||| BITS)

abbrev executeBremrefs : M Unit := sizeB (INV ||| REFS)

abbrev executeBrembitrefs : M Unit := sizeB (INV ||| BITS ||| REFS)

/-! ### Cells from builders -/

abbrev executeEndc : M Unit := do
  loadInstruction
  fetchStack 1
  convert (Addr.var 0) .cell .builder
  push (← removeVar 0)

def executeEndxc : M Unit := do
  loadInstruction
  fetchStack 2
  let special ← lift (← var 0).asBool
  let b ← lift (← var 1).asBuilder
  let b ←
    if !special then
      pure b
    else if TonTypes.bitsUsed b < 8 then do
      useGas Gas.finalizePrice
      err .cellOverflow
    else
      match (TonTypes.builderBytes b).head? with
      | none => throw .panic
      | some byte =>
        match TonTypes.cellTypeTryFrom byte with
        | .ok cellType => pure (TonTypes.setType b cellType)
        | .error _ => err .cellOverflow
  push (.cell (← finalizeCell b))

abbrev executeNewc : M Unit := do
  loadInstruction
  push (.builder TonTypes.builderDefault)

/-! ### Storing -/

/-- `store_data`: appends a builder to the one in a variable. In quiet mode a failure pushes the
operands back with a code. -/
def storeData (index : Nat) (x : Except Failure BuilderData) (quiet finalize : Bool) :
    M Unit := do
  let result : Int ←
    match x with
    | .ok x => do
      let b ← lift (← var index).asBuilder
      if TonTypes.canAppend b x then
        let b ← lift (TonTypes.appendBuilder b x)
        if finalize then
          tryUseGas Gas.finalizePrice
        push (.builder b)
        pure 0
      else if quiet then
        pure (-1)
      else
        err .cellOverflow
    | .error e => if quiet then pure 1 else lift (.error e)
  if result ≠ 0 then
    let len := (← get).varCount
    push (← var (len - 1))
    push (← var (len - 2))
    pushInt result
  else if quiet then
    push (.int 0)

/-- The operands of a store: what is stored, read from one variable, and the variable of the
builder, whose type is checked. -/
def storeOperands {α : Type} (how : UInt8) (read : StackItem → Except Failure α) :
    M (α × Nat) := do
  if UInt8.bit how INV then
    let x ← lift (read (← var 0))
    let _ ← lift (← var 1).asBuilder
    return (x, 1)
  else
    let _ ← lift (← var 0).asBuilder
    return (← lift (read (← var 1)), 0)

def storeB (how : UInt8) : M Unit := do
  loadInstruction
  fetchStack 2
  let (x, b) ← storeOperands how StackItem.asBuilder
  storeData b (.ok x) (UInt8.bit how QUIET) false

abbrev executeStb : M Unit := storeB 0

abbrev executeStbr : M Unit := storeB INV

abbrev executeStbq : M Unit := storeB QUIET

abbrev executeStbrq : M Unit := storeB (INV ||| QUIET)

def storeR (how : UInt8) : M Unit := do
  loadInstruction
  fetchStack 2
  let (x, b) ← storeOperands how StackItem.asCell
  storeData b (TonTypes.withRawAndRefs [] 0 [x]) (UInt8.bit how QUIET) false

abbrev executeStref : M Unit := storeR 0

abbrev executeStrefr : M Unit := storeR INV

abbrev executeStrefq : M Unit := storeR QUIET

abbrev executeStrefrq : M Unit := storeR (INV ||| QUIET)

/-- `store_br`: the inner builder is moved out of its variable, which is left with an empty one. -/
def storeBr (how : UInt8) : M Unit := do
  loadInstruction
  fetchStack 2
  let (x, b) ← storeOperands how StackItem.asBuilder
  setVar (1 - b) (.builder TonTypes.builderDefault)
  let cell ← lift (TonTypes.builderIntoCell x)
  storeData b (TonTypes.withRawAndRefs [] 0 [cell]) (UInt8.bit how QUIET) true

abbrev executeStbref : M Unit := storeBr 0

abbrev executeEndcst : M Unit := storeBr INV

abbrev executeStbrefq : M Unit := storeBr QUIET

abbrev executeStbrefrq : M Unit := storeBr (INV ||| QUIET)

def storeS (how : UInt8) : M Unit := do
  loadInstruction
  fetchStack 2
  let (x, b) ← storeOperands how StackItem.asSlice
  storeData b (.ok (TonTypes.sliceAsBuilder x)) (UInt8.bit how QUIET) false

abbrev executeStslice : M Unit := storeS 0

abbrev executeStslicer : M Unit := storeS INV

abbrev executeStsliceq : M Unit := storeS QUIET

abbrev executeStslicerq : M Unit := storeS (INV ||| QUIET)

abbrev executeStdict : M Unit := do
  loadInstruction
  fetchStack 2
  let (x, b) ← storeOperands 0 StackItem.asDict
  let x :=
    match x with
    | some root => TonTypes.withRawAndRefs [0xC0] 1 [root]
    | none => TonTypes.withRaw [0x40] 1
  storeData b x false false

/-! ### Free space -/

def checkB (how : UInt8) : M Unit := do
  let params :=
    1 + (if UInt8.bit how BITS then 1 else 0) + (if UInt8.bit how REFS then 1 else 0) -
      (if UInt8.bit how CMD then 1 else 0)
  if UInt8.bit how CMD then
    loadInstruction (some (.lengthMinusOne 0 256))
  else
    loadInstruction
  fetchStack params
  let l ←
    if UInt8.bit how CMD then param lengthRaw
    else if UInt8.bit how BITS then indexVar (params - 2) 1023
    else pure 0
  let r ← if UInt8.bit how REFS then indexVar 0 4 else pure 0
  let b ← lift (← var (params - 1)).asBuilder
  let status :=
    (!UInt8.bit how BITS || TonTypes.checkEnoughSpace b l) &&
      (!UInt8.bit how REFS || TonTypes.checkEnoughRefs b r)
  if UInt8.bit how QUIET then
    push (.boolean status)
  else if !status then
    err .cellOverflow

abbrev executeBchkrefs : M Unit := checkB (REFS ||| STACK)

abbrev executeBchkrefsq : M Unit := checkB (REFS ||| STACK ||| QUIET)

abbrev executeBchkbitrefs : M Unit := checkB (BITS ||| REFS ||| STACK)

abbrev executeBchkbitrefsq : M Unit := checkB (BITS ||| REFS ||| STACK ||| QUIET)

abbrev executeBchkbitsShort : M Unit := checkB (BITS ||| CMD)

abbrev executeBchkbitsLong : M Unit := checkB (BITS ||| STACK)

abbrev executeBchkbitsqShort : M Unit := checkB (BITS ||| CMD ||| QUIET)

abbrev executeBchkbitsqLong : M Unit := checkB (BITS ||| STACK ||| QUIET)

/-! ### Integers -/

def store (encoding : Encoding) (how : UInt8) : M Unit := do
  loadInstruction (some (.lengthMinusOne 0 256))
  fetchStack 2
  let len ← param lengthRaw
  let (x, b) ← storeOperands how StackItem.asInteger
  storeData b (x.asBuilder encoding len) (UInt8.bit how QUIET) false

abbrev executeSti : M Unit := store .signedBigEndian 0

abbrev executeStu : M Unit := store .unsignedBigEndian 0

abbrev executeStir : M Unit := store .signedBigEndian INV

abbrev executeStur : M Unit := store .unsignedBigEndian INV

abbrev executeStiq : M Unit := store .signedBigEndian QUIET

abbrev executeStuq : M Unit := store .unsignedBigEndian QUIET

abbrev executeStirq : M Unit := store .signedBigEndian (QUIET ||| INV)

abbrev executeSturq : M Unit := store .unsignedBigEndian (QUIET ||| INV)

def storeX (encoding : Encoding) (how : UInt8) (limit : Nat) : M Unit := do
  loadInstruction
  fetchStack 3
  let len ← lift (← var 0).asInteger
  let (x, b) ←
    if UInt8.bit how INV then do
      let x ← lift (← var 1).asInteger
      let _ ← lift (← var 2).asBuilder
      pure (x, 2)
    else do
      let _ ← lift (← var 1).asBuilder
      pure (← lift (← var 2).asInteger, 1)
  let len ← lift (len.intoUsize 0 limit)
  storeData b (x.asBuilder encoding len) (UInt8.bit how QUIET) false

abbrev executeStix : M Unit := storeX .signedBigEndian 0 257

abbrev executeStux : M Unit := storeX .unsignedBigEndian 0 256

abbrev executeStixr : M Unit := storeX .signedBigEndian INV 257

abbrev executeStuxr : M Unit := storeX .unsignedBigEndian INV 256

abbrev executeStixq : M Unit := storeX .signedBigEndian QUIET 257

abbrev executeStuxq : M Unit := storeX .unsignedBigEndian QUIET 256

abbrev executeStixrq : M Unit := storeX .signedBigEndian (QUIET ||| INV) 257

abbrev executeStuxrq : M Unit := storeX .unsignedBigEndian (QUIET ||| INV) 256

def storeL (encoding : Encoding) (length : Nat) : M Unit := do
  loadInstruction
  fetchStack 2
  let (x, b) ← storeOperands 0 StackItem.asInteger
  storeData b (x.asBuilder encoding length) false false

abbrev executeStile4 : M Unit := storeL .signedLittleEndian 32

abbrev executeStule4 : M Unit := storeL .unsignedLittleEndian 32

abbrev executeStile8 : M Unit := storeL .signedLittleEndian 64

abbrev executeStule8 : M Unit := storeL .unsignedLittleEndian 64

/-! ### Constant bits and data from the code -/

def storeBits (builder : BuilderData) (n : Nat) (bit : Bool) : Except Failure BuilderData :=
  if n ≠ 0 then
    TonTypes.appendRaw builder (List.replicate (n / 8 + 1) (if bit then 0xFF else 0)) n
  else
    .ok builder

def stbits (bit : Bool) : M Unit := do
  loadInstruction
  fetchStack 2
  let n ← lift (← var 0).asInteger
  let b ← lift (← var 1).asBuilder
  let n ← lift (n.intoUsize 0 1023)
  push (.builder (← lift (storeBits b n bit)))

abbrev executeStzeroes : M Unit := stbits false

abbrev executeStones : M Unit := stbits true

abbrev executeStsame : M Unit := do
  loadInstruction
  fetchStack 3
  let x ← lift (← var 0).asInteger
  let n ← lift (← var 1).asInteger
  let b ← lift (← var 2).asBuilder
  let x ← lift (x.intoUsize 0 1)
  let n ← lift (n.intoUsize 0 1023)
  push (.builder (← lift (storeBits b n (x ≠ 0))))

abbrev executeStsliceconst : M Unit := do
  loadInstruction (some (.bitstring 9 2 3 0))
  fetchStack 1
  let builder ← lift (← var 0).asBuilder
  let slice ← param sliceRaw
  push (.builder (← lift (TonTypes.checkedAppendReferencesAndData builder slice)))

abbrev executeStrefconst : M Unit := do
  loadInstruction
  fetchReference
  fetchStack 1
  let cell ← lift (← var 0).asCell
  let b ← lift (← var 1).asBuilder
  push (.builder (← lift (TonTypes.checkedAppendReference b cell)))

abbrev executeStref2const : M Unit := do
  loadInstruction
  fetchReference
  fetchReference
  fetchStack 1
  let cell ← lift (← var 0).asCell
  let cell2 ← lift (← var 1).asCell
  let b ← lift (← var 2).asBuilder
  let b ← lift (TonTypes.checkedAppendReference b cell)
  push (.builder (← lift (TonTypes.checkedAppendReference b cell2)))

/-! ### Depth -/

/-- One more than the depth of the deepest cell. -/
def depthOver (cells : List Cell) : Nat :=
  cells.foldl (fun depth cell => max depth (1 + TonTypes.cellDepth cell)) 0

abbrev executeBdepth : M Unit := do
  loadInstruction
  fetchStack 1
  let b ← lift (← var 0).asBuilder
  pushInt (depthOver (TonTypes.builderReferences b))

abbrev executeCdepth : M Unit := do
  loadInstruction
  fetchStack 1
  let item ← var 0
  if item.isNull then
    push (.int 0)
  else
    let c ← lift item.asCell
    if !(← get).checkCapabilities .capResolveMerkleCell && TonTypes.cellReferencesCount c = 0 then
      push (.int 0)
    else
      pushInt (TonTypes.cellDepth c)

/-- The references of a slice from an index on. -/
def sliceReferences (slice : SliceData) : Nat → Nat → Except Failure (List Cell)
  | 0, _ => return []
  | count + 1, index => do
    let cell ← TonTypes.sliceReference slice index
    return cell :: (← sliceReferences slice count (index + 1))

abbrev executeSdepth : M Unit := do
  loadInstruction
  fetchStack 1
  let s ← lift (← var 0).asSlice
  pushInt (depthOver (← lift (sliceReferences s (TonTypes.remainingReferences s) 0)))

/-! ### Continuations -/

abbrev executeStcont : M Unit := do
  loadInstruction
  fetchStack 2
  let _ ← lift (← var 0).asBuilder
  let cont ← lift (← var 1).asContinuation
  let cont ←
    if (← get).checkCapabilities .capStcontNewFormat then
      runGas cont.serialize
    else do
      let (cont, gas) ← lift cont.serializeOld
      useGas gas
      pure cont
  storeData 0 (.ok cont) false false

end Engine

end TonVm
