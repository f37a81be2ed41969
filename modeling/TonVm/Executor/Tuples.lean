import TonVm.Executor.StackOps

/-!
# Tuples, nulls and global variables

The instructions of one family differ in a mask `how`, as in the source: where an index or a length
comes from, what is compared with it, and whether a missing item is an error.
-/

namespace TonVm

open ExecLib

namespace TupleMask

def INDEX : UInt8 := 0x03
def COUNT : UInt8 := 0x01
def CMD : UInt8 := 0x04
def QUIET : UInt8 := 0x10
def STACK : UInt8 := 0x08
def CMP : UInt8 := 0xC0
def EXACT : UInt8 := 0x40
def LESS : UInt8 := 0x80
def MORE : UInt8 := 0xC0

end TupleMask

namespace Engine

variable [TonTypes]

open TupleMask

/-- Loads an instruction whose mask says whether a length follows in the code. -/
def loadSized (how : UInt8) : M Unit :=
  if UInt8.bit how CMD then loadInstruction (some (.length 0 16)) else loadInstruction

/-- A variable as an index. -/
def indexVar (index hi : Nat) : M Nat := do
  let x ← lift (← var index).asInteger
  lift (x.intoUsize 0 hi)

/-- The last variables become a tuple. -/
abbrev makeTuple (params : Nat) : M Unit := do
  fetchStack params
  let vars := (← get).cmd.vars
  let items := (vars.drop (vars.length - params)).reverse
  modify fun e => { e with cmd.vars := vars.take (vars.length - params) }
  useGas (Gas.tupleGasPrice items.length)
  push (.tuple items)

def tuple (how : UInt8) : M Unit := do
  loadSized how
  let params ←
    if UInt8.bit how CMD then
      param lengthRaw
    else do
      fetchStack 1
      indexVar 0 255
  makeTuple params

abbrev executeTupleCreate : M Unit := tuple CMD

abbrev executeTupleCreatevar : M Unit := tuple STACK

def tupleIndex (how : UInt8) : M Unit := do
  let index := how &&& INDEX
  let params := if index = 0 then 2 else 1
  if index = 0 then
    loadInstruction
  else if index = 1 then
    loadInstruction (some (.length 0 16))
  else if index = 2 then
    loadInstruction (some (.stackRegisterPair .getFromLastByte2Bits))
  else
    loadInstruction (some (.stackRegisterTrio .getFromLastByte2Bits))
  fetchStack params
  let n ← if index = 0 then indexVar 0 254 else pure 0
  let item ← var (params - 1)
  if item.isNull && UInt8.bit how QUIET then
    push .none
  else
    let value ←
      if index = 0 then
        lift (item.tupleItem n (UInt8.bit how QUIET))
      else if index = 1 then
        lift (item.tupleItem (← param lengthRaw) (UInt8.bit how QUIET))
      else if index = 2 then do
        let ⟨ra, rb⟩ ← param sregsRaw
        lift ((← lift (item.tupleItem ra false)).tupleItem rb false)
      else do
        let ⟨ra, rb, rc⟩ ← param sregs3Raw
        let value ← lift (item.tupleItem ra false)
        let value ← lift (value.tupleItem rb false)
        lift (value.tupleItem rc false)
    push value

abbrev executeTupleIndex : M Unit := tupleIndex (1 ||| CMD)

abbrev executeTupleIndexQuiet : M Unit := tupleIndex (1 ||| CMD ||| QUIET)

abbrev executeTupleIndex2 : M Unit := tupleIndex (2 ||| CMD)

abbrev executeTupleIndex3 : M Unit := tupleIndex (3 ||| CMD)

abbrev executeTupleIndexvar : M Unit := tupleIndex STACK

abbrev executeTupleIndexvarQuiet : M Unit := tupleIndex (STACK ||| QUIET)

/-- Whether the length of a tuple is refused by the comparison in the mask. -/
def refusesLength (how : UInt8) (len n : Nat) : Bool :=
  let mask := how &&& CMP
  (mask = EXACT && len ≠ n) || (mask = LESS && len < n) || (mask = MORE && len > n)

def untuple (how : UInt8) : M Unit := do
  let params := if UInt8.bit how STACK then 2 else 1
  loadSized how
  fetchStack params
  let n ←
    if UInt8.bit how CMD then param lengthRaw
    else if UInt8.bit how STACK then indexVar 0 255
    else pure 0
  let tuple ← lift (← var (params - 1)).asTuple
  let len := tuple.length
  if refusesLength how len n then
    err .typeCheckError
  let n := if how &&& CMP = MORE then len else n
  useGas (Gas.tupleGasPrice n)
  pushAll (tuple.take n)
  if UInt8.bit how COUNT then
    pushInt len

abbrev executeIstuple : M Unit := do
  loadInstruction
  fetchStack 1
  let item ← var 0
  push (.boolean item.asTuple.toOption.isSome)

abbrev executeTupleUnpackfirst : M Unit := untuple (CMD ||| LESS)

abbrev executeTupleUnpackfirstvar : M Unit := untuple (STACK ||| LESS)

abbrev executeTupleUn : M Unit := untuple (CMD ||| EXACT)

abbrev executeTupleUntuplevar : M Unit := untuple (STACK ||| EXACT)

abbrev executeTupleExplode : M Unit := untuple (CMD ||| MORE ||| COUNT)

abbrev executeTupleExplodevar : M Unit := untuple (STACK ||| MORE ||| COUNT)

/-- The operands of `SETINDEX` and its kin: the index, the tuple and the new item. Every member of
the family has one of the two bits that say where the index comes from. -/
def setIndexOperands (how : UInt8) : M (Nat × List StackItem × StackItem) := do
  let params := if UInt8.bit how STACK then 3 else 2
  loadSized how
  fetchStack params
  let n ← if UInt8.bit how CMD then param lengthRaw else indexVar 0 254
  let item ← var (params - 1)
  let tuple ← if UInt8.bit how QUIET && item.isNull then pure [] else lift item.asTuple
  return (n, tuple, ← var (params - 2))

def setIndexV2 (how : UInt8) : M Unit := do
  let (n, tuple, item) ← setIndexOperands how
  let len := tuple.length
  if n < len then
    useGas (Gas.tupleGasPrice len)
    push (.tuple (tuple.set n item))
  else if UInt8.bit how QUIET then
    if item.isNull then
      push (.tuple tuple)
    else
      useGas (Gas.tupleGasPrice (n + 1))
      push (.tuple (tuple ++ List.replicate (n - len) StackItem.none ++ [item]))
  else
    err .rangeCheckError

def setIndexV1 (how : UInt8) : M Unit := do
  let (n, tuple, item) ← setIndexOperands how
  let len := tuple.length
  let tuple ←
    if n < len then
      pure (tuple.set n item)
    else if UInt8.bit how QUIET then
      pure (tuple ++ List.replicate (n - len) StackItem.none ++ [item])
    else
      err .rangeCheckError
  if !item.isNull then
    useGas (Gas.tupleGasPrice tuple.length)
  push (.tuple tuple)

def setIndex (how : UInt8) : M Unit := do
  if (← get).checkCapabilities .capFixTupleIndexBug then setIndexV2 how else setIndexV1 how

abbrev executeTupleSetindex : M Unit := setIndex CMD

abbrev executeTupleSetindexQuiet : M Unit := setIndex (CMD ||| QUIET)

abbrev executeTupleSetindexvar : M Unit := setIndex STACK

abbrev executeTupleSetindexvarQuiet : M Unit := setIndex (STACK ||| QUIET)

def tupleLength (how : UInt8) : M Unit := do
  loadInstruction
  fetchStack 1
  match (← var 0).asTuple with
  | .ok tuple => pushInt tuple.length
  | .error e => if UInt8.bit how QUIET then push (.int (-1)) else lift (.error e)

abbrev executeTupleLen : M Unit := tupleLength 0

abbrev executeTupleLenQuiet : M Unit := tupleLength QUIET

def executeTupleLast : M Unit := do
  loadInstruction
  fetchStack 1
  match (← lift (← var 0).asTuple).getLast? with
  | some item => push item
  | none => err .typeCheckError

abbrev executeTuplePush : M Unit := do
  loadInstruction
  fetchStack 2
  let tuple ← lift (← var 1).asTuple
  if 255 ≤ tuple.length then
    err .typeCheckError
  let tuple := tuple ++ [← var 0]
  useGas (Gas.tupleGasPrice tuple.length)
  push (.tuple tuple)

def executeTuplePop : M Unit := do
  loadInstruction
  fetchStack 1
  let tuple ← lift (← var 0).asTuple
  match tuple.getLast? with
  | none => err .typeCheckError
  | some value =>
    useGas (Gas.tupleGasPrice tuple.dropLast.length)
    push (.tuple tuple.dropLast)
    push value

end Engine

/-! ### Nulls -/

namespace NullMask

def ARG : UInt8 := 0x03
def DBL : UInt8 := 0x04
def INV : UInt8 := 0x08
def ZERO : UInt8 := 0x10

end NullMask

namespace Engine

variable [TonTypes]

open NullMask

abbrev executeNull : M Unit := do
  loadInstruction
  push .none

abbrev executeIsnull : M Unit := do
  loadInstruction
  fetchStack 1
  push (.boolean (← var 0).isNull)

def nullzeroswapif (how : UInt8) : M Unit := do
  let args := (how &&& ARG).toNat
  loadInstruction
  fetchStack args
  let newElement : StackItem := if UInt8.bit how ZERO then .int 0 else .none
  if (← lift (← var 0).asBool) ^^ UInt8.bit how INV then
    if UInt8.bit how DBL then
      push newElement
    push newElement
  if 1 < args then
    push (← removeVar 1)
  push (← removeVar 0)

abbrev executeNullswapif : M Unit := nullzeroswapif 1

abbrev executeNullswapif2 : M Unit := nullzeroswapif (1 ||| DBL)

abbrev executeNullswapifnot : M Unit := nullzeroswapif (1 ||| INV)

abbrev executeNullswapifnot2 : M Unit := nullzeroswapif (1 ||| INV ||| DBL)

abbrev executeNullrotrif : M Unit := nullzeroswapif 2

abbrev executeNullrotrif2 : M Unit := nullzeroswapif (2 ||| DBL)

abbrev executeNullrotrifnot : M Unit := nullzeroswapif (2 ||| INV)

abbrev executeNullrotrifnot2 : M Unit := nullzeroswapif (2 ||| INV ||| DBL)

abbrev executeZeroswapif : M Unit := nullzeroswapif (1 ||| ZERO)

abbrev executeZeroswapif2 : M Unit := nullzeroswapif (1 ||| DBL ||| ZERO)

abbrev executeZeroswapifnot : M Unit := nullzeroswapif (1 ||| INV ||| ZERO)

abbrev executeZeroswapifnot2 : M Unit := nullzeroswapif (1 ||| INV ||| DBL ||| ZERO)

abbrev executeZerorotrif : M Unit := nullzeroswapif (2 ||| ZERO)

abbrev executeZerorotrif2 : M Unit := nullzeroswapif (2 ||| DBL ||| ZERO)

abbrev executeZerorotrifnot : M Unit := nullzeroswapif (2 ||| INV ||| ZERO)

abbrev executeZerorotrifnot2 : M Unit := nullzeroswapif (2 ||| INV ||| DBL ||| ZERO)

end Engine

/-! ### Global variables -/

namespace GlobalMask

def STACK : UInt8 := 0x02
def CMD : UInt8 := 0x04
def SET : UInt8 := 0x10

end GlobalMask

namespace Engine

variable [TonTypes]

open GlobalMask

/-- The items of c7. -/
def globals : M (List StackItem) := do
  lift (← ctrl 7).asTuple

/-- The items with one of them set, and the length that is paid for. -/
def withGlobal (c7 : List StackItem) (k : Nat) (x : StackItem) : List StackItem × Nat :=
  if k < c7.length then
    (c7.set k x, c7.length)
  else if !x.isNull then
    (c7 ++ List.replicate (k - c7.length) StackItem.none ++ [x], k + 1)
  else
    (c7, 0)

/-- The variable is set or read, once its number is known. -/
abbrev accessGlobal (how : UInt8) (params k : Nat) : M Unit := do
  if UInt8.bit how SET then
    let c7 ← globals
    let x ← var (params - 1)
    useGas (Gas.tupleGasPrice (withGlobal c7 k x).2)
    putCtrl 7 (.tuple (withGlobal c7 k x).1)
  else
    push (← lift ((← ctrl 7).tupleItem k true))

def executeSetgetGlobalvar (how : UInt8) : M Unit := do
  let params :=
    (if UInt8.bit how STACK then 1 else 0) + (if UInt8.bit how SET then 1 else 0)
  if UInt8.bit how CMD then
    loadInstruction (some (.length 1 32))
  else
    loadInstruction
  fetchStack params
  let k ← if UInt8.bit how STACK then indexVar 0 254 else param lengthRaw
  accessGlobal how params k

abbrev executeGetglobvar : M Unit := executeSetgetGlobalvar STACK

abbrev executeGetglob : M Unit := executeSetgetGlobalvar CMD

abbrev executeSetglobvar : M Unit := executeSetgetGlobalvar (SET ||| STACK)

abbrev executeSetglob : M Unit := executeSetgetGlobalvar (SET ||| CMD)

end Engine

end TonVm
