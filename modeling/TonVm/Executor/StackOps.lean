import TonVm.Executor.Math

/-!
# Stack instructions

Moving, copying and dropping stack items, constants, and access to the control registers.
-/

namespace TonVm

open ExecLib

namespace Engine

variable [TonTypes]

/-! ### Single steps on the stack -/

def dropRange (start stop : Nat) : M Unit := do
  let _ ← takeStack (Stack.dropRange start stop)

def pushCopy (index : Nat) : M Unit := onStack (Stack.pushCopy index)

def swapItems (i j : Nat) : M Unit := onStack (Stack.swap i j)

def pushCopies (index : Nat) : Nat → M Unit
  | 0 => pure ()
  | n + 1 => do
    pushCopy index
    pushCopies index n

/-- The small integer in a variable. -/
def smallVar (index : Nat) : M Nat := do
  lift (← var index).asSmallInteger

/-- The small integer on top of the stack, as the only argument of an instruction. -/
def fetchSmall : M Nat := do
  loadInstruction
  fetchStack 1
  smallVar 0

/-! ### Blocks -/

abbrev executeBlkdrop : M Unit := do
  loadInstruction (some (.length 0 16))
  dropRange 0 (← param lengthRaw)

abbrev executeBlkdrop2 : M Unit := do
  loadInstruction (some .lengthAndIndex)
  let p ← param lengthAndIndexRaw
  dropRange p.index (p.index + p.length)

abbrev executeBlkpush : M Unit := do
  loadInstruction (some .lengthAndIndex)
  let p ← param lengthAndIndexRaw
  if (← get).cc.stack.length ≤ p.index then
    err .stackUnderflow
  else
    pushCopies p.index p.length

abbrev executeBlkswap : M Unit := do
  loadInstruction (some .lengthMinusOneAndIndexMinusOne)
  let p ← param lengthAndIndexRaw
  onStack (Stack.blockSwap p.length p.index)

abbrev executeBlkswx : M Unit := do
  loadInstruction
  fetchStack 2
  let x ← lift (← var 0).asInteger
  let j ← lift (x.intoUsize 1 255)
  let y ← lift (← var 1).asInteger
  let i ← lift (y.intoUsize 1 255)
  onStack (Stack.blockSwap i j)

abbrev executeChkdepth : M Unit := do
  checkDepth (← fetchSmall)

abbrev executeDepth : M Unit := do
  loadInstruction
  pushInt (← get).cc.stack.length

def dropTop (n : Nat) : M Unit :=
  modify fun e => { e with cc.stack := Stack.dropTop n e.cc.stack }

abbrev executeDropx : M Unit := do
  let i ← fetchSmall
  checkDepth i
  dropTop i

abbrev executeDrop2 : M Unit := do
  loadInstruction
  checkDepth 2
  dropTop 2

abbrev executeDup2 : M Unit := do
  loadInstruction
  checkDepth 2
  pushCopy 1
  pushCopy 1

abbrev executeOnlytopx : M Unit := do
  let i ← fetchSmall
  checkDepth i
  dropRange i (← get).cc.stack.length

abbrev executeOnlyx : M Unit := do
  let i ← fetchSmall
  checkDepth i
  dropTop ((← get).cc.stack.length - i)

abbrev executeOver2 : M Unit := do
  loadInstruction
  checkDepth 4
  pushCopy 3
  pushCopy 3

abbrev executePick : M Unit := do
  let i ← fetchSmall
  if (← get).cc.stack.length ≤ i then
    err .stackUnderflow
  else
    pushCopy i

abbrev executeReverse : M Unit := do
  loadInstruction (some .lengthMinusTwoAndIndex)
  let p ← param lengthAndIndexRaw
  onStack (Stack.reverseRange p.index (p.index + p.length))

abbrev executeRevx : M Unit := do
  loadInstruction
  fetchStack 2
  let j ← smallVar 0
  let i ← smallVar 1
  onStack (Stack.reverseRange j (j + i))

/-- Moves the item at an index to the top. -/
def rollItem (i : Nat) : M Unit := do
  push (← takeStack (Stack.drop i))

/-- Moves the top down to an index. -/
def insertTop (i : Nat) : M Unit := do
  let x ← takeStack (Stack.drop 0)
  onStack (Stack.insert i x)

abbrev executeRoll : M Unit := do
  rollItem (← fetchSmall)

abbrev executeRollrev : M Unit := do
  let i ← fetchSmall
  if (← get).cc.stack.length ≤ i then
    err .stackUnderflow
  else
    insertTop i

abbrev executeRot : M Unit := do
  loadInstruction
  rollItem 2

abbrev executeRotrev : M Unit := do
  loadInstruction
  checkDepth 3
  insertTop 2

abbrev executeSwap2 : M Unit := do
  loadInstruction
  checkDepth 4
  onStack (Stack.blockSwap 2 2)

abbrev executeTuck : M Unit := do
  loadInstruction
  checkDepth 2
  pushCopy 0
  swapItems 1 2

/-! ### Registers of the stack -/

abbrev executePop : M Unit := do
  let cmd := (← get).lastCmd
  if cmd &&& 0xF0 = 0x30 then
    loadInstruction (some (.stackRegister 0 16))
  else if cmd = 0x57 then
    loadInstruction (some (.stackRegister 0 256))
  else
    fail
  swapItems 0 (← param sregRaw)
  dropTopItem

abbrev executePush : M Unit := do
  let cmd := (← get).lastCmd
  if cmd &&& 0xF0 = 0x20 then
    loadInstruction (some (.stackRegister 0 16))
  else if cmd = 0x56 then
    loadInstruction (some (.stackRegister 0 256))
  else
    fail
  let ra ← param sregRaw
  checkDepth (ra + 1)
  pushCopy ra

/-- The two register operands in the next byte. -/
def loadPair : M RegisterPair := do
  loadInstruction (some (.stackRegisterPair .getFromNextByte))
  param sregsRaw

/-- The three register operands of a long form. -/
def loadTrio (place : WhereToGetParams) : M RegisterTrio := do
  loadInstruction (some (.stackRegisterTrio place))
  param sregs3Raw

abbrev executePu2xc : M Unit := do
  let ⟨ra, rb, rc⟩ ← loadTrio .getFromNextByteMinusOneMinusTwo
  if (← get).cc.stack.length + 1 < max rc (max (ra + 2) (rb + 1)) then
    err .stackUnderflow
  pushCopy ra
  swapItems 0 1
  pushCopy rb
  swapItems 0 1
  swapItems 0 rc

abbrev executePush2 : M Unit := do
  let ⟨ra, rb⟩ ← loadPair
  checkDepth (max ra rb + 1)
  pushCopy ra
  pushCopy (rb + 1)

abbrev executePush3 : M Unit := do
  let ⟨ra, rb, rc⟩ ← loadTrio .getFromNextByte
  checkDepth (max (max ra rb) rc + 1)
  pushCopy ra
  pushCopy (rb + 1)
  pushCopy (rc + 2)

abbrev executePuxc : M Unit := do
  let ⟨ra, rb⟩ ← loadPair
  checkDepth (max (ra + 1) rb)
  pushCopy ra
  swapItems 0 1
  swapItems 0 rb

abbrev executePuxc2 : M Unit := do
  let ⟨ra, rb, rc⟩ ← loadTrio .getFromNextByteMinusOneMinusOne
  checkDepth (max 2 (max (max (ra + 1) rb) rc))
  pushCopy ra
  swapItems 2 0
  swapItems 1 rb
  swapItems 0 rc

abbrev executePuxcpu : M Unit := do
  let ⟨ra, rb, rc⟩ ← loadTrio .getFromNextByteMinusOneMinusOne
  checkDepth (max rc (max (ra + 1) rb))
  pushCopy ra
  swapItems 0 1
  swapItems 0 rb
  pushCopy rc

abbrev executeXc2pu : M Unit := do
  let ⟨ra, rb, rc⟩ ← loadTrio .getFromNextByte
  checkDepth (max 1 (max ra (max rb rc)) + 1)
  swapItems 1 ra
  swapItems 0 rb
  pushCopy rc

def executeXchg (place : WhereToGetParams) : M Unit := do
  loadInstruction (some (.stackRegisterPair place))
  let ⟨ra, rb⟩ ← param sregsRaw
  swapItems ra rb

abbrev executeSwap : M Unit := executeXchg .getFromLastByte

abbrev executeXchgSimple : M Unit := executeXchg .getFromLastByte

abbrev executeXchgStd : M Unit := executeXchg .getFromNextByte

abbrev executeXchgLong : M Unit := executeXchg .getFromNextByteLong

abbrev executeXchg2 : M Unit := do
  let ⟨ra, rb⟩ ← loadPair
  checkDepth (max 1 (max ra rb) + 1)
  swapItems 1 ra
  swapItems 0 rb

abbrev executeXchg3 : M Unit := do
  let ⟨ra, rb, rc⟩ ← loadTrio .getFromNextByte
  checkDepth (max 2 (max rc (max ra rb)) + 1)
  swapItems 2 ra
  swapItems 1 rb
  swapItems 0 rc

abbrev executeXchgx : M Unit := do
  swapItems 0 (← fetchSmall)

abbrev executeXcpu : M Unit := do
  let ⟨ra, rb⟩ ← loadPair
  checkDepth (max ra rb + 1)
  swapItems 0 ra
  pushCopy rb

abbrev executeXcpu2 : M Unit := do
  let ⟨ra, rb, rc⟩ ← loadTrio .getFromNextByte
  checkDepth (max 1 (max ra (max rb rc)) + 1)
  swapItems 0 ra
  pushCopy rb
  pushCopy (rc + 1)

abbrev executeXcpuxc : M Unit := do
  let ⟨ra, rb, rc⟩ ← loadTrio .getFromNextByteMinusOne
  checkDepth (max 2 (max rc (max ra rb + 1)))
  swapItems 1 ra
  pushCopy rb
  swapItems 0 1
  swapItems 0 rc

/-! ### Control registers -/

abbrev executePopctr : M Unit := do
  loadInstruction (some .controlRegister)
  fetchStack 1
  let creg ← param cregRaw
  swap (Addr.var 0) (Addr.ctrl creg)

/-- `POPCTRX`: variable 0 is the index itself, and that is what is stored. -/
abbrev executePopctrx : M Unit := do
  loadInstruction
  fetchStack 2
  let creg ← smallVar 0
  if creg ∉ SaveListOf.regs then
    err .rangeCheckError
  swap (Addr.var 0) (Addr.ctrl creg)

/-- `POPSAVE`: without the bug fixes the old value is saved as c0, whatever the register is. -/
abbrev executePopsave : M Unit := do
  loadInstruction (some .controlRegister)
  fetchStack 1
  let creg ← param cregRaw
  swap (Addr.var 0) (Addr.ctrl creg)
  let e ← get
  if e.checkCapabilities .capsTvmBugfixes2022 then
    let saved :=
      match e.ctrls.get 0 with
      | some (.continuation c0) => (c0.savelist.get creg).isSome
      | _ => false
    if !saved then
      swap (Addr.var 0) (Addr.savelist (Addr.ctrl 0) creg)
  else
    swap (Addr.var 0) (Addr.savelist (Addr.ctrl 0) 0)

abbrev executePushctr : M Unit := do
  loadInstruction (some .controlRegister)
  let creg ← param cregRaw
  copyToVar (Addr.ctrl creg)
  push (← popVar)

abbrev executePushctrx : M Unit := do
  loadInstruction
  fetchStack 1
  let creg ← smallVar 0
  if creg ∉ SaveListOf.regs then
    err .rangeCheckError
  copyToVar (Addr.ctrl creg)
  push (← popVar)

/-! ### Constants -/

abbrev executePushcont (opts : InstructionOptions) : M Unit := do
  loadInstruction (some opts)
  push (.continuation (.withCode (← param sliceRaw)))

abbrev executePushcontShort : M Unit := executePushcont (.bytestring 7 2 7 0)

abbrev executePushcontLong : M Unit := executePushcont (.bytestring 4 0 4 0)

abbrev executePushint : M Unit := do
  let cmd := (← get).lastCmd
  if cmd &&& 0xF0 = 0x70 then
    loadInstruction (some (.integer (-5) 11))
  else if cmd = 0x80 then
    loadInstruction (some (.integer (-128) 128))
  else if cmd = 0x81 then
    loadInstruction (some (.integer (-32768) 32768))
  else
    err .invalidOpcode
  pushInt (← param integerRaw)

/-- The long form of `PUSHINT`: the literal is pushed as it was decoded. -/
def executePushintBig : M Unit := do
  loadInstruction (some .bigInteger)
  push (.integer (← param bigintegerRaw))

abbrev executePushnan : M Unit := do
  loadInstruction
  push .nan

abbrev executePushnegpow2 : M Unit := do
  loadInstruction (some (.lengthMinusOne 0 256))
  let power ← param lengthRaw
  push (.integer (← lift (IntegerData.minusOne.shl .signaling power)))

abbrev executePushpow2 : M Unit := do
  let power := (← get).lastCmd
  loadInstruction
  push (.integer (← lift (IntegerData.one.shl .signaling (power.toNat + 1))))

abbrev executePushpow2dec : M Unit := do
  loadInstruction (some (.lengthMinusOne 0 256))
  let power ← param lengthRaw
  let x ← lift (IntegerData.one.shl .signaling (power - 1))
  let x ← lift (x.sub .signaling .one)
  let x ← lift (x.shl .signaling 1)
  push (.integer (← lift (x.add .signaling .one)))

def fetchRef (target : DataTag) : M Unit := do
  loadInstruction
  fetchReference
  if target ≠ .cell then
    convert (Addr.var 0) target .cell
  push (← removeVar 0)

abbrev executePushref : M Unit := fetchRef .cell

abbrev executePushrefcont : M Unit := fetchRef .continuation

abbrev executePushrefslice : M Unit := fetchRef .slice

abbrev executePushslice (opts : InstructionOptions) : M Unit := do
  loadInstruction (some opts)
  push (.slice (← param sliceRaw))

abbrev executePushsliceShort : M Unit := executePushslice (.bitstring 8 0 4 0)

abbrev executePushsliceMid : M Unit := executePushslice (.bitstring 8 2 5 1)

abbrev executePushsliceLong : M Unit := executePushslice (.bitstring 8 3 7 0)

end Engine

end TonVm
