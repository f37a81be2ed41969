import TonVm.Executor.Continuation

/-!
# Control flow instructions

The instructions that change registers, compose continuations, branch, call and return, on top of the
transfer functions of `TonVm.Executor.Continuation`.
-/

namespace TonVm

open ExecLib

/-- What `execute_call` does with c3. -/
inductive CallKind where
  | callx
  | switch
  | prepare
  deriving DecidableEq

/-! ### The mode bits of the conditionals -/

namespace IfMask

def CALL : UInt8 := 0x00

def JMP : UInt8 := 0x01

def REF2 : UInt8 := 0x02

def RET : UInt8 := 0x04

def ALT : UInt8 := 0x08

def REF : UInt8 := 0x10

def INV : UInt8 := 0x20

def ELSE : UInt8 := 0x40

def THROW : UInt8 := 0x80

end IfMask

namespace Engine

variable [TonTypes]

/-! ### Continuation objects -/

abbrev executeAtexit : M Unit := do
  loadInstruction
  fetchStack 1
  swap (Addr.var 0) (Addr.ctrl 0)
  swap (Addr.var 0) (Addr.savelist (Addr.ctrl 0) 0)

abbrev executeAtexitalt : M Unit := do
  loadInstruction
  fetchStack 1
  swap (Addr.var 0) (Addr.ctrl 1)
  swap (Addr.var 0) (Addr.savelist (Addr.ctrl 1) 1)

abbrev executeBless : M Unit := do
  loadInstruction
  setcont 0 true

abbrev executeBlessargs : M Unit := do
  loadInstruction (some .argumentConstraints)
  setcont 0 true

abbrev executeBlessva : M Unit := do
  loadInstruction
  setcont 2 true

/-- `BOOLEVAL`: runs a continuation with c0 and c1 set to push -1 and 0. -/
abbrev executeBooleval : M Unit := do
  loadInstruction
  fetchStack 1
  let _ ← lift (← var 0).asContinuation
  pushContVar (.withType (.pushInt (-1)))
  pushContVar (.withType (.pushInt 0))
  callx 0 false
  let oldCcIdx := if ((← get).cc.savelist.get 0).isSome then Addr.var 0 else Addr.ctrl 0
  copyToVar oldCcIdx
  swap (Addr.savelist (Addr.var 1) 0) oldCcIdx
  swap (Addr.savelist (Addr.var 2) 0) (Addr.var 3)
  swap (Addr.ctrl 0) (Addr.var 1)
  swap (Addr.ctrl 1) (Addr.var 2)

/-- The dictionary calls: the number goes to the stack and c3 is called, switched to or pushed. -/
def executeCall (start stop : Int) (how : CallKind) : M Unit := do
  loadInstruction (some (.integer start stop))
  let n ← param integerRaw
  match how with
  | .prepare =>
    copyToVar (Addr.ctrl 3)
    pushInt n
    push (← popVar)
  | .switch =>
    pushInt n
    copyToVar (Addr.ctrl 3)
    switch (Addr.var 0)
  | .callx =>
    pushInt n
    copyToVar (Addr.ctrl 3)
    callx 0 false

abbrev executeCallShort : M Unit := executeCall 0 256 .callx

abbrev executeCallLong : M Unit := executeCall 0 16384 .callx

abbrev executeJmp : M Unit := executeCall 0 16384 .switch

abbrev executePrepare : M Unit := executeCall 0 16384 .prepare

abbrev executeCallcc : M Unit := do
  loadInstruction
  callcc 0

abbrev executeCallccargs : M Unit := do
  loadInstruction (some .argumentConstraints)
  callcc 0

abbrev executeCallccva : M Unit := do
  loadInstruction
  fetchStack 3
  fetchNargsPargs (-1) 255 (-1) 255
  callcc 2

abbrev executeCallref : M Unit := do
  loadInstruction
  fetchReference
  convert (Addr.var 0) .continuation .cell
  callx 0 false

abbrev executeCallx : M Unit := do
  loadInstruction
  callx 0 false

/-- `CALLXARGS`: the form with opcode `DA` also limits the number of returned values. -/
abbrev executeCallxargs : M Unit := do
  let cmd := (← get).lastCmd
  loadInstruction (some (if cmd = 0xDA then .argumentAndReturnConstraints else .pargs 0 16))
  callx 0 false

abbrev executeCallxva : M Unit := do
  loadInstruction
  fetchStack 3
  fetchNargsPargs (-1) 254 (-1) 254
  callx 2 false

abbrev executeCompos : M Unit := do
  loadInstruction
  fetchStack 2
  let _ ← lift (← var 0).asContinuation
  let _ ← lift (← var 1).asContinuation
  swap (Addr.var 0) (Addr.savelist (Addr.var 1) 0)
  push (← popVar)

abbrev executeComposalt : M Unit := do
  loadInstruction
  fetchStack 2
  let _ ← lift (← var 0).asContinuation
  let _ ← lift (← var 1).asContinuation
  swap (Addr.var 0) (Addr.savelist (Addr.var 1) 1)
  push (← popVar)

abbrev executeComposboth : M Unit := do
  loadInstruction
  fetchStack 2
  let _ ← lift (← var 0).asContinuation
  let _ ← lift (← var 1).asContinuation
  copyToVar (Addr.var 0)
  swap (Addr.var 0) (Addr.savelist (Addr.var 1) 0)
  swap (Addr.var 2) (Addr.savelist (Addr.var 1) 1)
  push (← removeVar 1)

/-! ### Conditionals -/

/-- Pushes variable 1 or 0, by the flag in variable 2. -/
def pushSelected : M Unit := do
  if !(← lift (← var 2).asBool) then
    push (← removeVar 0)
  else
    push (← removeVar 1)

abbrev executeCondsel : M Unit := do
  loadInstruction
  fetchStack 3
  pushSelected

abbrev executeCondselchk : M Unit := do
  loadInstruction
  fetchStack 3
  if !(← var 0).sameKind (← var 1) then
    err .typeCheckError
  pushSelected

/-- The number of stack arguments of a conditional. -/
def ifParams (how : UInt8) : Nat :=
  (if UInt8.bit how IfMask.ELSE then 3 else 2)
    - (if UInt8.bit how IfMask.REF then 1 else 0)
    - (if UInt8.bit how IfMask.REF2 then 1 else 0)
    - (if UInt8.bit how IfMask.RET then 1 else 0)

/-- The branch that a conditional instruction takes. -/
def ifBranch (how : UInt8) : Bool → Bool → M Unit
  | false, true => do
    if !UInt8.bit how IfMask.REF then
      let _ ← lift (← var 0).asContinuation
    callx 1 (UInt8.bit how IfMask.REF2)
  | false, false => pure ()
  | true, true => do
    if !UInt8.bit how IfMask.REF2 then
      let _ ← lift (← var 1).asContinuation
    callx 0 (UInt8.bit how IfMask.REF)
  | true, false =>
    if UInt8.bit how IfMask.JMP then
      jmpx (UInt8.bit how IfMask.REF)
    else if UInt8.bit how IfMask.ALT then
      retalt
    else if UInt8.bit how IfMask.RET then
      ret
    else
      callx 0 (UInt8.bit how IfMask.REF)

def executeIfMask (how : UInt8) : M Unit := do
  loadInstruction
  if UInt8.bit how IfMask.REF then
    fetchReference
  if UInt8.bit how IfMask.REF2 then
    fetchReference
  fetchStack (ifParams how)
  if UInt8.bit how IfMask.THROW then
    if (← lift (← lastVar).asInteger).isNan then
      err .integerOverflow
  let flag ← lift (← lastVar).asBool
  ifBranch how (flag ^^ UInt8.bit how IfMask.INV) (UInt8.bit how IfMask.ELSE)

abbrev executeIf : M Unit := executeIfMask IfMask.CALL

abbrev executeIfelse : M Unit := executeIfMask (IfMask.CALL ||| IfMask.ELSE ||| IfMask.INV)

abbrev executeIfelseref : M Unit :=
  executeIfMask (IfMask.CALL ||| IfMask.ELSE ||| IfMask.INV ||| IfMask.REF)

abbrev executeIfjmp : M Unit := executeIfMask IfMask.JMP

abbrev executeIfnot : M Unit := executeIfMask (IfMask.CALL ||| IfMask.INV)

abbrev executeIfnotjmp : M Unit := executeIfMask (IfMask.JMP ||| IfMask.INV)

abbrev executeIfnotref : M Unit := executeIfMask (IfMask.CALL ||| IfMask.INV ||| IfMask.REF)

abbrev executeIfjmpref : M Unit := executeIfMask (IfMask.JMP ||| IfMask.REF)

abbrev executeIfnotjmpref : M Unit := executeIfMask (IfMask.JMP ||| IfMask.INV ||| IfMask.REF)

abbrev executeIfnotret : M Unit := executeIfMask (IfMask.RET ||| IfMask.INV)

abbrev executeIfref : M Unit := executeIfMask (IfMask.CALL ||| IfMask.REF)

abbrev executeIfrefelse : M Unit := executeIfMask (IfMask.CALL ||| IfMask.ELSE ||| IfMask.REF)

abbrev executeIfrefelseref : M Unit :=
  executeIfMask (IfMask.CALL ||| IfMask.ELSE ||| IfMask.REF ||| IfMask.REF2)

abbrev executeIfret : M Unit := executeIfMask (IfMask.RET ||| IfMask.THROW)

abbrev executeIfretalt : M Unit := executeIfMask (IfMask.RET ||| IfMask.ALT)

abbrev executeIfnotretalt : M Unit := executeIfMask (IfMask.RET ||| IfMask.ALT ||| IfMask.INV)

abbrev executeIfbitMask (how : UInt8) : M Unit := do
  loadInstruction (some (.integer 0 32))
  if UInt8.bit how IfMask.REF then
    fetchReference
  else
    fetchStack 1
    let _ ← lift (← var 0).asContinuation
  if (← get).cc.stack.length < 1 then
    err .stackUnderflow
  let item ← lift (Stack.get 0 (← get).cc.stack)
  let x ← lift item.asInteger
  let nbit ← param integerRaw
  let masked ← lift (x.and .signaling (.value (2 ^ nbit.toNat)))
  if masked.isZero ^^ UInt8.bit how IfMask.INV then
    pure ()
  else
    jmpx (UInt8.bit how IfMask.REF)

abbrev executeIfbitjmp : M Unit := executeIfbitMask 0

abbrev executeIfnbitjmp : M Unit := executeIfbitMask IfMask.INV

abbrev executeIfbitjmpref : M Unit := executeIfbitMask IfMask.REF

abbrev executeIfnbitjmpref : M Unit := executeIfbitMask (IfMask.REF ||| IfMask.INV)

/-! ### Jumps and returns -/

abbrev executeInvert : M Unit := do
  loadInstruction
  swap (Addr.ctrl 0) (Addr.ctrl 1)

abbrev executeJmpref : M Unit := do
  loadInstruction
  fetchReference
  jmpx true

abbrev executeJmprefdata : M Unit := do
  loadInstruction
  fetchReference
  convert (Addr.var 0) .continuation .cell
  jmpxdata

abbrev executeJmpx : M Unit := do
  loadInstruction
  fetchStack 1
  jmpx false

abbrev executeJmpxargs : M Unit := do
  loadInstruction (some (.pargs 0 16))
  fetchStack 1
  switch (Addr.var 0)

abbrev executeJmpxva : M Unit := do
  loadInstruction
  fetchStack 2
  fetchPargs 0 (-1) 254
  switch (Addr.var 1)

abbrev executeJmpxdata : M Unit := do
  loadInstruction
  fetchStack 1
  jmpxdata

abbrev executeRet : M Unit := do
  loadInstruction
  ret

abbrev executeRetalt : M Unit := do
  loadInstruction
  retalt

abbrev executeRetargs : M Unit := do
  loadInstruction (some (.pargs 0 16))
  switch (Addr.ctrl 0)

abbrev executeRetva : M Unit := do
  loadInstruction
  fetchStack 1
  fetchPargs 0 (-1) 254
  switch (Addr.ctrl 0)

abbrev executeRetbool : M Unit := do
  loadInstruction
  fetchStack 1
  if ← lift (← var 0).asBool then ret else retalt

abbrev executeRetdata : M Unit := do
  loadInstruction
  pushContVar (.withType (.quit 0))
  swap (Addr.ctrl 0) (Addr.var 0)
  jmpxdata

/-- Moves all but the top `rargs` values to c0. -/
def returnRest (rargs : Nat) : M Unit := do
  let depth := (← get).cc.stack.length
  if depth < rargs then
    err .stackUnderflow
  else
    popRange rargs depth (Addr.ctrl 0)

abbrev executeReturnargs : M Unit := do
  loadInstruction (some (.rargs 0 16))
  returnRest ((rargsRaw (← get).cmd).getD 0)

abbrev executeReturnva : M Unit := do
  loadInstruction
  fetchStack 1
  let x ← lift (← var 0).asInteger
  returnRest (← lift (x.intoUsize 0 255))

/-! ### Registers and save lists -/

abbrev executeSamealt : M Unit := do
  loadInstruction
  copyToVar (Addr.ctrl 0)
  swap (Addr.ctrl 1) (Addr.var 0)

abbrev executeSamealtSave : M Unit := do
  loadInstruction
  swap (Addr.savelist (Addr.ctrl 0) 1) (Addr.ctrl 1)
  copyToVar (Addr.ctrl 0)
  swap (Addr.ctrl 1) (Addr.var 0)

abbrev executeSave : M Unit := do
  loadInstruction (some .controlRegister)
  save 0

abbrev executeSavealt : M Unit := do
  loadInstruction (some .controlRegister)
  save 1

/-- `SAVEBOTH`: fails when c0 or c1 is present. -/
abbrev executeSaveboth : M Unit := do
  loadInstruction (some .controlRegister)
  if ((← get).ctrls.get 0).isSome || ((← get).ctrls.get 1).isSome then
    err .typeCheckError
  else
    save 0
  save 1

abbrev executeSetaltctr : M Unit := do
  loadInstruction (some .controlRegister)
  fetchStack 1
  let creg ← param cregRaw
  swap (Addr.var 0) (Addr.savelist (Addr.ctrl 1) creg)

abbrev executeSetretctr : M Unit := do
  loadInstruction (some .controlRegister)
  fetchStack 1
  let creg ← param cregRaw
  swap (Addr.var 0) (Addr.savelist (Addr.ctrl 0) creg)

abbrev executeSetcontargs : M Unit := do
  loadInstruction (some .argumentConstraints)
  setcont 0 false

abbrev executeSetcontva : M Unit := do
  loadInstruction
  setcont 2 false

abbrev executeSetnumvarargs : M Unit := do
  loadInstruction
  setcont 1 false

abbrev executeSetcontctr : M Unit := do
  loadInstruction (some .controlRegister)
  fetchStack 2
  let _ ← lift (← var 0).asContinuation
  let creg ← param cregRaw
  swap (Addr.var 1) (Addr.savelist (Addr.var 0) creg)
  push (← removeVar 0)

abbrev executeSetcontctrx : M Unit := do
  loadInstruction
  fetchStack 3
  let x ← lift (← var 0).asInteger
  let creg ← lift (x.intoUsize 0 255)
  if creg ∉ SaveListOf.regs then
    err .rangeCheckError
  let _ ← lift (← var 1).asContinuation
  swap (Addr.var 2) (Addr.savelist (Addr.var 1) creg)
  push (← removeVar 1)

/-- The end of `SETEXITALT`. -/
abbrev replaceC1 : M Unit := do
  if ((← get).cc.savelist.get 1).isSome then
    copyToVar (Addr.ctrl 1)
    swap (Addr.var 2) (Addr.savelist (Addr.var 0) 1)
  swap (Addr.var 0) (Addr.ctrl 1)

abbrev executeSetexitalt : M Unit := do
  loadInstruction
  fetchStack 1
  copyToVar (Addr.ctrl 0)
  swap (Addr.var 1) (Addr.savelist (Addr.var 0) 0)
  replaceC1

abbrev executeThenret : M Unit := do
  loadInstruction
  fetchStack 1
  copyToVar (Addr.ctrl 0)
  swap (Addr.savelist (Addr.var 0) 0) (Addr.var 1)
  push (← removeVar 0)

abbrev executeThenretalt : M Unit := do
  loadInstruction
  fetchStack 1
  copyToVar (Addr.ctrl 1)
  swap (Addr.savelist (Addr.var 0) 0) (Addr.var 1)
  push (← removeVar 0)

end Engine

end TonVm
