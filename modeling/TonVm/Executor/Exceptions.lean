import TonVm.Executor.Continuation

/-!
# Exceptions

The instructions that throw and those that install an exception handler in c2.
-/

namespace TonVm

open ExecLib

namespace Engine

variable [TonTypes]

/-- The old c2 is copied into the save lists of the handler and of the current continuation. -/
abbrev saveC2 : M Unit := do
  copyToVar (Addr.ctrl 2)
  swap (Addr.savelist (Addr.var 0) 2) (Addr.var 2)
  copyToVar (Addr.ctrl 2)
  swap (Addr.savelist Addr.CC 2) (Addr.var 3)

/-- The return continuation is saved in the handler, which `TRYKEEP` then wraps. -/
abbrev saveReturn (keep : Bool) (depth : Nat) : M Unit := do
  copyToVar (Addr.ctrl 0)
  let length := (← get).varCount
  swap (Addr.savelist (Addr.ctrl 2) 0) (Addr.var (length - 1))
  if keep then
    pushContVar (.withType (.catchRevert depth))
    let n := (← get).varCount
    swap (Addr.savelist (Addr.var (n - 1)) 0) (Addr.ctrl 2)
    swap (Addr.ctrl 2) (Addr.var (n - 1))

/-- `init_try_catch` from the call of the body on. -/
abbrev callBody (keep : Bool) (depth : Nat) : M Unit := do
  swap (Addr.var 0) (Addr.var 1)
  swap (Addr.ctrl 2) (Addr.var 1)
  callx 0 false
  saveReturn keep depth

/-- `init_try_catch`: variable 0 holds the handler and variable 1 the body. The old c2 is saved in the
handler and in the rest of the current continuation, but only when it is present. -/
def initTryCatch (keep : Bool) : M Unit := do
  fetchStack 2
  let depth := (← get).cc.stack.length
  if depth < (pargsRaw (← get).cmd).getD 0 then
    err .stackUnderflow
  if depth ≥ 2 ^ 32 then
    fail
  let _ ← lift (← var 1).asContinuation
  let bugfix := (← get).checkCapabilities .capsTvmBugfixes2022
  let catchCont ← lift (← var 0).asContinuation
  setVar 0 (.continuation { catchCont with
    typeOf := .tryCatch
    nargs := if bugfix then catchCont.nargs else (catchCont.stack.length : Int) + 2 })
  let tryCont ← lift (← var 1).asContinuation
  setVar 1 (.continuation { tryCont with savelist := tryCont.savelist.remove 0 })
  if ((← get).ctrls.get 2).isSome then
    saveC2
  callBody keep depth

abbrev executeTry : M Unit := do
  loadInstruction
  initTryCatch false

abbrev executeTryargs : M Unit := do
  loadInstruction (some .argumentAndReturnConstraints)
  initTryCatch false

abbrev executeTrykeep : M Unit := do
  if !(← get).checkCapabilities .capsTvmBugfixes2022 then
    err .invalidOpcode
  loadInstruction
  initTryCatch true

/-! ### Throwing -/

/-- `do_throw`: the number and the value come from variables when an index is given, otherwise the
number is the operand of the instruction and the value is zero. -/
def doThrow (numberIndex valueIndex : Option Nat) : M Unit := do
  let number ←
    match numberIndex with
    | none => do
      let n ← param integerRaw
      pure n.toNat
    | some index => do
      let x ← lift (← var index).asInteger
      lift (x.intoUsize 0 0xFFFF)
  let value ←
    match valueIndex with
    | none => pure (.int 0)
    | some index => var index
  throw (.exception (.fromNumberAndValue number value))

abbrev executeThrow (start stop : Int) : M Unit := do
  loadInstruction (some (.integer start stop))
  doThrow none none

abbrev executeThrowShort : M Unit := executeThrow 0 64

abbrev executeThrowLong : M Unit := executeThrow 0 2048

/-- Throws when the flag in variable 0 differs from `reverseCondition`. -/
def throwIf (reverseCondition : Bool) (numberIndex valueIndex : Option Nat) : M Unit := do
  if reverseCondition ^^ (← lift (← var 0).asBool) then
    doThrow numberIndex valueIndex

abbrev executeThrowifThrowifnot (reverseCondition : Bool) (start stop : Int) : M Unit := do
  loadInstruction (some (.integer start stop))
  fetchStack 1
  throwIf reverseCondition none none

abbrev executeThrowifShort : M Unit := executeThrowifThrowifnot false 0 64

abbrev executeThrowifLong : M Unit := executeThrowifThrowifnot false 0 2048

abbrev executeThrowifnotShort : M Unit := executeThrowifThrowifnot true 0 64

abbrev executeThrowifnotLong : M Unit := executeThrowifThrowifnot true 0 2048

abbrev executeThrowanyifThrowanyifnot (reverseCondition : Bool) : M Unit := do
  loadInstruction
  fetchStack 2
  throwIf reverseCondition (some 1) none

abbrev executeThrowanyif : M Unit := executeThrowanyifThrowanyifnot false

abbrev executeThrowanyifnot : M Unit := executeThrowanyifThrowanyifnot true

abbrev executeThrowany : M Unit := do
  loadInstruction
  fetchStack 1
  doThrow (some 0) none

abbrev executeThrowarg : M Unit := do
  loadInstruction (some (.integer 0 2048))
  fetchStack 1
  doThrow none (some 0)

abbrev executeThrowargany : M Unit := do
  loadInstruction
  fetchStack 2
  doThrow (some 0) (some 1)

abbrev executeThrowarganyifThrowarganyifnot (reverseCondition : Bool) : M Unit := do
  loadInstruction
  fetchStack 3
  throwIf reverseCondition (some 1) (some 2)

abbrev executeThrowarganyif : M Unit := executeThrowarganyifThrowarganyifnot false

abbrev executeThrowarganyifnot : M Unit := executeThrowarganyifThrowarganyifnot true

abbrev executeThrowargifThrowargifnot (reverseCondition : Bool) : M Unit := do
  loadInstruction (some (.integer 0 2048))
  fetchStack 2
  throwIf reverseCondition none (some 1)

abbrev executeThrowargif : M Unit := executeThrowargifThrowargifnot false

abbrev executeThrowargifnot : M Unit := executeThrowargifThrowargifnot true

end Engine

end TonVm
