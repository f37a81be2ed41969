import TonVm.Executor.Continuation

/-!
# The main loop

When the code of the current continuation is used up, an implicit step runs, by the type of the
continuation, until there is code again or the machine stops. Otherwise the next instruction is
decoded and its handler runs. An exception, from either, is dispatched to c2.

The loops take fuel. A fuel that is too small gives no result, and more fuel never changes a result.
-/

namespace TonVm

open ExecLib

namespace Engine

variable [TonTypes]

/-! ### Implicit steps -/

def countStep : M Unit := modify fun e => { e with step := e.step + 1 }

def stepNextRef (reference : Cell) : M (Option Int) := do
  countStep
  tryUseGas Gas.implicitJmpPrice
  let code ← loadHashedCell reference true
  modify fun e => { e with cc.code := code }
  return none

def stepOrdinary : M (Option Int) := do
  countStep
  tryUseGas Gas.implicitRetPrice
  if ((← get).ctrls.get 0).isNone then
    return some 0
  switchToC0
  return none

def stepPushint (code : Int) : M (Option Int) := do
  countStep
  pushInt code
  switch (Addr.ctrl 0)
  return none

def stepTryCatch : M (Option Int) := do
  countStep
  tryUseGas Gas.implicitRetPrice
  modify fun e => { e with ctrls := e.ctrls.remove 2 }
  switch (Addr.ctrl 0)
  return none

/-- `step_catch_revert`: cuts the stack under the exception pair back to a depth. -/
def stepCatchRevert (depth : Nat) : M (Option Int) := do
  countStep
  let excPair ← takeStack (Stack.dropRangeStraight 0 2)
  let curDepth := (← get).cc.stack.length
  if curDepth < depth then
    err .stackUnderflow
  modify fun e => { e with cc.stack := Stack.dropTop (curDepth - depth) e.cc.stack }
  pushAll excPair
  switch (Addr.ctrl 0)
  return none

/-- `discharge_nargs`: drops the arguments below the limit. When the limit is larger than the depth
the subtraction of the source wraps and the range is empty. -/
def dischargeNargs : M Unit := do
  let e ← get
  if e.checkCapabilities .capsTvmBugfixes2022 && e.cc.nargs ≠ -1 then
    let depth := e.cc.stack.length
    if 0 ≤ e.cc.nargs ∧ e.cc.nargs.toNat ≤ depth then
      match Stack.dropRangeStraight (depth - e.cc.nargs.toNat) depth e.cc.stack with
      | .ok (_, stack) => modify fun e => { e with cc.stack := stack }
      | .error _ => pure ()
    modify fun e => { e with cc.nargs := -1 }

def checkWhileLoopCondition : M Bool := do
  let x ← takeStack (Stack.drop 0)
  let y ← lift x.asInteger
  return !y.isZero

def checkUntilLoopCondition : M Bool := do
  return !(← checkWhileLoopCondition)

/-- Makes the current continuation the body again and returns the loop continuation split off. -/
def moveWithoutStack (body : SliceData) : M ContinuationData := do
  let (loop, cc) := (← get).cc.moveWithoutStack body
  modify fun e => { e with cc := cc }
  return loop

/-- Saves c0 in the loop continuation through an unchecked `put_opt`. -/
def saveC0 (loop : ContinuationData) : M ContinuationData := do
  let c0 ← ctrl 0
  return { loop with savelist := loop.savelist.putOpt 0 c0 }

def stepWhileLoop (body cond : SliceData) : M (Option Int) := do
  match ← catchError checkWhileLoopCondition with
  | .ok true =>
    dischargeNargs
    let loop ← saveC0 (← moveWithoutStack body)
    let condCont : ContinuationData := .withCode cond
    let condCont := { condCont with
      savelist := condCont.savelist.putOpt 0 (.continuation loop) }
    setCtrl 0 (.continuation condCont)
    return none
  | .ok false =>
    switch (Addr.ctrl 0)
    return none
  | .error e =>
    if (← get).checkCapabilities .capsTvmBugfixes2022 then
      putCtrl 0 (.continuation (.withType (.quit 0)))
    throw e

/-- `step_repeat_loop`: the counter is that of the type of the current continuation. -/
def stepRepeatLoop (body : SliceData) (counter : Int) : M (Option Int) := do
  if counter > 1 then
    modify fun e => { e with cc.typeOf :=
      match e.cc.typeOf with
      | .repeatLoopBody code counter => .repeatLoopBody code (counter - 1)
      | typeOf => typeOf }
    dischargeNargs
    let loop ← saveC0 (← moveWithoutStack body)
    setCtrl 0 (.continuation loop)
  else
    switch (Addr.ctrl 0)
  return none

def stepUntilLoop (body : SliceData) : M (Option Int) := do
  if ← checkUntilLoopCondition then
    dischargeNargs
    let loop ← saveC0 (← moveWithoutStack body)
    setCtrl 0 (.continuation loop)
  else
    switch (Addr.ctrl 0)
  return none

def stepAgainLoop (body : SliceData) : M (Option Int) := do
  dischargeNargs
  let loop ← moveWithoutStack body
  setCtrl 0 (.continuation loop)
  return none

/-- `make_external_error`: ends the run with the exception pair on the stack. -/
def makeExternalError : M (Option Int) := do
  let item ← takeStack (Stack.drop 0)
  let number ← lift (do (← item.asInteger).intoUsize 0 0xffff)
  if number = 0 ∨ number = 1 then
    return some number
  let value ←
    match Stack.drop 0 (← get).cc.stack with
    | .ok (item, stack) => do
      modify fun e => { e with cc.stack := stack }
      pure (match item.asInteger with | .ok x => x | .error _ => IntegerData.zero)
    | .error _ => pure IntegerData.zero
  throw (.exception (match ExceptionCode.fromUsize number with
    | some code => .fromCodeAndValue code value
    | none => .fromNumberAndValue number (.integer value)))

/-! ### Exception dispatch -/

/-- The charge for an exception. -/
def chargeException (error : Error) (exception : Exception) : M Exception := do
  if exception.exceptionCode = some .outOfGas then
    throw error
  useGas Gas.exceptionPrice
  match (← get).gas.checkGasRemaining with
  | .ok () => return exception
  | .error e =>
    countStep
    throw e

/-- The common start of both dispatch functions: what is no exception and what is out of gas ends the
run, everything else pays the exception price. -/
def payForException (error : Error) : M Exception := do
  match error.tvmExceptionFull with
  | none => throw error
  | some exception =>
    if exception.exceptionCode.isSome then
      countStep
    chargeException error exception

/-- Jumps to a continuation that stops the machine, with one argument. -/
def switchToQuit (number : Int) (value : StackItem) : M Unit := do
  let n := (← get).varCount
  pushContVar { ContinuationOf.withType (.quit number) with nargs := 1 }
  push value
  switch (Addr.var n)

/-- `raise_exception`: the dispatch without the bug fixes of 2022. -/
def raiseException (error : Error) : M Unit := do
  let exception ← payForException error
  match (← get).ctrls.get 2 with
  | some c2 =>
    push exception.value
    pushInt exception.exceptionOrCustomCode
    let cont ← lift c2.asContinuation
    setCtrl 2 (.continuation { cont with nargs := 2 })
    switch (Addr.ctrl 2)
  | none =>
    match exception.isNormalTermination with
    | some number => switchToQuit number exception.value
    | none => throw error

/-- `raise_exception_bugfix0`: c2 is removed before the handler runs. -/
def raiseExceptionBugfix0 (error : Error) : M Unit := do
  let exception ← payForException error
  let n := (← get).varCount
  match (← get).ctrls.get 2 with
  | none => throw error
  | some c2 =>
    modify fun e => { e with ctrls := e.ctrls.remove 2 }
    let isExcQuit :=
      match c2.asContinuation with
      | .ok cont => cont.typeOf.isExcQuit
      | .error _ => false
    if isExcQuit then
      match exception.isNormalTermination with
      | some exitCode => switchToQuit exitCode exception.value
      | none =>
        modify fun e => { e with cc.stack := [] }
        push exception.value
        pushInt exception.exceptionOrCustomCode
        throw (.exception exception)
    else
      pushVar c2
      push exception.value
      pushInt exception.exceptionOrCustomCode
      let target ← lift c2.asContinuation
      if !target.typeOf.isCatchRevert then
        setVar n (.continuation { target with nargs := 2 })
      switch (Addr.var n)

def dispatchException (error : Error) : M Unit := do
  if (← get).checkCapabilities .capsTvmBugfixes2022 then
    raiseExceptionBugfix0 error
  else
    raiseException error

/-! ### Looking for the next instruction -/

/-- The implicit step at the end of the code, by the type of the continuation. -/
def typeStep : ContinuationType → M (Option Int)
  | .ordinary => stepOrdinary
  | .pushInt code => stepPushint code
  | .quit exitCode => return some exitCode
  | .tryCatch => stepTryCatch
  | .whileLoopCondition body cond => stepWhileLoop body cond
  | .repeatLoopBody code counter => stepRepeatLoop code counter
  | .untilLoopCondition body => stepUntilLoop body
  | .againLoopBody body => stepAgainLoop body
  | .excQuit => makeExternalError
  | .catchRevert depth => stepCatchRevert depth

/-- The implicit step of a continuation whose code is used up. -/
def implicitStep : M (Option Int) := do
  match TonTypes.referenceOpt (← get).cc.code 0 with
  | some reference => stepNextRef reference
  | none => typeStep (← get).cc.typeOf

/-- Whether an exception of the implicit step leaves `seek_next_cmd` at once: the `?` on
`make_external_error` comes before the dispatch. -/
def stopsAtOnce (engine : Engine) : Bool :=
  (TonTypes.referenceOpt engine.cc.code 0).isNone && engine.cc.typeOf.isExcQuit

/-- One pass of the loop of `seek_next_cmd`: the exit code if the machine stops. -/
def seekStep : M (Option Int) := do
  if stopsAtOnce (← get) then
    let result ← implicitStep
    finish (.ok result)
  else
    finish (← catchError implicitStep)
where
  /-- `check_gas_remaining().and(result)`: running out of gas hides the result. -/
  finish (result : Except Error (Option Int)) : M (Option Int) := do
    match (← get).gas.checkGasRemaining, result with
    | .ok (), .ok exitCode => return exitCode
    | .ok (), .error e =>
      dispatchException e
      return none
    | .error e, _ =>
      dispatchException e
      return none

/-- `seek_next_cmd`: `none` when the fuel is used up, otherwise its result. -/
def seekNextCmd : Nat → M (Option (Option Int))
  | 0 => return none
  | fuel + 1 => do
    if TonTypes.remainingBits (← get).cc.code ≠ 0 then
      return some none
    else
      match ← seekStep with
      | some exitCode => return some (some exitCode)
      | none => seekNextCmd fuel

/-! ### Execution -/

/-- One explicit instruction up to the result of the handler, which `getHandler` finds by the opcode. -/
def instructionOutcome (getHandler : M (M Unit)) : M (Option Error) := do
  modify fun e => { e with cmdCode := .from e.cc.code }
  match ← catchError getHandler with
  | .error e => do
    basicUseGas 8
    return some e
  | .ok handler => do
    match ← catchError handler with
    | .error e => return some e
    | .ok () =>
      match (← get).gas.checkGasRemaining with
      | .ok () => return none
      | .error e => return some e

/-- The error of an instruction, if there is one, is dispatched. -/
def dispatchResult : Option Error → M Unit
  | some e => dispatchException e
  | none => pure ()

/-- Runs one explicit instruction. -/
def executeInstruction (getHandler : M (M Unit)) : M Unit := do
  let executionResult ← instructionOutcome getHandler
  modify fun e => { e with cmd.params := [] }
  dispatchResult executionResult

/-- The loop of `execute`: at most `fuel` instructions, each search with `seekFuel` passes. -/
def executeLoop (getHandler : M (M Unit)) (seekFuel : Nat) : Nat → M (Option Int)
  | 0 => return none
  | fuel + 1 => do
    match ← seekNextCmd seekFuel with
    | none => return none
    | some (some result) =>
      commit
      return some result
    | some none =>
      executeInstruction getHandler
      executeLoop getHandler seekFuel fuel

end Engine

end TonVm
