import TonVm.Executor.Storage
import TonVm.Executor.Decode

/-!
# Continuations

Calls, jumps, returns, conditionals and loops. A loop instruction turns its body into the return
continuation of itself: an extraordinary continuation, whose type says what to do when its code is
used up and which holds the code of the body for the next iteration.
-/

namespace TonVm

open ExecLib

namespace Engine

variable [TonTypes]

/-! ### Calls and jumps -/

/-- `callcc`: the rest of the current continuation is passed to the callee as its topmost argument. -/
def callcc (callee : Nat) : M Unit := do
  let vars := (← get).varCount
  if vars < callee then
    fail
  else if vars = callee then
    fetchStack 1
  popAll (Addr.var callee)
  swap (Addr.var callee) Addr.CC
  applySavelist
  let oldCc ← lift (← var callee).asContinuation
  setVar callee (.continuation .newEmpty)
  let oldCc := { oldCc with nargs := (nargsRaw (← get).cmd).getD oldCc.nargs }
  push (.continuation oldCc)

/-- Sets the argument limit of a continuation through `continuation_mut_by_address!`. -/
def setNargsByAddress (address : Nat) (nargs : Int) : M Unit := do
  let cont ← continuationByAddress address
  setContinuationByAddress address { cont with nargs }

/-- The end of `callx`: the arity of the new c0. -/
def setReturnNargs : M Unit := do
  match nargsRaw (← get).cmd, rargsRaw (← get).cmd with
  | some nargs, _ => setNargsByAddress (Addr.ctrl 0) nargs
  | none, some rargs => setNargsByAddress (Addr.ctrl 0) rargs
  | none, none => setNargsByAddress (Addr.ctrl 0) (-1)

/-- `callx` from the passing of the stack on. -/
def enterCallee (callee : Nat) : M Unit := do
  popAll (Addr.var callee)
  let cont ← lift (← var callee).asContinuation
  if (cont.savelist.get 0).isSome then
    swap (Addr.var callee) Addr.CC
  else
    swap (Addr.ctrl 0) (Addr.savelist Addr.CC 0)
    swap (Addr.var callee) Addr.CC
    swap (Addr.var callee) (Addr.ctrl 0)
  applySavelist
  setReturnNargs

/-- `callx`: calls the continuation in a variable. Unless it brings its own c0, the rest of the current
continuation becomes c0, with the old c0 in its save list. -/
def callx (callee : Nat) (needConvert : Bool) : M Unit := do
  let vars := (← get).varCount
  if vars < callee then
    fail
  else if vars = callee then
    fetchStack 1
  else if needConvert then
    if (← var callee).asCell.isOk then
      convert (Addr.var callee) .continuation .cell
  enterCallee callee

def fetchNargs (idx : Nat) (lo hi : Int) : M Unit := do
  let x ← lift (← var idx).asInteger
  pushParam (.nargs (← lift (x.into lo hi)))

def fetchPargs (idx : Nat) (lo hi : Int) : M Unit := do
  let x ← lift (← var idx).asInteger
  let pargs ← lift (x.into lo hi)
  if pargs ≥ 0 then
    pushParam (.pargs pargs.toNat)

def fetchNargsPargs (nlo nhi plo phi : Int) : M Unit := do
  fetchNargs 0 nlo nhi
  fetchPargs 1 plo phi

/-- `jmpxdata`: jumps, and passes the rest of the current code as a slice. -/
def jmpxdata : M Unit := do
  popAll (Addr.var 0)
  swap (Addr.var 0) Addr.CC
  applySavelist
  let cont ← lift (← var 0).asContinuation
  push (.slice cont.code)

/-- `switch`: passes the stack to a continuation and makes it the current one, with its saved
registers. A c0 or c1 that is switched to is used up. -/
def switch (continuation : Nat) : M Unit := do
  popAll continuation
  swap continuation Addr.CC
  let e ← get
  let dropC0 := continuation = Addr.ctrl 0 && (e.cc.savelist.get 0).isNone
  let dropC1 := continuation = Addr.ctrl 1 && (e.cc.savelist.get 1).isNone
  applySavelist
  if dropC0 then
    modify fun e => { e with ctrls := e.ctrls.remove 0 }
  if dropC1 then
    putCtrl 1 (.continuation (.withType (.quit 1)))

/-- `switch_to_c0`, the implicit return. -/
def switchToC0 : M Unit := do
  popAll (Addr.ctrl 0)
  match (← get).ctrls.get 0 with
  | some item =>
    let c0 ← lift item.asContinuation
    let cc := (← get).cc
    setCtrl 0 (.continuation cc)
    modify fun e => { e with cc := c0 }
    let dropC0 := (c0.savelist.get 0).isNone
    applySavelist
    if dropC0 then
      modify fun e => { e with ctrls := e.ctrls.remove 0 }
  | none => err .fatalError

def ret : M Unit := switch (Addr.ctrl 0)

def retalt : M Unit := switch (Addr.ctrl 1)

/-- `jmpx`: jumps to the continuation in variable 0. -/
def jmpx (needConvert : Bool) : M Unit := do
  if needConvert then
    if (← var 0).asCell.isOk then
      convert (Addr.var 0) .continuation .cell
  popAll (Addr.var 0)
  swap (Addr.var 0) Addr.CC
  applySavelistExcludingC0C1

/-- `save`: saves a register in c0 or c1 unless it is saved there already. -/
def save (index : Nat) : M Unit := do
  let creg ← param cregRaw
  match (← get).ctrls.get index with
  | none => err .typeCheckError
  | some item =>
    let cont ← lift item.asContinuation
    if (cont.savelist.get creg).isNone then
      let v := (← get).varCount
      copyToVar (Addr.ctrl creg)
      swap (Addr.var v) (Addr.savelist (Addr.ctrl index) creg)

/-- `setcont`: makes a continuation out of a slice or a continuation, with captured arguments and a
limit on further ones. -/
def setcont (v : Nat) (needToConvert : Bool) : M Unit := do
  fetchStack (v + 1)
  match v with
  | 0 => pure ()
  | 1 => fetchNargs 0 (-1) 255
  | 2 => fetchNargsPargs (-1) 255 0 255
  | _ => err .fatalError
  let item ← var v
  if needToConvert then
    let _ ← lift item.asSlice
  else
    let _ ← lift item.asContinuation
  let pargs := (pargsRaw (← get).cmd).getD 0
  if (← get).cc.stack.length < pargs then
    err .stackUnderflow
  else if needToConvert then
    convert (Addr.var v) .continuation .slice
  if pargs ≠ 0 then
    popRange 0 pargs (Addr.var v)
  let nargs := (nargsRaw (← get).cmd).getD (-1)
  if nargs ≥ 0 then
    let cont ← lift (← var v).asContinuation
    setVar v (.continuation { cont with nargs })
  push (← popVar)

/-! ### Loops -/

/-- Pushes a fresh continuation as a variable. -/
def pushContVar (cont : ContinuationData) : M Unit := pushVar (.continuation cont)

/-- The code of the continuation in a variable. -/
def varCode (index : Nat) : M SliceData := do
  let cont ← lift (← var index).asContinuation
  return cont.code

/-- `code_mut().withdraw()`: takes the code out of the current continuation. -/
def withdrawCode : M SliceData := do
  let body := (← get).cc.code
  modify fun e => { e with cc.code := TonTypes.sliceDefault }
  return body

abbrev executeAgain : M Unit := do
  loadInstruction
  fetchStack 1
  let body ← varCode 0
  pushContVar (.withType (.againLoopBody body))
  swap (Addr.savelist Addr.CC 0) (Addr.ctrl 0)
  copyToVar Addr.CC
  swap (Addr.savelist (Addr.var 1) 0) (Addr.var 2)
  swap (Addr.savelist (Addr.var 0) 0) (Addr.var 1)
  switch (Addr.var 0)

abbrev executeAgainBreak : M Unit := do
  loadInstruction
  fetchStack 1
  let body ← varCode 0
  pushContVar (.withType (.againLoopBody body))
  swap (Addr.savelist Addr.CC 0) (Addr.ctrl 0)
  swap (Addr.savelist Addr.CC 1) (Addr.ctrl 1)
  copyToVar Addr.CC
  copyToVar (Addr.var 2)
  swap (Addr.savelist (Addr.var 1) 0) (Addr.var 2)
  swap (Addr.savelist (Addr.var 0) 0) (Addr.var 1)
  swap (Addr.savelist (Addr.var 0) 1) (Addr.var 3)
  switch (Addr.var 0)

abbrev executeAgainend : M Unit := do
  loadInstruction
  let body ← withdrawCode
  pushContVar (.withCode body)
  pushContVar (.withType (.againLoopBody body))
  swap (Addr.savelist Addr.CC 0) (Addr.ctrl 0)
  copyToVar Addr.CC
  swap (Addr.savelist (Addr.var 1) 0) (Addr.var 2)
  swap (Addr.savelist (Addr.var 0) 0) (Addr.var 1)
  switch (Addr.var 0)

abbrev executeAgainendBreak : M Unit := do
  loadInstruction
  let body ← withdrawCode
  pushContVar (.withCode body)
  pushContVar (.withType (.againLoopBody body))
  swap (Addr.savelist Addr.CC 0) (Addr.ctrl 0)
  copyToVar Addr.CC
  copyToVar (Addr.var 2)
  swap (Addr.savelist (Addr.var 1) 0) (Addr.var 2)
  swap (Addr.savelist (Addr.var 0) 0) (Addr.var 1)
  swap (Addr.savelist (Addr.var 0) 1) (Addr.var 3)
  switch (Addr.var 0)

/-- The repeat count in a variable. -/
def repeatCounter (index : Nat) : M Int := do
  let x ← lift (← var index).asInteger
  lift (x.into (-0x80000000) 0x7FFFFFFF)

abbrev executeRepeat : M Unit := do
  loadInstruction
  fetchStack 2
  let body ← varCode 0
  let counter ← repeatCounter 1
  if counter ≤ 0 then
    pure ()
  else
    pushContVar (.withType (.repeatLoopBody body counter))
    swap (Addr.savelist Addr.CC 0) (Addr.ctrl 0)
    copyToVar Addr.CC
    swap (Addr.savelist (Addr.var 2) 0) (Addr.var 3)
    swap (Addr.savelist (Addr.var 0) 0) (Addr.var 2)
    switch (Addr.var 0)

abbrev executeRepeatBreak : M Unit := do
  loadInstruction
  fetchStack 2
  let body ← varCode 0
  let counter ← repeatCounter 1
  if counter ≤ 0 then
    pure ()
  else
    pushContVar (.withType (.repeatLoopBody body counter))
    swap (Addr.savelist Addr.CC 0) (Addr.ctrl 0)
    swap (Addr.savelist Addr.CC 1) (Addr.ctrl 1)
    copyToVar Addr.CC
    copyToVar (Addr.var 3)
    swap (Addr.savelist (Addr.var 2) 0) (Addr.var 3)
    swap (Addr.savelist (Addr.var 0) 0) (Addr.var 2)
    swap (Addr.savelist (Addr.var 0) 1) (Addr.var 4)
    switch (Addr.var 0)

abbrev executeRepeatend : M Unit := do
  loadInstruction
  fetchStack 1
  let body := (← get).cc.code
  let counter ← repeatCounter 0
  if counter ≤ 0 then
    ret
  else
    pushContVar (.withCode body)
    pushContVar (.withType (.repeatLoopBody body counter))
    swap (Addr.savelist (Addr.var 2) 0) (Addr.ctrl 0)
    swap (Addr.savelist (Addr.var 1) 0) (Addr.var 2)
    switch (Addr.var 1)

abbrev executeRepeatendBreak : M Unit := do
  loadInstruction
  fetchStack 1
  let body := (← get).cc.code
  let counter ← repeatCounter 0
  if counter ≤ 0 then
    ret
  else
    pushContVar (.withCode body)
    pushContVar (.withType (.repeatLoopBody body counter))
    copyToVar (Addr.ctrl 0)
    swap (Addr.savelist (Addr.var 2) 0) (Addr.ctrl 0)
    swap (Addr.savelist (Addr.var 1) 0) (Addr.var 2)
    swap (Addr.savelist (Addr.var 1) 1) (Addr.var 3)
    switch (Addr.var 1)

abbrev executeUntil : M Unit := do
  loadInstruction
  fetchStack 1
  let body ← varCode 0
  pushContVar (.withType (.untilLoopCondition body))
  swap (Addr.savelist Addr.CC 0) (Addr.ctrl 0)
  copyToVar Addr.CC
  swap (Addr.savelist (Addr.var 1) 0) (Addr.var 2)
  swap (Addr.savelist (Addr.var 0) 0) (Addr.var 1)
  switch (Addr.var 0)

abbrev executeUntilBreak : M Unit := do
  loadInstruction
  fetchStack 1
  let body ← varCode 0
  pushContVar (.withType (.untilLoopCondition body))
  swap (Addr.savelist Addr.CC 0) (Addr.ctrl 0)
  swap (Addr.savelist Addr.CC 1) (Addr.ctrl 1)
  copyToVar Addr.CC
  copyToVar (Addr.var 2)
  swap (Addr.savelist (Addr.var 1) 0) (Addr.var 2)
  swap (Addr.savelist (Addr.var 0) 0) (Addr.var 1)
  swap (Addr.savelist (Addr.var 0) 1) (Addr.var 3)
  switch (Addr.var 0)

abbrev executeUntilend : M Unit := do
  loadInstruction
  let body ← withdrawCode
  pushContVar (.withCode body)
  pushContVar (.withType (.untilLoopCondition body))
  swap (Addr.savelist (Addr.var 1) 0) (Addr.ctrl 0)
  swap (Addr.savelist (Addr.var 0) 0) (Addr.var 1)
  switch (Addr.var 0)

abbrev executeUntilendBreak : M Unit := do
  loadInstruction
  let body ← withdrawCode
  pushContVar (.withCode body)
  pushContVar (.withType (.untilLoopCondition body))
  copyToVar (Addr.ctrl 0)
  swap (Addr.savelist (Addr.var 1) 0) (Addr.ctrl 0)
  swap (Addr.savelist (Addr.var 0) 0) (Addr.var 1)
  swap (Addr.savelist (Addr.var 0) 1) (Addr.var 2)
  switch (Addr.var 0)

abbrev executeWhile : M Unit := do
  loadInstruction
  fetchStack 2
  let body ← varCode 0
  let cond ← varCode 1
  pushContVar (.withType (.whileLoopCondition body cond))
  swap (Addr.savelist Addr.CC 0) (Addr.ctrl 0)
  copyToVar Addr.CC
  swap (Addr.savelist (Addr.var 2) 0) (Addr.var 3)
  swap (Addr.savelist (Addr.var 1) 0) (Addr.var 2)
  switch (Addr.var 1)

abbrev executeWhileBreak : M Unit := do
  loadInstruction
  fetchStack 2
  let body ← varCode 0
  let cond ← varCode 1
  pushContVar (.withType (.whileLoopCondition body cond))
  swap (Addr.savelist Addr.CC 0) (Addr.ctrl 0)
  swap (Addr.savelist Addr.CC 1) (Addr.ctrl 1)
  copyToVar Addr.CC
  copyToVar (Addr.var 3)
  copyToVar (Addr.var 3)
  swap (Addr.savelist (Addr.var 2) 0) (Addr.var 3)
  swap (Addr.savelist (Addr.var 1) 0) (Addr.var 2)
  swap (Addr.savelist (Addr.var 1) 1) (Addr.var 4)
  swap (Addr.savelist (Addr.var 0) 1) (Addr.var 5)
  switch (Addr.var 1)

abbrev executeWhileend : M Unit := do
  loadInstruction
  fetchStack 1
  let body ← withdrawCode
  let cond ← varCode 0
  pushContVar (.withType (.whileLoopCondition body cond))
  swap (Addr.savelist (Addr.var 1) 0) (Addr.ctrl 0)
  swap (Addr.savelist (Addr.var 0) 0) (Addr.var 1)
  switch (Addr.var 0)

abbrev executeWhileendBreak : M Unit := do
  loadInstruction
  fetchStack 1
  popAll (Addr.var 0)
  let body ← withdrawCode
  let cond ← varCode 0
  pushContVar (.withType (.whileLoopCondition body cond))
  copyToVar (Addr.ctrl 0)
  swap (Addr.savelist (Addr.var 1) 0) (Addr.ctrl 0)
  swap (Addr.savelist (Addr.var 0) 0) (Addr.var 1)
  swap (Addr.savelist (Addr.var 0) 1) (Addr.var 2)
  switch (Addr.var 0)

end Engine

end TonVm
