import TonVm.Executor.Engine

/-!
# Microcode

Control flow moves values between the current continuation, the control registers, the instruction
variables and the save lists of all of these. The places are addressed by 16-bit codes. An index into
variables or registers has four bits of such a code, so a larger index is cut or read as a tag.
-/

namespace TonVm

open ExecLib

/-! ### Addresses -/

namespace Addr

def CC : Nat := 0x0000

def CTRL : Nat := 0x0100

def STACK : Nat := 0x0200

def VAR : Nat := 0x0300

def SAVELIST : Nat := 0x0800

def addressTag (code : Nat) : Nat := code &&& 0x0F00

def storageIndex (code : Nat) : Nat := code &&& 0x000F

def stackIndex (code : Nat) : Nat := code &&& 0x00FF

def savelistIndex (code : Nat) : Nat := (code &&& 0xF000) >>> 12

/-- `ctrl!(index)`. -/
def ctrl (index : Nat) : Nat := CTRL ||| index

/-- `savelist!(storage, index)`. -/
def savelist (storage index : Nat) : Nat := storage ||| SAVELIST ||| (index <<< 12)

/-- `stack!(index)`. -/
def stack (index : Nat) : Nat := STACK ||| (index &&& 0xFF)

/-- `var!(index)`, with the index as a 16-bit number. -/
def var (index : Nat) : Nat := VAR ||| (index % 2 ^ 16)

end Addr

/-- The data tags of `convert`. -/
inductive DataTag where
  | builder
  | cell
  | continuation
  | slice
  deriving DecidableEq

/-- What an address refers to. -/
inductive Place where
  | cc
  | ctrl
  | stack
  | var
  | ccSavelist
  | ctrlSavelist
  | varSavelist
  | unknown
  deriving DecidableEq

def Place.of (code : Nat) : Place :=
  match Addr.addressTag code with
  | 0x0000 => .cc
  | 0x0100 => .ctrl
  | 0x0200 => .stack
  | 0x0300 => .var
  | 0x0800 => .ccSavelist
  | 0x0900 => .ctrlSavelist
  | 0x0B00 => .varSavelist
  | _ => .unknown

/-- Whether a place is a list of saved registers, or the registers themselves. -/
def Place.isList : Place → Bool
  | .ctrl | .ccSavelist | .ctrlSavelist | .varSavelist => true
  | _ => false

namespace Engine

variable [TonTypes]

open Addr (addressTag storageIndex stackIndex savelistIndex)

/-! ### Continuations and save lists by address -/

def continuationByAddress (address : Nat) : M ContinuationData := do
  match Place.of address with
  | .var => lift (← var (storageIndex address)).asContinuation
  | .ctrl =>
    match (← get).ctrls.get (storageIndex address) with
    | some item => lift item.asContinuation
    | none => err .typeCheckError
  | _ => fail

/-- Writes through `continuation_mut_by_address!`, at an address that holds a continuation. -/
def setContinuationByAddress (address : Nat) (cont : ContinuationData) : M Unit := do
  match Place.of address with
  | .var => setVar (storageIndex address) (.continuation cont)
  | .ctrl => setCtrl (storageIndex address) (.continuation cont)
  | _ => fail

/-- The index part of an address of a list. -/
def listIndex (flags : Nat) : Nat :=
  match Place.of flags with
  | .ctrl => storageIndex flags
  | _ => savelistIndex flags

/-- `Info::list`: the save list, or the registers, an address refers to. -/
def listAt (flags : Nat) : M SaveList := do
  match Place.of flags with
  | .ccSavelist => return (← get).cc.savelist
  | .ctrl => return (← get).ctrls
  | .ctrlSavelist =>
    match (← get).ctrls.get (storageIndex flags) with
    | some item => return (← lift item.asContinuation).savelist
    | none => fail
  | .varSavelist => return (← lift (← var (storageIndex flags)).asContinuation).savelist
  | _ => fail

/-- Replaces the list an address refers to. -/
def setListAt (flags : Nat) (list : SaveList) : M Unit := do
  match Place.of flags with
  | .ccSavelist => modify fun e => { e with cc.savelist := list }
  | .ctrl => modify fun e => { e with ctrls := list }
  | .ctrlSavelist =>
    match (← get).ctrls.get (storageIndex flags) with
    | some item =>
      let cont ← lift item.asContinuation
      setCtrl (storageIndex flags) (.continuation { cont with savelist := list })
    | none => fail
  | .varSavelist =>
    let cont ← lift (← var (storageIndex flags)).asContinuation
    setVar (storageIndex flags) (.continuation { cont with savelist := list })
  | _ => fail

/-- `put_to_list`: stores a value after the type check and returns what was there. -/
def putToList (x : Nat) (item : StackItem) : M (Option StackItem) := do
  let list ← listAt x
  let new ← lift (SaveList.put list (listIndex x) item)
  setListAt x new
  return list.get (listIndex x)

def putToListFromItem (x y : Nat) : M (Option StackItem) := do
  let item ← var (storageIndex y)
  if SaveList.canPut (listIndex x) item then
    setVar (storageIndex y) .none
    putToList x item
  else
    err .typeCheckError

def putToListFromList (x y : Nat) : M (Option StackItem) := do
  let _ ← listAt x
  let list ← listAt y
  match list.get (listIndex y) with
  | some item =>
    if SaveList.canPut (listIndex x) item then
      setListAt y (list.remove (listIndex y))
      putToList x item
    else
      err .typeCheckError
  | none => err .typeCheckError

/-- Swaps a list entry with a variable. Nothing happens when both are empty. -/
def swapWithList (x y : Nat) : M Unit := do
  let list ← listAt x
  let item ← var (storageIndex y)
  if (list.get (listIndex x)).isSome || !item.isNull then
    let old ← putToListFromItem x y
    setVar (storageIndex y) (old.getD .none)

def swapBetweenLists (x y : Nat) : M Unit := do
  let list ← listAt y
  if (list.get (listIndex y)).isSome then
    match ← putToListFromList x y with
    | some old =>
      let _ ← putToList y old
    | none => pure ()
  else
    let list ← listAt x
    if (list.get (listIndex x)).isSome then
      let _ ← putToListFromList y x

/-- Swaps the current continuation with a continuation held elsewhere. -/
def swapCc (address : Nat) (cont : ContinuationData) : M Unit := do
  let cc := (← get).cc
  setContinuationByAddress address cc
  modify fun e => { e with cc := cont }

/-- `swap` once the place with the smaller tag comes first. -/
def swapOrdered (x y : Nat) : M Unit := do
  match Place.of x, Place.of y with
  | .cc, .ctrl =>
    match (← get).ctrls.get (storageIndex y) with
    | some item => swapCc y (← lift item.asContinuation)
    | none => err .typeCheckError
  | .cc, .var => swapCc y (← lift (← var (storageIndex y)).asContinuation)
  | .var, .var =>
    let a ← var (storageIndex x)
    let b ← var (storageIndex y)
    setVar (storageIndex x) b
    setVar (storageIndex y) a
  -- a register has the smaller tag, so here the list is never the registers
  | .var, place => if place.isList then swapWithList y x else fail
  | place, .var => if place.isList then swapWithList x y else fail
  | place, place' => if place.isList && place'.isList then swapBetweenLists x y else fail

/-- `swap`: exchanges the contents of two places. -/
def swap (x y : Nat) : M Unit :=
  if addressTag x > addressTag y then swapOrdered y x else swapOrdered x y

/-! ### Microfunctions -/

def applySavelist : M Unit :=
  modify fun e => { e with
    ctrls := e.ctrls.apply e.cc.savelist
    cc.savelist := {} }

/-- `apply_savelist_excluding_c0_c1`: the saved c0 and c1 are dropped first. -/
def applySavelistExcludingC0C1 : M Unit := do
  modify fun e => { e with cc.savelist := (e.cc.savelist.remove 0).remove 1 }
  applySavelist

def copyToVar (src : Nat) : M Unit := do
  match Place.of src with
  | .cc => pushVar (.continuation (← get).cc.copyWithoutStack)
  | .ctrl => pushVar (((← get).ctrls.get (storageIndex src)).getD .none)
  | .stack => pushVar (← lift (Stack.get (stackIndex src) (← get).cc.stack))
  | .var => pushVar (← var (storageIndex src))
  | _ => fail

/-- `fetch_reference(engine, CC)`, the only place it is called with. -/
def fetchReference : M Unit := do
  match TonTypes.checkedDrainReference (← get).cc.code with
  | .ok (cell, code) =>
    modify fun e => { e with cc.code := code }
    pushVar (.cell cell)
  | .error _ => err .invalidOpcode

/-- `fetch_stack`: the top of the stack becomes the variables, topmost first. -/
def fetchStack (depth : Nat) : M Unit := do
  if (← get).cc.stack.length < depth then
    err .stackUnderflow
  else
    let items ← takeStack (Stack.dropRange 0 depth)
    modify fun e => { e with cmd.vars := e.cmd.vars ++ items }

/-- `move_stack_from_cc`: the limit on the arguments of the receiver is lowered before the stack is
looked at. -/
def moveStackFromCc (dst start stop : Nat) : M Unit := do
  let save := stop - start
  let peer ← continuationByAddress dst
  let peer ←
    if peer.nargs ≥ 0 then
      if (save : Int) > peer.nargs then
        err .stackOverflow
      else
        pure { peer with nargs := peer.nargs - save }
    else
      pure peer
  setContinuationByAddress dst peer
  let received ← takeStack (Stack.moveRange start stop peer.stack)
  setContinuationByAddress dst { peer with stack := received }

/-- The end of `pop_range`: joining two stacks costs gas. -/
abbrev joinStacks (dst start stop : Nat) : M Unit := do
  let depth := (← continuationByAddress dst).stack.length
  if depth ≠ 0 ∧ stop - start ≠ 0 then
    tryUseGas (Gas.stackPrice (stop - start + depth))
  moveStackFromCc dst start stop

/-- `pop_range`: splitting a deep stack costs gas. -/
def popRange (start stop dst : Nat) : M Unit := do
  let save := stop - start
  if (← get).cc.stack.length > save then
    tryUseGas (Gas.stackPrice save)
  joinStacks dst start stop

/-- `pop_all`: passes the stack to a continuation, cut to the number of arguments it takes. -/
def popAll (dst : Nat) : M Unit := do
  let nargs := (← continuationByAddress dst).nargs
  let depth := (← get).cc.stack.length
  let pargs := pargsRaw (← get).cmd
  let drop ←
    if nargs < 0 then
      pure (pargs.getD depth)
    else
      match pargs with
      | some pargs =>
        if (pargs : Int) < nargs then
          err .stackUnderflow
        else
          pure pargs
      | none => pure nargs.toNat
  if drop > 0 then
    popRange 0 drop dst

/-! ### Conversions -/

/-- `convert`: changes the type of a variable. -/
def convert (x : Nat) (target origin : DataTag) : M Unit := do
  let index := storageIndex x
  if (← get).cmd.vars.length ≤ index then
    fail
  if Place.of x ≠ .var then
    fail
  let data ←
    match origin with
    | .builder => do
      let builder ← lift (← var index).asBuilder
      -- `as_builder_mut` takes the builder out of the variable
      setVar index (.builder TonTypes.builderDefault)
      let cell ← finalizeCell builder
      match target with
      | .continuation => pure (.continuation (.withCode (← loadCell cell)))
      | .cell => pure (.cell cell)
      | .slice => pure (.slice (← loadCell cell))
      | .builder => fail
    | .cell => do
      let cell ← lift (← var index).asCell
      let slice ← loadCell cell
      match target with
      | .continuation => pure (.continuation (.withCode slice))
      | .slice => pure (.slice slice)
      | _ => fail
    | .slice => do
      let slice ← lift (← var index).asSlice
      match target with
      | .continuation => pure (.continuation (.withCode slice))
      | _ => fail
    | .continuation => fail
  setVar index data

end Engine

end TonVm
