import TonVm.Executor.Storage
import TonVm.Executor.Decode

/-!
# Arithmetic instructions

Most of these work on the stack in place: the operand below the top is overwritten with the result and
the top is dropped. A binary operation takes the top out first, so when it fails Null is left there.
-/

namespace TonVm

open ExecLib

/-- The rule of `minmax`. -/
inductive MinMax where
  | min
  | max
  | minmax
  deriving DecidableEq

/-- A comparison rule: the outcomes that give true. Without any the sign is returned. -/
structure ComparisonRule where
  equal : Bool := false
  greater : Bool := false
  less : Bool := false

namespace IntegerData

def boolint (value : Bool) : IntegerData := if value then minusOne else zero

/-- `cmp!` with rule 0: the sign of the difference. -/
def compareSign (T : OperationBehavior) (x y : IntegerData) : Except Failure IntegerData := do
  match ← x.compare T y with
  | some .eq => return zero
  | some .gt => return one
  | some .lt => return minusOne
  | none =>
    T.onNanParameter
    return nan

/-- `cmp!` with a rule. -/
def compareRule (T : OperationBehavior) (rule : ComparisonRule) (x y : IntegerData) :
    Except Failure IntegerData := do
  match ← x.compare T y with
  | some .eq => return boolint rule.equal
  | some .gt => return boolint rule.greater
  | some .lt => return boolint rule.less
  | none =>
    T.onNanParameter
    return nan

def signOf (T : OperationBehavior) (x : IntegerData) : Except Failure IntegerData := do
  if x.isNan then
    T.onNanParameter
    return nan
  return if x.isNeg then minusOne else if x.isZero then zero else one

def bitsizeOf (T : OperationBehavior) (x : IntegerData) : Except Failure IntegerData := do
  if x.isNan then
    T.onNanParameter
    return nan
  else if x.isZero then
    return zero
  else
    return .value (← x.signedBitsize)

def ubitsizeOf (T : OperationBehavior) (x : IntegerData) : Except Failure IntegerData := do
  if x.isNan || x.isNeg then
    T.onRangeCheckError
    return nan
  else
    return .value (← x.ubitsize)

/-- `POW2`: a range error other than an integer overflow is passed on. -/
def pow2 (T : OperationBehavior) (x : IntegerData) : Except Failure IntegerData :=
  match x.intoUsize 0 1023 with
  | .ok shift => one.shl T shift
  | .error (.code .integerOverflow) => do
    T.onIntegerOverflow
    return nan
  | .error e => .error e

end IntegerData

namespace Engine

variable [TonTypes]

/-! ### In-place operations -/

def checkDepth (depth : Nat) : M Unit := do
  if (← get).cc.stack.length < depth then
    err .stackUnderflow

def stackItem (i : Nat) : M StackItem := do
  lift (Stack.get i (← get).cc.stack)

/-- Writes through `stack.get_mut(i)`. -/
def setStackItem (i : Nat) (item : StackItem) : M Unit :=
  modify fun e => { e with cc.stack := e.cc.stack.set (e.cc.stack.length - i - 1) item }

def dropTopItem : M Unit := do
  let _ ← takeStack (Stack.drop 0)

/-- The start of both functions for two operands: the topmost item is taken out, Null is in its place. -/
abbrev takeOperands (op : IntegerData → IntegerData → M Unit) : M Unit := do
  loadInstruction
  checkDepth 2
  let v0 ← stackItem 0
  setStackItem 0 .none
  let v1 ← lift (← stackItem 1).asInteger
  let y ← lift v0.asInteger
  op y v1

/-- `binary`: an operation on the two topmost items. -/
def binary (handler : IntegerData → IntegerData → Except Failure IntegerData) : M Unit :=
  takeOperands fun y v1 => do
    let result ← lift (handler y v1)
    setStackItem 1 (.integer result)
    dropTopItem

/-- `binary_assign`: the operation works on its operand in place, so what it wrote before it failed
stays on the stack. -/
def binaryAssign (handler : IntegerData → IntegerData → Except Failure Unit × IntegerData) :
    M Unit :=
  takeOperands fun y v1 => do
    let (status, result) := handler y v1
    setStackItem 1 (.integer result)
    lift status
    dropTopItem

def binaryWithConst (handler : Int → IntegerData → Except Failure IntegerData) : M Unit := do
  loadInstruction (some (.integer (-128) 128))
  checkDepth 1
  let v0 ← param integerRaw
  let v1 ← lift (← stackItem 0).asInteger
  setStackItem 0 (.integer (← lift (handler v0 v1)))

def unary (handler : IntegerData → Except Failure IntegerData) : M Unit := do
  loadInstruction
  checkDepth 1
  let v0 ← lift (← stackItem 0).asInteger
  setStackItem 0 (.integer (← lift (handler v0)))

def unaryWithLen (handler : IntegerData → Nat → Except Failure IntegerData) : M Unit := do
  loadInstruction (some (.lengthMinusOne 0 256))
  checkDepth 1
  let v0 ← lift (← stackItem 0).asInteger
  let length ← param lengthRaw
  setStackItem 0 (.integer (← lift (handler v0 length)))

/-- What `minmax` does with the outcome of the comparison. -/
def pushMinmax (T : OperationBehavior) (compareType : MinMax) (x y : StackItem)
    (order : Option Ordering) : M Unit := do
  let (x, y) ←
    match order with
    | none => do
      lift T.onNanParameter
      pure (.nan, .nan)
    | some .lt => pure (if compareType = .max then (y, x) else (x, y))
    | some _ => pure (if compareType ≠ .max then (y, x) else (x, y))
  push x
  if compareType = .minmax then
    push y

def minmax (T : OperationBehavior) (compareType : MinMax) : M Unit := do
  loadInstruction
  fetchStack 2
  let x ← var 0
  let y ← var 1
  pushMinmax T compareType x y (← lift (do (← x.asInteger).compare T (← y.asInteger)))

def fitsIn (T : OperationBehavior) (length : Nat)
    (opFit : IntegerData → Nat → Except Failure Bool) : M Unit := do
  checkDepth 1
  let x ← lift (← stackItem 0).asInteger
  if x.isNan then
    lift T.onNanParameter
    setStackItem 0 .nan
  else if !(← lift (opFit x length)) then
    lift T.onIntegerOverflow
    setStackItem 0 .nan

/-! ### Instructions -/

abbrev executeAbs (T : OperationBehavior) : M Unit := do
  loadInstruction
  fetchStack 1
  let item ← var 0
  let x ← lift item.asInteger
  if x.isNan then
    lift T.onNanParameter
    push item
  else if x.isNeg then
    push (.integer (← lift (x.neg T)))
  else
    push item

abbrev executeAdd (T : OperationBehavior) : M Unit := binaryAssign fun y x => x.addAssign T y

abbrev executeAddconst (T : OperationBehavior) : M Unit := binaryWithConst fun y x => x.addI8 T y

abbrev executeAnd (T : OperationBehavior) : M Unit := binary fun y x => x.and T y

abbrev executeBitsize (T : OperationBehavior) : M Unit := unary (IntegerData.bitsizeOf T)

abbrev executeChknan : M Unit := do
  loadInstruction
  checkDepth 1
  if (← lift (← stackItem 0).asInteger).isNan then
    err .integerOverflow

abbrev executeCmp (T : OperationBehavior) : M Unit := binary fun y x => x.compareSign T y

abbrev executeDec (T : OperationBehavior) : M Unit := unary fun x => x.subI8 T 1

abbrev executeEqual (T : OperationBehavior) : M Unit :=
  binary fun y x => x.compareRule T { equal := true } y

abbrev executeEqint (T : OperationBehavior) : M Unit :=
  binaryWithConst fun y x => x.compareRule T { equal := true } (.value y)

abbrev executeFits (T : OperationBehavior) : M Unit := do
  loadInstruction (some (.lengthMinusOne 0 256))
  fitsIn T (← param lengthRaw) IntegerData.fitsIn

/-- The length on top of the stack of the instructions that take it there. -/
def fetchLength : M Nat := do
  loadInstruction
  fetchStack 1
  let x ← lift (← var 0).asInteger
  lift (x.intoUsize 0 1023)

abbrev executeFitsx (T : OperationBehavior) : M Unit := do
  fitsIn T (← fetchLength) IntegerData.fitsIn

abbrev executeGeq (T : OperationBehavior) : M Unit :=
  binary fun y x => x.compareRule T { equal := true, greater := true } y

abbrev executeGreater (T : OperationBehavior) : M Unit :=
  binary fun y x => x.compareRule T { greater := true } y

abbrev executeGtint (T : OperationBehavior) : M Unit :=
  binaryWithConst fun y x => x.compareRule T { greater := true } (.value y)

abbrev executeInc (T : OperationBehavior) : M Unit := unary fun x => x.addI8 T 1

abbrev executeIsnan : M Unit := do
  loadInstruction
  fetchStack 1
  push (.boolean (← lift (← var 0).asInteger).isNan)

abbrev executeLeq (T : OperationBehavior) : M Unit :=
  binary fun y x => x.compareRule T { equal := true, less := true } y

abbrev executeLess (T : OperationBehavior) : M Unit :=
  binary fun y x => x.compareRule T { less := true } y

abbrev executeLessint (T : OperationBehavior) : M Unit :=
  binaryWithConst fun y x => x.compareRule T { less := true } (.value y)

abbrev executeLshift (T : OperationBehavior) : M Unit := do
  if (← get).lastCmd = 0xAC then
    binary fun y x => do x.shl T (← y.intoUsize 0 1023)
  else
    unaryWithLen fun x y => x.shl T y

abbrev executeMax (T : OperationBehavior) : M Unit := minmax T .max

abbrev executeMin (T : OperationBehavior) : M Unit := minmax T .min

abbrev executeMinmax (T : OperationBehavior) : M Unit := minmax T .minmax

abbrev executeMul (T : OperationBehavior) : M Unit := binary fun y x => x.mul T y

abbrev executeMulconst (T : OperationBehavior) : M Unit := binaryWithConst fun y x => x.mulI8 T y

abbrev executeNegate (T : OperationBehavior) : M Unit := unary fun x => x.neg T

abbrev executeNeq (T : OperationBehavior) : M Unit :=
  binary fun y x => x.compareRule T { greater := true, less := true } y

abbrev executeNeqint (T : OperationBehavior) : M Unit :=
  binaryWithConst fun y x => x.compareRule T { greater := true, less := true } (.value y)

abbrev executeNot (T : OperationBehavior) : M Unit := unary fun x => x.not T

abbrev executeOr (T : OperationBehavior) : M Unit := binary fun y x => x.or T y

abbrev executePow2 (T : OperationBehavior) : M Unit := unary (IntegerData.pow2 T)

abbrev executeRshift (T : OperationBehavior) : M Unit := do
  if (← get).lastCmd = 0xAD then
    binary fun y x => do x.shr T (← y.intoUsize 0 1023)
  else
    unaryWithLen fun x y => x.shr T y

abbrev executeSgn (T : OperationBehavior) : M Unit := unary (IntegerData.signOf T)

abbrev executeSub (T : OperationBehavior) : M Unit := binary fun y x => x.sub T y

abbrev executeSubr (T : OperationBehavior) : M Unit := binary fun y x => y.sub T x

abbrev executeUbitsize (T : OperationBehavior) : M Unit := unary (IntegerData.ubitsizeOf T)

abbrev executeUfits (T : OperationBehavior) : M Unit := do
  loadInstruction (some (.lengthMinusOne 0 256))
  fitsIn T (← param lengthRaw) IntegerData.ufitsIn

abbrev executeUfitsx (T : OperationBehavior) : M Unit := do
  fitsIn T (← fetchLength) IntegerData.ufitsIn

abbrev executeXor (T : OperationBehavior) : M Unit := binary fun y x => x.xor T y

/-! ### Division -/

/-- `get_var`: the integer at an index that counts down from the deepest variable. -/
def getVar (index : Int) : M IntegerData := do
  if index < 0 then
    err .stackUnderflow
  lift (← var index.toNat).asInteger

/-- `get_shift`: the shift of the instruction, or else the next variable. The index after it is
returned with it. -/
def getShift (index : Int) : M (Nat × Int) := do
  match lengthRaw (← get).cmd with
  | some length => return (length, index)
  | none =>
    let x ← getVar index
    return (← lift (x.intoUsize 0 256), index - 1)

/-- The number of arguments of a division on the stack. -/
def divmodArgs (mode : DivMode) (hasLength : Bool) : Nat :=
  1 + (if mode.premultiply && !(mode.mulByShift && hasLength) then 1 else 0)
    + (if !mode.divByShift || !hasLength then 1 else 0)

/-- The division of the product, or of the shifted dividend. -/
def divideProduct (T : OperationBehavior) (mode : DivMode) (y : IntegerData) (index : Int) :
    Option Int → M (IntegerData × IntegerData)
  | none => return IntegerData.constructDoubleNan
  | some x => do
    let rounding ← lift mode.roundingStrategy
    if mode.divByShift then
      let (shift, _) ← getShift index
      lift (IntegerData.processDoubleResult T (TonVm.divByShift x shift rounding)
        IntegerData.constructDoubleNan)
    else
      let y ← if !mode.mulByShift then getVar index else pure y
      if y.isZero then
        lift T.onIntegerOverflow
        return IntegerData.constructDoubleNan
      else
        lift (IntegerData.unaryOp T y (fun y => divmod x y rounding) IntegerData.constructDoubleNan
          (IntegerData.processDoubleResult T))

/-- The division after a multiplication, in unbounded integers until the end. -/
def premultipliedDivmod (T : OperationBehavior) (mode : DivMode) (x : IntegerData) (index : Int) :
    M (IntegerData × IntegerData) := do
  let y ← getVar index
  let index := index - 1
  let (xOpt, index) ←
    if mode.mulByShift then do
      let (shift, index) ← getShift index
      let xOpt ← lift (IntegerData.unaryOp T x (fun x => x * 2 ^ shift) none
        fun result _ => .ok (some result))
      pure (xOpt, index)
    else do
      let xOpt ← lift (IntegerData.binaryOp T x y (fun x y => x * y) none
        fun result _ => .ok (some result))
      pure (xOpt, index)
  divideProduct T mode y index xOpt

/-- Checks that the first variables are integers. -/
def checkIntegerVars : Nat → Nat → M Unit
  | _, 0 => pure ()
  | i, n + 1 => do
    let _ ← lift (← var i).asInteger
    checkIntegerVars (i + 1) n

/-- The results of `DIV`, before they are pushed. -/
abbrev divmodPair (T : OperationBehavior) (mode : DivMode) (x : IntegerData) (index : Int) :
    M (IntegerData × IntegerData) :=
  if mode.premultiply then
    premultipliedDivmod T mode x index
  else if mode.divByShift then do
    let (shift, _) ← getShift index
    lift (x.divByShift T shift (← lift mode.roundingStrategy))
  else do
    let y ← getVar index
    lift (x.div T y (← lift mode.roundingStrategy))

/-- The results that the mode asks for are pushed. -/
abbrev pushResults (mode : DivMode) (q r : IntegerData) : M Unit := do
  if mode.needQuotient then
    push (.integer q)
  if mode.needRemainder then
    push (.integer r)

/-- `DIV` and its variants, by a mode byte. -/
abbrev executeDivmod (T : OperationBehavior) : M Unit := do
  loadInstruction (some .divisionMode)
  let mode ← param divisionModeRaw
  if !mode.isValid then
    err .invalidOpcode
  let hasLength := (lengthRaw (← get).cmd).isSome
  let n := divmodArgs mode hasLength
  fetchStack n
  checkIntegerVars 0 n
  let index : Int := (n : Int) - 1
  let x ← getVar index
  let (q, r) ← divmodPair T mode x (index - 1)
  pushResults mode q r

end Engine

end TonVm
