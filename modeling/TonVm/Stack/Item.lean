import TonVm.Stack.Integer

/-!
# Stack items, continuations and save lists

A stack item may hold a continuation, a continuation holds a stack and a save list, and both hold
stack items again. The containers are generic in the item type, so that the three are one nested
inductive type and every value of it is a finite tree.
-/

namespace TonVm

/-! ### Save lists -/

/-- A save list, or the control registers: a value or nothing for each of c0 to c5 and c7. -/
@[ext]
structure SaveListOf (α : Type) where
  c0 : Option α := none
  c1 : Option α := none
  c2 : Option α := none
  c3 : Option α := none
  c4 : Option α := none
  c5 : Option α := none
  c7 : Option α := none

namespace SaveListOf

variable {α : Type}

/-- The register numbers, in the order of their slots. -/
def regs : List Nat := [0, 1, 2, 3, 4, 5, 7]

/-- The slot of a register: c7 is stored in the place of the register c6, which does not exist. -/
def adjust (index : Nat) : Nat := if index = 7 then 6 else index

/-- The content of a slot, by its place in the array. -/
def slot (list : SaveListOf α) : Nat → Option α
  | 0 => list.c0
  | 1 => list.c1
  | 2 => list.c2
  | 3 => list.c3
  | 4 => list.c4
  | 5 => list.c5
  | 6 => list.c7
  | _ => none

def setSlot (list : SaveListOf α) (index : Nat) (value : Option α) : SaveListOf α :=
  match index with
  | 0 => { list with c0 := value }
  | 1 => { list with c1 := value }
  | 2 => { list with c2 := value }
  | 3 => { list with c3 := value }
  | 4 => { list with c4 := value }
  | 5 => { list with c5 := value }
  | 6 => { list with c7 := value }
  | _ => list

def get (list : SaveListOf α) (index : Nat) : Option α := list.slot (adjust index)

/-- `put_opt`: stores without a type check. The value replaced is what `get` returned before. -/
def putOpt (list : SaveListOf α) (index : Nat) (value : α) : SaveListOf α :=
  list.setSlot (adjust index) (some value)

def remove (list : SaveListOf α) (index : Nat) : SaveListOf α :=
  list.setSlot (adjust index) none

/-- `apply`: what is present in `other` overrides. It is moved, so `other` is empty afterwards. -/
def apply (list other : SaveListOf α) : SaveListOf α where
  c0 := other.c0.or list.c0
  c1 := other.c1.or list.c1
  c2 := other.c2.or list.c2
  c3 := other.c3.or list.c3
  c4 := other.c4.or list.c4
  c5 := other.c5.or list.c5
  c7 := other.c7.or list.c7

end SaveListOf

/-! ### Continuations and items -/

section Items

variable [TonTypes]

inductive ContinuationType where
  | againLoopBody (body : SliceData)
  | tryCatch
  | catchRevert (depth : Nat)
  | ordinary
  | pushInt (code : Int)
  | quit (exitCode : Int)
  | repeatLoopBody (body : SliceData) (counter : Int)
  | untilLoopCondition (body : SliceData)
  | whileLoopCondition (body cond : SliceData)
  | excQuit

def ContinuationType.isExcQuit : ContinuationType → Bool
  | .excQuit => true
  | _ => false

def ContinuationType.isCatchRevert : ContinuationType → Bool
  | .catchRevert _ => true
  | _ => false

/-- A continuation over an item type. Its stack is listed from the bottom, the top is last. -/
@[ext]
structure ContinuationOf (α : Type) where
  code : SliceData
  nargs : Int := -1
  savelist : SaveListOf α := {}
  stack : List α := []
  typeOf : ContinuationType := .ordinary

namespace ContinuationOf

variable {α : Type}

def newEmpty : ContinuationOf α := { code := TonTypes.sliceDefault }

def withCode (code : SliceData) : ContinuationOf α := { code }

def withType (typeOf : ContinuationType) : ContinuationOf α :=
  { code := TonTypes.sliceDefault, typeOf }

/-- `copy_without_stack`: everything but the stack is copied, `nargs` included. -/
def copyWithoutStack (cont : ContinuationOf α) : ContinuationOf α :=
  { cont with stack := [] }

/-- `move_without_stack`: a continuation with the code and the type of `cont` is split off, and
`cont` is left with the body as an ordinary continuation. Debug assertions are compiled out. -/
def moveWithoutStack (cont : ContinuationOf α) (body : SliceData) :
    ContinuationOf α × ContinuationOf α :=
  ({ code := cont.code, typeOf := cont.typeOf }, { cont with code := body, typeOf := .ordinary })

end ContinuationOf

inductive StackItem where
  | none
  | builder (builder : BuilderData)
  | cell (cell : Cell)
  | continuation (continuation : ContinuationOf StackItem)
  | integer (integer : IntegerData)
  | slice (slice : SliceData)
  | tuple (tuple : List StackItem)

abbrev ContinuationData := ContinuationOf StackItem

abbrev SaveList := SaveListOf StackItem

abbrev Stack := List StackItem

namespace StackItem

def int (value : Int) : StackItem := .integer (.value value)

/-- `int!(value)`, which unwraps the range check. -/
def checkedInt (value : Int) : Except Failure StackItem :=
  match IntegerData.ofInt value with
  | .ok x => .ok (.integer x)
  | .error _ => .error .panic

def boolean (value : Bool) : StackItem := if value then int (-1) else int 0

def nan : StackItem := .integer .nan

def isNull : StackItem → Bool
  | none => true
  | _ => false

def asBool : StackItem → Except Failure Bool
  | integer .nan => .error (.code .integerOverflow)
  | integer (.value v) => .ok (decide (v ≠ 0))
  | _ => .error (.code .typeCheckError)

def asBuilder : StackItem → Except Failure BuilderData
  | builder data => .ok data
  | _ => .error (.code .typeCheckError)

def asCell : StackItem → Except Failure Cell
  | cell data => .ok data
  | _ => .error (.code .typeCheckError)

def asContinuation : StackItem → Except Failure ContinuationData
  | continuation data => .ok data
  | _ => .error (.code .typeCheckError)

/-- `as_dict`: a dictionary is Null or a cell. -/
def asDict : StackItem → Except Failure (Option Cell)
  | none => .ok Option.none
  | cell data => .ok (some data)
  | _ => .error (.code .typeCheckError)

def asInteger : StackItem → Except Failure IntegerData
  | integer data => .ok data
  | _ => .error (.code .typeCheckError)

def asSmallInteger (item : StackItem) : Except Failure Nat := do
  let x ← item.asInteger
  x.intoUsize 0 255

def asSlice : StackItem → Except Failure SliceData
  | slice data => .ok data
  | _ => .error (.code .typeCheckError)

def asTuple : StackItem → Except Failure (List StackItem)
  | tuple data => .ok data
  | _ => .error (.code .typeCheckError)

/-- `tuple_item(index, default)`: an index past the end gives Null when `default` is set. -/
def tupleItem (item : StackItem) (index : Nat) (default : Bool) : Except Failure StackItem := do
  let tuple ← item.asTuple
  match tuple[index]? with
  | some value => return value
  | Option.none => if default then return none else .error (.code .rangeCheckError)

def asGrams (item : StackItem) : Except Failure Nat := do
  let x ← item.asInteger
  x.intoUsize 0 (2 ^ 120 - 1)

/-- Whether two items are of the same kind, `mem::discriminant`. -/
def sameKind : StackItem → StackItem → Bool
  | none, none => true
  | builder _, builder _ => true
  | cell _, cell _ => true
  | continuation _, continuation _ => true
  | integer _, integer _ => true
  | slice _, slice _ => true
  | tuple _, tuple _ => true
  | _, _ => false

end StackItem

namespace SaveList

/-- `SaveList::can_put`: the type of value each register accepts. -/
def canPut (index : Nat) (value : StackItem) : Bool :=
  match index with
  | 0 | 1 | 3 => value.asContinuation.isOk
  | 2 => value.asContinuation.isOk || value.isNull
  | 4 | 5 => value.asCell.isOk
  | 7 => value.asTuple.isOk
  | _ => false

/-- `put`: stores after the type check. -/
def put (list : SaveList) (index : Nat) (value : StackItem) : Except Failure SaveList :=
  if canPut index value then
    .ok (list.putOpt index value)
  else
    .error (.code .typeCheckError)

end SaveList

/-! ### Exceptions -/

inductive ExceptionType where
  | system (code : ExceptionCode)
  | custom (code : Int)
  deriving DecidableEq

structure Exception where
  exception : ExceptionType
  value : StackItem

namespace Exception

def fromCode (code : ExceptionCode) : Exception := ⟨.system code, .int 0⟩

def fromCodeAndValue (code : ExceptionCode) (value : IntegerData) : Exception :=
  ⟨.system code, .integer value⟩

def fromNumberAndValue (number : Nat) (value : StackItem) : Exception := ⟨.custom number, value⟩

def exceptionCode (e : Exception) : Option ExceptionCode :=
  match e.exception with
  | .system code => some code
  | .custom _ => none

def exceptionOrCustomCode (e : Exception) : Int :=
  match e.exception with
  | .system code => code.toNat
  | .custom code => code

def isNormalTermination (e : Exception) : Option Int :=
  match e.exception with
  | .system .normalTermination => some 0
  | .custom 0 => some 0
  | .system .alternativeTermination => some 1
  | .custom 1 => some 1
  | _ => none

end Exception

/-- What a fallible step of the machine may end with: a TVM exception, an error that is none, or a
panic. -/
inductive Error where
  | exception (e : Exception)
  | other
  | panic

def Failure.toError : Failure → Error
  | .code c => .exception (.fromCode c)
  | .other => .other
  | .panic => .panic

/-- `tvm_exception_full`: the exception of an error, if it is one. -/
def Error.tvmExceptionFull : Error → Option Exception
  | .exception e => some e
  | _ => none

end Items

end TonVm
