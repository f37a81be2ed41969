import TonVm.Types

/-!
# Integers

A stack integer is NaN or a big integer. Arithmetic is generic over the behaviour of an instruction:
the signaling version raises an exception on NaN and on overflow, the quiet one returns NaN. The
constructors that check the 257-bit range and those that do not are kept apart, as in the source.
-/

namespace TonVm

inductive IntegerData where
  | nan
  | value (value : Int)
  deriving DecidableEq, Repr

inductive OperationBehavior where
  | signaling
  | quiet
  deriving DecidableEq, Repr

namespace OperationBehavior

def onNanParameter : OperationBehavior → Except Failure Unit
  | signaling => .error (.code .integerOverflow)
  | quiet => .ok ()

def onIntegerOverflow : OperationBehavior → Except Failure Unit
  | signaling => .error (.code .integerOverflow)
  | quiet => .ok ()

def onRangeCheckError : OperationBehavior → Except Failure Unit
  | signaling => .error (.code .rangeCheckError)
  | quiet => .ok ()

end OperationBehavior

/-- `BigInt::bits`: the bit length of the magnitude. -/
def bits (value : Int) : Nat :=
  if value = 0 then 0 else value.natAbs.log2 + 1

/-- The fewest bits that hold a signed value. -/
def bitsize (value : Int) : Nat :=
  if value = 0 ∨ value = -1 then
    1
  else if 0 < value then
    bits value + 1
  -- for a negative value `bits` is exact only when the magnitude is a power of two
  else if value.natAbs &&& (value.natAbs - 1) = 0 then
    bits value
  else
    bits value + 1

def checkOverflow (value : Int) : Bool :=
  bitsize value < 258

inductive Round where
  | ceil
  | floorToNegativeInfinity
  | floorToZero
  | nearest
  deriving DecidableEq, Repr

namespace IntegerData

def zero : IntegerData := .value 0

def one : IntegerData := .value 1

def minusOne : IntegerData := .value (-1)

def isNan : IntegerData → Bool
  | nan => true
  | value _ => false

def isNeg : IntegerData → Bool
  | nan => false
  | value v => v < 0

def isZero : IntegerData → Bool
  | nan => false
  | value v => v = 0

def checkNeg : IntegerData → Except Failure Unit
  | nan => .error (.code .rangeCheckError)
  | value v => if v < 0 then .error (.code .rangeCheckError) else .ok ()

/-- `IntegerData::from`, the constructor that checks the range. -/
def ofInt (v : Int) : Except Failure IntegerData :=
  if checkOverflow v then .ok (.value v) else .error (.code .integerOverflow)

/-- `IntegerData::into`: the value, when it lies in the range. -/
def into (x : IntegerData) (lo hi : Int) : Except Failure Int :=
  match x with
  | nan => .error (.code .rangeCheckError)
  | value v => if lo ≤ v ∧ v ≤ hi then .ok v else .error (.code .rangeCheckError)

/-- `into` at an unsigned type. -/
def intoUsize (x : IntegerData) (lo hi : Nat) : Except Failure Nat :=
  (x.into lo hi).map Int.toNat

def takeValueOf {α : Type} (x : IntegerData) (convert : Int → Option α) : Except Failure α :=
  match x with
  | nan => .error (.code .integerOverflow)
  | value v =>
    match convert v with
    | some a => .ok a
    | none => .error (.code .rangeCheckError)

def compare (T : OperationBehavior) (x y : IntegerData) : Except Failure (Option Ordering) :=
  match x, y with
  | value l, value r => .ok (some (Ord.compare l r))
  | _, _ => do
    T.onNanParameter
    return none

/-! ### Operations on unwrapped values -/

/-- `process_value`: NaN raises an integer overflow. -/
def processValue {α : Type} (x : IntegerData) (callOnValid : Int → Except Failure α) :
    Except Failure α :=
  match x with
  | nan => .error (.code .integerOverflow)
  | value v => callOnValid v

def fitsIn (x : IntegerData) (length : Nat) : Except Failure Bool :=
  x.processValue fun v => .ok (decide (bitsize v ≤ length))

def ubitsize (x : IntegerData) : Except Failure Nat :=
  x.processValue fun v => .ok (bits v)

def signedBitsize (x : IntegerData) : Except Failure Nat :=
  x.processValue fun v => .ok (bitsize v)

def ufitsIn (x : IntegerData) (length : Nat) : Except Failure Bool := do
  if x.isNeg then
    return false
  let size ← x.ubitsize
  return decide (size ≤ length)

variable {ρ R : Type}

def unaryOp (T : OperationBehavior) (lhs : IntegerData) (callback : Int → ρ)
    (nanConstructor : R) (resultProcessor : ρ → R → Except Failure R) : Except Failure R :=
  match lhs with
  | nan => do
    T.onNanParameter
    return nanConstructor
  | value l => resultProcessor (callback l) nanConstructor

def binaryOp (T : OperationBehavior) (lhs rhs : IntegerData) (callback : Int → Int → ρ)
    (nanConstructor : R) (resultProcessor : ρ → R → Except Failure R) : Except Failure R :=
  match lhs, rhs with
  | value l, value r => resultProcessor (callback l r) nanConstructor
  | _, _ => do
    T.onNanParameter
    return nanConstructor

def processSingleResult (T : OperationBehavior) (result : Int) (nanConstructor : IntegerData) :
    Except Failure IntegerData :=
  match ofInt result with
  | .ok x => .ok x
  | .error _ => do
    T.onIntegerOverflow
    return nanConstructor

def processDoubleResult (T : OperationBehavior) (result : Int × Int)
    (nanConstructor : IntegerData × IntegerData) : Except Failure (IntegerData × IntegerData) :=
  match ofInt result.1 with
  | .ok r1 => do
    let r2 ← ofInt result.2
    return (r1, r2)
  | .error _ => do
    T.onIntegerOverflow
    return nanConstructor

def constructDoubleNan : IntegerData × IntegerData := (nan, nan)

/-! ### Arithmetic -/

def unarySingle (T : OperationBehavior) (f : Int → Int) (x : IntegerData) :
    Except Failure IntegerData :=
  unaryOp T x f nan (processSingleResult T)

def binarySingle (T : OperationBehavior) (f : Int → Int → Int) (x y : IntegerData) :
    Except Failure IntegerData :=
  binaryOp T x y f nan (processSingleResult T)

abbrev neg (T : OperationBehavior) : IntegerData → Except Failure IntegerData :=
  unarySingle T fun x => -x

abbrev add (T : OperationBehavior) : IntegerData → IntegerData → Except Failure IntegerData :=
  binarySingle T fun x y => x + y

/-- `add_assign`: the outcome and the value left in the operand. The sum is written before it is
checked, so a signaling overflow leaves it there. -/
def addAssign (T : OperationBehavior) (x y : IntegerData) : Except Failure Unit × IntegerData :=
  match x, y with
  | value l, value r =>
    if checkOverflow (l + r) then
      (.ok (), .value (l + r))
    else
      match T.onIntegerOverflow with
      | .error err => (.error err, .value (l + r))
      | .ok () => (.ok (), nan)
  | _, _ =>
    match T.onNanParameter with
    | .error err => (.error err, x)
    | .ok () => (.ok (), nan)

abbrev addI8 (T : OperationBehavior) (x : IntegerData) (other : Int) : Except Failure IntegerData :=
  unarySingle T (fun v => v + other) x

abbrev sub (T : OperationBehavior) : IntegerData → IntegerData → Except Failure IntegerData :=
  binarySingle T fun x y => x - y

abbrev subI8 (T : OperationBehavior) (x : IntegerData) (other : Int) : Except Failure IntegerData :=
  unarySingle T (fun v => v - other) x

abbrev mul (T : OperationBehavior) : IntegerData → IntegerData → Except Failure IntegerData :=
  binarySingle T fun x y => x * y

abbrev mulShr256 (T : OperationBehavior) : IntegerData → IntegerData → Except Failure IntegerData :=
  binarySingle T fun x y => (x * y) >>> 256

abbrev mulI8 (T : OperationBehavior) (x : IntegerData) (other : Int) : Except Failure IntegerData :=
  unarySingle T (fun v => v * other) x

abbrev and (T : OperationBehavior) : IntegerData → IntegerData → Except Failure IntegerData :=
  binarySingle T Int.land

abbrev or (T : OperationBehavior) : IntegerData → IntegerData → Except Failure IntegerData :=
  binarySingle T Int.lor

abbrev xor (T : OperationBehavior) : IntegerData → IntegerData → Except Failure IntegerData :=
  binarySingle T Int.xor

abbrev not (T : OperationBehavior) : IntegerData → Except Failure IntegerData :=
  unarySingle T Int.lnot

abbrev shl (T : OperationBehavior) (x : IntegerData) (shift : Nat) : Except Failure IntegerData :=
  unarySingle T (fun v => v * 2 ^ shift) x

abbrev shr (T : OperationBehavior) (x : IntegerData) (shift : Nat) : Except Failure IntegerData :=
  unarySingle T (fun v => v >>> shift) x

end IntegerData

/-! ### Rounded division -/

def roundFloorToNegativeInfinity (quotient remainder dividend divisor : Int) : Int × Int :=
  if remainder = 0 ∨ remainder.sign = divisor.sign then
    (quotient, remainder)
  else if dividend.sign = divisor.sign then
    (quotient + 1, remainder + divisor)
  else
    (quotient - 1, remainder + divisor)

def roundCeil (quotient remainder dividend divisor : Int) : Int × Int :=
  if remainder = 0 ∨ remainder.sign ≠ divisor.sign then
    (quotient, remainder)
  else if dividend.sign = divisor.sign then
    (quotient + 1, remainder - divisor)
  else
    (quotient - 1, remainder - divisor)

def roundNearest (quotient remainder dividend divisor : Int) : Int × Int :=
  if remainder = 0 then
    (quotient, remainder)
  else
    let isNotNegative := dividend.sign = divisor.sign
    let twice := (remainder * 2).natAbs
    if divisor.natAbs < twice ∨ (twice = divisor.natAbs ∧ isNotNegative) then
      let remainder :=
        if divisor.sign = remainder.sign then remainder - divisor else remainder + divisor
      if isNotNegative then (quotient + 1, remainder) else (quotient - 1, remainder)
    else
      (quotient, remainder)

def divmod (dividend divisor : Int) (rounding : Round) : Int × Int :=
  match rounding with
  | .floorToNegativeInfinity => (dividend.fdiv divisor, dividend.fmod divisor)
  | .floorToZero => (dividend.tdiv divisor, dividend.tmod divisor)
  | .ceil => roundCeil (dividend.tdiv divisor) (dividend.tmod divisor) dividend divisor
  | .nearest => roundNearest (dividend.tdiv divisor) (dividend.tmod divisor) dividend divisor

def divByShift (dividend : Int) (shift : Nat) (rounding : Round) : Int × Int :=
  let divisor : Int := 2 ^ shift
  let remainderMask : Nat := 2 ^ shift - 1
  let quotient : Int :=
    if dividend < 0 then -((dividend.natAbs >>> shift : Nat) : Int)
    else ((dividend.natAbs >>> shift : Nat) : Int)
  let remainder : Int :=
    if dividend < 0 then -((dividend.natAbs &&& remainderMask : Nat) : Int)
    else ((dividend.natAbs &&& remainderMask : Nat) : Int)
  match rounding with
  | .floorToNegativeInfinity => roundFloorToNegativeInfinity quotient remainder dividend divisor
  | .ceil => roundCeil quotient remainder dividend divisor
  | .nearest => roundNearest quotient remainder dividend divisor
  | .floorToZero => (quotient, remainder)

namespace IntegerData

def div (T : OperationBehavior) (x divisor : IntegerData) (rounding : Round) :
    Except Failure (IntegerData × IntegerData) :=
  match divisor with
  | nan => do
    T.onNanParameter
    return constructDoubleNan
  | value d =>
    if d = 0 then do
      T.onIntegerOverflow
      return constructDoubleNan
    else
      unaryOp T x (fun dividend => divmod dividend d rounding) constructDoubleNan
        (processDoubleResult T)

def divByShift (T : OperationBehavior) (x : IntegerData) (shift : Nat) (rounding : Round) :
    Except Failure (IntegerData × IntegerData) :=
  unaryOp T x (fun dividend => TonVm.divByShift dividend shift rounding) constructDoubleNan
    (processDoubleResult T)

/-! ### Literals of the long PUSHINT -/

/-- `twos_complement`: negates the digits in place, from the least significant one up. -/
def twosComplement (carry : Bool) : List UInt32 → List UInt32
  | [] => []
  | d :: digits =>
    let d := ~~~d
    if carry then
      let d := d + 1
      d :: twosComplement (d = 0) digits
    else
      d :: twosComplement false digits

/-- The magnitude of little-endian 32-bit digits. -/
def ofDigits : List UInt32 → Nat
  | [] => 0
  | d :: digits => d.toNat + 2 ^ 32 * ofDigits digits

/-- `from_vec_le_unchecked`: no range check. -/
def fromVecLeUnchecked (negative : Bool) (digits : List UInt32) : IntegerData :=
  .value (if negative then -(ofDigits digits : Int) else ofDigits digits)

section OctetStream

variable {m : Type → Type} [Monad m] (getNextByte : m UInt8)

/-- Shifts the next `n` bytes into a digit. -/
def readBytes : Nat → UInt32 → m UInt32
  | 0, digit => return digit
  | n + 1, digit => do
    let byte ← getNextByte
    readBytes n ((digit <<< 8) ||| byte.toUInt32)

/-- Reads `n` further digits, each one below those already read. -/
def readDigits : Nat → List UInt32 → m (List UInt32)
  | 0, digits => return digits
  | n + 1, digits => do
    let digit ← readBytes getNextByte 4 0
    readDigits n (digit :: digits)

/-- Decodes the operand of `82lxxx PUSHINT xxx`: five bits `l`, then a signed big-endian integer of
`8l + 19` bits. -/
def fromBigEndianOctetStream : m IntegerData := do
  let firstByte ← getNextByte
  let byteLen := ((firstByte &&& 0b11111000).toNat >>> 3) + 3
  let greatest3bits := (firstByte &&& 0b111).toUInt32
  let digitCount := (byteLen + 3) >>> 2
  let negative := greatest3bits &&& 0b100 ≠ 0
  let digit := if negative then 0xFFFFFFF8 ||| greatest3bits else greatest3bits
  let upper := if byteLen &&& 0b11 = 0 then 4 else byteLen &&& 0b11
  let digit ← readBytes getNextByte (upper - 1) digit
  let digits ← readDigits getNextByte (digitCount - 1) [digit]
  let digits := if negative then twosComplement true digits else digits
  return fromVecLeUnchecked negative digits

end OctetStream

end IntegerData

end TonVm
