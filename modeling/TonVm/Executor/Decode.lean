import TonVm.Executor.Engine

/-!
# Instruction decoding

`load_instruction` starts an instruction: it clears the parameters and variables of the previous one,
takes the operands from the code and charges the basic price. Some forms charge before they read the
operand and some after, which decides what is paid when the code ends early.
-/

namespace TonVm

open ExecLib

/-! ### Division modes -/

namespace DivMode

def contains (mode : DivMode) (bits : UInt8) : Bool := mode.flags &&& bits = bits

def divByShift (mode : DivMode) : Bool := mode.contains 0b00100000

def mulByShift (mode : DivMode) : Bool := mode.contains 0b11000000

def needQuotient (mode : DivMode) : Bool := mode.contains 0b00000100

def needRemainder (mode : DivMode) : Bool := mode.contains 0b00001000

def premultiply (mode : DivMode) : Bool := mode.contains 0b10000000

def shiftParameter (mode : DivMode) : Bool := mode.contains 0b00010000

def roundingStrategy (mode : DivMode) : Except Failure Round :=
  if mode.contains 0b00000011 then
    .error (.code .invalidOpcode)
  else if mode.contains 0b00000001 then
    .ok .nearest
  else if mode.contains 0b00000010 then
    .ok .ceil
  else
    .ok .floorToNegativeInfinity

def isValid (mode : DivMode) : Bool :=
  !mode.contains 0b01100000
    && !mode.contains 0b00000011
    && (mode.needQuotient || mode.needRemainder)
    && (!mode.contains 0b01000000 || mode.premultiply)
    && (!mode.shiftParameter || mode.mulByShift || mode.divByShift)

/-- `command_name`, of which only the check matters: every valid mode has a name. -/
def commandName (mode : DivMode) : Except Failure Unit :=
  if !mode.isValid then
    .error (.code .invalidOpcode)
  else
    mode.roundingStrategy.map fun _ => ()

end DivMode

namespace Engine

variable [TonTypes]

/-! ### The code of the current instruction -/

def nextCmd : M UInt8 := do
  match TonTypes.getNextByte (← get).cc.code with
  | .ok (byte, code) =>
    modify fun e => { e with cc.code := code, lastCmd := byte }
    return byte
  | .error _ => err .invalidOpcode

/-- `cmd_code`: the slice at which the current instruction starts. -/
def cmdCodeSlice : M SliceData := do
  let e ← get
  let code ← lift (TonTypes.loadCell
    ((TonTypes.cellOpt e.cc.code).getD (TonTypes.sliceIntoCell e.cc.code)))
  let code := TonTypes.shrinkData code e.cmdCode.dataStart e.cmdCode.dataEnd
  return TonTypes.shrinkReferences code e.cmdCode.refsStart e.cmdCode.refsEnd

/-- `basic_use_gas`: the bits read since the start of the instruction count with the given ones. -/
def basicUseGas (bits : Nat) : M Unit := do
  let e ← get
  useGas (Gas.basicGasPrice (bits + (TonTypes.pos e.cc.code - e.cmdCode.dataStart)))

/-- Reads a field of `bits` bits, or nothing when there are none. -/
def readCount (slice : SliceData) (bits : Nat) : M (Nat × SliceData) :=
  if bits ≠ 0 then lift (TonTypes.getNextInt slice bits) else pure (0, slice)

/-- `extract_slice`: a bit string inside the code, with its length and reference counts before it. -/
def extractSlice (offset r x refs bytes : Nat) : M SliceData := do
  let code ← cmdCodeSlice
  if offset ≥ TonTypes.remainingBits code then
    err .invalidOpcode
  let slice := shrinkDataFrom code offset
  let (moreRefs, slice) ← readCount slice r
  let (moreBytes, slice) ← readCount slice x
  let refs := refs + moreRefs
  let bytes := bytes + moreBytes
  let shift := 8 * bytes + offset + r + x + 7
  let shift := shift - shift % 8
  let length := shift - r - x - offset
  if TonTypes.remainingBits slice < length ∨ TonTypes.remainingReferences slice < refs then
    err .invalidOpcode
  modify fun e => { e with cc.code := shrinkReferencesFrom (shrinkDataFrom code shift) refs }
  return shrinkReferencesTo (shrinkDataTo slice length) refs

/-! ### Operands -/

def lastNibble (engine : Engine) : Nat := (engine.lastCmd &&& 0x0F).toNat

/-- The operand forms of `InstructionOptions::Integer`, told apart by the range. -/
def extractInteger (start stop : Int) : M Int := do
  if (start, stop) = (-32768, 32768) then
    basicUseGas 16
    let hi ← nextCmd
    let lo ← nextCmd
    let value := hi.toNat * 256 + lo.toNat
    return if value < 32768 then (value : Int) else (value : Int) - 65536
  else if (start, stop) = (-128, 128) then
    basicUseGas 8
    let byte ← nextCmd
    return if byte.toNat < 128 then (byte.toNat : Int) else (byte.toNat : Int) - 256
  else if (start, stop) = (-5, 11) then
    basicUseGas 0
    let value := lastNibble (← get)
    return if value ≤ 10 then (value : Int) else (value : Int) - 16
  else if (start, stop) = (0, 32) then
    basicUseGas 0
    return ((← get).lastCmd &&& 0x1F).toNat
  else if (start, stop) = (0, 64) then
    basicUseGas 0
    return ((← get).lastCmd % 64).toNat
  else if (start, stop) = (0, 2048) then
    basicUseGas 8
    let hi := ((← get).lastCmd &&& 0x07).toNat
    let lo ← nextCmd
    return hi * 256 + lo.toNat
  else if (start, stop) = (0, 16384) then
    basicUseGas 8
    let hi := ((← get).lastCmd &&& 0x3F).toNat
    let lo ← nextCmd
    return hi * 256 + lo.toNat
  else if (start, stop) = (0, 256) then
    basicUseGas 8
    return (← nextCmd).toNat
  else if (start, stop) = (0, 15) then
    basicUseGas 0
    let value := lastNibble (← get)
    if value = 15 then err .rangeCheckError else return value
  else if (start, stop) = (1, 15) then
    basicUseGas 0
    let value := lastNibble (← get)
    if value = 0 ∨ value = 15 then err .rangeCheckError else return value
  else if (start, stop) = (-15, 240) then
    basicUseGas 0
    let value := (← get).lastCmd.toNat
    return if value ≤ 240 then (value : Int) else (value : Int) - 256
  else
    err .rangeCheckError

def extractLength (start stop : Nat) : M Nat := do
  let last := (← get).lastCmd
  if (start, stop) = (0, 16) then
    return (last &&& 0x0F).toNat
  else if (start, stop) = (0, 4) then
    return (last &&& 3).toNat
  else if (start, stop) = (1, 32) then
    return (last &&& 0x1F).toNat
  else
    err .rangeCheckError

def extractLengthMinusOne (start stop : Nat) : M Nat := do
  if (start, stop) = (0, 8) then
    return ((← get).lastCmd &&& 0x07).toNat + 1
  else if (start, stop) = (0, 256) then
    return (← nextCmd).toNat + 1
  else
    err .rangeCheckError

/-- The four-bit operand in the last byte, which only exists for one range. -/
def extractNibble (start stop : Nat) : M Nat := do
  if (start, stop) = (0, 16) then return lastNibble (← get) else err .rangeCheckError

def extractStackRegister (start stop : Nat) : M Nat := do
  if (start, stop) = (0, 16) then
    return lastNibble (← get)
  else if (start, stop) = (0, 256) then
    return (← nextCmd).toNat
  else
    err .rangeCheckError

def extractRegisterPair : WhereToGetParams → M RegisterPair
  | .getFromLastByte2Bits => do
    let byte := (← get).lastCmd
    return ⟨((byte >>> 2) &&& 0x03).toNat, (byte &&& 0x03).toNat⟩
  | .getFromLastByte => do
    let byte := (← get).lastCmd
    return ⟨((byte &&& 0xF0) >>> 4).toNat, (byte &&& 0x0F).toNat⟩
  | .getFromNextByte => do
    let byte ← nextCmd
    return ⟨((byte &&& 0xF0) >>> 4).toNat, (byte &&& 0x0F).toNat⟩
  | .getFromNextByteLong => do
    let byte ← nextCmd
    return ⟨0, byte.toNat⟩
  | _ => return ⟨0, 0⟩

def extractRegisterTrio (place : WhereToGetParams) : M RegisterTrio := do
  let last := (← get).lastCmd
  match place with
  | .getFromLastByte2Bits =>
    return ⟨((last >>> 4) &&& 0x03).toNat, ((last >>> 2) &&& 0x03).toNat, (last &&& 0x03).toNat⟩
  | _ =>
    let byte ← nextCmd
    return ⟨(last &&& 0x0F).toNat, (byte >>> 4).toNat, (byte &&& 0x0F).toNat⟩

/-! ### Loading an instruction -/

def extractInstruction (opts : Option InstructionOptions) : M Unit := do
  match opts with
  | some .argumentConstraints =>
    let param ← nextCmd
    basicUseGas 0
    pushParam (.pargs ((param >>> 4) &&& 0x0F).toNat)
    pushParam (.nargs (if param &&& 0x0F = 15 then -1 else ((param &&& 0x0F).toNat : Int)))
  | some .argumentAndReturnConstraints =>
    let param ← nextCmd
    basicUseGas 0
    pushParam (.pargs ((param >>> 4) &&& 0x0F).toNat)
    pushParam (.rargs (param &&& 0x0F).toNat)
  | some .bigInteger =>
    basicUseGas 5
    pushParam (.bigInteger (← IntegerData.fromBigEndianOctetStream nextCmd))
  | some .controlRegister =>
    basicUseGas 0
    let creg := lastNibble (← get)
    if creg ∉ SaveListOf.regs then
      err .rangeCheckError
    pushParam (.controlRegister creg)
  | some .divisionMode =>
    let mode : DivMode := ⟨← nextCmd⟩
    if mode.shiftParameter then
      pushParam (.length ((← nextCmd).toNat + 1))
    basicUseGas 0
    lift mode.commandName
    pushParam (.divisionMode mode)
  | some (.integer start stop) => pushParam (.integer (← extractInteger start stop))
  | some (.length start stop) =>
    pushParam (.length (← extractLength start stop))
    basicUseGas 0
  | some .lengthAndIndex =>
    basicUseGas 0
    let params := (← get).lastCmd
    pushParam (.lengthAndIndex ⟨(params >>> 4).toNat, (params &&& 0x0F).toNat⟩)
  | some (.lengthMinusOne start stop) =>
    pushParam (.length (← extractLengthMinusOne start stop))
    basicUseGas 0
  | some .lengthMinusOneAndIndexMinusOne =>
    let params ← nextCmd
    basicUseGas 0
    pushParam (.lengthAndIndex ⟨(params >>> 4).toNat + 1, (params &&& 0x0F).toNat + 1⟩)
  | some .lengthMinusTwoAndIndex =>
    let params ← nextCmd
    basicUseGas 0
    pushParam (.lengthAndIndex ⟨(params >>> 4).toNat + 2, (params &&& 0x0F).toNat⟩)
  | some (.pargs start stop) =>
    pushParam (.pargs (← extractNibble start stop))
    basicUseGas 0
  | some (.rargs start stop) =>
    pushParam (.rargs (← extractNibble start stop))
    basicUseGas 0
  | some (.stackRegister start stop) =>
    pushParam (.stackRegister (← extractStackRegister start stop))
    basicUseGas 0
  | some (.stackRegisterPair place) =>
    let pair ← extractRegisterPair place
    basicUseGas 0
    pushParam (.stackRegisterPair pair)
  | some (.stackRegisterTrio place) =>
    let trio ← extractRegisterTrio place
    basicUseGas 0
    pushParam (.stackRegisterTrio trio)
  | some (.dictionary offset bits) =>
    useGas (Gas.basicGasPrice (offset + 1 + bits))
    let code ← cmdCodeSlice
    let code := shrinkDataFrom code offset
    let (dict, code) := TonTypes.getDictionaryOpt code
    pushParam (.slice (dict.getD TonTypes.sliceDefault))
    let (length, code) ← lift (TonTypes.getNextInt code bits)
    modify fun e => { e with cc.code := code }
    pushParam (.length length)
  | some (.bytestring offset r x bytes) =>
    useGas (Gas.basicGasPrice (offset + r + x))
    let slice ← extractSlice offset r x 0 bytes
    if TonTypes.remainingBits slice % 8 ≠ 0 then
      err .invalidOpcode
    pushParam (.slice slice)
  | some (.bitstring offset r x refs) =>
    useGas (Gas.basicGasPrice (offset + r + x))
    let slice ← extractSlice offset r x refs 0
    pushParam (.slice (TonTypes.trimRight slice))
  | none => basicUseGas 0

def loadInstruction (opts : Option InstructionOptions := none) : M Unit := do
  modify fun e => { e with
    cmd := {}
    step := e.step + 1 }
  extractInstruction opts

end Engine

end TonVm
