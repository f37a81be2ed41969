import TonVm.Stack.Integer

/-!
# Integers as bit strings

An integer is stored in a builder in one of four encodings, signed or unsigned and big- or
little-endian. Serialization checks that the integer fits. Deserialization is total in the source: it
unwraps the range check, and only the unsigned little-endian form falls back to zero.
-/

namespace TonVm

/-! ### Bytes of big integers -/

/-- The low `count` bytes of a number, least significant first. -/
def bytesLe : Nat → Nat → List UInt8
  | 0, _ => []
  | count + 1, n => UInt8.ofNat n :: bytesLe count (n / 256)

/-- `BigInt::from_bytes_le` with a plus sign. -/
def fromBytesLe : List UInt8 → Nat
  | [] => 0
  | b :: bytes => b.toNat + 256 * fromBytesLe bytes

def fromBytesBe (bytes : List UInt8) : Nat := fromBytesLe bytes.reverse

/-- Fewest bytes that hold a number of bits. -/
def bitsToBytes (lengthInBits : Nat) : Nat := (lengthInBits + 7) >>> 3

/-- `BigUint::to_bytes_le`: no leading zeros, and one byte for zero. -/
def toBytesLe (n : Nat) : List UInt8 := bytesLe (max 1 (bitsToBytes (bits n))) n

def toBytesBe (n : Nat) : List UInt8 := (toBytesLe n).reverse

/-- `BigInt::to_signed_bytes_le`: the shortest two's complement. -/
def toSignedBytesLe (v : Int) : List UInt8 :=
  let count := bitsToBytes (bitsize v)
  bytesLe count (v % 2 ^ (8 * count)).toNat

def toSignedBytesBe (v : Int) : List UInt8 := (toSignedBytesLe v).reverse

/-- `BigInt::from_signed_bytes_le`: the top bit of the last byte is the sign. -/
def fromSignedBytesLe (bytes : List UInt8) : Int :=
  Int.bmod (fromBytesLe bytes) (2 ^ (8 * bytes.length))

def fromSignedBytesBe (bytes : List UInt8) : Int := fromSignedBytesLe bytes.reverse

/-! ### The encodings -/

def calcExcessBits (lengthInBits : Nat) : Nat := lengthInBits &&& 0b111

/-- The shift that fills the last byte of a big-endian string. -/
def excessShift (lengthInBits : Nat) : Nat :=
  if calcExcessBits lengthInBits ≠ 0 then 8 - calcExcessBits lengthInBits else 0

def getFill (isNegative : Bool) : UInt8 := if isNegative then 0xFF else 0

def extendBufferBe (buffer : List UInt8) (lengthInBits : Nat) (isNegative : Bool) : List UInt8 :=
  List.replicate (bitsToBytes lengthInBits - buffer.length) (getFill isNegative) ++ buffer

def extendBufferLe (buffer : List UInt8) (lengthInBits : Nat) (isNegative : Bool) : List UInt8 :=
  buffer ++ List.replicate (bitsToBytes lengthInBits - buffer.length) (getFill isNegative)

inductive Encoding where
  | signedBigEndian
  | unsignedBigEndian
  | signedLittleEndian
  | unsignedLittleEndian
  deriving DecidableEq, Repr

namespace Encoding

/-- The range check before serialization. -/
def checkFits (encoding : Encoding) (lengthInBits : Nat) (value : IntegerData) :
    Except Failure Unit := do
  match encoding with
  | signedBigEndian | signedLittleEndian =>
    if !(← value.fitsIn lengthInBits) then
      .error (.code .rangeCheckError)
  | unsignedBigEndian =>
    value.checkNeg
    if !(← value.ufitsIn lengthInBits) then
      .error (.code .rangeCheckError)
  | unsignedLittleEndian =>
    if value.isNeg then
      .error (.code .rangeCheckError)
    if !(← value.ufitsIn lengthInBits) then
      .error (.code .rangeCheckError)

/-- The bytes of a value that fits. -/
def buffer (encoding : Encoding) (lengthInBits : Nat) (v : Int) : List UInt8 :=
  match encoding with
  | signedBigEndian =>
    let v := v * 2 ^ excessShift lengthInBits
    extendBufferBe (toSignedBytesBe v) lengthInBits (v < 0)
  | unsignedBigEndian =>
    extendBufferBe (toBytesBe (v.toNat * 2 ^ excessShift lengthInBits)) lengthInBits false
  | signedLittleEndian => extendBufferLe (toSignedBytesLe v) lengthInBits (v < 0)
  -- `resize` to the expected size, which the value fits
  | unsignedLittleEndian =>
    (extendBufferLe (toBytesLe v.toNat) lengthInBits false).take (bitsToBytes lengthInBits)

def trySerialize [TonTypes] (encoding : Encoding) (lengthInBits : Nat) (value : IntegerData) :
    Except Failure BuilderData := do
  encoding.checkFits lengthInBits value
  let v ← value.takeValueOf some
  TonTypes.withRaw (encoding.buffer lengthInBits v) lengthInBits

/-- The value that the bytes stand for. -/
def decode (encoding : Encoding) (lengthInBits : Nat) (data : List UInt8) : Int :=
  match encoding with
  | signedBigEndian => fromSignedBytesBe data >>> excessShift lengthInBits
  | unsignedBigEndian => (fromBytesBe data : Int) >>> excessShift lengthInBits
  | signedLittleEndian => fromSignedBytesLe data
  | unsignedLittleEndian => fromBytesLe data

def deserialize (encoding : Encoding) (lengthInBits : Nat) (data : List UInt8) :
    Except Failure IntegerData :=
  match IntegerData.ofInt (encoding.decode lengthInBits data) with
  | .ok x => .ok x
  | .error _ => if encoding = unsignedLittleEndian then .ok .zero else .error .panic

end Encoding

namespace IntegerData

def asBuilder [TonTypes] (x : IntegerData) (encoding : Encoding) (length : Nat) :
    Except Failure BuilderData := do
  if x.isNan then
    OperationBehavior.signaling.onNanParameter
  encoding.trySerialize length x

def ofHash (hash : UInt256) : IntegerData := .value hash.toNat

end IntegerData

/-- The 32 bytes of a hash. -/
def hashBytes (hash : UInt256) : List UInt8 := (bytesLe 32 hash.toNat).reverse

end TonVm
