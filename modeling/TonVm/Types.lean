import Mathlib.Data.Int.Bitwise
import Mathlib.Data.BitVec

/-!
# What the machine is built on

The virtual machine works on cells, slices, builders and dictionaries that it takes from the
`ton_types` package. That package is not part of the repository, so its types and operations are the
fields of a class, `TonTypes`, and every definition below is over an arbitrary instance. Nothing is
assumed about an instance here; a result that relies on documented behaviour of the package takes it
as a hypothesis of its own.
-/

namespace TonVm

/-- The system exception codes, in the numbering of the TVM specification. -/
inductive ExceptionCode where
  | normalTermination
  | alternativeTermination
  | stackUnderflow
  | stackOverflow
  | integerOverflow
  | rangeCheckError
  | invalidOpcode
  | typeCheckError
  | cellOverflow
  | cellUnderflow
  | dictionaryError
  | unknownError
  | fatalError
  | outOfGas
  | illegalInstruction
  deriving DecidableEq, Repr

def ExceptionCode.toNat : ExceptionCode → Nat
  | .normalTermination => 0
  | .alternativeTermination => 1
  | .stackUnderflow => 2
  | .stackOverflow => 3
  | .integerOverflow => 4
  | .rangeCheckError => 5
  | .invalidOpcode => 6
  | .typeCheckError => 7
  | .cellOverflow => 8
  | .cellUnderflow => 9
  | .dictionaryError => 10
  | .unknownError => 11
  | .fatalError => 12
  | .outOfGas => 13
  | .illegalInstruction => 14

def ExceptionCode.fromUsize : Nat → Option ExceptionCode
  | 0 => some .normalTermination
  | 1 => some .alternativeTermination
  | 2 => some .stackUnderflow
  | 3 => some .stackOverflow
  | 4 => some .integerOverflow
  | 5 => some .rangeCheckError
  | 6 => some .invalidOpcode
  | 7 => some .typeCheckError
  | 8 => some .cellOverflow
  | 9 => some .cellUnderflow
  | 10 => some .dictionaryError
  | 11 => some .unknownError
  | 12 => some .fatalError
  | 13 => some .outOfGas
  | 14 => some .illegalInstruction
  | _ => none

/-- An error that carries no stack value: a bare exception code, an error that is no TVM exception at
all, or a panic (a failed `unwrap`, an index out of bounds). The model is of the release build, where
debug assertions are compiled out. -/
inductive Failure where
  | code (code : ExceptionCode)
  | other
  | panic
  deriving DecidableEq, Repr

inductive CellType where
  | ordinary
  | prunedBranch
  | libraryReference
  | merkleProof
  | merkleUpdate
  deriving DecidableEq, Repr

abbrev UInt256 := BitVec 256

instance : LawfulBEq UInt256 := inferInstance

/-- A computation that works through a `GasConsumer`: besides computing it only asks the consumer to
finalize a builder or to load a cell, and an error of either ends it. -/
inductive GasMOf (Cell SliceData BuilderData α : Type) where
  | pure (a : α)
  | fail (err : Failure)
  | finalizeCell (builder : BuilderData)
      (next : Cell → GasMOf Cell SliceData BuilderData α)
  | loadCell (cell : Cell) (next : SliceData → GasMOf Cell SliceData BuilderData α)

namespace GasMOf

variable {Cell SliceData BuilderData α β : Type}

def bind (m : GasMOf Cell SliceData BuilderData α) (f : α → GasMOf Cell SliceData BuilderData β) :
    GasMOf Cell SliceData BuilderData β :=
  match m with
  | .pure a => f a
  | .fail err => .fail err
  | .finalizeCell builder next => .finalizeCell builder fun cell => (next cell).bind f
  | .loadCell cell next => .loadCell cell fun slice => (next slice).bind f

instance : Monad (GasMOf Cell SliceData BuilderData) where
  pure := GasMOf.pure
  bind := GasMOf.bind

def ofExcept : Except Failure α → GasMOf Cell SliceData BuilderData α
  | .ok a => .pure a
  | .error err => .fail err

instance : MonadLift (Except Failure) (GasMOf Cell SliceData BuilderData) where
  monadLift := ofExcept

end GasMOf

/-- A dictionary: the length of its keys and its root cell. -/
structure HashmapEOf (Cell : Type) where
  bitLen : Nat
  data : Option Cell := none

/-- A value for a dictionary. -/
inductive HashmapValueOf (Cell SliceData BuilderData : Type) where
  | slice (value : SliceData)
  | builder (value : BuilderData)
  | reference (value : Cell)

/-- How a dictionary is updated: in any case, if the key is new, or if the key is present. -/
inductive HashmapMode where
  | set
  | add
  | replace
  deriving DecidableEq, Repr

/-- The cells, slices and builders of `ton_types`, with the operations the machine calls. A slice
operation that consumes data returns what is left of the slice. -/
class TonTypes where
  Cell : Type
  SliceData : Type
  BuilderData : Type
  cellDefault : Cell
  reprHash : Cell → UInt256
  cellType : Cell → CellType
  cellReference : Cell → Nat → Except Failure Cell
  virtualize : Cell → Nat → Cell
  cellReferencesCount : Cell → Nat
  /-- `Cell::depth(MAX_LEVEL)`. -/
  cellDepth : Cell → Nat
  treeCellCount : Cell → Nat
  treeBitsCount : Cell → Nat
  /-- `CellType::try_from` of a byte. -/
  cellTypeTryFrom : UInt8 → Except Failure CellType
  sliceDefault : SliceData
  loadCell : Cell → Except Failure SliceData
  loadBuilder : BuilderData → Except Failure SliceData
  /-- `SliceData::load_bitstring`. -/
  loadBitstring : BuilderData → Except Failure SliceData
  /-- `SliceData::into_cell`. -/
  sliceIntoCell : SliceData → Cell
  /-- `SliceData::is_empty`. -/
  sliceIsEmpty : SliceData → Bool
  /-- `BuilderData::into_cell`. -/
  builderIntoCell : BuilderData → Except Failure Cell
  cellOpt : SliceData → Option Cell
  /-- Start of the data window in the underlying cell. -/
  pos : SliceData → Nat
  remainingBits : SliceData → Nat
  /-- The references window, start and end. -/
  getReferences : SliceData → Nat × Nat
  remainingReferences : SliceData → Nat
  referenceOpt : SliceData → Nat → Option Cell
  /-- `SliceData::reference`. -/
  sliceReference : SliceData → Nat → Except Failure Cell
  /-- Whether a hash is the content of a slice. -/
  hashEqSlice : UInt256 → SliceData → Bool
  getNextBit : SliceData → Except Failure (Bool × SliceData)
  getBitOpt : SliceData → Nat → Option Bool
  getNextSlice : SliceData → Nat → Except Failure (SliceData × SliceData)
  getNextByte : SliceData → Except Failure (UInt8 × SliceData)
  getNextInt : SliceData → Nat → Except Failure (Nat × SliceData)
  /-- The next bits as bytes, the last one padded with zeros on the right. -/
  getNextBits : SliceData → Nat → Except Failure (List UInt8 × SliceData)
  getNextBytes : SliceData → Nat → Except Failure (List UInt8 × SliceData)
  /-- `SliceData::get_bytestring(offset)`: the data of the slice from an offset on, as bytes. -/
  getBytestringFrom : SliceData → Nat → List UInt8
  getNextHash : SliceData → Except Failure (UInt256 × SliceData)
  moveBy : SliceData → Nat → Except Failure SliceData
  checkedDrainReference : SliceData → Except Failure (Cell × SliceData)
  /-- `shrink_data(start..end)`, relative to the current window. -/
  shrinkData : SliceData → Nat → Nat → SliceData
  /-- `shrink_references(start..end)`, relative to the current window. -/
  shrinkReferences : SliceData → Nat → Nat → SliceData
  trimRight : SliceData → SliceData
  /-- What `common_prefix` leaves of the data of the two slices. -/
  commonPrefix : SliceData → SliceData → Option SliceData × Option SliceData
  /-- The part that `shrink_data(start..)` cuts off and returns. -/
  cutDataHead : SliceData → Nat → SliceData
  shrinkByRemainder : SliceData → SliceData → SliceData
  /-- `SliceData::from_raw(bytes, length_in_bits)`. -/
  fromRaw : List UInt8 → Nat → SliceData
  getNextDictionary : SliceData → Except Failure (SliceData × SliceData)
  /-- `SliceData::is_empty_root`. -/
  isEmptyRoot : SliceData → Bool
  getDictionaryOpt : SliceData → Option SliceData × SliceData
  sliceAsBuilder : SliceData → BuilderData
  builderDefault : BuilderData
  builderFromCell : Cell → Except Failure BuilderData
  /-- `BuilderData::with_raw(bytes, length_in_bits)`. -/
  withRaw : List UInt8 → Nat → Except Failure BuilderData
  /-- `BuilderData::with_raw_and_refs`. -/
  withRawAndRefs : List UInt8 → Nat → List Cell → Except Failure BuilderData
  finalize : BuilderData → Nat → Except Failure Cell
  setType : BuilderData → CellType → BuilderData
  bitsUsed : BuilderData → Nat
  bitsFree : BuilderData → Nat
  referencesUsed : BuilderData → Nat
  referencesFree : BuilderData → Nat
  checkEnoughSpace : BuilderData → Nat → Bool
  checkEnoughRefs : BuilderData → Nat → Bool
  builderReferences : BuilderData → List Cell
  /-- The low `n` bits of a number. -/
  appendBits : BuilderData → Nat → Nat → Except Failure BuilderData
  appendBuilder : BuilderData → BuilderData → Except Failure BuilderData
  /-- `BuilderData::append_raw(bytes, bits)`. -/
  appendRaw : BuilderData → List UInt8 → Nat → Except Failure BuilderData
  canAppend : BuilderData → BuilderData → Bool
  /-- The bytes of a builder, the last one padded with zeros on the right. -/
  builderBytes : BuilderData → List UInt8
  checkedAppendReference : BuilderData → Cell → Except Failure BuilderData
  appendBytestring : BuilderData → SliceData → Except Failure BuilderData
  checkedAppendReferencesAndData : BuilderData → SliceData → Except Failure BuilderData
  /-- `HashmapE::get_with_gas`. -/
  getWithGas : HashmapEOf Cell → SliceData →
    GasMOf Cell SliceData BuilderData (Option SliceData)
  /-- The methods `set`, `add` and `replace` with gas, at a slice, a builder or a reference: the value
  that was there, and the dictionary. -/
  updateWithGas : HashmapMode → HashmapEOf Cell → SliceData →
    HashmapValueOf Cell SliceData BuilderData →
    GasMOf Cell SliceData BuilderData (Option SliceData × HashmapEOf Cell)
  removeWithGas : HashmapEOf Cell → SliceData →
    GasMOf Cell SliceData BuilderData (Option SliceData × HashmapEOf Cell)
  /-- `find_leaf(key, next, eq, signed)`. -/
  findLeaf : HashmapEOf Cell → SliceData → Bool → Bool → Bool →
    GasMOf Cell SliceData BuilderData (Option (BuilderData × SliceData))
  getMin : HashmapEOf Cell → Bool →
    GasMOf Cell SliceData BuilderData (Option (BuilderData × SliceData))
  getMax : HashmapEOf Cell → Bool →
    GasMOf Cell SliceData BuilderData (Option (BuilderData × SliceData))
  intoSubtreeWithPrefix : HashmapEOf Cell → SliceData →
    GasMOf Cell SliceData BuilderData (HashmapEOf Cell)
  intoSubtreeWithoutPrefix : HashmapEOf Cell → SliceData →
    GasMOf Cell SliceData BuilderData (HashmapEOf Cell)
  /-- `PfxHashmapE::is_prefix`. -/
  pfxIsPrefix : HashmapEOf Cell → SliceData → Except Failure Bool
  pfxGet : HashmapEOf Cell → SliceData → Except Failure (Option SliceData)
  pfxGetWithGas : HashmapEOf Cell → SliceData →
    GasMOf Cell SliceData BuilderData (Option SliceData)
  pfxUpdateWithGas : HashmapMode → HashmapEOf Cell → SliceData → SliceData →
    GasMOf Cell SliceData BuilderData (Option SliceData × HashmapEOf Cell)
  pfxRemoveWithGas : HashmapEOf Cell → SliceData →
    GasMOf Cell SliceData BuilderData (Option SliceData × HashmapEOf Cell)
  /-- `get_prefix_leaf_with_gas`: the prefix of the key, the value under it and the suffix. -/
  pfxGetPrefixLeaf : HashmapEOf Cell → SliceData →
    GasMOf Cell SliceData BuilderData (SliceData × Option SliceData × SliceData)
  /-- `HashmapE::set_builder`. -/
  setBuilder : HashmapEOf Cell → SliceData → BuilderData → Except Failure (HashmapEOf Cell)
  /-- `iterate_slices`: the keys and values in the order they are visited, and how the walk ends. -/
  iterateSlices : HashmapEOf Cell → List (SliceData × SliceData) × Except Failure Unit
  /-- `Sha256` over some bytes, also `UInt256::calc_file_hash`. -/
  sha256 : List UInt8 → UInt256
  /-- `sha512_digest`: the first and the last 32 bytes. -/
  sha512 : List UInt8 → UInt256 × UInt256
  /-- Whether `ed25519_dalek::PublicKey::from_bytes` accepts the bytes. -/
  publicKeyValid : List UInt8 → Bool
  /-- Whether `Signature::from_bytes` accepts the bytes. -/
  signatureValid : List UInt8 → Bool
  /-- `verify` of a public key, the signed data and a signature. -/
  signatureVerify : List UInt8 → List UInt8 → List UInt8 → Bool

export TonTypes (Cell SliceData BuilderData)

/-- The data of a slice as bytes. -/
def getBytestring [TonTypes] (slice : SliceData) : List UInt8 := TonTypes.getBytestringFrom slice 0

/-- `shrink_data(start..)`. -/
def shrinkDataFrom [TonTypes] (slice : SliceData) (start : Nat) : SliceData :=
  TonTypes.shrinkData slice start (TonTypes.remainingBits slice)

/-- `shrink_data(..end)`. -/
def shrinkDataTo [TonTypes] (slice : SliceData) (stop : Nat) : SliceData :=
  TonTypes.shrinkData slice 0 stop

/-- `shrink_references(start..)`. -/
def shrinkReferencesFrom [TonTypes] (slice : SliceData) (start : Nat) : SliceData :=
  TonTypes.shrinkReferences slice start (TonTypes.remainingReferences slice)

/-- `shrink_references(..end)`. -/
def shrinkReferencesTo [TonTypes] (slice : SliceData) (stop : Nat) : SliceData :=
  TonTypes.shrinkReferences slice 0 stop

/-- Computations through a `GasConsumer` over the types of the package. -/
abbrev GasM [TonTypes] : Type → Type := GasMOf Cell SliceData BuilderData

abbrev HashmapE [TonTypes] : Type := HashmapEOf Cell

namespace GasM

variable [TonTypes]

/-- Asks the consumer to finalize a builder. -/
def finalize (builder : BuilderData) : GasM Cell := GasMOf.finalizeCell builder GasMOf.pure

/-- Asks the consumer to load a cell. -/
def load (cell : Cell) : GasM SliceData := GasMOf.loadCell cell GasMOf.pure

end GasM

/-- `write_hashmap_data`: one bit, and the root when there is one. -/
def writeHashmapData [TonTypes] (dict : HashmapE) (builder : BuilderData) :
    Except Failure BuilderData := do
  match dict.data with
  | some root => TonTypes.checkedAppendReference (← TonTypes.appendBits builder 1 1) root
  | none => TonTypes.appendBits builder 0 1

/-- `as usize`. -/
def asUsize (v : Int) : Nat := (v % 2 ^ 64).toNat

/-- `as i32` of an unsigned number. -/
def asI32 (n : Nat) : Int := Int.bmod n (2 ^ 32)

end TonVm
