import TonVm.Types

/-!
# Byte strings in cells

A byte string is kept in a chain of cells, as many bytes in each as fit, with a reference to the next
one. The packer starts with the last cell of the chain, the unpacker with the first.
-/

namespace TonVm

variable [TonTypes]

def MAX_DATA_BITS : Nat := 1023

/-- `<[u8]>::chunks`. -/
def chunks (size : Nat) (bytes : List UInt8) : List (List UInt8) :=
  (List.range ((bytes.length + size - 1) / size)).map fun i => (bytes.drop (i * size)).take size

/-- The loop of `pack_data_to_cell`, which visits the chunks from the last one on: the builder of the
cell that is worked on. -/
def packChunks : List (List UInt8) → GasM BuilderData
  | [] => return TonTypes.builderDefault
  | curSlice :: chunks => do
    let cell ← packChunks chunks
    if TonTypes.bitsUsed cell ≠ 0 then
      let newCell ← TonTypes.checkedAppendReference TonTypes.builderDefault (← GasM.finalize cell)
      TonTypes.appendRaw newCell curSlice (curSlice.length * 8)
    else
      TonTypes.appendRaw cell curSlice (curSlice.length * 8)

def packDataToCell (bytes : List UInt8) : GasM Cell := do
  let cellLengthInBytes := MAX_DATA_BITS / 8
  GasM.finalize (← packChunks (chunks cellLengthInBytes bytes))

/-- The loop of `unpack_data_from_cell` with the data so far: `none` when the fuel is used up. -/
def unpackLoop : Nat → SliceData → List UInt8 → GasM (Option (List UInt8))
  | 0, _, _ => return none
  | fuel + 1, cell, data => do
    if TonTypes.remainingBits cell % 8 ≠ 0 then
      .fail .other
    else
      let data := data ++ getBytestring cell
      match TonTypes.remainingReferences cell with
      | 0 => return some data
      | 1 => unpackLoop fuel (← GasM.load (← TonTypes.sliceReference cell 0)) data
      | _ => .fail (.code .typeCheckError)

def unpackDataFromCell (fuel : Nat) (cell : SliceData) : GasM (Option (List UInt8)) :=
  unpackLoop fuel cell []

end TonVm
