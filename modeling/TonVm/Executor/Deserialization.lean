import TonVm.Executor.Serialization

/-!
# Reading slices

The instructions that load data from slices, cut them and measure them. Most of them go through
`procSlice`, which checks that there are enough bits and orders the results by a mask.
-/

namespace TonVm

open ExecLib

namespace LoadMask

def QUIET : UInt8 := 0x01
def STACK : UInt8 := 0x02
def CMD : UInt8 := 0x04
def PARAM : UInt8 := 0x08
def STAY : UInt8 := 0x10
def INV : UInt8 := 0x20
def CEL : UInt8 := 0x02

end LoadMask

namespace Engine

variable [TonTypes]

open LoadMask

/-- `load_slice`: the length, which comes from the stack, from the code or is given. -/
def loadSlice (len : Nat) (how : UInt8) : M Nat := do
  if UInt8.bit how CMD then
    loadInstruction (some (.lengthMinusOne 0 len))
  else
    loadInstruction
  fetchStack (if UInt8.bit how STACK then 2 else 1)
  if UInt8.bit how STACK then
    indexVar 0 len
  else if UInt8.bit how CMD then
    param lengthRaw
  else
    return len

/-- `proc_slice`: applies a reader to the slice in the last variable, if it has enough bits. -/
def procSlice (len : Nat) (how : UInt8) (f : SliceData → M (StackItem × SliceData)) : M Unit := do
  let slice ← lift (← lastVar).asSlice
  if TonTypes.remainingBits slice < len then
    if UInt8.bit how STAY then
      push (.slice slice)
    if UInt8.bit how QUIET then
      push (.boolean false)
    else
      err .cellUnderflow
  else
    let (value, slice) ← f slice
    if UInt8.bit how INV then
      if UInt8.bit how STAY then
        push (.slice slice)
      push value
    else
      push value
      if UInt8.bit how STAY then
        push (.slice slice)
    if UInt8.bit how QUIET then
      push (.boolean true)

/-! ### Integers and sub-slices -/

def readInt (encoding : Encoding) (len : Nat) (slice : SliceData) : M (StackItem × SliceData) := do
  let (data, slice) ← lift (TonTypes.getNextBits slice len)
  return (.integer (← lift (encoding.deserialize len data)), slice)

def ldInt (encoding : Encoding) (len : Nat) (how : UInt8) : M Unit := do
  let len ← loadSlice len how
  procSlice len how (readInt encoding len)

def ldSlice (len : Nat) (how : UInt8) : M Unit := do
  let len ← loadSlice len how
  procSlice len how fun slice => do
    let (value, slice) ← lift (TonTypes.getNextSlice slice len)
    return (.slice value, slice)

abbrev executeLdsliceq : M Unit := ldSlice 256 (CMD ||| QUIET ||| STAY)

abbrev executeLdslice : M Unit := ldSlice 256 (CMD ||| STAY)

abbrev executePldsliceq : M Unit := ldSlice 256 (CMD ||| QUIET)

abbrev executePldslice : M Unit := ldSlice 256 CMD

abbrev executeLdslicexq : M Unit := ldSlice 1023 (STACK ||| QUIET ||| STAY)

abbrev executeLdslicex : M Unit := ldSlice 1023 (STACK ||| STAY)

abbrev executePldslicexq : M Unit := ldSlice 1023 (STACK ||| QUIET)

abbrev executePldslicex : M Unit := ldSlice 1023 STACK

abbrev executeLdu : M Unit := ldInt .unsignedBigEndian 256 (CMD ||| STAY)

abbrev executeLdi : M Unit := ldInt .signedBigEndian 256 (CMD ||| STAY)

abbrev executeLdiq : M Unit := ldInt .signedBigEndian 256 (CMD ||| QUIET ||| STAY)

abbrev executeLduq : M Unit := ldInt .unsignedBigEndian 256 (CMD ||| QUIET ||| STAY)

abbrev executeLdixq : M Unit := ldInt .signedBigEndian 257 (STACK ||| QUIET ||| STAY)

abbrev executeLduxq : M Unit := ldInt .unsignedBigEndian 256 (STACK ||| QUIET ||| STAY)

abbrev executeLdix : M Unit := ldInt .signedBigEndian 257 (STACK ||| STAY)

abbrev executeLdux : M Unit := ldInt .unsignedBigEndian 256 (STACK ||| STAY)

abbrev executePldixq : M Unit := ldInt .signedBigEndian 257 (STACK ||| QUIET)

abbrev executePlduxq : M Unit := ldInt .unsignedBigEndian 256 (STACK ||| QUIET)

abbrev executePldix : M Unit := ldInt .signedBigEndian 257 STACK

abbrev executePldux : M Unit := ldInt .unsignedBigEndian 256 STACK

abbrev executePldiq : M Unit := ldInt .signedBigEndian 256 (CMD ||| QUIET)

abbrev executePlduq : M Unit := ldInt .unsignedBigEndian 256 (CMD ||| QUIET)

abbrev executePldu : M Unit := ldInt .unsignedBigEndian 256 CMD

abbrev executePldi : M Unit := ldInt .signedBigEndian 256 CMD

abbrev executeLdile4 : M Unit := ldInt .signedLittleEndian 32 (PARAM ||| STAY)

abbrev executeLdule4 : M Unit := ldInt .unsignedLittleEndian 32 (PARAM ||| STAY)

abbrev executeLdile8 : M Unit := ldInt .signedLittleEndian 64 (PARAM ||| STAY)

abbrev executeLdule8 : M Unit := ldInt .unsignedLittleEndian 64 (PARAM ||| STAY)

abbrev executePldile4 : M Unit := ldInt .signedLittleEndian 32 PARAM

abbrev executePldule4 : M Unit := ldInt .unsignedLittleEndian 32 PARAM

abbrev executePldile8 : M Unit := ldInt .signedLittleEndian 64 PARAM

abbrev executePldule8 : M Unit := ldInt .unsignedLittleEndian 64 PARAM

abbrev executeLdile4q : M Unit := ldInt .signedLittleEndian 32 (PARAM ||| QUIET ||| STAY)

abbrev executeLdule4q : M Unit := ldInt .unsignedLittleEndian 32 (PARAM ||| QUIET ||| STAY)

abbrev executeLdile8q : M Unit := ldInt .signedLittleEndian 64 (PARAM ||| QUIET ||| STAY)

abbrev executeLdule8q : M Unit := ldInt .unsignedLittleEndian 64 (PARAM ||| QUIET ||| STAY)

abbrev executePldile4q : M Unit := ldInt .signedLittleEndian 32 (PARAM ||| QUIET)

abbrev executePldule4q : M Unit := ldInt .unsignedLittleEndian 32 (PARAM ||| QUIET)

abbrev executePldile8q : M Unit := ldInt .signedLittleEndian 64 (PARAM ||| QUIET)

abbrev executePldule8q : M Unit := ldInt .unsignedLittleEndian 64 (PARAM ||| QUIET)

/-- `PLDUZ`: the first bits as an unsigned integer, as if zeros followed the slice. -/
abbrev executePlduz : M Unit := do
  loadInstruction (some (.lengthMinusOne 0 8))
  fetchStack 1
  let l := 32 * (← param lengthRaw)
  let slice ← lift (← var 0).asSlice
  let n := TonTypes.remainingBits slice
  let (part, _) ← lift (TonTypes.getNextSlice slice (min n l))
  let data := getBytestring part ++ List.replicate ((l - n) / 8) 0
  let value ← lift (Encoding.deserialize .unsignedBigEndian l data)
  push (.slice slice)
  push (.integer value)

/-! ### Cells -/

abbrev executeCtos : M Unit := do
  loadInstruction
  fetchStack 1
  convert (Addr.var 0) .slice .cell
  push (← removeVar 0)

abbrev executeXctos : M Unit := do
  loadInstruction
  fetchStack 1
  let cell ← lift (← var 0).asCell
  let slice ← loadHashedCell cell false
  push (.slice slice)
  push (.boolean (TonTypes.cellType cell ≠ .ordinary))

abbrev executeXload : M Unit := do
  loadInstruction
  fetchStack 1
  let cell ← lift (← var 0).asCell
  push (.cell (TonTypes.sliceIntoCell (← loadCell cell)))

/-- `XLOADQ`: any error of loading counts as a failure, also out of gas. -/
abbrev executeXloadq : M Unit := do
  loadInstruction
  fetchStack 1
  let cell ← lift (← var 0).asCell
  match ← catchError (loadCell cell) with
  | .ok slice =>
    push (.cell (TonTypes.sliceIntoCell slice))
    push (.boolean true)
  | .error _ =>
    push (.cell cell)
    push (.boolean false)

abbrev executeEnds : M Unit := do
  loadInstruction
  fetchStack 1
  if !TonTypes.sliceIsEmpty (← lift (← var 0).asSlice) then
    err .cellUnderflow

abbrev executeLdref : M Unit := do
  loadInstruction
  fetchStack 1
  procSlice 0 STAY fun slice => do
    let (cell, slice) ← lift (TonTypes.checkedDrainReference slice)
    return (.cell cell, slice)

abbrev executeLdrefrtos : M Unit := do
  loadInstruction
  fetchStack 1
  procSlice 0 (STAY ||| INV) fun slice => do
    let (cell, slice) ← lift (TonTypes.checkedDrainReference slice)
    return (.slice (← loadCell cell), slice)

def pldref (how : UInt8) : M Unit := do
  if !UInt8.bit how STACK && UInt8.bit how CMD then
    loadInstruction (some (.length 0 4))
  else
    loadInstruction
  fetchStack (if UInt8.bit how STACK then 2 else 1)
  let n ←
    if UInt8.bit how STACK then indexVar 0 3
    else if UInt8.bit how CMD then param lengthRaw
    else pure 0
  procSlice 0 0 fun slice => do
    return (.cell (← lift (TonTypes.sliceReference slice n)), slice)

abbrev executePldref : M Unit := pldref 0

abbrev executePldrefidx : M Unit := pldref CMD

abbrev executePldrefvar : M Unit := pldref STACK

/-! ### Prefixes -/

def sdbegins (how : UInt8) : M Unit := do
  let params := if UInt8.bit how STACK then 2 else 1
  if UInt8.bit how STACK then
    loadInstruction
  else
    loadInstruction (some (.bitstring 14 0 7 0))
  fetchStack params
  let start ←
    if UInt8.bit how CMD then param sliceRaw
    else if UInt8.bit how STACK then do
      lift (← var 0).asSlice
    else err .fatalError
  let tested ← lift (← var (params - 1)).asSlice
  let len := TonTypes.remainingBits start
  if TonTypes.remainingBits tested < len then
    if UInt8.bit how QUIET then
      push (.slice tested)
      push (.boolean false)
    else
      err .cellUnderflow
  else
    let result := (TonTypes.commonPrefix tested start).2.isNone
    if !result && !UInt8.bit how QUIET then
      err .cellUnderflow
    push (.slice (if result then shrinkDataFrom tested len else tested))
    if UInt8.bit how QUIET then
      push (.boolean result)

abbrev executeSdbegins : M Unit := sdbegins CMD

abbrev executeSdbeginsq : M Unit := sdbegins (CMD ||| QUIET)

abbrev executeSdbeginsx : M Unit := sdbegins STACK

abbrev executeSdbeginsxq : M Unit := sdbegins (STACK ||| QUIET)

end Engine

/-! ### Cutting -/

namespace CutMask

def DROP : UInt8 := 0x01
def FROM : UInt8 := 0x02
def LAST : UInt8 := 0x04
def SIZE : UInt8 := 0x08
def UPTO : UInt8 := 0x10
def FROM_SIZE : UInt8 := FROM ||| SIZE
def NOT_LAST : UInt8 := LoadMask.INV ||| LAST

end CutMask

namespace Engine

variable [TonTypes]

open LoadMask

section Cut

open CutMask

/-- The references that a mask keeps. -/
def cutReferences (refs : UInt8) (slice : SliceData) (r0 r1 : Nat) : SliceData :=
  let count := TonTypes.remainingReferences slice
  if refs = DROP ∨ refs = UPTO then shrinkReferencesTo slice r0
  else if refs = FROM then shrinkReferencesFrom slice r0
  else if refs = FROM_SIZE then TonTypes.shrinkReferences slice r0 (r0 + r1)
  else if refs = LAST then shrinkReferencesFrom slice (count - r0)
  else if refs = NOT_LAST then shrinkReferencesTo slice (count - r0)
  else slice

/-- The data that a mask keeps. -/
def cutData (bits : UInt8) (slice : SliceData) (len l0 l1 : Nat) : SliceData :=
  if bits = FROM then shrinkDataFrom slice l0
  else if bits = FROM_SIZE then TonTypes.shrinkData slice l0 (l0 + l1)
  else if bits = LAST then shrinkDataFrom slice (len - l0)
  else if bits = NOT_LAST then shrinkDataTo slice (len - l0)
  else if bits = UPTO then shrinkDataTo slice l0
  else slice

/-- `sdcut`: the variables hold, from the top, the sizes and the starts that the masks ask for and
then the slice. -/
def sdcut (bits refs : UInt8) : M Unit := do
  let r1 ← if refs &&& SIZE = SIZE then indexVar 0 4 else pure 0
  let i := if refs &&& SIZE = SIZE then 1 else 0
  let l1 ← if bits &&& SIZE = SIZE then indexVar i 1023 else pure 0
  let i := if bits &&& SIZE = SIZE then i + 1 else i
  let r0 ← if refs &&& (FROM ||| LAST ||| UPTO) ≠ 0 then indexVar i 4 else pure 0
  let i := if refs &&& (FROM ||| LAST ||| UPTO) ≠ 0 then i + 1 else i
  let l0 ← indexVar i 1023
  let slice ← lift (← var (i + 1)).asSlice
  let len := TonTypes.remainingBits slice
  if len < l0 + l1 ∨ TonTypes.remainingReferences slice < r0 + r1 then
    err .cellUnderflow
  push (.slice (cutData bits (cutReferences refs slice r0 r1) len l0 l1))

/-- A cut of the slice under a number of arguments. -/
abbrev executeCut (params : Nat) (bits refs : UInt8) : M Unit := do
  loadInstruction
  fetchStack params
  sdcut bits refs

abbrev executeSdskipfirst : M Unit := executeCut 2 FROM 0

abbrev executeSdcutlast : M Unit := executeCut 2 LAST DROP

abbrev executeSdskiplast : M Unit := executeCut 2 NOT_LAST DROP

abbrev executeSdsubstr : M Unit := executeCut 3 FROM_SIZE DROP

abbrev executeScutfirst : M Unit := executeCut 3 UPTO UPTO

abbrev executeSskipfirst : M Unit := executeCut 3 FROM FROM

abbrev executeScutlast : M Unit := executeCut 3 LAST LAST

abbrev executeSskiplast : M Unit := executeCut 3 NOT_LAST NOT_LAST

abbrev executeSubslice : M Unit := executeCut 5 FROM_SIZE FROM_SIZE

end Cut

def split (quiet : Bool) : M Unit := do
  loadInstruction
  fetchStack 3
  let r ← indexVar 0 4
  let l ← indexVar 1 1023
  let slice ← lift (← var 2).asSlice
  if TonTypes.remainingBits slice < l ∨ TonTypes.remainingReferences slice < r then
    if quiet then
      push (.slice slice)
      push (.boolean false)
    else
      err .cellUnderflow
  else
    push (.slice (TonTypes.shrinkData (TonTypes.shrinkReferences slice 0 r) 0 l))
    push (.slice (shrinkDataFrom (shrinkReferencesFrom slice r) l))
    if quiet then
      push (.boolean true)

abbrev executeSplit : M Unit := split false

abbrev executeSplitq : M Unit := split true

/-! ### Size of a slice -/

def sbitrefs (bits refs : Bool) : M Unit := do
  loadInstruction
  fetchStack 1
  let s ← lift (← var 0).asSlice
  if bits then
    pushInt (TonTypes.remainingBits s)
  if refs then
    pushInt (TonTypes.remainingReferences s)

abbrev executeSbits : M Unit := sbitrefs true false

abbrev executeSrefs : M Unit := sbitrefs false true

abbrev executeSbitrefs : M Unit := sbitrefs true true

/-- The outcome of a check: a flag in quiet mode, an exception otherwise. -/
def reportCheck (status quiet : Bool) : M Unit :=
  if quiet then push (.boolean status)
  else if !status then err .cellUnderflow
  else pure ()

def schkbits (limit : Nat) (quiet : Bool) : M Unit := do
  loadInstruction
  fetchStack 2
  let l ← indexVar 0 limit
  let s ← lift (← var 1).asSlice
  reportCheck (l ≤ TonTypes.remainingBits s) quiet

def schkrefs (quiet : Bool) : M Unit := do
  loadInstruction
  fetchStack 2
  let r ← indexVar 0 4
  let s ← lift (← var 1).asSlice
  reportCheck (r ≤ TonTypes.remainingReferences s) quiet

def schkbitrefs (quiet : Bool) : M Unit := do
  loadInstruction
  fetchStack 3
  let r ← indexVar 0 4
  let l ← indexVar 1 1023
  let s ← lift (← var 2).asSlice
  reportCheck (l ≤ TonTypes.remainingBits s && r ≤ TonTypes.remainingReferences s) quiet

abbrev executeSchkbitsq : M Unit := schkbits 1023 true

abbrev executeSchkbits : M Unit := schkbits 1023 false

abbrev executeSchkrefsq : M Unit := schkrefs true

abbrev executeSchkrefs : M Unit := schkrefs false

abbrev executeSchkbitrefsq : M Unit := schkbitrefs true

abbrev executeSchkbitrefs : M Unit := schkbitrefs false

/-! ### Runs of equal bits -/

/-- The length of the run of a bit from an index on, over at most `count` bits. -/
def leadingBits (slice : SliceData) (bit : Bool) : Nat → Nat → Nat
  | 0, _ => 0
  | count + 1, index =>
    if TonTypes.getBitOpt slice index = some bit then
      1 + leadingBits slice bit count (index + 1)
    else
      0

/-- `trim_leading_bits`, and the results pushed. -/
def pushTrimmed (slice : SliceData) (bit : Bool) : M Unit := do
  let skipped := leadingBits slice bit (TonTypes.remainingBits slice) 0
  pushInt skipped
  push (.slice (shrinkDataFrom slice skipped))

def ldbit (bit : Bool) : M Unit := do
  loadInstruction
  fetchStack 1
  pushTrimmed (← lift (← var 0).asSlice) bit

abbrev executeLdzeroes : M Unit := ldbit false

abbrev executeLdones : M Unit := ldbit true

abbrev executeLdsame : M Unit := do
  loadInstruction
  fetchStack 2
  let x ← indexVar 0 1
  pushTrimmed (← lift (← var 1).asSlice) (x = 1)

/-! ### Comparison -/

/-- A flag computed from a slice. -/
def unarySlice (operation : SliceData → Bool) : M Unit := do
  loadInstruction
  fetchStack 1
  push (.boolean (operation (← lift (← var 0).asSlice)))

abbrev executeSempty : M Unit :=
  unarySlice fun s => TonTypes.remainingBits s = 0 && TonTypes.remainingReferences s = 0

abbrev executeSdempty : M Unit := unarySlice fun s => TonTypes.remainingBits s = 0

abbrev executeSrempty : M Unit := unarySlice fun s => TonTypes.remainingReferences s = 0

abbrev executeSdfirst : M Unit :=
  unarySlice fun s => TonTypes.remainingBits s ≠ 0 && TonTypes.getBitOpt s 0 = some true

/-- Compares two slices by what is left of them after the common prefix, the upper one second. -/
def commonPrefix (operation : Option SliceData → Option SliceData → Except Failure StackItem) :
    M Unit := do
  loadInstruction
  fetchStack 2
  let s0 ← lift (← var 0).asSlice
  let s1 ← lift (← var 1).asSlice
  let (r1, r0) := TonTypes.commonPrefix s1 s0
  push (← lift (operation r1 r0))

/-- The sign of a lexicographic comparison; the remainders begin with different bits. -/
def lexcmp (r1 r0 : Option SliceData) : Except Failure StackItem :=
  match r1, r0 with
  | none, none => .ok (.int 0)
  | some r1, some _ =>
    match TonTypes.getNextBit r1 with
    | .ok (bit, _) => .ok (.int (if bit then 1 else -1))
    | .error _ => .error .panic
  | some _, none => .ok (.int 1)
  | none, some _ => .ok (.int (-1))

abbrev executeSdlexcmp : M Unit := commonPrefix lexcmp

abbrev executeSdeq : M Unit := commonPrefix fun r1 r0 => .ok (.boolean (r0.isNone && r1.isNone))

abbrev executeSdpfx : M Unit := commonPrefix fun r1 _ => .ok (.boolean r1.isNone)

abbrev executeSdpfxrev : M Unit := commonPrefix fun _ r0 => .ok (.boolean r0.isNone)

abbrev executeSdppfx : M Unit := commonPrefix fun r1 r0 => .ok (.boolean (r0.isSome && r1.isNone))

abbrev executeSdppfxrev : M Unit := commonPrefix fun r1 r0 => .ok (.boolean (r0.isNone && r1.isSome))

/-- Whether one slice ends with the data of another; the order of the two in `common_prefix` is that
of the caller. -/
def endsWith (whole tail : SliceData) (tailFirst : Bool) : Bool :=
  let rest := shrinkDataFrom whole (TonTypes.remainingBits whole - TonTypes.remainingBits tail)
  let (r0, r1) :=
    if tailFirst then TonTypes.commonPrefix tail rest else TonTypes.commonPrefix rest tail
  r0.isNone && r1.isNone

def binarySlice (operation : SliceData → SliceData → Bool) : M Unit := do
  loadInstruction
  fetchStack 2
  let s0 ← lift (← var 0).asSlice
  let s1 ← lift (← var 1).asSlice
  push (.boolean (operation s1 s0))

abbrev executeSdsfx : M Unit :=
  binarySlice fun s1 s0 =>
    TonTypes.remainingBits s1 ≤ TonTypes.remainingBits s0 && endsWith s0 s1 false

abbrev executeSdsfxrev : M Unit :=
  binarySlice fun s1 s0 =>
    TonTypes.remainingBits s0 ≤ TonTypes.remainingBits s1 && endsWith s1 s0 true

abbrev executeSdpsfx : M Unit :=
  binarySlice fun s1 s0 =>
    TonTypes.remainingBits s1 < TonTypes.remainingBits s0 && endsWith s0 s1 false

abbrev executeSdpsfxrev : M Unit :=
  binarySlice fun s1 s0 =>
    TonTypes.remainingBits s0 < TonTypes.remainingBits s1 && endsWith s1 s0 true

/-- The position of the first bit of a value among `n`, counted by `place`, or `n`. -/
def countBits (slice : SliceData) (bit : Bool) (place : Nat → Nat → Nat) : Nat :=
  let n := TonTypes.remainingBits slice
  ((List.range n).find? fun i => TonTypes.getBitOpt slice (place n i) = some bit).getD n

abbrev executeCount (bit : Bool) (place : Nat → Nat → Nat) : M Unit := do
  loadInstruction
  fetchStack 1
  pushInt (countBits (← lift (← var 0).asSlice) bit place)

abbrev executeSdcntlead0 : M Unit := executeCount true fun _ i => i

abbrev executeSdcntlead1 : M Unit := executeCount false fun _ i => i

abbrev executeSdcnttrail0 : M Unit := executeCount true fun n i => n - i - 1

abbrev executeSdcnttrail1 : M Unit := executeCount false fun n i => n - i - 1

/-! ### Size of a tree of cells -/

/-- `saturating_add` of `usize`. -/
def saturatingAdd (a b : Nat) : Nat := min (a + b) (2 ^ 64 - 1)

structure DataSize where
  cells : Nat := 0
  bits : Nat := 0
  refs : Nat := 0

/-- The references that can be read. -/
def readableReferences (slice : SliceData) : List Cell :=
  (List.range (TonTypes.remainingReferences slice)).filterMap fun i =>
    (TonTypes.sliceReference slice i).toOption

/-- The count from the totals stored in the cells. -/
def fastDatasize (item : StackItem) : Except Failure DataSize :=
  match item with
  | .slice slice => do
    let cells ← sliceReferences slice (TonTypes.remainingReferences slice) 0
    let refs := cells.foldl (fun n cell => saturatingAdd n (TonTypes.treeCellCount cell))
      (TonTypes.remainingReferences slice)
    let bits := cells.foldl (fun n cell => saturatingAdd n (TonTypes.treeBitsCount cell))
      (TonTypes.remainingBits slice)
    return ⟨refs, bits, refs⟩
  | .cell cell =>
    return ⟨TonTypes.treeCellCount cell, TonTypes.treeBitsCount cell,
      TonTypes.treeCellCount cell - 1⟩
  | _ => .error (.code .typeCheckError)

/-- The walk over the cells, depth first. Every cell counted adds at most four to the stack, so the
number of cells allowed bounds the walk. The result is nothing when that number is exceeded. -/
def walkCells (max : Nat) : Nat → List Cell → List UInt256 → DataSize → M (Option DataSize)
  | _, [], _, size => return some size
  | 0, _ :: _, _, _ => throw .panic
  | fuel + 1, cell :: stack, visited, size => do
    if TonTypes.reprHash cell ∈ visited then
      walkCells max fuel stack visited size
    else if max = size.cells then
      return none
    else
      -- version 34 loads without charging
      let slice ←
        if (← get).blockVersion = 34 then lift (TonTypes.loadCell cell)
        else loadHashedCell cell false
      walkCells max fuel ((readableReferences slice).reverse ++ stack)
        (TonTypes.reprHash cell :: visited)
        ⟨size.cells + 1, saturatingAdd size.bits (TonTypes.remainingBits slice),
          saturatingAdd size.refs (TonTypes.remainingReferences slice)⟩

/-- The count by visiting every distinct cell. -/
def slowDatasize (max : Nat) (item : StackItem) : M (Option DataSize) :=
  let fuel := 5 * max + 10
  match item with
  | .slice slice =>
    walkCells max fuel (readableReferences slice).reverse []
      ⟨0, TonTypes.remainingBits slice, TonTypes.remainingReferences slice⟩
  | .cell cell => walkCells max fuel [cell] [] {}
  | _ => return some {}

def datasize (how : UInt8) : M Unit := do
  loadInstruction
  fetchStack 2
  let x ← lift (← var 0).asInteger
  let item ← var 1
  if !UInt8.bit how CEL then
    let _ ← lift item.asSlice
  else if !item.isNull then
    let _ ← lift item.asCell
  lift x.checkNeg
  let max :=
    match x.intoUsize 0 (2 ^ 63 - 1) with
    | .ok max => max
    | .error _ => 2 ^ 63 - 1
  let e ← get
  let result ←
    if e.checkCapabilities .capFastStorageStatBugfix && e.checkCapabilities .capFastStorageStat then do
      let size ← lift (fastDatasize item)
      pure (if size.cells ≤ max then some size else none)
    else
      slowDatasize max item
  match result with
  | some size =>
    pushInt size.cells
    pushInt size.bits
    pushInt size.refs
  | none =>
    if !UInt8.bit how QUIET then
      err .cellOverflow
  if UInt8.bit how QUIET then
    push (.boolean result.isSome)

abbrev executeCdatasize : M Unit := datasize CEL

abbrev executeCdatasizeq : M Unit := datasize (QUIET ||| CEL)

abbrev executeSdatasize : M Unit := datasize 0

abbrev executeSdatasizeq : M Unit := datasize QUIET

/-! ### Continuations -/

/-- A bound on the work items of a decoded continuation: every level needs a cell that is paid for,
and a level has at most sixteen saved registers. -/
def deserializeFuel (engine : Engine) : Nat := 64 * (engine.gas.gasRemaining.toNat / 25 + 2)

/-- A bound on nesting in the old format: every level takes a byte, and a tree of cells has fewer
levels than `2 ^ 16`. -/
def deserializeOldFuel : Nat := 2 ^ 24

abbrev executeLdcont : M Unit := do
  loadInstruction
  fetchStack 1
  let slice ← lift (← var 0).asSlice
  let e ← get
  let (cont, slice) ←
    if e.checkCapabilities .capStcontNewFormat then
      runGas (ContinuationOf.deserialize (deserializeFuel e) slice)
    else do
      let (cont, gas, slice) ← lift (ContinuationOf.deserializeOld deserializeOldFuel slice)
      useGas gas
      pure (cont, slice)
  push (.continuation cont)
  push (.slice slice)

end Engine

end TonVm
