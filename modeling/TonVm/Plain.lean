import TonVm.Executor.Setup

/-!
# A plain implementation of the packages

Cells as trees of bit strings, slices as windows into cells and builders as growing cells. It is what
the concrete runs of the machine are computed with. Two parts are simplified: the hash of a cell is a
number computed from its content, and a dictionary is a chain of nodes in the order of the keys instead
of a prefix tree. Signatures are never valid, and there is nothing to read from a block.
-/

namespace TonVm.Plain

/-! ### Bits -/

/-- The low `n` bits of a number, the highest first. -/
def bitsOf : Nat → Nat → List Bool
  | 0, _ => []
  | n + 1, value => value.testBit n :: bitsOf n value

def natOf (bits : List Bool) : Nat := bits.foldl (fun n b => 2 * n + b.toNat) 0

def byteOf (bits : List Bool) : UInt8 := UInt8.ofNat (natOf bits)

/-- Bits as bytes, the last one padded with zeros on the right. -/
def bytesOf : List Bool → List UInt8
  | [] => []
  | a :: b :: c :: d :: e :: f :: g :: h :: rest => byteOf [a, b, c, d, e, f, g, h] :: bytesOf rest
  | bits => [byteOf ((bits ++ List.replicate 8 false).take 8)]

def ofBytes (bytes : List UInt8) : List Bool := bytes.flatMap fun byte => bitsOf 8 byte.toNat

/-! ### Cells, builders and slices -/

inductive Tree where
  | mk (type : CellType) (bits : List Bool) (refs : List Tree)

namespace Tree

def type : Tree → CellType
  | mk type _ _ => type

def bits : Tree → List Bool
  | mk _ bits _ => bits

def refs : Tree → List Tree
  | mk _ _ refs => refs

def empty : Tree := mk .ordinary [] []

mutual

def depth : Tree → Nat
  | mk _ _ [] => 0
  | mk _ _ (ref :: refs) => 1 + max ref.depth (depthRefs refs)

def depthRefs : List Tree → Nat
  | [] => 0
  | ref :: refs => max ref.depth (depthRefs refs)

end

mutual

def count : Tree → Nat
  | mk _ _ refs => 1 + countRefs refs

def countRefs : List Tree → Nat
  | [] => 0
  | ref :: refs => ref.count + countRefs refs

end

mutual

def countBits : Tree → Nat
  | mk _ bits refs => bits.length + countBitsRefs refs

def countBitsRefs : List Tree → Nat
  | [] => 0
  | ref :: refs => ref.countBits + countBitsRefs refs

end

mutual

def hash : Tree → Nat
  | mk type bits refs => hashRefs (8 * natOf (true :: bits) + type.ctorIdx) refs

def hashRefs (acc : Nat) : List Tree → Nat
  | [] => acc % 2 ^ 256
  | ref :: refs => hashRefs ((acc * 0x9E3779B97F4A7C15 + ref.hash + 1) % 2 ^ 256) refs

end

end Tree

structure Builder where
  type : CellType := .ordinary
  bits : List Bool := []
  refs : List Tree := []

namespace Builder

def appendBits (builder : Builder) (bits : List Bool) : Except Failure Builder :=
  if builder.bits.length + bits.length ≤ 1023 then
    .ok { builder with bits := builder.bits ++ bits }
  else
    .error (.code .cellOverflow)

def appendRefs (builder : Builder) (refs : List Tree) : Except Failure Builder :=
  if builder.refs.length + refs.length ≤ 4 then
    .ok { builder with refs := builder.refs ++ refs }
  else
    .error (.code .cellOverflow)

def finalize (builder : Builder) (maxDepth : Nat) : Except Failure Tree :=
  let tree := Tree.mk builder.type builder.bits builder.refs
  if tree.depth ≤ maxDepth then .ok tree else .error (.code .cellOverflow)

end Builder

/-- A window into the data and the references of a cell. A slice that was not taken from a cell has a
cell made for it here. -/
structure Slice where
  cell : Tree
  start : Nat
  stop : Nat
  refStart : Nat
  refStop : Nat
  backed : Bool := true

namespace Slice

/-- The window of everything a cell holds. -/
def whole (cell : Tree) (backed : Bool := true) : Slice :=
  ⟨cell, 0, cell.bits.length, 0, cell.refs.length, backed⟩

def ofBits (bits : List Bool) : Slice := whole (.mk .ordinary bits []) false

def bits (slice : Slice) : List Bool := (slice.cell.bits.take slice.stop).drop slice.start

def refs (slice : Slice) : List Tree := (slice.cell.refs.take slice.refStop).drop slice.refStart

def remainingBits (slice : Slice) : Nat := slice.bits.length

def remainingReferences (slice : Slice) : Nat := slice.refs.length

/-- The next bits and the slice after them. -/
def next (slice : Slice) (n : Nat) : Except Failure (List Bool × Slice) :=
  if n ≤ slice.remainingBits then
    .ok (slice.bits.take n, { slice with start := slice.start + n })
  else
    .error (.code .cellUnderflow)

def moveBy (slice : Slice) (n : Nat) : Except Failure Slice := do
  return (← slice.next n).2

def reference (slice : Slice) (index : Nat) : Except Failure Tree :=
  match slice.refs[index]? with
  | some ref => .ok ref
  | none => .error (.code .cellUnderflow)

def drainReference (slice : Slice) : Except Failure (Tree × Slice) := do
  return (← slice.reference 0, { slice with refStart := slice.refStart + 1 })

def shrinkData (slice : Slice) (start stop : Nat) : Slice :=
  if start ≤ stop ∧ stop ≤ slice.remainingBits then
    { slice with start := slice.start + start, stop := slice.start + stop }
  else
    slice

def shrinkReferences (slice : Slice) (start stop : Nat) : Slice :=
  if start ≤ stop ∧ stop ≤ slice.remainingReferences then
    { slice with refStart := slice.refStart + start, refStop := slice.refStart + stop }
  else
    slice

/-- The number of zeros at the end, and the one before them. -/
def trailing (bits : List Bool) : Nat := min bits.length ((bits.reverse.takeWhile (! ·)).length + 1)

def commonPrefixLength : List Bool → List Bool → Nat
  | a :: as, b :: bs => if a = b then 1 + commonPrefixLength as bs else 0
  | _, _ => 0

def toBuilder (slice : Slice) : Builder := ⟨slice.cell.type, slice.bits, slice.refs⟩

end Slice

/-! ### Dictionaries -/

/-- A dictionary as the list of its keys and values. -/
abbrev Entries := List (List Bool × Builder)

namespace Entries

/-- A leaf holds the length of its key, the key and the value. -/
def leaf (key : List Bool) (value : Builder) : Except Failure Tree := do
  let bits := bitsOf 10 key.length ++ key ++ value.bits
  if bits.length ≤ 1023 then
    return .mk .ordinary bits value.refs
  else
    .error (.code .cellOverflow)

/-- The chain of nodes: each has its leaf and the next node. -/
def chain : Entries → Except Failure (Option Tree)
  | [] => return none
  | (key, value) :: entries => do
    let leaf ← leaf key value
    match ← chain entries with
    | some rest => return some (.mk .ordinary [] [leaf, rest])
    | none => return some (.mk .ordinary [] [leaf])

/-- The key of a leaf and its value, as the window after the key. -/
def unleaf (leaf : Tree) : List Bool × Slice :=
  let length := natOf (leaf.bits.take 10)
  ((leaf.bits.drop 10).take length, { Slice.whole leaf with start := 10 + length })

def leaves : Nat → Tree → List (List Bool × Slice)
  | 0, _ => []
  | fuel + 1, node =>
    match node.refs with
    | leaf :: rest :: _ => unleaf leaf :: leaves fuel rest
    | [leaf] => [unleaf leaf]
    | [] => []

def ofDict (dict : HashmapEOf Tree) : List (List Bool × Slice) :=
  match dict.data with
  | some root => leaves (root.depth + 1) root
  | none => []

def load (dict : HashmapEOf Tree) : Entries :=
  (ofDict dict).map fun (key, value) => (key, value.toBuilder)

def erase (key : List Bool) (entries : Entries) : Entries := entries.filter fun e => e.1 ≠ key

def insert (key : List Bool) (value : Builder) : Entries → Entries
  | [] => [(key, value)]
  | (k, v) :: entries =>
    if key = k then
      (key, value) :: entries
    else if natOf key < natOf k then
      (key, value) :: (k, v) :: erase key entries
    else
      (k, v) :: insert key value entries

def find (key : List Bool) (dict : HashmapEOf Tree) : Option Slice :=
  ((ofDict dict).find? fun e => e.1 = key).map (·.2)

end Entries

abbrev Metered := GasMOf Tree Slice Builder

/-- Writing a dictionary back finalizes its root. -/
def store (bitLen : Nat) (entries : Entries) : Metered (HashmapEOf Tree) := do
  match ← entries.chain with
  | some root => .finalizeCell ⟨root.type, root.bits, root.refs⟩ fun root => .pure ⟨bitLen, some root⟩
  | none => return ⟨bitLen, none⟩

/-- Reading a dictionary loads its root. -/
def visit (dict : HashmapEOf Tree) : Metered Unit :=
  match dict.data with
  | some root => .loadCell root fun _ => .pure ()
  | none => return ()

def valueBuilder : HashmapValueOf Tree Slice Builder → Builder
  | .slice value => value.toBuilder
  | .builder value => value
  | .reference value => { refs := [value] }

def update (mode : HashmapMode) (dict : HashmapEOf Tree) (key : List Bool) (value : Builder) :
    Metered (Option Slice × HashmapEOf Tree) := do
  visit dict
  let old := Entries.find key dict
  let change :=
    match mode with
    | .set => true
    | .add => old.isNone
    | .replace => old.isSome
  if change then
    return (old, ← store dict.bitLen ((Entries.load dict).insert key value))
  else
    return (old, dict)

def remove (dict : HashmapEOf Tree) (key : List Bool) : Metered (Option Slice × HashmapEOf Tree) := do
  visit dict
  match Entries.find key dict with
  | some old => return (some old, ← store dict.bitLen ((Entries.load dict).erase key))
  | none => return (none, dict)

/-- The place of a key in the order: the sign bit of a signed key counts the other way. -/
def rank (signed : Bool) (key : List Bool) : Nat :=
  match signed, key with
  | true, sign :: rest => natOf ((!sign) :: rest)
  | _, key => natOf key

def leafResult (entry : List Bool × Slice) : Builder × Slice := ({ bits := entry.1 }, entry.2)

/-- The entry with the least rank among some. -/
def least (rank : List Bool → Nat) : List (List Bool × Slice) → Option (List Bool × Slice)
  | [] => none
  | entry :: entries =>
    match least rank entries with
    | some other => if rank entry.1 ≤ rank other.1 then some entry else some other
    | none => some entry

def findLeaf (dict : HashmapEOf Tree) (key : List Bool) (next eq signed : Bool) :
    Metered (Option (Builder × Slice)) := do
  visit dict
  let rank := rank signed
  let found := (Entries.ofDict dict).filter fun entry =>
    (eq && entry.1 = key) ||
      (if next then rank key < rank entry.1 else rank entry.1 < rank key)
  let order := if next then rank else fun k => 2 ^ 1023 - rank k
  return (least order found).map leafResult

def subtree (dict : HashmapEOf Tree) (start : List Bool) (bitLen : Nat) (cut : Nat) :
    Metered (HashmapEOf Tree) := do
  visit dict
  store bitLen (((Entries.load dict).filter fun e => start.isPrefixOf e.1).map
    fun e => (e.1.drop cut, e.2))

/-! ### The instances -/

scoped instance types : TonTypes where
  Cell := Tree
  SliceData := Slice
  BuilderData := Builder
  cellDefault := .empty
  reprHash cell := BitVec.ofNat 256 cell.hash
  cellType cell := cell.type
  cellReference cell index :=
    match cell.refs[index]? with
    | some ref => .ok ref
    | none => .error (.code .cellUnderflow)
  virtualize cell _ := cell
  cellReferencesCount cell := cell.refs.length
  cellDepth cell := cell.depth
  treeCellCount cell := cell.count
  treeBitsCount cell := cell.countBits
  cellTypeTryFrom byte :=
    match byte.toNat with
    | 1 => .ok .prunedBranch
    | 2 => .ok .libraryReference
    | 3 => .ok .merkleProof
    | 4 => .ok .merkleUpdate
    | 0xFF => .ok .ordinary
    | _ => .error .other
  sliceDefault := .ofBits []
  loadCell cell := if cell.type = .prunedBranch then .error .other else .ok (.whole cell)
  loadBuilder builder := .ok (.whole (.mk builder.type builder.bits builder.refs))
  loadBitstring builder := .ok (.ofBits builder.bits)
  sliceIntoCell slice := .mk slice.cell.type slice.bits slice.refs
  sliceIsEmpty slice := slice.remainingBits = 0 && slice.remainingReferences = 0
  builderIntoCell builder := builder.finalize 1024
  cellOpt slice := if slice.backed then some slice.cell else none
  pos slice := slice.start
  remainingBits slice := slice.remainingBits
  getReferences slice := (slice.refStart, slice.refStop)
  remainingReferences slice := slice.remainingReferences
  referenceOpt slice index := slice.refs[index]?
  sliceReference slice index := slice.reference index
  hashEqSlice hash slice := natOf slice.bits = hash.toNat && slice.remainingBits = 256
  getNextBit slice := do
    let (bits, slice) ← slice.next 1
    return (natOf bits = 1, slice)
  getBitOpt slice index := slice.bits[index]?
  getNextSlice slice n := do
    let rest ← slice.moveBy n
    return ({ slice.shrinkData 0 n with refStop := slice.refStart }, rest)
  getNextByte slice := do
    let (bits, slice) ← slice.next 8
    return (byteOf bits, slice)
  getNextInt slice n := do
    let (bits, slice) ← slice.next n
    return (natOf bits, slice)
  getNextBits slice n := do
    let (bits, slice) ← slice.next n
    return (bytesOf bits, slice)
  getNextBytes slice n := do
    let (bits, slice) ← slice.next (8 * n)
    return (bytesOf bits, slice)
  getBytestringFrom slice offset := bytesOf (slice.bits.drop offset)
  getNextHash slice := do
    let (bits, slice) ← slice.next 256
    return (BitVec.ofNat 256 (natOf bits), slice)
  moveBy slice n := slice.moveBy n
  checkedDrainReference slice := slice.drainReference
  shrinkData slice start stop := slice.shrinkData start stop
  shrinkReferences slice start stop := slice.shrinkReferences start stop
  trimRight slice := { slice with stop := slice.stop - Slice.trailing slice.bits }
  commonPrefix a b :=
    let n := Slice.commonPrefixLength a.bits b.bits
    let rest (slice : Slice) :=
      if slice.remainingBits = n then none else some { slice with start := slice.start + n }
    (rest a, rest b)
  cutDataHead slice start := slice.shrinkData 0 start
  shrinkByRemainder slice rest :=
    slice.shrinkData 0 (slice.remainingBits - rest.remainingBits)
  fromRaw bytes length := .ofBits ((ofBytes bytes).take length)
  getNextDictionary slice := do
    let (bits, rest) ← slice.next 1
    let rest ← if natOf bits = 1 then (·.2) <$> rest.drainReference else .ok rest
    return ({ slice with stop := rest.start, refStop := rest.refStart }, rest)
  isEmptyRoot slice := slice.bits = [false] && slice.remainingReferences = 0
  getDictionaryOpt slice :=
    match slice.next 1 with
    | .error _ => (none, slice)
    | .ok (bits, rest) =>
      if natOf bits = 1 then
        match rest.drainReference with
        | .ok (_, rest) => (some { slice with stop := rest.start, refStop := rest.refStart }, rest)
        | .error _ => (none, slice)
      else
        (some { slice with stop := rest.start, refStop := rest.refStart }, rest)
  sliceAsBuilder slice := slice.toBuilder
  builderDefault := {}
  builderFromCell cell := .ok ⟨cell.type, cell.bits, cell.refs⟩
  withRaw bytes length := Builder.appendBits {} ((ofBytes bytes).take length)
  withRawAndRefs bytes length refs := do
    Builder.appendRefs (← Builder.appendBits {} ((ofBytes bytes).take length)) refs
  finalize builder maxDepth := builder.finalize maxDepth
  setType builder type := { builder with type }
  bitsUsed builder := builder.bits.length
  bitsFree builder := 1023 - builder.bits.length
  referencesUsed builder := builder.refs.length
  referencesFree builder := 4 - builder.refs.length
  checkEnoughSpace builder n := builder.bits.length + n ≤ 1023
  checkEnoughRefs builder n := builder.refs.length + n ≤ 4
  builderReferences builder := builder.refs
  appendBits builder value n := builder.appendBits (bitsOf n value)
  appendBuilder builder other := do (← builder.appendBits other.bits).appendRefs other.refs
  appendRaw builder bytes n := builder.appendBits ((ofBytes bytes).take n)
  canAppend builder other :=
    builder.bits.length + other.bits.length ≤ 1023 && builder.refs.length + other.refs.length ≤ 4
  builderBytes builder := bytesOf builder.bits
  checkedAppendReference builder cell := builder.appendRefs [cell]
  appendBytestring builder slice := builder.appendBits slice.bits
  checkedAppendReferencesAndData builder slice := do
    (← builder.appendRefs slice.refs).appendBits slice.bits
  getWithGas dict key := do
    visit dict
    return Entries.find key.bits dict
  updateWithGas mode dict key value := update mode dict key.bits (valueBuilder value)
  removeWithGas dict key := remove dict key.bits
  findLeaf dict key next eq signed := findLeaf dict key.bits next eq signed
  getMin dict signed := do
    visit dict
    return (least (rank signed) (Entries.ofDict dict)).map leafResult
  getMax dict signed := do
    visit dict
    return (least (fun k => 2 ^ 1023 - rank signed k) (Entries.ofDict dict)).map leafResult
  intoSubtreeWithPrefix dict start := subtree dict start.bits dict.bitLen 0
  intoSubtreeWithoutPrefix dict start :=
    subtree dict start.bits (dict.bitLen - start.remainingBits) start.remainingBits
  pfxIsPrefix dict key :=
    .ok ((Entries.ofDict dict).any fun e => e.1.isPrefixOf key.bits || key.bits.isPrefixOf e.1)
  pfxGet dict key := .ok (Entries.find key.bits dict)
  pfxGetWithGas dict key := do
    visit dict
    return Entries.find key.bits dict
  pfxUpdateWithGas mode dict key value := update mode dict key.bits value.toBuilder
  pfxRemoveWithGas dict key := remove dict key.bits
  pfxGetPrefixLeaf dict key := do
    visit dict
    match (Entries.ofDict dict).find? fun e => e.1.isPrefixOf key.bits with
    | some (found, value) =>
      return (key.shrinkData 0 found.length, some value,
        { key with start := key.start + found.length })
    | none => return (key.shrinkData 0 0, none, key)
  setBuilder dict key value := do
    return ⟨dict.bitLen, ← ((Entries.load dict).insert key.bits value).chain⟩
  iterateSlices dict :=
    ((Entries.ofDict dict).map fun (key, value) => (Slice.ofBits key, value), .ok ())
  sha256 bytes := BitVec.ofNat 256 (natOf (true :: ofBytes bytes))
  sha512 bytes :=
    (BitVec.ofNat 256 (natOf (true :: ofBytes bytes)), BitVec.ofNat 256 (natOf (ofBytes bytes)))
  publicKeyValid bytes := bytes.length = 32
  signatureValid bytes := bytes.length = 64
  signatureVerify _ _ _ := false

scoped instance block : TonBlock where
  actionTag
    | .sendMsg => 0x0ec3c86d
    | .setCode => 0xad4de08e
    | .reserve => 0x36e6b809
    | .changeLib => 0x26fa1dd4
    | .copyleft => 0x24486f7a
  msgAddressInt _ := .error .other
  addressEq a b := a.workchainId = b.workchainId && a.address.bits = b.address.bits
  msgAddressSkip _ := .error .other
  msgAddressMaybe _ := .error .other
  readAccount _ := .error .other
  configParam1 _ := .error .other
  configParam15 _ := .error .other
  configParam16 _ := .error .other
  configParam17 _ := .error .other
  configParam30 _ := .error .other
  configParam34 _ := .error .other
  validatorSet _ _ _ _ _ := .error .other

/-- Code given by its bytes. -/
def code (bytes : List UInt8) : Slice := .whole (.mk .ordinary (ofBytes bytes) [])

/-- An engine before an instruction, with nothing on its stack. -/
def idle : Engine := (Engine.withCapabilities []).setupWithLibraries (code [0, 0]) none none none []

/-! ### Depool contracts -/

/-- A block whose accounts are cells: the bits are the address, and the reference is the data of the
contract. -/
@[reducible]
def depools : TonBlock where
  __ := block
  msgAddressSkip slice := slice.moveBy 2
  readAccount cell := .ok
    { data := cell.refs.head?, balance := some (2 ^ 100), addr := some ⟨-1, .ofBits cell.bits, true⟩ }
  configParam30 _ := .ok ⟨0, 1⟩

/-- The account of an active depool. -/
def depool (address pubKey : UInt256) (stake : Nat) (maxFactor : UInt32) : Tree :=
  let terms := .mk .ordinary (bitsOf 96 0 ++ [false] ++ bitsOf 32 0 ++ [false, false, false] ++
    bitsOf 32 maxFactor.toNat ++ bitsOf 256 address.toNat) []
  let state := .mk .ordinary (bitsOf 272 0 ++ [false, false] ++ bitsOf 64 stake ++ bitsOf 8 1) [terms]
  .mk .ordinary (bitsOf 256 address.toNat) [.mk .ordinary (bitsOf 256 pubKey.toNat) [state]]

/-- The parameters of a contract, with a configuration that has the entry 30. -/
def smartContractInfo : StackItem :=
  .tuple (List.replicate 9 (.int 0) ++
    [.cell (((Entries.chain [(bitsOf 32 30, { refs := [.empty] })]).toOption.join).getD .empty)] ++
      List.replicate 4 (.int 0))

/-- An engine that finds some depools. -/
def elector (accounts : List Tree) : Engine :=
  { (Engine.withCapabilities []).setupWithLibraries (code [0, 0])
      (some { c7 := some (.tuple [smartContractInfo]) }) none none [] with
    indexProvider := some
      { getAccountsByInitCodeHash := fun hash => .ok (if hash = 0 then accounts else [])
        getAccountsByCodeHash := fun _ => .ok []
        getAccountsByDataHash := fun _ => .ok [] } }

end TonVm.Plain
