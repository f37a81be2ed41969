import TonVm.Stack.Item
import TonVm.Stack.IntegerEncoding

/-!
# Items and continuations in cells

The new format. Both directions are loops over explicit work stacks: the encoder builds a list of cons
cells for each tuple and each continuation stack and a dictionary for each save list, the decoder
rebuilds the items from them. A work stack is a list with its top in front.

The loops take fuel for the number of work items. The encoder is run with the number it needs.
-/

namespace TonVm

section Codec

variable [TonTypes]

/-! ### Slices -/

def maxDataBits : Nat := 1023

def maxReferencesCount : Nat := 4

def sliceSerialize (slice : SliceData) : Except Failure BuilderData := do
  let cell ←
    match TonTypes.cellOpt slice with
    | some cell => .ok cell
    | none => TonTypes.builderIntoCell (TonTypes.sliceAsBuilder slice)
  let builder ← TonTypes.checkedAppendReference TonTypes.builderDefault cell
  let builder ← TonTypes.appendBits builder (TonTypes.pos slice) 10
  let builder ← TonTypes.appendBits builder (TonTypes.pos slice + TonTypes.remainingBits slice) 10
  let builder ← TonTypes.appendBits builder (TonTypes.getReferences slice).1 3
  TonTypes.appendBits builder (TonTypes.getReferences slice).2 3

/-- The slice read, and what is left of the one it was read from. -/
def sliceDeserialize (slice : SliceData) : Except Failure (SliceData × SliceData) := do
  let (cell, slice) ← TonTypes.checkedDrainReference slice
  let (dataStart, slice) ← TonTypes.getNextInt slice 10
  let (dataEnd, slice) ← TonTypes.getNextInt slice 10
  if maxDataBits < dataStart ∨ maxDataBits < dataEnd ∨ dataEnd < dataStart then
    .error (.code .fatalError)
  let (refStart, slice) ← TonTypes.getNextInt slice 3
  let (refEnd, slice) ← TonTypes.getNextInt slice 3
  if maxReferencesCount < refStart ∨ maxReferencesCount < refEnd ∨ refEnd < refStart then
    .error (.code .fatalError)
  let res ← TonTypes.loadCell cell
  let res := TonTypes.shrinkData res dataStart dataEnd
  let res := TonTypes.shrinkReferences res refStart refEnd
  return (res, slice)

/-! ### The encoder -/

inductive SerializeItem where
  | item (item : StackItem)
  | tuple (header : BuilderData)
  | cont (header : BuilderData) (cont : ContinuationData) (appendCell : Bool)
  | saveList
  | saveListItem (index : Nat)

/-- The work of one save list entry, in the order it is pushed. -/
def saveListEntry (index : Nat) : Option StackItem → List SerializeItem
  | none => []
  | some item => [.saveListItem index, .item item]

/-- `prepare_savelist_serialize_vars`, in the order of pushing. -/
def prepareSavelistSerializeVars (savelist : SaveList) : List SerializeItem :=
  saveListEntry 0 savelist.c0 ++ saveListEntry 1 savelist.c1 ++ saveListEntry 2 savelist.c2 ++
    saveListEntry 3 savelist.c3 ++ saveListEntry 4 savelist.c4 ++ saveListEntry 5 savelist.c5 ++
    saveListEntry 7 savelist.c7 ++ [.saveList]

/-- `prepare_cont_serialize_vars`, in the order of pushing. -/
def prepareContSerializeVars (cont : ContinuationData) (header : BuilderData)
    (appendCell : Bool) : List SerializeItem :=
  .cont header cont appendCell ::
    (cont.stack.map SerializeItem.item ++ prepareSavelistSerializeVars cont.savelist)

/-- `StackItem::serialize_internal`: the builder of a plain item, or the work, in the order of
pushing, that a tuple or a continuation leaves. -/
def StackItem.serializeInternal (item : StackItem) :
    GasM (BuilderData ⊕ List SerializeItem) := do
  let builder := TonTypes.builderDefault
  match item with
  | .none => return .inl (← TonTypes.appendBits builder 0x00 8)
  | .integer data =>
    if data.isNan then
      return .inl (← TonTypes.appendBits builder 0x02ff 16)
    else
      let builder ← TonTypes.appendBits builder 0x02 8
      let builder ← TonTypes.appendBits builder 0x00 7
      return .inl (← TonTypes.appendBuilder builder (← data.asBuilder .signedBigEndian 257))
  | .cell data =>
    let builder ← TonTypes.appendBits builder 0x03 8
    return .inl (← TonTypes.checkedAppendReference builder data)
  | .continuation data =>
    let builder ← TonTypes.appendBits builder 0x06 8
    return .inr (prepareContSerializeVars data builder true)
  | .builder data =>
    let builder ← TonTypes.appendBits builder 0x05 8
    let cell ← GasM.finalize data
    return .inl (← TonTypes.checkedAppendReference builder cell)
  | .slice data =>
    let builder ← TonTypes.appendBits builder 0x04 8
    return .inl (← TonTypes.appendBuilder builder (← sliceSerialize data))
  | .tuple data =>
    let builder ← TonTypes.appendBits builder 0x07 8
    let builder ← TonTypes.appendBits builder data.length 8
    return .inr (.tuple builder :: data.map SerializeItem.item)

/-- The type of a continuation, with a child cell for its slices. -/
def ContinuationType.serialize (typeOf : ContinuationType) : GasM BuilderData := do
  let builder := TonTypes.builderDefault
  match typeOf with
  | .againLoopBody body =>
    let builder ← TonTypes.appendBits builder 0xd 4
    let childCell ← GasM.finalize (← sliceSerialize body)
    TonTypes.checkedAppendReference builder childCell
  | .tryCatch => TonTypes.appendBits builder 0x9 4
  | .catchRevert depth =>
    let builder ← TonTypes.appendBits builder 0x7 4
    TonTypes.appendBits builder depth 32
  | .ordinary => TonTypes.appendBits builder 0x0 2
  | .pushInt value =>
    let builder ← TonTypes.appendBits builder 0xf 4
    TonTypes.appendBits builder (asUsize value) 32
  | .quit exitCode =>
    let builder ← TonTypes.appendBits builder 0x8 4
    TonTypes.appendBits builder (asUsize exitCode) 32
  | .excQuit => TonTypes.appendBits builder 0xb 4
  | .repeatLoopBody body counter =>
    let builder ← TonTypes.appendBits builder 0xe 4
    let childCell ← GasM.finalize (← sliceSerialize body)
    let builder ← TonTypes.checkedAppendReference builder childCell
    TonTypes.appendBits builder (asUsize counter) 32
  | .untilLoopCondition body =>
    let builder ← TonTypes.appendBits builder 0xa 4
    let childCell ← GasM.finalize (← sliceSerialize body)
    TonTypes.checkedAppendReference builder childCell
  | .whileLoopCondition body cond =>
    let builder ← TonTypes.appendBits builder 0xc 4
    let childCell ← sliceSerialize cond
    let childCell ← TonTypes.appendBuilder childCell (← sliceSerialize body)
    let childCell ← GasM.finalize childCell
    TonTypes.checkedAppendReference builder childCell

namespace ContinuationOf

/-- `ContinuationData::serialize_internal`: the stack and the save list are serialized already. -/
def serializeInternal (cont : ContinuationData) (stack : BuilderData) (savelist : HashmapE) :
    GasM BuilderData := do
  let builder ← cont.typeOf.serialize
  let builder ← TonTypes.appendBits builder (asUsize cont.nargs) 22
  let builder ←
    if cont.stack.isEmpty then
      (TonTypes.appendBits builder 0 1 : Except Failure BuilderData)
    else do
      let builder ← TonTypes.appendBits builder 1 1
      let builder ← TonTypes.appendBits builder cont.stack.length 24
      let cell ← GasM.finalize stack
      (TonTypes.checkedAppendReference builder cell : Except Failure BuilderData)
  let builder ← writeHashmapData savelist builder
  let builder ← TonTypes.appendBits builder 0 16
  TonTypes.appendBuilder builder (← sliceSerialize cont.code)

end ContinuationOf

/-- The accumulators of the encoder: the list of cons cells under construction with those of the
enclosing levels, and the same for the save list. -/
structure SerializeState where
  list : Option BuilderData := some TonTypes.builderDefault
  listStack : List BuilderData := []
  savelist : Option HashmapE := none
  savelistStack : List HashmapE := []

namespace SerializeState

/-- `list.replace(BuilderData::default())`, when the old list is kept for later. -/
def pushList (st : SerializeState) : SerializeState :=
  { st with
    list := some TonTypes.builderDefault
    listStack := st.list.toList ++ st.listStack }

/-- `list = list_stack.pop()`. -/
def popList (st : SerializeState) : SerializeState :=
  { st with list := st.listStack.head?, listStack := st.listStack.tail }

/-- Conses a finished builder to the list. -/
def cons (st : SerializeState) (builder : BuilderData) : GasM SerializeState := do
  match st.list with
  | some list =>
    let cell ← GasM.finalize list
    return { st with list := some (← TonTypes.checkedAppendReference builder cell) }
  | none => return { st with list := some builder }

/-- One turn of the encoder: the work it pushes, in the order of pushing, and the state after it. -/
def step (st : SerializeState) (item : SerializeItem) :
    GasM (List SerializeItem × SerializeState) := do
  match item with
  | .item item =>
    match ← item.serializeInternal with
    | .inl cons => return ([], ← st.cons cons)
    | .inr pushed => return (pushed, st.pushList)
  | .tuple header =>
    let header ←
      match st.list with
      | some list => do
        let cell ← GasM.finalize list
        (TonTypes.checkedAppendReference header cell : Except Failure BuilderData)
      | none => pure header
    return ([], ← st.popList.cons header)
  | .cont header cont appendCell =>
    let cons ← cont.serializeInternal (st.list.getD TonTypes.builderDefault)
      (st.savelist.getD ⟨0, none⟩)
    let header ←
      if appendCell then do
        let cell ← GasM.finalize cons
        (TonTypes.checkedAppendReference header cell : Except Failure BuilderData)
      else
        (TonTypes.appendBuilder header cons : Except Failure BuilderData)
    let st := { st.popList with
      savelist := st.savelistStack.head?, savelistStack := st.savelistStack.tail }
    return ([], ← st.cons header)
  | .saveListItem index =>
    match st.list, st.savelist with
    | some value, some savelist =>
      let key ← TonTypes.appendBits TonTypes.builderDefault index 4
      let key ← TonTypes.loadBitstring key
      let savelist ← TonTypes.setBuilder savelist key value
      return ([], { st with list := some TonTypes.builderDefault, savelist := some savelist })
    | _, _ => .fail .panic
  | .saveList =>
    return ([], { st with
      savelist := some ⟨4, none⟩
      savelistStack := st.savelist.toList ++ st.savelistStack })

end SerializeState

def itemsSerialize : Nat → List SerializeItem → SerializeState → GasM BuilderData
  | _, [], st =>
    match st.list with
    | some list => return list
    | none => .fail (.code .fatalError)
  | 0, _ :: _, _ => .fail .panic
  | fuel + 1, item :: items, st => do
    let (pushed, st) ← st.step item
    itemsSerialize fuel (pushed.reverse ++ items) st

/-! The number of turns that an item takes. -/

mutual

def StackItem.turns : StackItem → Nat
  | .continuation cont => 1 + contTurns cont
  | .tuple items => 2 + listTurns items
  | _ => 1

def contTurns : ContinuationOf StackItem → Nat
  | ⟨_, _, savelist, stack, _⟩ => 1 + listTurns stack + savelistTurns savelist

def savelistTurns : SaveListOf StackItem → Nat
  | ⟨c0, c1, c2, c3, c4, c5, c7⟩ =>
    1 + entryTurns c0 + entryTurns c1 + entryTurns c2 + entryTurns c3 + entryTurns c4 +
      entryTurns c5 + entryTurns c7

def entryTurns : Option StackItem → Nat
  | none => 0
  | some item => 1 + item.turns

def listTurns : List StackItem → Nat
  | [] => 0
  | item :: items => item.turns + listTurns items

end

/-- `StackItem::serialize`. -/
def StackItem.serialize (item : StackItem) : GasM BuilderData :=
  itemsSerialize item.turns [.item item] {}

/-- `ContinuationData::serialize`. -/
def ContinuationOf.serialize (cont : ContinuationData) : GasM BuilderData :=
  itemsSerialize (contTurns cont)
    (prepareContSerializeVars cont TonTypes.builderDefault false).reverse {}

/-! ### The decoder -/

inductive DeserializeItem where
  | items (length : Nat) (slice : SliceData)
  | tuple (length : Nat)
  | cont (cont : ContinuationData)
  | saveListItem (index : Nat)
  | saveList

/-- A child cell that holds one slice. -/
def childSlice (slice : SliceData) : GasM (SliceData × SliceData) := do
  let (cell, slice) ← TonTypes.checkedDrainReference slice
  let child ← GasM.load cell
  let (body, _) ← sliceDeserialize child
  return (body, slice)

def ContinuationType.deserialize (slice : SliceData) : GasM (ContinuationType × SliceData) := do
  let (typ, slice) ← TonTypes.getNextInt slice 2
  if typ = 0 then
    return (.ordinary, slice)
  let (sub, slice) ← TonTypes.getNextInt slice 2
  match typ, sub with
  | 1, 3 =>
    let (depth, slice) ← TonTypes.getNextInt slice 32
    return (.catchRevert depth, slice)
  | 2, 0 =>
    let (exitCode, slice) ← TonTypes.getNextInt slice 32
    return (.quit (asI32 exitCode), slice)
  | 2, 1 => return (.tryCatch, slice)
  | 2, 2 =>
    let (body, slice) ← childSlice slice
    return (.untilLoopCondition body, slice)
  | 2, 3 => return (.excQuit, slice)
  | 3, 0 =>
    let (cell, slice) ← TonTypes.checkedDrainReference slice
    let child ← GasM.load cell
    let (cond, child) ← sliceDeserialize child
    let (body, _) ← sliceDeserialize child
    return (.whileLoopCondition body cond, slice)
  | 3, 1 =>
    let (body, slice) ← childSlice slice
    return (.againLoopBody body, slice)
  | 3, 2 =>
    let (code, slice) ← childSlice slice
    let (counter, slice) ← TonTypes.getNextInt slice 32
    return (.repeatLoopBody code counter, slice)
  | 3, 3 =>
    let (value, slice) ← TonTypes.getNextInt slice 32
    return (.pushInt (asI32 value), slice)
  | _, _ => .fail (.code .unknownError)

/-- The work for the entries of a save list, in the order of pushing. -/
def savelistWork : List (SliceData × SliceData) → Except Failure (List DeserializeItem)
  | [] => return []
  | (key, value) :: entries => do
    let (key, _) ← TonTypes.getNextInt key 4
    return .saveListItem key :: .items 1 value :: (← savelistWork entries)

/-- The work of a continuation, around the entries of its save list. -/
abbrev contWork (stack : DeserializeItem) (typeOf : ContinuationType) (nargs : Int)
    (savelist : List DeserializeItem) (slice : SliceData) :
    GasM (List DeserializeItem × SliceData) := do
  let (_, slice) ← TonTypes.getNextInt slice 16
  let (code, slice) ← sliceDeserialize slice
  return (.cont { code, nargs, typeOf } :: savelist ++ [.saveList, stack], slice)

/-- The end of a continuation, after its stack. -/
abbrev contEnd (stack : DeserializeItem) (typeOf : ContinuationType) (nargs : Int)
    (slice : SliceData) : GasM (List DeserializeItem × SliceData) := do
  let (hasSavelist, slice) ← TonTypes.getNextBit slice
  let (savelist, slice) ←
    if hasSavelist then do
      let (root, slice) ← TonTypes.checkedDrainReference slice
      let walk := TonTypes.iterateSlices ⟨4, some root⟩
      let work ← savelistWork walk.1
      GasMOf.ofExcept walk.2
      pure (work, slice)
    else
      pure ([], slice)
  contWork stack typeOf nargs savelist slice

namespace ContinuationOf

/-- `ContinuationData::deserialize_internal`: the work it pushes, in the order of pushing, and what
is left of the slice. -/
def deserializeInternal (slice : SliceData) : GasM (List DeserializeItem × SliceData) := do
  let (typeOf, slice) ← ContinuationType.deserialize slice
  let (nargs, slice) ← TonTypes.getNextInt slice 22
  let nargs : Int := if nargs = 0x3fffff then -1 else nargs
  let (hasStack, slice) ← TonTypes.getNextBit slice
  let (stack, slice) ←
    if hasStack then do
      let (length, slice) ← TonTypes.getNextInt slice 24
      let (cell, slice) ← TonTypes.checkedDrainReference slice
      let stackSlice ← GasM.load cell
      pure (DeserializeItem.items length stackSlice, slice)
    else
      pure (.items 0 TonTypes.sliceDefault, slice)
  contEnd stack typeOf nargs slice

end ContinuationOf

/-- `StackItem::deserialize_internal`: the item, or the work for it in the order of pushing, and
what is left of the slice. -/
def StackItem.deserializeInternal (slice : SliceData) :
    GasM ((StackItem ⊕ List DeserializeItem) × SliceData) := do
  let (tag, slice) ← TonTypes.getNextByte slice
  if tag = 0x00 then
    return (.inl .none, slice)
  else if tag = 0x02 then
    let (mark, slice) ← TonTypes.getNextInt slice 7
    if mark = 0x00 then
      let (value, slice) ← TonTypes.getNextBits slice 257
      return (.inl (.integer (← Encoding.deserialize .signedBigEndian 257 value)), slice)
    else if mark = 0x7f then
      let (bit, slice) ← TonTypes.getNextBit slice
      if bit then
        return (.inl .nan, slice)
      else
        .fail (.code .unknownError)
    else
      .fail (.code .unknownError)
  else if tag = 0x03 then
    let (reference, slice) ← TonTypes.checkedDrainReference slice
    return (.inl (.cell reference), slice)
  else if tag = 0x04 then
    let (item, slice) ← sliceDeserialize slice
    return (.inl (.slice item), slice)
  else if tag = 0x05 then
    let (reference, slice) ← TonTypes.checkedDrainReference slice
    return (.inl (.builder (← TonTypes.builderFromCell reference)), slice)
  else if tag = 0x06 then
    let (reference, slice) ← TonTypes.checkedDrainReference slice
    let child ← GasM.load reference
    let (work, _) ← ContinuationOf.deserializeInternal child
    return (.inr work, slice)
  else if tag = 0x07 then
    let (length, slice) ← TonTypes.getNextInt slice 8
    let (reference, slice) ← TonTypes.checkedDrainReference slice
    let tupleSlice ← GasM.load reference
    return (.inr [.tuple length, .items length tupleSlice], slice)
  else
    .fail (.code .unknownError)

/-- The accumulators of the decoder: the items read at the current level, how many there are to be
and the slice they are read from, with those of the enclosing levels; and the save lists. -/
structure DeserializeState where
  list : List DeserializeItem
  items : List StackItem := []
  length : Nat := 0
  slice : SliceData := TonTypes.sliceDefault
  itemsStack : List (List StackItem × Nat × SliceData) := []
  savelistStack : List SaveList := []

namespace DeserializeState

/-- The reference to the rest of a list, when there is one. -/
def advance (slice : SliceData) : GasM SliceData :=
  match TonTypes.checkedDrainReference slice with
  | .ok (cell, _) => GasM.load cell
  | .error _ => return slice

/-- The inner loop: reads items up to one that leaves work. -/
def readItems : Nat → DeserializeState → GasM DeserializeState
  | 0, st => return st
  | count + 1, st => do
    let (item, slice) ← StackItem.deserializeInternal st.slice
    let slice ← advance slice
    match item with
    | .inl item => readItems count { st with items := st.items ++ [item], slice }
    | .inr work => return { st with list := work.reverse ++ st.list, slice }

/-- Back to the enclosing level, with the item that is finished. -/
def leave (st : DeserializeState) (item : Option StackItem) : DeserializeState :=
  let (items, length, slice) := st.itemsStack.head?.getD ([], 0, TonTypes.sliceDefault)
  { st with
    items := items ++ item.toList
    length
    slice
    itemsStack := st.itemsStack.tail }

/-- `savelist.put` at the save list on top. -/
def putSavelist (st : DeserializeState) (index : Nat) : Except Failure DeserializeState :=
  match st.savelistStack, st.items with
  | savelist :: rest, item :: _ => do
    return { st with savelistStack := (← SaveList.put savelist index item) :: rest }
  | _, _ => return st

/-- What the outer loop does with a work item taken from the stack. -/
def step (st : DeserializeState) : DeserializeItem → Except Failure DeserializeState
  | .items length slice =>
    return { st with
      items := []
      length
      slice
      itemsStack := (st.items, st.length, st.slice) :: st.itemsStack }
  | .tuple length =>
    if length ≠ st.items.length then
      .error (.code .cellUnderflow)
    else
      return st.leave (some (.tuple st.items))
  | .cont cont =>
    let cont := { cont with
      stack := st.items, savelist := st.savelistStack.head?.getD cont.savelist }
    return { st with savelistStack := st.savelistStack.tail }.leave (some (.continuation cont))
  | .saveListItem index => do
    return (← st.putSavelist index).leave none
  | .saveList => return { st with savelistStack := {} :: st.savelistStack }

end DeserializeState

def itemsDeserialize : Nat → DeserializeState → GasM (List StackItem)
  | 0, _ => .fail .panic
  | fuel + 1, st => do
    let st ← st.readItems (st.length - st.items.length)
    match st.list with
    | [] => return st.items
    | work :: list => itemsDeserialize fuel (← { st with list }.step work)

/-- `StackItem::deserialize`. -/
def StackItem.deserialize (fuel : Nat) (slice : SliceData) : GasM StackItem := do
  match ← itemsDeserialize fuel { list := [.items 1 slice] } with
  | item :: _ => return item
  | [] => .fail .panic

/-- `ContinuationData::deserialize`, with what is left of the slice. -/
def ContinuationOf.deserialize (fuel : Nat) (slice : SliceData) :
    GasM (ContinuationData × SliceData) := do
  let (work, slice) ← ContinuationOf.deserializeInternal slice
  match ← itemsDeserialize fuel { list := work.reverse } with
  | item :: _ => return (← item.asContinuation, slice)
  | [] => .fail .panic

end Codec

end TonVm
