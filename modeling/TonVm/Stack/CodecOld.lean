import TonVm.Stack.Codec
import TonVm.Executor.Gas

/-!
# The old format of items and continuations

Used when the new format is not enabled. Both directions are recursive and return the gas they cost,
which the instruction charges afterwards. The decoder takes fuel for the depth of nesting.
-/

namespace TonVm

section CodecOld

variable [TonTypes]

/-! ### The encoder -/

def ContinuationType.serializeOld (typeOf : ContinuationType) : Except Failure BuilderData := do
  let builder := TonTypes.builderDefault
  let child (builder : BuilderData) (slice : SliceData) : Except Failure BuilderData := do
    TonTypes.checkedAppendReference builder (← TonTypes.builderIntoCell (← sliceSerialize slice))
  match typeOf with
  | .againLoopBody body => child (← TonTypes.appendBits builder 0xd 4) body
  | .tryCatch => TonTypes.appendBits builder 0x9 4
  | .ordinary => TonTypes.appendBits builder 0x0 2
  | .pushInt value => TonTypes.appendBits (← TonTypes.appendBits builder 0xf 4) (asUsize value) 32
  | .quit exitCode =>
    TonTypes.appendBits (← TonTypes.appendBits builder 0x8 4) (asUsize exitCode) 32
  | .repeatLoopBody code counter =>
    let builder ← child (← TonTypes.appendBits builder 0xe 4) code
    TonTypes.appendBits builder (asUsize counter) 32
  | .untilLoopCondition body => child (← TonTypes.appendBits builder 0xa 4) body
  | .whileLoopCondition body cond =>
    child (← child (← TonTypes.appendBits builder 0xc 4) cond) body
  | .excQuit => TonTypes.appendBits builder 0xb 4
  -- the old format knows nothing about the handlers that cut the stack back
  | .catchRevert _ => .error (.code .unknownError)

mutual

def StackItem.serializeOld : StackItem → Except Failure (BuilderData × Int)
  | .none => do
    return (← TonTypes.appendBits TonTypes.builderDefault 0x00 8, 0)
  | .integer data => do
    if data.isNan then
      return (← TonTypes.appendBits TonTypes.builderDefault 0x02ff 16, 0)
    else
      let builder ← TonTypes.appendBits TonTypes.builderDefault 0x02 8
      let builder ← TonTypes.appendBits builder 0x00 7
      return (← TonTypes.appendBuilder builder (← data.asBuilder .signedBigEndian 257), 0)
  | .cell data => do
    let builder ← TonTypes.appendBits TonTypes.builderDefault 0x03 8
    return (← TonTypes.checkedAppendReference builder data, 0)
  | .continuation data => do
    let builder ← TonTypes.appendBits TonTypes.builderDefault 0x06 8
    let (serialized, gas) ← contSerializeOld data
    return (← TonTypes.appendBuilder builder serialized, gas)
  | .builder data => do
    let builder ← TonTypes.appendBits TonTypes.builderDefault 0x05 8
    let reference ← TonTypes.builderIntoCell data
    return (← TonTypes.checkedAppendReference builder reference, Gas.finalizePrice)
  | .slice data => do
    let builder ← TonTypes.appendBits TonTypes.builderDefault 0x04 8
    return (← TonTypes.appendBuilder builder (← sliceSerialize data), 0)
  | .tuple data => do
    let builder ← TonTypes.appendBits TonTypes.builderDefault 0x07 8
    let items ← TonTypes.appendBits TonTypes.builderDefault data.length 8
    let (list, gas) ← listSerializeOld data
    let items ← TonTypes.appendBuilder items list
    return (← TonTypes.appendBuilder builder items, gas)

/-- The cons cells of a list, built from its end. -/
def listSerializeOld : List StackItem → Except Failure (BuilderData × Int)
  | [] => return (TonTypes.builderDefault, 0)
  | item :: items => do
    let (list, gas) ← listSerializeOld items
    let (serialized, gas2) ← item.serializeOld
    let cons ← TonTypes.appendBuilder TonTypes.builderDefault serialized
    let cons ← TonTypes.checkedAppendReference cons (← TonTypes.builderIntoCell list)
    return (cons, gas + gas2 + Gas.finalizePrice)

/-- `ContinuationData::serialize_old`. -/
def contSerializeOld : ContinuationOf StackItem → Except Failure (BuilderData × Int)
  | ⟨code, nargs, savelist, stack, typeOf⟩ => do
    let builder ← typeOf.serializeOld
    let items ← TonTypes.appendBits TonTypes.builderDefault stack.length 24
    let (list, gas) ← listSerializeOld stack
    let items ← TonTypes.appendBuilder items list
    let builder ← TonTypes.appendBits builder (asUsize nargs) 22
    let builder ←
      if stack.length = 0 then
        TonTypes.appendBits builder 0 1
      else do
        TonTypes.appendBuilder (← TonTypes.appendBits builder 1 1) items
    let (serialized, gas2) ← savelistSerializeOld savelist
    let builder ← TonTypes.appendBuilder builder serialized
    let builder ← TonTypes.appendBits builder 0 16
    return (← TonTypes.appendBuilder builder (← sliceSerialize code), gas + gas2)

/-- `SaveList::serialize_old`. -/
def savelistSerializeOld : SaveListOf StackItem → Except Failure (BuilderData × Int)
  | ⟨c0, c1, c2, c3, c4, c5, c7⟩ => do
    let (dict, gas) ← entrySerializeOld 0 c0 (⟨4, none⟩, 0)
    let (dict, gas) ← entrySerializeOld 1 c1 (dict, gas)
    let (dict, gas) ← entrySerializeOld 2 c2 (dict, gas)
    let (dict, gas) ← entrySerializeOld 3 c3 (dict, gas)
    let (dict, gas) ← entrySerializeOld 4 c4 (dict, gas)
    let (dict, gas) ← entrySerializeOld 5 c5 (dict, gas)
    let (dict, gas) ← entrySerializeOld 7 c7 (dict, gas)
    match dict.data with
    | some root =>
      let builder ← TonTypes.appendBits TonTypes.builderDefault 1 1
      return (← TonTypes.checkedAppendReference builder root, gas + Gas.finalizePrice)
    | Option.none => return (← TonTypes.appendBits TonTypes.builderDefault 0 1, gas)

/-- Adds the entry of a register to the dictionary. -/
def entrySerializeOld (index : Nat) :
    Option StackItem → HashmapE × Int → Except Failure (HashmapE × Int)
  | none, acc => return acc
  | some item, (dict, gas) => do
    let key ← TonTypes.appendBits TonTypes.builderDefault index 4
    let key ← TonTypes.loadBuilder key
    let (value, gas2) ← item.serializeOld
    return (← TonTypes.setBuilder dict key value, gas + gas2)

end

def ContinuationOf.serializeOld (cont : ContinuationData) : Except Failure (BuilderData × Int) :=
  contSerializeOld cont

/-! ### The decoder -/

/-- A value, what it cost and what is left of the slice. -/
abbrev DecodedOld (α : Type) := α × Int × SliceData

def ContinuationType.deserializeOld (slice : SliceData) :
    Except Failure (DecodedOld ContinuationType) := do
  let child (slice : SliceData) : Except Failure (SliceData × SliceData) := do
    let (cell, slice) ← TonTypes.checkedDrainReference slice
    let (body, _) ← sliceDeserialize (← TonTypes.loadCell cell)
    return (body, slice)
  let (typ, slice) ← TonTypes.getNextInt slice 2
  if typ = 0 then
    return (.ordinary, 0, slice)
  if typ = 1 then
    .error (.code .unknownError)
  let (sub, slice) ← TonTypes.getNextInt slice 2
  match typ, sub with
  | 2, 0 =>
    let (exitCode, slice) ← TonTypes.getNextInt slice 32
    return (.quit (asI32 exitCode), 0, slice)
  | 2, 1 => return (.tryCatch, 0, slice)
  | 2, 2 =>
    let (body, slice) ← child slice
    return (.untilLoopCondition body, 0, slice)
  | 2, 3 => return (.excQuit, 0, slice)
  | 3, 0 =>
    let (cond, slice) ← child slice
    let (body, slice) ← child slice
    return (.whileLoopCondition body cond, 2 * Gas.loadCellPrice true, slice)
  | 3, 1 =>
    let (body, slice) ← child slice
    return (.againLoopBody body, 0, slice)
  | 3, 2 =>
    let (code, slice) ← child slice
    let (counter, slice) ← TonTypes.getNextInt slice 32
    return (.repeatLoopBody code counter, 0, slice)
  | 3, 3 =>
    let (value, slice) ← TonTypes.getNextInt slice 32
    return (.pushInt (asI32 value), 0, slice)
  | _, _ => .error (.code .unknownError)

section Decode

-- the decoder of the items one level down
variable (decode : SliceData → Except Failure (DecodedOld StackItem))

/-- The rest of a tuple: `count` more cells. -/
def tupleTailOld : Nat → Cell → Except Failure (List StackItem × Int)
  | 0, _ => return ([], 0)
  | count + 1, cell => do
    let (item, gas, slice) ← decode (← TonTypes.loadCell cell)
    let (next, _) ← TonTypes.checkedDrainReference slice
    let (items, gas2) ← tupleTailOld count next
    return (item :: items, Gas.loadCellPrice true + gas + gas2)

/-- The rest of a stack: the last cell may be missing, and loading costs nothing. -/
def stackTailOld : Nat → Cell → Except Failure (List StackItem × Int)
  | 0, _ => return ([], 0)
  | count + 1, cell => do
    let (item, gas, slice) ← decode (← TonTypes.loadCell cell)
    let next :=
      match TonTypes.checkedDrainReference slice with
      | .ok (next, _) => next
      | .error _ => TonTypes.cellDefault
    let (items, gas2) ← stackTailOld count next
    return (item :: items, gas + gas2)

def entriesOld : List (SliceData × SliceData) → SaveList → Except Failure (SaveList × Int)
  | [], savelist => return (savelist, 0)
  | (key, value) :: entries, savelist => do
    let (key, _) ← TonTypes.getNextInt key 4
    let (item, gas, _) ← decode value
    let (savelist, gas2) ← entriesOld entries (← SaveList.put savelist key item)
    return (savelist, gas + gas2)

/-- `SaveList::deserialize_old`. -/
def savelistOld (slice : SliceData) : Except Failure (DecodedOld SaveList) := do
  let (present, slice) ← TonTypes.getNextBit slice
  if !present then
    return ({}, 0, slice)
  let (root, slice) :=
    match TonTypes.checkedDrainReference slice with
    | .ok (root, slice) => (some root, slice)
    | .error _ => (none, slice)
  let walk := TonTypes.iterateSlices ⟨4, root⟩
  let (savelist, gas) ← entriesOld decode walk.1 {}
  walk.2
  return (savelist, Gas.loadCellPrice true + gas, slice)

def stackOld (slice : SliceData) : Except Failure (DecodedOld (List StackItem)) := do
  let (present, slice) ← TonTypes.getNextBit slice
  if !present then
    return ([], 0, slice)
  let (depth, slice) ← TonTypes.getNextInt slice 24
  match depth with
  | 0 => return ([], 0, slice)
  | depth + 1 =>
    let (item, gas, slice) ← decode slice
    let (cell, slice) ← TonTypes.checkedDrainReference slice
    let (items, gas2) ← stackTailOld decode depth cell
    return (item :: items, gas + gas2, slice)

/-- `ContinuationData::deserialize_old`. -/
def contOld (slice : SliceData) : Except Failure (DecodedOld ContinuationData) := do
  let (typeOf, gas, slice) ← ContinuationType.deserializeOld slice
  let (nargs, slice) ← TonTypes.getNextInt slice 22
  let nargs : Int := if nargs = 0x3fffff then -1 else nargs
  let (stack, gas2, slice) ← stackOld decode slice
  let (savelist, gas3, slice) ← savelistOld decode slice
  let (_, slice) ← TonTypes.getNextInt slice 16
  let (code, slice) ← sliceDeserialize slice
  return ({ code, nargs, savelist, stack, typeOf },
    gas + gas2 + gas3 + Gas.loadCellPrice true, slice)

end Decode

def StackItem.deserializeOld : Nat → SliceData → Except Failure (DecodedOld StackItem)
  | 0, _ => .error .panic
  | fuel + 1, data => do
    let (tag, rest) ← TonTypes.getNextByte data
    if tag = 0x00 then
      return (.none, 0, rest)
    else if tag = 0x02 then
      let (mark, rest) ← TonTypes.getNextInt rest 7
      if mark = 0x00 then
        let (value, rest) ← TonTypes.getNextBits rest 257
        return (.integer (← Encoding.deserialize .signedBigEndian 257 value), 0, rest)
      else if mark = 0x7f then
        let (bit, rest) ← TonTypes.getNextBit rest
        if bit then return (.nan, 0, rest) else .error (.code .unknownError)
      else
        .error (.code .unknownError)
    else if tag = 0x03 then
      let (reference, rest) ← TonTypes.checkedDrainReference rest
      return (.cell reference, 0, rest)
    else if tag = 0x04 then
      let (item, rest) ← sliceDeserialize rest
      return (.slice item, Gas.loadCellPrice true, rest)
    else if tag = 0x05 then
      let (reference, rest) ← TonTypes.checkedDrainReference rest
      return (.builder (← TonTypes.builderFromCell reference), 0, rest)
    else if tag = 0x06 then
      let (cont, gas, rest) ← contOld (StackItem.deserializeOld fuel) rest
      return (.continuation cont, gas, rest)
    else if tag = 0x07 then
      let (len, rest) ← TonTypes.getNextInt rest 8
      match len with
      | 0 =>
        let (_, rest) ← TonTypes.checkedDrainReference rest
        return (.tuple [], 0, rest)
      | len + 1 =>
        let (item, gas, rest) ← StackItem.deserializeOld fuel rest
        let (reference, rest) ← TonTypes.checkedDrainReference rest
        let (items, gas2) ← tupleTailOld (StackItem.deserializeOld fuel) len reference
        return (.tuple (item :: items), gas + gas2, rest)
    else
      .error (.code .unknownError)

/-- `ContinuationData::deserialize_old`, with fuel for the items in it. -/
def ContinuationOf.deserializeOld (fuel : Nat) (slice : SliceData) :
    Except Failure (DecodedOld ContinuationData) :=
  contOld (StackItem.deserializeOld fuel) slice

end CodecOld

end TonVm
