import TonVm.Executor.Deserialization
import TonVm.Executor.Continuation

/-!
# Dictionaries

The dictionary instructions come in families: the key is a slice, a signed or an unsigned integer, the
value a slice, a builder or a reference, and a mask says what the instruction does with the value it
finds. The dictionaries themselves are those of `ton_types`.
-/

namespace TonVm

open ExecLib

namespace DictMask

def CNV : UInt8 := 0x01
def SET : UInt8 := 0x02
def GET : UInt8 := 0x04
def INV : UInt8 := 0x08
def RET : UInt8 := 0x10
def DEL : UInt8 := 0x20
def SETGET : UInt8 := GET ||| SET ||| RET
def STAY : UInt8 := 0x20
def CALLX : UInt8 := 0x40
def SWITCH : UInt8 := 0x80
def CMD : UInt8 := 0x01
def PREV : UInt8 := 0x00
def NEXT : UInt8 := 0x01
def SAME : UInt8 := 0x02
def SIGN : UInt8 := 0x08
def REF : UInt8 := 0x10
def MAX : UInt8 := 0x00
def MIN : UInt8 := 0x01
def QUIET : UInt8 := 0x01
def DICT : UInt8 := 0x02
def SLC : UInt8 := 0x04
def REST : UInt8 := 0x08

end DictMask

namespace Engine

variable [TonTypes]

open DictMask

def tryUnrefLeaf (slice : SliceData) : Except Failure StackItem := do
  if TonTypes.remainingBits slice = 0 ∧ TonTypes.remainingReferences slice ≠ 0 then
    return .cell (← TonTypes.sliceReference slice 0)
  else
    .error (.code .dictionaryError)

/-- `StackItem::dict`. -/
def dictItem (dict : HashmapE) : StackItem :=
  match dict.data with
  | some root => .cell root
  | none => .none

/-! ### Keys -/

abbrev KeyReader := StackItem → Nat → Except Failure SliceData

/-- `IntegerData::as_slice`. -/
def intAsSlice (x : IntegerData) (encoding : Encoding) (nbits : Nat) :
    Except Failure SliceData := do
  TonTypes.loadBitstring (← x.asBuilder encoding nbits)

def keyreaderFromSlice : KeyReader := fun item nbits => do
  let key ← item.asSlice
  if TonTypes.remainingBits key < nbits then
    .error (.code .cellUnderflow)
  else
    return shrinkReferencesTo (shrinkDataTo key nbits) 0

def keyreaderFromInt : KeyReader := fun item nbits => do
  let key ← item.asInteger
  if key.isNan then
    .error (.code .integerOverflow)
  else
    intAsSlice key .signedBigEndian nbits

def keyreaderFromUint : KeyReader := fun item nbits => do
  let key ← item.asInteger
  if key.isNan || key.isNeg then
    .error (.code .integerOverflow)
  else
    intAsSlice key .unsignedBigEndian nbits

/-- `read_key`: the key when there is one of this length, and whether an integer is negative. -/
def readKey (item : StackItem) (nbits : Nat) (how : UInt8) :
    Except Failure (Option SliceData × Bool) := do
  if UInt8.bit how SLC then
    return (some (← keyreaderFromSlice item nbits), false)
  else
    let key ← item.asInteger
    if UInt8.bit how SIGN then
      if !key.isNan then
        match intAsSlice key .signedBigEndian nbits with
        | .ok slice => return (some slice, key.isNeg)
        | .error _ => return (none, key.isNeg)
    else if !key.isNan && !key.isNeg then
      match intAsSlice key .unsignedBigEndian nbits with
      | .ok slice => return (some slice, false)
      | .error _ => return (none, key.isNeg)
    return (none, key.isNeg)

def writeKey (key : BuilderData) (how : UInt8) : M StackItem := do
  if UInt8.bit how SLC then
    let cell ← finalizeCell key
    return .slice (← lift (TonTypes.loadCell cell))
  else
    let encoding := if UInt8.bit how SIGN then .signedBigEndian else .unsignedBigEndian
    return .integer
      (← lift (Encoding.deserialize encoding (TonTypes.bitsUsed key) (TonTypes.builderBytes key)))

/-! ### Values -/

/-- Works on a dictionary at a key: the value found, and the dictionary. -/
abbrev ValAccessor := HashmapE → SliceData → M (Option StackItem × HashmapE)

/-- A value that is to be a reference. -/
def unrefOpt : Option SliceData → Except Failure (Option StackItem)
  | none => return none
  | some slice => return some (← tryUnrefLeaf slice)

/-- The same with Null for no value. -/
def unrefOrNull : Option SliceData → Except Failure (Option StackItem)
  | none => return some .none
  | some slice => return some (← tryUnrefLeaf slice)

def valreaderFromSlice : ValAccessor := fun dict key => do
  return ((← runGas (TonTypes.getWithGas dict key)).map .slice, dict)

def valreaderFromRef : ValAccessor := fun dict key => do
  return (← lift (unrefOpt (← runGas (TonTypes.getWithGas dict key))), dict)

def valreaderFromRefopt : ValAccessor := fun dict key => do
  return (← lift (unrefOrNull (← runGas (TonTypes.getWithGas dict key))), dict)

/-- Updates with the slice in variable 3. -/
def writeSlice (mode : HashmapMode) : ValAccessor := fun dict key => do
  let value ← lift (← var 3).asSlice
  let (old, dict) ← runGas (TonTypes.updateWithGas mode dict key (.slice value))
  return (old.map .slice, dict)

/-- Updates with the builder in variable 3. -/
def writeBuilder (mode : HashmapMode) : ValAccessor := fun dict key => do
  let value ← lift (← var 3).asBuilder
  let (old, dict) ← runGas (TonTypes.updateWithGas mode dict key (.builder value))
  return (old.map .slice, dict)

/-- Updates with the cell in variable 3; the value that was there is to be a reference. -/
def writeRef (mode : HashmapMode) : ValAccessor := fun dict key => do
  let value ← lift (← var 3).asCell
  let (old, dict) ← runGas (TonTypes.updateWithGas mode dict key (.reference value))
  return (← lift (unrefOpt old), dict)

abbrev valwriterAddSlice : ValAccessor := writeSlice .add

abbrev valwriterAddBuilder : ValAccessor := writeBuilder .add

abbrev valwriterAddRef : ValAccessor := writeRef .add

def valwriterAddRefWithoutUnref : ValAccessor := fun dict key => do
  let value ← lift (← var 3).asCell
  match ← runGas (TonTypes.getWithGas dict key) with
  | some old => return (some (.slice old), dict)
  | none =>
    let (_, dict) ← runGas (TonTypes.updateWithGas .set dict key (.reference value))
    return (none, dict)

def valwriterAddOrRemoveRefopt : ValAccessor := fun dict key => do
  let (old, dict) ←
    match ← lift (← var 3).asDict with
    | some value => runGas (TonTypes.updateWithGas .set dict key (.reference value))
    | none => runGas (TonTypes.removeWithGas dict key)
  return (← lift (unrefOrNull old), dict)

def valwriterRemoveSlice : ValAccessor := fun dict key => do
  let (old, dict) ← runGas (TonTypes.removeWithGas dict key)
  return (old.map .slice, dict)

def valwriterRemoveRef : ValAccessor := fun dict key => do
  let (old, dict) ← runGas (TonTypes.removeWithGas dict key)
  return (← lift (unrefOpt old), dict)

abbrev valwriterReplaceSlice : ValAccessor := writeSlice .replace

abbrev valwriterReplaceBuilder : ValAccessor := writeBuilder .replace

abbrev valwriterReplaceRef : ValAccessor := writeRef .replace

abbrev valwriterToSlice : ValAccessor := writeSlice .set

abbrev valwriterToBuilder : ValAccessor := writeBuilder .set

abbrev valwriterToRef : ValAccessor := writeRef .set

/-! ### Get, set, add, replace and delete -/

/-- The dictionary in variable 1, with the key length in variable 0. -/
def dictVar : M HashmapE := do
  let nbits ← indexVar 0 1023
  return ⟨nbits, ← lift (← var 1).asDict⟩

def dict (keyreader : KeyReader) (how : UInt8) (handler : ValAccessor) : M Unit := do
  if !UInt8.bit how SET && UInt8.any how (INV ||| CNV) then
    fail
  loadInstruction
  fetchStack (if UInt8.bit how SET then 4 else 3)
  let dict ← dictVar
  let key ← lift (keyreader (← var 2) dict.bitLen)
  let ret := UInt8.bit how INV
  if TonTypes.sliceIsEmpty key then
    if UInt8.any how (SET ||| DEL) then
      err .rangeCheckError
    else if UInt8.bit how RET then
      push (.boolean false)
  else
    let (value, dict) ← handler dict key
    if UInt8.any how (SET ||| DEL) then
      push (dictItem dict)
    match value with
    | none =>
      if UInt8.bit how RET then
        push (.boolean ret)
    | some value =>
      if UInt8.bit how GET then
        push value
      if UInt8.bit how RET then
        push (.boolean !ret)

abbrev executeDictadd : M Unit := dict keyreaderFromSlice (INV ||| RET ||| SET) valwriterAddSlice

abbrev executeDictaddb : M Unit :=
  dict keyreaderFromSlice (CNV ||| INV ||| RET ||| SET) valwriterAddBuilder

abbrev executeDictaddget : M Unit := dict keyreaderFromSlice (INV ||| SETGET) valwriterAddSlice

abbrev executeDictaddgetb : M Unit :=
  dict keyreaderFromSlice (CNV ||| INV ||| SETGET) valwriterAddBuilder

abbrev executeDictaddgetref : M Unit := dict keyreaderFromSlice (INV ||| SETGET) valwriterAddRef

abbrev executeDictaddref : M Unit :=
  dict keyreaderFromSlice (INV ||| RET ||| SET) valwriterAddRefWithoutUnref

abbrev executeDictdel : M Unit := dict keyreaderFromSlice (DEL ||| RET) valwriterRemoveSlice

abbrev executeDictdelget : M Unit := dict keyreaderFromSlice (DEL ||| GET ||| RET) valwriterRemoveSlice

abbrev executeDictdelgetref : M Unit :=
  dict keyreaderFromSlice (DEL ||| GET ||| RET) valwriterRemoveRef

abbrev executeDictget : M Unit := dict keyreaderFromSlice (GET ||| RET) valreaderFromSlice

abbrev executeDictgetref : M Unit := dict keyreaderFromSlice (GET ||| RET) valreaderFromRef

abbrev executeDictiadd : M Unit := dict keyreaderFromInt (INV ||| RET ||| SET) valwriterAddSlice

abbrev executeDictiaddb : M Unit :=
  dict keyreaderFromInt (CNV ||| INV ||| RET ||| SET) valwriterAddBuilder

abbrev executeDictiaddget : M Unit := dict keyreaderFromInt (INV ||| SETGET) valwriterAddSlice

abbrev executeDictiaddgetb : M Unit :=
  dict keyreaderFromInt (CNV ||| INV ||| SETGET) valwriterAddBuilder

abbrev executeDictiaddgetref : M Unit := dict keyreaderFromInt (INV ||| SETGET) valwriterAddRef

abbrev executeDictiaddref : M Unit :=
  dict keyreaderFromInt (INV ||| RET ||| SET) valwriterAddRefWithoutUnref

abbrev executeDictidel : M Unit := dict keyreaderFromInt (DEL ||| RET) valwriterRemoveSlice

abbrev executeDictidelget : M Unit := dict keyreaderFromInt (DEL ||| GET ||| RET) valwriterRemoveSlice

abbrev executeDictidelgetref : M Unit := dict keyreaderFromInt (DEL ||| GET ||| RET) valwriterRemoveRef

abbrev executeDictiget : M Unit := dict keyreaderFromInt (GET ||| RET) valreaderFromSlice

abbrev executeDictigetref : M Unit := dict keyreaderFromInt (GET ||| RET) valreaderFromRef

abbrev executeDictireplace : M Unit := dict keyreaderFromInt (RET ||| SET) valwriterReplaceSlice

abbrev executeDictireplaceb : M Unit :=
  dict keyreaderFromInt (CNV ||| RET ||| SET) valwriterReplaceBuilder

abbrev executeDictireplaceget : M Unit := dict keyreaderFromInt SETGET valwriterReplaceSlice

abbrev executeDictireplacegetb : M Unit :=
  dict keyreaderFromInt (CNV ||| SETGET) valwriterReplaceBuilder

abbrev executeDictireplacegetref : M Unit := dict keyreaderFromInt SETGET valwriterReplaceRef

abbrev executeDictireplaceref : M Unit := dict keyreaderFromInt (RET ||| SET) valwriterReplaceRef

abbrev executeDictiset : M Unit := dict keyreaderFromInt SET valwriterToSlice

abbrev executeDictisetb : M Unit := dict keyreaderFromInt (CNV ||| SET) valwriterToBuilder

abbrev executeDictisetget : M Unit := dict keyreaderFromInt SETGET valwriterToSlice

abbrev executeDictisetgetb : M Unit := dict keyreaderFromInt (CNV ||| SETGET) valwriterToBuilder

abbrev executeDictisetgetref : M Unit := dict keyreaderFromInt SETGET valwriterToRef

abbrev executeDictisetref : M Unit := dict keyreaderFromInt SET valwriterToRef

abbrev executeDictreplace : M Unit := dict keyreaderFromSlice (RET ||| SET) valwriterReplaceSlice

abbrev executeDictreplaceb : M Unit :=
  dict keyreaderFromSlice (CNV ||| RET ||| SET) valwriterReplaceBuilder

abbrev executeDictreplaceget : M Unit := dict keyreaderFromSlice SETGET valwriterReplaceSlice

abbrev executeDictreplacegetb : M Unit :=
  dict keyreaderFromSlice (CNV ||| SETGET) valwriterReplaceBuilder

abbrev executeDictreplacegetref : M Unit := dict keyreaderFromSlice SETGET valwriterReplaceRef

abbrev executeDictreplaceref : M Unit := dict keyreaderFromSlice (RET ||| SET) valwriterReplaceRef

abbrev executeDictset : M Unit := dict keyreaderFromSlice SET valwriterToSlice

abbrev executeDictsetb : M Unit := dict keyreaderFromSlice (CNV ||| SET) valwriterToBuilder

abbrev executeDictsetget : M Unit := dict keyreaderFromSlice SETGET valwriterToSlice

abbrev executeDictsetgetb : M Unit := dict keyreaderFromSlice (CNV ||| SETGET) valwriterToBuilder

abbrev executeDictsetgetref : M Unit := dict keyreaderFromSlice SETGET valwriterToRef

abbrev executeDictsetref : M Unit := dict keyreaderFromSlice SET valwriterToRef

abbrev executeDictuadd : M Unit := dict keyreaderFromUint (INV ||| RET ||| SET) valwriterAddSlice

abbrev executeDictuaddb : M Unit :=
  dict keyreaderFromUint (CNV ||| INV ||| RET ||| SET) valwriterAddBuilder

abbrev executeDictuaddget : M Unit := dict keyreaderFromUint (INV ||| SETGET) valwriterAddSlice

abbrev executeDictuaddgetb : M Unit :=
  dict keyreaderFromUint (CNV ||| INV ||| SETGET) valwriterAddBuilder

abbrev executeDictuaddgetref : M Unit := dict keyreaderFromUint (INV ||| SETGET) valwriterAddRef

abbrev executeDictuaddref : M Unit :=
  dict keyreaderFromUint (INV ||| RET ||| SET) valwriterAddRefWithoutUnref

abbrev executeDictudel : M Unit := dict keyreaderFromUint (DEL ||| RET) valwriterRemoveSlice

abbrev executeDictudelget : M Unit := dict keyreaderFromUint (DEL ||| GET ||| RET) valwriterRemoveSlice

abbrev executeDictudelgetref : M Unit :=
  dict keyreaderFromUint (DEL ||| GET ||| RET) valwriterRemoveRef

abbrev executeDictuget : M Unit := dict keyreaderFromUint (GET ||| RET) valreaderFromSlice

abbrev executeDictugetref : M Unit := dict keyreaderFromUint (GET ||| RET) valreaderFromRef

abbrev executeDictureplace : M Unit := dict keyreaderFromUint (RET ||| SET) valwriterReplaceSlice

abbrev executeDictureplaceb : M Unit :=
  dict keyreaderFromUint (CNV ||| RET ||| SET) valwriterReplaceBuilder

abbrev executeDictureplaceget : M Unit := dict keyreaderFromUint SETGET valwriterReplaceSlice

abbrev executeDictureplacegetb : M Unit :=
  dict keyreaderFromUint (CNV ||| SETGET) valwriterReplaceBuilder

abbrev executeDictureplacegetref : M Unit := dict keyreaderFromUint SETGET valwriterReplaceRef

abbrev executeDictureplaceref : M Unit := dict keyreaderFromUint (RET ||| SET) valwriterReplaceRef

abbrev executeDictuset : M Unit := dict keyreaderFromUint SET valwriterToSlice

abbrev executeDictusetb : M Unit := dict keyreaderFromUint (CNV ||| SET) valwriterToBuilder

abbrev executeDictusetget : M Unit := dict keyreaderFromUint SETGET valwriterToSlice

abbrev executeDictusetgetb : M Unit := dict keyreaderFromUint (CNV ||| SETGET) valwriterToBuilder

abbrev executeDictusetgetref : M Unit := dict keyreaderFromUint SETGET valwriterToRef

abbrev executeDictusetref : M Unit := dict keyreaderFromUint SET valwriterToRef

abbrev executeDictgetoptref : M Unit := dict keyreaderFromSlice GET valreaderFromRefopt

abbrev executeDictigetoptref : M Unit := dict keyreaderFromInt GET valreaderFromRefopt

abbrev executeDictugetoptref : M Unit := dict keyreaderFromUint GET valreaderFromRefopt

abbrev executeDictsetgetoptref : M Unit :=
  dict keyreaderFromSlice (SET ||| GET) valwriterAddOrRemoveRefopt

abbrev executeDictisetgetoptref : M Unit :=
  dict keyreaderFromInt (SET ||| GET) valwriterAddOrRemoveRefopt

abbrev executeDictusetgetoptref : M Unit :=
  dict keyreaderFromUint (SET ||| GET) valwriterAddOrRemoveRefopt

/-! ### Continuations from dictionaries -/

/-- Switches to or calls the continuation in a variable, by the mask. -/
def enterVar (how : UInt8) (n : Nat) : M Unit :=
  if UInt8.bit how SWITCH then switch (Addr.var n)
  else if UInt8.bit how CALLX then callx n false
  else fail

def dictcont (keyreader : KeyReader) (how : UInt8) : M Unit := do
  loadInstruction
  fetchStack 3
  let dict ← dictVar
  let key ← lift (keyreader (← var 2) dict.bitLen)
  match ← runGas (TonTypes.getWithGas dict key) with
  | some data =>
    pushVar (.continuation (.withCode data))
    enterVar how ((← get).varCount - 1)
  | none =>
    if UInt8.bit how STAY then
      push (← removeVar 2)

abbrev executeDictigetjmp : M Unit := dictcont keyreaderFromInt SWITCH

abbrev executeDictigetjmpz : M Unit := dictcont keyreaderFromInt (SWITCH ||| STAY)

abbrev executeDictugetjmp : M Unit := dictcont keyreaderFromUint SWITCH

abbrev executeDictugetjmpz : M Unit := dictcont keyreaderFromUint (SWITCH ||| STAY)

abbrev executeDictigetexec : M Unit := dictcont keyreaderFromInt CALLX

abbrev executeDictigetexecz : M Unit := dictcont keyreaderFromInt (CALLX ||| STAY)

abbrev executeDictugetexec : M Unit := dictcont keyreaderFromUint CALLX

abbrev executeDictugetexecz : M Unit := dictcont keyreaderFromUint (CALLX ||| STAY)

abbrev executeDictpushconst : M Unit := do
  loadInstruction (some (.dictionary 13 10))
  let slice ← param sliceRaw
  if TonTypes.remainingReferences slice = 0 then
    err .invalidOpcode
  push (.cell (← lift (TonTypes.sliceReference slice 0)))
  pushInt (← param lengthRaw)

/-! ### Order of keys -/

def iterReader (dict : HashmapE) (key : SliceData) (how : UInt8) :
    M (Option (BuilderData × StackItem)) := do
  let found ← runGas
    (TonTypes.findLeaf dict key (UInt8.bit how NEXT) (UInt8.bit how SAME) (UInt8.bit how SIGN))
  return found.map fun (key, value) => (key, .slice value)

def finder (dict : HashmapE) (how : UInt8) : M (Option (BuilderData × StackItem)) := do
  let found ←
    if UInt8.bit how MIN then runGas (TonTypes.getMin dict (UInt8.bit how SIGN))
    else runGas (TonTypes.getMax dict (UInt8.bit how SIGN))
  match found with
  | none => return none
  | some (key, value) =>
    if UInt8.bit how REF then
      return some (key, ← lift (tryUnrefLeaf value))
    else
      return some (key, .slice value)

/-- Pushes a key and its value, or the flag that there is none. -/
def pushEntry (how : UInt8) : Option (BuilderData × StackItem) → M Unit
  | some (key, value) => do
    push value
    push (← writeKey key how)
    push (.boolean true)
  | none => push (.boolean false)

def dictiter (how : UInt8) : M Unit := do
  loadInstruction
  fetchStack 3
  let dict ← dictVar
  let found ←
    match ← lift (readKey (← var 2) dict.bitLen how) with
    | (some key, _) => iterReader dict key how
    | (none, neg) => if !neg ^^ UInt8.bit how MIN then finder dict how else pure none
  pushEntry how found

abbrev executeDictgetnext : M Unit := dictiter (NEXT ||| SLC)

abbrev executeDictgetnexteq : M Unit := dictiter (NEXT ||| SAME ||| SLC)

abbrev executeDictgetprev : M Unit := dictiter (PREV ||| SLC)

abbrev executeDictgetpreveq : M Unit := dictiter (PREV ||| SAME ||| SLC)

abbrev executeDictigetnext : M Unit := dictiter (SIGN ||| NEXT)

abbrev executeDictigetnexteq : M Unit := dictiter (SIGN ||| NEXT ||| SAME)

abbrev executeDictigetprev : M Unit := dictiter (SIGN ||| PREV)

abbrev executeDictigetpreveq : M Unit := dictiter (SIGN ||| PREV ||| SAME)

abbrev executeDictugetnext : M Unit := dictiter NEXT

abbrev executeDictugetnexteq : M Unit := dictiter (NEXT ||| SAME)

abbrev executeDictugetprev : M Unit := dictiter PREV

abbrev executeDictugetpreveq : M Unit := dictiter (PREV ||| SAME)

def find (how : UInt8) : M Unit := do
  loadInstruction
  fetchStack 2
  let dict ← dictVar
  match ← finder dict how with
  | some (key, value) =>
    if UInt8.bit how DEL then
      let key ← lift (TonTypes.loadBuilder key)
      let (_, dict) ← runGas (TonTypes.removeWithGas dict key)
      push (dictItem dict)
    pushEntry how (some (key, value))
  | none =>
    if UInt8.bit how DEL then
      push (dictItem dict)
    pushEntry how none

abbrev executeDictimax : M Unit := find (MAX ||| SIGN)

abbrev executeDictimaxref : M Unit := find (MAX ||| REF ||| SIGN)

abbrev executeDictimin : M Unit := find (MIN ||| SIGN)

abbrev executeDictiminref : M Unit := find (MIN ||| REF ||| SIGN)

abbrev executeDictiremmax : M Unit := find (DEL ||| MAX ||| SIGN)

abbrev executeDictiremmaxref : M Unit := find (DEL ||| MAX ||| REF ||| SIGN)

abbrev executeDictiremmin : M Unit := find (DEL ||| MIN ||| SIGN)

abbrev executeDictiremminref : M Unit := find (DEL ||| MIN ||| REF ||| SIGN)

abbrev executeDictmax : M Unit := find (MAX ||| SLC)

abbrev executeDictmaxref : M Unit := find (MAX ||| REF ||| SLC)

abbrev executeDictmin : M Unit := find (MIN ||| SLC)

abbrev executeDictminref : M Unit := find (MIN ||| REF ||| SLC)

abbrev executeDictremmax : M Unit := find (DEL ||| MAX ||| SLC)

abbrev executeDictremmaxref : M Unit := find (DEL ||| MAX ||| REF ||| SLC)

abbrev executeDictremmin : M Unit := find (DEL ||| MIN ||| SLC)

abbrev executeDictremminref : M Unit := find (DEL ||| MIN ||| REF ||| SLC)

abbrev executeDictumax : M Unit := find MAX

abbrev executeDictumaxref : M Unit := find (MAX ||| REF)

abbrev executeDictumin : M Unit := find MIN

abbrev executeDictuminref : M Unit := find (MIN ||| REF)

abbrev executeDicturemmax : M Unit := find (DEL ||| MAX)

abbrev executeDicturemmaxref : M Unit := find (DEL ||| MAX ||| REF)

abbrev executeDicturemmin : M Unit := find (DEL ||| MIN)

abbrev executeDicturemminref : M Unit := find (DEL ||| MIN ||| REF)

/-! ### Prefix dictionaries -/

/-- What the instruction does at the key: whether it changed the dictionary, and the dictionary. -/
def pfxUpdate (how : UInt8) (dict : HashmapE) (key : SliceData) : M (Bool × HashmapE) := do
  if UInt8.bit how DEL then
    let (old, dict) ← runGas (TonTypes.pfxRemoveWithGas dict key)
    return (old.isSome, dict)
  else
    let value ← lift (← var 3).asSlice
    if UInt8.bit how INV then
      let free ←
        if ← lift (TonTypes.pfxIsPrefix dict key) then pure false
        else do pure (← lift (TonTypes.pfxGet dict key)).isNone
      if free then
        let (_, dict) ← runGas (TonTypes.pfxUpdateWithGas .set dict key value)
        return (true, dict)
      else
        let _ ← runGas (TonTypes.pfxGetWithGas dict key)
        return (false, dict)
    else if UInt8.bit how GET then
      let (old, dict) ← runGas (TonTypes.pfxUpdateWithGas .replace dict key value)
      return (old.isSome, dict)
    else if !(← lift (TonTypes.pfxIsPrefix dict key)) then
      let (_, dict) ← runGas (TonTypes.pfxUpdateWithGas .set dict key value)
      return (true, dict)
    else
      let _ ← runGas (TonTypes.pfxGetPrefixLeaf dict key)
      return (false, dict)

def pfxdictset (how : UInt8) : M Unit := do
  loadInstruction
  fetchStack (if UInt8.bit how DEL then 3 else 4)
  let dict ← dictVar
  let key ← lift (← var 2).asSlice
  let (keyValid, dict) ← pfxUpdate how dict key
  push (dictItem dict)
  push (.boolean keyValid)

abbrev executePfxdictset : M Unit := pfxdictset 0

abbrev executePfxdictreplace : M Unit := pfxdictset GET

abbrev executePfxdictadd : M Unit := pfxdictset (INV ||| GET)

abbrev executePfxdictdel : M Unit := pfxdictset DEL

/-- The dictionary and the key of a prefix lookup; a constant dictionary comes from the code. -/
def pfxOperands (how : UInt8) : M (HashmapE × SliceData) := do
  if UInt8.bit how CMD then
    loadInstruction (some (.dictionary 13 10))
    fetchStack 1
    let nbits ← param lengthRaw
    let root := TonTypes.referenceOpt (← param sliceRaw) 0
    return (⟨nbits, root⟩, ← lift (← var 0).asSlice)
  else
    loadInstruction
    fetchStack 3
    let dict ← dictVar
    return (dict, ← lift (← var 2).asSlice)

def pfxdictget (how : UInt8) : M Unit := do
  let getCont := UInt8.bit how CALLX || UInt8.bit how SWITCH
  let (dict, key) ← pfxOperands how
  let (start, value, suffix) ← runGas (TonTypes.pfxGetPrefixLeaf dict key)
  match value with
  | some value =>
    push (.slice (TonTypes.cutDataHead key (TonTypes.remainingBits start)))
    if getCont then
      pushVar (.continuation (.withCode value))
    else
      push (.slice value)
    push (.slice suffix)
    if UInt8.bit how RET then
      push (.boolean true)
    if getCont then
      enterVar how ((← get).varCount - 1)
  | none =>
    if UInt8.bit how RET || getCont then
      push (← popVar)
      if UInt8.bit how RET then
        push (.boolean false)
    else
      err .cellUnderflow

abbrev executePfxdictgetq : M Unit := pfxdictget RET

abbrev executePfxdictget : M Unit := pfxdictget 0

abbrev executePfxdictgetjmp : M Unit := pfxdictget SWITCH

abbrev executePfxdictgetexec : M Unit := pfxdictget CALLX

abbrev executePfxdictswitch : M Unit := pfxdictget (CMD ||| SWITCH)

/-! ### Dictionaries in slices and sub-dictionaries -/

def loadDict (how : UInt8) : M Unit := do
  loadInstruction
  fetchStack 1
  let slice ← lift (← var 0).asSlice
  let (found, rest) := TonTypes.getDictionaryOpt slice
  match found with
  | some dict =>
    if UInt8.bit how SLC then
      push (.slice dict)
    else if UInt8.bit how DICT then
      if TonTypes.isEmptyRoot dict then
        push .none
      else
        push (.cell (← lift (TonTypes.sliceReference dict 0)))
  | none => pure ()
  if UInt8.bit how REST then
    push (.slice (if found.isSome then rest else slice))
  if UInt8.bit how QUIET then
    push (.boolean found.isSome)
  else if found.isNone then
    err .cellUnderflow

abbrev executeSkipdict : M Unit := loadDict REST

abbrev executeLddict : M Unit := loadDict (REST ||| DICT)

abbrev executePlddict : M Unit := loadDict DICT

abbrev executeLddicts : M Unit := loadDict (REST ||| SLC)

abbrev executePlddicts : M Unit := loadDict SLC

abbrev executeLddictq : M Unit := loadDict (REST ||| DICT ||| QUIET)

abbrev executePlddictq : M Unit := loadDict (DICT ||| QUIET)

def subdict (keyreader : KeyReader) (into : HashmapE → SliceData → GasM HashmapE) : M Unit := do
  loadInstruction
  fetchStack 4
  let dict ← dictVar
  let lbits ← indexVar 2 dict.bitLen
  let key ← lift (keyreader (← var 3) lbits)
  push (dictItem (← runGas (into dict key)))

abbrev executeSubdictget : M Unit := subdict keyreaderFromSlice TonTypes.intoSubtreeWithPrefix

abbrev executeSubdictiget : M Unit := subdict keyreaderFromInt TonTypes.intoSubtreeWithPrefix

abbrev executeSubdictuget : M Unit := subdict keyreaderFromUint TonTypes.intoSubtreeWithPrefix

abbrev executeSubdictrpget : M Unit := subdict keyreaderFromSlice TonTypes.intoSubtreeWithoutPrefix

abbrev executeSubdictirpget : M Unit := subdict keyreaderFromInt TonTypes.intoSubtreeWithoutPrefix

abbrev executeSubdicturpget : M Unit := subdict keyreaderFromUint TonTypes.intoSubtreeWithoutPrefix

end Engine

end TonVm
