import TonVm.Proof.PackedData
import TonVm.Proof.VarInteger
import TonVm.Proof.DictionaryOrder
import TonVm.Proof.Parameters

/-!
# Output actions

c5 holds the last cell of the list of output actions. Its first reference leads to the list before the
last action, and the rest of the cell is the action: a tag, a mode, and an amount, a hash or another
cell. The instructions that output an action put a cell in front of the list and change nothing in it.
-/

namespace TonVm

open ExecLib

/-! ### Actions in cells -/

/-- An output action with its operands. -/
inductive Action [TonTypes] where
  | sendMsg (mode : Nat) (message : Cell)
  | setCode (code : Cell)
  | reserve (mode grams : Nat) (other : Option Cell)
  | changeLib (mode hash : Nat)
  | setLibCode (mode : Nat) (library : Cell)

namespace Action

section Codec

variable [TonTypes]

open Plain (bitsOf natOf)

def tag : Action → OutAction
  | sendMsg .. => .sendMsg
  | setCode .. => .setCode
  | reserve .. => .reserve
  | changeLib .. | setLibCode .. => .changeLib

/-- The bits after the tag. -/
def bits : Action → List Bool
  | sendMsg mode _ => bitsOf 8 mode
  | setCode _ => []
  | reserve mode grams other => bitsOf 8 mode ++ (VarFormat.grams.written grams ++ [other.isSome])
  | changeLib mode hash => bitsOf 8 (mode * 2) ++ bitsOf 256 hash
  | setLibCode mode _ => bitsOf 8 (mode * 2 + 1)

/-- The references after that to the rest of the list. -/
def refs : Action → List Cell
  | sendMsg _ message => [message]
  | setCode code => [code]
  | reserve _ _ other => other.toList
  | changeLib .. => []
  | setLibCode _ library => [library]

/-- The operands are in the ranges of the instructions. -/
def InRange : Action → Prop
  | sendMsg mode _ => mode ≤ 255
  | setCode _ => True
  | reserve mode grams _ => mode ≤ 15 ∧ grams < 2 ^ 120
  | changeLib mode hash => mode ≤ 2 ∧ hash < 2 ^ 256
  | setLibCode mode _ => mode ≤ 2

/-! ### Reading -/

/-- Reads a mode, an amount behind its length in bytes, and whether there are other currencies. -/
def readReserve (body : List Bool) (refs : List Cell) : Option Action :=
  let length := natOf ((body.drop 8).take 4)
  let amount := body.drop 12
  let mode := natOf (body.take 8)
  let grams := natOf (amount.take (8 * length))
  match amount.drop (8 * length), refs with
  | [false], [] => some (reserve mode grams none)
  | [true], [other] => some (reserve mode grams (some other))
  | _, _ => none

/-- Reads a mode whose last bit says whether a library follows or its hash. -/
def readLib (body : List Bool) (refs : List Cell) : Option Action :=
  let mode := natOf (body.take 8)
  match (body.drop 8).length, refs with
  | 256, [] => if mode % 2 = 0 then some (changeLib (mode / 2) (natOf (body.drop 8))) else none
  | 0, [library] => if mode % 2 = 1 then some (setLibCode (mode / 2) library) else none
  | _, _ => none

/-- Reads what follows the tag. -/
def readBody (tag : OutAction) (body : List Bool) (refs : List Cell) : Option Action :=
  match tag, refs with
  | .sendMsg, [message] => if body.length = 8 then some (sendMsg (natOf body) message) else none
  | .setCode, [code] => if body = [] then some (setCode code) else none
  | .reserve, refs => readReserve body refs
  | .changeLib, refs => readLib body refs
  | _, _ => none

variable [TonBlock]

/-- The kind of action with a number. -/
def readTag (id : Nat) : Option OutAction :=
  [OutAction.sendMsg, .setCode, .reserve, .changeLib, .copyleft].find? (TonBlock.actionTag · = id)

/-- The content of a cell of the list: the reference to the rest of the list, and the action. -/
def read (bits : List Bool) (refs : List Cell) : Option (Cell × Action) :=
  match refs with
  | [] => none
  | previous :: refs => do
    let tag ← readTag (natOf (bits.take 32))
    let action ← readBody tag (bits.drop 32) refs
    return (previous, action)

/-- The tags are different 32-bit numbers. -/
class LawfulTags : Prop where
  lt : ∀ tag, TonBlock.actionTag tag < 2 ^ 32
  injective : Function.Injective TonBlock.actionTag

theorem readTag_actionTag [LawfulTags] (tag : OutAction) :
    readTag (TonBlock.actionTag tag) = some tag := by
  unfold readTag
  cases tag <;> simp [List.find?, LawfulTags.injective.eq_iff]

omit [TonTypes] [TonBlock] in
/-- A number that is written before other bits. -/
theorem natOf_take_bitsOf {n v : Nat} (h : v < 2 ^ n) (rest : List Bool) :
    natOf ((bitsOf n v ++ rest).take n) = v ∧ (bitsOf n v ++ rest).drop n = rest := by
  have hlen : (bitsOf n v).length = n := Plain.length_bitsOf n v
  refine ⟨?_, ?_⟩
  · rw [List.take_left' hlen, Plain.natOf_bitsOf, Nat.mod_eq_of_lt h]
  · rw [List.drop_left' hlen]

omit [TonBlock] in
theorem readReserve_bits {mode grams : Nat} (hmode : mode ≤ 15) (hgrams : grams < 2 ^ 120)
    (other : Option Cell) :
    readReserve (reserve mode grams other).bits (reserve mode grams other).refs =
      some (reserve mode grams other) := by
  have hhigh : (grams : Int) < 2 ^ 120 := by exact_mod_cast hgrams
  have hcovers : VarFormat.grams.Covers grams := ⟨Int.natCast_nonneg grams, hhigh⟩
  have hlength := VarFormat.length_bytes_lt hcovers
  have hvalue : natOf (Plain.ofBytes (VarFormat.grams.bytes grams)) = grams := by
    rw [Plain.natOf_ofBytes]
    have hbytes : (fromBytesBe (VarFormat.grams.bytes grams) : Int) = grams :=
      VarFormat.value_bytes hcovers
    exact_mod_cast hbytes
  obtain ⟨hread, hrest⟩ := natOf_take_bitsOf (n := 8) (v := mode) (by omega)
    (VarFormat.grams.written grams ++ [other.isSome])
  rw [VarFormat.written, List.append_assoc] at hrest hread
  obtain ⟨hcount, hamount⟩ := natOf_take_bitsOf hlength
    (Plain.ofBytes (VarFormat.grams.bytes grams) ++ [other.isSome])
  have hbytes : (Plain.ofBytes (VarFormat.grams.bytes grams)).length =
      8 * (VarFormat.grams.bytes grams).length := Plain.length_ofBytes _
  have hdrop (body : List Bool) : body.drop 12 = (body.drop 8).drop 4 := by rw [List.drop_drop]
  have hlengthBits : VarFormat.grams.lengthBits = 4 := rfl
  rw [hlengthBits] at hrest hread hcount hamount
  unfold readReserve
  simp only [bits, VarFormat.written, hlengthBits, List.append_assoc, hdrop, hread, hrest, hcount,
    hamount, List.take_left' hbytes, List.drop_left' hbytes, hvalue]
  cases other <;> rfl

omit [TonBlock] in
theorem readBody_bits {action : Action} (h : action.InRange) :
    readBody action.tag action.bits action.refs = some action := by
  cases action with
  | sendMsg mode message =>
    have hlen : (bitsOf 8 mode).length = 8 := Plain.length_bitsOf 8 mode
    have hmode : mode < 2 ^ 8 := Nat.lt_succ_of_le h
    simp only [readBody, tag, bits, refs, hlen, if_true, Plain.natOf_bitsOf, Nat.mod_eq_of_lt hmode]
  | setCode code => rfl
  | reserve mode grams other => exact readReserve_bits h.1 h.2 other
  | changeLib mode hash =>
    obtain ⟨hmode, hhash⟩ := h
    obtain ⟨hread, hrest⟩ := natOf_take_bitsOf (n := 8) (v := mode * 2) (by omega) (bitsOf 256 hash)
    have hlen : (bitsOf 256 hash).length = 256 := Plain.length_bitsOf 256 hash
    have heven : mode * 2 % 2 = 0 := by omega
    have hhalf : mode * 2 / 2 = mode := by omega
    simp only [readBody, readLib, tag, bits, refs, hread, hrest, hlen, heven, if_true, hhalf,
      Plain.natOf_bitsOf, Nat.mod_eq_of_lt hhash]
  | setLibCode mode library =>
    have hmode : mode ≤ 2 := h
    obtain ⟨hread, hrest⟩ := natOf_take_bitsOf (n := 8) (v := mode * 2 + 1) (by omega) []
    rw [List.append_nil] at hread hrest
    have hodd : (mode * 2 + 1) % 2 = 1 := by omega
    have hhalf : (mode * 2 + 1) / 2 = mode := by omega
    simp only [readBody, readLib, tag, bits, refs, hread, hrest, List.length_nil, hodd, if_true, hhalf]

theorem read_bits [LawfulTags] {action : Action} (h : action.InRange) (previous : Cell) :
    read (bitsOf 32 (TonBlock.actionTag action.tag) ++ action.bits) (previous :: action.refs) =
      some (previous, action) := by
  obtain ⟨hid, hbody⟩ := natOf_take_bitsOf (LawfulTags.lt action.tag) action.bits
  simp only [read, hid, hbody, readTag_actionTag, readBody_bits h, Option.bind_eq_bind,
    Option.bind_some]
  rfl

end Codec

end Action

namespace Engine

/-! ### The instructions -/

/-- The instructions that output an action. -/
inductive ActionInstruction where
  | sendrawmsg
  | setcode
  | rawreserve
  | rawreservex
  | changelib
  | setlibcode
  deriving DecidableEq

section Instructions

variable [TonTypes]

namespace ActionInstruction

/-- The action that is to be output, by the values from the top of the stack. -/
def action : ActionInstruction → List StackItem → Option Action
  | sendrawmsg, .integer (.value mode) :: .cell message :: _ => some (.sendMsg mode.toNat message)
  | setcode, .cell code :: _ => some (.setCode code)
  | rawreserve, .integer (.value mode) :: .integer (.value grams) :: _ =>
    some (.reserve mode.toNat grams.toNat none)
  | rawreservex, .integer (.value mode) :: .none :: .integer (.value grams) :: _ =>
    some (.reserve mode.toNat grams.toNat none)
  | rawreservex, .integer (.value mode) :: .cell other :: .integer (.value grams) :: _ =>
    some (.reserve mode.toNat grams.toNat (some other))
  | changelib, .integer (.value mode) :: .integer (.value hash) :: _ =>
    some (.changeLib mode.toNat hash.toNat)
  | setlibcode, .integer (.value mode) :: .cell library :: _ => some (.setLibCode mode.toNat library)
  | _, _ => none

variable [TonBlock]

def handler : ActionInstruction → M Unit
  | sendrawmsg => executeSendrawmsg
  | setcode => executeSetcode
  | rawreserve => executeRawreserve
  | rawreservex => executeRawreservex
  | changelib => executeChangelib
  | setlibcode => executeSetlibcode

end ActionInstruction

/-! ### What a failed instruction leaves -/

section Failing

instance : Inert Engine.ctrls := ⟨fun _ _ _ _ => rfl⟩

instance (priority := low) {α : Type} (m : M α) [h : LeavesRegisters m] : Leaves Engine.ctrls m :=
  h.comp fun r => r.2.1

instance : Leaves Engine.ctrls loadInstruction := by
  refine ⟨fun e => ?_⟩
  rw [exec_load]
  rfl

instance (depth : Nat) : Leaves Engine.ctrls (fetchStack depth) := by
  unfold fetchStack
  refine .andThen inferInstance fun e => .choose inferInstance (.andThen inferInstance fun items => ?_)
  exact ⟨fun _ => rfl⟩

instance (index hi : Nat) : Leaves Engine.ctrls (indexVar index hi) := by
  unfold indexVar
  infer_instance

instance (index : Nat) (item : StackItem) : FailsLeaving Engine.ctrls (putCtrl index item) := by
  unfold putCtrl
  refine .andThen inferInstance fun e => .andThen inferInstance fun ctrls => .ofTotal fun s => ?_
  exact ⟨(), _, rfl⟩

instance (actionId : Nat) (cell : Option Cell) (suffix : BuilderData) :
    FailsLeaving Engine.ctrls (addAction actionId cell suffix) := by
  unfold addAction
  refine .andThen inferInstance fun e => ?_
  split <;> infer_instance

variable [TonBlock]

instance (grams : Nat) (other : Option Cell) (suffix : BuilderData) :
    FailsLeaving Engine.ctrls (reserve grams other suffix) := by
  unfold reserve
  infer_instance

instance : FailsLeaving Engine.ctrls executeSendrawmsg := by
  unfold executeSendrawmsg
  infer_instance

instance : FailsLeaving Engine.ctrls executeSetcode := by
  unfold executeSetcode
  infer_instance

instance : FailsLeaving Engine.ctrls executeRawreserve := by
  unfold executeRawreserve
  infer_instance

section LongBodies

set_option synthInstance.maxSize 1000000

instance : FailsLeaving Engine.ctrls executeRawreservex := by
  unfold executeRawreservex
  infer_instance

instance : FailsLeaving Engine.ctrls executeChangelib := by
  unfold executeChangelib
  infer_instance

instance : FailsLeaving Engine.ctrls executeSetlibcode := by
  unfold executeSetlibcode
  infer_instance

end LongBodies

theorem failsLeaving_handler (i : ActionInstruction) : FailsLeaving Engine.ctrls i.handler := by
  cases i <;> unfold ActionInstruction.handler <;> infer_instance

end Failing

/-! ### What an instruction puts in front of the list -/

section Adding

open Plain (bitsOf)

variable [Views] [LawfulViews] [LawfulPacking]

theorem actionBuilder_eq_ok {c5 : Cell} {id : Nat} {cell : Option Cell} {suffix builder : BuilderData}
    (h : actionBuilder c5 id cell suffix = .ok builder) :
    Assembled builder ∧ builderBits builder = bitsOf 32 id ++ builderBits suffix ∧
      builderRefs builder = c5 :: (builderRefs suffix ++ cell.toList) := by
  obtain ⟨hbits₀, hrefs₀⟩ := LawfulViews.builderDefault
  unfold actionBuilder at h
  obtain ⟨linked, hlink, h⟩ := bind_eq_ok h
  obtain ⟨tagged, htag, h⟩ := bind_eq_ok h
  obtain ⟨filled, hfill, h⟩ := bind_eq_ok h
  have hlinked := LawfulPacking.checkedAppendReference TonTypes.builderDefault c5
  have htagged := LawfulViews.appendBits linked id 32
  have hfilled := LawfulViews.appendBuilder tagged suffix
  have hbits : builderBits filled = bitsOf 32 id ++ builderBits suffix := by
    rw [hfilled.bits filled hfill, htagged.bits tagged htag, hlinked.bits linked hlink, hbits₀,
      List.nil_append]
  have hrefs : builderRefs filled = c5 :: builderRefs suffix := by
    rw [hfilled.refs filled hfill, htagged.refs tagged htag, hlinked.refs linked hlink, hrefs₀]
    rfl
  have hassembled : Assembled filled :=
    .appendBuilder (.appendBits (.checkedAppendReference .builderDefault hlink) htag) hfill
  cases cell with
  | none =>
    obtain rfl : filled = builder := Except.ok.inj h
    refine ⟨hassembled, hbits, ?_⟩
    rw [hrefs, Option.toList_none, List.append_nil]
  | some cell =>
    have hbuilt := LawfulPacking.checkedAppendReference filled cell
    refine ⟨.checkedAppendReference hassembled h, ?_, ?_⟩
    · rw [hbuilt.bits builder h, hbits]
    · rw [hbuilt.refs builder h, hrefs]
      rfl

variable [LawfulFinalize] [TonBlock]

/-- The new c5 is a cell with an action in front of the old one. -/
def Heads (action : Action) (s t : Engine) : Prop :=
  ∃ c5 head slice, s.ctrls.get 5 = some (.cell c5) ∧ t.ctrls.get 5 = some (.cell head) ∧
    TonTypes.loadCell head = .ok slice ∧
    sliceBits slice = bitsOf 32 (TonBlock.actionTag action.tag) ++ action.bits ∧
    sliceRefs slice = c5 :: action.refs

theorem heads_of_addAction (action : Action) {cell : Option Cell} {suffix : BuilderData} {s t : Engine}
    (h : exec (addAction (TonBlock.actionTag action.tag) cell suffix) s = (.ok (), t))
    (hbits : builderBits suffix = action.bits) (hrefs : builderRefs suffix ++ cell.toList = action.refs) :
    Heads action s t := by
  unfold addAction at h
  rw [exec_bind_get] at h
  cases hc5 : s.ctrls.get 5 with
  | none =>
    rw [hc5] at h
    cases h
  | some item =>
    simp only [hc5] at h
    obtain ⟨c5, hcell, hrest⟩ := exec_bind_lift_eq_ok h
    obtain ⟨builder, hbuilder, hrest⟩ := exec_bind_lift_eq_ok hrest
    obtain ⟨head, s', hhead, hput⟩ := exec_bind_eq_ok hrest
    obtain ⟨hfinal, rfl⟩ := exec_finalizeCell_eq_ok hhead
    cases hput
    obtain ⟨hassembled, hbits', hrefs'⟩ := actionBuilder_eq_ok hbuilder
    obtain ⟨slice, hload, hsliceBits, hsliceRefs⟩ := LawfulFinalize.loadCell builder head hassembled hfinal
    have hitem : item = .cell c5 := by
      cases item <;> cases hcell
      rfl
    refine ⟨c5, head, slice, by rw [hc5, hitem], rfl, hload, ?_, ?_⟩
    · rw [hsliceBits, hbits', hbits]
    · rw [hsliceRefs, hrefs', hrefs]

omit [Views] [LawfulViews] [LawfulPacking] [LawfulFinalize] [TonBlock] in
/-- An instruction that does not fail has its arguments on the stack. -/
theorem fetched_of_ok {α : Type} {n : Nat} {k : M α} {a : α} {s t : Engine}
    (h : exec (do
      loadInstruction
      fetchStack n
      k) s = (.ok a, t)) :
    ∃ (e : Engine) (items : Stack), items.length = n ∧ s = e.given items ∧
      exec k (e.afterLoad.holding e.cc e.ctrls items.reverse) = (.ok a, t) := by
  by_cases hn : n ≤ s.cc.stack.length
  · obtain ⟨e, items, rfl, rfl⟩ := exists_given hn
    rw [exec_load_fetchStack] at h
    exact ⟨e, items, rfl, rfl, h⟩
  · rw [exec_load_fetchStack_short (not_le.1 hn)] at h
    cases h

section Values

omit [Views] [LawfulViews] [LawfulPacking] [LawfulFinalize] [TonBlock]

variable {item : StackItem}

theorem asInteger_eq_ok {x : IntegerData} (h : item.asInteger = .ok x) : item = .integer x := by
  cases item <;> cases h
  rfl

theorem asCell_eq_ok {cell : Cell} (h : item.asCell = .ok cell) : item = .cell cell := by
  cases item <;> cases h
  rfl

theorem asGrams_eq_ok {grams : Nat} (h : item.asGrams = .ok grams) :
    item = .int grams ∧ grams < 2 ^ 120 := by
  obtain ⟨x, hx, hinto⟩ := bind_eq_ok h
  obtain ⟨rfl, hle⟩ := IntegerData.intoUsize_eq_ok hinto
  exact ⟨asInteger_eq_ok hx, by omega⟩

end Values

omit [Views] [LawfulViews] [LawfulPacking] [LawfulFinalize] [TonBlock] in
theorem exec_bind_indexVar_eq_ok {β : Type} {i hi : Nat} {k : Nat → M β} {b : β} {s t : Engine}
    (h : exec (indexVar i hi >>= k) s = (.ok b, t)) :
    ∃ n, n ≤ hi ∧ s.cmd.vars[i]? = some (.int n) ∧ exec (k n) s = (.ok b, t) := by
  unfold indexVar at h
  rw [bind_assoc] at h
  obtain ⟨item, hitem, hread⟩ := exec_bind_var_eq_ok h
  rw [bind_assoc] at hread
  obtain ⟨x, hx, hcheck⟩ := exec_bind_lift_eq_ok hread
  obtain ⟨n, hn, hk⟩ := exec_bind_lift_eq_ok hcheck
  obtain ⟨rfl, hle⟩ := IntegerData.intoUsize_eq_ok hn
  refine ⟨n, hle, ?_, hk⟩
  rw [hitem, asInteger_eq_ok hx]
  rfl

omit [LawfulPacking] [LawfulFinalize] [TonBlock] in
theorem withRaw_byte {n : Nat} (hn : n < 256) {suffix : BuilderData}
    (h : TonTypes.withRaw [UInt8.ofNat n] 8 = .ok suffix) :
    builderBits suffix = bitsOf 8 n ∧ builderRefs suffix = [] := by
  have hbuilds := LawfulViews.withRaw [UInt8.ofNat n] 8 le_rfl
  refine ⟨?_, hbuilds.refs suffix h⟩
  have hbyte : (UInt8.ofNat n).toNat = n := by
    rw [UInt8.toNat_ofNat', Nat.mod_eq_of_lt hn]
  rw [hbuilds.bits suffix h, Plain.ofBytes_cons, Plain.ofBytes_nil, List.append_nil, hbyte,
    List.take_of_length_le (Plain.length_bitsOf 8 n).le]

omit [LawfulPacking] [LawfulFinalize] [TonBlock] in
/-- A hash is written in 256 bits. -/
theorem asBuilder_hash_eq_ok {x : IntegerData} {builder : BuilderData}
    (h : x.asBuilder .unsignedBigEndian 256 = .ok builder) :
    ∃ hash : Nat, x = .value hash ∧ hash < 2 ^ 256 ∧ builderBits builder = bitsOf 256 hash ∧
      builderRefs builder = [] := by
  cases x with
  | nan => cases h
  | value v =>
    have hfits : (keyEncoding false).Fits 256 v := Encoding.fits_of_trySerialize h
    obtain ⟨written, hwritten, hbits, hrefs, -⟩ := exists_asBuilder (by decide) hfits
    obtain rfl : written = builder := Except.ok.inj (hwritten.symm.trans h)
    obtain ⟨hnonneg, hlt⟩ : 0 ≤ v ∧ v < 2 ^ 256 := hfits
    obtain ⟨hash, rfl⟩ := Int.eq_ofNat_of_zero_le hnonneg
    have hnat : hash < 2 ^ 256 := by exact_mod_cast hlt
    rw [Int.emod_eq_of_lt hnonneg hlt, Int.toNat_natCast] at hbits
    exact ⟨hash, rfl, hnat, hbits, hrefs⟩

omit [LawfulFinalize] [TonBlock] in
theorem serializeCurrencyCollection_eq_ok {grams : Nat} (hgrams : grams < 2 ^ 120) {other : Option Cell}
    {builder : BuilderData} (h : serializeCurrencyCollection grams other = .ok builder) :
    builderBits builder = VarFormat.grams.written grams ++ [other.isSome] ∧
      builderRefs builder = other.toList := by
  obtain ⟨amount, hamount, hbits, hrefs⟩ := VarFormat.serializeGrams_eq hgrams
  unfold serializeCurrencyCollection at h
  rw [hamount, ok_bind] at h
  cases other with
  | none =>
    have hflag := LawfulViews.appendBits amount 0 1
    rw [hbits, hrefs] at hflag
    exact ⟨hflag.bits builder h, hflag.refs builder h⟩
  | some cell =>
    obtain ⟨flagged, hflagged, hbuilder⟩ := bind_eq_ok h
    have hflag := LawfulViews.appendBits amount 1 1
    have href := LawfulPacking.checkedAppendReference flagged cell
    rw [hflag.bits flagged hflagged, hflag.refs flagged hflagged, hbits, hrefs] at href
    exact ⟨href.bits builder hbuilder, href.refs builder hbuilder⟩

theorem heads_of_reserve {mode grams : Nat} (hmode : mode < 256) (hgrams : grams < 2 ^ 120)
    {other : Option Cell} {suffix : BuilderData} {s t : Engine}
    (hsuffix : TonTypes.withRaw [UInt8.ofNat mode] 8 = .ok suffix)
    (h : exec (reserve grams other suffix) s = (.ok (), t)) :
    Heads (.reserve mode grams other) s t := by
  obtain ⟨hbits, hrefs⟩ := withRaw_byte hmode hsuffix
  obtain ⟨amount, hamount, h⟩ := exec_bind_lift_eq_ok h
  obtain ⟨both, hboth, h⟩ := exec_bind_lift_eq_ok h
  obtain ⟨hbits', hrefs'⟩ := serializeCurrencyCollection_eq_ok hgrams hamount
  have hbuilds := LawfulViews.appendBuilder suffix amount
  refine heads_of_addAction (.reserve mode grams other) h ?_ ?_
  · rw [hbuilds.bits both hboth, hbits, hbits']
    rfl
  · rw [hbuilds.refs both hboth, hrefs, hrefs', Option.toList_none, List.append_nil]
    rfl

/-- The instruction puts the action of its operands in front of the list. -/
def Outputs (i : ActionInstruction) (s t : Engine) : Prop :=
  ∃ action, i.action s.cc.stack.reverse = some action ∧ action.InRange ∧ Heads action s t

section Outputs

variable {s t : Engine}

theorem outputs_sendrawmsg (h : exec executeSendrawmsg s = (.ok (), t)) : Outputs .sendrawmsg s t := by
  obtain ⟨e, items, hlength, rfl, h₁⟩ := fetched_of_ok h
  obtain ⟨c, m, rfl⟩ := List.length_eq_two.1 hlength
  obtain ⟨mode, hmode, hvar, h₂⟩ := exec_bind_indexVar_eq_ok h₁
  obtain rfl : m = .int mode := Option.some.inj hvar
  obtain ⟨_, hitem, h₃⟩ := exec_bind_var_eq_ok h₂
  obtain rfl : c = _ := Option.some.inj hitem
  obtain ⟨message, hcell, h₄⟩ := exec_bind_lift_eq_ok h₃
  obtain rfl := asCell_eq_ok hcell
  obtain ⟨suffix, hsuffix, h₅⟩ := exec_bind_lift_eq_ok h₄
  obtain ⟨hbits, hrefs⟩ := withRaw_byte (by omega) hsuffix
  have hheads := heads_of_addAction (.sendMsg mode message) h₅ hbits (by rw [hrefs]; rfl)
  refine ⟨.sendMsg mode message, ?_, hmode, hheads⟩
  rw [given, List.reverse_append]
  rfl

theorem outputs_setcode (h : exec executeSetcode s = (.ok (), t)) : Outputs .setcode s t := by
  obtain ⟨e, items, hlength, rfl, h₁⟩ := fetched_of_ok h
  obtain ⟨c, rfl⟩ := List.length_eq_one_iff.1 hlength
  obtain ⟨_, hitem, h₂⟩ := exec_bind_var_eq_ok h₁
  obtain rfl : c = _ := Option.some.inj hitem
  obtain ⟨code, hcell, h₃⟩ := exec_bind_lift_eq_ok h₂
  obtain rfl := asCell_eq_ok hcell
  obtain ⟨hbits, hrefs⟩ := LawfulViews.builderDefault
  have hheads := heads_of_addAction (.setCode code) h₃ hbits (by rw [hrefs]; rfl)
  refine ⟨.setCode code, ?_, trivial, hheads⟩
  rw [given, List.reverse_append]
  rfl

theorem outputs_rawreserve (h : exec executeRawreserve s = (.ok (), t)) : Outputs .rawreserve s t := by
  obtain ⟨e, items, hlength, rfl, h₁⟩ := fetched_of_ok h
  obtain ⟨x, y, rfl⟩ := List.length_eq_two.1 hlength
  obtain ⟨mode, hmode, hvar, h₂⟩ := exec_bind_indexVar_eq_ok h₁
  obtain rfl : y = .int mode := Option.some.inj hvar
  obtain ⟨suffix, hsuffix, h₃⟩ := exec_bind_lift_eq_ok h₂
  obtain ⟨_, hitem, h₄⟩ := exec_bind_var_eq_ok h₃
  obtain rfl : x = _ := Option.some.inj hitem
  obtain ⟨grams, hgrams, h₅⟩ := exec_bind_lift_eq_ok h₄
  obtain ⟨rfl, hlt⟩ := asGrams_eq_ok hgrams
  have hheads := heads_of_reserve (by omega) hlt hsuffix h₅
  refine ⟨.reserve mode grams none, ?_, ⟨hmode, hlt⟩, hheads⟩
  rw [given, List.reverse_append]
  rfl

theorem outputs_rawreservex (h : exec executeRawreservex s = (.ok (), t)) : Outputs .rawreservex s t := by
  obtain ⟨e, items, hlength, rfl, h₁⟩ := fetched_of_ok h
  obtain ⟨x, z, y, rfl⟩ := List.length_eq_three.1 hlength
  obtain ⟨mode, hmode, hvar, h₂⟩ := exec_bind_indexVar_eq_ok h₁
  obtain rfl : y = .int mode := Option.some.inj hvar
  obtain ⟨suffix, hsuffix, h₃⟩ := exec_bind_lift_eq_ok h₂
  obtain ⟨_, hitem, h₄⟩ := exec_bind_var_eq_ok h₃
  obtain rfl : z = _ := Option.some.inj hitem
  obtain ⟨other, hother, h₅⟩ := exec_bind_lift_eq_ok h₄
  obtain ⟨_, hitem', h₆⟩ := exec_bind_var_eq_ok h₅
  obtain rfl : x = _ := Option.some.inj hitem'
  obtain ⟨grams, hgrams, h₇⟩ := exec_bind_lift_eq_ok h₆
  obtain ⟨rfl, hlt⟩ := asGrams_eq_ok hgrams
  have hheads := heads_of_reserve (by omega) hlt hsuffix h₇
  refine ⟨.reserve mode grams other, ?_, ⟨hmode, hlt⟩, hheads⟩
  rw [given, List.reverse_append]
  cases z <;> cases hother <;> rfl

omit [Views] [LawfulViews] [LawfulPacking] [LawfulFinalize] [TonBlock] in
theorem exec_bind_checkCapability_eq_ok {α : Type} {capability : GlobalCapability} {k : M α} {a : α}
    (h : exec (do
      checkCapability capability
      k) s = (.ok a, t)) : exec k s = (.ok a, t) := by
  obtain ⟨_, u, hcheck, hk⟩ := exec_bind_eq_ok h
  unfold checkCapability at hcheck
  rw [exec_bind_get] at hcheck
  split at hcheck <;> cases hcheck
  exact hk

theorem outputs_changelib (h : exec executeChangelib s = (.ok (), t)) : Outputs .changelib s t := by
  obtain ⟨e, items, hlength, rfl, h₁⟩ := fetched_of_ok (exec_bind_checkCapability_eq_ok h)
  obtain ⟨x, y, rfl⟩ := List.length_eq_two.1 hlength
  obtain ⟨mode, hmode, hvar, h₂⟩ := exec_bind_indexVar_eq_ok h₁
  obtain rfl : y = .int mode := Option.some.inj hvar
  obtain ⟨_, hitem, h₃⟩ := exec_bind_var_eq_ok h₂
  obtain rfl : x = _ := Option.some.inj hitem
  obtain ⟨number, hnumber, h₄⟩ := exec_bind_lift_eq_ok h₃
  obtain rfl := asInteger_eq_ok hnumber
  obtain ⟨hash, hhash, h₅⟩ := exec_bind_lift_eq_ok h₄
  obtain ⟨byte, hbyte, h₆⟩ := exec_bind_lift_eq_ok h₅
  obtain ⟨suffix, hsuffix, h₇⟩ := exec_bind_lift_eq_ok h₆
  obtain ⟨v, rfl, hlt, hbits', hrefs'⟩ := asBuilder_hash_eq_ok hhash
  obtain ⟨hbits, hrefs⟩ := withRaw_byte (by omega) hbyte
  have hbuilds := LawfulViews.appendBuilder byte hash
  have hheads := heads_of_addAction (.changeLib mode v) h₇
    (by rw [hbuilds.bits suffix hsuffix, hbits, hbits']; rfl)
    (by rw [hbuilds.refs suffix hsuffix, hrefs, hrefs']; rfl)
  refine ⟨.changeLib mode v, ?_, ⟨hmode, hlt⟩, hheads⟩
  rw [given, List.reverse_append]
  rfl

theorem outputs_setlibcode (h : exec executeSetlibcode s = (.ok (), t)) : Outputs .setlibcode s t := by
  obtain ⟨e, items, hlength, rfl, h₁⟩ := fetched_of_ok (exec_bind_checkCapability_eq_ok h)
  obtain ⟨c, m, rfl⟩ := List.length_eq_two.1 hlength
  obtain ⟨mode, hmode, hvar, h₂⟩ := exec_bind_indexVar_eq_ok h₁
  obtain rfl : m = .int mode := Option.some.inj hvar
  obtain ⟨_, hitem, h₃⟩ := exec_bind_var_eq_ok h₂
  obtain rfl : c = _ := Option.some.inj hitem
  obtain ⟨library, hcell, h₄⟩ := exec_bind_lift_eq_ok h₃
  obtain rfl := asCell_eq_ok hcell
  obtain ⟨suffix, hsuffix, h₅⟩ := exec_bind_lift_eq_ok h₄
  obtain ⟨hbits, hrefs⟩ := withRaw_byte (by omega) hsuffix
  have hheads := heads_of_addAction (.setLibCode mode library) h₅ hbits (by rw [hrefs]; rfl)
  refine ⟨.setLibCode mode library, ?_, hmode, hheads⟩
  rw [given, List.reverse_append]
  rfl

theorem outputs_handler {i : ActionInstruction} (h : exec i.handler s = (.ok (), t)) :
    Outputs i s t := by
  cases i with
  | sendrawmsg => exact outputs_sendrawmsg h
  | setcode => exact outputs_setcode h
  | rawreserve => exact outputs_rawreserve h
  | rawreservex => exact outputs_rawreservex h
  | changelib => exact outputs_changelib h
  | setlibcode => exact outputs_setlibcode h

end Outputs

end Adding

/-! ### The list -/

section List

variable [Views] [TonBlock]

/-- The cell before the last action in the list, and that action. -/
def readCell (cell : Cell) : Option (Cell × Action) :=
  match TonTypes.loadCell cell with
  | .ok slice => Action.read (sliceBits slice) (sliceRefs slice)
  | .error _ => none

/-- The cell that `n` first references lead to, and the actions since it in their order. -/
def readList : Nat → Cell → Option (Cell × List Action)
  | 0, cell => some (cell, [])
  | n + 1, cell => do
    let (previous, action) ← readCell cell
    let (first, actions) ← readList n previous
    return (first, actions ++ [action])

/-- The instructions that have output an action on the way from an engine to another, each with the
stack it was executed on. Anything that leaves c5 as it is may happen between them. -/
inductive Executed (e : Engine) : List (ActionInstruction × Stack) → Engine → Prop
  | start : Executed e [] e
  | other {events s t} : Executed e events s → t.ctrls.get 5 = s.ctrls.get 5 → Executed e events t
  | step {events s t i} : Executed e events s → exec i.handler s = (.ok (), t) →
      Executed e (events ++ [(i, s.cc.stack)]) t

variable [Action.LawfulTags]

theorem readCell_of_heads {action : Action} (hrange : action.InRange) {s t : Engine}
    (h : Heads action s t) :
    ∃ c5 head, s.ctrls.get 5 = some (.cell c5) ∧ t.ctrls.get 5 = some (.cell head) ∧
      readCell head = some (c5, action) := by
  obtain ⟨c5, head, slice, hc5, hhead, hload, hbits, hrefs⟩ := h
  refine ⟨c5, head, hc5, hhead, ?_⟩
  unfold readCell
  rw [hload]
  simp only [hbits, hrefs]
  exact Action.read_bits hrange c5

/-- What the list says about the instructions since it had a given last cell. -/
def Lists (c5 : Cell) (events : List (ActionInstruction × Stack)) (t : Engine) : Prop :=
  ∃ actions cell, t.ctrls.get 5 = some (.cell cell) ∧
    events.mapM (fun event => event.1.action event.2.reverse) = some actions ∧
    readList events.length cell = some (c5, actions)

variable [LawfulViews] [LawfulPacking] [LawfulFinalize]

theorem lists_step {c5 : Cell} {events : List (ActionInstruction × Stack)} {s t : Engine}
    {i : ActionInstruction} (hs : Lists c5 events s) (h : exec i.handler s = (.ok (), t)) :
    Lists c5 (events ++ [(i, s.cc.stack)]) t := by
  obtain ⟨actions, cell, hcell, hactions, hread⟩ := hs
  obtain ⟨action, haction, hrange, hheads⟩ := outputs_handler h
  obtain ⟨previous, head, hprevious, hhead, hheadRead⟩ := readCell_of_heads hrange hheads
  obtain rfl : cell = previous := by
    rw [hcell] at hprevious
    cases hprevious
    rfl
  refine ⟨actions ++ [action], head, hhead, ?_, ?_⟩
  · rw [List.mapM_append, hactions]
    simp [haction]
  · rw [List.length_append, List.length_singleton, readList, hheadRead]
    simp [hread]

theorem lists_of_executed {c5 : Cell} {events : List (ActionInstruction × Stack)} {e t : Engine}
    (hc5 : e.ctrls.get 5 = some (.cell c5)) (h : Executed e events t) : Lists c5 events t := by
  induction h with
  | start => exact ⟨[], c5, hc5, rfl, rfl⟩
  | other _ hsame ih =>
    obtain ⟨actions, cell, hcell, hrest⟩ := ih
    exact ⟨actions, cell, hsame.trans hcell, hrest⟩
  | step _ hstep ih => exact lists_step ih hstep

/-- The list of output actions is only ever extended: after any instructions it leads back to the cell it
began with, and it reads as the actions of these instructions in their order. An instruction that fails
adds nothing to it. -/
theorem output_actions :
    (∀ (e t : Engine) (events : List (ActionInstruction × Stack)) (c5 : Cell),
      e.ctrls.get 5 = some (.cell c5) → Executed e events t →
        ∃ actions cell, t.ctrls.get 5 = some (.cell cell) ∧
          events.mapM (fun event => event.1.action event.2.reverse) = some actions ∧
          readList events.length cell = some (c5, actions)) ∧
    ∀ (i : ActionInstruction) (s t : Engine) (err : Error),
      exec i.handler s = (.error err, t) → t.ctrls = s.ctrls := by
  refine ⟨?_, ?_⟩
  · intro e t events c5 hc5 hexecuted
    exact lists_of_executed hc5 hexecuted
  · intro i s t err h
    exact (failsLeaving_handler i).out s err t h

end List

end Instructions

end Engine

namespace Plain

scoped instance lawfulTags : Action.LawfulTags where
  lt tag := by cases tag <;> decide
  injective a b h := by
    cases a <;> cases b <;> first | rfl | exact absurd h (by decide)

end Plain

open scoped Plain in
/-- A message is sent and then the code is set, and the list has both actions. -/
theorem Engine.output_actions_pair :
    ∃ s t c5 cell, Plain.idle.ctrls.get 5 = some (.cell c5) ∧
      exec executeSendrawmsg (Plain.idle.given [.cell (.mk .ordinary [true] []), .int 64]) = (.ok (), s) ∧
      exec executeSetcode (s.given [.cell (.mk .ordinary [] [])]) = (.ok (), t) ∧
      t.ctrls.get 5 = some (.cell cell) ∧
      readList 2 cell =
        some (c5, [.sendMsg 64 (.mk .ordinary [true] []), .setCode (.mk .ordinary [] [])]) := by
  have hruns : ∃ s t,
      exec executeSendrawmsg (Plain.idle.given [.cell (.mk .ordinary [true] []), .int 64]) = (.ok (), s) ∧
      exec executeSetcode (s.given [.cell (.mk .ordinary [] [])]) = (.ok (), t) ∧
      (s.given [.cell (.mk .ordinary [] [])]).cc.stack = [.cell (.mk .ordinary [] [])] :=
    ⟨_, _, rfl, rfl, rfl⟩
  obtain ⟨s, t, hsent, hset, hstack⟩ := hruns
  have hgiven : Executed _ _ (s.given [.cell (.mk .ordinary [] [])]) :=
    .other (.step (i := .sendrawmsg) .start hsent) rfl
  have hexecuted := hgiven.step (i := .setcode) hset
  obtain ⟨actions, cell, hcell, hactions, hread⟩ := output_actions.1 _ t _ _ rfl hexecuted
  rw [hstack] at hactions
  cases hactions
  exact ⟨s, t, _, cell, rfl, hsent, hset, hcell, hread⟩

end TonVm
