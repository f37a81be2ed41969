import TonVm.Proof.DictionaryOrder

/-!
# Quiet stores

A quiet store that cannot store its value pushes the operands back with a code. All of them share one
routine, which takes the operands from the variables of the instruction. `STBREFQ` and `STBREFRQ` have
moved the inner builder out of its variable by then, and push an empty builder in its place.
-/

namespace TonVm

open ExecLib

/-- What the packages do with references, and with a slice as a builder. -/
class LawfulReferences [TonTypes] [Views] : Prop where
  withReference : ∀ cell : Cell, ∃ builder, TonTypes.withRawAndRefs [] 0 [cell] = .ok builder ∧
    builderBits builder = [] ∧ builderRefs builder = [cell]
  sliceAsBuilder : ∀ slice : SliceData, builderBits (TonTypes.sliceAsBuilder slice) = sliceBits slice ∧
    builderRefs (TonTypes.sliceAsBuilder slice) = sliceRefs slice

namespace Engine

section Routine

variable [TonTypes] {s : Engine} {index : Nat} {b : BuilderData} {finalize : Bool}

/-! ### The shared routine -/

/-- What the routine pushes for a result other than success. -/
theorem exec_pushBack {front : List StackItem} {first second : StackItem}
    (hvars : s.cmd.vars = front ++ [second, first]) {result : Int}
    (hresult : StackItem.checkedInt result = .ok (.int result)) :
    exec (do
      let len := (← get).varCount
      push (← var (len - 1))
      push (← var (len - 2))
      pushInt result) s = (.ok (), s.given [first, second, .int result]) := by
  have hcount : s.varCount = front.length + 2 := by
    show s.cmd.vars.length = _
    rw [hvars, List.length_append]
    rfl
  have hlast : s.cmd.vars[s.varCount - 1]? = some first := by
    rw [hvars, hcount]
    simp
  have hsecond : (s.given [first]).cmd.vars[s.varCount - 2]? = some second := by
    show s.cmd.vars[s.varCount - 2]? = some second
    rw [hvars, hcount]
    simp
  unfold pushInt
  rw [exec_bind_get]
  dsimp only
  rw [exec_bind_ok (exec_var _ hlast), exec_bind_ok (exec_push_given first),
    exec_bind_ok (exec_var _ hsecond), exec_bind_ok (exec_push_given second), hresult, lift_ok,
    exec_bind_pure, exec_push_given, given_given, given_given]
  rfl

theorem exec_storeData_error {front : List StackItem} {first second : StackItem}
    (hvars : s.cmd.vars = front ++ [second, first]) (failure : Failure) :
    exec (storeData index (.error failure) true finalize) s =
      (.ok (), s.given [first, second, .int 1]) := by
  unfold storeData
  dsimp only
  rw [if_pos rfl, exec_bind_pure, if_pos (by decide)]
  exact exec_pushBack hvars rfl

theorem exec_storeData_full {front : List StackItem} {first second : StackItem} {y : BuilderData}
    (hvars : s.cmd.vars = front ++ [second, first]) (hb : s.cmd.vars[index]? = some (.builder b))
    (hroom : TonTypes.canAppend b y = false) :
    exec (storeData index (.ok y) true finalize) s = (.ok (), s.given [first, second, .int (-1)]) := by
  have hbuilder : (StackItem.builder b).asBuilder = .ok b := rfl
  unfold storeData
  dsimp only
  rw [exec_bind_ok (exec_var _ hb), hbuilder, lift_ok, exec_bind_pure, hroom,
    if_neg Bool.false_ne_true, if_pos rfl, exec_bind_pure, if_pos (by decide)]
  exact exec_pushBack hvars rfl

theorem exec_storeData_stored {y b' : BuilderData} (hb : s.cmd.vars[index]? = some (.builder b))
    (hroom : TonTypes.canAppend b y = true) (happend : TonTypes.appendBuilder b y = .ok b')
    (hgas : finalize = true → Gas.finalizePrice ≤ s.gas.gasRemaining) :
    ∃ t, exec (storeData index (.ok y) true finalize) s = (.ok (), t) ∧
      t.cc.stack = s.cc.stack ++ [.builder b', .int 0] := by
  have hbuilder : (StackItem.builder b).asBuilder = .ok b := rfl
  have hpushes (u : Engine) : exec (do
      push (.builder b')
      push (.int 0)) u = (.ok (), u.given [.builder b', .int 0]) := by
    rw [exec_bind_ok (exec_push_given _), exec_push_given, given_given]
    rfl
  unfold storeData
  dsimp only
  rw [exec_bind_ok (exec_var _ hb), hbuilder, lift_ok, exec_bind_pure, if_pos hroom, happend, lift_ok,
    exec_bind_pure]
  cases finalize with
  | false => exact ⟨_, hpushes s, rfl⟩
  | true =>
    refine ⟨(s.pay Gas.finalizePrice).given [.builder b', .int 0], ?_, rfl⟩
    rw [if_pos rfl, exec_bind_ok (exec_tryUseGas (hgas rfl))]
    exact hpushes _

end Routine

/-! ### The instructions -/

inductive StoreKind where
  | sti
  | stu
  | stix
  | stux
  | stref
  | stbref
  | stslice
  | stb
  deriving DecidableEq

namespace StoreKind

/-- The mask of the quiet instructions. -/
def mask (reversed : Bool) : UInt8 :=
  if reversed then StoreMask.INV ||| StoreMask.QUIET else StoreMask.QUIET

theorem bit_mask_inv (reversed : Bool) : UInt8.bit (mask reversed) StoreMask.INV = reversed := by
  cases reversed <;> rfl

theorem bit_mask_quiet (reversed : Bool) : UInt8.bit (mask reversed) StoreMask.QUIET = true := by
  cases reversed <;> rfl

section Instructions

variable [TonTypes]

/-- The quiet instruction, with its operands in the usual order or reversed. -/
def handler : StoreKind → Bool → M Unit
  | sti, false => executeStiq
  | sti, true => executeStirq
  | stu, false => executeStuq
  | stu, true => executeSturq
  | stix, false => executeStixq
  | stix, true => executeStixrq
  | stux, false => executeStuxq
  | stux, true => executeStuxrq
  | stref, false => executeStrefq
  | stref, true => executeStrefrq
  | stbref, false => executeStbrefq
  | stbref, true => executeStbrefrq
  | stslice, false => executeStsliceq
  | stslice, true => executeStslicerq
  | stb, false => executeStbq
  | stb, true => executeStbrq

/-- The form of the operands in the code. -/
def options : StoreKind → Option InstructionOptions
  | sti | stu => some (.lengthMinusOne 0 256)
  | _ => none

/-- A length that the instruction accepts: the one in the code, one below a bound, or none. -/
def TakesLength (s : Engine) (len : Nat) : StoreKind → Prop
  | sti | stu => lengthRaw s.cmd = some len
  | stix => len ≤ 257
  | stux => len ≤ 256
  | _ => len = 0

/-- The length on the stack. -/
def lengthArg (len : Nat) : StoreKind → Stack
  | stix | stux => [.int len]
  | _ => []

/-- The value and the builder, as they are on the stack. -/
def operands (reversed : Bool) (value : StackItem) (b : BuilderData) : Stack :=
  if reversed then [.builder b, value] else [value, .builder b]

/-- The type of the value that an instruction stores. -/
inductive WellTyped : StoreKind → StackItem → Prop
  | sti (x : IntegerData) : WellTyped sti (.integer x)
  | stu (x : IntegerData) : WellTyped stu (.integer x)
  | stix (x : IntegerData) : WellTyped stix (.integer x)
  | stux (x : IntegerData) : WellTyped stux (.integer x)
  | stref (cell : Cell) : WellTyped stref (.cell cell)
  | stbref (x : BuilderData) : WellTyped stbref (.builder x)
  | stslice (slice : SliceData) : WellTyped stslice (.slice slice)
  | stb (x : BuilderData) : WellTyped stb (.builder x)

def isSigned : StoreKind → Bool
  | sti | stix => true
  | _ => false

/-- The bits and references that the instruction is to add for a value. An integer has them only where
it is in the range of the length. -/
def Adds [Views] (len : Nat) : StoreKind → StackItem → List Bool → List Cell → Prop
  | sti, .integer x, bits, refs | stix, .integer x, bits, refs => ∃ v, x = .value v ∧
    Encoding.signedBigEndian.Range len v ∧ bits = Plain.bitsOf len (v % 2 ^ len).toNat ∧ refs = []
  | stu, .integer x, bits, refs | stux, .integer x, bits, refs => ∃ v, x = .value v ∧
    Encoding.unsignedBigEndian.Range len v ∧ bits = Plain.bitsOf len (v % 2 ^ len).toNat ∧ refs = []
  | stref, .cell cell, bits, refs => bits = [] ∧ refs = [cell]
  | stbref, .builder x, bits, refs =>
    ∃ cell, TonTypes.builderIntoCell x = .ok cell ∧ bits = [] ∧ refs = [cell]
  | stslice, .slice slice, bits, refs => bits = sliceBits slice ∧ refs = sliceRefs slice
  | stb, .builder x, bits, refs => bits = builderBits x ∧ refs = builderRefs x
  | _, _, _, _ => False

/-- There is room for more bits and references in a builder. -/
def HasRoom [Views] (b : BuilderData) (bits : List Bool) (refs : List Cell) : Prop :=
  (builderBits b).length + bits.length ≤ 1023 ∧ (builderRefs b).length + refs.length ≤ 4

/-- The outcome of a quiet store over a stack: the longer builder, or the operands, with a code. -/
inductive Outcome [Views] (kind : StoreKind) (reversed : Bool) (len : Nat) (value : StackItem)
    (b : BuilderData) (stack final : Stack) : Prop
  | stored (bits : List Bool) (refs : List Cell) (b' : BuilderData)
    (adds : kind.Adds len value bits refs) (room : HasRoom b bits refs)
    (bits_eq : builderBits b' = builderBits b ++ bits)
    (refs_eq : builderRefs b' = builderRefs b ++ refs)
    (final_eq : final = stack ++ [.builder b', .int 0])
  | full (bits : List Bool) (refs : List Cell) (adds : kind.Adds len value bits refs)
    (room : ¬HasRoom b bits refs)
    (final_eq : final = stack ++ (operands reversed value b ++ [.int (-1)]))
  | unfit (adds : ∀ bits refs, ¬kind.Adds len value bits refs)
    (final_eq : final = stack ++ (operands reversed value b ++ [.int 1]))

/-- The stores that do what is documented: no signed zero of no bits, and an inner builder that makes a
cell and, where there is no room for it, is empty. -/
def GivesBack [Views] (kind : StoreKind) (len : Nat) (value : StackItem) (b : BuilderData) : Prop :=
  (kind.isSigned = true → value = .int 0 → len ≠ 0) ∧
    ∀ x, kind = stbref → value = .builder x → ∃ cell, TonTypes.builderIntoCell x = .ok cell ∧
      (HasRoom b [] [cell] ∨ x = TonTypes.builderDefault)

/-- The builder that the routine appends. -/
def payload (len : Nat) : StoreKind → StackItem → Except Failure BuilderData
  | sti, .integer x | stix, .integer x => x.asBuilder .signedBigEndian len
  | stu, .integer x | stux, .integer x => x.asBuilder .unsignedBigEndian len
  | stref, .cell cell => TonTypes.withRawAndRefs [] 0 [cell]
  | stbref, .builder x => do TonTypes.withRawAndRefs [] 0 [← TonTypes.builderIntoCell x]
  | stslice, .slice slice => .ok (TonTypes.sliceAsBuilder slice)
  | stb, .builder x => .ok x
  | _, _ => .error (.code .typeCheckError)

/-- What is in the variable of the value when the routine starts. -/
def left : StoreKind → StackItem → StackItem
  | stbref, _ => .builder TonTypes.builderDefault
  | _, value => value

/-- The variable of the builder. -/
def builderVar (kind : StoreKind) (reversed : Bool) : Nat :=
  (kind.lengthArg 0).length + reversed.toNat

theorem exec_storeOperands {α : Type} {s : Engine} {how : UInt8} {read : StackItem → Except Failure α}
    {reversed : Bool} {value : StackItem} {b : BuilderData} {x : α}
    (hhow : UInt8.bit how StoreMask.INV = reversed)
    (hvars : s.cmd.vars = (operands reversed value b).reverse) (hread : read value = .ok x) :
    exec (storeOperands how read) s = (.ok (x, reversed.toNat), s) := by
  have hbuilder : (StackItem.builder b).asBuilder = .ok b := rfl
  unfold storeOperands
  cases reversed with
  | false =>
    have h0 : s.cmd.vars[0]? = some (.builder b) := by
      rw [hvars]
      rfl
    have h1 : s.cmd.vars[1]? = some value := by
      rw [hvars]
      rfl
    rw [hhow, if_neg Bool.false_ne_true, exec_bind_ok (exec_var _ h0), hbuilder, lift_ok,
      exec_bind_pure, exec_bind_ok (exec_var _ h1), hread]
    rfl
  | true =>
    have h0 : s.cmd.vars[0]? = some value := by
      rw [hvars]
      rfl
    have h1 : s.cmd.vars[1]? = some (.builder b) := by
      rw [hvars]
      rfl
    rw [hhow, if_pos rfl, exec_bind_ok (exec_var _ h0), hread, lift_ok,
      exec_bind_pure, exec_bind_ok (exec_var _ h1), hbuilder]
    rfl

section Handler

variable {e s : Engine} {how : UInt8} {reversed : Bool} {stack : Stack} {value : StackItem}
  {b : BuilderData} {len : Nat}

/-- The state in which the instruction has taken its arguments. -/
def holdingArgs (s : Engine) (stack args : Stack) : Engine :=
  s.holding { s.cc with stack } s.ctrls args.reverse

theorem exec_fetchOperands (h : Loaded e s)
    (hstack : e.cc.stack = stack ++ operands reversed value b) :
    exec (fetchStack 2) s = (.ok (), holdingArgs s stack (operands reversed value b)) := by
  have hlen : (operands reversed value b).length = 2 := by
    cases reversed <;> rfl
  rw [← hlen]
  exact h.exec_fetchStack _ hstack

/-- An instruction without a length reads its two operands. -/
theorem exec_twoOperands {α : Type} {read : StackItem → Except Failure α} {k : α × Nat → M Unit}
    {x : α} (hhow : UInt8.bit how StoreMask.INV = reversed) (hread : read value = .ok x)
    (hload : exec loadInstruction e = (.ok (), s))
    (hstack : e.cc.stack = stack ++ operands reversed value b) :
    exec (do
      loadInstruction
      fetchStack 2
      let found ← storeOperands how read
      k found) e = exec (k (x, reversed.toNat)) (holdingArgs s stack (operands reversed value b)) := by
  rw [exec_bind_ok hload, exec_bind_ok (exec_fetchOperands (loaded_of_none _ hload) hstack),
    exec_bind_ok (exec_storeOperands hhow rfl hread)]

theorem loaded_of_lengthMinusOne
    (h : exec (loadInstruction (some (.lengthMinusOne 0 256))) e = (.ok (), s)) :
    Loaded e s ∧ ∃ len, lengthRaw s.cmd = some len ∧ 1 ≤ len ∧ len ≤ 256 := by
  unfold loadInstruction at h
  rw [exec_bind_modify] at h
  dsimp only [extractInstruction] at h
  obtain ⟨len, _, hlength, hrest⟩ := exec_bind_eq_ok h
  unfold extractLengthMinusOne at hlength
  rw [if_neg (by decide), if_pos rfl] at hlength
  obtain ⟨byte, _, hnext, hpure⟩ := exec_bind_eq_ok hlength
  obtain ⟨code, -, rfl⟩ := exec_nextCmd_eq_ok hnext
  cases hpure
  cases hrest
  have hbyte := UInt8.toNat_lt byte
  exact ⟨⟨rfl, rfl⟩, byte.toNat + 1, rfl, by omega, by omega⟩

theorem exec_store (encoding : Encoding) {x : IntegerData}
    (hhow : UInt8.bit how StoreMask.INV = reversed) (hquiet : UInt8.bit how StoreMask.QUIET = true)
    (hload : exec (loadInstruction (some (.lengthMinusOne 0 256))) e = (.ok (), s))
    (hlen : lengthRaw s.cmd = some len)
    (hstack : e.cc.stack = stack ++ operands reversed (.integer x) b) :
    exec (store encoding how) e = exec (storeData reversed.toNat (x.asBuilder encoding len) true false)
      (holdingArgs s stack (operands reversed (.integer x) b)) := by
  have hparam : exec (param lengthRaw) (holdingArgs s stack (operands reversed (.integer x) b)) =
      (.ok len, holdingArgs s stack (operands reversed (.integer x) b)) := by
    unfold param
    rw [exec_bind_get]
    have hcmd : lengthRaw (holdingArgs s stack (operands reversed (.integer x) b)).cmd = some len :=
      hlen
    rw [hcmd]
    rfl
  have hread : (StackItem.integer x).asInteger = .ok x := rfl
  unfold store
  rw [exec_bind_ok hload, exec_bind_ok (exec_fetchOperands (loaded_of_lengthMinusOne hload).1 hstack),
    exec_bind_ok hparam, exec_bind_ok (exec_storeOperands hhow rfl hread), hquiet]

theorem exec_storeX (encoding : Encoding) {x : IntegerData} {limit : Nat}
    (hhow : UInt8.bit how StoreMask.INV = reversed) (hquiet : UInt8.bit how StoreMask.QUIET = true)
    (hload : exec loadInstruction e = (.ok (), s)) (hlen : len ≤ limit)
    (hstack : e.cc.stack = stack ++ (operands reversed (.integer x) b ++ [.int len])) :
    exec (storeX encoding how limit) e =
      exec (storeData (1 + reversed.toNat) (x.asBuilder encoding len) true false)
        (holdingArgs s stack (operands reversed (.integer x) b ++ [.int len])) := by
  have hlength : (StackItem.int len).asInteger = .ok (.value len) := rfl
  have hinto : (IntegerData.value len).intoUsize 0 limit = .ok len :=
    IntegerData.intoUsize_natCast hlen
  have hbuilder : (StackItem.builder b).asBuilder = .ok b := rfl
  have hread : (StackItem.integer x).asInteger = .ok x := rfl
  have hloaded := loaded_of_none _ hload
  unfold storeX
  rw [exec_bind_ok hload, hquiet, hhow]
  cases reversed with
  | false =>
    rw [exec_bind_ok (hloaded.exec_fetchStack_three hstack), exec_bind_ok (exec_var _ rfl), hlength,
      lift_ok, exec_bind_pure]
    rw [if_neg Bool.false_ne_true, exec_bind_ok (exec_var _ rfl), hbuilder, lift_ok, exec_bind_pure,
      exec_bind_ok (exec_var _ rfl), hread, lift_ok, exec_bind_pure, hinto]
    rfl
  | true =>
    rw [exec_bind_ok (hloaded.exec_fetchStack_three hstack), exec_bind_ok (exec_var _ rfl), hlength,
      lift_ok, exec_bind_pure]
    rw [if_pos rfl, exec_bind_ok (exec_var _ rfl), hread, lift_ok, exec_bind_pure,
      exec_bind_ok (exec_var _ rfl), hbuilder, lift_ok, exec_bind_pure, hinto]
    rfl

theorem exec_storeB {x : BuilderData} (hhow : UInt8.bit how StoreMask.INV = reversed)
    (hquiet : UInt8.bit how StoreMask.QUIET = true) (hload : exec loadInstruction e = (.ok (), s))
    (hstack : e.cc.stack = stack ++ operands reversed (.builder x) b) :
    exec (storeB how) e = exec (storeData reversed.toNat (.ok x) true false)
      (holdingArgs s stack (operands reversed (.builder x) b)) := by
  have hread : (StackItem.builder x).asBuilder = .ok x := rfl
  unfold storeB
  rw [exec_twoOperands hhow hread hload hstack, hquiet]

theorem exec_storeR {cell : Cell} (hhow : UInt8.bit how StoreMask.INV = reversed)
    (hquiet : UInt8.bit how StoreMask.QUIET = true) (hload : exec loadInstruction e = (.ok (), s))
    (hstack : e.cc.stack = stack ++ operands reversed (.cell cell) b) :
    exec (storeR how) e =
      exec (storeData reversed.toNat (TonTypes.withRawAndRefs [] 0 [cell]) true false)
        (holdingArgs s stack (operands reversed (.cell cell) b)) := by
  have hread : (StackItem.cell cell).asCell = .ok cell := rfl
  unfold storeR
  rw [exec_twoOperands hhow hread hload hstack, hquiet]

theorem exec_storeS {slice : SliceData} (hhow : UInt8.bit how StoreMask.INV = reversed)
    (hquiet : UInt8.bit how StoreMask.QUIET = true) (hload : exec loadInstruction e = (.ok (), s))
    (hstack : e.cc.stack = stack ++ operands reversed (.slice slice) b) :
    exec (storeS how) e =
      exec (storeData reversed.toNat (.ok (TonTypes.sliceAsBuilder slice)) true false)
        (holdingArgs s stack (operands reversed (.slice slice) b)) := by
  have hread : (StackItem.slice slice).asSlice = .ok slice := rfl
  unfold storeS
  rw [exec_twoOperands hhow hread hload hstack, hquiet]

theorem exec_storeBr {x : BuilderData} (hhow : UInt8.bit how StoreMask.INV = reversed)
    (hquiet : UInt8.bit how StoreMask.QUIET = true) (hload : exec loadInstruction e = (.ok (), s))
    (hstack : e.cc.stack = stack ++ operands reversed (.builder x) b) :
    exec (storeBr how) e = exec (do
      let cell ← Engine.lift (TonTypes.builderIntoCell x)
      storeData reversed.toNat (TonTypes.withRawAndRefs [] 0 [cell]) true true)
      (holdingArgs s stack (operands reversed (.builder TonTypes.builderDefault) b)) := by
  have hread : (StackItem.builder x).asBuilder = .ok x := rfl
  have hmoved : exec (setVar (1 - reversed.toNat) (.builder TonTypes.builderDefault))
      (holdingArgs s stack (operands reversed (.builder x) b)) =
        (.ok (), holdingArgs s stack (operands reversed (.builder TonTypes.builderDefault) b)) := by
    cases reversed with
    | false => exact exec_setVar _ (show 1 < 2 by decide) _
    | true => exact exec_setVar _ (show 0 < 2 by decide) _
  unfold storeBr
  rw [exec_twoOperands hhow hread hload hstack, hquiet]
  dsimp only
  rw [exec_bind_ok hmoved]

theorem handler_eq (kind : StoreKind) (reversed : Bool) : kind.handler reversed =
    match kind with
    | sti => store .signedBigEndian (mask reversed)
    | stu => store .unsignedBigEndian (mask reversed)
    | stix => storeX .signedBigEndian (mask reversed) 257
    | stux => storeX .unsignedBigEndian (mask reversed) 256
    | stref => storeR (mask reversed)
    | stbref => storeBr (mask reversed)
    | stslice => storeS (mask reversed)
    | stb => storeB (mask reversed) := by
  cases kind <;> cases reversed <;> rfl

/-- Every instruction ends in the shared routine, with its operands in the variables. -/
theorem exec_handler (kind : StoreKind) (hload : exec (loadInstruction kind.options) e = (.ok (), s))
    (hstack : e.cc.stack = stack ++ (operands reversed value b ++ kind.lengthArg len))
    (hlen : kind.TakesLength s len) (htyped : kind.WellTyped value)
    (hcell : ∀ x, kind = stbref → value = .builder x → ∃ cell, TonTypes.builderIntoCell x = .ok cell) :
    exec (kind.handler reversed) e =
      exec (storeData (kind.builderVar reversed) (kind.payload len value) true (decide (kind = stbref)))
        (holdingArgs s stack (operands reversed (kind.left value) b ++ kind.lengthArg len)) := by
  have hinv := bit_mask_inv reversed
  have hquiet := bit_mask_quiet reversed
  rw [handler_eq]
  cases htyped with
  | sti x =>
    simp only [lengthArg, List.append_nil] at hstack
    rw [exec_store .signedBigEndian hinv hquiet hload hlen hstack]
    simp [builderVar, lengthArg, payload, left]
  | stu x =>
    simp only [lengthArg, List.append_nil] at hstack
    rw [exec_store .unsignedBigEndian hinv hquiet hload hlen hstack]
    simp [builderVar, lengthArg, payload, left]
  | stix x =>
    rw [exec_storeX .signedBigEndian hinv hquiet hload hlen hstack]
    simp [builderVar, lengthArg, payload, left]
  | stux x =>
    rw [exec_storeX .unsignedBigEndian hinv hquiet hload hlen hstack]
    simp [builderVar, lengthArg, payload, left]
  | stref cell =>
    simp only [lengthArg, List.append_nil] at hstack
    rw [exec_storeR hinv hquiet hload hstack]
    simp [builderVar, lengthArg, payload, left]
  | stslice slice =>
    simp only [lengthArg, List.append_nil] at hstack
    rw [exec_storeS hinv hquiet hload hstack]
    simp [builderVar, lengthArg, payload, left]
  | stb x =>
    simp only [lengthArg, List.append_nil] at hstack
    rw [exec_storeB hinv hquiet hload hstack]
    simp [builderVar, lengthArg, payload, left]
  | stbref x =>
    obtain ⟨cell, hok⟩ := hcell x rfl rfl
    simp only [lengthArg, List.append_nil] at hstack
    rw [exec_storeBr hinv hquiet hload hstack, hok, lift_ok, exec_bind_pure]
    simp [builderVar, lengthArg, payload, left, hok, bind, Except.bind]

theorem width_of_takesLength {kind : StoreKind}
    (hload : exec (loadInstruction kind.options) e = (.ok (), s)) (hlen : kind.TakesLength s len) :
    (keyEncoding kind.isSigned).Width len := by
  have hcode (hload : exec (loadInstruction (some (.lengthMinusOne 0 256))) e = (.ok (), s))
      (hlen : lengthRaw s.cmd = some len) : len ≤ 256 := by
    obtain ⟨-, _, hraw, -, hle⟩ := loaded_of_lengthMinusOne hload
    rw [hlen] at hraw
    cases hraw
    exact hle
  cases kind with
  | sti => exact (hcode hload hlen).trans (by decide)
  | stu => exact hcode hload hlen
  | stix => exact hlen
  | stux => exact hlen
  | stref | stbref | stslice | stb => exact le_of_eq_of_le hlen (by decide)

/-- The variables of an instruction, as the routine uses them. -/
theorem exists_vars (kind : StoreKind) (reversed : Bool) (item : StackItem) :
    ∃ front first second, operands reversed item b = [first, second] ∧
      (holdingArgs s stack (operands reversed item b ++ kind.lengthArg len)).cmd.vars =
        front ++ [second, first] ∧
      (holdingArgs s stack (operands reversed item b ++ kind.lengthArg len)).cmd.vars[
        kind.builderVar reversed]? = some (.builder b) := by
  cases reversed with
  | false =>
    refine ⟨(kind.lengthArg len).reverse, item, .builder b, rfl, List.reverse_append, ?_⟩
    cases kind <;> rfl
  | true =>
    refine ⟨(kind.lengthArg len).reverse, .builder b, item, rfl, List.reverse_append, ?_⟩
    cases kind <;> rfl

theorem left_eq {kind : StoreKind} (h : kind = stbref → value = .builder TonTypes.builderDefault) :
    kind.left value = value := by
  cases kind with
  | stbref => exact (h rfl).symm
  | _ => rfl

theorem operands_inj {item item' : StackItem} {code code' : Int}
    (h : stack ++ (operands reversed item b ++ [.int code]) =
      stack ++ (operands reversed item' b ++ [.int code'])) : item = item' ∧ code = code' := by
  have h := List.append_cancel_left h
  cases reversed with
  | false =>
    injection h with hitem hrest
    injection hrest with _ hrest
    injection hrest with hcode
    injection hcode with hcode
    injection hcode with hcode
    exact ⟨hitem, hcode⟩
  | true =>
    injection h with _ hrest
    injection hrest with hitem hrest
    injection hrest with hcode
    injection hcode with hcode
    injection hcode with hcode
    exact ⟨hitem, hcode⟩

end Handler

/-! ### What is added -/

section Laws

variable [Views] [LawfulViews] {e s : Engine} {reversed : Bool} {stack : Stack} {value : StackItem}
  {b : BuilderData} {len : Nat}

/-- An integer is written where it is in the range; a signed one of no bits never is. -/
theorem asBuilder_cases (signed : Bool) (hwidth : (keyEncoding signed).Width len) {x : IntegerData}
    (hzero : signed = true → x = .value 0 → len ≠ 0) :
    (∃ y v, x.asBuilder (keyEncoding signed) len = .ok y ∧ x = .value v ∧
      (keyEncoding signed).Range len v ∧ builderBits y = Plain.bitsOf len (v % 2 ^ len).toNat ∧
      builderRefs y = []) ∨
    (∃ failure, x.asBuilder (keyEncoding signed) len = .error failure ∧
      ∀ v, x = .value v → ¬(keyEncoding signed).Range len v) := by
  cases x with
  | nan => exact .inr ⟨_, rfl, nofun⟩
  | value v =>
    have hrange : (keyEncoding signed).Fits len v ↔ (keyEncoding signed).Range len v := by
      by_cases hn : (keyEncoding signed).isSigned = true ∧ len = 0
      · obtain ⟨hsigned, rfl⟩ := hn
        have hbit : signed = true := by
          cases signed
          · cases hsigned
          · rfl
        refine iff_of_false (Encoding.not_fits_zero hsigned v) ?_
        intro hv
        obtain rfl := Encoding.eq_zero_of_range_zero hsigned hv
        exact hzero hbit rfl rfl
      · exact Encoding.fits_iff_range _ len v fun hsigned hlen => hn ⟨hsigned, hlen⟩
    by_cases hfits : (keyEncoding signed).Fits len v
    · obtain ⟨y, hok, hbits, hrefs, -⟩ := exists_asBuilder (Encoding.width_le hwidth) hfits
      exact .inl ⟨y, v, hok, rfl, hrange.1 hfits, hbits, hrefs⟩
    · obtain ⟨failure, herr⟩ := asBuilder_of_not_fits hfits
      refine .inr ⟨failure, herr, ?_⟩
      rintro _ ⟨⟩ hv
      exact hfits (hrange.2 hv)

/-! ### The outcomes -/

section Outcomes

variable {kind : StoreKind} (hload : exec (loadInstruction kind.options) e = (.ok (), s))
  (hstack : e.cc.stack = stack ++ (operands reversed value b ++ kind.lengthArg len))
  (hlen : kind.TakesLength s len) (htyped : kind.WellTyped value)
  (hcell : ∀ x, kind = stbref → value = .builder x → ∃ cell, TonTypes.builderIntoCell x = .ok cell)

include hload hstack hlen htyped hcell

omit [Views] [LawfulViews] in
theorem exec_handler_unfit {failure : Failure} (hpayload : kind.payload len value = .error failure) :
    ∃ t, exec (kind.handler reversed) e = (.ok (), t) ∧
      t.cc.stack = stack ++ (operands reversed (kind.left value) b ++ [.int 1]) := by
  obtain ⟨front, first, second, hops, hvars, -⟩ := exists_vars kind reversed (kind.left value)
  rw [exec_handler kind hload hstack hlen htyped hcell, hpayload, exec_storeData_error hvars, hops]
  exact ⟨_, rfl, rfl⟩

theorem exec_handler_full {y : BuilderData} (hpayload : kind.payload len value = .ok y)
    (hroom : ¬HasRoom b (builderBits y) (builderRefs y)) :
    ∃ t, exec (kind.handler reversed) e = (.ok (), t) ∧
      t.cc.stack = stack ++ (operands reversed (kind.left value) b ++ [.int (-1)]) := by
  have hfull : TonTypes.canAppend b y = false := by
    rw [← Bool.not_eq_true, LawfulViews.canAppend]
    exact hroom
  obtain ⟨front, first, second, hops, hvars, hb⟩ := exists_vars kind reversed (kind.left value)
  rw [exec_handler kind hload hstack hlen htyped hcell, hpayload, exec_storeData_full hvars hb hfull,
    hops]
  exact ⟨_, rfl, rfl⟩

theorem exec_handler_stored {y : BuilderData} (hpayload : kind.payload len value = .ok y)
    (hroom : HasRoom b (builderBits y) (builderRefs y))
    (hgas : kind = stbref → Gas.finalizePrice ≤ s.gas.gasRemaining) :
    ∃ t b', exec (kind.handler reversed) e = (.ok (), t) ∧
      t.cc.stack = stack ++ [.builder b', .int 0] ∧ builderBits b' = builderBits b ++ builderBits y ∧
      builderRefs b' = builderRefs b ++ builderRefs y := by
  obtain ⟨b', happend, hbits, hrefs⟩ := (LawfulViews.appendBuilder b y).exists hroom
  obtain ⟨front, first, second, -, -, hb⟩ := exists_vars kind reversed (kind.left value)
  obtain ⟨t, hexec, hfinal⟩ := exec_storeData_stored hb ((LawfulViews.canAppend b y).2 hroom) happend
    fun hkind => hgas (of_decide_eq_true hkind)
  rw [exec_handler kind hload hstack hlen htyped hcell, hpayload]
  exact ⟨t, b', hexec, hfinal, hbits, hrefs⟩

end Outcomes

variable [LawfulReferences]

/-- The routine gets a builder with what is to be added, or an integer out of the range. -/
theorem payload_cases {kind : StoreKind} (htyped : kind.WellTyped value)
    (hwidth : (keyEncoding kind.isSigned).Width len)
    (hzero : kind.isSigned = true → value = .int 0 → len ≠ 0)
    (hcell : ∀ x, kind = stbref → value = .builder x → ∃ cell, TonTypes.builderIntoCell x = .ok cell) :
    (∃ y, kind.payload len value = .ok y ∧ kind.Adds len value (builderBits y) (builderRefs y)) ∨
    (∃ failure, kind.payload len value = .error failure ∧
      ∀ bits refs, ¬kind.Adds len value bits refs) := by
  have hint (x : IntegerData) (hvalue : value = .integer x) :
      kind.isSigned = true → x = .value 0 → len ≠ 0 := by
    rintro hsigned rfl
    exact hzero hsigned hvalue
  cases htyped with
  | sti x | stu x | stix x | stux x =>
    rcases asBuilder_cases _ hwidth (hint x rfl) with ⟨y, v, hok, hadds⟩ | ⟨failure, herr, hnone⟩
    · exact .inl ⟨y, hok, v, hadds⟩
    · refine .inr ⟨failure, herr, ?_⟩
      rintro bits refs ⟨v, hv, hrange, -⟩
      exact hnone v hv hrange
  | stref cell =>
    obtain ⟨y, hok, hbits, hrefs⟩ := LawfulReferences.withReference cell
    exact .inl ⟨y, hok, hbits, hrefs⟩
  | stbref x =>
    obtain ⟨cell, hcell⟩ := hcell x rfl rfl
    obtain ⟨y, hok, hbits, hrefs⟩ := LawfulReferences.withReference cell
    refine .inl ⟨y, ?_, cell, hcell, hbits, hrefs⟩
    simp [payload, hcell, hok, bind, Except.bind]
  | stslice slice => exact .inl ⟨_, rfl, LawfulReferences.sliceAsBuilder slice⟩
  | stb x => exact .inl ⟨x, rfl, rfl, rfl⟩

theorem outcome_of_givesBack {kind : StoreKind}
    (hload : exec (loadInstruction kind.options) e = (.ok (), s))
    (hstack : e.cc.stack = stack ++ (operands reversed value b ++ kind.lengthArg len))
    (hlen : kind.TakesLength s len) (htyped : kind.WellTyped value)
    (hgas : kind = stbref → Gas.finalizePrice ≤ s.gas.gasRemaining)
    (hgood : kind.GivesBack len value b) :
    ∃ t, exec (kind.handler reversed) e = (.ok (), t) ∧
      Outcome kind reversed len value b stack t.cc.stack := by
  obtain ⟨hzero, hinner⟩ := hgood
  have hcell (x : BuilderData) (hkind : kind = stbref) (hvalue : value = .builder x) :
      ∃ cell, TonTypes.builderIntoCell x = .ok cell := by
    obtain ⟨cell, hok, -⟩ := hinner x hkind hvalue
    exact ⟨cell, hok⟩
  have hwidth := width_of_takesLength hload hlen
  rcases payload_cases htyped hwidth hzero hcell with ⟨y, hok, hadds⟩ | ⟨failure, herr, hnone⟩
  · by_cases hroom : HasRoom b (builderBits y) (builderRefs y)
    · obtain ⟨t, b', hexec, hfinal, hbits, hrefs⟩ :=
        exec_handler_stored hload hstack hlen htyped hcell hok hroom hgas
      exact ⟨t, hexec, .stored _ _ b' hadds hroom hbits hrefs hfinal⟩
    · obtain ⟨t, hexec, hfinal⟩ := exec_handler_full hload hstack hlen htyped hcell hok hroom
      have hleft : kind.left value = value := by
        refine left_eq ?_
        rintro rfl
        cases htyped with
        | stbref x =>
          obtain ⟨cell, hcell, hbits, hrefs⟩ := hadds
          obtain ⟨_, hok', hempty⟩ := hinner x rfl rfl
          rw [hcell] at hok'
          cases hok'
          rw [hbits, hrefs] at hroom
          rw [hempty.resolve_left hroom]
      rw [hleft] at hfinal
      exact ⟨t, hexec, .full _ _ hadds hroom hfinal⟩
  · obtain ⟨t, hexec, hfinal⟩ := exec_handler_unfit hload hstack hlen htyped hcell herr
    have hleft : kind.left value = value := by
      refine left_eq ?_
      rintro rfl
      cases htyped with
      | stbref x =>
        obtain ⟨cell, hok⟩ := hcell x rfl rfl
        exact absurd ⟨cell, hok, rfl, rfl⟩ (hnone [] [cell])
    rw [hleft] at hfinal
    exact ⟨t, hexec, .unfit hnone hfinal⟩

omit [LawfulViews] [LawfulReferences] in
/-- A signed zero of no bits is reported as one that does not fit. -/
theorem ne_zero_of_outcome {kind : StoreKind} {t : Engine}
    (hload : exec (loadInstruction kind.options) e = (.ok (), s))
    (hstack : e.cc.stack = stack ++ (operands reversed value b ++ kind.lengthArg len))
    (hlen : kind.TakesLength s len) (hexec : exec (kind.handler reversed) e = (.ok (), t))
    (h : Outcome kind reversed len value b stack t.cc.stack) (hsigned : kind.isSigned = true)
    (hvalue : value = .int 0) : len ≠ 0 := by
  rintro rfl
  have hfits : ¬Encoding.signedBigEndian.Fits 0 0 := Encoding.not_fits_zero rfl 0
  have hrange : Encoding.signedBigEndian.Range 0 0 := Encoding.range_zero rfl
  obtain ⟨failure, herr⟩ := asBuilder_of_not_fits hfits
  -- the two signed instructions take the same course
  have hcases : kind.WellTyped (.int 0) ∧ kind.payload 0 (.int 0) = .error failure ∧
      kind.Adds 0 (.int 0) [] [] ∧ kind ≠ stbref := by
    cases kind with
    | sti => exact ⟨.sti _, herr, ⟨0, rfl, hrange, rfl, rfl⟩, nofun⟩
    | stix => exact ⟨.stix _, herr, ⟨0, rfl, hrange, rfl, rfl⟩, nofun⟩
    | _ => cases hsigned
  subst hvalue
  obtain ⟨htyped, hpayload, hadds, hkind⟩ := hcases
  obtain ⟨_, hexec', hfinal⟩ := exec_handler_unfit hload hstack hlen htyped
    (fun x hx => absurd hx hkind) hpayload
  rw [hexec] at hexec'
  cases hexec'
  cases h with
  | stored _ _ _ _ _ _ _ hstored =>
    rw [hfinal] at hstored
    have hcount := congrArg List.length (List.append_cancel_left hstored)
    cases reversed <;> simp [operands] at hcount
  | full _ _ _ _ hfull =>
    rw [hfinal] at hfull
    exact absurd (operands_inj hfull).2 (by decide)
  | unfit hnone => exact hnone [] [] hadds

/-- An inner builder that finds no room comes back empty. -/
theorem inner_of_outcome {x : BuilderData} {t : Engine}
    (hload : exec (loadInstruction stbref.options) e = (.ok (), s))
    (hstack : e.cc.stack = stack ++ (operands reversed (.builder x) b ++ stbref.lengthArg len))
    (hlen : stbref.TakesLength s len) (hexec : exec (stbref.handler reversed) e = (.ok (), t))
    (h : Outcome stbref reversed len (.builder x) b stack t.cc.stack) :
    ∃ cell, TonTypes.builderIntoCell x = .ok cell ∧
      (HasRoom b [] [cell] ∨ x = TonTypes.builderDefault) := by
  cases hcell : TonTypes.builderIntoCell x with
  | error failure =>
    simp only [lengthArg, List.append_nil] at hstack
    rw [handler_eq] at hexec
    dsimp only at hexec
    rw [exec_storeBr (bit_mask_inv _) (bit_mask_quiet _) hload hstack, hcell] at hexec
    cases hexec
  | ok cell =>
    refine ⟨cell, rfl, or_iff_not_imp_left.2 ?_⟩
    intro hroom
    obtain ⟨y, hok, hbits, hrefs⟩ := LawfulReferences.withReference cell
    have hpayload : stbref.payload len (.builder x) = .ok y := by
      simp [payload, hcell, hok, bind, Except.bind]
    have hexists (x' : BuilderData) (_ : stbref = stbref) (hx : StackItem.builder x = .builder x') :
        ∃ cell, TonTypes.builderIntoCell x' = .ok cell := by
      cases hx
      exact ⟨cell, hcell⟩
    obtain ⟨_, hexec', hfinal⟩ := exec_handler_full hload hstack hlen (.stbref x) hexists hpayload
      (by rwa [hbits, hrefs])
    rw [hexec] at hexec'
    cases hexec'
    cases h with
    | stored bits refs _ hadds hfits =>
      obtain ⟨cell', hcell', rfl, rfl⟩ := hadds
      rw [hcell] at hcell'
      cases hcell'
      exact absurd hfits hroom
    | full _ _ _ _ hfull =>
      rw [hfinal] at hfull
      injection (operands_inj hfull).1 with hx
      exact hx.symm
    | unfit hnone => exact absurd ⟨cell, hcell, rfl, rfl⟩ (hnone [] [cell])

/-- A quiet store leaves the longer builder, or its two operands with a code, exactly where it does not
concern a signed zero of no bits or an inner builder that cannot be stored. -/
theorem quiet_store_iff (kind : StoreKind) (reversed : Bool)
    (hload : exec (loadInstruction kind.options) e = (.ok (), s))
    (hstack : e.cc.stack = stack ++ (operands reversed value b ++ kind.lengthArg len))
    (hlen : kind.TakesLength s len) (htyped : kind.WellTyped value)
    (hgas : kind = stbref → Gas.finalizePrice ≤ s.gas.gasRemaining) :
    (∃ t, exec (kind.handler reversed) e = (.ok (), t) ∧
      Outcome kind reversed len value b stack t.cc.stack) ↔ kind.GivesBack len value b := by
  constructor
  · rintro ⟨t, hexec, h⟩
    refine ⟨ne_zero_of_outcome hload hstack hlen hexec h, ?_⟩
    rintro x rfl rfl
    exact inner_of_outcome hload hstack hlen hexec h
  · exact outcome_of_givesBack hload hstack hlen htyped hgas

end Laws

end Instructions

end StoreKind

end Engine

/-! ### Plain builders -/

namespace Plain

open scoped TonVm.Plain

scoped instance lawfulReferences : LawfulReferences where
  withReference cell := ⟨⟨.ordinary, [], [cell]⟩, rfl, rfl, rfl⟩
  sliceAsBuilder _ := ⟨rfl, rfl⟩

end Plain

namespace Engine

open scoped Plain

/-- A builder with four references. -/
def fullBuilder : BuilderData :=
  (⟨.ordinary, [], List.replicate 4 (.mk .ordinary [] [])⟩ : Plain.Builder)

/-- An engine before a store of a value in the full builder. -/
def storing (value : StackItem) : Engine :=
  (withCapabilities []).setupWithLibraries (Plain.code [0, 0]) none
    (some [value, .builder fullBuilder]) none []

/-- `STREFQ` gives the cell and the full builder back. -/
theorem quiet_store_strefq : ∃ t, exec executeStrefq (storing (.cell (.mk .ordinary [true] []))) =
      (.ok (), t) ∧
    StoreKind.Outcome .stref false 0 (.cell (.mk .ordinary [true] [])) fullBuilder [] t.cc.stack :=
  (StoreKind.quiet_store_iff .stref false (exec_load _) rfl rfl (.stref _) nofun).2 ⟨nofun, nofun⟩

/-- `STBREFQ` of a builder with one bit, into the full builder: an empty one comes back. -/
theorem stbrefq_empties_inner :
    ∃ t, exec executeStbrefq (storing (.builder (⟨.ordinary, [true], []⟩ : Plain.Builder))) =
      (.ok (), t) ∧
    t.cc.stack = [.builder ({} : Plain.Builder), .builder fullBuilder, .int (-1)] :=
  ⟨_, rfl, rfl⟩

end Engine

end TonVm
