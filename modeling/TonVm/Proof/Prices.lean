import TonVm.Proof.Spending

/-!
# What an instruction costs

Every handler of code page 0 reads its instruction before it does anything else, so none returns for
less than the basic price.
-/

namespace TonVm

open ExecLib

variable [TonTypes]

namespace Engine

/-! ### Families of handlers -/

section Families

variable (how : UInt8) (T : OperationBehavior) (quiet bit reverseCondition : Bool)
  (encoding : Encoding) (keyreader : KeyReader) (place : WhereToGetParams) (opts : InstructionOptions)
  (start stop : Int) (len : Nat)

instance : Pays (executeXchg place) := by
  unfold executeXchg
  infer_instance

instance : Pays loadPair := by
  unfold loadPair
  infer_instance

instance : Pays (loadTrio place) := by
  unfold loadTrio
  infer_instance

instance : Pays fetchSmall := by
  unfold fetchSmall
  infer_instance

instance (target : DataTag) : Pays (fetchRef target) := by
  unfold fetchRef
  infer_instance

instance : Pays (loadSized how) := by
  unfold loadSized
  infer_instance

section LongBodies

set_option synthInstance.maxSize 1000000

instance : Pays (tuple how) := by
  unfold tuple
  infer_instance

instance : Pays (tupleIndex how) := by
  unfold tupleIndex
  infer_instance

instance : Pays (untuple how) := by
  unfold untuple
  infer_instance

instance : Pays (setIndexOperands how) := by
  unfold setIndexOperands
  infer_instance

instance : Pays (setIndex how) := by
  unfold setIndex setIndexV1 setIndexV2
  infer_instance

end LongBodies

instance : Pays (tupleLength how) := by
  unfold tupleLength
  refine .bind inferInstance fun _ _ _ => .andThen fun _ => .andThen fun item => ?_
  split <;> infer_instance

instance : Pays executeTupleLast := by
  unfold executeTupleLast
  refine .bind inferInstance fun _ _ _ => .andThen fun _ => .andThen fun _ => .andThen fun items => ?_
  split <;> infer_instance

instance : Pays executeTuplePop := by
  unfold executeTuplePop
  refine .bind inferInstance fun _ _ _ => .andThen fun _ => .andThen fun _ => .andThen fun items => ?_
  split <;> infer_instance

section LongBodies

set_option synthInstance.maxSize 1000000

instance : Pays (nullzeroswapif how) := by
  unfold nullzeroswapif
  infer_instance

instance : Pays (executeSetgetGlobalvar how) := by
  unfold executeSetgetGlobalvar
  infer_instance

instance (handler : IntegerData → IntegerData → Except Failure IntegerData) :
    Pays (binary handler) := by
  unfold binary
  infer_instance

instance (handler : IntegerData → IntegerData → Except Failure Unit × IntegerData) :
    Pays (binaryAssign handler) := by
  unfold binaryAssign
  infer_instance

end LongBodies

instance (handler : Int → IntegerData → Except Failure IntegerData) :
    Pays (binaryWithConst handler) := by
  unfold binaryWithConst
  infer_instance

instance (handler : IntegerData → Except Failure IntegerData) : Pays (unary handler) := by
  unfold unary
  infer_instance

instance (handler : IntegerData → Nat → Except Failure IntegerData) : Pays (unaryWithLen handler) := by
  unfold unaryWithLen
  infer_instance

instance (compareType : MinMax) : Pays (minmax T compareType) := by
  unfold minmax
  infer_instance

instance : Pays fetchLength := by
  unfold fetchLength
  infer_instance

instance (operation : SliceData → Bool) : Pays (unarySlice operation) := by
  unfold unarySlice
  infer_instance

set_option synthInstance.maxSize 1000000 in
instance (operation : Option SliceData → Option SliceData → Except Failure StackItem) :
    Pays (commonPrefix operation) := by
  unfold commonPrefix
  infer_instance

instance (operation : SliceData → SliceData → Bool) : Pays (binarySlice operation) := by
  unfold binarySlice
  infer_instance

instance : Pays (sizeB how) := by
  unfold sizeB
  infer_instance

instance : Pays executeEndxc := by
  unfold executeEndxc
  refine .bind inferInstance fun _ _ _ => .andThen fun _ => .andThen fun _ => .andThen fun special =>
    .andThen fun _ => .andThen fun b => ?_
  dsimp only
  repeat' split
  all_goals infer_instance

instance : Pays (storeB how) := by
  unfold storeB
  infer_instance

instance : Pays (storeR how) := by
  unfold storeR
  infer_instance

instance : Pays (storeBr how) := by
  unfold storeBr
  infer_instance

instance : Pays (storeS how) := by
  unfold storeS
  infer_instance

section LongBodies

set_option synthInstance.maxSize 1000000

instance : Pays (checkB how) := by
  unfold checkB
  infer_instance

instance : Pays (store encoding how) := by
  unfold store
  infer_instance

instance (limit : Nat) : Pays (storeX encoding how limit) := by
  unfold storeX
  infer_instance

instance (length : Nat) : Pays (storeL encoding length) := by
  unfold storeL
  infer_instance

instance : Pays (stbits bit) := by
  unfold stbits
  infer_instance

end LongBodies

instance : Pays (loadSlice len how) := by
  unfold loadSlice
  infer_instance

instance : Pays (ldInt encoding len how) := by
  unfold ldInt readInt
  infer_instance

instance : Pays (ldSlice len how) := by
  unfold ldSlice
  infer_instance

section LongBodies

set_option synthInstance.maxSize 1000000

instance : Pays (pldref how) := by
  unfold pldref
  infer_instance

instance : Pays (sdbegins how) := by
  unfold sdbegins
  infer_instance

instance : Pays (split quiet) := by
  unfold split
  infer_instance

end LongBodies

instance (bits refs : Bool) : Pays (sbitrefs bits refs) := by
  unfold sbitrefs
  infer_instance

instance (limit : Nat) : Pays (schkbits limit quiet) := by
  unfold schkbits
  infer_instance

instance : Pays (schkrefs quiet) := by
  unfold schkrefs
  infer_instance

instance : Pays (schkbitrefs quiet) := by
  unfold schkbitrefs
  infer_instance

instance : Pays (ldbit bit) := by
  unfold ldbit
  infer_instance

section LongBodies

set_option synthInstance.maxSize 1000000

instance : Pays (datasize how) := by
  unfold datasize
  infer_instance

instance (how : CallKind) : Pays (executeCall start stop how) := by
  unfold executeCall
  cases how <;> infer_instance

instance : Pays (executeIfMask how) := by
  have {used ceiling : Int} (flag inverse : Bool) (a b c d : M Unit)
      [Keeps (.spent used ceiling) a] [Keeps (.spent used ceiling) b]
      [Keeps (.spent used ceiling) c] [Keeps (.spent used ceiling) d] :
      Keeps (.spent used ceiling) (match flag, inverse with
        | false, true => a
        | false, false => b
        | true, true => c
        | true, false => d) := by
    split <;> assumption
  unfold executeIfMask
  infer_instance

instance (sign : Bool) : Pays (loadVar len sign) := by
  unfold loadVar
  infer_instance

instance (maxBits len : Nat) (sign : Bool) : Pays (storeVar maxBits len sign) := by
  have (used ceiling : Int) (b x : BuilderData) : Keeps (.spent used ceiling)
      (match TonTypes.appendBuilder b x with
      | .ok b => push (.builder b)
      | .error _ => throw .panic) := by
    split <;> infer_instance
  unfold storeVar
  infer_instance

instance : Pays (executeLdmsgaddr T) := by
  unfold executeLdmsgaddr
  refine .bind inferInstance fun _ _ _ => .andThen fun _ => .andThen fun _ => .andThen fun slice => ?_
  split <;> infer_instance

variable {T} in
theorem pays_loadAddress {op : List StackItem → M (List StackItem)}
    (h : ∀ items used ceiling, Keeps (.spent used ceiling) (op items)) :
    Pays (loadAddress T op) := by
  unfold loadAddress
  infer_instance

end LongBodies

instance : Pays (executeParsemsgaddr T) :=
  pays_loadAddress fun _ _ _ => inferInstance

instance : Pays (executeRewriteStdAddr T) := by
  refine pays_loadAddress fun items used ceiling => ?_
  unfold stdParts
  split <;> infer_instance

instance : Pays (executeRewriteVarAddr T) := by
  refine pays_loadAddress fun items used ceiling => ?_
  unfold varParts
  split <;> infer_instance

instance (opts : Option InstructionOptions) : Pays (internalDump opts) := by
  unfold internalDump
  infer_instance

instance : Pays internalDumpString := by
  unfold internalDumpString
  infer_instance

instance : Pays (loadDict how) := by
  unfold loadDict
  refine .bind inferInstance fun _ _ _ => .andThen fun _ => .andThen fun _ => .andThen fun slice => ?_
  dsimp only
  split <;> infer_instance

section LongBodies

set_option synthInstance.maxSize 1000000

instance (handler : ValAccessor)
    [∀ d key used ceiling, Keeps (.spent used ceiling) (handler d key)] :
    Pays (dict keyreader how handler) := by
  unfold dict
  infer_instance

instance : Pays (pfxdictset how) := by
  unfold pfxdictset
  infer_instance

instance : Pays (pfxOperands how) := by
  unfold pfxOperands
  infer_instance

instance : Pays (pfxdictget how) := by
  unfold pfxdictget
  refine .bind inferInstance fun operands _ _ => .andThen fun found => ?_
  dsimp only
  split <;> infer_instance

instance : Pays (dictiter how) := by
  unfold dictiter
  infer_instance

instance : Pays (find how) := by
  unfold find
  infer_instance

instance : Pays (dictcont keyreader how) := by
  unfold dictcont
  infer_instance

end LongBodies

instance (into : HashmapE → SliceData → GasM HashmapE) : Pays (subdict keyreader into) := by
  unfold subdict
  infer_instance

instance : Pays extractConfig := by
  unfold extractConfig
  infer_instance

instance (capability : GlobalCapability) : Pays (extractConfigIf capability) := by
  unfold extractConfigIf
  infer_instance

set_option synthInstance.maxSize 1000000 in
instance (hash : Bool) : Pays (checkSignature hash) := by
  unfold checkSignature
  infer_instance

instance (f : IndexProvider → UInt256 → Except Failure (List Cell)) :
    Pays (executeFindAccounts f) := by
  unfold executeFindAccounts
  refine .bind inferInstance fun _ _ _ => .andThen fun _ => .andThen fun _ => .andThen fun _ =>
    .andThen fun slice => .andThen fun hash => .andThen fun e => ?_
  split <;> infer_instance

end Families

end Engine

open Engine

namespace Handlers

/-- A table whose handlers pay. -/
class AllPay (table : Handlers (M Unit)) : Prop where
  out : table.Forall Pays

section Entries

variable (table subset : Handlers (M Unit)) (code start stop : Nat) (handler : M Unit)

instance : AllPay new := ⟨trivial⟩

instance [h : AllPay table] [h' : Pays handler] : AllPay (table.set code handler) := ⟨h.out, h'⟩

instance [h : AllPay table] [h' : Pays handler] : AllPay (table.setRange start stop handler) :=
  ⟨h.out, h'⟩

instance [h : AllPay table] [h' : AllPay subset] : AllPay (table.addSubset code subset) :=
  ⟨h.out, h'.out⟩

end Entries

section CodePage0

variable [TonBlock] (table : Handlers (M Unit)) [AllPay table]

section LongBodies

set_option synthInstance.maxSize 1000000

instance : AllPay table.addCodePage0PartStack := by
  unfold addCodePage0PartStack
  infer_instance

instance : AllPay table.addCodePage0Tuple := by
  unfold addCodePage0Tuple
  infer_instance

instance : AllPay table.addCodePage0PartConstant := by
  unfold addCodePage0PartConstant executePushintBig
  infer_instance

instance : AllPay table.addCodePage0Arithmetic := by
  unfold addCodePage0Arithmetic
  infer_instance

instance : AllPay table.addCodePage0Comparsion := by
  unfold addCodePage0Comparsion c7Handlers
  infer_instance

instance : AllPay table.addCodePage0Cell := by
  unfold addCodePage0Cell
  infer_instance

instance : AllPay table.addCodePage0ControlFlow := by
  unfold addCodePage0ControlFlow
  infer_instance

instance : AllPay table.addCodePage0Exceptions := by
  unfold addCodePage0Exceptions
  infer_instance

instance : AllPay table.addCodePage0Blockchain := by
  unfold addCodePage0Blockchain
  infer_instance

instance : AllPay table.addCodePage0Dictionaries := by
  unfold addCodePage0Dictionaries
  infer_instance

instance : AllPay table.addCodePage0GasRandConfig := by
  unfold addCodePage0GasRandConfig executeCommit
  infer_instance

instance : AllPay table.addCodePage0Crypto := by
  unfold addCodePage0Crypto
  infer_instance

instance : AllPay table.addCodePage0Debug := by
  unfold addCodePage0Debug
  infer_instance

instance : AllPay newCodePage0 := by
  unfold newCodePage0
  infer_instance

end LongBodies

end CodePage0

end Handlers

end TonVm
