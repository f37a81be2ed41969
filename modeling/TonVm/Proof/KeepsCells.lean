import TonVm.Proof.KeepsCodec
import TonVm.Executor.Dictionary

/-!
# Cell and dictionary instructions keep the engine good

What is read from a cell is a cell, a slice or an integer that passed a range check; what goes into a
cell does not come back as an item except through the decoders.
-/

namespace TonVm

open ExecLib

variable [TonTypes] {α β : Type} {p : Policy}

namespace Engine

/-! ### The environment -/

instance (index : Nat) : Keeps p (smciParam index) := by
  unfold smciParam
  refine ⟨.after fun tuple htuple => ?_⟩
  split
  · exact Keeps.out
  · rename_i first hfirst
    have : Good p first := ⟨htuple first (List.mem_of_head? hfirst)⟩
    refine .after fun items hitems => ?_
    split
    · rename_i item hitem
      exact .pure (hitems item (List.mem_of_getElem? hitem))
    · exact Keeps.out

instance : Keeps p rand := by
  unfold rand
  infer_instance

instance (x : IntegerData) [Good p x] : Keeps p (setRand x) := by
  unfold setRand
  refine ⟨.after fun tuple htuple => .after fun _ _ => ?_⟩
  cases tuple with
  | nil => exact Keeps.out
  | cons first rest =>
    have : Good p first := ⟨((good_cons _ _).1 htuple).1⟩
    have : Good p rest := ⟨((good_cons _ _).1 htuple).2⟩
    exact Keeps.out

instance : Keeps p randBytes := by
  unfold randBytes
  infer_instance

instance (index : Int) : Keeps p (getConfigParam index) := by
  unfold getConfigParam
  refine ⟨.after fun item _ => ?_⟩
  split <;> exact Keeps.out

instance : Keeps p extractConfig := by
  unfold extractConfig
  infer_instance

instance (capability : GlobalCapability) : Keeps p (extractConfigIf capability) := by
  unfold extractConfigIf
  infer_instance

instance (limit : Int) : Keeps p (setgaslimit limit) := by
  unfold setgaslimit
  infer_instance

instance (hash : Bool) : Keeps p (signedData hash) := by
  unfold signedData
  infer_instance

section LongBodies

set_option synthInstance.maxSize 1000000

instance (hash : Bool) : Keeps p (checkSignature hash) := by
  unfold checkSignature
  infer_instance

instance (len : Nat) (sign : Bool) : Keeps p (loadVar len sign) := by
  unfold loadVar
  infer_instance

instance (maxBits len : Nat) (sign : Bool) : Keeps p (storeVar maxBits len sign) := by
  have (b x : BuilderData) : Keeps p (match TonTypes.appendBuilder b x with
      | .ok b => push (.builder b)
      | .error _ => throw .panic) := by
    split <;> infer_instance
  unfold storeVar
  infer_instance

end LongBodies

/-! ### Building cells -/

instance (how : UInt8) : Keeps p (sizeB how) := by
  unfold sizeB
  infer_instance

instance : Keeps p executeEndxc := by
  unfold executeEndxc
  refine ⟨.after fun _ _ => .after fun _ _ => .after fun _ _ => .after fun _ _ =>
    .after fun _ _ => .after fun b _ =>
    .ite (fun _ => Keeps.out) fun _ => .ite (fun _ => Keeps.out) fun _ => ?_⟩
  split
  · exact Keeps.out
  · split <;> exact Keeps.out

instance [Sane α] (how : UInt8) (read : StackItem → Except Failure α)
    [∀ item : { item : StackItem // good p item }, Good p (read item.1)] :
    Keeps p (storeOperands how read) := by
  unfold storeOperands
  infer_instance

instance (how : UInt8) : Keeps p (storeB how) := by
  unfold storeB
  infer_instance

instance (how : UInt8) : Keeps p (storeR how) := by
  unfold storeR
  infer_instance

instance (how : UInt8) : Keeps p (storeBr how) := by
  unfold storeBr
  infer_instance

instance (how : UInt8) : Keeps p (storeS how) := by
  unfold storeS
  infer_instance

section LongBodies

set_option synthInstance.maxSize 1000000

instance (how : UInt8) : Keeps p (checkB how) := by
  unfold checkB
  infer_instance

instance (encoding : Encoding) (how : UInt8) : Keeps p (store encoding how) := by
  unfold store
  infer_instance

instance (encoding : Encoding) (how : UInt8) (limit : Nat) : Keeps p (storeX encoding how limit) := by
  unfold storeX
  infer_instance

instance (encoding : Encoding) (length : Nat) : Keeps p (storeL encoding length) := by
  unfold storeL
  infer_instance

instance (bit : Bool) : Keeps p (stbits bit) := by
  unfold stbits
  infer_instance

end LongBodies

/-! ### Reading slices -/

instance (len : Nat) (how : UInt8) : Keeps p (loadSlice len how) := by
  unfold loadSlice
  infer_instance

set_option synthInstance.maxSize 1000000 in
instance (len : Nat) (how : UInt8) (f : SliceData → M (StackItem × SliceData))
    [∀ slice, Keeps p (f slice)] : Keeps p (procSlice len how f) := by
  unfold procSlice
  infer_instance

instance (encoding : Encoding) (len : Nat) (how : UInt8) : Keeps p (ldInt encoding len how) := by
  unfold ldInt readInt
  infer_instance

instance (len : Nat) (how : UInt8) : Keeps p (ldSlice len how) := by
  unfold ldSlice
  infer_instance

section LongBodies

set_option synthInstance.maxSize 1000000

instance (how : UInt8) : Keeps p (pldref how) := by
  unfold pldref
  infer_instance

instance (how : UInt8) : Keeps p (sdbegins how) := by
  unfold sdbegins
  infer_instance

instance (bits refs : UInt8) : Keeps p (sdcut bits refs) := by
  unfold sdcut
  infer_instance

end LongBodies

instance (quiet : Bool) : Keeps p (split quiet) := by
  unfold split
  infer_instance

instance (bits refs : Bool) : Keeps p (sbitrefs bits refs) := by
  unfold sbitrefs
  infer_instance

instance (status quiet : Bool) : Keeps p (reportCheck status quiet) := by
  unfold reportCheck
  infer_instance

instance (limit : Nat) (quiet : Bool) : Keeps p (schkbits limit quiet) := by
  unfold schkbits
  infer_instance

instance (quiet : Bool) : Keeps p (schkrefs quiet) := by
  unfold schkrefs
  infer_instance

instance (quiet : Bool) : Keeps p (schkbitrefs quiet) := by
  unfold schkbitrefs
  infer_instance

instance (slice : SliceData) (bit : Bool) : Keeps p (pushTrimmed slice bit) := by
  unfold pushTrimmed
  infer_instance

instance (bit : Bool) : Keeps p (ldbit bit) := by
  unfold ldbit
  infer_instance

instance (operation : SliceData → Bool) : Keeps p (unarySlice operation) := by
  unfold unarySlice
  infer_instance

instance (operation : SliceData → SliceData → Bool) : Keeps p (binarySlice operation) := by
  unfold binarySlice
  infer_instance

instance (r1 r0 : Option SliceData) : Good p (lexcmp r1 r0) := by
  have (b : Bool) : Good p (StackItem.int (if b then 1 else -1)) := by
    cases b
    · exact inferInstanceAs (Good p (StackItem.int (-1)))
    · exact inferInstanceAs (Good p (StackItem.int 1))
  unfold lexcmp
  split
  · infer_instance
  · split <;> infer_instance
  · infer_instance
  · infer_instance

instance (operation : Option SliceData → Option SliceData → Except Failure StackItem)
    [∀ r1 r0, Good p (operation r1 r0)] : Keeps p (commonPrefix operation) := by
  unfold commonPrefix
  infer_instance

instance (max fuel : Nat) (stack : List Cell) (visited : List UInt256) (size : DataSize) :
    Keeps p (walkCells max fuel stack visited size) := by
  induction fuel generalizing stack visited size with
  | zero => cases stack <;> unfold walkCells <;> infer_instance
  | succ fuel ih => cases stack <;> unfold walkCells <;> infer_instance

instance (max : Nat) (item : StackItem) : Keeps p (slowDatasize max item) := by
  unfold slowDatasize
  dsimp only
  split <;> infer_instance

set_option synthInstance.maxSize 1000000 in
instance (how : UInt8) : Keeps p (datasize how) := by
  unfold datasize
  infer_instance

end Engine

end TonVm
