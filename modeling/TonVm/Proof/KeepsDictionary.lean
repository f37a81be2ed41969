import TonVm.Proof.KeepsCells
import TonVm.Proof.KeepsControl

/-!
# Dictionary instructions keep the engine good

A dictionary holds no items: a value comes out of it as a slice, a cell or the code of a continuation.
-/

namespace TonVm

open ExecLib

variable [TonTypes] {p : Policy}

namespace Engine

/-! ### Values -/

instance (slice : SliceData) : Good p (tryUnrefLeaf slice) := by
  unfold tryUnrefLeaf
  infer_instance

instance (dict : HashmapE) : Good p (dictItem dict) := by
  unfold dictItem
  split <;> infer_instance

instance (key : BuilderData) (how : UInt8) : Keeps p (writeKey key how) := by
  unfold writeKey
  infer_instance

instance (value : Option SliceData) : Good p (unrefOpt value) := by
  cases value <;> unfold unrefOpt <;> infer_instance

instance (value : Option SliceData) : Good p (unrefOrNull value) := by
  cases value <;> unfold unrefOrNull <;> infer_instance

section Accessors

variable (mode : HashmapMode) (dict : HashmapE) (key : SliceData)

instance : Keeps p (valreaderFromSlice dict key) := by
  unfold valreaderFromSlice
  infer_instance

instance : Keeps p (valreaderFromRef dict key) := by
  unfold valreaderFromRef
  infer_instance

instance : Keeps p (valreaderFromRefopt dict key) := by
  unfold valreaderFromRefopt
  infer_instance

section LongBodies

set_option synthInstance.maxSize 1000000

instance : Keeps p (writeSlice mode dict key) := by
  unfold writeSlice
  infer_instance

instance : Keeps p (writeBuilder mode dict key) := by
  unfold writeBuilder
  infer_instance

instance : Keeps p (writeRef mode dict key) := by
  unfold writeRef
  infer_instance

instance : Keeps p (valwriterAddRefWithoutUnref dict key) := by
  unfold valwriterAddRefWithoutUnref
  infer_instance

instance : Keeps p (valwriterAddOrRemoveRefopt dict key) := by
  unfold valwriterAddOrRemoveRefopt
  infer_instance

end LongBodies

instance : Keeps p (valwriterRemoveSlice dict key) := by
  unfold valwriterRemoveSlice
  infer_instance

instance : Keeps p (valwriterRemoveRef dict key) := by
  unfold valwriterRemoveRef
  infer_instance

end Accessors

/-! ### Instructions -/

instance : Keeps p dictVar := by
  unfold dictVar
  infer_instance

set_option synthInstance.maxSize 1000000 in
instance (keyreader : KeyReader) (how : UInt8) (handler : ValAccessor)
    [∀ d key, Keeps p (handler d key)] : Keeps p (dict keyreader how handler) := by
  unfold dict
  infer_instance

instance (dict : HashmapE) (key : SliceData) (how : UInt8) : Keeps p (iterReader dict key how) := by
  unfold iterReader
  infer_instance

instance (dict : HashmapE) (how : UInt8) : Keeps p (finder dict how) := by
  unfold finder
  infer_instance

instance (how : UInt8) (entry : Option (BuilderData × StackItem)) [h : Good p entry] :
    Keeps p (pushEntry how entry) := by
  cases entry with
  | none =>
    unfold pushEntry
    infer_instance
  | some entry =>
    have : Good p entry.2 := ⟨(h.out entry rfl).2⟩
    unfold pushEntry
    infer_instance

section LongBodies

set_option synthInstance.maxSize 1000000

instance (how : UInt8) : Keeps p (dictiter how) := by
  unfold dictiter
  infer_instance

instance (how : UInt8) : Keeps p (find how) := by
  unfold find
  refine ⟨.after fun _ _ => .after fun _ _ => .after fun d _ => .after fun entry hentry => ?_⟩
  have : Good p entry := ⟨hentry⟩
  split <;> exact Keeps.out

instance (how : UInt8) (dict : HashmapE) (key : SliceData) : Keeps p (pfxUpdate how dict key) := by
  unfold pfxUpdate
  infer_instance

end LongBodies

instance (how : UInt8) : Keeps p (pfxdictset how) := by
  unfold pfxdictset
  infer_instance

instance (how : UInt8) : Keeps p (pfxOperands how) := by
  unfold pfxOperands
  infer_instance

instance (how : UInt8) : Keeps p (loadDict how) := by
  unfold loadDict
  refine ⟨.after fun _ _ => .after fun _ _ => .after fun _ _ => .after fun slice _ => ?_⟩
  dsimp only
  split <;> exact Keeps.out

instance (keyreader : KeyReader) (into : HashmapE → SliceData → GasM HashmapE) :
    Keeps p (subdict keyreader into) := by
  unfold subdict
  infer_instance

section Transfer

variable [Settles p]

instance (how : UInt8) (n : Nat) : Keeps p (enterVar how n) := by
  unfold enterVar
  infer_instance

set_option synthInstance.maxSize 1000000 in
instance (keyreader : KeyReader) (how : UInt8) : Keeps p (dictcont keyreader how) := by
  unfold dictcont
  infer_instance

instance (how : UInt8) : Keeps p (pfxdictget how) := by
  unfold pfxdictget
  refine ⟨.after fun operands _ => .after fun found _ => ?_⟩
  dsimp only
  split <;> exact Keeps.out

end Transfer

end Engine

end TonVm
