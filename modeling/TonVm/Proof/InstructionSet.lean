import TonVm.Proof.KeepsBlockchain
import TonVm.Executor.Handlers

/-!
# Every handler of code page 0

The table of code page 0 holds handlers that keep the engine good under every policy, with three
exceptions: the long form of `PUSHINT` and `ADD` can leave an integer that is out of range, and
`COMMIT` changes the committed state. The handlers are reducible, so the proof of one is found from the
text of its body.
-/

namespace TonVm

open ExecLib Engine

variable [TonTypes] {p : Policy}

/-- A handler for opcodes with a first byte: it keeps the engine good, or it is one of the three
exceptions, of which two are found under one byte only. -/
class inductive Covered (p : Policy) : Nat → M Unit → Prop where
  | keeps {byte : Nat} {handler : M Unit} (h : Keeps p handler) : Covered p byte handler
  | pushintBig : Covered p 0x82 executePushintBig
  | add : Covered p 0xA0 (executeAdd .signaling)
  | commit {byte : Nat} : Covered p byte executeCommit

instance (byte : Nat) (handler : M Unit) [h : Keeps p handler] : Covered p byte handler := .keeps h

instance : Covered p 0x82 executePushintBig := .pushintBig

instance : Covered p 0xA0 (executeAdd .signaling) := .add

instance (byte : Nat) : Covered p byte executeCommit := .commit

/-! ### Tables -/

namespace Handlers

/-- The handlers of a table for the bytes after the first. -/
def CoversSubset (p : Policy) (byte : Nat) : Handlers (M Unit) → Prop
  | new => True
  | setRange table _ _ handler => table.CoversSubset p byte ∧ Covered p byte handler
  | addSubset table _ subset => table.CoversSubset p byte ∧ subset.CoversSubset p byte

/-- The handlers of a table for the first byte. -/
def Covers (p : Policy) : Handlers (M Unit) → Prop
  | new => True
  | setRange table start stop handler =>
    table.Covers p ∧ ∀ byte, start ≤ byte → byte < stop → Covered p byte handler
  | addSubset table code subset => table.Covers p ∧ subset.CoversSubset p code

/-- A table for the first byte, covered entry by entry. -/
class Complete (p : Policy) (table : Handlers (M Unit)) : Prop where
  out : table.Covers p

/-- A table for the bytes after the first, covered entry by entry. -/
class CompleteSubset (p : Policy) (byte : Nat) (table : Handlers (M Unit)) : Prop where
  out : table.CoversSubset p byte

section Entries

variable (table subset : Handlers (M Unit)) (byte code start stop : Nat) (handler : M Unit)

instance : CompleteSubset p byte new := ⟨trivial⟩

instance [h : CompleteSubset p byte table] [h' : Covered p byte handler] :
    CompleteSubset p byte (table.set code handler) :=
  ⟨h.out, h'⟩

instance [h : CompleteSubset p byte table] [h' : Covered p byte handler] :
    CompleteSubset p byte (table.setRange start stop handler) :=
  ⟨h.out, h'⟩

instance [h : CompleteSubset p byte table] [h' : CompleteSubset p byte subset] :
    CompleteSubset p byte (table.addSubset code subset) :=
  ⟨h.out, h'.out⟩

instance : Complete p new := ⟨trivial⟩

instance [h : Complete p table] [h' : Covered p code handler] :
    Complete p (table.set code handler) := by
  refine ⟨h.out, fun byte hle hlt => ?_⟩
  obtain rfl : byte = code := by omega
  exact h'

instance [h : Complete p table] [h' : ∀ byte, Covered p byte handler] :
    Complete p (table.setRange start stop handler) :=
  ⟨h.out, fun byte _ _ => h' byte⟩

instance [h : Complete p table] [h' : CompleteSubset p code subset] :
    Complete p (table.addSubset code subset) :=
  ⟨h.out, h'.out⟩

end Entries

/-! ### The sections of code page 0 -/

section CodePage0

variable [TonBlock] [Settles p] (table : Handlers (M Unit)) [Complete p table]

section LongBodies

set_option synthInstance.maxSize 1000000

instance : Complete p table.addCodePage0PartStack := by
  unfold addCodePage0PartStack
  infer_instance

instance : Complete p table.addCodePage0Tuple := by
  unfold addCodePage0Tuple
  infer_instance

instance : Complete p table.addCodePage0PartConstant := by
  unfold addCodePage0PartConstant
  infer_instance

instance : Complete p table.addCodePage0Arithmetic := by
  unfold addCodePage0Arithmetic
  infer_instance

instance : Complete p table.addCodePage0Comparsion := by
  unfold addCodePage0Comparsion c7Handlers
  infer_instance

instance : Complete p table.addCodePage0Cell := by
  unfold addCodePage0Cell
  infer_instance

instance : Complete p table.addCodePage0ControlFlow := by
  unfold addCodePage0ControlFlow
  infer_instance

instance : Complete p table.addCodePage0Exceptions := by
  unfold addCodePage0Exceptions
  infer_instance

instance : Complete p table.addCodePage0Blockchain := by
  unfold addCodePage0Blockchain
  infer_instance

instance : Complete p table.addCodePage0Dictionaries := by
  unfold addCodePage0Dictionaries
  infer_instance

instance : Complete p table.addCodePage0GasRandConfig := by
  unfold addCodePage0GasRandConfig
  infer_instance

instance : Complete p table.addCodePage0Crypto := by
  unfold addCodePage0Crypto
  infer_instance

instance : Complete p table.addCodePage0Debug := by
  unfold addCodePage0Debug
  infer_instance

instance : Complete p newCodePage0 := by
  unfold newCodePage0
  infer_instance

end LongBodies

end CodePage0

end Handlers

end TonVm
