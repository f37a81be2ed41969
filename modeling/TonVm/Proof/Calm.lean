import TonVm.Lib.Recovery
import TonVm.Proof.CellLoads

/-!
# Panics of the dictionary instructions

A panic of the source is an error that nothing catches. Where the methods of the packages do not
panic, loading a cell and a computation with gas do not either: the passes of the loop that resolves
exotic cells are never used up.
-/

namespace TonVm

open ExecLib

/-- The error of a panic. -/
def Panics [TonTypes] (err : Error) : Prop := err = .panic

instance [TonTypes] {α : Type} : (r : Except Error α) → Decidable (r = .error .panic)
  | .ok _ => isFalse nofun
  | .error .panic => isTrue rfl
  | .error (.exception _) => isFalse nofun
  | .error .other => isFalse nofun

/-- An outcome that is no panic. -/
class Calm {α : Type} (x : Except Failure α) : Prop where
  out : x ≠ .error .panic

instance {α : Type} (a : α) : Calm (.ok a : Except Failure α) := ⟨nofun⟩

instance {α : Type} (code : ExceptionCode) : Calm (.error (.code code) : Except Failure α) := ⟨nofun⟩

instance {α : Type} : Calm (.error .other : Except Failure α) := ⟨nofun⟩

instance {α : Type} (a : α) : Calm (pure a : Except Failure α) := ⟨nofun⟩

instance {α β : Type} (x : Except Failure α) (f : α → Except Failure β) [hx : Calm x]
    [hf : ∀ a, Calm (f a)] : Calm (x >>= f) := by
  cases x with
  | ok a => exact hf a
  | error failure => exact ⟨fun h => hx.out (by cases h; rfl)⟩

instance {α : Type} (c : Prop) [Decidable c] (x y : Except Failure α) [Calm x] [Calm y] :
    Calm (if c then x else y) := by
  split <;> assumption

/-- A computation with gas that does not panic, whatever cells it gets. -/
inductive CalmGas [TonTypes] {α : Type} : GasM α → Prop where
  | pure (a : α) : CalmGas (.pure a)
  | fail {failure : Failure} (h : failure ≠ .panic) : CalmGas (.fail failure)
  | finalizeCell (builder : BuilderData) {next : Cell → GasM α} (h : ∀ cell, CalmGas (next cell)) :
      CalmGas (.finalizeCell builder next)
  | loadCell (cell : Cell) {next : SliceData → GasM α} (h : ∀ slice, CalmGas (next slice)) :
      CalmGas (.loadCell cell next)

/-- The methods that loads and searches in dictionaries use do not panic. -/
class CalmTypes [TonTypes] : Prop where
  loadCell : ∀ cell, Calm (TonTypes.loadCell cell)
  moveBy : ∀ slice n, Calm (TonTypes.moveBy slice n)
  getNextHash : ∀ slice, Calm (TonTypes.getNextHash slice)
  cellReference : ∀ cell index, Calm (TonTypes.cellReference cell index)
  sliceReference : ∀ slice index, Calm (TonTypes.sliceReference slice index)
  loadBuilder : ∀ builder, Calm (TonTypes.loadBuilder builder)
  getWithGas : ∀ dict key, CalmGas (TonTypes.getWithGas dict key)
  removeWithGas : ∀ dict key, CalmGas (TonTypes.removeWithGas dict key)
  findLeaf : ∀ dict key next eq signed, CalmGas (TonTypes.findLeaf dict key next eq signed)
  getMin : ∀ dict signed, CalmGas (TonTypes.getMin dict signed)
  getMax : ∀ dict signed, CalmGas (TonTypes.getMax dict signed)

attribute [instance] CalmTypes.loadCell CalmTypes.moveBy CalmTypes.getNextHash
  CalmTypes.cellReference CalmTypes.sliceReference CalmTypes.loadBuilder

namespace Engine

variable [TonTypes] {α : Type}

/-! ### Primitives -/

instance (x : Except Failure α) [h : Calm x] : Avoids Panics (lift x : M α) := by
  cases x with
  | ok a => exact avoids_pure a
  | error failure =>
    refine avoids_throw ?_
    cases failure with
    | code code => exact nofun
    | other => exact nofun
    | panic => exact absurd rfl h.out

instance (code : ExceptionCode) : Avoids Panics (err code : M α) := avoids_throw nofun

instance (amount : Int) : Avoids Panics (useGas amount) := avoids_modify _

instance : Avoids Panics checkGasRemaining := by
  unfold checkGasRemaining
  refine @avoids_bind _ _ _ _ _ _ _ avoids_get fun e => ?_
  unfold Gas.checkGasRemaining
  split_ifs
  · exact avoids_pure _
  · exact avoids_throw nofun

instance (amount : Int) : Avoids Panics (tryUseGas amount) := by
  unfold tryUseGas
  infer_instance

instance (capability : GlobalCapability) : Avoids Panics (checkCapability capability) := by
  unfold checkCapability
  infer_instance

instance (builder : BuilderData) : Avoids Panics (finalizeCell builder) := by
  unfold finalizeCell
  have : Avoids Panics (match TonTypes.finalize builder 1024 with
      | .ok cell => pure cell
      | .error _ => err .cellOverflow : M Cell) := by
    split <;> infer_instance
  infer_instance

instance (item : StackItem) : Avoids Panics (push item) := avoids_modify _

/-! ### Loads -/

theorem avoids_runGasWith {load : Cell → M SliceData} [hload : ∀ cell, Avoids Panics (load cell)]
    {m : GasM α} (h : CalmGas m) : Avoids Panics (runGasWith load m) := by
  induction h with
  | pure a => exact avoids_pure a
  | fail hne =>
    refine avoids_throw ?_
    rename_i failure
    cases failure with
    | code code => exact nofun
    | other => exact nofun
    | panic => exact absurd rfl hne
  | finalizeCell builder _ ih =>
    unfold runGasWith
    infer_instance
  | loadCell cell _ ih =>
    unfold runGasWith
    infer_instance

section Calm

variable [CalmTypes]

theorem avoids_findLibrary {load : Cell → M SliceData} [∀ cell, Avoids Panics (load cell)]
    (hash : SliceData) (libraries : List HashmapE) :
    Avoids Panics (findLibrary load hash libraries) := by
  induction libraries with
  | nil =>
    unfold findLibrary
    infer_instance
  | cons library libraries ih =>
    unfold findLibrary
    have : Avoids Panics (runGasWith load (TonTypes.getWithGas library hash)) :=
      avoids_runGasWith (CalmTypes.getWithGas library hash)
    refine @avoids_bind _ _ _ _ _ _ _ this fun found => ?_
    cases found <;> infer_instance

set_option synthInstance.maxSize 1000000 in
instance {load : Cell → M SliceData} [∀ cell, Avoids Panics (load cell)] (cell : Cell) :
    Avoids Panics (resolveExotic load cell) := by
  have (hash : SliceData) (libraries : List HashmapE) :
      Avoids Panics (findLibrary load hash libraries) := avoids_findLibrary hash libraries
  unfold resolveExotic
  split
  · unfold loadLibraryCell
    infer_instance
  · infer_instance
  · infer_instance
  · infer_instance

theorem avoids_loadHashedCellLoop {stuck : M SliceData} [Avoids Panics stuck] (fuel : Nat)
    (cell : Cell) (resolveSpecial : Bool) (previousHashes : List UInt256) :
    Avoids Panics (loadHashedCellLoop stuck fuel cell resolveSpecial previousHashes) := by
  induction fuel generalizing cell resolveSpecial previousHashes with
  | zero =>
    unfold loadHashedCellLoop
    infer_instance
  | succ fuel ih =>
    have hfinish (slice : SliceData) (hashes : List UInt256) :
        Avoids Panics (loadHashedCellLoop.finish slice hashes) := by
      unfold loadHashedCellLoop.finish
      infer_instance
    unfold loadHashedCellLoop
    dsimp only
    split_ifs
    · infer_instance
    · refine @avoids_bind _ _ _ _ _ _ _ avoids_get fun e => ?_
      split <;> infer_instance

instance (cell : Cell) : Avoids Panics (loadCell cell) := by
  refine ⟨fun s err t h => ?_⟩
  unfold loadCell at h
  rw [← exec_loadHashedCellLoop (Engine.err .fatalError) le_rfl] at h
  exact (avoids_loadHashedCellLoop _ cell true []).out s err t h

theorem avoids_runGas {m : GasM α} (h : CalmGas m) : Avoids Panics (runGas m) :=
  avoids_runGasWith h

end Calm

end Engine

theorem CalmGas.bind [TonTypes] {α β : Type} {m : GasM α} {f : α → GasM β} (hm : CalmGas m)
    (hf : ∀ a, CalmGas (f a)) : CalmGas (m >>= f) := by
  induction hm with
  | pure a => exact hf a
  | fail h => exact .fail h
  | finalizeCell builder _ ih => exact .finalizeCell builder ih
  | loadCell cell _ ih => exact .loadCell cell ih

theorem CalmGas.lift [TonTypes] {α : Type} (x : Except Failure α) [hx : Calm x] :
    CalmGas (liftM x : GasM α) := by
  cases x with
  | ok a => exact .pure a
  | error failure => exact .fail fun h => hx.out (by rw [h])

/-! ### Plain cells -/

namespace Plain

open scoped Plain

instance (slice : Slice) (n : Nat) : Calm (slice.next n) := by
  unfold Slice.next
  infer_instance

instance (key : List Bool) (value : Builder) : Calm (Entries.leaf key value) := by
  unfold Entries.leaf
  infer_instance

instance (entries : Entries) : Calm entries.chain := by
  induction entries with
  | nil => exact ⟨nofun⟩
  | cons entry entries ih =>
    have (rest : Option Tree) (leaf : Tree) : Calm (match rest with
        | some rest => pure (some (.mk .ordinary [] [leaf, rest]))
        | none => pure (some (.mk .ordinary [] [leaf])) : Except Failure (Option Tree)) := by
      split <;> infer_instance
    unfold Entries.chain
    infer_instance

theorem calmGas_visit (dict : HashmapE) : CalmGas (visit dict) := by
  unfold visit
  split
  · exact .loadCell _ fun _ => .pure ()
  · exact .pure ()

theorem calmGas_store (bitLen : Nat) (entries : Entries) : CalmGas (store bitLen entries) := by
  refine .bind (.lift entries.chain) fun root => ?_
  split
  · exact .finalizeCell _ fun _ => .pure _
  · exact .pure _

scoped instance calmTypes : CalmTypes where
  loadCell cell := by
    unfold TonTypes.loadCell types
    infer_instance
  moveBy slice n := by
    unfold TonTypes.moveBy types Slice.moveBy
    infer_instance
  getNextHash slice := by
    unfold TonTypes.getNextHash types
    infer_instance
  cellReference cell index := by
    unfold TonTypes.cellReference types
    dsimp only
    split <;> infer_instance
  sliceReference slice index := by
    unfold TonTypes.sliceReference types Slice.reference
    dsimp only
    split <;> infer_instance
  loadBuilder builder := ⟨nofun⟩
  getWithGas dict key := .bind (calmGas_visit dict) fun _ => .pure _
  removeWithGas dict key := by
    refine .bind (calmGas_visit dict) fun _ => ?_
    split
    · exact .bind (calmGas_store _ _) fun _ => .pure _
    · exact .pure _
  findLeaf dict key next eq signed := .bind (calmGas_visit dict) fun _ => .pure _
  getMin dict signed := .bind (calmGas_visit dict) fun _ => .pure _
  getMax dict signed := .bind (calmGas_visit dict) fun _ => .pure _

end Plain

end TonVm
