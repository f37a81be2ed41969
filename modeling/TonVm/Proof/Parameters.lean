import TonVm.Lib.Frame
import TonVm.Proof.Instruction

/-!
# The parameters between two instructions

`execute` clears the parameters of an instruction when it is done. The implicit steps and the dispatch
of an exception read them, as an operand of a jump, but never set any. So the implicit return and the
entry of a handler pass values as if no number was given.
-/

namespace TonVm

open ExecLib

variable [TonTypes]

namespace Engine

/-- A program that does not touch the parameters of the current instruction. -/
abbrev LeavesParams {α : Type} (m : M α) : Prop := Leaves (fun e : Engine => e.cmd.params) m

/-- The command and the capabilities: what an implicit step finds and leaves. -/
def command (e : Engine) : InstructionExt × List GlobalCapability := (e.cmd, e.capabilities)

abbrev LeavesCommand {α : Type} (m : M α) : Prop := Leaves command m

/-- The same with the exception handler. -/
def guarded (e : Engine) : (InstructionExt × List GlobalCapability) × Option StackItem :=
  (e.command, e.ctrls.get 2)

abbrev LeavesGuarded {α : Type} (m : M α) : Prop := Leaves guarded m

/-- The same with all registers, and the type of the current continuation. -/
def registers (e : Engine) :
    (InstructionExt × List GlobalCapability) × SaveList × ContinuationType :=
  (e.command, e.ctrls, e.cc.typeOf)

abbrev LeavesRegisters {α : Type} (m : M α) : Prop := Leaves registers m

instance (priority := low) {α : Type} (m : M α) [h : LeavesRegisters m] : LeavesGuarded m :=
  h.comp fun r => (r.1, r.2.1.get 2)

instance (priority := low) {α : Type} (m : M α) [h : LeavesGuarded m] : LeavesCommand m :=
  h.comp Prod.fst

instance (priority := low) {α : Type} (m : M α) [h : LeavesCommand m] : LeavesParams m :=
  h.comp fun r => r.1.params

/-! ### Primitives -/

section Primitives

variable {α : Type}

section Inert

variable {τ : Type} {f : Engine → τ}

instance (x : Except Failure α) : Leaves f (lift x) := by
  cases x <;> exact ⟨fun _ => rfl⟩

instance (code : ExceptionCode) : Leaves f (err code : M α) := ⟨fun _ => rfl⟩

instance : Leaves f (fail : M α) := ⟨fun _ => rfl⟩

instance (m : M α) [Leaves f m] : Leaves f (catchError m) := by
  unfold catchError
  refine .andThen inferInstance fun r => ?_
  split <;> infer_instance

instance (index : Nat) : Leaves f (var index) := by
  unfold var
  refine .andThen inferInstance fun e => ?_
  split <;> infer_instance

instance (index : Nat) : Leaves f (ctrl index) := by
  unfold ctrl
  refine .andThen inferInstance fun e => ?_
  split <;> infer_instance

instance (index : Nat) : Leaves f (stackItem index) := by
  unfold stackItem
  infer_instance

instance (raw : InstructionExt → Option α) : Leaves f (param raw) := by
  unfold param
  refine .andThen inferInstance fun e => ?_
  split <;> infer_instance

/-- An observation that sees neither the gas nor the record of the cells that were loaded. -/
class Inert {τ : Type} (f : Engine → τ) : Prop where
  out : ∀ e gas visitedCells visitedExoticCells,
    f { e with gas, visitedCells, visitedExoticCells } = f e

instance : Inert registers := ⟨fun _ _ _ _ => rfl⟩

variable [hf : Inert f]

instance (amount : Int) : Leaves f (useGas amount) :=
  ⟨fun e => hf.out e (e.gas.useGas amount) e.visitedCells e.visitedExoticCells⟩

instance : Leaves f checkGasRemaining := by
  unfold checkGasRemaining
  refine .andThen inferInstance fun e => ?_
  split <;> infer_instance

instance (amount : Int) : Leaves f (tryUseGas amount) := by
  unfold tryUseGas
  infer_instance

/-! ### Cells -/

instance (builder : BuilderData) : Leaves f (finalizeCell builder) := by
  unfold finalizeCell
  refine .andThen inferInstance fun _ => ?_
  split <;> infer_instance

instance (capability : GlobalCapability) : Leaves f (checkCapability capability) := by
  unfold checkCapability
  infer_instance

section Loading

variable {load : Cell → M SliceData} [∀ cell, Leaves f (load cell)]

instance leaves_runGasWith (m : GasM α) : Leaves f (runGasWith load m) := by
  induction m with
  | pure a => exact ⟨fun _ => rfl⟩
  | fail failure => exact ⟨fun _ => rfl⟩
  | finalizeCell builder next ih => exact .andThen inferInstance ih
  | loadCell cell next ih => exact .andThen inferInstance ih

instance leaves_findLibrary (hash : SliceData) (libraries : List HashmapE) :
    Leaves f (findLibrary load hash libraries) := by
  induction libraries with
  | nil => exact ⟨fun _ => rfl⟩
  | cons library libraries ih =>
    unfold findLibrary
    refine .andThen inferInstance fun found => ?_
    split <;> infer_instance

instance (cell : Cell) : Leaves f (loadLibraryCell load cell) := by
  unfold loadLibraryCell
  infer_instance

instance (cell : Cell) : Leaves f (resolveExotic load cell) := by
  unfold resolveExotic
  split
  · infer_instance
  · refine .andThen inferInstance fun e => .choose (.andThen inferInstance fun _ =>
      .andThen inferInstance fun _ => .andThen inferInstance fun _ => .andThen inferInstance
        fun (hash, slice) => ?_) inferInstance
    dsimp only
    infer_instance
  · refine .andThen inferInstance fun e => .choose (.andThen inferInstance fun _ =>
      .andThen inferInstance fun _ => .andThen inferInstance fun _ => .andThen inferInstance
        fun (hash, slice) => .andThen inferInstance fun _ => ?_) inferInstance
    have hnew : Leaves f (do
        let slice ← lift (TonTypes.moveBy slice 16)
        let (hash, _) ← lift (TonTypes.getNextHash slice)
        let child := TonTypes.virtualize (← lift (TonTypes.cellReference cell 1)) 1
        if TonTypes.reprHash child ≠ hash then
          err .cellUnderflow
        return child) := by
      refine .andThen inferInstance fun _ => .andThen inferInstance fun (hash, _) => ?_
      dsimp only
      infer_instance
    dsimp only
    exact .choose (.andThen inferInstance fun _ => hnew) hnew
  · infer_instance

end Loading

instance leaves_loadHashedCellLoop (fuel : Nat) (cell : Cell) (resolveSpecial : Bool)
    (previousHashes : List UInt256) :
    Leaves f (loadHashedCellLoop (throw .panic) fuel cell resolveSpecial previousHashes) := by
  have hfinish (slice : SliceData) (previousHashes : List UInt256) :
      Leaves f (loadHashedCellLoop.finish slice previousHashes) :=
    .andThen ⟨fun e => hf.out e e.gas e.visitedCells _⟩ fun _ => inferInstance
  induction fuel generalizing cell resolveSpecial previousHashes with
  | zero => exact ⟨fun _ => rfl⟩
  | succ fuel ih =>
    have hvisit (hash : UInt256) : Leaves f
        (modify fun e => { e with visitedCells := hash :: e.visitedCells } : M Unit) :=
      ⟨fun e => hf.out e e.gas _ e.visitedExoticCells⟩
    unfold loadHashedCellLoop
    refine .choose inferInstance (.andThen inferInstance fun e => ?_)
    split <;> infer_instance

instance (cell : Cell) (resolveSpecial : Bool) : Leaves f (loadHashedCell cell resolveSpecial) := by
  unfold loadHashedCell
  infer_instance

instance (m : GasM α) : Leaves f (runGas m) := by
  unfold runGas loadCell
  infer_instance

end Inert

/-! ### Values -/

instance (item : StackItem) : LeavesRegisters (push item) := ⟨fun _ => rfl⟩

instance (value : Int) : LeavesRegisters (pushInt value) := by
  unfold pushInt
  infer_instance

instance (items : List StackItem) : LeavesRegisters (pushAll items) := ⟨fun _ => rfl⟩

instance (op : Stack → Except Failure (α × Stack)) : LeavesRegisters (takeStack op) := by
  unfold takeStack
  refine .andThen inferInstance fun e => .andThen inferInstance fun _ => ?_
  exact ⟨fun _ => rfl⟩

instance (index : Nat) (item : StackItem) : LeavesParams (setVar index item) := by
  unfold setVar
  refine .andThen inferInstance fun e => ?_
  split <;> exact ⟨fun _ => rfl⟩

instance (item : StackItem) : LeavesParams (pushVar item) := ⟨fun _ => rfl⟩

instance (cont : ContinuationData) : LeavesParams (pushContVar cont) := ⟨fun _ => rfl⟩

instance (index : Nat) (item : StackItem) : LeavesCommand (setCtrl index item) := ⟨fun _ => rfl⟩

instance (item : StackItem) : LeavesGuarded (setCtrl 0 item) := ⟨fun _ => rfl⟩

instance (index : Nat) (item : StackItem) : LeavesCommand (putCtrl index item) := by
  unfold putCtrl
  refine .andThen inferInstance fun e => .andThen inferInstance fun _ => ?_
  exact ⟨fun _ => rfl⟩

instance : LeavesRegisters countStep := ⟨fun _ => rfl⟩

end Primitives

/-! ### Microcode -/

section Microcode

variable (x y : Nat)

instance : LeavesRegisters (continuationByAddress x) := by
  unfold continuationByAddress
  split
  · infer_instance
  · refine .andThen inferInstance fun e => ?_
    split <;> infer_instance
  · infer_instance

instance (cont : ContinuationData) : LeavesParams (setContinuationByAddress x cont) := by
  unfold setContinuationByAddress
  split <;> infer_instance

instance : LeavesRegisters (listAt x) := by
  unfold listAt
  split
  · infer_instance
  · infer_instance
  · refine .andThen inferInstance fun e => ?_
    split <;> infer_instance
  · infer_instance
  · infer_instance

instance (list : SaveList) : LeavesParams (setListAt x list) := by
  unfold setListAt
  split
  · exact ⟨fun _ => rfl⟩
  · exact ⟨fun _ => rfl⟩
  · refine .andThen inferInstance fun e => ?_
    split <;> infer_instance
  · infer_instance
  · infer_instance

instance (item : StackItem) : LeavesParams (putToList x item) := by
  unfold putToList
  infer_instance

instance : LeavesParams (putToListFromItem x y) := by
  unfold putToListFromItem
  infer_instance

instance : LeavesParams (putToListFromList x y) := by
  unfold putToListFromList
  refine .andThen inferInstance fun _ => .andThen inferInstance fun list => ?_
  split <;> infer_instance

instance : LeavesParams (swapWithList x y) := by
  unfold swapWithList
  infer_instance

instance : LeavesParams (swapBetweenLists x y) := by
  unfold swapBetweenLists
  refine .andThen inferInstance fun _ => .choose (.andThen inferInstance fun old => ?_) inferInstance
  split <;> infer_instance

instance (cont : ContinuationData) : LeavesParams (swapCc x cont) := by
  unfold swapCc
  refine .andThen inferInstance fun _ => .andThen inferInstance fun _ => ?_
  exact ⟨fun _ => rfl⟩

instance : LeavesParams (swapOrdered x y) := by
  unfold swapOrdered
  split
  · refine .andThen inferInstance fun e => ?_
    split <;> infer_instance
  all_goals infer_instance

instance : LeavesParams (swap x y) := by
  unfold swap
  infer_instance

instance : LeavesCommand applySavelist := ⟨fun _ => rfl⟩

instance (start stop : Nat) : LeavesParams (moveStackFromCc x start stop) := by
  unfold moveStackFromCc
  infer_instance

instance (start stop : Nat) : LeavesParams (popRange start stop x) := by
  unfold popRange
  infer_instance

instance : LeavesParams (popAll x) := by
  unfold popAll
  refine .andThen inferInstance fun _ => .andThen inferInstance fun _ => .andThen inferInstance
    fun e => .choose inferInstance ?_
  split <;> infer_instance

set_option synthInstance.maxSize 1000000 in
instance : LeavesParams (switch x) := by
  have hremove : LeavesParams
      (modify fun e => { e with ctrls := e.ctrls.remove 0 } : M Unit) := ⟨fun _ => rfl⟩
  unfold switch
  infer_instance

/-! A jump to c0 writes no variable, and before the saved registers are restored c0 alone changes. -/

instance (cont : ContinuationData) : LeavesGuarded (setContinuationByAddress (Addr.ctrl 0) cont) :=
  inferInstanceAs (LeavesGuarded (setCtrl 0 _))

instance (start stop : Nat) : LeavesGuarded (moveStackFromCc (Addr.ctrl 0) start stop) := by
  unfold moveStackFromCc
  infer_instance

instance (start stop : Nat) : LeavesGuarded (popRange start stop (Addr.ctrl 0)) := by
  unfold popRange
  infer_instance

instance : LeavesGuarded (popAll (Addr.ctrl 0)) := by
  unfold popAll
  refine .andThen inferInstance fun _ => .andThen inferInstance fun _ => .andThen inferInstance
    fun e => .choose inferInstance ?_
  split <;> infer_instance

instance : LeavesGuarded (swap (Addr.ctrl 0) Addr.CC) := by
  have hcc (cont : ContinuationData) : LeavesGuarded
      (modify fun e => { e with cc := cont } : M Unit) := ⟨fun _ => rfl⟩
  change LeavesGuarded (do
    match (← get).ctrls.get 0 with
    | some item => swapCc (Addr.ctrl 0) (← lift item.asContinuation)
    | none => err .typeCheckError)
  refine .andThen inferInstance fun e => ?_
  unfold swapCc
  split <;> infer_instance

instance : LeavesCommand (switch (Addr.ctrl 0)) := by
  have hremove : LeavesCommand
      (modify fun e => { e with ctrls := e.ctrls.remove 0 } : M Unit) := ⟨fun _ => rfl⟩
  unfold switch
  infer_instance

instance : LeavesCommand switchToC0 := by
  have hcc (c0 : ContinuationData) : LeavesCommand
      (modify fun e => { e with cc := c0 } : M Unit) := ⟨fun _ => rfl⟩
  have hremove : LeavesCommand
      (modify fun e => { e with ctrls := e.ctrls.remove 0 } : M Unit) := ⟨fun _ => rfl⟩
  unfold switchToC0
  refine .andThen inferInstance fun _ => .andThen inferInstance fun e => ?_
  split <;> infer_instance

end Microcode

/-! ### Implicit steps -/

section Steps

instance : LeavesRegisters dischargeNargs := by
  have hstack (stack : Stack) : LeavesRegisters
      (modify fun e => { e with cc.stack := stack } : M Unit) := ⟨fun _ => rfl⟩
  have hnargs : LeavesRegisters (modify fun e => { e with cc.nargs := -1 } : M Unit) := ⟨fun _ => rfl⟩
  unfold dischargeNargs
  refine .andThen inferInstance fun e => .choose (.choose ?_ hnargs) inferInstance
  split
  · exact .andThen (hstack _) fun _ => hnargs
  · exact hnargs

instance : LeavesRegisters checkWhileLoopCondition := by
  unfold checkWhileLoopCondition
  infer_instance

instance : LeavesRegisters checkUntilLoopCondition := by
  unfold checkUntilLoopCondition
  infer_instance

instance (body : SliceData) : LeavesGuarded (Engine.moveWithoutStack body) := ⟨fun _ => rfl⟩

instance (loop : ContinuationData) : LeavesRegisters (saveC0 loop) := by
  unfold saveC0
  infer_instance

instance (reference : Cell) : LeavesRegisters (stepNextRef reference) := by
  have hcode (code : SliceData) : LeavesRegisters
      (modify fun e => { e with cc.code := code } : M Unit) := ⟨fun _ => rfl⟩
  unfold stepNextRef
  infer_instance

instance : LeavesCommand stepOrdinary := by
  unfold stepOrdinary
  infer_instance

instance (code : Int) : LeavesCommand (stepPushint code) := by
  unfold stepPushint
  infer_instance

instance : LeavesCommand stepTryCatch := by
  have hremove : LeavesCommand
      (modify fun e => { e with ctrls := e.ctrls.remove 2 } : M Unit) := ⟨fun _ => rfl⟩
  unfold stepTryCatch
  infer_instance

instance (depth : Nat) : LeavesCommand (stepCatchRevert depth) := by
  have hdrop (n : Nat) : LeavesCommand
      (modify fun e => { e with cc.stack := Stack.dropTop n e.cc.stack } : M Unit) := ⟨fun _ => rfl⟩
  unfold stepCatchRevert
  infer_instance

instance (body cond : SliceData) : LeavesCommand (stepWhileLoop body cond) := by
  unfold stepWhileLoop
  refine .andThen inferInstance fun result => ?_
  split <;> infer_instance

instance (body : SliceData) (counter : Int) : LeavesCommand (stepRepeatLoop body counter) := by
  have hcounter : LeavesCommand (modify fun e => { e with cc.typeOf :=
      match e.cc.typeOf with
      | .repeatLoopBody code counter => .repeatLoopBody code (counter - 1)
      | typeOf => typeOf } : M Unit) := ⟨fun _ => rfl⟩
  unfold stepRepeatLoop
  infer_instance

instance (body : SliceData) : LeavesCommand (stepUntilLoop body) := by
  unfold stepUntilLoop
  infer_instance

instance (body : SliceData) : LeavesCommand (stepAgainLoop body) := by
  unfold stepAgainLoop
  infer_instance

instance : LeavesRegisters makeExternalError := by
  have hstack (stack : Stack) : LeavesRegisters
      (modify fun e => { e with cc.stack := stack } : M Unit) := ⟨fun _ => rfl⟩
  unfold makeExternalError
  refine .andThen inferInstance fun _ => .andThen inferInstance fun _ => .choose inferInstance
    (.andThen inferInstance fun e => ?_)
  dsimp only
  split <;> infer_instance

instance : LeavesCommand implicitStep := by
  unfold implicitStep
  refine .andThen inferInstance fun e => ?_
  split
  · infer_instance
  · refine .andThen inferInstance fun e => ?_
    unfold typeStep
    split <;> infer_instance

end Steps

/-! ### Exceptions -/

section Exceptions

variable (error : Error)

instance (exception : Exception) : LeavesParams (chargeException error exception) := by
  unfold chargeException
  refine .choose (.andThen inferInstance fun _ => ?_) ?_
  all_goals
    refine .andThen inferInstance fun _ => .andThen inferInstance fun e => ?_
    split <;> infer_instance

instance : LeavesParams (payForException error) := by
  unfold payForException
  split
  · infer_instance
  · infer_instance

instance (number : Int) (value : StackItem) : LeavesParams (switchToQuit number value) := by
  unfold switchToQuit
  infer_instance

instance : LeavesParams (raiseException error) := by
  unfold raiseException
  refine .andThen inferInstance fun exception => .andThen inferInstance fun e => ?_
  split
  · infer_instance
  · split <;> infer_instance

instance : LeavesParams (raiseExceptionBugfix0 error) := by
  have hremove : LeavesParams
      (modify fun e => { e with ctrls := e.ctrls.remove 2 } : M Unit) := ⟨fun _ => rfl⟩
  have hclear : LeavesParams (modify fun e => { e with cc.stack := [] } : M Unit) := ⟨fun _ => rfl⟩
  unfold raiseExceptionBugfix0
  refine .andThen inferInstance fun exception => .andThen inferInstance fun _ =>
    .andThen inferInstance fun e => ?_
  split
  · infer_instance
  · refine .andThen inferInstance fun _ => .choose ?_ inferInstance
    split <;> infer_instance

instance : LeavesParams (dispatchException error) := by
  unfold dispatchException
  infer_instance

end Exceptions

/-! ### Runs -/

instance : LeavesParams seekStep := by
  have hfinish (result : Except Error (Option Int)) : LeavesParams (seekStep.finish result) := by
    unfold seekStep.finish
    refine .andThen inferInstance fun e => ?_
    split <;> infer_instance
  unfold seekStep
  infer_instance

/-- An instruction up to the dispatch of what it has raised. -/
def instructionResult (getHandler : M (M Unit)) : M (Option Error) := do
  let result ← instructionOutcome getHandler
  modify fun e => { e with cmd.params := [] }
  return result

theorem executeInstruction_eq (getHandler : M (M Unit)) :
    executeInstruction getHandler = instructionResult getHandler >>= dispatchResult := by
  unfold executeInstruction instructionResult
  simp only [bind_assoc, pure_bind]

theorem params_of_instructionResult {getHandler : M (M Unit)} {e s : Engine} {result : Option Error}
    (h : exec (instructionResult getHandler) e = (.ok result, s)) : s.cmd.params = [] := by
  obtain ⟨_, _, -, h⟩ := exec_bind_eq_ok h
  rw [exec_bind_modify] at h
  cases h
  rfl

/-- Whatever the handler did, an instruction leaves no parameters behind. -/
theorem executeInstruction_params (getHandler : M (M Unit)) (e : Engine) {t : Engine}
    (h : exec (executeInstruction getHandler) e = (.ok (), t)) : t.cmd.params = [] := by
  rw [executeInstruction_eq] at h
  obtain ⟨result, s, hresult, h⟩ := exec_bind_eq_ok h
  have hdispatch : LeavesParams (dispatchResult result) := by
    unfold dispatchResult
    split <;> infer_instance
  exact (hdispatch.eq h).trans (params_of_instructionResult hresult)

/-- What holds between two passes. -/
structure Settled (e : Engine) : Prop where
  typed : RegistersTyped e
  params : e.cmd.params = []

variable [TonBlock]

/-- Between two passes there are no parameters. -/
theorem params_of_run {e t : Engine} (he : e.cmd.params = []) {r : Except Error (Option Int)}
    (h : Run (fun _ => True) e r t) (hr : r = .ok none) : t.cmd.params = [] := by
  induction h with
  | start => exact he
  | @pass s _ _ ih =>
    have hs := ih rfl
    by_cases hcode : TonTypes.remainingBits s.cc.code ≠ 0
    · rw [exec_pass_of_code hcode] at hr ⊢
      rcases hinst : exec (executeInstruction (getHandler Handlers.newCodePage0)) s with ⟨_ | _, t⟩
      · rw [exec_bind_error hinst] at hr
        cases hr
      · rw [exec_bind_ok hinst]
        exact executeInstruction_params _ s hinst
    · rw [exec_pass_of_end hcode]
      exact (Leaves.out (m := seekStep) (f := fun e : Engine => e.cmd.params) s).trans hs

/-- A state between two passes of a run from the start, whose registers and stack were given with the
type check. -/
def Reachable (e : Engine) : Prop :=
  ∃ capabilities code ctrls stack gas libraries, Checked ctrls ∧ Checked stack ∧
    Run (fun _ => True)
      ((withCapabilities capabilities).setupWithLibraries code ctrls stack gas libraries) (.ok none) e

theorem Reachable.settled {e : Engine} (h : Reachable e) : Settled e := by
  obtain ⟨capabilities, code, ctrls, stack, gas, libraries, hctrls, hstack, hrun⟩ := h
  exact {
    typed := registersTyped_of_run (good_setup _ _ _ _ hctrls hstack rfl) hrun
    params := params_of_run rfl hrun rfl }

end Engine

end TonVm
