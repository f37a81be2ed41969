import TonVm.Proof.InstructionSet
import TonVm.Proof.EngineExec
import TonVm.Executor.Setup

/-!
# The main loop keeps the engine good

The implicit steps and the dispatch of exceptions keep the engine good under every policy that lets the
current continuation have an arity that is used up.
-/

namespace TonVm

open ExecLib

variable [TonTypes] {p : Policy}

namespace Engine

/-! ### Looking up a handler -/

theorem maintains_dispatch_subset {byte : Nat} {table : Handlers (M Unit)}
    (h : table.CoversSubset p byte) (cmd : UInt8) :
    Maintains (good p) (good p) (dispatch table cmd) (Covered p byte) := by
  induction table generalizing cmd with
  | new => exact .pure (.keeps inferInstance)
  | setRange table start stop handler ih =>
    unfold dispatch
    exact .ite (fun _ => .pure h.2) fun _ => ih h.1 cmd
  | addSubset table code subset ih ih' =>
    unfold dispatch
    exact .ite (fun _ => .after fun next _ => ih' h.2 next)
      fun _ => ih h.1 cmd

theorem maintains_dispatch {table : Handlers (M Unit)} (h : table.Covers p) (cmd : UInt8) :
    Maintains (good p) (good p) (dispatch table cmd) (Covered p cmd.toNat) := by
  induction table with
  | new => exact .pure (.keeps inferInstance)
  | setRange table start stop handler ih =>
    unfold dispatch
    exact .ite (fun hcmd => .pure (h.2 cmd.toNat hcmd.1 hcmd.2)) fun _ => ih h.1
  | addSubset table code subset ih _ =>
    unfold dispatch
    refine .ite (fun hcmd => ?_) fun _ => ih h.1
    rw [hcmd]
    exact .after fun next _ => maintains_dispatch_subset h.2 next

/-- Looking up a handler only reads bytes. -/
theorem maintains_getHandler {I : Engine → Prop} {E : Error → Prop}
    (h : Maintains I E nextCmd fun _ => True) (table : Handlers (M Unit)) :
    Maintains I E (getHandler table) fun _ => True := by
  refine .bind h fun cmd _ => ?_
  induction table generalizing cmd with
  | new => exact .pure trivial
  | setRange table start stop handler ih =>
    unfold dispatch
    exact .ite (fun _ => .pure trivial) fun _ => ih cmd
  | addSubset table code subset ih ih' =>
    unfold dispatch
    exact .ite (fun _ => .bind h fun next _ => ih' next) fun _ => ih cmd

instance (table : Handlers (M Unit)) : Keeps p (getHandler table) :=
  ⟨(maintains_getHandler ((Keeps.out (p := p)).mono fun _ _ => trivial) table).mono fun _ h => h⟩

theorem covered_of_getHandler {table : Handlers (M Unit)} (h : table.Covers p) {e s : Engine}
    {handler : M Unit} (he : good p e) (hget : exec (getHandler table) e = (.ok handler, s)) :
    ∃ byte t, exec nextCmd e = (.ok byte, t) ∧ exec (dispatch table byte) t = (.ok handler, s) ∧
      Covered p byte.toNat handler := by
  unfold getHandler at hget
  obtain ⟨byte, t, hbyte, hdispatch⟩ := exec_bind_eq_ok hget
  have ht : good p t := (Keeps.out (p := p) (m := nextCmd)).state he hbyte
  exact ⟨byte, t, hbyte, hdispatch, (maintains_dispatch h byte).result ht hdispatch⟩

/-! ### Implicit steps -/

instance : Keeps p countStep := by
  unfold countStep
  infer_instance

instance (reference : Cell) : Keeps p (stepNextRef reference) := by
  unfold stepNextRef
  infer_instance

instance : Keeps p checkWhileLoopCondition := by
  unfold checkWhileLoopCondition
  infer_instance

instance : Keeps p checkUntilLoopCondition := by
  unfold checkUntilLoopCondition
  infer_instance

/-- c0 holds a value of its type. -/
theorem maintains_ctrl_zero :
    Maintains (good p) (good p) (ctrl 0)
      fun item => good p item ∧ (p.typed → SaveList.canPut 0 item = true) := by
  unfold ctrl
  refine .bind .get fun e he => ?_
  split
  · rename_i item hitem
    have hc0 := goodEntry_c0 he.ctrls
    rw [show e.ctrls.c0 = some item from hitem] at hc0
    exact .pure hc0
  · exact .throw Good.out

instance (loop : ContinuationData) [h : Good p loop] : Keeps p (saveC0 loop) := by
  unfold saveC0
  refine ⟨.bind maintains_ctrl_zero fun item hitem => .pure ?_⟩
  have hloop := (good_cont_iff _).1 h.out
  exact (good_cont_iff _).2 ⟨hloop.1, good_putOpt hloop.2.1 hitem.1 hitem.2, hloop.2.2⟩

instance : Keeps p makeExternalError := by
  have (number : Nat) (value : IntegerData) [h : Good p value] :
      Good p (Error.exception (match ExceptionCode.fromUsize number with
        | some code => .fromCodeAndValue code value
        | none => .fromNumberAndValue number (.integer value))) := by
    refine ⟨fun _ => ?_⟩
    split <;> exact (good_integer value).2 h.out
  unfold makeExternalError
  refine ⟨.after fun item _ => .after fun number _ =>
    .ite (fun _ => Keeps.out) fun _ => .bind .get fun e he => ?_⟩
  have hstack : good p (Stack.drop 0 e.cc.stack) :=
    have : Good p e.cc.stack := ⟨((good_cont_iff _).1 he.cc).2.2⟩
    Good.out
  dsimp only
  split
  · rename_i item stack hdrop
    have : Good p stack := ⟨(hstack _ hdrop).2⟩
    have : Good p item := ⟨(hstack _ hdrop).1⟩
    have : Good p (match item.asInteger with | .ok x => x | .error _ => IntegerData.zero) := by
      have hx : good p item.asInteger := Good.out
      split
      · rename_i x hok
        exact ⟨hx x hok⟩
      · infer_instance
    exact Keeps.out
  · exact Keeps.out

section Steps

variable [Settles p]

instance : Keeps p stepOrdinary := by
  unfold stepOrdinary
  infer_instance

instance (code : Int) : Keeps p (stepPushint code) := by
  unfold stepPushint
  infer_instance

instance : Keeps p stepTryCatch := by
  unfold stepTryCatch
  infer_instance

set_option synthInstance.maxSize 1000000 in
instance (depth : Nat) : Keeps p (stepCatchRevert depth) := by
  unfold stepCatchRevert
  infer_instance

instance : Keeps p dischargeNargs := by
  unfold dischargeNargs
  refine ⟨.bind .get fun e he => .ite (fun _ => .ite (fun _ => ?_) fun _ => Keeps.out)
    fun _ => Keeps.out⟩
  have hstack : good p (Stack.dropRangeStraight (e.cc.stack.length - e.cc.nargs.toNat)
      e.cc.stack.length e.cc.stack) :=
    have : Good p e.cc.stack := ⟨((good_cont_iff _).1 he.cc).2.2⟩
    Good.out
  split
  · rename_i dropped stack hdrop
    have : Good p stack := ⟨(hstack _ hdrop).2⟩
    exact Keeps.out
  · exact Keeps.out

instance (body : SliceData) : Keeps p (moveWithoutStack body) := by
  refine ⟨fun e he => ⟨?_, ?_⟩⟩
  · exact (good_cont_iff _).2 ⟨fun _ => le_rfl, good_empty, good_nil⟩
  · have hcc := (good_cont_iff e.cc).1 he.cc
    exact { he with cc := (good_cont_iff _).2 hcc }

instance (body cond : SliceData) : Keeps p (stepWhileLoop body cond) := by
  unfold stepWhileLoop
  refine ⟨.after fun result hresult => ?_⟩
  split
  · exact Keeps.out
  · exact Keeps.out
  · rename_i err
    have : Good p err := ⟨hresult⟩
    exact Keeps.out

instance (body : SliceData) (counter : Int) : Keeps p (stepRepeatLoop body counter) := by
  unfold stepRepeatLoop
  infer_instance

instance (body : SliceData) : Keeps p (stepUntilLoop body) := by
  unfold stepUntilLoop
  infer_instance

instance (body : SliceData) : Keeps p (stepAgainLoop body) := by
  unfold stepAgainLoop
  infer_instance

instance : Keeps p implicitStep := by
  unfold implicitStep
  refine ⟨.bind .get fun e _ => ?_⟩
  split
  · exact Keeps.out
  · refine .bind .get fun e' _ => ?_
    unfold typeStep
    split <;> exact Keeps.out

end Steps

/-! ### Exceptions -/

/-- Only an exception that can be handled is paid for, and its value is good. -/
theorem maintains_payForException {error : Error} (h : good p error) :
    Maintains (good p) (good p) (payForException error) fun exception => good p exception.value := by
  have : Good p error := ⟨h⟩
  unfold payForException
  cases error with
  | other => exact .throw trivial
  | panic => exact .throw trivial
  | exception exception =>
    have hhandled : Maintains (good p) (good p) (chargeException (.exception exception) exception)
        fun exception => good p exception.value := by
      unfold chargeException
      refine .ite (fun _ => .bind (R := fun _ => False) (.throw h) fun _ h => h.elim) fun hcode =>
        .after fun _ _ => .bind .get fun e _ => ?_
      split
      · exact .pure (h hcode)
      · rename_i err herr
        have hcheck : good p e.gas.checkGasRemaining := Good.out
        rw [herr] at hcheck
        exact .after fun _ _ => .throw hcheck
    exact .ite (fun _ => .after fun _ _ => hhandled) fun _ => hhandled

section Exceptions

variable [Settles p]

instance (number : Int) (value : StackItem) [Good p value] :
    Keeps p (switchToQuit number value) := by
  unfold switchToQuit
  infer_instance

theorem keeps_raiseException {error : Error} (h : good p error) :
    Keeps p (raiseException error) := by
  have : Good p error := ⟨h⟩
  unfold raiseException
  refine ⟨.bind (maintains_payForException h) fun exception hvalue => .bind .get fun e he => ?_⟩
  have : Good p exception.value := ⟨hvalue⟩
  split
  · rename_i c2 hc2
    have : Good p c2 := ⟨good_get he.ctrls hc2⟩
    exact Keeps.out
  · split <;> exact Keeps.out

theorem keeps_raiseExceptionBugfix0 {error : Error} (h : good p error) :
    Keeps p (raiseExceptionBugfix0 error) := by
  have : Good p error := ⟨h⟩
  unfold raiseExceptionBugfix0
  refine ⟨.bind (maintains_payForException h) fun exception hvalue => .bind .get fun e he =>
    .bind .get fun e' he' => ?_⟩
  have : Good p exception.value := ⟨hvalue⟩
  have : Good p (Error.exception exception) := ⟨fun _ => hvalue⟩
  split
  · exact Keeps.out
  · rename_i c2 hc2
    have : Good p c2 := ⟨good_get he'.ctrls hc2⟩
    refine .after fun _ _ => .ite (fun _ => ?_) fun _ => Keeps.out
    split <;> exact Keeps.out

theorem keeps_dispatchException {error : Error} (h : good p error) :
    Keeps p (dispatchException error) := by
  have := keeps_raiseException h
  have := keeps_raiseExceptionBugfix0 h
  unfold dispatchException
  infer_instance

/-! ### One pass of the search for the next instruction -/

theorem keeps_finish {result : Except Error (Option Int)} (h : good p result) :
    Keeps p (seekStep.finish result) := by
  unfold seekStep.finish
  refine ⟨.bind .get fun e _ => ?_⟩
  have hcheck : good p e.gas.checkGasRemaining := Good.out
  split
  · exact Keeps.out
  · have := keeps_dispatchException h
    exact Keeps.out
  · rename_i err _ herr
    rw [herr] at hcheck
    have := keeps_dispatchException hcheck
    exact Keeps.out

instance : Keeps p seekStep := by
  unfold seekStep
  refine ⟨.bind .get fun e _ => .ite (fun _ => ?_) fun _ => ?_⟩
  · exact .after fun result _ => (keeps_finish (Plain.out p result)).out
  · exact .after fun result hresult => (keeps_finish hresult).out

/-! ### One instruction -/

omit [Settles p] in
theorem ends_catchError {α : Type} [Sane α] {m : M α} {e : Engine}
    (h : Ends (good p) (good p) m (good p) e) :
    Ends (good p) (good p) (catchError m) (good p) e := by
  unfold catchError
  refine h.attempt.bind fun r s _ hr hs => ?_
  split
  · exact Maintains.throw trivial s hs
  · exact Maintains.pure hr s hs

theorem keeps_dispatchResult {result : Option Error} (h : good p result) :
    Keeps p (dispatchResult result) := by
  unfold dispatchResult
  cases result with
  | none => infer_instance
  | some err =>
    exact keeps_dispatchException (h err rfl)

/-- An instruction from one state, when a failed search for the handler and the handler end well. -/
theorem ends_executeInstruction {getHandler : M (M Unit)} {e : Engine}
    (hfail : ∀ err s, exec getHandler { e with cmdCode := .from e.cc.code } = (.error err, s) →
      good p err ∧ good p s)
    (hrun : ∀ handler s, exec getHandler { e with cmdCode := .from e.cc.code } = (.ok handler, s) →
      Ends (good p) (good p) handler (good p) s) :
    Ends (good p) (good p) (executeInstruction getHandler) (good p) e := by
  have herror (err : Error) (herr : good p err) : good p (some err) := by
    rintro _ ⟨⟩
    exact herr
  suffices houtcome : Ends (good p) (good p) (instructionOutcome getHandler) (good p) e from
    houtcome.bind fun result s _ hresult hs => by
      have := keeps_dispatchResult hresult
      exact (inferInstance : Keeps p (do modify fun e => { e with cmd.params := [] }; dispatchResult result)).out s hs
  unfold instructionOutcome Ends
  rw [exec_bind_modify]
  rcases hget : exec getHandler { e with cmdCode := .from e.cc.code } with ⟨err | handler, s⟩
  · obtain ⟨herr, hs⟩ := hfail err s hget
    cases err with
    | panic =>
      rw [exec_bind_error (by rw [exec_catchError, hget])]
      exact ⟨herr, hs⟩
    | exception exception =>
      rw [exec_bind_ok (by rw [exec_catchError, hget])]
      exact Maintains.after (fun _ _ => .pure (herror _ herr)) s hs
    | other =>
      rw [exec_bind_ok (by rw [exec_catchError, hget])]
      exact Maintains.after (fun _ _ => .pure (herror _ herr)) s hs
  · rw [exec_bind_ok (by rw [exec_catchError, hget])]
    refine (ends_catchError (hrun handler s hget)).bind fun result t _ hresult ht => ?_
    cases result with
    | error err => exact Maintains.pure (herror err hresult) t ht
    | ok _ =>
      refine Maintains.bind .get (fun t' _ => ?_) t ht
      have hcheck : good p t'.gas.checkGasRemaining := Good.out
      split
      · exact .pure fun _ h => by cases h
      · rename_i err herr
        rw [herr] at hcheck
        exact .pure (herror err hcheck)

end Exceptions

/-! ### The state to start from -/

/-- The default contract information holds small numbers, cells and slices. -/
theorem good_oldDefault (mycode : Cell) :
    good p (SmartContractInfo.oldDefault mycode).intoTempDataItem := by
  have heq : (SmartContractInfo.oldDefault mycode).intoTempDataItem =
      .tuple [.tuple [.int 0x076ef1ea, .int 0, .int 0, .int 0, .int 0, .int 0, .int 0,
        .tuple [.int 0, .none], .slice TonTypes.sliceDefault, .none, .cell mycode, .int 0]] := rfl
  have hmagic : good p (StackItem.int 0x076ef1ea) :=
    (good_integer _).2 fun _ => inRange_of_bounds (by decide) (by decide)
  have hzero : good p (StackItem.int 0) := Good.out
  have hnone : good p StackItem.none := Good.out
  have hslice : good p (StackItem.slice TonTypes.sliceDefault) := Good.out
  have hcell : good p (StackItem.cell mycode) := Good.out
  simp only [heq, good_tuple, good_cons, hmagic, hzero, hnone, hslice, hcell, good_nil, and_self]

theorem good_setup {ctrls : Option SaveList} {stack : Option Stack}
    (capabilities : List GlobalCapability) (code : SliceData) (gas : Option Gas)
    (libraries : List HashmapE) (hctrls : good p ctrls) (hstack : good p stack)
    (hframe : p.frame .newEmpty (-1) (gas.getD Gas.test)) :
    good p ((withCapabilities capabilities).setupWithLibraries code ctrls stack gas libraries) := by
  have hcell : good p (StackItem.cell TonTypes.cellDefault) := Good.out
  have hcode : good p (StackItem.continuation (.withCode code)) := Good.out
  have htype (typeOf : ContinuationType) : good p (StackItem.continuation (.withType typeOf)) :=
    Good.out
  have hdefault : good p (defaultCtrls (withCapabilities capabilities) code) := by
    refine ⟨⟨htype _, fun _ => rfl⟩, ⟨htype _, fun _ => rfl⟩, ?_, ⟨hcode, fun _ => rfl⟩,
      ⟨hcell, fun _ => rfl⟩, ⟨hcell, fun _ => rfl⟩, ⟨good_oldDefault _, fun _ => rfl⟩⟩
    split
    · exact ⟨htype _, fun _ => rfl⟩
    · trivial
  have happlied : good p (ctrls.getD {}) := by
    cases ctrls with
    | none => exact good_empty
    | some list => exact hctrls list rfl
  have hstack' : good p (stack.getD []) := by
    cases stack with
    | none => exact good_nil
    | some items => exact hstack items rfl
  exact {
    cc := (good_cont_iff _).2 ⟨fun _ => le_rfl, good_empty, hstack'⟩
    ctrls := good_apply hdefault happlied
    roots := fun _ => by
      constructor <;> simp [setupWithLibraries, defaultCtrls, SaveListOf.apply]
    vars := (goodItems_iff _).2 good_nil
    params := List.forall_mem_nil _
    frame := hframe }

end Engine

end TonVm
