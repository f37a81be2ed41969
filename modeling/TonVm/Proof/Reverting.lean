import TonVm.Proof.TryCatch

/-!
# From an exception to its handler

An instruction that raises an exception leaves the dispatch to `execute`, which enters the handler in
c2. The handler of `TRYKEEP` stands behind a continuation of its own type. That one is entered with the
whole stack, and its implicit step cuts the stack before it passes control on. At that moment c2 is
empty, so an exception of this step is unhandled.
-/

namespace TonVm

open ExecLib

section Reverting

variable [TonTypes]

namespace Engine

/-- The code is used up: there are no bits left, and no reference. -/
structure UsedUp (code : SliceData) : Prop where
  bits : TonTypes.remainingBits code = 0
  references : TonTypes.referenceOpt code 0 = none

/-! ### The step that cuts the stack -/

section Revert

variable {e : Engine} {exception : Exception} {depth : Nat} {handler handler' : ContinuationData}

/-- An engine that has made a step. -/
def counted (e : Engine) : Engine := { e with step := e.step + 1 }

/-- The continuation that cuts the stack, without its saved registers. -/
def revertCont (depth : Nat) : ContinuationData := .withType (.catchRevert depth)

/-- The state after the dispatch to the handler of `TRYKEEP`. -/
def reverting (e : Engine) (exception : Exception) (depth : Nat) (handler : ContinuationData) :
    Engine :=
  (e.charged exception).holding
    { revertCont depth with stack := e.cc.stack ++ exception.pair }
    ((e.ctrls.remove 2).setOpt 0 (some (.continuation handler)))
    (e.cmd.vars ++ [.continuation { e.cc with stack := [] }])

theorem exec_dispatchException_reverting (hcap : e.checkCapabilities .capsTvmBugfixes2022 = true)
    (hcatch : exception.Catchable) (hparams : e.cmd.params = [])
    (hc2 : e.ctrls.get 2 = some (.continuation (tryRevert depth handler)))
    (hvars : e.cmd.vars.length < 16) (hgas : Gas.exceptionPrice ≤ e.gas.gasRemaining) :
    exec (dispatchException (.exception exception)) e =
      (.ok (), e.reverting exception depth handler) := by
  have hpargs := pargsRaw_of_params hparams
  have hpassed : passed (e.cc.stack ++ exception.pair) none (entered (tryRevert depth handler)) = _ :=
    passed_whole _ rfl
  have hprice : popAllPrice (e.cc.stack ++ exception.pair) none (entered (tryRevert depth handler)) = 0 :=
    popAllPrice_whole _ rfl rfl
  rw [← hpargs] at hpassed hprice
  unfold dispatchException
  rw [exec_bind_get, hcap, if_pos rfl, exec_raiseExceptionBugfix0 hcatch hc2 rfl hvars hpassed
    (by unfold dispatchPrice; rwa [hprice, add_zero]), hprice]
  unfold pay reverting
  rw [Gas.useGas_zero]
  rfl

theorem exec_stepCatchRevert (s : Engine) (cc : ContinuationData) (ctrls : SaveList)
    (vars : List StackItem) (stack : Stack) (exception : Exception) (depth : Nat) :
    exec (stepCatchRevert depth)
        (s.holding { cc with stack := stack ++ exception.pair } ctrls vars) =
      if stack.length < depth then
        (.error (.exception (.fromCode .stackUnderflow)),
          s.counted.holding { cc with stack } ctrls vars)
      else
        exec (do switch (Addr.ctrl 0); return none) (s.counted.holding
          { cc with stack := stack.take depth ++ exception.pair } ctrls vars) := by
  have hlength : (stack ++ exception.pair).length - 2 = stack.length := by
    rw [List.length_append]
    rfl
  have htake : exec (takeStack (Stack.dropRangeStraight 0 2)) (s.counted.holding
      { cc with stack := stack ++ exception.pair } ctrls vars) = (.ok exception.pair,
        s.counted.holding { cc with stack } ctrls vars) := by
    unfold takeStack
    rw [exec_bind_get, holding_cc, dropRangeStraight_zero (by rw [List.length_append]; exact Nat.le_add_left _ _),
      hlength, List.drop_left, List.take_left, lift_ok, exec_bind_pure, exec_bind_modify]
    rfl
  unfold stepCatchRevert countStep
  rw [exec_bind_modify]
  refine (exec_bind_ok htake).trans ?_
  rw [exec_bind_get]
  dsimp only
  refine (exec_ite _ _ _ _).trans ?_
  by_cases hdepth : stack.length < depth
  · refine (if_pos hdepth).trans ?_
    rw [if_pos hdepth]
    rfl
  · refine (if_neg hdepth).trans ?_
    rw [if_neg hdepth, exec_bind_modify]
    have hdrop : Stack.dropTop (stack.length - depth) stack = stack.take depth := by
      unfold Stack.dropTop Stack.depth
      rw [if_neg (by omega), Nat.sub_sub_self (by omega)]
    simp only [holding_cc, hdrop]
    rfl

/-- The state in which the step of that continuation has changed the stack. -/
def reverted (e : Engine) (exception : Exception) (depth : Nat) (handler : ContinuationData)
    (stack : Stack) : Engine :=
  (e.charged exception).counted.holding
    { revertCont depth with stack }
    ((e.ctrls.remove 2).setOpt 0 (some (.continuation handler)))
    (e.cmd.vars ++ [.continuation { e.cc with stack := [] }])

theorem exec_implicitStep_reverting (hdefault : UsedUp TonTypes.sliceDefault) :
    exec implicitStep (e.reverting exception depth handler) =
      if e.cc.stack.length < depth then
        (.error (.exception (.fromCode .stackUnderflow)),
          e.reverted exception depth handler e.cc.stack)
      else
        exec (do switch (Addr.ctrl 0); return none) (e.reverted exception depth handler
          (e.cc.stack.take depth ++ exception.pair)) := by
  have hstep : exec implicitStep (e.reverting exception depth handler) =
      exec (stepCatchRevert depth) (e.reverting exception depth handler) := by
    unfold implicitStep
    rw [exec_bind_get, show (e.reverting exception depth handler).cc.code = TonTypes.sliceDefault from
      rfl, hdefault.references]
    rfl
  rw [hstep]
  unfold reverting reverted
  exact exec_stepCatchRevert _ _ _ _ _ _ _

theorem stopsAtOnce_reverting : stopsAtOnce (e.reverting exception depth handler) = false :=
  Bool.and_false _

section Switch

variable {stack stack' : Stack}
  (hgas : Gas.exceptionPrice + popAllPrice stack none handler ≤ e.gas.gasRemaining)
  (hparams : e.cmd.params = [])

include hgas hparams

theorem exec_switch_reverted (hpassed : passed stack none handler = .ok (stack', handler')) :
    ∃ t, exec (switch (Addr.ctrl 0)) (e.reverted exception depth handler stack) = (.ok (), t) ∧
      t.cc = { handler' with savelist := {} } ∧
      t.ctrls = (e.ctrls.remove 2 |>.remove 0).apply handler.savelist ∧
      t.gas.gasRemaining = e.gas.gasRemaining - Gas.exceptionPrice -
        popAllPrice stack none handler := by
  have hpargs : pargsRaw e.cmd = none := pargsRaw_of_params hparams
  rw [← hpargs] at hpassed hgas ⊢
  have hgas' : popAllPrice stack (pargsRaw e.cmd) handler ≤ (e.charged exception).gas.gasRemaining := by
    rw [charged_gasRemaining]
    omega
  have hswitch : exec (switch (Addr.ctrl 0)) (e.reverted exception depth handler stack) = _ :=
    exec_switch_c0 hpassed hgas' rfl
  rw [passed_savelist hpassed] at hswitch
  exact ⟨_, hswitch, rfl, rfl, rfl⟩

theorem exec_switch_reverted_error {code : ExceptionCode} (hpassed : passed stack none handler = .error code) :
    ∃ t, exec (switch (Addr.ctrl 0)) (e.reverted exception depth handler stack) =
      (.error (.exception (.fromCode code)), t) ∧ t.ctrls.get 2 = none ∧
      t.capabilities = e.capabilities ∧
      t.gas.gasRemaining = e.gas.gasRemaining - Gas.exceptionPrice -
        popAllPrice stack none handler := by
  have hpargs : pargsRaw e.cmd = none := pargsRaw_of_params hparams
  rw [← hpargs] at hpassed hgas ⊢
  have hgas' : popAllPrice stack (pargsRaw e.cmd) handler ≤ (e.charged exception).gas.gasRemaining := by
    rw [charged_gasRemaining]
    omega
  have hpop : exec (popAll (Addr.ctrl 0)) (e.reverted exception depth handler stack) = _ :=
    exec_popAll_ctrl_error hpassed hgas' (by decide) rfl
  unfold switch
  rw [exec_bind_error hpop]
  exact ⟨_, rfl, rfl, rfl, rfl⟩

end Switch

end Revert

/-! ### Passes around an exception -/

section Passes

variable [TonBlock] {e t : Engine} {exception : Exception}

omit [TonBlock] in
theorem checkGasRemaining_of_nonneg {gas : Gas} (h : 0 ≤ gas.gasRemaining) :
    gas.checkGasRemaining = .ok () := if_pos h

section Step

variable (hbits : TonTypes.remainingBits e.cc.code = 0) (hstops : stopsAtOnce e = false)
  (hgas : 0 ≤ t.gas.gasRemaining)

include hbits hstops

/-- A pass that makes an implicit step and pays for it. -/
theorem exec_pass_of_implicitStep {r : Except Error (Option Int)}
    (hstep : exec implicitStep e = (r, t)) (hr : r ≠ .error .panic) : exec pass e = exec (seekStep.finish r) t := by
  rw [exec_pass_of_end (by rw [hbits]; exact not_not.2 rfl)]
  unfold seekStep
  rw [exec_bind_get, hstops, if_neg (by decide)]
  have hcatch : exec (catchError implicitStep) e = (.ok r, t) := by
    rw [exec_catchError, hstep]
    split
    · rename_i heq
      cases heq
      exact absurd rfl hr
    · rename_i heq
      cases heq
      rfl
  exact exec_bind_ok hcatch

include hgas

theorem exec_pass_of_step {exitCode : Option Int}
    (hstep : exec implicitStep e = (.ok exitCode, t)) : exec pass e = (.ok exitCode, t) := by
  rw [exec_pass_of_implicitStep hbits hstops hstep nofun]
  unfold seekStep.finish
  rw [exec_bind_get, checkGasRemaining_of_nonneg hgas]
  rfl

theorem exec_pass_of_failedStep
    (hstep : exec implicitStep e = (.error (.exception exception), t)) :
    exec pass e = exec (do dispatchException (.exception exception); return none) t := by
  rw [exec_pass_of_implicitStep hbits hstops hstep nofun]
  unfold seekStep.finish
  rw [exec_bind_get, checkGasRemaining_of_nonneg hgas]

end Step

omit [TonBlock] in
/-- An exception without a handler ends the run. -/
theorem exec_dispatchException_unhandled (hcap : e.checkCapabilities .capsTvmBugfixes2022 = true)
    (hcatch : exception.Catchable) (hc2 : e.ctrls.get 2 = none)
    (hgas : Gas.exceptionPrice ≤ e.gas.gasRemaining) :
    exec (dispatchException (.exception exception)) e =
      (.error (.exception exception), e.charged exception) := by
  unfold dispatchException raiseExceptionBugfix0
  rw [exec_bind_get, hcap, if_pos rfl, exec_bind_ok (exec_payForException hcatch hgas), exec_bind_get,
    exec_bind_get, charged_ctrls, hc2]
  rfl

variable {depth : Nat} {handler handler' : ContinuationData} {stack' : Stack}
  (hdefault : UsedUp TonTypes.sliceDefault) (hparams : e.cmd.params = [])

include hdefault hparams

/-- When the stack is deep enough and the handler can take it, the handler of `TRYKEEP` is entered. -/
theorem exec_pass_reverting (hdepth : depth ≤ e.cc.stack.length)
    (hpassed : passed (e.cc.stack.take depth ++ exception.pair) none handler = .ok (stack', handler'))
    (hgas : Gas.exceptionPrice + popAllPrice (e.cc.stack.take depth ++ exception.pair) none handler ≤
      e.gas.gasRemaining) :
    ∃ t, exec pass (e.reverting exception depth handler) = (.ok none, t) ∧
      t.cc = { handler' with savelist := {} } ∧
      t.ctrls = (e.ctrls.remove 2 |>.remove 0).apply handler.savelist := by
  obtain ⟨t, hswitch, hcc, hctrls, hleft⟩ := exec_switch_reverted hgas hparams hpassed
  refine ⟨t, exec_pass_of_step hdefault.bits stopsAtOnce_reverting (by omega) ?_, hcc, hctrls⟩
  rw [exec_implicitStep_reverting hdefault, if_neg (by omega)]
  exact exec_bind_ok hswitch

/-- Otherwise the run ends: the register of the handler is empty during this step. -/
theorem exec_pass_reverting_error (hcap : e.checkCapabilities .capsTvmBugfixes2022 = true)
    (hfails : e.cc.stack.length < depth ∨ (depth + 2 : Int) < handler.nargs)
    (hgas : 2 * Gas.exceptionPrice +
      popAllPrice (e.cc.stack.take depth ++ exception.pair) none handler ≤ e.gas.gasRemaining) :
    ∃ t, exec pass (e.reverting exception depth handler) =
      (.error (.exception (.fromCode .stackUnderflow)), t) := by
  have hnonneg := popAllPrice_nonneg (e.cc.stack.take depth ++ exception.pair) none handler
  have hprice : (0 : Int) ≤ Gas.exceptionPrice := by decide
  have hcatch : (Exception.fromCode .stackUnderflow).Catchable := by
    refine ⟨?_, nofun⟩
    change (-2 ^ 31 : Int) ≤ 2 ∧ (2 : Int) < 2 ^ 31
    decide
  have hfailed : ∃ s, exec implicitStep (e.reverting exception depth handler) =
      (.error (.exception (.fromCode .stackUnderflow)), s) ∧ s.ctrls.get 2 = none ∧
      s.capabilities = e.capabilities ∧ Gas.exceptionPrice ≤ s.gas.gasRemaining := by
    rw [exec_implicitStep_reverting hdefault]
    by_cases hdepth : e.cc.stack.length < depth
    · rw [if_pos hdepth]
      refine ⟨_, rfl, rfl, rfl, ?_⟩
      change Gas.exceptionPrice ≤ e.gas.gasRemaining - Gas.exceptionPrice
      omega
    · rw [if_neg hdepth]
      have hnargs := hfails.resolve_left hdepth
      have hlength : (e.cc.stack.take depth ++ exception.pair).length = depth + 2 := by
        rw [List.length_append, List.length_take, Nat.min_eq_left (by omega)]
        rfl
      have hpassed : passed (e.cc.stack.take depth ++ exception.pair) none handler =
          .error .stackUnderflow := passed_of_lt (by rw [hlength]; omega)
      obtain ⟨s, hswitch, hc2, hcaps, hleft⟩ := exec_switch_reverted_error (by omega) hparams hpassed
      exact ⟨s, exec_bind_error hswitch, hc2, hcaps, by omega⟩
  obtain ⟨s, hstep, hc2, hcaps, hleft⟩ := hfailed
  have hcap' : s.checkCapabilities .capsTvmBugfixes2022 = true := by
    unfold checkCapabilities at hcap ⊢
    rwa [hcaps]
  exact ⟨_, (exec_pass_of_failedStep hdefault.bits stopsAtOnce_reverting (by omega) hstep).trans
    (exec_bind_error (exec_dispatchException_unhandled hcap' hcatch hc2 hleft))⟩

end Passes

/-! ### Exceptions of an instruction -/

section Raising

variable [TonBlock] {e s : Engine} {exception : Exception}

/-- An explicit instruction of the first state has raised an exception, and the second state is the one
in which it is dispatched. -/
structure Raises (e : Engine) (exception : Exception) (s : Engine) : Prop where
  code : TonTypes.remainingBits e.cc.code ≠ 0
  result : exec (instructionResult (getHandler Handlers.newCodePage0)) e =
    (.ok (some (.exception exception)), s)

theorem Raises.exec_pass (h : Raises e exception s) :
    exec pass e = exec (do dispatchException (.exception exception); return none) s := by
  rw [exec_pass_of_code h.code, executeInstruction_eq, bind_assoc, exec_bind_ok h.result]
  rfl

theorem Raises.params (h : Raises e exception s) : s.cmd.params = [] :=
  params_of_instructionResult h.result

/-- The variable that is added to a number of others is where its address points. -/
def AddressesLast (count : Nat) : Prop :=
  Place.of (Addr.var count) = .var ∧ Addr.storageIndex (Addr.var count) = count

omit [TonTypes] [TonBlock] in
theorem addressesLast_iff (count : Nat) : AddressesLast count ↔ count < 16 := by
  constructor
  · rintro ⟨-, hindex⟩
    rw [← hindex]
    exact Nat.and_lt_two_pow _ (by decide : 0x000F < 2 ^ 4)
  · exact fun h => ⟨place_var h, storageIndex_var h⟩

omit [TonBlock] in
theorem get_interrupted (ctrls saved : SaveList) {i : Nat} (hi : i ∈ SaveListOf.regs) :
    ((ctrls.remove 2).apply saved).get i =
      (saved.get i).or (if i = 2 then none else ctrls.get i) := by
  simp only [SaveListOf.regs, List.mem_cons, List.not_mem_nil, or_false] at hi
  rcases hi with rfl | rfl | rfl | rfl | rfl | rfl | rfl <;> rfl

/-- The dispatch enters the variable that holds the handler exactly if there are fewer than 16 others.
In that case the handler in c2 starts with the exception pair on its stack, its saved registers, and
no c2 but its own. The handler of `TRYKEEP` starts, one pass later, with the stack cut to the depth that
was noted and the exception pair. -/
theorem dispatch_enters (hdefault : UsedUp TonTypes.sliceDefault) (hraised : Raises e exception s)
    (hcap : s.checkCapabilities .capsTvmBugfixes2022 = true) (hcatch : exception.Catchable) :
    (AddressesLast s.cmd.vars.length ↔ s.cmd.vars.length < 16) ∧
    (s.cmd.vars.length < 16 →
      (∀ handler, s.ctrls.get 2 = some (.continuation handler) → handler.typeOf.isExcQuit = false →
        handler.typeOf.isCatchRevert = false →
        handlerPrice s.cc.stack exception handler ≤ s.gas.gasRemaining →
        ∃ t, exec pass e = (.ok none, t) ∧ t.cc.code = handler.code ∧
          t.cc.stack = handler.stack ++ exception.pair ∧
          ∀ i ∈ SaveListOf.regs, t.ctrls.get i =
            (handler.savelist.get i).or (if i = 2 then none else s.ctrls.get i)) ∧
      (∀ depth handler, s.ctrls.get 2 = some (.continuation (tryRevert depth handler)) →
        handler.nargs = -1 → handler.stack = [] → depth ≤ s.cc.stack.length →
        Gas.exceptionPrice ≤ s.gas.gasRemaining →
        ∃ t u, exec pass e = (.ok none, t) ∧ exec pass t = (.ok none, u) ∧
          u.cc.code = handler.code ∧ u.cc.stack = s.cc.stack.take depth ++ exception.pair ∧
          u.ctrls.get 2 = handler.savelist.get 2)) := by
  have hparams := hraised.params
  refine ⟨addressesLast_iff _, fun hvars => ⟨?_, ?_⟩⟩
  · intro handler hc2 hquit hrevert hgas
    have hdispatch := exec_dispatchException_handling hcatch hparams hc2 hquit hrevert hvars hgas hcap
    refine ⟨_, hraised.exec_pass.trans (exec_bind_ok hdispatch), rfl, rfl, ?_⟩
    exact fun i hi => get_interrupted _ _ hi
  · intro depth handler hc2 hnargs hcaptured hdepth hgas
    have hdispatch := exec_dispatchException_reverting hcap hcatch hparams hc2 hvars hgas
    have hpassed := passed_whole (s.cc.stack.take depth ++ exception.pair) hnargs
    have hprice := popAllPrice_whole (s.cc.stack.take depth ++ exception.pair) hnargs hcaptured
    obtain ⟨u, hu, hcc, hctrls⟩ := exec_pass_reverting hdefault hparams hdepth hpassed
      (by rwa [hprice, add_zero])
    refine ⟨_, u, hraised.exec_pass.trans (exec_bind_ok hdispatch), hu, by rw [hcc], ?_, ?_⟩
    · rw [hcc, hcaptured, List.nil_append]
    · rw [hctrls]
      exact Option.or_none

end Raising

/-! ### What `TRYKEEP` does with an exception -/

section TryKeep

variable [TonBlock] {e : Engine} {stack kept : Stack} {body body' handler : ContinuationData}

omit [TonBlock] in
theorem popAllPrice_tryHandler {s : Engine} (hcap : s.checkCapabilities .capsTvmBugfixes2022 = true)
    (kept stack : Stack) : popAllPrice stack none (tryHandler s kept handler) =
      popAllPrice stack none handler := by
  unfold popAllPrice tryHandler tryTyped
  simp only [hcap, if_true]
  rfl

/-- The handler is in force: the body has no saved c2 in its place, c2 still holds what `TRYKEEP` put
there, and the handler gets a variable of its own. -/
structure HandlerInForce (body : ContinuationData) (t u : Engine) : Prop where
  body : body.savelist.get 2 = none
  c2 : u.ctrls.get 2 = t.ctrls.get 2
  vars : u.cmd.vars.length < 16

/-- The handler is in force and can be entered with the stack cut to the depth at the start. -/
structure HandlerKept (stack : Stack) (body handler : ContinuationData) (t u : Engine) : Prop
    extends HandlerInForce body t u where
  depth : stack.length ≤ u.cc.stack.length
  nargs : handler.nargs ≤ stack.length + 2

/-- An exception is dispatched, and the next pass enters the handler or the one that was in c2 before. -/
def Handles (e u : Engine) (exception : Exception) (handler : ContinuationData) : Prop :=
  ∃ w v, exec (dispatchException (.exception exception)) u = (.ok (), w) ∧ exec pass w = (.ok none, v) ∧
    (v.cc.code = handler.code ∨
      ∃ outer, e.ctrls.get 2 = some (.continuation outer) ∧ v.cc.code = outer.code)

/-- An exception of the body of `TRYKEEP` gets to its handler if this is in force, the stack is still as
deep as at the start and the handler asks for no more than this and the exception pair. Where it is in
force and the rest fails the run ends, and the handler that was in c2 before does not get the exception
either. -/
theorem trykeep_handles_iff (hdefault : UsedUp TonTypes.sliceDefault) (he : RegistersTyped e)
    (hcap : e.checkCapabilities .capsTvmBugfixes2022 = true)
    (hstack : e.cc.stack = stack ++ [.continuation body, .continuation handler])
    (hdepth : stack.length < 2 ^ 32)
    (hpassed : passed stack none { body with savelist := body.savelist.remove 0 } =
      .ok (kept, body'))
    (hgas : popAllPrice stack none { body with savelist := body.savelist.remove 0 } ≤
      e.afterLoad.gas.gasRemaining) {t : Engine} (ht : exec executeTrykeep e = (.ok (), t))
    {u : Engine} {exception : Exception} (hparams : u.cmd.params = [])
    (hcap' : u.checkCapabilities .capsTvmBugfixes2022 = true) (hcatch : exception.Catchable)
    (hgas' : 2 * Gas.exceptionPrice + popAllPrice (u.cc.stack.take stack.length ++ exception.pair) none
      handler ≤ u.gas.gasRemaining) :
    (HandlerKept stack body handler t u → Handles e u exception handler) ∧
    (HandlerInForce body t u →
      (Handles e u exception handler ↔ HandlerKept stack body handler t u) ∧
      (¬HandlerKept stack body handler t u →
        ∃ w v, exec (dispatchException (.exception exception)) u = (.ok (), w) ∧
          exec pass w = (.error (.exception (.fromCode .stackUnderflow)), v))) := by
  have hs := loaded_afterLoad e
  have hkeep : exec executeTrykeep e = exec (initTryCatch true) e.afterLoad := by
    unfold executeTrykeep
    rw [exec_bind_get, hcap]
    exact exec_bind_ok (exec_load e)
  have hprice : (0 : Int) ≤ Gas.exceptionPrice := by decide
  have hnonneg := popAllPrice_nonneg (u.cc.stack.take stack.length ++ exception.pair) none handler
  rw [← popAllPrice_tryHandler (s := e.afterLoad) hcap kept] at hgas' hnonneg
  have hnargs : (tryHandler e.afterLoad kept handler).nargs = handler.nargs := if_pos hcap
  have hdispatch (h : HandlerInForce body t u) :
      exec (dispatchException (.exception exception)) u = (.ok (), u.reverting exception stack.length
        (tryHandler e.afterLoad kept handler)) := by
    obtain ⟨vars, -, htry⟩ := exec_initTryCatch he hs true hstack hdepth h.body hpassed hgas
    cases ht.symm.trans (hkeep.trans htry)
    exact exec_dispatchException_reverting hcap' hcatch hparams h.c2 h.vars (by omega)
  have hkept (h : HandlerKept stack body handler t u) : Handles e u exception handler := by
    have hlength : (u.cc.stack.take stack.length ++ exception.pair).length = stack.length + 2 := by
      rw [List.length_append, List.length_take, Nat.min_eq_left h.depth]
      rfl
    have hle : (tryHandler e.afterLoad kept handler).nargs ≤
        ((u.cc.stack.take stack.length ++ exception.pair).length : Int) := by
      rw [hnargs, hlength]
      exact h.nargs
    obtain ⟨⟨stack', handler'⟩, hok⟩ := passed_of_le hle
    obtain ⟨v, hv, hcc, -⟩ := exec_pass_reverting hdefault hparams h.depth hok (by omega)
    refine ⟨_, v, hdispatch h.toHandlerInForce, hv, .inl ?_⟩
    have hcode := passed_code hok
    rw [hcc]
    exact hcode
  refine ⟨hkept, fun h => ?_⟩
  have hlost (hnot : ¬HandlerKept stack body handler t u) : ∃ v, exec pass (u.reverting exception
      stack.length (tryHandler e.afterLoad kept handler)) =
        (.error (.exception (.fromCode .stackUnderflow)), v) := by
    refine exec_pass_reverting_error hdefault hparams hcap' ?_ hgas'
    by_contra hfits
    rw [hnargs] at hfits
    exact hnot ⟨h, by omega, by omega⟩
  refine ⟨⟨fun hhandles => ?_, hkept⟩, fun hnot => (hlost hnot).elim fun v hv => ⟨_, v, hdispatch h, hv⟩⟩
  by_contra hnot
  obtain ⟨v, hv⟩ := hlost hnot
  obtain ⟨w, v', hw, hv', -⟩ := hhandles
  cases (hdispatch h).symm.trans hw
  rw [hv] at hv'
  cases hv'

end TryKeep

end Engine

end Reverting

namespace Engine

open scoped Plain

/-- `THROW 5` and `PUSHINT 9`, with a handler in c2. -/
def throwingTo (handler : ContinuationData) : Engine :=
  (withCapabilities [.capsTvmBugfixes2022]).setupWithLibraries (Plain.code [0xF2, 0x05, 0x79])
    (some { c2 := some (.continuation handler) }) none none []

/-- With a handler that pushes 7. -/
def throwing : Engine := throwingTo (.withCode (Plain.code [0x77]))

theorem usedUp_default : UsedUp TonTypes.sliceDefault := ⟨rfl, rfl⟩

/-- The exception that an instruction has raised. -/
def raisedBy : Except Error (Option Error) → Option Exception
  | .ok (some (.exception exception)) => some exception
  | _ => none

theorem eq_of_raisedBy {r : Except Error (Option Error)} {exception : Exception}
    (h : raisedBy r = some exception) : r = .ok (some (.exception exception)) := by
  unfold raisedBy at h
  split at h
  · cases h
    rfl
  · cases h

/-- The state in which an exception of the instruction is dispatched. -/
def threw (e : Engine) : Engine := (exec (instructionResult (getHandler Handlers.newCodePage0)) e).2

theorem exists_raises {e : Engine} (hcode : TonTypes.remainingBits e.cc.code ≠ 0)
    (h : (raisedBy (exec (instructionResult (getHandler Handlers.newCodePage0)) e).1).map
      (fun exception => (exception.exceptionOrCustomCode, exception.exceptionCode)) = some (5, none)) :
    ∃ exception, Raises e exception (threw e) ∧ exception.Catchable := by
  obtain ⟨exception, hraised, hthrown⟩ := Option.map_eq_some_iff.1 h
  rw [Prod.mk.injEq] at hthrown
  refine ⟨exception, ⟨hcode, ?_⟩, ⟨by rw [hthrown.1]; decide, by rw [hthrown.2]; decide⟩⟩
  exact Prod.ext (eq_of_raisedBy hraised) rfl

def thrown : Engine := threw throwing

theorem raises_throwing : ∃ exception, Raises throwing exception thrown ∧ exception.Catchable :=
  exists_raises (by decide +kernel) (by decide +kernel)

theorem c2_thrown : thrown.ctrls.get 2 = some (.continuation (.withCode (Plain.code [0x77]))) := rfl

theorem enters_throwing : ∃ exception t, exec pass throwing = (.ok none, t) ∧
    t.cc.code = Plain.code [0x77] ∧ t.cc.stack = Exception.pair exception ∧ t.ctrls.get 2 = none := by
  obtain ⟨exception, hraised, hcatch⟩ := raises_throwing
  have hprice : handlerPrice thrown.cc.stack exception (.withCode (Plain.code [0x77])) =
      Gas.exceptionPrice := rfl
  obtain ⟨-, henters⟩ := dispatch_enters usedUp_default hraised (by decide +kernel) hcatch
  obtain ⟨t, hpass, hcode, hstack, hregs⟩ := (henters (by decide +kernel)).1 _ c2_thrown rfl rfl
    (by rw [hprice]; decide +kernel)
  exact ⟨exception, t, hpass, hcode, hstack, hregs 2 (by decide)⟩

/-- A handler whose implicit return asks for three values, so that it fails with the two it gets. -/
def failingHandler (next : ContinuationData) : ContinuationData :=
  { ContinuationOf.withCode (Plain.code []) with
    savelist := {
      c0 := some (.continuation { ContinuationOf.withCode (Plain.code []) with nargs := 3 })
      c2 := some (.continuation next) } }

/-- A number of these before the last handler. -/
def handlerChain : Nat → ContinuationData → ContinuationData
  | 0, last => last
  | n + 1, last => failingHandler (handlerChain n last)

/-- A handler that begins with an invalid instruction. -/
def invalidHandler : ContinuationData :=
  { ContinuationOf.withCode (Plain.code [0xFE]) with
    savelist := { c2 := some (.continuation (.withCode (Plain.code [0x77]))) } }

/-- The exception of the invalid instruction reaches the handler that pushes 7 when there are 15
variables. With 16 it goes to the code that had thrown first. -/
theorem ending_invalidHandler :
    (passes 16 (throwingTo (handlerChain 15 invalidHandler))).2.cmd.vars.length = 16 ∧
    ending (passes 17 (throwingTo (handlerChain 14 invalidHandler))) = (none, [0, 6, 7]) ∧
    ending (passes 18 (throwingTo (handlerChain 15 invalidHandler))) = (none, [0, 2, 0, 6, 9]) := by
  decide +kernel

/-- `TRYKEEP` around `THROW 5`, at a stack with one value, while c2 holds a handler that pushes 7. -/
def keeping : Engine :=
  (withCapabilities [.capsTvmBugfixes2022]).setupWithLibraries (Plain.code [0xF2, 0xFE])
    (some { c2 := some (.continuation (.withCode (Plain.code [0x77]))) })
    (some [.int 1, .continuation (.withCode (Plain.code [0xF2, 0x05])),
      .continuation (.withCode (Plain.code [0x78]))]) none []

theorem registersTyped_keeping : RegistersTyped keeping := by
  have hc2 : good (.registers keeping.cstate)
      (StackItem.continuation (.withCode (Plain.code [0x77]))) := Good.out
  refine good_setup _ _ _ _ ?_ ?_ rfl
  · rintro _ ⟨⟩
    exact ⟨trivial, trivial, ⟨hc2, fun _ => rfl⟩, trivial, trivial, trivial, trivial⟩
  · rintro _ ⟨⟩
    simp only [good_cons, good_nil, and_true]
    exact ⟨Good.out, Good.out, Good.out⟩

/-- The body of `TRYKEEP`. -/
def kept : Engine := (exec executeTrykeep keeping).2

theorem handles_keeping : ∃ exception, Raises kept exception (threw kept) ∧
    HandlerKept [.int 1] (.withCode (Plain.code [0xF2, 0x05])) (.withCode (Plain.code [0x78])) kept
      (threw kept) ∧
    Handles keeping (threw kept) exception (.withCode (Plain.code [0x78])) := by
  have hstack : keeping.cc.stack = [.int 1] ++ [.continuation (.withCode (Plain.code [0xF2, 0x05])),
      .continuation (.withCode (Plain.code [0x78]))] := rfl
  have hkept : HandlerKept [.int 1] (.withCode (Plain.code [0xF2, 0x05]))
      (.withCode (Plain.code [0x78])) kept (threw kept) :=
    ⟨⟨rfl, rfl, by decide +kernel⟩, by decide +kernel, by decide⟩
  obtain ⟨exception, hraised, hcatch⟩ := exists_raises (e := kept) (by decide +kernel) (by decide +kernel)
  have hprice : popAllPrice ((threw kept).cc.stack.take 1 ++ exception.pair) none
      (.withCode (Plain.code [0x78])) = 0 := by
    have hone : ((threw kept).cc.stack.take 1).length = 1 := by decide +kernel
    unfold popAllPrice
    rw [List.length_append, hone]
    rfl
  refine ⟨exception, hraised, hkept, ?_⟩
  exact (trykeep_handles_iff usedUp_default registersTyped_keeping rfl hstack (by decide) rfl (by decide)
    rfl hraised.params (by decide +kernel) hcatch (hprice ▸ by decide +kernel)).1 hkept

/-- The body drops the value below it before it throws. -/
def keepingAndDropping : Engine :=
  (withCapabilities [.capsTvmBugfixes2022]).setupWithLibraries
    (Plain.code [0x71, 0x93, 0x30, 0xF2, 0x05, 0x91, 0x78, 0xF2, 0xFE])
    (some { c2 := some (.continuation (.withCode (Plain.code [0x77]))) }) none none []

/-- The run ends with the exception of the step that cuts the stack. -/
theorem lost_keepingAndDropping :
    endedBy (passes 9 keepingAndDropping).1 = some .stackUnderflow ∧
    integersOn (passes 9 keepingAndDropping).2.cc.stack = [] := by
  decide +kernel

end Engine

end TonVm
