import TonVm.Proof.Returns

/-!
# Dispatch of an exception

An exception that is not out of gas pays its price and goes to the handler in c2. The handler gets the
exception pair, its saved registers, and no c2 but its own. It is pushed as an instruction variable and
addressed by the number of variables, of which the address keeps four bits.
-/

namespace TonVm

open ExecLib

variable [TonTypes]

namespace Exception

/-- The value and the code of an exception, as a handler gets them. -/
def pair (exception : Exception) : Stack :=
  [exception.value, .int exception.exceptionOrCustomCode]

/-- An exception that a handler may get. The code is a 32-bit number in the source. -/
structure Catchable (exception : Exception) : Prop where
  code : -2 ^ 31 ≤ exception.exceptionOrCustomCode ∧ exception.exceptionOrCustomCode < 2 ^ 31
  notOutOfGas : exception.exceptionCode ≠ some .outOfGas

end Exception

namespace Engine

variable {e : Engine} {exception : Exception}

/-- An engine that has paid for an exception. -/
def charged (e : Engine) (exception : Exception) : Engine :=
  { e with
    step := if exception.exceptionCode.isSome then e.step + 1 else e.step
    gas := e.gas.useGas Gas.exceptionPrice }

@[simp]
theorem charged_cc : (e.charged exception).cc = e.cc := rfl

@[simp]
theorem charged_ctrls : (e.charged exception).ctrls = e.ctrls := rfl

@[simp]
theorem charged_cmd : (e.charged exception).cmd = e.cmd := rfl

@[simp]
theorem charged_gasRemaining :
    (e.charged exception).gas.gasRemaining = e.gas.gasRemaining - Gas.exceptionPrice := rfl

@[simp]
theorem core_charged : (e.charged exception).core = e.core := rfl

theorem exec_payForException (hcatch : exception.Catchable)
    (hgas : Gas.exceptionPrice ≤ e.gas.gasRemaining) :
    exec (payForException (.exception exception)) e = (.ok exception, e.charged exception) := by
  have hcheck : (e.gas.useGas Gas.exceptionPrice).checkGasRemaining = .ok () := by
    unfold Gas.checkGasRemaining Gas.useGas
    rw [if_pos]
    dsimp only
    omega
  have hcharge (s : Engine) (hs : s.gas = e.gas) :
      exec (chargeException (.exception exception) exception) s =
        (.ok exception, { s with gas := s.gas.useGas Gas.exceptionPrice }) := by
    unfold chargeException useGas
    rw [if_neg hcatch.notOutOfGas, exec_bind_modify, exec_bind_get]
    dsimp only
    rw [hs, hcheck]
    rfl
  unfold payForException charged
  dsimp only [Error.tvmExceptionFull]
  cases exception.exceptionCode.isSome with
  | false => exact hcharge e rfl
  | true => exact hcharge { e with step := e.step + 1 } rfl

theorem checkedInt_code (hcatch : exception.Catchable) :
    StackItem.checkedInt exception.exceptionOrCustomCode =
      .ok (.int exception.exceptionOrCustomCode) := by
  obtain ⟨hlo, hhi⟩ := hcatch.code
  have hcheck : checkOverflow exception.exceptionOrCustomCode = true :=
    (checkOverflow_iff _).2 (inRange_of_bounds (by omega) (by omega))
  unfold StackItem.checkedInt IntegerData.ofInt
  rw [hcheck]
  rfl

/-- The handler as it is entered: it takes the pair, unless it has to see the whole stack. -/
def entered (handler : ContinuationData) : ContinuationData :=
  if handler.typeOf.isCatchRevert then handler else { handler with nargs := 2 }

/-- The price of a dispatch. -/
def dispatchPrice (stack : Stack) (pargs : Option Nat) (handler : ContinuationData) : Int :=
  Gas.exceptionPrice + popAllPrice stack pargs (entered handler)

section Pushing

variable (cc : ContinuationData) (ctrls : SaveList) (vars : List StackItem)

theorem exec_push (item : StackItem) : exec (push item) (e.holding cc ctrls vars) =
    (.ok (), e.holding { cc with stack := cc.stack ++ [item] } ctrls vars) := rfl

theorem exec_pushVar (item : StackItem) : exec (pushVar item) (e.holding cc ctrls vars) =
    (.ok (), e.holding cc ctrls (vars ++ [item])) := rfl

theorem exec_pushInt_code (hcatch : exception.Catchable) :
    exec (pushInt exception.exceptionOrCustomCode) (e.holding cc ctrls vars) = (.ok (),
      e.holding { cc with stack := cc.stack ++ [.int exception.exceptionOrCustomCode] } ctrls vars) := by
  unfold pushInt
  rw [checkedInt_code hcatch]
  rfl

end Pushing

theorem set_length_append (vars : List StackItem) (a b : StackItem) :
    (vars ++ [a]).set vars.length b = vars ++ [b] := by
  simp

theorem getElem?_length_append (vars : List StackItem) (a : StackItem) :
    (vars ++ [a])[vars.length]? = some a := by
  simp

section Handler

variable {handler : ContinuationData} (hcatch : exception.Catchable)
  (hc2 : e.ctrls.get 2 = some (.continuation handler))

include hcatch hc2

/-- The dispatch is a jump to the handler, addressed as the last variable. -/
theorem exec_raiseExceptionBugfix0_eq (hquit : handler.typeOf.isExcQuit = false)
    (hgas : Gas.exceptionPrice ≤ e.gas.gasRemaining) :
    exec (raiseExceptionBugfix0 (.exception exception)) e =
      exec (switch (Addr.var e.cmd.vars.length)) ((e.charged exception).holding
        { e.cc with stack := e.cc.stack ++ exception.pair } (e.ctrls.remove 2)
        (e.cmd.vars ++ [.continuation (entered handler)])) := by
  have hstart : exec (raiseExceptionBugfix0 (.exception exception)) e = exec (do
      pushVar (.continuation handler)
      push exception.value
      pushInt exception.exceptionOrCustomCode
      if !handler.typeOf.isCatchRevert then
        setVar e.cmd.vars.length (.continuation { handler with nargs := 2 })
      switch (Addr.var e.cmd.vars.length))
      ((e.charged exception).holding e.cc (e.ctrls.remove 2) e.cmd.vars) := by
    unfold raiseExceptionBugfix0
    rw [exec_bind_ok (exec_payForException hcatch hgas), exec_bind_get, exec_bind_get, charged_ctrls, hc2]
    simp only [StackItem.asContinuation, hquit, Bool.false_eq_true, if_false]
    rw [exec_bind_modify]
    rfl
  rw [hstart, exec_bind_ok (exec_pushVar _ _ _ _), exec_bind_ok (exec_push _ _ _ _),
    exec_bind_ok (exec_pushInt_code _ _ _ hcatch)]
  unfold entered
  cases handler.typeOf.isCatchRevert with
  | true =>
    simp only [Exception.pair, List.append_assoc, List.cons_append, List.nil_append]
    rfl
  | false =>
    have hset := exec_setVar ((e.charged exception).holding
      { e.cc with stack := e.cc.stack ++ exception.pair } (e.ctrls.remove 2)
      (e.cmd.vars ++ [.continuation handler])) (k := e.cmd.vars.length) (by simp)
      (.continuation { handler with nargs := 2 })
    rw [holding_vars, set_length_append] at hset
    simp only [Exception.pair, List.append_assoc, List.cons_append, List.nil_append] at hset ⊢
    exact exec_bind_ok hset

/-- With few enough variables the handler is entered. -/
theorem exec_raiseExceptionBugfix0 (hquit : handler.typeOf.isExcQuit = false)
    {handler' : ContinuationData} {stack' : Stack} (hvars : e.cmd.vars.length < 16)
    (hpassed : passed (e.cc.stack ++ exception.pair) (pargsRaw e.cmd) (entered handler) =
      .ok (stack', handler'))
    (hgas : dispatchPrice (e.cc.stack ++ exception.pair) (pargsRaw e.cmd) handler ≤
      e.gas.gasRemaining) :
    exec (raiseExceptionBugfix0 (.exception exception)) e = (.ok (),
      ((e.charged exception).pay (popAllPrice (e.cc.stack ++ exception.pair) (pargsRaw e.cmd)
        (entered handler))).holding { handler' with savelist := {} }
        ((e.ctrls.remove 2).apply handler.savelist)
        (e.cmd.vars ++ [.continuation { e.cc with stack := stack' }])) := by
  have hnonneg := popAllPrice_nonneg (e.cc.stack ++ exception.pair) (pargsRaw e.cmd) (entered handler)
  have hsaved : handler'.savelist = handler.savelist := by
    rw [passed_savelist hpassed]
    unfold entered
    split <;> rfl
  unfold dispatchPrice at hgas
  rw [exec_raiseExceptionBugfix0_eq hcatch hc2 hquit (by omega), ← hsaved]
  have hgas' : popAllPrice (e.cc.stack ++ exception.pair) (pargsRaw (e.charged exception).cmd)
      (entered handler) ≤ (e.charged exception).gas.gasRemaining := by
    rw [charged_gasRemaining, charged_cmd]
    omega
  have hswitch : exec (switch (Addr.var e.cmd.vars.length)) ((e.charged exception).holding
      { e.cc with stack := e.cc.stack ++ exception.pair } (e.ctrls.remove 2)
      (e.cmd.vars ++ [.continuation (entered handler)])) = _ :=
    exec_switch_var hpassed hgas' hvars (getElem?_length_append _ _)
  rw [hswitch, set_length_append]
  rfl

/-- The dispatch without the bug fixes: the interrupted continuation is left in c2. -/
theorem exec_raiseException {handler' : ContinuationData} {stack' : Stack}
    (hpassed : passed (e.cc.stack ++ exception.pair) (pargsRaw e.cmd) { handler with nargs := 2 } =
      .ok (stack', handler'))
    (hgas : Gas.exceptionPrice + popAllPrice (e.cc.stack ++ exception.pair) (pargsRaw e.cmd)
      { handler with nargs := 2 } ≤ e.gas.gasRemaining) :
    exec (raiseException (.exception exception)) e = (.ok (),
      ((e.charged exception).pay (popAllPrice (e.cc.stack ++ exception.pair) (pargsRaw e.cmd)
        { handler with nargs := 2 })).holding { handler' with savelist := {} }
        ((e.ctrls.putOpt 2 (.continuation { e.cc with stack := stack' })).apply handler.savelist)
        e.cmd.vars) := by
  have hnonneg := popAllPrice_nonneg (e.cc.stack ++ exception.pair) (pargsRaw e.cmd)
    { handler with nargs := 2 }
  have hsaved := passed_savelist hpassed
  dsimp only at hsaved
  have hgas' : popAllPrice (e.cc.stack ++ exception.pair) (pargsRaw (e.charged exception).cmd)
      { handler with nargs := 2 } ≤ (e.charged exception).gas.gasRemaining := by
    rw [charged_gasRemaining, charged_cmd]
    omega
  have hstart : exec (raiseException (.exception exception)) e = exec (do
      push exception.value
      pushInt exception.exceptionOrCustomCode
      setCtrl 2 (.continuation { handler with nargs := 2 })
      switch (Addr.ctrl 2)) ((e.charged exception).holding e.cc e.ctrls e.cmd.vars) := by
    unfold raiseException
    rw [exec_bind_ok (exec_payForException hcatch (by omega)), exec_bind_get, charged_ctrls, hc2]
    rfl
  have hswitch : exec (switch (Addr.ctrl 2)) ((e.charged exception).holding
      { e.cc with stack := e.cc.stack ++ exception.pair }
      (e.ctrls.putOpt 2 (.continuation { handler with nargs := 2 })) e.cmd.vars) = _ :=
    exec_switch_c2 hpassed hgas' rfl
  rw [hsaved] at hswitch
  rw [hstart, exec_bind_ok (exec_push _ _ _ _), exec_bind_ok (exec_pushInt_code _ _ _ hcatch)]
  simp only [Exception.pair, List.append_assoc, List.cons_append, List.nil_append] at hswitch ⊢
  exact hswitch

end Handler

/-! ### Entering a handler -/

/-- A handler when it starts. -/
def entering (handler : ContinuationData) (exception : Exception) : ContinuationData :=
  { handler with
    stack := handler.stack ++ exception.pair
    nargs := 0
    savelist := {} }

theorem passed_pair (stack : Stack) (exception : Exception) (handler : ContinuationData) :
    passed (stack ++ exception.pair) none { handler with nargs := 2 } =
      .ok (stack, { handler with stack := handler.stack ++ exception.pair, nargs := 0 }) := by
  unfold passed passCount moveTop Exception.pair
  simp [bind, Except.bind]

/-- The price of entering a handler that takes the exception pair. -/
def handlerPrice (stack : Stack) (exception : Exception) (handler : ContinuationData) : Int :=
  Gas.exceptionPrice + popAllPrice (stack ++ exception.pair) none { handler with nargs := 2 }

/-- The state after the dispatch to a handler that takes the exception pair. -/
def handling (e : Engine) (exception : Exception) (handler : ContinuationData) : Engine :=
  ((e.charged exception).pay
    (popAllPrice (e.cc.stack ++ exception.pair) none { handler with nargs := 2 })).holding
    (entering handler exception) ((e.ctrls.remove 2).apply handler.savelist)
    (e.cmd.vars ++ [.continuation e.cc])

/-- The registers that an exception leaves before the saved ones of the handler are restored. -/
def interrupted (e : Engine) : SaveList :=
  if e.checkCapabilities .capsTvmBugfixes2022 then e.ctrls.remove 2
  else e.ctrls.putOpt 2 (.continuation e.cc)

section Handling

variable {handler : ContinuationData} (hcatch : exception.Catchable) (hparams : e.cmd.params = [])
  (hc2 : e.ctrls.get 2 = some (.continuation handler)) (hquit : handler.typeOf.isExcQuit = false)
  (hrevert : handler.typeOf.isCatchRevert = false) (hvars : e.cmd.vars.length < 16)
  (hgas : handlerPrice e.cc.stack exception handler ≤ e.gas.gasRemaining)

include hcatch hparams hc2 hquit hrevert hvars hgas

theorem exec_dispatchException_handling (hcap : e.checkCapabilities .capsTvmBugfixes2022 = true) :
    exec (dispatchException (.exception exception)) e = (.ok (), e.handling exception handler) := by
  have hpargs := pargsRaw_of_params hparams
  have hentered : entered handler = { handler with nargs := 2 } := by
    unfold entered
    rw [hrevert]
    rfl
  have hpassed := passed_pair e.cc.stack exception handler
  unfold handlerPrice at hgas
  rw [← hpargs, ← hentered] at hgas hpassed
  unfold dispatchException handling
  rw [exec_bind_get, hcap, if_pos rfl, exec_raiseExceptionBugfix0 hcatch hc2 hquit hvars hpassed hgas,
    hpargs, hentered]
  rfl

/-- The dispatch of an exception of an instruction or of an implicit step, to a handler that takes the
exception pair. -/
theorem exec_dispatchException :
    ∃ t, exec (dispatchException (.exception exception)) e = (.ok (), t) ∧
      t.cc = entering handler exception ∧ t.ctrls = e.interrupted.apply handler.savelist := by
  unfold interrupted
  cases hcap : e.checkCapabilities .capsTvmBugfixes2022 with
  | true =>
    exact ⟨_, exec_dispatchException_handling hcatch hparams hc2 hquit hrevert hvars hgas hcap, rfl, rfl⟩
  | false =>
    have hpassed := passed_pair e.cc.stack exception handler
    unfold handlerPrice at hgas
    rw [← pargsRaw_of_params hparams] at hgas hpassed
    unfold dispatchException
    rw [exec_bind_get, hcap]
    exact ⟨_, exec_raiseException hcatch hc2 hpassed hgas, rfl, rfl⟩

end Handling

end Engine

end TonVm
