import TonVm.Proof.Calls
import TonVm.Proof.Parameters

/-!
# Jumps, calls and returns

The two ways to jump to a continuation, `JMPX` and `JMPXVARARGS`, differ in which saved registers they
restore. The two ways to return, `RET` and the end of the code, differ in what they do without a c0.
Otherwise each pair leads to the same state, and a call that is followed by a return, whatever runs in
between, gives the caller its stack and its c0 back.
-/

namespace TonVm

open ExecLib

section Jumps

variable [TonTypes]

namespace Engine

/-- Two outcomes that only differ in gas, steps and the record of the last instruction. -/
def SameOutcome {α β : Type} (f : α → β) (r : Except Error α × Engine) (r' : Except Error β × Engine) :
    Prop :=
  r.1.map f = r'.1 ∧ r.2.core = r'.2.core

/-- The result of a transfer, by that of passing values. -/
def passing : Except ExceptionCode (Stack × ContinuationData) → Except Error Unit
  | .ok _ => .ok ()
  | .error code => .error (.exception (.fromCode code))

/-! ### Two ways to jump -/

/-- The saved c0 and c1 of a continuation, if it has any, are the current ones. -/
def SavesCurrent (e : Engine) (cont : ContinuationData) : Prop :=
  ∀ i ∈ [0, 1], cont.savelist.get i = none ∨ cont.savelist.get i = e.ctrls.get i

omit [TonTypes] in
theorem eq_or_iff {α : Type} {x y : Option α} : x = y.or x ↔ y = none ∨ y = x := by
  cases y with
  | none => simp
  | some b => simp [eq_comm]

theorem apply_remove_eq_iff {ctrls list : SaveList} :
    ctrls.apply ((list.remove 0).remove 1) = ctrls.apply list ↔
      (list.c0 = none ∨ list.c0 = ctrls.c0) ∧ (list.c1 = none ∨ list.c1 = ctrls.c1) := by
  rw [← eq_or_iff, ← eq_or_iff]
  constructor
  · intro h
    exact ⟨congrArg SaveListOf.c0 h, congrArg SaveListOf.c1 h⟩
  · rintro ⟨h0, h1⟩
    exact SaveListOf.ext h0 h1 rfl rfl rfl rfl rfl

variable {e s : Engine} {stack : Stack} {cont : ContinuationData}

section Jump

variable (hload : exec loadInstruction e = (.ok (), s))
  (hgas : popAllPrice stack none cont ≤ s.gas.gasRemaining)

include hload hgas

/-- Where `JMPX` leads. -/
theorem core_jmpx (hstack : e.cc.stack = stack ++ [.continuation cont]) :
    ∃ t, exec executeJmpx e = (passing (passed stack none cont), t) ∧
      t.core = match passed stack none cont with
        | .ok (_, cont') => e.core.holding { cont' with savelist := {} }
            (e.ctrls.apply ((cont.savelist.remove 0).remove 1)) []
        | .error _ => e.core.holding { e.cc with stack } e.ctrls [] := by
  have hs := loaded_of_none e hload
  unfold executeJmpx
  rw [exec_bind_ok hload, exec_bind_ok (hs.exec_fetchStack_one hstack)]
  rw [← pargs_of_loadInstruction e hload] at hgas
  cases hpassed : passed stack none cont with
  | error code =>
    rw [← pargs_of_loadInstruction e hload] at hpassed
    refine ⟨_, exec_bind_error (exec_popAll_var_error hpassed hgas (by decide) rfl), ?_⟩
    rw [Engine.core_holding, core_pay, hs.core_holding, hs.ctrls, cc_of_loadInstruction e hload]
  | ok result =>
    rw [← pargs_of_loadInstruction e hload] at hpassed
    refine ⟨_, exec_jmpx hpassed hgas rfl, ?_⟩
    rw [Engine.core_holding, core_pay, hs.core_holding, hs.ctrls, passed_savelist hpassed]

/-- Where `JMPXVARARGS` leads with -1 on the stack. -/
theorem core_jmpxva (hstack : e.cc.stack = stack ++ [.continuation cont, .int (-1)]) :
    ∃ t, exec executeJmpxva e = (passing (passed stack none cont), t) ∧
      t.core = match passed stack none cont with
        | .ok (_, cont') => e.core.holding { cont' with savelist := {} }
            (e.ctrls.apply cont.savelist) []
        | .error _ => e.core.holding { e.cc with stack } e.ctrls [] := by
  have hs := loaded_of_none e hload
  have hswitch : exec executeJmpxva e = exec (switch (Addr.var 1))
      (s.holding { s.cc with stack } s.ctrls [.int (-1), .continuation cont]) := by
    unfold executeJmpxva
    rw [exec_bind_ok hload, exec_bind_ok (hs.exec_fetchStack_two hstack)]
    rfl
  rw [hswitch]
  rw [← pargs_of_loadInstruction e hload] at hgas
  cases hpassed : passed stack none cont with
  | error code =>
    rw [← pargs_of_loadInstruction e hload] at hpassed
    refine ⟨_, exec_bind_error (exec_popAll_var_error hpassed hgas (by decide) rfl), ?_⟩
    rw [Engine.core_holding, core_pay, hs.core_holding, hs.ctrls, cc_of_loadInstruction e hload]
  | ok result =>
    rw [← pargs_of_loadInstruction e hload] at hpassed
    refine ⟨_, exec_switch_var hpassed hgas (by decide) rfl, ?_⟩
    rw [Engine.core_holding, core_pay, hs.core_holding, hs.ctrls, passed_savelist hpassed]

/-- `JMPX` restores what `JMPXVARARGS` restores exactly when there is nothing to restore in c0 and c1. -/
theorem jmpx_eq_jmpxva_iff (hstack : e.cc.stack = stack ++ [.continuation cont]) :
    SameOutcome id (exec executeJmpx e)
        (exec executeJmpxva { e with cc.stack := Stack.push (.int (-1)) e.cc.stack }) ↔
      ∀ r, passed stack none cont = .ok r → SavesCurrent e cont := by
  obtain ⟨s', hload', hgas'⟩ : ∃ s', exec loadInstruction
      { e with cc.stack := Stack.push (.int (-1)) e.cc.stack } = (.ok (), s') ∧ s'.gas = s.gas := by
    rw [exec_loadInstruction] at hload
    cases hload
    exact ⟨_, exec_loadInstruction _, rfl⟩
  have hstack' : Stack.push (.int (-1)) e.cc.stack = stack ++ [.continuation cont, .int (-1)] := by
    rw [hstack]
    simp [Stack.push]
  obtain ⟨t, ht, hcore⟩ := core_jmpx hload hgas hstack
  obtain ⟨t', ht', hcore'⟩ := core_jmpxva hload' (hgas'.symm ▸ hgas) hstack'
  rw [ht, ht']
  unfold SameOutcome
  rw [hcore, hcore', Except.map_id, id]
  cases hpassed : passed stack none cont with
  | error code => exact iff_of_true ⟨rfl, rfl⟩ fun r h => by cases h
  | ok result =>
    simp only [true_and, Except.ok.injEq, forall_eq']
    have hsaves : SavesCurrent e cont ↔ (cont.savelist.c0 = none ∨ cont.savelist.c0 = e.ctrls.c0) ∧
        (cont.savelist.c1 = none ∨ cont.savelist.c1 = e.ctrls.c1) := by
      simp [SavesCurrent]
    rw [hsaves, ← apply_remove_eq_iff]
    constructor
    · exact fun h => congrArg Engine.ctrls h
    · intro h
      rw [h]
      rfl

end Jump

/-! ### Two ways to return -/

/-- The price of passing the stack to c0. -/
def returnPrice (e : Engine) : Int :=
  match e.ctrls.get 0 with
  | some (.continuation cont) => popAllPrice e.cc.stack none cont
  | _ => 0

/-- Where a return to c0 leads from a state. -/
def returnCore (e : Engine) (cont : ContinuationData) : Engine :=
  match passed e.cc.stack none cont with
  | .ok (_, cont') => e.core.holding { cont' with savelist := {} }
      ((e.ctrls.remove 0).apply cont.savelist) []
  | .error _ => e.core.holding e.cc
      (e.ctrls.setOpt 0 (some (.continuation (refused e.cc.stack none cont)))) []

section Return

variable {e s : Engine} {cont : ContinuationData}

theorem core_ret (hload : exec loadInstruction e = (.ok (), s))
    (hctrl : e.ctrls.get 0 = some (.continuation cont))
    (hgas : popAllPrice e.cc.stack none cont ≤ s.gas.gasRemaining) :
    ∃ t, exec executeRet e = (passing (passed e.cc.stack none cont), t) ∧
      t.core = returnCore e cont := by
  have hs := loaded_of_none e hload
  have hcc := cc_of_loadInstruction e hload
  have hctrl' : s.ctrls.get 0 = some (.continuation cont) := hs.ctrls ▸ hctrl
  unfold executeRet returnCore
  rw [exec_bind_ok hload]
  rw [← pargs_of_loadInstruction e hload, ← hcc] at hgas
  cases hpassed : passed e.cc.stack none cont with
  | error code =>
    rw [← pargs_of_loadInstruction e hload, ← hcc] at hpassed
    have hpop : exec (popAll (Addr.ctrl 0)) (s.holding s.cc s.ctrls s.cmd.vars) = _ :=
      exec_popAll_ctrl_error hpassed hgas (by decide) hctrl'
    refine ⟨_, exec_bind_error hpop, ?_⟩
    rw [Engine.core_holding, core_pay, hs.core_holding, hs.ctrls, hcc, pargs_of_loadInstruction e hload]
  | ok result =>
    rw [← pargs_of_loadInstruction e hload, ← hcc] at hpassed
    have hswitch : exec (switch (Addr.ctrl 0)) (s.holding s.cc s.ctrls s.cmd.vars) = _ :=
      exec_switch_c0 hpassed hgas hctrl'
    refine ⟨_, hswitch, ?_⟩
    rw [Engine.core_holding, core_pay, hs.core_holding, hs.ctrls, passed_savelist hpassed]

/-- The implicit return leads where the explicit one leads. -/
theorem core_stepOrdinary (he : e.cmd.params = []) (hctrl : e.ctrls.get 0 = some (.continuation cont))
    (hgas : Gas.implicitRetPrice + popAllPrice e.cc.stack none cont ≤ e.gas.gasRemaining) :
    ∃ t, exec stepOrdinary e = ((passing (passed e.cc.stack none cont)).map fun _ => none, t) ∧
      t.core = returnCore e cont := by
  have hprice := popAllPrice_nonneg e.cc.stack none cont
  have hstart : exec stepOrdinary e = exec (do
      switchToC0
      return none) (e.stepped Gas.implicitRetPrice) := by
    unfold stepOrdinary
    rw [exec_countStep_tryUseGas _ (by omega), exec_bind_get, stepped_ctrls, hctrl]
    rfl
  have hpargs : pargsRaw (e.stepped Gas.implicitRetPrice).cmd = none := pargsRaw_of_params he
  have hgas' : popAllPrice e.cc.stack (pargsRaw (e.stepped Gas.implicitRetPrice).cmd) cont ≤
      (e.stepped Gas.implicitRetPrice).gas.gasRemaining := by
    rw [hpargs, stepped_gasRemaining]
    omega
  rw [hstart]
  unfold returnCore
  cases hpassed : passed e.cc.stack none cont with
  | error code =>
    rw [← hpargs] at hpassed
    have hpop : exec (popAll (Addr.ctrl 0)) ((e.stepped Gas.implicitRetPrice).holding e.cc e.ctrls
        e.cmd.vars) = _ := exec_popAll_ctrl_error hpassed hgas' (by decide) hctrl
    refine ⟨_, exec_bind_error (exec_bind_error hpop), ?_⟩
    rw [Engine.core_holding, core_pay, core_stepped, hpargs]
  | ok result =>
    rw [← hpargs] at hpassed
    have hswitch : exec switchToC0 ((e.stepped Gas.implicitRetPrice).holding e.cc e.ctrls
        e.cmd.vars) = _ := exec_switchToC0 hpassed hgas' hctrl
    refine ⟨_, exec_bind_ok hswitch, ?_⟩
    rw [Engine.core_holding, core_pay, core_stepped, passed_savelist hpassed]

/-- Without a c0 an explicit return is an exception and an implicit one the end. -/
theorem exec_ret_of_none (hload : exec loadInstruction e = (.ok (), s))
    (hctrl : e.ctrls.get 0 = none) :
    (exec executeRet e).1 = .error (.exception (.fromCode .typeCheckError)) := by
  have hcont : exec (continuationByAddress (Addr.ctrl 0)) s =
      (.error (.exception (.fromCode .typeCheckError)), s) := by
    simp only [continuationByAddress, place_ctrl, storageIndex_ctrl, Nat.ofNat_pos, exec_bind_get,
      (loaded_of_none e hload).ctrls, hctrl]
    rfl
  unfold executeRet ret switch popAll
  rw [exec_bind_ok hload, exec_bind_error (exec_bind_error hcont)]

theorem exec_stepOrdinary_of_none (hctrl : e.ctrls.get 0 = none)
    (hgas : Gas.implicitRetPrice ≤ e.gas.gasRemaining) :
    (exec stepOrdinary e).1 = .ok (some 0) := by
  unfold stepOrdinary
  rw [exec_countStep_tryUseGas _ hgas, exec_bind_get, stepped_ctrls, hctrl]
  rfl

theorem exec_implicitStep_of_usedUp (hcode : TonTypes.referenceOpt e.cc.code 0 = none) :
    exec implicitStep e = exec (typeStep e.cc.typeOf) e := by
  unfold implicitStep
  rw [exec_bind_get, hcode]
  rfl

theorem exec_implicitStep_of_ordinary (hcode : TonTypes.referenceOpt e.cc.code 0 = none)
    (htype : e.cc.typeOf = .ordinary) : exec implicitStep e = exec stepOrdinary e := by
  rw [exec_implicitStep_of_usedUp hcode, htype]
  rfl

/-- At the end of the code of an ordinary continuation, `RET` and the implicit return come to the same
exactly when there is a c0. The state in which `RET` is executed may differ in its gas, its steps and
the record of the last instruction. -/
theorem ret_eq_implicit_iff [TonBlock] {e e' s' : Engine} (he : Reachable e)
    (hcode : TonTypes.referenceOpt e.cc.code 0 = none) (htype : e.cc.typeOf = .ordinary)
    (hcore : e'.core = e.core) (hload : exec loadInstruction e' = (.ok (), s'))
    (hgas : Gas.implicitRetPrice + returnPrice e ≤ e.gas.gasRemaining)
    (hgas' : returnPrice e ≤ s'.gas.gasRemaining) :
    SameOutcome (fun _ => none) (exec executeRet e') (exec implicitStep e) ↔
      (e.ctrls.get 0).isSome := by
  rw [exec_implicitStep_of_ordinary hcode htype]
  have hctrls : e'.ctrls = e.ctrls := by
    have := congrArg Engine.ctrls hcore
    exact this
  have hcc : e'.cc = e.cc := by
    have := congrArg Engine.cc hcore
    exact this
  cases hctrl : e.ctrls.get 0 with
  | none =>
    unfold returnPrice at hgas
    rw [hctrl] at hgas
    refine iff_of_false (fun h => ?_) (by simp)
    have := h.1
    rw [exec_ret_of_none hload (hctrls ▸ hctrl),
      exec_stepOrdinary_of_none hctrl (by simpa using hgas)] at this
    cases this
  | some item =>
    refine iff_of_true ?_ rfl
    obtain ⟨cont, hcont⟩ := eq_continuation_of_fits (he.settled.typed.fits_ctrls (by decide)) (.inl rfl)
      (by rw [hctrl]; rfl)
    unfold returnPrice at hgas hgas'
    rw [hcont] at hgas hgas'
    obtain ⟨t, ht, htcore⟩ := core_stepOrdinary he.settled.params hcont hgas
    obtain ⟨t', ht', htcore'⟩ := core_ret hload (hctrls ▸ hcont) (hcc ▸ hgas')
    have hreturn : returnCore e' cont = returnCore e cont := by
      unfold returnCore
      rw [hcc, hctrls, hcore]
    unfold SameOutcome
    rw [ht, ht', htcore, htcore', hreturn, hcc]
    exact ⟨rfl, rfl⟩

end Return

/-! ### Ways to return -/

/-- How a continuation returns to c0: by `RET`, or implicitly at the end of its code. An exception
handler that ends drops c2 first. -/
inductive ReturnWay where
  | ret
  | ordinary
  | tryCatch
  deriving DecidableEq

namespace ReturnWay

def program : ReturnWay → M Unit
  | ret => executeRet
  | ordinary => do let _ ← stepOrdinary
  | tryCatch => do let _ ← stepTryCatch

/-- The registers when c0 is entered. -/
def ctrls (u : Engine) : ReturnWay → SaveList
  | ret | ordinary => u.ctrls
  | tryCatch => u.ctrls.remove 2

/-- The gas left when the stack is passed. -/
def gasLeft (u : Engine) : ReturnWay → Int
  | ret => u.afterLoad.gas.gasRemaining
  | ordinary | tryCatch => u.gas.gasRemaining - Gas.implicitRetPrice

variable {u v : Engine} {cont : ContinuationData} (way : ReturnWay)

theorem ctrls_get_zero (h : u.ctrls.get 0 = some (.continuation cont)) :
    (way.ctrls u).get 0 = some (.continuation cont) := by
  cases way <;> exact h

/-- A return that succeeds has entered c0. -/
theorem eq_ok (hparams : u.cmd.params = []) (hctrl : u.ctrls.get 0 = some (.continuation cont))
    (h : exec way.program u = (.ok (), v)) :
    ∃ stack' cont', passed u.cc.stack none cont = .ok (stack', cont') ∧
      v.cc = { cont' with savelist := {} } ∧ v.ctrls = ((way.ctrls u).remove 0).apply cont.savelist := by
  have hpargs := pargsRaw_of_params hparams
  cases way with
  | ret =>
    have hswitch : exec (switch (Addr.ctrl 0)) (u.afterLoad.holding u.cc u.ctrls []) = (.ok (), v) := h
    obtain ⟨stack', cont', hpassed, rfl⟩ := switch_c0_eq_ok hctrl hswitch
    exact ⟨stack', cont', hpassed, rfl, by rw [← passed_savelist hpassed]; rfl⟩
  | ordinary =>
    obtain ⟨_, _, hstep, hrest⟩ := exec_bind_eq_ok h
    cases hrest
    obtain ⟨-, hstep⟩ := countStep_tryUseGas_eq_ok _ hstep
    rw [exec_bind_get, stepped_ctrls, hctrl] at hstep
    obtain ⟨_, _, hswitch, hrest⟩ := exec_bind_eq_ok hstep
    cases hrest
    have hswitch : exec switchToC0 ((u.stepped Gas.implicitRetPrice).holding u.cc u.ctrls u.cmd.vars) =
      (.ok (), v) := hswitch
    obtain ⟨stack', cont', hpassed, rfl⟩ := switchToC0_eq_ok hctrl hswitch
    rw [stepped_cmd, hpargs] at hpassed
    exact ⟨stack', cont', hpassed, rfl, by rw [← passed_savelist hpassed]; rfl⟩
  | tryCatch =>
    obtain ⟨_, _, hstep, hrest⟩ := exec_bind_eq_ok h
    cases hrest
    obtain ⟨-, hstep⟩ := countStep_tryUseGas_eq_ok _ hstep
    rw [exec_bind_modify] at hstep
    obtain ⟨_, _, hswitch, hrest⟩ := exec_bind_eq_ok hstep
    cases hrest
    have hswitch : exec (switch (Addr.ctrl 0)) ((u.stepped Gas.implicitRetPrice).holding u.cc
      (u.ctrls.remove 2) u.cmd.vars) = (.ok (), v) := hswitch
    obtain ⟨stack', cont', hpassed, rfl⟩ :=
      switch_c0_eq_ok (ctrls_get_zero tryCatch hctrl) hswitch
    rw [stepped_cmd, hpargs] at hpassed
    exact ⟨stack', cont', hpassed, rfl, by rw [← passed_savelist hpassed]; rfl⟩

/-- A return succeeds when the stack can be passed and the gas covers it. -/
theorem succeeds (hparams : u.cmd.params = []) (hctrl : u.ctrls.get 0 = some (.continuation cont))
    {result : Stack × ContinuationData} (hpassed : passed u.cc.stack none cont = .ok result)
    (hgas : popAllPrice u.cc.stack none cont ≤ way.gasLeft u) :
    ∃ v, exec way.program u = (.ok (), v) := by
  have hpargs := pargsRaw_of_params hparams
  have hnonneg := popAllPrice_nonneg u.cc.stack none cont
  cases way with
  | ret =>
    have hswitch : exec (switch (Addr.ctrl 0)) (u.afterLoad.holding u.cc u.ctrls []) = _ :=
      exec_switch_c0 hpassed hgas hctrl
    exact ⟨_, hswitch⟩
  | ordinary =>
    dsimp only [gasLeft] at hgas
    obtain ⟨t, ht, -⟩ := core_stepOrdinary hparams hctrl (by omega)
    rw [hpassed] at ht
    exact ⟨t, exec_bind_ok ht⟩
  | tryCatch =>
    dsimp only [gasLeft] at hgas
    have hprice : Gas.implicitRetPrice ≤ u.gas.gasRemaining := by omega
    have hpargs' : pargsRaw (u.stepped Gas.implicitRetPrice).cmd = none := hpargs
    rw [← hpargs'] at hpassed hgas
    have hswitch : exec (switch (Addr.ctrl 0)) ((u.stepped Gas.implicitRetPrice).holding u.cc
        (u.ctrls.remove 2) u.cmd.vars) = _ :=
      exec_switch_c0 hpassed hgas (ctrls_get_zero tryCatch hctrl)
    have hstep : exec stepTryCatch u = exec (do
        switch (Addr.ctrl 0)
        return none) ((u.stepped Gas.implicitRetPrice).holding u.cc (u.ctrls.remove 2) u.cmd.vars) := by
      unfold stepTryCatch
      rw [exec_countStep_tryUseGas _ hprice, exec_bind_modify]
      rfl
    exact ⟨_, exec_bind_ok (hstep.trans (exec_bind_ok hswitch))⟩

end ReturnWay

/-! ### A call and its return -/

section CallReturn

variable {e s u : Engine} {kept args : Stack} {callee cont : ContinuationData} {rargs : Option Nat}

/-- The top of a stack: a number of values, or all of it. -/
def topValues (rargs : Option Nat) (stack : Stack) : Stack :=
  match rargs with
  | some r => List.drop (stack.length - r) stack
  | none => stack

/-- A return succeeds when there are enough values, and then gives the caller its code, its stack with
the values on top, and its c0. -/
def GivesBack {α : Type} (code : SliceData) (c0 : Option StackItem) (kept : Stack)
    (rargs : Option Nat) (ret : M α) (u : Engine) : Prop :=
  ((∃ a t, exec ret u = (.ok a, t)) ↔ rargs.getD 0 ≤ u.cc.stack.length) ∧
  ∀ a t, exec ret u = (.ok a, t) →
    t.cc.code = code ∧ t.cc.stack = kept ++ topValues rargs u.cc.stack ∧ t.ctrls.get 0 = c0

/-- The return continuation of a call. -/
def returnTo (s : Engine) (kept : Stack) : ContinuationData :=
  { s.cc with
    stack := kept
    savelist := s.cc.savelist.setOpt 0 (s.ctrls.get 0)
    nargs := returnNargs s.cmd }

/-- Passing the stack to the return continuation of a call. -/
theorem passed_returnTo (kept : Stack) (hnargs : returnNargs s.cmd = (rargs.map Nat.cast).getD (-1))
    (stack : Stack) :
    if rargs.getD 0 ≤ stack.length then
      ∃ stack' cont', passed stack none (returnTo s kept) = .ok (stack', cont') ∧
        cont'.code = s.cc.code ∧ cont'.stack = kept ++ topValues rargs stack
    else
      ∃ code, passed stack none (returnTo s kept) = .error code := by
  have harity : arity (returnTo s kept) = rargs := by
    unfold arity returnTo
    dsimp only
    rw [hnargs]
    cases rargs with
    | none => rfl
    | some r =>
      dsimp only [Option.map_some, Option.getD_some]
      rw [if_neg (by omega), Int.toNat_natCast]
  have hdocumented : PassesAsDocumented stack none (returnTo s kept) :=
    passesAsDocumented_iff.2 (by simp [Surplus])
  unfold PassesAsDocumented at hdocumented
  rw [harity] at hdocumented
  cases rargs with
  | none =>
    obtain ⟨stack', cont', hpassed, hstack⟩ := hdocumented
    rw [if_pos (by simp)]
    have hcode : cont'.code = (returnTo s kept).code := passed_code hpassed
    refine ⟨stack', cont', hpassed, hcode, ?_⟩
    rw [hstack, Nat.sub_self, List.drop_zero]
    rfl
  | some r =>
    dsimp only [documentedCount, Option.getD_some] at hdocumented ⊢
    split
    · rename_i hle
      rw [if_pos hle] at hdocumented
      obtain ⟨stack', cont', hpassed, hstack⟩ := hdocumented
      have hcode : cont'.code = (returnTo s kept).code := passed_code hpassed
      exact ⟨stack', cont', hpassed, hcode, hstack⟩
    · rename_i hle
      rw [if_neg hle] at hdocumented
      obtain ⟨code, hpassed, -⟩ := hdocumented
      exact ⟨code, hpassed⟩

/-- Any way to return from a state in which c0 is the return continuation. -/
theorem givesBack_of_core {α : Type} {ret : M α} {f : Unit → α}
    (hnargs : returnNargs s.cmd = (rargs.map Nat.cast).getD (-1))
    (hret : ∃ t, exec ret u = ((passing (passed u.cc.stack none (returnTo s kept))).map f, t) ∧
      t.core = returnCore u (returnTo s kept)) :
    GivesBack s.cc.code (s.ctrls.get 0) kept rargs ret u := by
  obtain ⟨t, ht, hcore⟩ := hret
  have hpassed := passed_returnTo kept hnargs u.cc.stack
  unfold GivesBack
  rw [ht]
  unfold returnCore at hcore
  split at hpassed
  · rename_i hle
    obtain ⟨stack', cont', hok, hcode, hstack⟩ := hpassed
    rw [hok] at hcore ⊢
    refine ⟨iff_of_true ⟨_, _, rfl⟩ hle, ?_⟩
    rintro a t' h
    cases h
    have hcc := congrArg Engine.cc hcore
    have hctrls := congrArg Engine.ctrls hcore
    rw [core_cc, holding_cc] at hcc
    rw [core_ctrls, holding_ctrls] at hctrls
    rw [hcc, hctrls]
    exact ⟨hcode, hstack, Option.or_none⟩
  · rename_i hle
    obtain ⟨code, herror⟩ := hpassed
    rw [herror]
    refine ⟨iff_of_false ?_ hle, ?_⟩
    · rintro ⟨_, _, h⟩
      cases h
    · rintro a t' h
      cases h

theorem returnNargs_callxargs
    (hload : exec (loadInstruction (TransferInstruction.callxargs.options e)) e = (.ok (), s)) :
    returnNargs s.cmd = ((rargsRaw s.cmd).map Nat.cast).getD (-1) := by
  have hnargs : nargsRaw s.cmd = none := by
    dsimp only [TransferInstruction.options] at hload
    split at hload
    · exact (loaded_of_argumentAndReturnConstraints e hload).2
    · exact (loaded_of_pargs e hload).2.1
  unfold returnNargs
  rw [hnargs]
  cases rargsRaw s.cmd <;> rfl

/-- The values given are passed to a callee that takes any number of them. -/
theorem passed_args (kept args : Stack) (hnargs : callee.nargs = -1) (hstack : callee.stack = []) :
    passed (kept ++ args) (some args.length) callee = .ok (kept, { callee with stack := args }) := by
  unfold passed passCount moveTop
  rw [hnargs, hstack]
  simp [bind, Except.bind]

/-- `CALLXARGS` gives the callee exactly its arguments. From any later state in which c0 is the return
continuation of the call, a return, explicit or implicit, succeeds when there are as many values as the
call asked for, and then gives the caller its code, its stack with these values on top, and its c0. -/
theorem call_return (he : RegistersTyped e)
    (hload : exec (loadInstruction (TransferInstruction.callxargs.options e)) e = (.ok (), s))
    (hargs : pargsRaw s.cmd = some args.length)
    (hstack : e.cc.stack = kept ++ args ++ [.continuation callee])
    (hnargs : callee.nargs = -1) (hcaptured : callee.stack = [])
    (hsaved : callee.savelist.get 0 = none)
    (hgas : popAllPrice (kept ++ args) (some args.length) callee ≤ s.gas.gasRemaining) :
    ∃ t cont, exec executeCallxargs e = (.ok (), t) ∧
      t.cc = { callee with stack := args, savelist := {} } ∧
      t.ctrls.get 0 = some (.continuation cont) ∧
      ∀ u, u.ctrls.get 0 = some (.continuation cont) →
        (∀ u', exec loadInstruction u = (.ok (), u') →
          popAllPrice u.cc.stack none cont ≤ u'.gas.gasRemaining →
          GivesBack s.cc.code (e.ctrls.get 0) kept (rargsRaw s.cmd) executeRet u) ∧
        (u.cmd.params = [] →
          Gas.implicitRetPrice + popAllPrice u.cc.stack none cont ≤ u.gas.gasRemaining →
          GivesBack s.cc.code (e.ctrls.get 0) kept (rargsRaw s.cmd) stepOrdinary u) := by
  have hs := TransferInstruction.callxargs.loaded hload
  have hreturn := returnNargs_callxargs hload
  have hpassed := passed_args kept args hnargs hcaptured
  rw [← hargs] at hpassed hgas
  have hctrl : Fits 0 (s.ctrls.get 0) := hs.ctrls ▸ he.fits_ctrls (by decide)
  have hcc : Fits 0 (s.cc.savelist.get 0) := hs.savelist ▸ he.fits_cc (by decide)
  have hfetch : exec (callx 0 false) (s.holding s.cc s.ctrls []) = _ :=
    exec_callx_fetch (hs.stack.trans hstack)
  rw [← hs.eq_holding] at hfetch
  have hcallx : exec (callx 0 false) (s.holding { s.cc with stack := kept ++ args } s.ctrls
      [.continuation callee]) = _ := exec_callx hpassed hgas (by decide) rfl hsaved hctrl hcc
  have hcall := (TransferInstruction.callxargs.exec_handler hload).trans (hfetch.trans hcallx)
  rw [← hs.ctrls]
  refine ⟨_, returnTo s kept, hcall, rfl, rfl, fun u hu => ⟨fun u' hload' hgas' => ?_,
    fun hparams hgas' => ?_⟩⟩
  · refine givesBack_of_core (f := id) hreturn ?_
    obtain ⟨t, ht, hcore⟩ := core_ret hload' hu hgas'
    exact ⟨t, by rw [ht, Except.map_id]; rfl, hcore⟩
  · exact givesBack_of_core (f := fun _ => none) hreturn (core_stepOrdinary hparams hu hgas')

end CallReturn

end Engine

end Jumps

namespace Engine

open scoped Plain

/-- `CALLXARGS 1,1` of an empty continuation, after its first byte. -/
def callingWithArgs : Engine :=
  { (withCapabilities []).setupWithLibraries (Plain.code [0x11]) none
      (some [.int 7, .int 8, .continuation (.withCode (Plain.code []))]) none [] with lastCmd := 0xDA }

theorem registersTyped_callingWithArgs : RegistersTyped callingWithArgs := by
  have hsetup : RegistersTyped ((withCapabilities []).setupWithLibraries (Plain.code [0x11]) none
      (some [.int 7, .int 8, .continuation (.withCode (Plain.code []))]) none []) := by
    refine good_setup _ _ _ _ nofun ?_ rfl
    rintro _ ⟨⟩
    simp only [good_cons, good_nil, and_true]
    exact ⟨good_int 7, good_int 8, Good.out⟩
  exact { hsetup with }

/-- The state after the operands. -/
def calledWithArgs : Engine :=
  (exec (loadInstruction (TransferInstruction.callxargs.options callingWithArgs)) callingWithArgs).2

theorem returns_callingWithArgs : ∃ t cont, exec executeCallxargs callingWithArgs = (.ok (), t) ∧
    t.cc.stack = [.int 8] ∧ t.ctrls.get 0 = some (.continuation cont) ∧
    ∀ u, u.ctrls.get 0 = some (.continuation cont) → u.cmd.params = [] →
      Gas.implicitRetPrice + popAllPrice u.cc.stack none cont ≤ u.gas.gasRemaining →
      GivesBack calledWithArgs.cc.code (callingWithArgs.ctrls.get 0) [.int 7]
        (rargsRaw calledWithArgs.cmd) stepOrdinary u := by
  have hload : exec (loadInstruction (TransferInstruction.callxargs.options callingWithArgs))
      callingWithArgs = (.ok (), calledWithArgs) :=
    exec_eq_of_isOk (by decide +kernel)
  have hargs : pargsRaw calledWithArgs.cmd = some [StackItem.int 8].length := by decide +kernel
  have hstack : callingWithArgs.cc.stack =
      [.int 7] ++ [.int 8] ++ [.continuation (.withCode (Plain.code []))] := rfl
  obtain ⟨t, cont, ht, hcc, hctrl, hu⟩ := call_return registersTyped_callingWithArgs hload hargs hstack
    rfl rfl rfl (by decide +kernel)
  exact ⟨t, cont, ht, by rw [hcc], hctrl, fun u hcont => (hu u hcont).2⟩

/-- A continuation with the c0 and c1 of the start in its savelist, and with a c2. -/
def savingStart : ContinuationData :=
  { code := Plain.code [], nargs := 1,
    savelist := { c0 := jumping.ctrls.c0, c1 := jumping.ctrls.c1, c2 := jumping.ctrls.c0 } }

/-- `JMPX` to it. -/
def jumpingBack : Engine := { jumping with cc.stack := [.int 1, .continuation savingStart] }

theorem sameOutcome_jumpingBack :
    savingStart.savelist.c0.isSome = true ∧ savingStart.savelist.c1.isSome = true ∧
    SameOutcome id (exec executeJmpx jumpingBack) (exec executeJmpxva
      { jumpingBack with cc.stack := Stack.push (.int (-1)) jumpingBack.cc.stack }) := by
  have hstack : jumpingBack.cc.stack = [.int 1] ++ [.continuation savingStart] := rfl
  refine ⟨rfl, rfl, ?_⟩
  refine (jmpx_eq_jmpxva_iff (exec_loadInstruction _) (by decide) hstack).2 fun _ _ i hi => .inr ?_
  simp only [List.mem_cons, List.not_mem_nil, or_false] at hi
  rcases hi with rfl | rfl <;> rfl

/-- Two continuations that push 1 and 2 are composed, and what follows is appended. -/
def composing (rest : List UInt8) : Engine :=
  (withCapabilities []).setupWithLibraries (Plain.code ([0x91, 0x71, 0x91, 0x72, 0xED, 0xF0] ++ rest))
    none none none []

/-- `COMPOS` and `JMPX` run the first continuation only, `COMPOS` and `JMPXVARARGS` both. -/
theorem ending_composing :
    ending (passes 8 (composing [0xD9])) = (some 0, [1]) ∧
    ending (passes 10 (composing [0x7F, 0xDB, 0x3A])) = (some 0, [1, 2]) := by
  decide +kernel

/-- The end of the code, with the c0 of the start. -/
def finishing : Engine := (withCapabilities []).setupWithLibraries (Plain.code []) none none none []

theorem sameOutcome_finishing :
    SameOutcome (fun _ => none) (exec executeRet finishing) (exec implicitStep finishing) := by
  have hreachable : Reachable finishing :=
    ⟨[], Plain.code [], none, none, none, [], nofun, nofun, .start⟩
  exact (ret_eq_implicit_iff hreachable rfl rfl rfl (exec_loadInstruction finishing)
    (by decide) (by decide)).2 rfl

/-- A continuation is put into c0 and entered by the end of the code. It has no saved c0. -/
def enteringThroughC0 (body : List UInt8) : Engine :=
  (withCapabilities []).setupWithLibraries
    (Plain.code ([0x90 ||| body.length.toUInt8] ++ body ++ [0xED, 0x50])) none none none []

/-- With `RET` in the continuation the run ends with an exception, without it normally. -/
theorem ending_enteringThroughC0 :
    endedBy (passes 4 (enteringThroughC0 [0xDB, 0x30])).1 = some .typeCheckError ∧
    ending (passes 4 (enteringThroughC0 [])) = (some 0, []) := by
  decide +kernel

end Engine

end TonVm
