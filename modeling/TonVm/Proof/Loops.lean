import TonVm.Lib.Iteration
import TonVm.Proof.Reverting

/-!
# Loops

A loop runs with a loop continuation in c0. This has a type of its own, and in its saved c0 the
continuation to go on with after the loop, the exit. When the code of an iteration returns, the implicit
step of the loop continuation starts the next iteration or passes control to the exit. Here is what a
run does from the first iteration to the exit, in terms of what the code of the loop does between its
start and its return to c0.
-/

namespace TonVm

open ExecLib Iteration

section Loops

variable [TonTypes]

namespace Engine

/-! ### Entry and return -/

/-- A continuation that takes the whole stack and has nothing on its own. -/
structure TakesAll (k : ContinuationData) : Prop where
  nargs : k.nargs = -1
  stack : k.stack = []

/-- Between two instructions, with gas left. -/
structure Resting (t : Engine) : Prop where
  params : t.cmd.params = []
  gas : 0 ≤ t.gas.gasRemaining

/-- The state in which code starts, with a continuation in c0 to return to. -/
def starting (s : Engine) (code : SliceData) (k : ContinuationData) : Engine :=
  { s with
    cc := { code, stack := s.cc.stack }
    ctrls := s.ctrls.setOpt 0 (some (.continuation k)) }

/-- The state in which a continuation from c0 has received the whole stack. -/
def arriving (t : Engine) (k : ContinuationData) : Engine :=
  { t with
    cc := { k with stack := t.cc.stack, savelist := {} }
    ctrls := (t.ctrls.remove 0).apply k.savelist }

/-- Control passes from c0 to a continuation, which takes of the stack what it asks for. -/
def Hands (t : Engine) (k : ContinuationData) (u : Engine) : Prop :=
  t.cmd.params = [] ∧ popAllPrice t.cc.stack none k ≤ t.gas.gasRemaining ∧
    ∃ stack' k', passed t.cc.stack none k = .ok (stack', k') ∧
      u = { t.pay (popAllPrice t.cc.stack none k) with
        cc := { k' with savelist := {} }
        ctrls := (t.ctrls.remove 0).apply k.savelist }

variable {s t u : Engine} {k exit : ContinuationData} {body cond : SliceData}

theorem pay_zero : t.pay 0 = t := by
  unfold pay
  rw [Gas.useGas_zero]

theorem hands_arriving (hk : TakesAll k) (ht : Resting t) : Hands t k (t.arriving k) := by
  have hprice : popAllPrice t.cc.stack none k = 0 := popAllPrice_whole _ hk.nargs hk.stack
  refine ⟨ht.params, hprice.trans_le ht.gas, _, _, passed_whole _ hk.nargs, ?_⟩
  rw [hprice, pay_zero, hk.stack]
  rfl

theorem exec_switch_hands (hc0 : s.ctrls.get 0 = some (.continuation k)) (h : Hands s k u) :
    exec (switch (Addr.ctrl 0)) s = (.ok (), u) := by
  obtain ⟨hparams, hgas, stack', k', hpassed, rfl⟩ := h
  rw [← pargsRaw_of_params hparams] at hpassed hgas ⊢
  rw [eq_holding s, exec_switch_c0 hpassed hgas hc0, passed_savelist hpassed]
  rfl

/-! ### Loop continuations -/

/-- A loop continuation with its exit. -/
def loopCont (typeOf : ContinuationType) (exit : ContinuationData) : ContinuationData :=
  { ContinuationOf.withType typeOf with savelist := { c0 := some (.continuation exit) } }

/-- The condition of a while loop, as the body returns to it. -/
def condCont (body cond : SliceData) (exit : ContinuationData) : ContinuationData :=
  { ContinuationOf.withCode cond with
    savelist := { c0 := some (.continuation (loopCont (.whileLoopCondition body cond) exit)) } }

/-- A flag on the top of the stack, and the state without it. -/
def Flagged (t : Engine) (flag : Bool) (u : Engine) : Prop :=
  ∃ stack y, t.cc.stack = stack ++ [.integer y] ∧ y.isZero = !flag ∧ u = { t with cc.stack := stack }

theorem hands_loopCont {typeOf : ContinuationType} (h : Hands t exit u) :
    Hands (t.arriving (loopCont typeOf exit)) exit u := h

theorem exec_switch_loopCont {typeOf : ContinuationType} (h : Hands t exit u) :
    exec (do switch (Addr.ctrl 0); return (none : Option Int))
      (t.arriving (loopCont typeOf exit)) = (.ok none, u) := by
  have hswitch : exec (switch (Addr.ctrl 0)) (t.arriving (loopCont typeOf exit)) = (.ok (), u) :=
    exec_switch_hands rfl (hands_loopCont h)
  rw [exec_bind_ok hswitch]
  rfl

theorem exec_dischargeNargs_of_all (h : s.cc.nargs = -1) : exec dischargeNargs s = (.ok (), s) := by
  unfold dischargeNargs
  rw [exec_bind_get, h]
  simp

theorem drop_concat (stack : Stack) (item : StackItem) :
    Stack.drop 0 (stack ++ [item]) = .ok (item, stack) := by
  unfold Stack.drop Stack.depth
  simp [List.eraseIdx_append_of_length_le]

/-- The condition of a loop is taken from the stack. -/
theorem exec_checkWhileLoopCondition {flag : Bool} (h : Flagged t flag u) :
    exec checkWhileLoopCondition t = (.ok flag, u) := by
  obtain ⟨stack, y, hstack, hzero, rfl⟩ := h
  have hflag : (!y.isZero) = flag := by rw [hzero, Bool.not_not]
  unfold checkWhileLoopCondition takeStack
  rw [bind_assoc, exec_bind_get, hstack, drop_concat, ← hflag]
  rfl

theorem flagged_loopCont {flag : Bool} {typeOf : ContinuationType} (h : Flagged t flag u) :
    Flagged (t.arriving (loopCont typeOf exit)) flag (u.arriving (loopCont typeOf exit)) := by
  obtain ⟨stack, y, hstack, hzero, rfl⟩ := h
  exact ⟨stack, y, hstack, hzero, rfl⟩

theorem exec_stepRepeatLoop_next {n : Int} (hn : 1 < n) :
    exec (stepRepeatLoop body n) (t.arriving (loopCont (.repeatLoopBody body n) exit)) =
      (.ok none, t.starting body (loopCont (.repeatLoopBody body (n - 1)) exit)) := by
  unfold stepRepeatLoop
  rw [exec_ite, if_pos hn, exec_bind_modify, exec_bind_ok (exec_dischargeNargs_of_all rfl)]
  rfl

theorem exec_stepRepeatLoop_last {n : Int} (hn : ¬1 < n) (h : Hands t exit u) :
    exec (stepRepeatLoop body n) (t.arriving (loopCont (.repeatLoopBody body n) exit)) =
      (.ok none, u) := by
  unfold stepRepeatLoop
  rw [exec_ite, if_neg hn]
  exact exec_switch_loopCont h

theorem exec_checkUntilLoopCondition {flag : Bool} (h : Flagged t flag u) :
    exec checkUntilLoopCondition t = (.ok (!flag), u) := by
  unfold checkUntilLoopCondition
  rw [exec_bind_ok (exec_checkWhileLoopCondition h)]
  rfl

theorem exec_stepUntilLoop_next (h : Flagged t false u) :
    exec (stepUntilLoop body) (t.arriving (loopCont (.untilLoopCondition body) exit)) =
      (.ok none, u.starting body (loopCont (.untilLoopCondition body) exit)) := by
  unfold stepUntilLoop
  rw [exec_bind_ok (exec_checkUntilLoopCondition (flagged_loopCont h)), exec_ite, Bool.not_false,
    if_pos rfl, exec_bind_ok (exec_dischargeNargs_of_all rfl)]
  rfl

theorem exec_stepUntilLoop_last (h : Flagged t true s) (hhands : Hands s exit u) :
    exec (stepUntilLoop body) (t.arriving (loopCont (.untilLoopCondition body) exit)) =
      (.ok none, u) := by
  unfold stepUntilLoop
  rw [exec_bind_ok (exec_checkUntilLoopCondition (flagged_loopCont h)), exec_ite, Bool.not_true,
    if_neg Bool.false_ne_true]
  exact exec_switch_loopCont hhands

theorem exec_catchError_ok {α : Type} {m : M α} {a : α} (h : exec m s = (.ok a, t)) :
    exec (catchError m) s = (.ok (.ok a), t) := by
  rw [exec_catchError, h]

theorem exec_stepWhileLoop_next (h : Flagged t true u) :
    exec (stepWhileLoop body cond) (t.arriving (loopCont (.whileLoopCondition body cond) exit)) =
      (.ok none, u.starting body (condCont body cond exit)) := by
  unfold stepWhileLoop
  rw [exec_bind_ok (exec_catchError_ok (exec_checkWhileLoopCondition (flagged_loopCont h)))]
  dsimp only
  rw [exec_bind_ok (exec_dischargeNargs_of_all rfl)]
  rfl

theorem exec_stepWhileLoop_last (h : Flagged t false s) (hhands : Hands s exit u) :
    exec (stepWhileLoop body cond) (t.arriving (loopCont (.whileLoopCondition body cond) exit)) =
      (.ok none, u) := by
  unfold stepWhileLoop
  rw [exec_bind_ok (exec_catchError_ok (exec_checkWhileLoopCondition (flagged_loopCont h)))]
  exact exec_switch_loopCont hhands

/-- The continuation of a loop without end keeps the exit for the first iteration only. -/
def againCont (body : SliceData) (saved : Option StackItem) : ContinuationData :=
  { ContinuationOf.withType (.againLoopBody body) with savelist := { c0 := saved } }

theorem exec_stepAgainLoop (saved : Option StackItem) :
    exec (stepAgainLoop body) (t.arriving (againCont body saved)) =
      (.ok none, t.starting body (againCont body none)) := by
  unfold stepAgainLoop
  rw [exec_bind_ok (exec_dischargeNargs_of_all rfl)]
  rfl

/-- What a return to a loop continuation starts: code with the next loop continuation in c0. The body
of a while loop returns to the condition. -/
inductive Turn : ContinuationData → Engine → SliceData → ContinuationData → Engine → Prop where
  | repeats {s : Engine} {body : SliceData} {exit : ContinuationData} {n : Int} : 1 < n →
    Turn (loopCont (.repeatLoopBody body n) exit) s body
      (loopCont (.repeatLoopBody body (n - 1)) exit) s
  | untils {s t : Engine} {body : SliceData} {exit : ContinuationData} : Flagged s false t →
    Turn (loopCont (.untilLoopCondition body) exit) s body (loopCont (.untilLoopCondition body) exit) t
  | whiles {s t : Engine} {body cond : SliceData} {exit : ContinuationData} : Flagged s true t →
    Turn (loopCont (.whileLoopCondition body cond) exit) s body (condCont body cond exit) t
  | conds {s : Engine} {body cond : SliceData} {exit : ContinuationData} :
    Turn (condCont body cond exit) s cond (loopCont (.whileLoopCondition body cond) exit) s
  | agains {s : Engine} {body : SliceData} {saved : Option StackItem} :
    Turn (againCont body saved) s body (againCont body none) s

/-- The returns that leave the loop, with its exit. -/
inductive Out : ContinuationData → Engine → ContinuationData → Engine → Prop where
  | repeats {s : Engine} {body : SliceData} {exit : ContinuationData} {n : Int} : ¬1 < n →
    Out (loopCont (.repeatLoopBody body n) exit) s exit s
  | untils {s t : Engine} {body : SliceData} {exit : ContinuationData} : Flagged s true t →
    Out (loopCont (.untilLoopCondition body) exit) s exit t
  | whiles {s t : Engine} {body cond : SliceData} {exit : ContinuationData} : Flagged s false t →
    Out (loopCont (.whileLoopCondition body cond) exit) s exit t

/-! ### Whole loops -/

theorem stopsAtOnce_of_typeOf (h : s.cc.typeOf.isExcQuit = false) : stopsAtOnce s = false := by
  unfold stopsAtOnce
  rw [h, Bool.and_false]

variable [TonBlock]

/-- Where a run can lead to. -/
def Leads (e t : Engine) : Prop := Run (fun _ => True) e (.ok none) t

/-- What code does between its start and its return to c0, whatever continuation is there. -/
structure Does (code : SliceData) (s t : Engine) : Prop where
  start : Resting s
  finish : Resting t
  leads : ∀ k, TakesAll k → Leads (s.starting code k) (t.arriving k)

omit [TonBlock] in
theorem Hands.gas (h : Hands t k u) : 0 ≤ u.gas.gasRemaining := by
  obtain ⟨-, hgas, _, _, -, rfl⟩ := h
  exact Int.sub_nonneg_of_le hgas

/-- The start of an iteration: the code that runs, and the continuation in c0. -/
structure Start where
  code : SliceData
  back : ContinuationData
  state : Engine

def Start.engine (x : Start) : Engine := x.state.starting x.code x.back

/-- An iteration, up to the start of the next one. -/
inductive Next : Start → Start → Prop where
  | mk {code code' : SliceData} {k k' : ContinuationData} {s t u : Engine} : Does code s t →
    Turn k t code' k' u → Next ⟨code, k, s⟩ ⟨code', k', u⟩

section Runs

variable (hdefault : UsedUp TonTypes.sliceDefault)

include hdefault

/-- A continuation without code makes its step. -/
theorem leads_step (hcode : k.code = TonTypes.sliceDefault) (hquit : k.typeOf.isExcQuit = false)
    (hgas : 0 ≤ u.gas.gasRemaining)
    (hstep : exec (typeStep k.typeOf) (t.arriving k) = (.ok none, u)) : Leads (t.arriving k) u := by
  have hbits : TonTypes.remainingBits (t.arriving k).cc.code = 0 := hcode ▸ hdefault.bits
  have hreferences : TonTypes.referenceOpt (t.arriving k).cc.code 0 = none :=
    hcode ▸ hdefault.references
  refine .one trivial (exec_pass_of_step hbits (stopsAtOnce_of_typeOf hquit) hgas ?_)
  rw [exec_implicitStep_of_usedUp hreferences]
  exact hstep

theorem Turn.leads {code : SliceData} {k' : ContinuationData} (h : Turn k s code k' t)
    (hgas : 0 ≤ s.gas.gasRemaining) : Leads (s.arriving k) (t.starting code k') := by
  cases h with
  | repeats hn => exact leads_step hdefault rfl rfl hgas (exec_stepRepeatLoop_next hn)
  | untils hflag =>
    obtain ⟨stack, y, hstack, hzero, rfl⟩ := hflag
    exact leads_step hdefault rfl rfl hgas (exec_stepUntilLoop_next ⟨stack, y, hstack, hzero, rfl⟩)
  | whiles hflag =>
    obtain ⟨stack, y, hstack, hzero, rfl⟩ := hflag
    exact leads_step hdefault rfl rfl hgas (exec_stepWhileLoop_next ⟨stack, y, hstack, hzero, rfl⟩)
  | conds => exact .start
  | agains => exact leads_step hdefault rfl rfl hgas (exec_stepAgainLoop _)

theorem Out.leads (h : Out k s exit t) (hhands : Hands t exit u) : Leads (s.arriving k) u := by
  cases h with
  | repeats hn => exact leads_step hdefault rfl rfl hhands.gas (exec_stepRepeatLoop_last hn hhands)
  | untils hflag =>
    exact leads_step hdefault rfl rfl hhands.gas (exec_stepUntilLoop_last hflag hhands)
  | whiles hflag =>
    exact leads_step hdefault rfl rfl hhands.gas (exec_stepWhileLoop_last hflag hhands)

omit [TonBlock] hdefault in
theorem Turn.takesAll {code : SliceData} {k' : ContinuationData} (h : Turn k s code k' t) :
    TakesAll k' := by
  cases h <;> exact ⟨rfl, rfl⟩

/-- A run makes the iterations one after the other. -/
theorem leads_iterations {x y : Start} {n : Nat} (hx : TakesAll x.back) (h : Times Next x n y) :
    TakesAll y.back ∧ Leads x.engine y.engine := by
  refine h.keeps (I := fun _ (y : Start) => TakesAll y.back ∧ Leads x.engine y.engine) ?_
    ⟨hx, .start⟩
  rintro n _ _ ⟨htakes, hleads⟩ ⟨hdoes, hturn⟩
  exact ⟨hturn.takesAll, Run.trans hleads
    (Run.trans (hdoes.leads _ htakes) (hturn.leads hdefault hdoes.finish.gas))⟩

end Runs

/-! ### The four loops -/

/-- A loop, by the code of its continuations. -/
inductive Loop where
  | repeats (counter : Int) (body : SliceData)
  | untils (body : SliceData)
  | whiles (cond body : SliceData)
  | agains (body : SliceData)

/-- The code and the continuation in c0 after a number of iterations. The condition and the body of a
while loop count as iterations. -/
inductive Loop.At (exit : ContinuationData) : Loop → Nat → Start → Prop where
  | repeats {counter : Int} {body : SliceData} {n : Nat} {s : Engine} : n < counter →
    At exit (repeats counter body) n ⟨body, loopCont (.repeatLoopBody body (counter - n)) exit, s⟩
  | untils {body : SliceData} {n : Nat} {s : Engine} :
    At exit (untils body) n ⟨body, loopCont (.untilLoopCondition body) exit, s⟩
  | cond {cond body : SliceData} {n : Nat} {s : Engine} :
    At exit (whiles cond body) n ⟨cond, loopCont (.whileLoopCondition body cond) exit, s⟩
  | body {cond body : SliceData} {n : Nat} {s : Engine} :
    At exit (whiles cond body) n ⟨body, condCont body cond exit, s⟩
  | first {body : SliceData} {s : Engine} :
    At exit (agains body) 0 ⟨body, againCont body (some (.continuation exit)), s⟩
  | agains {body : SliceData} {n : Nat} {s : Engine} :
    At exit (agains body) (n + 1) ⟨body, againCont body none, s⟩

namespace Loop

variable {loop : Loop} {x y : Start} {n : Nat}

theorem at_next (hx : loop.At exit n x) (h : Next x y) : loop.At exit (n + 1) y := by
  obtain ⟨hdoes, hturn⟩ := h
  cases hx with
  | repeats hlt =>
    cases hturn with
    | repeats hn =>
      rw [sub_sub, ← Nat.cast_succ]
      exact .repeats (by omega)
  | untils =>
    cases hturn
    exact .untils
  | cond =>
    cases hturn
    exact .body
  | body =>
    cases hturn
    exact .cond
  | first | agains =>
    cases hturn
    exact .agains

omit [TonBlock] in
theorem At.takesAll (hx : loop.At exit n x) : TakesAll x.back := by
  cases hx <;> exact ⟨rfl, rfl⟩

omit [TonBlock] in
/-- The loop is left to its exit, and `REPEAT` after as many iterations as its counter says. -/
theorem At.out (hx : loop.At exit n x) (h : Out x.back s k t) :
    k = exit ∧ ∀ counter body, loop = .repeats counter body → counter = n + 1 := by
  cases hx with
  | repeats hlt =>
    cases h with
    | repeats hn =>
      refine ⟨rfl, ?_⟩
      rintro _ _ ⟨⟩
      omega
  | untils | cond =>
    cases h
    exact ⟨rfl, nofun⟩
  | body | first | agains => cases h

end Loop

omit [TonBlock] in
/-- A continuation that asks for no values gets none, and the rest of the stack is lost. -/
theorem passed_zero {stack : Stack} (h : exit.nargs = 0) :
    passed stack none exit = .ok (stack, exit) := by
  obtain ⟨code, nargs, savelist, kept, typeOf⟩ := exit
  obtain rfl : nargs = 0 := h
  simp [passed, passCount, moveTop, bind, Except.bind]

omit [TonBlock] in
/-- The exit resumes its code with its saved registers. It gets the whole stack when it takes any number
of values, and nothing when it takes none. -/
theorem Hands.resumes (h : Hands s exit u) :
    u.cc.code = exit.code ∧ u.ctrls = (s.ctrls.remove 0).apply exit.savelist ∧
      (exit.nargs = -1 → u.cc.stack = exit.stack ++ s.cc.stack) ∧
      (exit.nargs = 0 → u.cc.stack = exit.stack) := by
  obtain ⟨-, -, stack', exit', hpassed, rfl⟩ := h
  refine ⟨(passed_code hpassed :), rfl, fun hnargs => ?_, fun hnargs => ?_⟩
  · rw [passed_whole _ hnargs] at hpassed
    cases hpassed
    rfl
  · rw [passed_zero hnargs] at hpassed
    cases hpassed
    rfl

/-- A run with a loop continuation in c0 makes one iteration after the other, on the code of the loop
and nothing else of its continuations. When the counter or the flag ends the loop, the exit resumes,
with its saved registers. It finds the stack of the last iteration only when it takes any number of
values. -/
theorem loops_iterate {loop : Loop} {x y : Start} {n : Nat} (hdefault : UsedUp TonTypes.sliceDefault)
    (hx : loop.At exit 0 x) (h : Times Next x n y) :
    Leads x.engine y.engine ∧ loop.At exit n y ∧
      ∀ s k t u, Does y.code y.state s → Out y.back s k t → Hands t k u →
        Leads x.engine u ∧ (∀ counter body, loop = .repeats counter body → counter = n + 1) ∧
          u.cc.code = exit.code ∧ u.ctrls = (t.ctrls.remove 0).apply exit.savelist ∧
          (exit.nargs = -1 → u.cc.stack = exit.stack ++ t.cc.stack) ∧
          (exit.nargs = 0 → u.cc.stack = exit.stack) := by
  obtain ⟨htakes, hleads⟩ := leads_iterations hdefault hx.takesAll h
  have hy : loop.At exit n y := h.keeps (fun _ _ _ => Loop.at_next) hx
  refine ⟨hleads, hy, fun s k t u hdoes hout hhands => ?_⟩
  obtain ⟨rfl, hcount⟩ := hy.out hout
  exact ⟨Run.trans hleads (Run.trans (hdoes.leads _ htakes) (hout.leads hdefault hhands)), hcount,
    hhands.resumes⟩

omit [TonBlock] in
theorem exec_switchToC0_hands (hc0 : s.ctrls.get 0 = some (.continuation k)) (h : Hands s k u) :
    exec switchToC0 s = (.ok (), u) := by
  obtain ⟨hparams, hgas, stack', k', hpassed, rfl⟩ := h
  rw [← pargsRaw_of_params hparams] at hpassed hgas ⊢
  rw [eq_holding s, exec_switchToC0 hpassed hgas hc0, passed_savelist hpassed]
  rfl

/-- Code without instructions returns at once. -/
theorem does_usedUp {code : SliceData} (hcode : UsedUp code) (hs : Resting s)
    (hgas : Gas.implicitRetPrice ≤ s.gas.gasRemaining) :
    Does code s (s.stepped Gas.implicitRetPrice) := by
  have hleft : 0 ≤ (s.stepped Gas.implicitRetPrice).gas.gasRemaining := by
    rw [stepped_gasRemaining]
    omega
  refine ⟨hs, ⟨hs.params, hleft⟩, fun k hk => .one trivial ?_⟩
  refine exec_pass_of_step (e := s.starting code k) (t := (s.stepped _).arriving k) hcode.bits
    (stopsAtOnce_of_typeOf rfl) hleft ?_
  have hreturn : exec switchToC0 ((s.starting code k).stepped Gas.implicitRetPrice) =
      (.ok (), (s.stepped Gas.implicitRetPrice).arriving k) :=
    exec_switchToC0_hands rfl
      (hands_arriving (t := (s.starting code k).stepped _) hk ⟨hs.params, hleft⟩)
  rw [exec_implicitStep_of_usedUp (e := s.starting code k) hcode.references]
  change exec stepOrdinary (s.starting code k) = _
  unfold stepOrdinary
  rw [exec_countStep_tryUseGas (s.starting code k) hgas, exec_bind_get]
  exact exec_bind_ok hreturn

end Engine

end Loops

namespace Engine

open scoped Plain

/-- Three iterations without instructions, before `PUSHINT 7`. -/
def thrice : Start where
  code := Plain.code []
  back := loopCont (.repeatLoopBody (Plain.code []) 3) (.withCode (Plain.code [0x77]))
  state := (withCapabilities []).setupWithLibraries (Plain.code []) none none none []

theorem iterates_thrice :
    ∃ u, Leads thrice.engine u ∧ u.cc.code = Plain.code [0x77] ∧
      u.gas.gasRemaining = thrice.engine.gas.gasRemaining - 3 * 5 := by
  have hcode : UsedUp (Plain.code []) := ⟨rfl, rfl⟩
  have hfirst := does_usedUp hcode (s := thrice.state) ⟨rfl, by decide +kernel⟩ (by decide +kernel)
  have hsecond := does_usedUp hcode hfirst.finish (by decide +kernel)
  have hthird := does_usedUp hcode hsecond.finish (by decide +kernel)
  have hloop : Loop.At (.withCode (Plain.code [0x77])) (.repeats 3 (Plain.code [])) 0 thrice :=
    .repeats (by decide)
  obtain ⟨-, -, hout⟩ := loops_iterate usedUp_default hloop
    (.succ (.succ .zero (.mk hfirst (.repeats (by decide)))) (.mk hsecond (.repeats (by decide))))
  have hexit : TakesAll (.withCode (Plain.code [0x77])) := ⟨rfl, rfl⟩
  obtain ⟨hleads, -, hresumed, -⟩ :=
    hout _ _ _ _ hthird (.repeats (by decide)) (hands_arriving hexit hthird.finish)
  exact ⟨_, hleads, hresumed, by decide +kernel⟩

end Engine

end TonVm
