import TonVm.Proof.Reverting

/-!
# Handlers that fail

A handler may fail before it executes an instruction: its code is used up, and its implicit step raises
an exception. This one goes to the c2 that the handler had saved, so handlers form a chain. Nothing
clears the instruction variables in between, and each dispatch adds one. The address of the last one
has four bits for its number, so a chain works as long as there are at most 16 variables. A handler of
the type that `TRY` makes gives up c2 before its implicit return can fail.
-/

namespace TonVm

open ExecLib

section Chain

variable [TonTypes]

namespace Engine

/-! ### What a failing step leaves alone -/

instance (item : StackItem) : LeavesGuarded (putCtrl 0 item) := by
  refine ⟨fun s => ?_⟩
  unfold putCtrl
  rw [exec_bind_get]
  unfold SaveList.put
  split <;> rfl

instance : FailsLeaving guarded (switch (Addr.ctrl 0)) := by
  unfold switch
  refine .andThen inferInstance fun _ => .andThen inferInstance fun _ => .andThen inferInstance
    fun e => .ofTotal fun s => ?_
  cases (e.cc.savelist.get 0).isNone <;> exact ⟨_, _, rfl⟩

instance : FailsLeaving guarded switchToC0 := by
  unfold switchToC0
  refine .andThen inferInstance fun _ => .andThen inferInstance fun e => ?_
  split
  · refine .andThen inferInstance fun c0 => .ofTotal fun s => ?_
    cases (c0.savelist.get 0).isNone <;> exact ⟨_, _, rfl⟩
  · infer_instance

instance : FailsLeaving guarded stepOrdinary := by
  unfold stepOrdinary
  infer_instance

instance (code : Int) : FailsLeaving guarded (stepPushint code) := by
  unfold stepPushint
  infer_instance

instance (depth : Nat) : FailsLeaving guarded (stepCatchRevert depth) := by
  have hdrop (n : Nat) : LeavesRegisters
      (modify fun e => { e with cc.stack := Stack.dropTop n e.cc.stack } : M Unit) := ⟨fun _ => rfl⟩
  unfold stepCatchRevert
  infer_instance

instance (body cond : SliceData) : FailsLeaving guarded (stepWhileLoop body cond) := by
  unfold stepWhileLoop
  refine .andThen inferInstance fun result => ?_
  split <;> infer_instance

instance (body : SliceData) (counter : Int) : FailsLeaving guarded (stepRepeatLoop body counter) := by
  have hcounter : LeavesGuarded (modify fun e => { e with cc.typeOf :=
      match e.cc.typeOf with
      | .repeatLoopBody code counter => .repeatLoopBody code (counter - 1)
      | typeOf => typeOf } : M Unit) := ⟨fun _ => rfl⟩
  unfold stepRepeatLoop
  infer_instance

instance (body : SliceData) : FailsLeaving guarded (stepUntilLoop body) := by
  unfold stepUntilLoop
  infer_instance

instance (body : SliceData) : LeavesGuarded (stepAgainLoop body) := by
  unfold stepAgainLoop
  infer_instance

/-- The implicit step is the return of a handler of `TRY`. -/
def ReturnsFromTry (u : Engine) : Prop :=
  TonTypes.referenceOpt u.cc.code 0 = none ∧ u.cc.typeOf = .tryCatch

/-- A failing step leaves c2 alone, unless it is the implicit return of a handler of `TRY`. -/
theorem guarded_of_failedStep {u v : Engine} {error : Error} (hreturn : ¬u.ReturnsFromTry)
    (h : exec implicitStep u = (.error error, v)) : v.guarded = u.guarded := by
  have hout {m : M (Option Int)} [hm : FailsLeaving guarded m] (h : exec m u = (.error error, v)) :
      v.guarded = u.guarded := hm.out _ _ _ h
  unfold implicitStep at h
  rw [exec_bind_get] at h
  split at h
  · exact hout h
  · rename_i hnone
    rw [exec_bind_get] at h
    unfold typeStep at h
    split at h
    case h_4 heq => exact absurd ⟨hnone, heq⟩ hreturn
    all_goals exact hout h

/-! ### Chains of handlers -/

/-- A step to the next cell of the code. -/
structure JumpsToNext (u v : Engine) : Prop where
  bits : TonTypes.remainingBits u.cc.code = 0
  reference : (TonTypes.referenceOpt u.cc.code 0).isSome = true
  step : exec implicitStep u = (.ok none, v)
  gas : 0 ≤ v.gas.gasRemaining

/-- The implicit step of the first state raises an exception, which is dispatched in the second. -/
structure FailsIn (u : Engine) (exception : Exception) (v : Engine) : Prop where
  bits : TonTypes.remainingBits u.cc.code = 0
  step : exec implicitStep u = (.error (.exception exception), v)
  gas : 0 ≤ v.gas.gasRemaining

theorem JumpsToNext.registers_eq {u v : Engine} (h : JumpsToNext u v) : v.registers = u.registers := by
  obtain ⟨reference, href⟩ := Option.isSome_iff_exists.1 h.reference
  have hstep := h.step
  unfold implicitStep at hstep
  rw [exec_bind_get, href] at hstep
  exact Leaves.eq inferInstance hstep

theorem registers_of_jumps {t u : Engine} (h : Relation.ReflTransGen JumpsToNext t u) :
    u.registers = t.registers := by
  induction h with
  | refl => rfl
  | tail _ hjump ih => exact hjump.registers_eq.trans ih

variable [TonBlock]

/-- An exception that a pass dispatches enters the first of the handlers with the exception pair. When
that one fails in an implicit step other than the return of a handler of `TRY`, the exception enters the
next one, and so on. -/
def Delivered : List ContinuationData → Engine → Exception → Engine → Prop
  | [], _, _, _ => True
  | handler :: rest, e, exception, s =>
    exception.Catchable → handlerPrice s.cc.stack exception handler ≤ s.gas.gasRemaining →
    ∃ t, exec pass e = (.ok none, t) ∧ t.cc = entering handler exception ∧
      ∀ u exception' s', Relation.ReflTransGen JumpsToNext t u → FailsIn u exception' s' →
        ¬u.ReturnsFromTry → Delivered rest u exception' s'

/-- The handlers of a chain: each takes the exception pair and has the next one saved as its c2. -/
structure Chained (handlers : List ContinuationData) : Prop where
  takesPair : ∀ handler ∈ handlers,
    handler.typeOf.isExcQuit = false ∧ handler.typeOf.isCatchRevert = false
  saved : handlers.IsChain fun handler next => handler.savelist.get 2 = some (.continuation next)

/-- What a pass with a dispatch starts from. -/
structure Dispatching (e : Engine) (exception : Exception) (handler : ContinuationData) (s : Engine) :
    Prop where
  pass : exec pass e = exec (do dispatchException (.exception exception); return none) s
  bugfixes : s.checkCapabilities .capsTvmBugfixes2022 = true
  params : s.cmd.params = []
  c2 : s.ctrls.get 2 = some (.continuation handler)

section Failing

variable {e s u s' : Engine} {exception exception' : Exception} {handler next : ContinuationData}

theorem Dispatching.exec_pass (h : Dispatching e exception handler s) (hcatch : exception.Catchable)
    (hpair : handler.typeOf.isExcQuit = false ∧ handler.typeOf.isCatchRevert = false)
    (hvars : s.cmd.vars.length < 16)
    (hgas : handlerPrice s.cc.stack exception handler ≤ s.gas.gasRemaining) :
    exec Engine.pass e = (.ok none, s.handling exception handler) :=
  h.pass.trans (exec_bind_ok
    (exec_dispatchException_handling hcatch h.params h.c2 hpair.1 hpair.2 hvars hgas h.bugfixes))

/-- A handler that fails hands its exception on to the c2 it had saved. -/
theorem Dispatching.of_failed (h : Dispatching e exception handler s)
    (hquit : handler.typeOf.isExcQuit = false)
    (hsaved : handler.savelist.get 2 = some (.continuation next))
    (hjumps : Relation.ReflTransGen JumpsToNext (s.handling exception handler) u)
    (hfails : FailsIn u exception' s') (hreturn : ¬u.ReturnsFromTry) :
    Dispatching u exception' next s' ∧ s'.cmd.vars.length = s.cmd.vars.length + 1 := by
  have hregs := registers_of_jumps hjumps
  have htype : u.cc.typeOf = handler.typeOf := congrArg (·.2.2) hregs
  have hguarded := guarded_of_failedStep hreturn hfails.step
  have hcommand : s'.command = (s.handling exception handler).command :=
    (congrArg Prod.fst hguarded).trans (congrArg Prod.fst hregs)
  have hcmd : s'.cmd = (s.handling exception handler).cmd := congrArg Prod.fst hcommand
  have hc2 : s'.ctrls.get 2 = (s.handling exception handler).ctrls.get 2 :=
    (congrArg Prod.snd hguarded).trans (congrArg (fun r => r.2.1.get 2) hregs)
  have hstops : stopsAtOnce u = false := by
    unfold stopsAtOnce
    rw [htype, hquit, Bool.and_false]
  refine ⟨⟨?_, ?_, ?_, ?_⟩, ?_⟩
  · exact exec_pass_of_failedStep hfails.bits hstops hfails.gas hfails.step
  · have hcaps : s'.capabilities = s.capabilities := congrArg Prod.snd hcommand
    have := h.bugfixes
    unfold checkCapabilities at this ⊢
    rwa [hcaps]
  · rw [hcmd]
    exact h.params
  · rw [hc2]
    change (handler.savelist.get 2).or none = _
    rw [hsaved]
    rfl
  · rw [hcmd]
    simp [handling]

/-- Along a chain of handlers every exception is delivered, as long as there are variables left. -/
theorem delivered_of_chained {rest : List ContinuationData} (h : Dispatching e exception handler s)
    (hchain : Chained (handler :: rest))
    (hvars : s.cmd.vars.length + (handler :: rest).length ≤ 16) :
    Delivered (handler :: rest) e exception s := by
  induction rest generalizing handler e exception s with
  | nil =>
    intro hcatch hgas
    rw [List.length_singleton] at hvars
    have hpass := h.exec_pass hcatch (hchain.takesPair handler (by simp)) (by omega) hgas
    exact ⟨_, hpass, rfl, fun _ _ _ _ _ _ => trivial⟩
  | cons next rest ih =>
    intro hcatch hgas
    simp only [List.length_cons] at hvars
    have hpair := hchain.takesPair handler (by simp)
    refine ⟨_, h.exec_pass hcatch hpair (by omega) hgas, rfl, ?_⟩
    intro u exception' s' hjumps hfails hreturn
    have hsaved := List.isChain_cons_cons.1 hchain.saved
    obtain ⟨hnext, hlength⟩ := h.of_failed hpair.1 hsaved.1 hjumps hfails hreturn
    refine ih hnext ⟨fun k hk => hchain.takesPair k (List.mem_cons_of_mem _ hk), hsaved.2⟩ ?_
    rw [hlength, List.length_cons]
    omega

/-- An instruction throws, and c2 holds the first of a chain of handlers. Every dispatch along the chain
addresses the handler it has pushed exactly if there are variables for all of them. In that case every
exception enters the next handler, unless a handler of `TRY` fails in its return. -/
theorem chain_delivers (hraised : Raises e exception s) {rest : List ContinuationData}
    (hcap : s.checkCapabilities .capsTvmBugfixes2022 = true) (hchain : Chained (handler :: rest))
    (hc2 : s.ctrls.get 2 = some (.continuation handler)) :
    ((∀ j < (handler :: rest).length, AddressesLast (s.cmd.vars.length + j)) ↔
      s.cmd.vars.length + (handler :: rest).length ≤ 16) ∧
    (s.cmd.vars.length + (handler :: rest).length ≤ 16 →
      Delivered (handler :: rest) e exception s) := by
  constructor
  · simp only [addressesLast_iff, List.length_cons]
    constructor
    · intro h
      have := h rest.length (by omega)
      omega
    · intro h j hj
      omega
  · exact delivered_of_chained ⟨hraised.exec_pass, hcap, hraised.params, hc2⟩ hchain

end Failing

end Engine

end Chain

namespace Engine

open scoped Plain

/-- Two handlers that fail and one that pushes 7. -/
def threeHandlers : List ContinuationData :=
  [handlerChain 2 (.withCode (Plain.code [0x77])), handlerChain 1 (.withCode (Plain.code [0x77])),
    .withCode (Plain.code [0x77])]

theorem chained_threeHandlers : Chained threeHandlers where
  takesPair := by
    unfold threeHandlers
    simp only [List.forall_mem_cons]
    exact ⟨⟨rfl, rfl⟩, ⟨rfl, rfl⟩, ⟨rfl, rfl⟩, fun _ h => absurd h List.not_mem_nil⟩
  saved := by
    unfold threeHandlers
    exact .cons_cons rfl (.cons_cons rfl (.singleton _))

/-- A throw to them, and the states after a number of passes. -/
def throwingToThree : Nat → Engine
  | 0 => throwingTo (handlerChain 2 (.withCode (Plain.code [0x77])))
  | n + 1 => (exec pass (throwingToThree n)).2

theorem throwingToThree_succ {n : Nat} {t : Engine}
    (h : exec pass (throwingToThree n) = (.ok none, t)) : throwingToThree (n + 1) = t :=
  congrArg Prod.snd h

/-- The exception that a step has failed with. -/
def failedBy : Except Error (Option Int) → Option Exception
  | .error (.exception exception) => some exception
  | _ => none

theorem exists_failsIn {u : Engine} (hbits : TonTypes.remainingBits u.cc.code = 0)
    (hgas : 0 ≤ (exec implicitStep u).2.gas.gasRemaining)
    (h : (failedBy (exec implicitStep u).1).map
      (fun exception => (exception.exceptionOrCustomCode, exception.exceptionCode)) =
        some (2, some .stackUnderflow)) :
    ∃ exception, FailsIn u exception (exec implicitStep u).2 ∧ exception.Catchable := by
  obtain ⟨exception, hfailed, hcode⟩ := Option.map_eq_some_iff.1 h
  rw [Prod.mk.injEq] at hcode
  refine ⟨exception, ⟨hbits, Prod.ext ?_ rfl, hgas⟩, ⟨by rw [hcode.1]; decide, by rw [hcode.2]; decide⟩⟩
  unfold failedBy at hfailed
  split at hfailed
  · cases hfailed
    assumption
  · cases hfailed

theorem handlerPrice_of_nil {handler : ContinuationData} (h : handler.stack = []) (stack : Stack)
    (exception : Exception) : handlerPrice stack exception handler = Gas.exceptionPrice := by
  unfold handlerPrice popAllPrice passPrice
  simp [passCount, h, Gas.stackPrice]

/-- Both exceptions of the handlers are delivered, the second one to the handler that does not fail. -/
theorem delivers_throwing : ∃ first second s s' t,
    FailsIn (throwingToThree 1) first s ∧ FailsIn (throwingToThree 2) second s' ∧
    exec pass (throwingToThree 2) = (.ok none, t) ∧
    t.cc = entering (.withCode (Plain.code [0x77])) second := by
  obtain ⟨exception, hraised, hcatch⟩ := exists_raises (e := throwingToThree 0) (by decide +kernel)
    (by decide +kernel)
  obtain ⟨first, hfirst, hcatch1⟩ := exists_failsIn (u := throwingToThree 1) (by decide +kernel)
    (by decide +kernel) (by decide +kernel)
  obtain ⟨second, hsecond, hcatch2⟩ := exists_failsIn (u := throwingToThree 2) (by decide +kernel)
    (by decide +kernel) (by decide +kernel)
  have hdelivered := (chain_delivers hraised (by decide +kernel) chained_threeHandlers rfl).2
    (by decide +kernel)
  obtain ⟨t, hpass, -, hrest⟩ := hdelivered hcatch (by
    rw [handlerPrice_of_nil rfl]
    decide +kernel)
  cases throwingToThree_succ hpass
  obtain ⟨t, hpass, -, hrest⟩ := hrest _ first _ .refl hfirst (by rintro ⟨-, ⟨⟩⟩) hcatch1 (by
    rw [handlerPrice_of_nil rfl]
    decide +kernel)
  cases throwingToThree_succ hpass
  obtain ⟨t, hpass, hcc, -⟩ := hrest _ second _ .refl hsecond (by rintro ⟨-, ⟨⟩⟩) hcatch2 (by
    rw [handlerPrice_of_nil rfl]
    decide +kernel)
  exact ⟨first, second, _, _, t, hfirst, hsecond, hpass, hcc⟩

/-- The handler inside of a `TRY` returns two values where `TRYARGS` has promised three. -/
def tryingWithFewer : Engine :=
  (withCapabilities [.capsTvmBugfixes2022]).setupWithLibraries
    (Plain.code [0x96, 0x92, 0xF2, 0x05, 0x90, 0xF3, 0x03, 0x91, 0x77, 0xF2, 0xFF]) none none none []

/-- After 16 handlers have failed, control goes back to the code that has thrown and not to the next
handler, which pushes 7. A handler of `TRYARGS` that fails does not get to the handler around it. -/
theorem undelivered_throwingTo :
    ending (passes 17 (throwingTo (handlerChain 15 (.withCode (Plain.code [0x77]))))) =
      (none, [0, 2, 7]) ∧
    ending (passes 18 (throwingTo (handlerChain 16 (.withCode (Plain.code [0x77]))))) =
      (none, [0, 2, 0, 2, 9]) ∧
    endedBy (passes 9 tryingWithFewer).1 = some .stackUnderflow := by
  decide +kernel

end Engine

end TonVm
