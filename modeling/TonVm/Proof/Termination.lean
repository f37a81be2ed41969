import TonVm.Proof.Prices
import TonVm.Proof.Run
import TonVm.Proof.FailedReturns
import TonVm.Proof.Parameters

/-!
# Termination

A pass that does not end the run pays for itself out of the gas that remains, or it is one of the free
implicit steps. A free step enters the body of a loop, which is an ordinary continuation and so pays
for its return, or it takes a continuation out of c0 and puts the entries of its save list in the
registers. The second kind lowers the size of what the registers hold. So gas and size, in this order,
decrease along every run.
-/

namespace TonVm

open ExecLib

variable [TonTypes]

namespace Engine

/-! ### Gas that was there to spend -/

theorem Spends.of_gas_eq {e t : Engine} (h : e.gas = t.gas) : Spends 0 e t := by
  refine ⟨?_, ?_⟩ <;> rw [h]
  rw [add_zero]

theorem Spends.pay (e : Engine) (amount : Int) : Spends amount e (e.pay amount) :=
  ⟨(Gas.getGasUsedFull_useGas e.gas amount).ge, le_rfl⟩

/-- An amount is spent, and it was below the ceiling. -/
structure Affords (amount : Int) (e t : Engine) : Prop extends Spends amount e t where
  within : e.gas.getGasUsedFull + amount ≤ e.gas.ceiling

namespace Affords

variable {e s t : Engine} {amount : Int}

/-- The check for remaining gas succeeds after the amount is spent. -/
theorem of_check (h : Spends amount e s) (hgas : s.gas.checkGasRemaining = .ok ())
    (hrest : Spends 0 s t) : Affords amount e t where
  toSpends := (h.trans hrest).mono (by omega)
  within := h.used.trans ((Gas.used_le_ceiling hgas).trans h.ceiling)

theorem before (hfirst : Spends 0 e s) (h : Affords amount s t) : Affords amount e t where
  toSpends := (hfirst.trans h.toSpends).mono (by omega)
  within := by
    have := h.within
    have := hfirst.used
    have := hfirst.ceiling
    omega

theorem andThen (h : Affords amount e s) (hrest : Spends 0 s t) : Affords amount e t where
  toSpends := (h.toSpends.trans hrest).mono (by omega)
  within := h.within

theorem mono {less : Int} (h : Affords amount e t) (hless : less ≤ amount) : Affords less e t where
  toSpends := h.toSpends.mono hless
  within := le_trans (by omega) h.within

theorem tryUseGas (h : exec (tryUseGas amount) e = (.ok (), s)) (hrest : Spends 0 s t) :
    Affords amount e t := by
  obtain ⟨hgas, rfl⟩ := exec_tryUseGas_eq_ok h
  refine .of_check (.pay e amount) ((Gas.checkGasRemaining_iff _).2 ?_) hrest
  unfold pay Gas.getGasUsedFull Gas.useGas
  dsimp only
  omega

end Affords

/-! ### Exceptions -/

section Exceptions

variable {e t : Engine} {error : Error}

theorem affords_payForException {exception : Exception}
    (h : exec (payForException error) e = (.ok exception, t)) : Affords 50 e t := by
  -- what follows the counting of the step
  have hpaid {raised : Exception} {s : Engine}
      (h : exec (chargeException error raised) s = (.ok exception, t)) : Affords 50 s t := by
    unfold chargeException at h
    rw [exec_ite] at h
    split at h
    · cases h
    · have huse : exec (useGas Gas.exceptionPrice) s = (.ok (), s.pay 50) := rfl
      rw [exec_bind_ok huse, exec_bind_get] at h
      split at h
      · rename_i hgas
        cases h
        exact .of_check (.pay s 50) hgas (.of_gas_eq rfl)
      · cases h
  unfold payForException at h
  split at h
  · cases h
  · rw [exec_ite] at h
    split at h
    · obtain ⟨_, s, hstep, hrest⟩ := exec_bind_eq_ok h
      exact .before (.of_keeps (fun _ _ => inferInstance) hstep) (hpaid hrest)
    · exact hpaid h

/-- Whatever is dispatched has paid the price of an exception. -/
theorem affords_dispatchException (h : exec (dispatchException error) e = (.ok (), t)) :
    Affords 50 e t := by
  unfold dispatchException raiseExceptionBugfix0 raiseException at h
  rw [exec_bind_get, exec_ite] at h
  split at h
  · obtain ⟨exception, s, hpay, hrest⟩ := exec_bind_eq_ok h
    refine (affords_payForException hpay).andThen (.of_keeps (fun used ceiling => ?_) hrest)
    refine .andThen fun _ => .andThen fun e => ?_
    split
    · infer_instance
    · refine .andThen fun _ => ⟨.ite (fun _ => ?_) fun _ => Keeps.out⟩
      split <;> exact Keeps.out
  · obtain ⟨exception, s, hpay, hrest⟩ := exec_bind_eq_ok h
    refine (affords_payForException hpay).andThen (.of_keeps (fun used ceiling => ?_) hrest)
    refine .andThen fun e => ?_
    split
    · infer_instance
    · split <;> infer_instance

end Exceptions

end Engine

/-! ### Sizes -/

namespace SaveListOf

theorem sizeOf_or_lt (a b : Option StackItem) : sizeOf (a.or b) < sizeOf a + sizeOf b := by
  cases a with
  | none => exact Nat.lt_add_of_pos_left (by simp)
  | some item =>
    have : 0 < sizeOf b := by cases b <;> simp
    exact Nat.lt_add_of_pos_right this

theorem sizeOf_apply_lt (list other : SaveListOf StackItem) :
    sizeOf (list.apply other) < sizeOf list + sizeOf other := by
  have h0 := sizeOf_or_lt other.c0 list.c0
  have h1 := sizeOf_or_lt other.c1 list.c1
  have h2 := sizeOf_or_lt other.c2 list.c2
  have h3 := sizeOf_or_lt other.c3 list.c3
  have h4 := sizeOf_or_lt other.c4 list.c4
  have h5 := sizeOf_or_lt other.c5 list.c5
  have h7 := sizeOf_or_lt other.c7 list.c7
  cases list
  cases other
  simp only [apply, mk.sizeOf_spec] at *
  omega

/-- A continuation leaves c0 and the entries of its save list come in. -/
theorem sizeOf_apply_remove_lt {list : SaveListOf StackItem} {cont : ContinuationOf StackItem}
    (h : list.get 0 = some (.continuation cont)) :
    sizeOf ((list.remove 0).apply cont.savelist) < sizeOf list := by
  have hlt := sizeOf_apply_lt (list.remove 0) cont.savelist
  have hsavelist : sizeOf cont.savelist < sizeOf cont := by
    cases cont
    simp only [ContinuationOf.mk.sizeOf_spec]
    omega
  have hremove : sizeOf (list.remove 0) + sizeOf cont < sizeOf list := by
    obtain ⟨c0, c1, c2, c3, c4, c5, c7⟩ := list
    obtain rfl : c0 = some (.continuation cont) := h
    rw [show remove _ 0 = ⟨none, c1, c2, c3, c4, c5, c7⟩ from rfl]
    simp only [mk.sizeOf_spec, Option.none.sizeOf_spec, Option.some.sizeOf_spec,
      StackItem.continuation.sizeOf_spec]
    omega
  omega

end SaveListOf

/-! ### Free steps -/

/-- The types whose implicit step charges nothing. -/
def ContinuationType.isFree : ContinuationType → Bool
  | .ordinary | .tryCatch => false
  | _ => true

namespace Engine

/-- The number of free steps that can come next without a step that pays. -/
noncomputable def rank (e : Engine) : Nat := if e.cc.typeOf.isFree then sizeOf e.ctrls + 1 else 0

variable {e s t : Engine}

theorem rank_lt_of_ordinary (hfree : e.cc.typeOf.isFree = true) (ht : t.cc.typeOf = .ordinary) :
    t.rank < e.rank := by
  unfold rank
  rw [if_pos hfree, ht]
  exact Nat.succ_pos _

theorem rank_lt_of_size (hfree : e.cc.typeOf.isFree = true) (h : sizeOf t.ctrls < sizeOf e.ctrls) :
    t.rank < e.rank := by
  unfold rank
  rw [if_pos hfree]
  split <;> omega

/-- Values are passed to c0 only when it is a continuation. -/
theorem exists_c0_of_popAll (h : exec (popAll (Addr.ctrl 0)) e = (.ok (), t)) :
    ∃ cont, e.ctrls.get 0 = some (.continuation cont) := by
  by_contra hnone
  obtain ⟨_, _, hcont, -⟩ := exec_bind_eq_ok h
  rw [exec_continuationByAddress_error (by decide) fun cont hc0 => hnone ⟨cont, hc0⟩] at hcont
  cases hcont

theorem size_switch (h : exec (switch (Addr.ctrl 0)) e = (.ok (), t)) :
    sizeOf t.ctrls < sizeOf e.ctrls := by
  obtain ⟨_, _, hpop, -⟩ := exec_bind_eq_ok h
  obtain ⟨cont, hc0⟩ := exists_c0_of_popAll hpop
  rw [eq_holding e] at h
  obtain ⟨stack', cont', hpassed, rfl⟩ := switch_c0_eq_ok hc0 h
  rw [holding_ctrls, passed_savelist hpassed]
  exact SaveListOf.sizeOf_apply_remove_lt hc0

/-- A step that ends with a switch to c0 and did not change the registers before. -/
theorem rank_lt_of_switch (hfree : e.cc.typeOf.isFree = true) (hctrls : s.ctrls = e.ctrls)
    {r : Option Int} (h : exec (do switch (Addr.ctrl 0); return none) s = (.ok r, t)) :
    t.rank < e.rank := by
  obtain ⟨_, u, hswitch, hpure⟩ := exec_bind_eq_ok h
  obtain rfl : u = t := congrArg Prod.snd hpure
  exact rank_lt_of_size hfree (hctrls ▸ size_switch hswitch)

/-- A step that ends with the body of a loop as the current continuation. -/
theorem typeOf_of_body {body : SliceData} (wrap : ContinuationData → ContinuationData)
    {r : Option Int} (h : exec (do
      let loop ← saveC0 (← moveWithoutStack body)
      setCtrl 0 (.continuation (wrap loop))
      return none) s = (.ok r, t)) : t.cc.typeOf = .ordinary := by
  obtain ⟨loop, u, hmove, hrest⟩ := exec_bind_eq_ok h
  have hu : u.cc.typeOf = .ordinary := by
    cases hmove
    rfl
  have hkeep : Maintains (fun s : Engine => s.cc.typeOf = .ordinary) (fun _ : Error => True) (do
      let loop ← saveC0 loop
      setCtrl 0 (.continuation (wrap loop))
      return (none : Option Int)) fun _ => True := by
    unfold saveC0 ctrl setCtrl
    refine .bind (R := fun _ => True) (.bind (R := fun _ => True) (.bind .get fun _ _ => ?_)
      fun _ _ => .pure trivial) fun _ _ => .bind (.modify fun _ h => h) fun _ _ => .pure trivial
    split
    · exact .pure trivial
    · exact .throw trivial
  exact hkeep.state hu hrest

theorem ctrls_eq {α : Type} {m : M α} [h : LeavesRegisters m] {r : Except Error α}
    (hexec : exec m e = (r, t)) : t.ctrls = e.ctrls :=
  congrArg (·.2.1) (h.eq hexec)

section Steps

variable {r : Option Int} (hfree : e.cc.typeOf.isFree = true)

include hfree

theorem rank_stepPushint {code : Int} (h : exec (stepPushint code) e = (.ok r, t)) :
    t.rank < e.rank := by
  unfold stepPushint countStep at h
  rw [exec_bind_modify] at h
  obtain ⟨_, s, hpush, hrest⟩ := exec_bind_eq_ok h
  have hctrls := ctrls_eq hpush
  exact rank_lt_of_switch hfree hctrls hrest

theorem rank_stepCatchRevert {depth : Nat} (h : exec (stepCatchRevert depth) e = (.ok r, t)) :
    t.rank < e.rank := by
  unfold stepCatchRevert countStep at h
  rw [exec_bind_modify] at h
  obtain ⟨pair, s, htake, hrest⟩ := exec_bind_eq_ok h
  have hctrls := ctrls_eq htake
  rw [exec_bind_get] at hrest
  dsimp only at hrest
  rw [exec_ite] at hrest
  split at hrest
  · cases hrest
  · obtain ⟨_, u, hcut, hrest⟩ := exec_bind_eq_ok hrest
    obtain ⟨_, v, hpush, hrest⟩ := exec_bind_eq_ok hrest
    have hu : s.ctrls = u.ctrls := congrArg (·.2.ctrls) hcut
    have hv : u.ctrls = v.ctrls := congrArg (·.2.ctrls) hpush
    exact rank_lt_of_switch hfree ((hu.trans hv).symm.trans hctrls) hrest

theorem rank_stepRepeatLoop {body : SliceData} {counter : Int}
    (h : exec (stepRepeatLoop body counter) e = (.ok r, t)) : t.rank < e.rank := by
  unfold stepRepeatLoop at h
  rw [exec_ite] at h
  split at h
  · rw [exec_bind_modify] at h
    obtain ⟨_, s, -, hrest⟩ := exec_bind_eq_ok h
    exact rank_lt_of_ordinary hfree (typeOf_of_body id hrest)
  · exact rank_lt_of_switch hfree rfl h

theorem rank_stepUntilLoop {body : SliceData} (h : exec (stepUntilLoop body) e = (.ok r, t)) :
    t.rank < e.rank := by
  unfold stepUntilLoop at h
  obtain ⟨holds, s, hcheck, hrest⟩ := exec_bind_eq_ok h
  have hctrls := ctrls_eq hcheck
  rw [exec_ite] at hrest
  split at hrest
  · obtain ⟨_, s, -, hrest⟩ := exec_bind_eq_ok hrest
    exact rank_lt_of_ordinary hfree (typeOf_of_body id hrest)
  · exact rank_lt_of_switch hfree hctrls hrest

theorem rank_stepWhileLoop {body cond : SliceData}
    (h : exec (stepWhileLoop body cond) e = (.ok r, t)) : t.rank < e.rank := by
  unfold stepWhileLoop at h
  obtain ⟨holds, s, hcheck, hrest⟩ := exec_bind_eq_ok h
  split at hrest
  · obtain ⟨_, s, -, hrest⟩ := exec_bind_eq_ok hrest
    let wrap (loop : ContinuationData) : ContinuationData :=
      { ContinuationOf.withCode cond with savelist := { c0 := some (.continuation loop) } }
    exact rank_lt_of_ordinary hfree (typeOf_of_body wrap hrest)
  · exact rank_lt_of_switch hfree (ctrls_eq hcheck) hrest
  · rw [exec_bind_get, exec_ite] at hrest
    split at hrest
    · obtain ⟨_, _, _, hthrow⟩ := exec_bind_eq_ok hrest
      cases hthrow
    · cases hrest

theorem rank_stepAgainLoop {body : SliceData} (h : exec (stepAgainLoop body) e = (.ok r, t)) :
    t.rank < e.rank := by
  unfold stepAgainLoop at h
  obtain ⟨_, s, -, hrest⟩ := exec_bind_eq_ok h
  cases hrest
  exact rank_lt_of_ordinary hfree rfl

end Steps

/-- The exit of the outermost exception handler returns a code or fails. -/
theorem makeExternalError_ne_none : exec makeExternalError e ≠ (.ok none, t) := by
  intro h
  unfold makeExternalError at h
  obtain ⟨_, s, -, h⟩ := exec_bind_eq_ok h
  obtain ⟨number, s, -, h⟩ := exec_bind_eq_ok h
  rw [exec_ite] at h
  split at h
  · cases h
  · obtain ⟨_, s, -, h⟩ := exec_bind_eq_ok h
    dsimp only at h
    split at h <;> cases h

/-! ### Passes -/

/-- A step that continues: it pays, or it is free and lowers the rank. -/
def Advances (amount : Int) (e t : Engine) : Prop :=
  Affords amount e t ∨ Spends 0 e t ∧ t.rank < e.rank

/-- A step with a price of its own. -/
theorem affords_step {price : Int} {rest : PUnit → M (Option Int)} {r : Option Int}
    (hrest : ∀ used ceiling, Keeps (.spent used ceiling) (rest ⟨⟩))
    (h : exec (countStep >>= fun _ => tryUseGas price >>= rest) e = (.ok r, t)) :
    Affords price e t := by
  obtain ⟨_, s, hcount, h⟩ := exec_bind_eq_ok h
  obtain ⟨_, u, hgas, h⟩ := exec_bind_eq_ok h
  exact .before (.of_keeps (fun _ _ => inferInstance) hcount) (.tryUseGas hgas (.of_keeps hrest h))

theorem advances_implicitStep (h : exec implicitStep e = (.ok none, t)) : Advances 5 e t := by
  have hspends : Spends 0 e t := .of_keeps (fun _ _ => inferInstance) h
  have hrank (hlt : t.rank < e.rank) : Advances 5 e t := .inr ⟨hspends, hlt⟩
  unfold implicitStep at h
  rw [exec_bind_get] at h
  split at h
  · exact .inl ((affords_step (fun _ _ => inferInstance) h).mono (by decide))
  · rw [exec_bind_get] at h
    have hfree {typeOf : ContinuationType} (htype : e.cc.typeOf = typeOf)
        (h : typeOf.isFree = true) : e.cc.typeOf.isFree = true := htype ▸ h
    unfold typeStep at h
    split at h <;> rename_i htype
    · exact .inl (affords_step (fun _ _ => inferInstance) h)
    · exact hrank (rank_stepPushint (hfree htype rfl) h)
    · cases h
    · exact .inl (affords_step (fun _ _ => inferInstance) h)
    · exact hrank (rank_stepWhileLoop (hfree htype rfl) h)
    · exact hrank (rank_stepRepeatLoop (hfree htype rfl) h)
    · exact hrank (rank_stepUntilLoop (hfree htype rfl) h)
    · exact hrank (rank_stepAgainLoop (hfree htype rfl) h)
    · exact absurd h makeExternalError_ne_none
    · exact hrank (rank_stepCatchRevert (hfree htype rfl) h)

/-- After an implicit step the run goes on with its result, or with the handler of an exception. -/
theorem finish_eq_none {result : Except Error (Option Int)}
    (h : exec (seekStep.finish result) s = (.ok none, t)) :
    result = .ok none ∧ s = t ∨ Affords 50 s t := by
  unfold seekStep.finish at h
  rw [exec_bind_get] at h
  split at h
  · cases h
    exact .inl ⟨rfl, rfl⟩
  all_goals
    obtain ⟨_, u, hdispatch, hpure⟩ := exec_bind_eq_ok h
    obtain rfl : u = t := congrArg Prod.snd hpure
    exact .inr (affords_dispatchException hdispatch)

theorem exec_of_catchError {α : Type} {m : M α} {r : Except Error α}
    (h : exec (catchError m) e = (.ok r, s)) : exec m e = (r, s) := by
  rw [exec_catchError] at h
  split at h
  · cases h
  · rename_i hexec
    cases h
    exact hexec

theorem advances_seekStep (h : exec seekStep e = (.ok none, t)) : Advances 5 e t := by
  have hafter {s : Engine} {r : Except Error (Option Int)} (hstep : exec implicitStep e = (r, s))
      (hfinish : exec (seekStep.finish r) s = (.ok none, t)) : Advances 5 e t := by
    obtain ⟨rfl, rfl⟩ | hpaid := finish_eq_none hfinish
    · exact advances_implicitStep hstep
    · exact .inl ((Affords.before (.of_keeps (fun _ _ => inferInstance) hstep) hpaid).mono (by decide))
  unfold seekStep at h
  rw [exec_bind_get, exec_ite] at h
  split at h
  · obtain ⟨r, s, hstep, hfinish⟩ := exec_bind_eq_ok h
    exact hafter hstep hfinish
  · obtain ⟨r, s, hstep, hfinish⟩ := exec_bind_eq_ok h
    exact hafter (exec_of_catchError hstep) hfinish

/-- The handlers that a lookup in the table finds pay. An opcode that is not there fails. -/
theorem pays_of_dispatch {table : Handlers (M Unit)} (hpay : table.Forall Pays) {cmd : UInt8}
    {handler : M Unit} (h : exec (dispatch table cmd) e = (.ok handler, t)) : Pays handler := by
  induction table generalizing cmd e with
  | new =>
    cases h
    infer_instance
  | setRange table start stop found ih =>
    unfold dispatch at h
    rw [exec_ite] at h
    split at h
    · cases h
      exact hpay.2
    · exact ih hpay.1 h
  | addSubset table code subset ih ih' =>
    unfold dispatch at h
    rw [exec_ite] at h
    split at h
    · obtain ⟨_, _, -, h⟩ := exec_bind_eq_ok h
      exact ih' hpay.2 h
    · exact ih hpay.1 h

variable [TonBlock]

/-- A handler does not give gas back, whether it fails or not. -/
theorem spends_handler {handler : M Unit} {r : Except Error Unit}
    (hget : exec (getHandler Handlers.newCodePage0) e = (.ok handler, s))
    (hrun : exec handler s = (r, t)) : Spends 0 e t := by
  have he : good (.spent e.gas.getGasUsedFull e.gas.ceiling) e :=
    good_engine_of_lax (lax_spent _ _) ⟨le_rfl, le_rfl⟩
  have hs := Keeps.out.state he hget
  obtain ⟨byte, _, -, -, hcovered⟩ := covered_of_getHandler Handlers.Complete.out he hget
  have ht : good (.spent e.gas.getGasUsedFull e.gas.ceiling) t := by
    generalize byte.toNat = n at hcovered
    cases hcovered with
    | keeps hkeeps => exact hkeeps.out.state hs hrun
    | commit | pushintBig | add => exact Keeps.out.state hs hrun
  exact ⟨by rw [add_zero]; exact ht.frame.1, ht.frame.2⟩

/-- An instruction without an error has paid for itself. -/
theorem affords_instructionOutcome {result : Option Error}
    (h : exec (instructionOutcome (getHandler Handlers.newCodePage0)) e = (.ok result, t)) :
    Spends 0 e t ∧ (result = none → Affords 10 e t) := by
  unfold instructionOutcome at h
  obtain ⟨_, start, hcode, h⟩ := exec_bind_eq_ok h
  have hstart : Spends 0 e start := .of_gas_eq (congrArg (·.2.gas) hcode)
  obtain ⟨found, s, hget, h⟩ := exec_bind_eq_ok h
  replace hget := exec_of_catchError hget
  have hs : Spends 0 e s := hstart.trans (.of_keeps (fun _ _ => inferInstance) hget)
  cases found with
  | error err =>
    obtain ⟨_, u, hgas, h⟩ := exec_bind_eq_ok h
    cases h
    exact ⟨hs.trans (.of_keeps (fun _ _ => inferInstance) hgas), by rintro ⟨⟩⟩
  | ok handler =>
    obtain ⟨ran, u, hrun, h⟩ := exec_bind_eq_ok h
    replace hrun := exec_of_catchError hrun
    have hu : Spends 0 e u := hstart.trans (spends_handler hget hrun)
    cases ran with
    | error err =>
      cases h
      exact ⟨hu, by rintro ⟨⟩⟩
    | ok _ =>
      dsimp only at h
      rw [exec_bind_get] at h
      split at h
      · rename_i hgas
        cases h
        obtain ⟨_, _, -, hdispatch⟩ := exec_bind_eq_ok hget
        have hpays := pays_of_dispatch Handlers.AllPay.out hdispatch
        exact ⟨hu, fun _ => .before hs (.of_check (hpays.out hrun) hgas (.of_gas_eq rfl))⟩
      · cases h
        exact ⟨hu, by rintro ⟨⟩⟩

/-- An instruction that ends without an error has paid for itself, or for its exception. -/
theorem affords_executeInstruction
    (h : exec (executeInstruction (getHandler Handlers.newCodePage0)) e = (.ok (), t)) :
    Affords 10 e t := by
  obtain ⟨result, s, houtcome, h⟩ := exec_bind_eq_ok h
  obtain ⟨_, u, hparams, h⟩ := exec_bind_eq_ok h
  obtain ⟨hs, hpaid⟩ := affords_instructionOutcome houtcome
  have hu : Spends 0 s u := .of_gas_eq (congrArg (·.2.gas) hparams)
  cases result with
  | none =>
    cases h
    exact (hpaid rfl).andThen hu
  | some err => exact .before (hs.trans hu) ((affords_dispatchException h).mono (by decide))

theorem advances_pass (h : exec pass e = (.ok none, t)) : Advances 5 e t := by
  by_cases hcode : TonTypes.remainingBits e.cc.code ≠ 0
  · rw [exec_pass_of_code hcode] at h
    obtain ⟨_, s, hinst, hpure⟩ := exec_bind_eq_ok h
    obtain rfl : s = t := congrArg Prod.snd hpure
    exact .inl ((affords_executeInstruction hinst).mono (by decide))
  · rw [exec_pass_of_end hcode] at h
    exact advances_seekStep h

/-! ### Whole runs -/

/-- The gas that can still be spent, whatever limits are set. -/
def budget (e : Engine) : Nat := (e.gas.ceiling - e.gas.getGasUsedFull).toNat

omit [TonBlock] in
theorem Spends.budget_le (h : Spends 0 e t) : t.budget ≤ e.budget := by
  have := h.used
  have := h.ceiling
  unfold budget
  omega

omit [TonBlock] in
theorem Affords.budget_le (amount : Nat) (h : Affords amount e t) :
    t.budget + amount ≤ e.budget := by
  have := h.used
  have := h.ceiling
  have := h.within
  unfold budget
  omega

/-- A run cannot go on for ever: gas decreases first, then the rank. -/
theorem pass_wellFounded : WellFounded fun t e : Engine => exec pass e = (.ok none, t) := by
  refine Subrelation.wf (fun {t e} h => ?_) (InvImage.wf (fun e : Engine => (e.budget, e.rank))
    (WellFounded.prod_lex wellFounded_lt wellFounded_lt))
  obtain hpaid | ⟨hfree, hrank⟩ := advances_pass h
  · have := hpaid.budget_le 5
    exact .left _ _ (by omega)
  · obtain hlt | heq := hfree.budget_le.lt_or_eq
    · exact .left _ _ hlt
    · exact Prod.lex_def.2 (.inr ⟨heq, hrank⟩)

omit [TonBlock] in
theorem spends_seekNextCmd {fuel : Nat} {r : Except Error (Option (Option Int))}
    (h : exec (seekNextCmd fuel) e = (r, t)) : Spends 0 e t := by
  refine .of_keeps (fun used ceiling => ?_) h
  clear h
  induction fuel with
  | zero => exact inferInstanceAs (Keeps _ (pure none))
  | succ fuel ih =>
    unfold seekNextCmd
    refine .andThen fun e => ?_
    split
    · infer_instance
    · refine .andThen fun r => ?_
      split
      · infer_instance
      · exact ih

omit [TonBlock] in
/-- The search after a step. -/
def seekOn (fuel : Nat) : Option Int → M (Option (Option Int))
  | some exitCode => return some (some exitCode)
  | none => seekNextCmd fuel

/-- The search for the next instruction ends: with enough fuel there is one result. -/
theorem seekNextCmd_ends (e : Engine) :
    ∃ n r, r.1 ≠ .ok none ∧ ∀ fuel, n ≤ fuel → exec (seekNextCmd fuel) e = r := by
  induction e using pass_wellFounded.induction with
  | _ e ih =>
    have hsucc {r : Except Error (Option (Option Int)) × Engine} (hr : r.1 ≠ .ok none) {n : Nat}
        (h : ∀ fuel, n ≤ fuel → exec (seekNextCmd (fuel + 1)) e = r) :
        ∃ n r, r.1 ≠ .ok none ∧ ∀ fuel, n ≤ fuel → exec (seekNextCmd fuel) e = r := by
      refine ⟨n + 1, r, hr, fun fuel hfuel => ?_⟩
      obtain ⟨fuel, rfl⟩ := Nat.exists_eq_succ_of_ne_zero (show fuel ≠ 0 by omega)
      exact h fuel (by omega)
    by_cases hcode : TonTypes.remainingBits e.cc.code ≠ 0
    · refine hsucc (r := (.ok (some none), e)) (by simp) (n := 0) fun fuel _ => ?_
      unfold seekNextCmd
      rw [exec_bind_get, if_pos hcode]
      rfl
    · have hunfold (fuel : Nat) : exec (seekNextCmd (fuel + 1)) e =
          exec (seekStep >>= seekOn fuel) e := by
        rw [seekNextCmd, exec_bind_get]
        exact congrArg (exec · e) (if_neg hcode)
      rcases hstep : exec seekStep e with ⟨err | _ | exitCode, t⟩
      · refine hsucc (r := (.error err, t)) (by simp) (n := 0) fun fuel _ => ?_
        rw [hunfold, exec_bind_error hstep]
      · obtain ⟨n, r, hr, hrest⟩ := ih t ((exec_pass_of_end hcode).trans hstep)
        refine hsucc hr (n := n) fun fuel hfuel => ?_
        rw [hunfold, exec_bind_ok hstep]
        exact hrest fuel hfuel
      · refine hsucc (r := (.ok (some (some exitCode)), t)) (by simp) (n := 0) fun fuel _ => ?_
        rw [hunfold, exec_bind_ok hstep]
        rfl

/-- Execution ends after at most one instruction for each ten units of the budget, and one more. -/
theorem execute_ends (e : Engine) :
    ∃ n r, r.1 ≠ .ok none ∧ ∀ seekFuel fuel, n ≤ seekFuel → e.budget < 10 * fuel →
      exec (execute seekFuel fuel) e = r := by
  induction hbudget : e.budget using Nat.strong_induction_on generalizing e with
  | _ budget ih =>
    subst hbudget
    obtain ⟨k, ⟨found, s⟩, hfound, hseek⟩ := seekNextCmd_ends e
    -- one turn of the loop, when the search has its result
    have hturn {r : Except Error (Option Int) × Engine} (hr : r.1 ≠ .ok none) {m : Nat}
        (h : ∀ seekFuel fuel, exec (seekNextCmd seekFuel) e = (found, s) → m ≤ seekFuel →
          e.budget < 10 * (fuel + 1) →
          exec (executeLoop (getHandler Handlers.newCodePage0) seekFuel (fuel + 1)) e = r) :
        ∃ n r, r.1 ≠ .ok none ∧ ∀ seekFuel fuel, n ≤ seekFuel → e.budget < 10 * fuel →
          exec (execute seekFuel fuel) e = r := by
      refine ⟨max k m, r, hr, fun seekFuel fuel hle hfuel => ?_⟩
      obtain ⟨fuel, rfl⟩ := Nat.exists_eq_succ_of_ne_zero (show fuel ≠ 0 by omega)
      exact h seekFuel fuel (hseek _ (le_of_max_le_left hle)) (le_of_max_le_right hle) hfuel
    rcases found with err | _ | _ | exitCode
    · refine hturn (r := (.error err, s)) (by simp) (m := 0) fun seekFuel fuel hfind _ _ => ?_
      rw [executeLoop, exec_bind_error hfind]
    · exact absurd rfl hfound
    · rcases hinst : exec (executeInstruction (getHandler Handlers.newCodePage0)) s with ⟨err | _, t⟩
      · refine hturn (r := (.error err, t)) (by simp) (m := 0) fun seekFuel fuel hfind _ _ => ?_
        rw [executeLoop, exec_bind_ok hfind]
        exact exec_bind_error hinst
      · have hs : s.budget ≤ e.budget := (spends_seekNextCmd (hseek k le_rfl)).budget_le
        have ht : t.budget + 10 ≤ s.budget := (affords_executeInstruction hinst).budget_le 10
        obtain ⟨m, r, hr, hrest⟩ := ih t.budget (by omega) t rfl
        refine hturn hr (m := m) fun seekFuel fuel hfind hle hfuel => ?_
        rw [executeLoop, exec_bind_ok hfind]
        exact (exec_bind_ok hinst).trans (hrest seekFuel fuel hle (by omega))
    · refine hturn (r := (.ok (some exitCode), (exec commit s).2)) (by simp) (m := 0)
        fun seekFuel fuel hfind _ _ => ?_
      rw [executeLoop, exec_bind_ok hfind]
      rfl

end Engine

end TonVm
