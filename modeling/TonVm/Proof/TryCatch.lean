import TonVm.Proof.Dispatch

/-!
# Installing an exception handler

`TRY` and its variants call the body with the handler in c2. The old c2 is saved twice: in the return
continuation and in the handler. Both copies go through a swap, which does nothing when the value is
Null and nothing is saved yet.
-/

namespace TonVm

open ExecLib

section TryCatch

variable [TonTypes]

namespace Engine

/-- A save list after the old c2 is stored in it. -/
def withC2 (list : SaveList) (c2 : Option StackItem) : SaveList :=
  match c2 with
  | some item => if item.isNull && list.c2.isNone then list else list.setOpt 2 (some item)
  | none => list

theorem swapOutcome_withC2 {list : SaveList} {item : StackItem}
    {state : SaveList → StackItem → Engine} (hput : SaveList.canPut 2 item = true) :
    ∃ w, swapOutcome 2 state list item = (.ok (), state (withC2 list (some item)) w) := by
  unfold swapOutcome withC2
  rw [hput, SaveListOf.get_two]
  dsimp only
  split
  · exact ⟨_, rfl⟩
  · exact ⟨_, rfl⟩

/-- A continuation that becomes a handler. -/
def tryTyped (s : Engine) (handler : ContinuationData) : ContinuationData :=
  { handler with
    typeOf := .tryCatch
    nargs := if s.checkCapabilities .capsTvmBugfixes2022 then handler.nargs
      else (handler.stack.length : Int) + 2 }

/-- The rest of the current continuation, to which the body returns. -/
def tryReturn (s : Engine) (kept : Stack) : ContinuationData :=
  { s.cc with
    stack := kept
    savelist := (withC2 s.cc.savelist s.ctrls.c2).setOpt 0 (s.ctrls.get 0)
    nargs := returnNargs s.cmd }

/-- The handler, with what it finds when it is entered. -/
def tryHandler (s : Engine) (kept : Stack) (handler : ContinuationData) : ContinuationData :=
  { tryTyped s handler with
    savelist := (withC2 handler.savelist s.ctrls.c2).setOpt 0
      (some (.continuation (tryReturn s kept))) }

/-- `TRYKEEP` puts a continuation before the handler that cuts the stack. -/
def tryRevert (depth : Nat) (handler : ContinuationData) : ContinuationData :=
  { ContinuationOf.withType (.catchRevert depth) with
    savelist := { c0 := some (.continuation handler) } }

/-- The registers when the body starts. -/
def tryCtrls (s : Engine) (kept : Stack) (body c2 : ContinuationData) : SaveList :=
  ((s.ctrls.apply body.savelist).setOpt 0 (some (.continuation (tryReturn s kept)))).setOpt 2
    (some (.continuation c2))

theorem le_of_moveTop {count : Nat} {stack : Stack} {cont : ContinuationData}
    {result : Stack × ContinuationData} (h : moveTop count stack cont = .ok result) :
    count ≤ stack.length := by
  unfold moveTop at h
  split at h
  · cases h
  · split at h
    · cases h
    · omega

theorem pargs_le_of_passed {stack : Stack} {pargs : Option Nat} {cont : ContinuationData}
    {result : Stack × ContinuationData} (h : passed stack pargs cont = .ok result) :
    pargs.getD 0 ≤ stack.length := by
  cases pargs with
  | none => exact Nat.zero_le _
  | some count =>
    unfold passed passCount at h
    dsimp only [Option.getD_some] at h ⊢
    split at h
    · exact le_of_moveTop h
    · split at h
      · cases h
      · exact le_of_moveTop h

section Install

variable {e s : Engine} {cc body body' handler : ContinuationData} {ctrls : SaveList}
  {stack kept : Stack}

/-- Both copies of the old c2. -/
theorem exec_saveC2 (s : Engine) (cc handler body : ContinuationData) {item : StackItem}
    (hreg : ctrls.c2 = some item) (hput : SaveList.canPut 2 item = true) :
    ∃ v w, exec saveC2 (s.holding cc ctrls [.continuation handler, .continuation body]) = (.ok (),
      s.holding { cc with savelist := withC2 cc.savelist (some item) } ctrls
        [.continuation { handler with savelist := withC2 handler.savelist (some item) },
          .continuation body, v, w]) := by
  have hcopy (cc : ContinuationData) (vars : List StackItem) :
      exec (copyToVar (Addr.ctrl 2)) (s.holding cc ctrls vars) =
        (.ok (), s.holding cc ctrls (vars ++ [item])) := by
    simp only [copyToVar, place_ctrl, storageIndex_ctrl, Nat.reduceLT, exec_bind_get, holding_ctrls,
      SaveListOf.get_two, hreg]
    rfl
  obtain ⟨v, hhandler⟩ : ∃ v, exec (swap (Addr.savelist (Addr.var 0) 2) (Addr.var 2))
      (s.holding cc ctrls ([.continuation handler, .continuation body] ++ [item])) = (.ok (),
        s.holding cc ctrls [.continuation { handler with savelist := withC2 handler.savelist (some item) },
          .continuation body, v]) := by
    rw [swap_comm (by decide), exec_swap_var_varSavelist (by decide) (by decide) (by decide)
      (by decide) rfl rfl]
    exact swapOutcome_withC2 hput
  obtain ⟨w, hcc⟩ : ∃ w, exec (swap (Addr.savelist Addr.CC 2) (Addr.var 3)) (s.holding cc ctrls
      ([.continuation { handler with savelist := withC2 handler.savelist (some item) },
        .continuation body, v] ++ [item])) = (.ok (),
        s.holding { cc with savelist := withC2 cc.savelist (some item) } ctrls
          [.continuation { handler with savelist := withC2 handler.savelist (some item) },
            .continuation body, v, w]) := by
    rw [swap_comm (by decide), exec_swap_var_ccSavelist (by decide) (by decide) rfl]
    exact swapOutcome_withC2 hput
  exact ⟨v, w, (exec_bind_ok (hcopy _ _)).trans ((exec_bind_ok hhandler).trans
    ((exec_bind_ok (hcopy _ _)).trans hcc))⟩

/-- The handler and the body as variables, with the old c2 saved. -/
theorem exec_initTryCatch_eq (hs : Loaded e s) (keep : Bool)
    (hstack : e.cc.stack = stack ++ [.continuation body, .continuation handler])
    (hpargs : (pargsRaw s.cmd).getD 0 ≤ stack.length) (hdepth : stack.length < 2 ^ 32)
    (hc2 : Fits 2 (s.ctrls.get 2)) :
    ∃ rest, rest.length ≤ 2 ∧ exec (initTryCatch keep) s = exec (callBody keep stack.length) (s.holding
      { s.cc with stack, savelist := withC2 s.cc.savelist s.ctrls.c2 } s.ctrls
      (.continuation { tryTyped s handler with savelist := withC2 handler.savelist s.ctrls.c2 } ::
        .continuation { body with savelist := body.savelist.remove 0 } :: rest)) := by
  have hstart : exec (initTryCatch keep) s = exec (do
      if ((← get).ctrls.get 2).isSome then
        saveC2
      callBody keep stack.length) (s.holding { s.cc with stack } s.ctrls
        [.continuation (tryTyped s handler),
          .continuation { body with savelist := body.savelist.remove 0 }]) := by
    have hargs : ¬ stack.length < (pargsRaw s.cmd).getD 0 := by omega
    have hlimit : ¬ stack.length ≥ 2 ^ 32 := by omega
    unfold initTryCatch
    rw [exec_bind_ok (hs.exec_fetchStack_two hstack), exec_bind_get, exec_bind_get]
    refine (exec_ite _ _ _ _).trans ((if_neg hargs).trans ?_)
    refine (exec_ite _ _ _ _).trans ((if_neg hlimit).trans ?_)
    rfl
  cases hreg : s.ctrls.c2 with
  | none =>
    refine ⟨[], by simp, hstart.trans ?_⟩
    rw [exec_bind_get]
    simp only [holding_ctrls, SaveListOf.get_two, hreg]
    rfl
  | some item =>
    obtain ⟨v, w, hsave⟩ := exec_saveC2 s { s.cc with stack } (tryTyped s handler)
      { body with savelist := body.savelist.remove 0 } hreg (hc2 item hreg)
    refine ⟨[v, w], by simp, hstart.trans ?_⟩
    rw [exec_bind_get]
    simp only [holding_ctrls, SaveListOf.get_two, hreg, Option.isSome_some, if_true]
    exact exec_bind_ok hsave

/-- The return continuation is saved in the handler, which `TRYKEEP` then wraps. -/
theorem exec_saveReturn (e : Engine) (cc : ContinuationData) {ctrls : SaveList} {vars : List StackItem}
    {ret : ContinuationData} (keep : Bool) (depth : Nat) (hvars : vars.length ≤ 4)
    (hc0 : ctrls.get 0 = some (.continuation ret))
    (hc2 : ctrls.get 2 = some (.continuation handler)) :
    let handler' : ContinuationData :=
      { handler with savelist := handler.savelist.setOpt 0 (some (.continuation ret)) }
    ∃ vars', vars'.length ≤ 6 ∧ exec (saveReturn keep depth) (e.holding cc ctrls vars) =
      (.ok (), e.holding cc (ctrls.setOpt 2
        (some (.continuation (if keep then tryRevert depth handler' else handler')))) vars') := by
  intro handler'
  have hk : vars.length < 16 := by omega
  have hcount (cc : ContinuationData) (ctrls : SaveList) (vars : List StackItem) (item : StackItem) :
      (e.holding cc ctrls (vars ++ [item])).varCount - 1 = vars.length := by
    simp [varCount]
  have hsave : exec (swap (Addr.savelist (Addr.ctrl 2) 0) (Addr.var vars.length))
      (e.holding cc ctrls (vars ++ [.continuation ret])) = (.ok (), e.holding cc
        (ctrls.setOpt 2 (some (.continuation handler')))
        (vars ++ [(handler.savelist.get 0).getD .none])) := by
    rw [swap_comm (by rw [addressTag_ctrlSavelist (by decide) (by decide), addressTag_var hk]; decide),
      exec_swap_var_ctrlSavelist (by decide) (by decide) hk (getElem?_length_append _ _) hc2,
      swapOutcome_put rfl rfl, set_length_append]
  rw [exec_bind_ok (exec_copyToVar_ctrl (by decide) hc0), exec_bind_get]
  dsimp only
  rw [hcount, exec_bind_ok hsave]
  cases keep with
  | false => exact ⟨_, by rw [List.length_append, List.length_singleton]; omega, rfl⟩
  | true =>
    generalize hvars' : vars ++ [(handler.savelist.get 0).getD .none] = vars'
    have hlength : vars'.length ≤ 5 := by
      rw [← hvars', List.length_append, List.length_singleton]
      omega
    have hk' : vars'.length < 16 := by omega
    have hwrap : exec (swap (Addr.savelist (Addr.var vars'.length) 0) (Addr.ctrl 2)) (e.holding cc
        (ctrls.setOpt 2 (some (.continuation handler')))
        (vars' ++ [.continuation (.withType (.catchRevert depth))])) = (.ok (), e.holding cc
          (ctrls.setOpt 2 none) (vars' ++ [.continuation (tryRevert depth handler')])) := by
      rw [swap_comm (by rw [addressTag_varSavelist hk' (by decide), addressTag_ctrl (by decide)]; decide),
        exec_swap_ctrl_varSavelist (by decide) (by decide) hk' (getElem?_length_append _ _) ?_ ?_,
        set_length_append]
      · rfl
      · rintro _ ⟨⟩
        rfl
      · rintro _ ⟨⟩
    have hinstall : exec (swap (Addr.ctrl 2) (Addr.var vars'.length)) (e.holding cc
        (ctrls.setOpt 2 none) (vars' ++ [.continuation (tryRevert depth handler')])) = (.ok (),
          e.holding cc (ctrls.setOpt 2 (some (.continuation (tryRevert depth handler'))))
            (vars' ++ [.none])) := by
      rw [exec_swap_ctrl_var (by decide) hk' (getElem?_length_append _ _), swapOutcome_put rfl rfl,
        set_length_append]
      rfl
    refine ⟨vars' ++ [.none], by rw [List.length_append, List.length_singleton]; omega, ?_⟩
    unfold pushContVar
    rw [if_pos rfl, exec_bind_ok (exec_pushVar _ _ _ _), exec_bind_get, hcount, exec_bind_ok hwrap,
      hinstall]
    rfl

/-- The body is called with the handler in c2. -/
theorem exec_callBody (cc handler : ContinuationData) (keep : Bool) (depth : Nat) {rest : List StackItem} (hrest : rest.length ≤ 2)
    (hpassed : passed cc.stack (pargsRaw s.cmd) body = .ok (kept, body'))
    (hgas : popAllPrice cc.stack (pargsRaw s.cmd) body ≤ s.gas.gasRemaining)
    (hbody0 : body.savelist.get 0 = none) (hbody2 : body.savelist.get 2 = none)
    (hctrl : Fits 0 (ctrls.get 0)) (hcc : Fits 0 (cc.savelist.get 0)) :
    let ret : ContinuationData := { cc with
      stack := kept, savelist := cc.savelist.setOpt 0 (ctrls.get 0), nargs := returnNargs s.cmd }
    let handler' : ContinuationData :=
      { handler with savelist := handler.savelist.setOpt 0 (some (.continuation ret)) }
    ∃ vars, vars.length ≤ 6 ∧ exec (callBody keep depth)
      (s.holding cc ctrls (.continuation handler :: .continuation body :: rest)) =
      (.ok (), (s.pay (popAllPrice cc.stack (pargsRaw s.cmd) body)).holding
        { body' with savelist := {} }
        (((ctrls.apply body.savelist).setOpt 0 (some (.continuation ret))).setOpt 2
          (some (.continuation (if keep then tryRevert depth handler' else handler')))) vars) := by
  intro ret handler'
  have hcall : exec (callx 0 false) (s.holding cc (ctrls.setOpt 2 (some (.continuation handler)))
      (.continuation body :: (ctrls.get 2).getD .none :: rest)) = _ :=
    exec_callx hpassed hgas (by decide) rfl hbody0 hctrl hcc
  have hc2 : (((ctrls.setOpt 2 (some (.continuation handler))).apply body.savelist).setOpt 0
      (some (.continuation ret))).get 2 = some (.continuation handler) := by
    simp only [SaveListOf.get_two] at hbody2
    simp only [SaveListOf.apply, SaveListOf.setOpt_two, SaveListOf.setOpt_zero, SaveListOf.get_two,
      hbody2, Option.none_or]
  have hvars : ((cc.savelist.get 0).getD .none :: (ctrls.get 2).getD .none :: rest).length ≤ 4 := by
    simp only [List.length_cons]
    omega
  obtain ⟨vars, hvars, hsave⟩ := exec_saveReturn (s.pay (popAllPrice cc.stack (pargsRaw s.cmd) body))
    { body' with savelist := {} } keep depth hvars rfl hc2
  refine ⟨vars, hvars, ?_⟩
  unfold callBody
  rw [exec_bind_ok (exec_swap_var_var (by decide) (by decide) rfl rfl),
    exec_bind_ok ((exec_swap_ctrl_var (by decide) (by decide) rfl).trans (swapOutcome_put rfl rfl))]
  exact (exec_bind_ok hcall).trans hsave

theorem withC2_get_zero (list : SaveList) (c2 : Option StackItem) :
    (withC2 list c2).get 0 = list.get 0 := by
  unfold withC2
  split
  · split <;> rfl
  · rfl

/-- `init_try_catch` as a whole. -/
theorem exec_initTryCatch (he : RegistersTyped e) (hs : Loaded e s) (keep : Bool)
    (hstack : e.cc.stack = stack ++ [.continuation body, .continuation handler])
    (hdepth : stack.length < 2 ^ 32) (hbody2 : body.savelist.get 2 = none)
    (hpassed : passed stack (pargsRaw s.cmd) { body with savelist := body.savelist.remove 0 } =
      .ok (kept, body'))
    (hgas : popAllPrice stack (pargsRaw s.cmd) { body with savelist := body.savelist.remove 0 } ≤
      s.gas.gasRemaining) :
    ∃ vars, vars.length ≤ 6 ∧ exec (initTryCatch keep) s = (.ok (),
      (s.pay (popAllPrice stack (pargsRaw s.cmd)
        { body with savelist := body.savelist.remove 0 })).holding { body' with savelist := {} }
        (tryCtrls s kept body (if keep then tryRevert stack.length (tryHandler s kept handler)
          else tryHandler s kept handler)) vars) := by
  have hctrl : Fits 0 (s.ctrls.get 0) := hs.ctrls ▸ he.fits_ctrls (by decide)
  have hcc : Fits 0 ((withC2 s.cc.savelist s.ctrls.c2).get 0) := by
    rw [withC2_get_zero, hs.savelist]
    exact he.fits_cc (by decide)
  obtain ⟨rest, hrest, hstart⟩ := exec_initTryCatch_eq hs keep hstack (pargs_le_of_passed hpassed) hdepth
    (hs.ctrls ▸ he.fits_ctrls (by decide))
  obtain ⟨vars, hvars, hcall⟩ := exec_callBody
    { s.cc with stack, savelist := withC2 s.cc.savelist s.ctrls.c2 }
    { tryTyped s handler with savelist := withC2 handler.savelist s.ctrls.c2 } keep stack.length hrest
    hpassed hgas rfl hbody2 hctrl hcc
  exact ⟨vars, hvars, hstart.trans hcall⟩

end Install

/-! ### What happens to c2 -/

/-- The old c2 is saved: it is present, and it is not Null, unless a c2 is saved already. -/
def SavesC2 (e : Engine) : Prop :=
  ∃ item, e.ctrls.c2 = some item ∧ (item.isNull = true → e.cc.savelist.c2.isSome = true)

/-- What the return leaves in c2, if another value takes the place of a c2 that is not saved. -/
theorem or_withC2_eq_iff {e : Engine} (c2 : Option StackItem) :
    (withC2 e.cc.savelist e.ctrls.c2).c2.or c2 = e.ctrls.c2 ↔
      SavesC2 e ∨ e.cc.savelist.c2 = none ∧ c2 = e.ctrls.c2 := by
  unfold withC2 SavesC2
  cases e.ctrls.c2 with
  | none => cases e.cc.savelist.c2 <;> simp
  | some item =>
    cases hsaved : e.cc.savelist.c2 with
    | none => cases hnull : item.isNull <;> simp [hsaved, hnull]
    | some _ => simp

theorem or_withC2_continuation {e : Engine} (handler : ContinuationData) :
    (withC2 e.cc.savelist e.ctrls.c2).c2.or (some (.continuation handler)) = e.ctrls.c2 ↔ SavesC2 e :=
  (or_withC2_eq_iff _).trans (or_iff_left_of_imp fun h => ⟨_, h.2.symm, nofun⟩)

/-- A handler finds no c2 if none is saved in it. -/
theorem withC2_of_not_savesC2 {e : Engine} {list : SaveList} (h : ¬ SavesC2 e)
    (hlist : list.c2 = none) :
    (withC2 list e.ctrls.c2).c2 = none ∧ ∀ cont, e.ctrls.c2 ≠ some (.continuation cont) := by
  unfold withC2
  cases hc2 : e.ctrls.c2 with
  | none => exact ⟨hlist, nofun⟩
  | some item =>
    have hnull : item.isNull = true := by
      by_contra hnull
      exact h ⟨item, hc2, fun h => absurd h hnull⟩
    dsimp only
    rw [hnull, hlist, Option.isNone_none, Bool.and_self, if_pos rfl]
    refine ⟨hlist, ?_⟩
    rintro cont ⟨⟩
    cases hnull

section Restore

variable {e s : Engine} {stack kept : Stack} {body body' handler : ContinuationData}

theorem remove_zero_of_none (list : SaveList) (h : list.get 0 = none) : list.remove 0 = list := by
  rw [SaveListOf.remove_eq, ← h, SaveListOf.setOpt_get _ (by decide)]

/-- A return to the return continuation of `TRY`. -/
theorem ctrls_of_tryReturn (s : Engine) (kept : Stack) {u v : Engine} {way : ReturnWay} (hparams : u.cmd.params = [])
    (hc0 : u.ctrls.get 0 = some (.continuation (tryReturn s kept)))
    (h : exec way.program u = (.ok (), v)) :
    v.ctrls.get 0 = s.ctrls.get 0 ∧
      v.ctrls.get 2 = (withC2 s.cc.savelist s.ctrls.c2).c2.or ((way.ctrls u).get 2) := by
  obtain ⟨-, -, -, -, hctrls⟩ := way.eq_ok hparams hc0 h
  rw [hctrls]
  exact ⟨Option.or_none, rfl⟩

/-- Only a handler of `TRY` loses its c2 when it returns. -/
theorem get_two_of_ne_tryCatch {u : Engine} {way : ReturnWay} (hway : way ≠ .tryCatch) :
    (way.ctrls u).get 2 = u.ctrls.get 2 := by
  cases way with
  | tryCatch => exact absurd rfl hway
  | _ => rfl

/-- The c2 with which a handler returns that has not touched it: what the exception has left there. -/
theorem get_two_of_untouched {u w x : Engine} {way : ReturnWay} {list : SaveList} (hlist : list.get 2 = none)
    (hw : w.ctrls = u.interrupted.apply list) (hx : x.ctrls.get 2 = w.ctrls.get 2) :
    (way.ctrls x).get 2 = if way = .tryCatch ∨ u.checkCapabilities .capsTvmBugfixes2022 then none
      else some (.continuation u.cc) := by
  have hleft : x.ctrls.get 2 = u.interrupted.get 2 := by
    rw [hx, hw]
    change (list.get 2).or (u.interrupted.get 2) = _
    rw [hlist, Option.none_or]
  cases way with
  | tryCatch => rfl
  | _ =>
    refine hleft.trans ?_
    unfold interrupted
    simp only [reduceCtorEq, false_or]
    split
    · rfl
    · rfl

/-- `TRY` restores c2 when the body returns, and has not touched c2, exactly if it has saved c2. If the
body throws and the handler returns, it restores c2 then as well, and an absent c2 where neither the
exception nor the return leaves another value there. -/
theorem try_restores_c2_iff (he : RegistersTyped e)
    (hstack : e.cc.stack = stack ++ [.continuation body, .continuation handler])
    (hdepth : stack.length < 2 ^ 32)
    (hbody0 : body.savelist.get 0 = none) (hbody2 : body.savelist.get 2 = none)
    (hpassed : passed stack none body = .ok (kept, body'))
    (hgas : popAllPrice stack none body ≤ e.afterLoad.gas.gasRemaining) :
    ∃ t, exec executeTry e = (.ok (), t) ∧ t.cc = { body' with savelist := {} } ∧
      (∀ u v way, way ≠ .tryCatch → u.cmd.params = [] → u.ctrls.get 0 = t.ctrls.get 0 →
        u.ctrls.get 2 = t.ctrls.get 2 → exec (ReturnWay.program way) u = (.ok (), v) →
        (v.ctrls.get 2 = e.ctrls.get 2 ↔ SavesC2 e)) ∧
      ∀ u exception, u.cmd.params = [] → u.ctrls.get 2 = t.ctrls.get 2 →
        exception.Catchable → u.cmd.vars.length < 16 →
        handlerPrice u.cc.stack exception handler ≤ u.gas.gasRemaining →
        ∃ w, exec (dispatchException (.exception exception)) u = (.ok (), w) ∧
          w.cc.code = handler.code ∧ w.cc.stack = handler.stack ++ exception.pair ∧
          ∀ x v way, x.cmd.params = [] → x.ctrls.get 0 = w.ctrls.get 0 →
            exec (ReturnWay.program way) x = (.ok (), v) →
            (SavesC2 e → v.ctrls.get 2 = e.ctrls.get 2) ∧
            (handler.savelist.get 2 = none → x.ctrls.get 2 = w.ctrls.get 2 →
              (v.ctrls.get 2 = e.ctrls.get 2 ↔ SavesC2 e ∨
                e.ctrls.get 2 = none ∧ e.cc.savelist.get 2 = none ∧
                  (way = .tryCatch ∨ u.checkCapabilities .capsTvmBugfixes2022))) := by
  have hs := loaded_afterLoad e
  have hremove := remove_zero_of_none _ hbody0
  obtain ⟨vars, -, htry⟩ := exec_initTryCatch he hs false hstack hdepth hbody2
    (by rw [hremove]; exact hpassed) (by rw [hremove]; exact hgas)
  refine ⟨_, (exec_bind_ok (exec_load e)).trans htry, rfl, ?_, ?_⟩
  · intro u v way hway hparams hc0 hc2 hret
    obtain ⟨-, hv⟩ := ctrls_of_tryReturn e.afterLoad kept hparams hc0 hret
    rw [hv, get_two_of_ne_tryCatch hway, hc2]
    exact or_withC2_continuation _
  · intro u exception hparams hc2 hcatch hvars hgas
    obtain ⟨w, hw, hcc, hctrls⟩ := exec_dispatchException hcatch hparams hc2 rfl rfl hvars hgas
    refine ⟨w, hw, by rw [hcc]; rfl, by rw [hcc]; rfl, ?_⟩
    intro x v way hparams' hc0 hret
    obtain ⟨-, hv⟩ := ctrls_of_tryReturn e.afterLoad kept hparams' (by rw [hc0, hctrls]; rfl) hret
    rw [hv]
    refine ⟨fun hsaves => (or_withC2_eq_iff _).2 (.inl hsaves), fun hlist hx => ?_⟩
    refine (or_withC2_eq_iff _).trans (or_congr_right' fun hnot => ?_)
    obtain ⟨hnone, hcont⟩ := withC2_of_not_savesC2 hnot hlist
    have hsaved : (tryHandler e.afterLoad kept handler).savelist.get 2 = none := hnone
    rw [get_two_of_untouched hsaved hctrls hx]
    split
    · rename_i hdropped
      exact ⟨fun h => ⟨h.2.symm, h.1, hdropped⟩, fun h => ⟨h.2.1, h.1.symm⟩⟩
    · rename_i hkept
      exact ⟨fun h => absurd h.2.symm (hcont _), fun h => absurd h.2.2 hkept⟩

theorem passed_tryReturn (kept : Stack) {r : Nat} (hreturn : returnNargs s.cmd = r)
    (hle : r ≤ stack.length) :
    ∃ stack' cont', passed stack none (tryReturn s kept) = .ok (stack', cont') ∧
      cont'.code = s.cc.code ∧ cont'.stack = kept ++ List.drop (stack.length - r) stack := by
  have hnargs : returnNargs s.cmd = ((some r).map Nat.cast).getD (-1) := hreturn
  have hpass := passed_returnTo (s := { s with cc.savelist := withC2 s.cc.savelist s.ctrls.c2 }) kept
    hnargs stack
  rwa [Option.getD_some, if_pos hle] at hpass

/-- `TRYARGS` gives the body exactly its arguments, and an exception of the body enters the handler with
the exception pair. Whichever of the two returns with enough values, the rest of the code resumes with
these values on its stack and with its c0. The c2 is that of before exactly if it was saved. -/
theorem tryargs_resumes_iff {args : Stack} {r : Nat} (he : RegistersTyped e)
    (hload : exec (loadInstruction (some .argumentAndReturnConstraints)) e = (.ok (), s))
    (hargs : pargsRaw s.cmd = some args.length) (hreturns : rargsRaw s.cmd = some r)
    (hstack : e.cc.stack = kept ++ args ++ [.continuation body, .continuation handler])
    (hdepth : (kept ++ args).length < 2 ^ 32) (hnargs : body.nargs = -1) (hcaptured : body.stack = [])
    (hbody0 : body.savelist.get 0 = none) (hbody2 : body.savelist.get 2 = none)
    (hhandler : handler.stack = [])
    (hgas : popAllPrice (kept ++ args) (some args.length) body ≤ s.gas.gasRemaining) :
    ∃ t ret, exec executeTryargs e = (.ok (), t) ∧
      t.cc = { body with stack := args, savelist := {} } ∧
      t.ctrls.get 0 = some (.continuation ret) ∧
      (∀ u exception, u.cmd.params = [] → u.ctrls.get 2 = t.ctrls.get 2 → exception.Catchable →
        u.cmd.vars.length < 16 → handlerPrice u.cc.stack exception handler ≤ u.gas.gasRemaining →
        ∃ w, exec (dispatchException (.exception exception)) u = (.ok (), w) ∧
          w.cc.code = handler.code ∧ w.cc.stack = exception.pair ∧
          w.ctrls.get 0 = some (.continuation ret)) ∧
      ∀ u way, u.cmd.params = [] → u.ctrls.get 0 = some (.continuation ret) → r ≤ u.cc.stack.length →
        popAllPrice u.cc.stack none ret ≤ ReturnWay.gasLeft u way →
        ∃ v, exec (ReturnWay.program way) u = (.ok (), v) ∧ v.cc.code = s.cc.code ∧
          v.cc.stack = kept ++ List.drop (u.cc.stack.length - r) u.cc.stack ∧
          v.ctrls.get 0 = e.ctrls.get 0 ∧ (SavesC2 e → v.ctrls.get 2 = e.ctrls.get 2) ∧
          (way ≠ .tryCatch → u.ctrls.get 2 = t.ctrls.get 2 → v.ctrls.get 2 = e.ctrls.get 2 →
            SavesC2 e) := by
  obtain ⟨hs, hnargs'⟩ := loaded_of_argumentAndReturnConstraints e hload
  have hremove := remove_zero_of_none _ hbody0
  have hpassed := passed_args kept args hnargs hcaptured
  rw [← hargs] at hpassed hgas
  obtain ⟨vars, -, htry⟩ := exec_initTryCatch he hs false hstack hdepth hbody2
    (by rw [hremove]; exact hpassed) (by rw [hremove]; exact hgas)
  have hsaves : SavesC2 s ↔ SavesC2 e := by
    unfold SavesC2
    rw [hs.ctrls, hs.savelist]
  refine ⟨_, tryReturn s kept, (exec_bind_ok hload).trans htry, rfl, rfl, ?_, ?_⟩
  · intro u exception hparams hc2 hcatch hvars hgas'
    obtain ⟨w, hw, hcc, hctrls⟩ := exec_dispatchException hcatch hparams hc2 rfl rfl hvars hgas'
    refine ⟨w, hw, by rw [hcc]; rfl, ?_, by rw [hctrls]; rfl⟩
    rw [hcc]
    exact congrArg (· ++ exception.pair) hhandler
  · intro u way hparams hc0 hle hgas'
    have hreturn : returnNargs s.cmd = r := by
      unfold returnNargs
      rw [hnargs', hreturns]
    obtain ⟨stack', cont', hok, hcode, hvalues⟩ := passed_tryReturn kept hreturn hle
    obtain ⟨v, hv⟩ := way.succeeds hparams hc0 hok hgas'
    obtain ⟨_, _, hok', hcc, -⟩ := way.eq_ok hparams hc0 hv
    obtain ⟨hv0, hv2⟩ := ctrls_of_tryReturn s kept hparams hc0 hv
    rw [hok] at hok'
    cases hok'
    refine ⟨v, hv, by rw [hcc]; exact hcode, by rw [hcc]; exact hvalues, hs.ctrls ▸ hv0, ?_, ?_⟩
    · intro hsaved
      rw [hv2, (or_withC2_eq_iff _).2 (.inl (hsaves.2 hsaved)), hs.ctrls, SaveListOf.get_two]
    · intro hway hc2 heq
      rw [hv2, get_two_of_ne_tryCatch hway, hc2, ← hs.ctrls] at heq
      exact hsaves.1 ((or_withC2_continuation _).1 heq)

end Restore

end Engine

end TryCatch

namespace Engine

open scoped Plain

/-- `TRY` with an empty body and a handler that pushes 7, while c2 holds the handler of the start. -/
def trying : Engine :=
  (withCapabilities [.capsTvmBugfixes2022]).setupWithLibraries (Plain.code [0xF2, 0xFF]) none
    (some [.continuation (.withCode (Plain.code [])), .continuation (.withCode (Plain.code [0x77]))])
    none []

theorem registersTyped_trying : RegistersTyped trying := by
  refine good_setup _ _ _ _ nofun ?_ rfl
  rintro _ ⟨⟩
  simp only [good_cons, good_nil, and_true]
  exact ⟨Good.out, Good.out⟩

theorem restores_trying : ∃ t, exec executeTry trying = (.ok (), t) ∧
    ∀ u v way, way ≠ .tryCatch → u.cmd.params = [] → u.ctrls.get 0 = t.ctrls.get 0 →
      u.ctrls.get 2 = t.ctrls.get 2 → exec (ReturnWay.program way) u = (.ok (), v) →
      v.ctrls.get 2 = trying.ctrls.get 2 := by
  have hstack : trying.cc.stack = [] ++ [.continuation (.withCode (Plain.code [])),
      .continuation (.withCode (Plain.code [0x77]))] := rfl
  obtain ⟨t, ht, -, hbody, -⟩ := try_restores_c2_iff registersTyped_trying hstack (by decide) rfl rfl
    rfl (by decide)
  refine ⟨t, ht, fun u v way hway hparams hc0 hc2 hret => ?_⟩
  exact (hbody u v way hway hparams hc0 hc2 hret).2 ⟨_, rfl, nofun⟩

/-- The same without a c2, and a `THROW` after it. -/
def tryingWithoutC2 : Engine :=
  (withCapabilities []).setupWithLibraries
    (Plain.code [0x90, 0x91, 0x77, 0xF2, 0xFF, 0xF2, 0x05]) none none none []

/-- The handler stays in c2 after the body has returned, and gets the exception of the `THROW`. -/
theorem ending_tryingWithoutC2 :
    (passes 2 tryingWithoutC2).2.ctrls.c2.isNone ∧
    arities (passes 4 tryingWithoutC2).2.ctrls.c2 = some (2, some (-1)) ∧
    ending (passes 9 tryingWithoutC2) = (none, [0, 5, 7]) := by
  decide +kernel

/-- `TRYARGS 2,1` after its first byte: the body gets 0 and -1, and 1 stays below them. -/
def tryingWithArgs : Engine :=
  (withCapabilities [.capsTvmBugfixes2022]).setupWithLibraries (Plain.code [0x21]) none
    (some [.integer .one, .integer .zero, .integer .minusOne,
      .continuation (.withCode (Plain.code [])), .continuation (.withCode (Plain.code [0x77]))])
    none []

theorem registersTyped_tryingWithArgs : RegistersTyped tryingWithArgs := by
  refine good_setup _ _ _ _ nofun ?_ rfl
  rintro _ ⟨⟩
  simp only [good_cons, good_nil, and_true]
  exact ⟨Good.out, Good.out, Good.out, Good.out, Good.out⟩

theorem resumes_tryingWithArgs : ∃ t ret, exec executeTryargs tryingWithArgs = (.ok (), t) ∧
    t.cc.stack = [.integer .zero, .integer .minusOne] ∧
    t.ctrls.get 0 = some (.continuation ret) ∧
    ∀ u way below value, u.cmd.params = [] → u.ctrls.get 0 = some (.continuation ret) →
      u.cc.stack = below ++ [value] → popAllPrice u.cc.stack none ret ≤ ReturnWay.gasLeft u way →
      ∃ v, exec (ReturnWay.program way) u = (.ok (), v) ∧ v.cc.stack = [.integer .one, value] ∧
        v.ctrls.get 2 = tryingWithArgs.ctrls.get 2 := by
  have hload : exec (loadInstruction (some .argumentAndReturnConstraints)) tryingWithArgs = (.ok (),
      (exec (loadInstruction (some .argumentAndReturnConstraints)) tryingWithArgs).2) :=
    exec_eq_of_isOk (by decide +kernel)
  have hstack : tryingWithArgs.cc.stack = [.integer .one] ++
      [.integer .zero, .integer .minusOne] ++ [.continuation (.withCode (Plain.code [])),
      .continuation (.withCode (Plain.code [0x77]))] := rfl
  obtain ⟨t, ret, ht, hcc, hc0, -, hreturn⟩ := tryargs_resumes_iff (r := 1)
    registersTyped_tryingWithArgs hload (by decide +kernel) (by decide +kernel) hstack (by decide) rfl rfl
    rfl rfl rfl (by decide +kernel)
  refine ⟨t, ret, ht, by rw [hcc], hc0, fun u way below value hparams hu hvalue hgas => ?_⟩
  obtain ⟨v, hv, -, hvstack, -, hc2, -⟩ := hreturn u way hparams hu (by simp [hvalue]) hgas
  exact ⟨v, hv, by rw [hvstack, hvalue]; simp, hc2 ⟨_, rfl, nofun⟩⟩

/-- Null is put into c2 before `TRYARGS 0,0`. -/
def tryingWithNull : Engine :=
  (withCapabilities [.capsTvmBugfixes2022]).setupWithLibraries
    (Plain.code [0x6D, 0xED, 0x52, 0x90, 0x91, 0x77, 0xF3, 0x00]) none none none []

/-- It is not there again after the body has returned. -/
theorem c2_lost_tryingWithNull :
    (passes 4 tryingWithNull).2.ctrls.c2.map StackItem.isNull = some true ∧
    (passes 6 tryingWithNull).2.ctrls.c2.map StackItem.isNull = some false := by
  decide +kernel

end Engine

end TonVm
