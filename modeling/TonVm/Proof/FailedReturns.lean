import TonVm.Lib.Concludes
import TonVm.Proof.Calls
import TonVm.Proof.DictionaryKeys

/-!
# Returns that fail

A return moves values to the continuation in a register. Its arity is lowered before it is known that
the stack has enough values, so a return that fails for the lack of values may leave a continuation
behind that asks for none. `RETURNARGS` and `RETURNVARARGS` move what there is, and are not affected.
-/

namespace TonVm

open ExecLib

section FailedReturns

variable [TonTypes]

/-- The errors of a transfer of values. -/
def Misses (err : Error) : Prop :=
  err = .exception (.fromCode .stackUnderflow) ∨ err = .exception (.fromCode .stackOverflow)

/-- The arity of the continuation is lowered although the values are not there: it takes more than the
stack has, and no other number was given. -/
def Lowers (stack : Stack) (pargs : Option Nat) (cont : ContinuationData) : Prop :=
  (stack.length : Int) < cont.nargs ∧ ∀ count, pargs = some count → (count : Int) = cont.nargs

theorem not_lowers_of_passCount {stack : Stack} {pargs : Option Nat} {cont : ContinuationData}
    {code : ExceptionCode} (h : passCount cont.nargs pargs stack.length = .error code) :
    ¬Lowers stack pargs cont := by
  rintro ⟨hlen, hcount⟩
  unfold passCount at h
  rw [if_neg (by omega)] at h
  cases pargs with
  | none => cases h
  | some count =>
    have := hcount count rfl
    dsimp only at h
    rw [if_neg (by omega)] at h
    cases h

omit [TonTypes] in
theorem passCount_eq_ok {nargs : Int} {pargs : Option Nat} {depth count : Nat} (hnargs : 0 ≤ nargs)
    (h : passCount nargs pargs depth = .ok count) :
    pargs = none ∧ (count : Int) = nargs ∨ pargs = some count ∧ nargs ≤ count := by
  unfold passCount at h
  rw [if_neg (by omega)] at h
  cases pargs with
  | none =>
    cases h
    exact .inl ⟨rfl, by omega⟩
  | some given =>
    dsimp only at h
    by_cases hfew : (given : Int) < nargs
    · rw [if_pos hfew] at h
      cases h
    · rw [if_neg hfew] at h
      cases h
      exact .inr ⟨rfl, by omega⟩

/-- What is left of the continuation when its values cannot be moved. -/
theorem lowered_eq_iff {stack : Stack} {pargs : Option Nat} {cont : ContinuationData} {count : Nat}
    {code : ExceptionCode} (hcount : passCount cont.nargs pargs stack.length = .ok count)
    (hmove : moveTop count stack cont = .error code) :
    (if 0 ≤ cont.nargs ∧ count ≤ cont.nargs then { cont with nargs := cont.nargs - count } else cont) =
      cont ↔ ¬Lowers stack pargs cont := by
  by_cases hfits : 0 ≤ cont.nargs ∧ (count : Int) ≤ cont.nargs
  · have hlen : stack.length < count := by
      unfold moveTop at hmove
      rw [if_neg (by omega)] at hmove
      by_contra hlong
      rw [if_neg hlong] at hmove
      cases hmove
    rw [if_pos hfits]
    refine iff_of_false ?_ (not_not.2 ?_)
    · intro heq
      have hnargs : cont.nargs - count = cont.nargs := congrArg (fun cont : ContinuationData => cont.nargs) heq
      omega
    · rcases passCount_eq_ok hfits.1 hcount with ⟨rfl, hall⟩ | ⟨rfl, hall⟩
      · exact ⟨by omega, nofun⟩
      · refine ⟨by omega, ?_⟩
        rintro _ ⟨⟩
        omega
  · rw [if_neg hfits]
    refine iff_of_true rfl ?_
    rintro ⟨hlen, hgiven⟩
    have hnargs : 0 ≤ cont.nargs := by omega
    rcases passCount_eq_ok hnargs hcount with ⟨-, hall⟩ | ⟨rfl, -⟩
    · exact hfits ⟨hnargs, hall.le⟩
    · exact hfits ⟨hnargs, (hgiven count rfl).le⟩

namespace Engine

/-- Lack of gas is another error. -/
theorem concludes_tryUseGas (e : Engine) (amount : Int) :
    Concludes (fun err _ => ¬Misses err) (fun _ t => t = e.pay amount) (tryUseGas amount) e := by
  constructor
  · intro _ t hok
    exact (exec_tryUseGas_eq_ok hok).2
  · intro err t herr
    unfold tryUseGas useGas checkGasRemaining at herr
    rw [exec_bind_modify, exec_bind_get] at herr
    unfold Gas.checkGasRemaining at herr
    split at herr
    · cases herr
    · rename_i heq
      split at heq
      · cases heq
      · cases heq
        cases herr
        rintro (hmiss | hmiss) <;> cases hmiss

namespace Receiver

variable {dst : Nat} {pargs : Option Nat} {state : Gas → ContinuationData → Stack → Engine}
  {gas : Gas} {cont : ContinuationData} {stack : Stack}

/-- What `pop_range` does once it is paid. -/
theorem concludes_popRange (h : Receiver dst pargs state) {start stop : Nat} {F : Error → Engine → Prop}
    (hF : ∀ err t, ¬Misses err → F err t)
    (hmove : ∀ gas, Concludes F (fun _ _ => True) (moveStackFromCc dst start stop)
      (state gas cont stack)) :
    Concludes F (fun _ _ => True) (popRange start stop dst) (state gas cont stack) := by
  have hpay (gas : Gas) (amount : Int) : Concludes F
      (fun _ t => t = state (gas.useGas amount) cont stack) (tryUseGas amount)
      (state gas cont stack) := by
    refine (concludes_tryUseGas _ amount).mono (fun err t herr => hF err t herr) ?_
    rintro _ _ rfl
    unfold pay
    rw [h.setGas, h.gas]
  have hjoin (gas : Gas) : Concludes F (fun _ _ => True) (joinStacks dst start stop)
      (state gas cont stack) := by
    refine Concludes.bind_ok (h.cont _ _ _) ?_
    refine Concludes.ite (fun _ => ?_) fun _ => hmove gas
    refine Concludes.bind (hpay gas _) ?_
    rintro _ _ rfl
    exact hmove _
  unfold popRange
  refine Concludes.bind_ok (exec_get _) ?_
  refine Concludes.ite (fun _ => ?_) fun _ => hjoin gas
  refine Concludes.bind (hpay gas _) ?_
  rintro _ _ rfl
  exact hjoin _

/-- How `pop_all` fails for the number of values. -/
theorem concludes_popAll (h : Receiver dst pargs state) (gas : Gas) (cont : ContinuationData)
    (stack : Stack) :
    Concludes (fun err t => Misses err → ∃ gas cont', t = state gas cont' stack ∧
      (cont' = cont ↔ ¬Lowers stack pargs cont)) (fun _ _ => True) (popAll dst)
      (state gas cont stack) := by
  have hexec : exec (popAll dst) (state gas cont stack) = _ := h.exec_popAll_eq
  cases hcount : passCount cont.nargs pargs stack.length with
  | error code =>
    rw [hcount] at hexec
    exact Concludes.of_error hexec fun _ =>
      ⟨gas, cont, rfl, iff_of_true rfl (not_lowers_of_passCount hcount)⟩
  | ok count =>
    rw [hcount] at hexec
    refine Concludes.of_exec ?_ hexec
    refine Concludes.ite (fun _ => ?_) fun _ => Concludes.pure trivial
    refine h.concludes_popRange (fun err t hother hmiss => absurd hmiss hother) fun gas => ?_
    cases hmove : moveTop count stack cont with
    | error code =>
      exact Concludes.of_error (h.exec_moveStackFromCc_error hmove) fun _ =>
        ⟨gas, _, rfl, lowered_eq_iff hcount hmove⟩
    | ok result =>
      obtain ⟨stack', cont'⟩ := result
      exact Concludes.of_ok (h.exec_moveStackFromCc hmove) trivial

/-- All that lies below a depth can be moved, unless the receiver does not take so much. -/
theorem exec_moveRest (h : Receiver dst pargs state) (start : Nat) :
    (∃ t, exec (moveStackFromCc dst start stack.length) (state gas cont stack) = (.ok (), t)) ∨
      exec (moveStackFromCc dst start stack.length) (state gas cont stack) =
        (.error (.exception (.fromCode .stackOverflow)), state gas cont stack) := by
  obtain ⟨⟨moved, stack'⟩, hdrop⟩ : ∃ r, Stack.dropRangeStraight start stack.length stack = .ok r := by
    by_cases hstart : start ≥ stack.length
    · exact ⟨_, Stack.dropRangeStraight_of_ge hstart _⟩
    · have hdepth : stack.length ≤ Stack.depth stack := le_rfl
      obtain ⟨bottom, block, top, hstack, htop, hstop⟩ := Stack.exists_block (not_le.1 hstart).le hdepth
      rw [hstack, htop, ← hstack, hstop, hstack]
      exact ⟨_, Stack.dropRangeStraight_block bottom block top⟩
  have htake (cont : ContinuationData) (peer : Stack) :
      exec (takeStack (Stack.moveRange start stack.length peer)) (state gas cont stack) =
        (.ok (peer ++ moved), state gas cont stack') := by
    unfold takeStack
    rw [exec_bind_get, h.stack, Stack.moveRange_eq, hdrop, Except.map, lift_ok, exec_bind_pure,
      exec_bind_modify, h.setStack]
    rfl
  have hstore (cont' : ContinuationData) : exec (do
      setContinuationByAddress dst cont'
      let received ← takeStack (Stack.moveRange start stack.length cont'.stack)
      setContinuationByAddress dst { cont' with stack := received }) (state gas cont stack) =
        (.ok (), state gas { cont' with stack := cont'.stack ++ moved } stack') := by
    rw [exec_bind_ok (h.setCont _ _ _ _), exec_bind_ok (htake _ _), h.setCont]
  unfold moveStackFromCc
  rw [exec_bind_ok (h.cont _ _ _)]
  by_cases hlimit : cont.nargs ≥ 0
  · rw [if_pos hlimit]
    by_cases hover : ((stack.length - start : Nat) : Int) > cont.nargs
    · rw [if_pos hover]
      exact .inr rfl
    · rw [if_neg hover, exec_bind_pure]
      exact .inl ⟨_, hstore _⟩
  · rw [if_neg hlimit, exec_bind_pure]
    exact .inl ⟨_, hstore _⟩

end Receiver

/-! ### The instructions -/

/-- What a failing transfer tells about the registers. -/
abbrev TellsRegisters (e : Engine) (lowers : Prop) (m : M Unit) (s : Engine) : Prop :=
  Concludes (fun err t => Misses err → (t.ctrls = e.ctrls ↔ ¬lowers)) (fun _ _ => True) m s

/-- The continuation of a register is lowered. -/
def LowersAt (value : Option StackItem) (stack : Stack) (pargs : Option Nat) : Prop :=
  ∃ cont, value = some (.continuation cont) ∧ Lowers stack pargs cont

theorem lowersAt_continuation {cont : ContinuationData} {stack : Stack} {pargs : Option Nat} :
    LowersAt (some (.continuation cont)) stack pargs ↔ Lowers stack pargs cont := by
  constructor
  · rintro ⟨_, ⟨⟩, hlowers⟩
    exact hlowers
  · intro hlowers
    exact ⟨cont, rfl, hlowers⟩

section Registers

variable {e s : Engine} {cc : ContinuationData} {vars : List StackItem} {i : Nat}

theorem not_misses_typeCheck : ¬Misses (.exception (.fromCode .typeCheckError)) := by
  rintro (h | h) <;> cases h

/-- A register that holds no continuation. -/
theorem exec_continuationByAddress_error (hi : i ∈ SaveListOf.regs)
    (h : ∀ cont, s.ctrls.get i ≠ some (.continuation cont)) :
    exec (continuationByAddress (Addr.ctrl i)) s =
      (.error (.exception (.fromCode .typeCheckError)), s) := by
  have hi16 : i < 16 := (lt_of_mem_regs hi).trans (by decide)
  simp only [continuationByAddress, place_ctrl hi16, storageIndex_ctrl hi16, exec_bind_get]
  cases hget : s.ctrls.get i with
  | none => rfl
  | some item =>
    cases item with
    | continuation cont => exact absurd hget (h cont)
    | _ => rfl

theorem tells_popAll (hi : i ∈ SaveListOf.regs) :
    TellsRegisters e (LowersAt (e.ctrls.get i) cc.stack (pargsRaw s.cmd)) (popAll (Addr.ctrl i))
      (s.holding cc e.ctrls vars) := by
  by_cases hcont : ∃ cont, e.ctrls.get i = some (.continuation cont)
  · obtain ⟨cont, hcont⟩ := hcont
    have hstart : e.ctrls.setOpt i (some (.continuation cont)) = e.ctrls := by
      rw [← hcont, SaveListOf.setOpt_get _ hi]
    have hpop := (receiver_ctrl s cc e.ctrls vars hi).concludes_popAll s.gas cont cc.stack
    rw [hstart] at hpop
    rw [hcont, lowersAt_continuation]
    refine hpop.mono ?_ fun _ _ h => h
    intro err t h hmiss
    obtain ⟨gas, cont', rfl, hsame⟩ := h hmiss
    rw [← hsame, holding_ctrls]
    constructor
    · intro heq
      have hget := congrArg (fun list : SaveList => list.get i) heq
      rw [SaveListOf.get_setOpt _ hi, hcont] at hget
      cases hget
      rfl
    · rintro rfl
      exact hstart
  · have herr := exec_continuationByAddress_error (s := s.holding cc e.ctrls vars) hi
      fun cont h => hcont ⟨cont, h⟩
    exact Concludes.of_error (exec_bind_error herr) fun hmiss => absurd hmiss not_misses_typeCheck

/-- What comes after the values are moved does not fail. -/
theorem tells_of_popAll (hi : i ∈ SaveListOf.regs) {k : Unit → M Unit}
    (hk : ∀ e' cc' cont', exec (popAll (Addr.ctrl i)) (s.holding cc e.ctrls vars) =
        (.ok (), holding e' cc' (e.ctrls.setOpt i (some (.continuation cont'))) vars) →
      ∃ t, exec (popAll (Addr.ctrl i) >>= k) (s.holding cc e.ctrls vars) = (.ok (), t)) :
    TellsRegisters e (LowersAt (e.ctrls.get i) cc.stack (pargsRaw s.cmd))
      (popAll (Addr.ctrl i) >>= k) (s.holding cc e.ctrls vars) := by
  rcases hexec : exec (popAll (Addr.ctrl i)) (s.holding cc e.ctrls vars) with ⟨err | _, t⟩
  · exact Concludes.of_error (exec_bind_error hexec) ((tells_popAll hi).error hexec)
  · by_cases hcont : ∃ cont, e.ctrls.get i = some (.continuation cont)
    · obtain ⟨cont, hcont⟩ := hcont
      obtain ⟨stack', cont', -, rfl⟩ := popAll_ctrl_eq_ok hi hcont hexec
      obtain ⟨t, ht⟩ := hk _ _ _ hexec
      exact Concludes.of_ok ht trivial
    · have herr := exec_continuationByAddress_error (s := s.holding cc e.ctrls vars) hi
        fun cont h => hcont ⟨cont, h⟩
      unfold popAll at hexec
      rw [exec_bind_error herr] at hexec
      cases hexec

theorem tells_switch_c0 (e s : Engine) (cc : ContinuationData) (vars : List StackItem) :
    TellsRegisters e (LowersAt e.ctrls.c0 cc.stack (pargsRaw s.cmd))
    (switch (Addr.ctrl 0)) (s.holding cc e.ctrls vars) :=
  tells_of_popAll (by decide) fun _ _ _ hpop => ⟨_, exec_switch_c0_of_popAll hpop⟩

theorem tells_switch_c1 (e s : Engine) (cc : ContinuationData) (vars : List StackItem) :
    TellsRegisters e (LowersAt e.ctrls.c1 cc.stack (pargsRaw s.cmd))
    (switch (Addr.ctrl 1)) (s.holding cc e.ctrls vars) :=
  tells_of_popAll (by decide) fun _ _ _ hpop => ⟨_, exec_switch_c1_of_popAll hpop⟩

theorem tells_switchToC0 (e s : Engine) (cc : ContinuationData) (vars : List StackItem) :
    TellsRegisters e (LowersAt e.ctrls.c0 cc.stack (pargsRaw s.cmd))
    switchToC0 (s.holding cc e.ctrls vars) :=
  tells_of_popAll (by decide) fun _ _ _ hpop => ⟨_, exec_switchToC0_of_popAll hpop⟩

/-- All that is above a depth can be moved, unless the receiver does not take it. -/
theorem tells_returnRest (rargs : Nat) :
    TellsRegisters e False (returnRest rargs) (s.holding cc e.ctrls vars) := by
  have hsame : e.ctrls = e.ctrls ↔ ¬False := iff_of_true rfl id
  refine Concludes.bind_ok (exec_get _) ?_
  refine Concludes.ite (fun _ => Concludes.throw fun _ => hsame) fun _ => ?_
  by_cases hcont : ∃ cont, e.ctrls.get 0 = some (.continuation cont)
  · obtain ⟨cont, hcont⟩ := hcont
    have hstart : e.ctrls.setOpt 0 (some (.continuation cont)) = e.ctrls := by
      rw [← hcont, SaveListOf.setOpt_get _ (by decide)]
    have hreceiver := receiver_ctrl s cc e.ctrls vars (i := 0) (by decide)
    have hpop : TellsRegisters e False (popRange rargs cc.stack.length (Addr.ctrl 0))
        ({ s with gas := s.gas }.holding { cc with stack := cc.stack }
          (e.ctrls.setOpt 0 (some (.continuation cont))) vars) := by
      refine hreceiver.concludes_popRange (fun err t hother hmiss => absurd hmiss hother) fun gas => ?_
      rcases hreceiver.exec_moveRest rargs with ⟨t, ht⟩ | herr
      · exact Concludes.of_ok ht trivial
      · refine Concludes.of_error herr fun _ => ?_
        rw [holding_ctrls, hstart]
        exact hsame
    rw [hstart] at hpop
    exact hpop
  · have hfail (t : Engine) (hctrls : t.ctrls = e.ctrls) : TellsRegisters e False (do
        let depth := (← continuationByAddress (Addr.ctrl 0)).stack.length
        if depth ≠ 0 ∧ cc.stack.length - rargs ≠ 0 then
          tryUseGas (Gas.stackPrice (cc.stack.length - rargs + depth))
        moveStackFromCc (Addr.ctrl 0) rargs cc.stack.length) t := by
      have herr := exec_continuationByAddress_error (s := t) (i := 0) (by decide)
        fun cont h => hcont ⟨cont, hctrls ▸ h⟩
      exact Concludes.of_error (exec_bind_error herr) fun hmiss => absurd hmiss not_misses_typeCheck
    refine Concludes.bind_ok (exec_get _) ?_
    refine Concludes.ite (fun _ => ?_) fun _ => hfail _ rfl
    refine Concludes.bind ((concludes_tryUseGas _ _).mono
      (fun err t hother hmiss => absurd hmiss hother) fun _ _ ht => ht) ?_
    rintro _ _ rfl
    exact hfail _ rfl

end Registers

/-- The returns. -/
inductive ReturnInstruction where
  | ret
  | retalt
  | retargs
  | retvarargs
  | returnargs
  | returnvarargs
  | implicit
  deriving DecidableEq

namespace ReturnInstruction

def handler : ReturnInstruction → M Unit
  | ret => executeRet
  | retalt => executeRetalt
  | retargs => executeRetargs
  | retvarargs => executeRetva
  | returnargs => executeReturnargs
  | returnvarargs => executeReturnva
  | implicit => do
    let _ ← stepOrdinary

/-- The states in which the instruction lowers the arity of the continuation it cannot return to. -/
def LowersArity (e : Engine) : ReturnInstruction → Prop
  | ret => LowersAt e.ctrls.c0 e.cc.stack none
  | retalt => LowersAt e.ctrls.c1 e.cc.stack none
  | retargs => LowersAt e.ctrls.c0 e.cc.stack (some (lastNibble e))
  | retvarargs => ∃ stack v, e.cc.stack = stack ++ [.int v] ∧
      LowersAt e.ctrls.c0 stack (if 0 ≤ v then some v.toNat else none)
  | returnargs | returnvarargs => False
  | implicit => LowersAt e.ctrls.c0 e.cc.stack (pargsRaw e.cmd)

theorem tells_lift {α : Type} {e s : Engine} {lowers : Prop} {x : Except Failure α} {k : α → M Unit}
    (hx : ∀ failure, x = .error failure → ¬Misses failure.toError)
    (hk : ∀ a, x = .ok a → TellsRegisters e lowers (k a) s) :
    TellsRegisters e lowers (lift x >>= k) s := by
  cases hresult : x with
  | ok a => exact Concludes.bind_ok rfl (hk a hresult)
  | error failure =>
    exact Concludes.of_error (t := s) rfl fun hmiss => absurd hmiss (hx failure hresult)

theorem not_misses_asInteger {item : StackItem} {failure : Failure}
    (h : item.asInteger = .error failure) : ¬Misses failure.toError := by
  cases item with
  | integer x => cases h
  | _ =>
    cases h
    exact not_misses_typeCheck

theorem not_misses_into {x : IntegerData} {lo hi : Int} {failure : Failure}
    (h : x.into lo hi = .error failure) : ¬Misses failure.toError := by
  have hrange : failure = .code .rangeCheckError := by
    unfold IntegerData.into at h
    cases x with
    | nan =>
      cases h
      rfl
    | value v =>
      dsimp only at h
      split at h
      · cases h
      · cases h
        rfl
  subst hrange
  rintro (hmiss | hmiss) <;> cases hmiss

/-- The operand of an instruction is taken from the stack. -/
theorem tells_operand {e : Engine} {lowers : Prop} {k : M Unit} (hempty : e.cc.stack = [] → ¬lowers)
    (h : ∀ stack a, e.cc.stack = stack ++ [a] →
      TellsRegisters e lowers k (e.afterLoad.holding { e.cc with stack } e.ctrls [a])) :
    TellsRegisters e lowers (do
      loadInstruction
      fetchStack 1
      k) e := by
  rcases List.eq_nil_or_concat e.cc.stack with hnil | ⟨stack, a, hstack⟩
  · have hshort : e.cc.stack.length < 1 := by
      rw [hnil]
      exact Nat.zero_lt_one
    exact Concludes.of_error (exec_load_fetchStack_short hshort k) fun _ =>
      iff_of_true rfl (hempty hnil)
  · rw [List.concat_eq_append] at hstack
    exact Concludes.bind_ok (exec_load e) (Concludes.bind_ok
      ((loaded_afterLoad e).exec_fetchStack_one hstack) (h stack a hstack))

theorem tells_retargs (e : Engine) :
    TellsRegisters e (LowersAt e.ctrls.c0 e.cc.stack (some (lastNibble e))) executeRetargs e := by
  have hload : exec (loadInstruction (some (.pargs 0 16))) e =
      (.ok (), { e.afterLoad with cmd.params := [.pargs (lastNibble e)] }) := rfl
  refine Concludes.bind_ok hload ?_
  exact tells_switch_c0 e { e.afterLoad with cmd.params := [.pargs (lastNibble e)] } e.cc []

theorem tells_returnargs (e : Engine) : TellsRegisters e False executeReturnargs e := by
  have hload : exec (loadInstruction (some (.rargs 0 16))) e =
      (.ok (), { e.afterLoad with cmd.params := [.rargs (lastNibble e)] }) := rfl
  refine Concludes.bind_ok hload (Concludes.bind_ok (exec_get _) ?_)
  exact tells_returnRest (s := { e.afterLoad with cmd.params := [.rargs (lastNibble e)] }) _

theorem tells_returnva (e : Engine) : TellsRegisters e False executeReturnva e := by
  refine tells_operand (fun _ => id) fun stack a hstack => ?_
  refine Concludes.bind_ok (exec_var _ rfl) ?_
  refine tells_lift (fun _ herr => not_misses_asInteger herr) fun x _ => ?_
  refine tells_lift (fun failure herr => ?_) fun rargs _ => tells_returnRest rargs
  rw [IntegerData.intoUsize_eq_error herr]
  rintro (hmiss | hmiss) <;> cases hmiss

theorem lowersArity_retvarargs {e : Engine} {stack : Stack} {v : Int}
    (hstack : e.cc.stack = stack ++ [.int v]) :
    retvarargs.LowersArity e ↔ LowersAt e.ctrls.c0 stack (if 0 ≤ v then some v.toNat else none) := by
  constructor
  · rintro ⟨stack', v', hstack', hlowers⟩
    rw [hstack] at hstack'
    obtain ⟨rfl, hlast⟩ := List.append_inj' hstack' rfl
    cases hlast
    exact hlowers
  · intro hlowers
    exact ⟨stack, v, hstack, hlowers⟩

theorem tells_retva (e : Engine) :
    TellsRegisters e (retvarargs.LowersArity e) executeRetva e := by
  refine tells_operand ?_ fun stack a hstack => ?_
  · rintro hnil ⟨stack, v, hstack, -⟩
    rw [hnil] at hstack
    simp at hstack
  unfold fetchPargs
  simp only [bind_assoc]
  refine Concludes.bind_ok (exec_var _ rfl) ?_
  refine tells_lift (fun _ herr => not_misses_asInteger herr) fun x hx => ?_
  refine tells_lift (fun _ herr => not_misses_into herr) fun v hv => ?_
  have ha : a = .int v := by
    cases a with
    | integer y =>
      cases hx
      cases x with
      | nan => cases hv
      | value w =>
        unfold IntegerData.into at hv
        dsimp only at hv
        split at hv
        · cases hv
          rfl
        · cases hv
    | _ => cases hx
  subst ha
  rw [lowersArity_retvarargs hstack]
  have hswitch (params : List InstructionParameter) :
      TellsRegisters e (LowersAt e.ctrls.c0 stack (pargsRaw { params, vars := [] }))
        (switch (Addr.ctrl 0)) ({ e.afterLoad with cmd.params := params }.holding
          { e.cc with stack } e.ctrls [.int v]) :=
    tells_switch_c0 e { e.afterLoad with cmd.params := params } { e.cc with stack } [.int v]
  by_cases hpos : v ≥ 0
  · rw [if_pos hpos, if_pos hpos]
    exact Concludes.bind_ok rfl (hswitch [.pargs v.toNat])
  · rw [if_neg hpos, if_neg hpos]
    exact Concludes.bind_ok rfl (hswitch [])

theorem tells_implicit (e : Engine) :
    TellsRegisters e (implicit.LowersArity e) implicit.handler e := by
  unfold handler stepOrdinary countStep
  simp only [bind_assoc]
  refine Concludes.bind_ok (exec_modify _ _) ?_
  refine Concludes.bind ((concludes_tryUseGas _ _).mono
    (fun err t hother hmiss => absurd hmiss hother) fun _ _ ht => ht) ?_
  rintro _ _ rfl
  refine Concludes.bind_ok (exec_get _) ?_
  have hswitch : TellsRegisters e (LowersAt e.ctrls.c0 e.cc.stack (pargsRaw e.cmd)) switchToC0
      ((e.stepped Gas.implicitRetPrice).holding e.cc e.ctrls e.cmd.vars) :=
    tells_switchToC0 e (e.stepped Gas.implicitRetPrice) e.cc e.cmd.vars
  refine Concludes.bind (Q := fun _ _ => True) (Concludes.ite (fun _ => Concludes.pure trivial) ?_)
    fun _ _ _ => Concludes.pure trivial
  exact fun _ => Concludes.bind hswitch fun _ _ _ => Concludes.pure trivial

theorem tells_handler (i : ReturnInstruction) (e : Engine) :
    TellsRegisters e (i.LowersArity e) i.handler e := by
  cases i with
  | ret => exact Concludes.bind_ok (exec_load e) (tells_switch_c0 e e.afterLoad e.cc [])
  | retalt => exact Concludes.bind_ok (exec_load e) (tells_switch_c1 e e.afterLoad e.cc [])
  | retargs => exact tells_retargs e
  | retvarargs => exact tells_retva e
  | returnargs => exact tells_returnargs e
  | returnvarargs => exact tells_returnva e
  | implicit => exact tells_implicit e

/-- A return that fails for the number of values leaves all registers as they were, unless the arity of
the continuation is more than the stack has. -/
theorem failed_return_iff (i : ReturnInstruction) {e t : Engine} {err : Error} (herr : Misses err)
    (h : exec i.handler e = (.error err, t)) : t.ctrls = e.ctrls ↔ ¬i.LowersArity e :=
  (tells_handler i e).error h herr

end ReturnInstruction

end Engine

end FailedReturns

namespace Engine

open scoped Plain

/-- An engine that returns to a continuation with two arguments. If that fails, the handler pushes 3 and
returns again. -/
def returningTo (stack : Stack) : Engine :=
  (withCapabilities []).setupWithLibraries (Plain.code [0xDB, 0x30])
    (some {
      c0 := some (.continuation { code := Plain.code [], nargs := 2 })
      c2 := some (.continuation (.withCode (Plain.code [0x73, 0xDB, 0x30]))) })
    (some stack) none []

/-- `RETARGS 1`, to a continuation that takes two. -/
theorem failed_return_retargs :
    (exec executeRetargs { returningTo [.int 1, .int 2] with lastCmd := 0x21 }).2.ctrls =
      (returningTo [.int 1, .int 2]).ctrls := by
  have herr : (exec executeRetargs { returningTo [.int 1, .int 2] with lastCmd := 0x21 }).1 =
      .error (.exception (.fromCode .stackUnderflow)) := rfl
  refine (ReturnInstruction.failed_return_iff .retargs (.inl rfl) (Prod.ext herr rfl)).2 ?_
  rintro ⟨cont, hcont, -, hcount⟩
  cases hcont
  exact absurd (hcount 1 rfl) (by decide)

/-- `RET` to a continuation that takes two values: with one value it fails, and the continuation takes
none from then on. -/
theorem arity_lost_returningTo :
    ending (passes 4 (returningTo [.int 1, .int 2])) = (some 0, [1, 2]) ∧
    arities (returningTo [.int 1]).ctrls.c0 = some (2, none) ∧
    ending (passes 1 (returningTo [.int 1])) = (none, [0, 2]) ∧
    arities (passes 1 (returningTo [.int 1])).2.ctrls.c0 = some (0, none) ∧
    ending (passes 4 (returningTo [.int 1])) = (some 0, []) := by
  decide +kernel

end Engine

end TonVm
