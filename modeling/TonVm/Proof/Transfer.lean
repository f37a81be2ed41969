import TonVm.Proof.Microcode
import TonVm.Proof.StackBlocks

/-!
# Passing control to a continuation

`passed` is what `pop_all` does to the stack and the continuation that receives values, without the
gas. On it rest the effects of `switch`, the implicit return and `callx`.
-/

namespace TonVm

open ExecLib

variable [TonTypes]

/-! ### Passing values -/

/-- The number of values that `pop_all` moves, by the arity of the receiver and the number given. -/
def passCount (nargs : Int) (pargs : Option Nat) (depth : Nat) : Except ExceptionCode Nat :=
  if nargs < 0 then
    .ok (pargs.getD depth)
  else
    match pargs with
    | some pargs => if (pargs : Int) < nargs then .error .stackUnderflow else .ok pargs
    | none => .ok nargs.toNat

/-- The top of a stack moves to a continuation, whose arity decreases. -/
def moveTop (count : Nat) (stack : Stack) (cont : ContinuationData) :
    Except ExceptionCode (Stack × ContinuationData) :=
  if 0 ≤ cont.nargs ∧ cont.nargs < count then
    .error .stackOverflow
  else if stack.length < count then
    .error .stackUnderflow
  else
    .ok (stack.take (stack.length - count), { cont with
      nargs := if 0 ≤ cont.nargs then cont.nargs - count else cont.nargs
      stack := cont.stack ++ List.drop (stack.length - count) stack })

/-- What is left of a stack and the continuation after values were passed to it. -/
def passed (stack : Stack) (pargs : Option Nat) (cont : ContinuationData) :
    Except ExceptionCode (Stack × ContinuationData) := do
  let count ← passCount cont.nargs pargs stack.length
  moveTop count stack cont

/-- The continuation after values could not be passed to it: its arity may be lowered already. -/
def refused (stack : Stack) (pargs : Option Nat) (cont : ContinuationData) : ContinuationData :=
  match passCount cont.nargs pargs stack.length with
  | .ok count =>
    if 0 ≤ cont.nargs ∧ count ≤ cont.nargs then { cont with nargs := cont.nargs - count } else cont
  | .error _ => cont

/-- The price of moving values: splitting a stack and joining two. -/
def passPrice (count depth : Nat) (cont : ContinuationData) : Int :=
  if count = 0 then
    0
  else
    (if depth > count then Gas.stackPrice count else 0) +
      (if cont.stack.length ≠ 0 then Gas.stackPrice (count + cont.stack.length) else 0)

/-- The price that `pop_all` pays. -/
def popAllPrice (stack : Stack) (pargs : Option Nat) (cont : ContinuationData) : Int :=
  match passCount cont.nargs pargs stack.length with
  | .ok count => passPrice count stack.length cont
  | .error _ => 0

namespace Gas

omit [TonTypes]

theorem stackPrice_nonneg (depth : Nat) : 0 ≤ stackPrice depth := Int.natCast_nonneg _

theorem useGas_useGas (gas : Gas) (a b : Int) : (gas.useGas a).useGas b = gas.useGas (a + b) := by
  simp only [useGas, sub_sub]

@[simp]
theorem useGas_zero (gas : Gas) : gas.useGas 0 = gas := by
  simp only [useGas, sub_zero]

end Gas

theorem popAllPrice_nonneg (stack : Stack) (pargs : Option Nat) (cont : ContinuationData) :
    0 ≤ popAllPrice stack pargs cont := by
  have hprice := Gas.stackPrice_nonneg
  unfold popAllPrice passPrice
  split
  · rename_i count _
    have := hprice count
    have := hprice (count + cont.stack.length)
    split
    · exact le_rfl
    · split <;> split <;> omega
  · exact le_rfl

theorem dropRangeStraight_zero {stack : Stack} {count : Nat} (h : count ≤ stack.length) :
    Stack.dropRangeStraight 0 count stack =
      .ok (List.drop (stack.length - count) stack, stack.take (stack.length - count)) := by
  obtain ⟨bottom, block, top, rfl, htop, rfl⟩ := Stack.exists_block (Nat.zero_le count) h
  obtain rfl : top = [] := List.eq_nil_of_length_eq_zero htop.symm
  refine (Stack.dropRangeStraight_block bottom block []).trans ?_
  simp

namespace Engine

/-- An engine that has paid some gas. -/
def pay (e : Engine) (amount : Int) : Engine := { e with gas := e.gas.useGas amount }

theorem exec_tryUseGas_eq_ok {e t : Engine} {amount : Int}
    (h : exec (tryUseGas amount) e = (.ok (), t)) : amount ≤ e.gas.gasRemaining ∧ t = e.pay amount := by
  unfold tryUseGas useGas checkGasRemaining at h
  rw [exec_bind_modify, exec_bind_get] at h
  by_cases hgas : amount ≤ e.gas.gasRemaining
  · have hcheck : (e.gas.useGas amount).checkGasRemaining = .ok () := by
      unfold Gas.checkGasRemaining Gas.useGas
      rw [if_pos]
      dsimp only
      omega
    dsimp only at h
    rw [hcheck] at h
    cases h
    exact ⟨hgas, rfl⟩
  · have hcheck : ∃ err, (e.gas.useGas amount).checkGasRemaining = .error err := by
      unfold Gas.checkGasRemaining Gas.useGas
      rw [if_neg]
      · exact ⟨_, rfl⟩
      · dsimp only
        omega
    obtain ⟨err, herr⟩ := hcheck
    dsimp only at h
    rw [herr] at h
    cases h

theorem exec_tryUseGas {e : Engine} {amount : Int} (hgas : amount ≤ e.gas.gasRemaining) :
    exec (tryUseGas amount) e = (.ok (), e.pay amount) := by
  have hcheck : (e.gas.useGas amount).checkGasRemaining = .ok () := by
    unfold Gas.checkGasRemaining Gas.useGas
    rw [if_pos]
    dsimp only
    omega
  unfold tryUseGas useGas checkGasRemaining
  rw [exec_bind_modify, exec_bind_get, hcheck]
  rfl

/-- A continuation that receives values, and the gas, the stack and the given number of a state that
is a function of them. -/
structure Receiver (dst : Nat) (pargs : Option Nat)
    (state : Gas → ContinuationData → Stack → Engine) : Prop where
  cont : ∀ gas cont stack,
    exec (continuationByAddress dst) (state gas cont stack) = (.ok cont, state gas cont stack)
  setCont : ∀ gas cont stack cont',
    exec (setContinuationByAddress dst cont') (state gas cont stack) = (.ok (), state gas cont' stack)
  stack : ∀ gas cont stack, (state gas cont stack).cc.stack = stack
  setStack : ∀ gas cont stack stack',
    { state gas cont stack with cc.stack := stack' } = state gas cont stack'
  gas : ∀ gas cont stack, (state gas cont stack).gas = gas
  setGas : ∀ gas cont stack gas', { state gas cont stack with gas := gas' } = state gas' cont stack
  pargs : ∀ gas cont stack, pargsRaw (state gas cont stack).cmd = pargs

namespace Receiver

variable {dst : Nat} {pargs : Option Nat} {state : Gas → ContinuationData → Stack → Engine}
  {gas : Gas} {cont cont' : ContinuationData} {stack stack' : Stack}

theorem exec_tryUseGas (h : Receiver dst pargs state) {amount : Int}
    (hgas : amount ≤ gas.gasRemaining) :
    exec (tryUseGas amount) (state gas cont stack) =
      (.ok (), state (gas.useGas amount) cont stack) := by
  rw [Engine.exec_tryUseGas (by rwa [h.gas])]
  unfold pay
  rw [h.setGas, h.gas]

theorem exec_takeTop (h : Receiver dst pargs state) {count : Nat} (hcount : count ≤ stack.length)
    (peer : Stack) :
    exec (takeStack (Stack.moveRange 0 count peer)) (state gas cont stack) =
      (.ok (peer ++ List.drop (stack.length - count) stack),
        state gas cont (stack.take (stack.length - count))) := by
  unfold takeStack
  rw [exec_bind_get, h.stack, Stack.moveRange_eq, dropRangeStraight_zero hcount, Except.map, lift_ok,
    exec_bind_pure, exec_bind_modify, h.setStack]
  rfl

theorem exec_moveStackFromCc (h : Receiver dst pargs state) {count : Nat}
    (hmove : moveTop count stack cont = .ok (stack', cont')) :
    exec (moveStackFromCc dst 0 count) (state gas cont stack) = (.ok (), state gas cont' stack') := by
  unfold moveTop at hmove
  split at hmove
  · cases hmove
  · rename_i hnargs
    split at hmove
    · cases hmove
    · rename_i hcount
      cases hmove
      unfold moveStackFromCc
      rw [exec_bind_ok (h.cont _ _ _), Nat.sub_zero]
      by_cases hlimit : 0 ≤ cont.nargs
      · rw [if_pos hlimit, if_neg (by omega), exec_bind_pure, exec_bind_ok (h.setCont _ _ _ _),
          exec_bind_ok (h.exec_takeTop (by omega) _), h.setCont, if_pos hlimit]
      · rw [if_neg hlimit, exec_bind_pure, exec_bind_ok (h.setCont _ _ _ _),
          exec_bind_ok (h.exec_takeTop (by omega) _), h.setCont, if_neg hlimit]

theorem exec_moveStackFromCc_error (h : Receiver dst pargs state) {count : Nat}
    {code : ExceptionCode} (hmove : moveTop count stack cont = .error code) :
    exec (moveStackFromCc dst 0 count) (state gas cont stack) =
      (.error (.exception (.fromCode code)), state gas (if 0 ≤ cont.nargs ∧ count ≤ cont.nargs then
        { cont with nargs := cont.nargs - count } else cont) stack) := by
  unfold moveStackFromCc
  rw [exec_bind_ok (h.cont _ _ _), Nat.sub_zero]
  unfold moveTop at hmove
  split at hmove
  · rename_i hnargs
    cases hmove
    rw [if_pos hnargs.1, if_pos hnargs.2, if_neg (by omega)]
    rfl
  · split at hmove
    · rename_i hnargs hcount
      cases hmove
      have htake (cont : ContinuationData) (peer : Stack) :
          exec (takeStack (Stack.moveRange 0 count peer)) (state gas cont stack) =
            (.error (.exception (.fromCode .stackUnderflow)), state gas cont stack) := by
        unfold takeStack
        rw [exec_bind_get, h.stack, Stack.moveRange_eq,
          Stack.dropRangeStraight_of_lt (by omega) hcount]
        rfl
      by_cases hlimit : 0 ≤ cont.nargs
      · rw [if_pos hlimit, if_neg (by omega), exec_bind_pure, exec_bind_ok (h.setCont _ _ _ _),
          exec_bind_error (htake _ _), if_pos (by omega)]
      · rw [if_neg hlimit, exec_bind_pure, exec_bind_ok (h.setCont _ _ _ _),
          exec_bind_error (htake _ _), if_neg (by omega)]
    · cases hmove

/-- `pop_range` pays and then moves. -/
theorem exec_popRange (h : Receiver dst pargs state) {count : Nat} (hcount : count ≠ 0)
    (hgas : passPrice count stack.length cont ≤ gas.gasRemaining) :
    exec (popRange 0 count dst) (state gas cont stack) =
      exec (moveStackFromCc dst 0 count)
        (state (gas.useGas (passPrice count stack.length cont)) cont stack) := by
  have hprice := Gas.stackPrice_nonneg (count + cont.stack.length)
  -- joining the stacks, once the price of splitting is paid
  have hjoin (gas : Gas) (hgas : (if cont.stack.length ≠ 0 then
      Gas.stackPrice (count + cont.stack.length) else 0) ≤ gas.gasRemaining) :
      exec (joinStacks dst 0 count) (state gas cont stack) =
      exec (moveStackFromCc dst 0 count) (state (gas.useGas (if cont.stack.length ≠ 0 then
        Gas.stackPrice (count + cont.stack.length) else 0)) cont stack) := by
    rw [exec_bind_ok (h.cont _ _ _), Nat.sub_zero]
    by_cases hdepth : cont.stack.length ≠ 0
    · rw [if_pos hdepth] at hgas ⊢
      rw [if_pos ⟨hdepth, hcount⟩, exec_bind_ok (h.exec_tryUseGas hgas)]
    · rw [if_neg hdepth, if_neg (fun h => hdepth h.1), Gas.useGas_zero]
  unfold popRange
  unfold passPrice at hgas ⊢
  rw [if_neg hcount] at hgas ⊢
  rw [exec_bind_get, h.stack, Nat.sub_zero]
  by_cases hsplit : stack.length > count
  · rw [if_pos hsplit] at hgas ⊢
    have hfirst : Gas.stackPrice count ≤ gas.gasRemaining := by
      split at hgas <;> omega
    rw [if_pos hsplit, exec_bind_ok (h.exec_tryUseGas hfirst), ← Gas.useGas_useGas]
    refine hjoin _ ?_
    unfold Gas.useGas
    dsimp only
    omega
  · rw [if_neg hsplit, zero_add] at hgas
    rw [if_neg hsplit, if_neg hsplit, zero_add]
    exact hjoin _ hgas

theorem moveTop_zero : moveTop 0 stack cont = .ok (stack, cont) := by
  unfold moveTop
  rw [if_neg (by omega), if_neg (by omega)]
  simp only [Nat.cast_zero, sub_zero, ite_self, Nat.sub_zero, List.take_length, List.drop_length,
    List.append_nil]

/-- The choice of the number of values in `pop_all`, and what follows it. -/
theorem exec_popAll_eq (h : Receiver dst pargs state) :
    exec (popAll dst) (state gas cont stack) =
      match passCount cont.nargs pargs stack.length with
      | .ok count => exec (if count > 0 then popRange 0 count dst else pure ()) (state gas cont stack)
      | .error code => (.error (.exception (.fromCode code)), state gas cont stack) := by
  unfold popAll passCount
  rw [exec_bind_ok (h.cont _ _ _), exec_bind_get, exec_bind_get, h.stack, h.pargs]
  by_cases hnargs : cont.nargs < 0
  · rw [if_pos hnargs, if_pos hnargs, exec_bind_pure]
  · rw [if_neg hnargs, if_neg hnargs]
    cases pargs with
    | none => rfl
    | some count =>
      dsimp only
      split <;> rfl

theorem exec_popAll_of_count (h : Receiver dst pargs state) {count : Nat}
    (hcount : passCount cont.nargs pargs stack.length = .ok count)
    (hgas : popAllPrice stack pargs cont ≤ gas.gasRemaining) :
    exec (popAll dst) (state gas cont stack) =
      exec (moveStackFromCc dst 0 count)
        (state (gas.useGas (popAllPrice stack pargs cont)) cont stack) := by
  rw [h.exec_popAll_eq]
  unfold popAllPrice at hgas ⊢
  rw [hcount] at hgas ⊢
  dsimp only at hgas ⊢
  by_cases hzero : count = 0
  · subst hzero
    unfold passPrice
    rw [h.exec_moveStackFromCc moveTop_zero, if_pos rfl, Gas.useGas_zero, if_neg (by omega)]
    rfl
  · rw [if_pos (Nat.pos_of_ne_zero hzero)]
    exact h.exec_popRange hzero hgas

/-- `pop_all` when the gas covers its price. -/
theorem exec_popAll (h : Receiver dst pargs state)
    (hpassed : passed stack pargs cont = .ok (stack', cont'))
    (hgas : popAllPrice stack pargs cont ≤ gas.gasRemaining) :
    exec (popAll dst) (state gas cont stack) =
      (.ok (), state (gas.useGas (popAllPrice stack pargs cont)) cont' stack') := by
  unfold passed at hpassed
  cases hcount : passCount cont.nargs pargs stack.length with
  | error code =>
    rw [hcount] at hpassed
    cases hpassed
  | ok count =>
    rw [hcount] at hpassed
    rw [h.exec_popAll_of_count hcount hgas]
    exact h.exec_moveStackFromCc hpassed

theorem exec_popAll_error (h : Receiver dst pargs state) {code : ExceptionCode}
    (hpassed : passed stack pargs cont = .error code)
    (hgas : popAllPrice stack pargs cont ≤ gas.gasRemaining) :
    exec (popAll dst) (state gas cont stack) = (.error (.exception (.fromCode code)),
      state (gas.useGas (popAllPrice stack pargs cont)) (refused stack pargs cont) stack) := by
  unfold passed at hpassed
  cases hcount : passCount cont.nargs pargs stack.length with
  | error code' =>
    rw [hcount] at hpassed
    cases hpassed
    rw [h.exec_popAll_eq, hcount]
    unfold popAllPrice refused
    rw [hcount]
    dsimp only
    rw [Gas.useGas_zero]
  | ok count =>
    rw [hcount] at hpassed
    rw [h.exec_popAll_of_count hcount hgas]
    unfold refused
    rw [hcount]
    exact h.exec_moveStackFromCc_error hpassed

/-! ### Inversion -/

theorem tryUseGas_eq_ok (h : Receiver dst pargs state) {amount : Int} {t : Engine}
    (hok : exec (tryUseGas amount) (state gas cont stack) = (.ok (), t)) :
    t = state (gas.useGas amount) cont stack := by
  obtain ⟨-, rfl⟩ := exec_tryUseGas_eq_ok hok
  unfold pay
  rw [h.setGas, h.gas]

theorem popRange_eq_ok (h : Receiver dst pargs state) {count : Nat} (hcount : count ≠ 0) {t : Engine}
    (hok : exec (popRange 0 count dst) (state gas cont stack) = (.ok (), t)) :
    exec (moveStackFromCc dst 0 count)
      (state (gas.useGas (passPrice count stack.length cont)) cont stack) = (.ok (), t) := by
  -- joining the stacks, once the price of splitting is paid
  have hjoin (gas : Gas) (hok : exec (joinStacks dst 0 count) (state gas cont stack) = (.ok (), t)) :
      exec (moveStackFromCc dst 0 count) (state (gas.useGas (if cont.stack.length ≠ 0 then
        Gas.stackPrice (count + cont.stack.length) else 0)) cont stack) = (.ok (), t) := by
    rw [exec_bind_ok (h.cont _ _ _), Nat.sub_zero] at hok
    by_cases hdepth : cont.stack.length ≠ 0
    · rw [if_pos ⟨hdepth, hcount⟩] at hok
      obtain ⟨_, _, hpay, hmove⟩ := exec_bind_eq_ok hok
      rw [if_pos hdepth]
      rwa [h.tryUseGas_eq_ok hpay] at hmove
    · rw [if_neg (fun h => hdepth h.1)] at hok
      rwa [if_neg hdepth, Gas.useGas_zero]
  unfold popRange at hok
  rw [exec_bind_get, h.stack, Nat.sub_zero] at hok
  unfold passPrice
  rw [if_neg hcount]
  by_cases hsplit : stack.length > count
  · rw [if_pos hsplit] at hok ⊢
    obtain ⟨_, _, hpay, hrest⟩ := exec_bind_eq_ok hok
    rw [h.tryUseGas_eq_ok hpay] at hrest
    rw [← Gas.useGas_useGas]
    exact hjoin _ hrest
  · rw [if_neg hsplit] at hok ⊢
    rw [zero_add]
    exact hjoin _ hok

/-- A `pop_all` that succeeds has passed the values. -/
theorem popAll_eq_ok (h : Receiver dst pargs state) {t : Engine}
    (hok : exec (popAll dst) (state gas cont stack) = (.ok (), t)) :
    ∃ stack' cont', passed stack pargs cont = .ok (stack', cont') ∧
      t = state (gas.useGas (popAllPrice stack pargs cont)) cont' stack' := by
  rw [h.exec_popAll_eq] at hok
  unfold passed popAllPrice
  cases hcount : passCount cont.nargs pargs stack.length with
  | error code =>
    rw [hcount] at hok
    cases hok
  | ok count =>
    rw [hcount] at hok
    dsimp only at hok ⊢
    by_cases hzero : count = 0
    · subst hzero
      rw [if_neg (by omega)] at hok
      cases hok
      unfold passPrice
      rw [if_pos rfl, Gas.useGas_zero]
      exact ⟨stack, cont, moveTop_zero, rfl⟩
    · rw [if_pos (Nat.pos_of_ne_zero hzero)] at hok
      have hmove := h.popRange_eq_ok hzero hok
      cases hmoved : moveTop count stack cont with
      | error code =>
        rw [h.exec_moveStackFromCc_error hmoved] at hmove
        cases hmove
      | ok result =>
        rw [h.exec_moveStackFromCc hmoved] at hmove
        cases hmove
        exact ⟨_, _, hmoved, rfl⟩

end Receiver

section Transfers

variable {e : Engine} {cc cont cont' : ContinuationData} {ctrls : SaveList} {vars : List StackItem}
  {stack' : Stack} {i k : Nat}

theorem receiver_var (e : Engine) (cc : ContinuationData) (ctrls : SaveList) (hk : k < 16)
    (hlt : k < vars.length) :
    Receiver (Addr.var k) (pargsRaw e.cmd) fun gas cont stack =>
      { e with gas }.holding { cc with stack } ctrls (vars.set k (.continuation cont)) where
  cont gas cont stack := by
    simp only [continuationByAddress, place_var hk, storageIndex_var hk]
    rw [exec_bind_ok (exec_var _ (List.getElem?_set_self hlt))]
    rfl
  setCont gas cont stack cont' := by
    simp only [setContinuationByAddress, place_var hk, storageIndex_var hk]
    rw [exec_setVar _ (by rwa [holding_vars, List.length_set])]
    simp only [holding_vars, List.set_set]
    rfl
  stack _ _ _ := rfl
  setStack _ _ _ _ := rfl
  gas _ _ _ := rfl
  setGas _ _ _ _ := rfl
  pargs _ _ _ := rfl

theorem receiver_ctrl (e : Engine) (cc : ContinuationData) (ctrls : SaveList)
    (vars : List StackItem) (hi : i ∈ SaveListOf.regs) :
    Receiver (Addr.ctrl i) (pargsRaw e.cmd) fun gas cont stack =>
      { e with gas }.holding { cc with stack } (ctrls.setOpt i (some (.continuation cont))) vars where
  cont gas cont stack := by
    have hi16 : i < 16 := (lt_of_mem_regs hi).trans (by decide)
    simp only [continuationByAddress, place_ctrl hi16, storageIndex_ctrl hi16, exec_bind_get,
      holding_ctrls, SaveListOf.get_setOpt _ hi]
    rfl
  setCont gas cont stack cont' := by
    have hi16 : i < 16 := (lt_of_mem_regs hi).trans (by decide)
    simp only [setContinuationByAddress, place_ctrl hi16, storageIndex_ctrl hi16, setCtrl,
      exec_modify, SaveListOf.putOpt_eq, holding_ctrls, SaveListOf.setOpt_setOpt _ hi]
    rfl
  stack _ _ _ := rfl
  setStack _ _ _ _ := rfl
  gas _ _ _ := rfl
  setGas _ _ _ _ := rfl
  pargs _ _ _ := rfl

/-! ### Jumps, once the stack is passed -/

section Switch

variable {e' s : Engine} {cc' : ContinuationData}

theorem exec_switch_var_of_popAll (hk : k < 16) (hlt : k < vars.length)
    (hpop : exec (popAll (Addr.var k)) s =
      (.ok (), e'.holding cc' ctrls (vars.set k (.continuation cont')))) :
    exec (switch (Addr.var k)) s =
      (.ok (), e'.holding { cont' with savelist := {} } (ctrls.apply cont'.savelist)
        (vars.set k (.continuation cc'))) := by
  have hne (i : Nat) (hi : i < 16) : Addr.var k ≠ Addr.ctrl i := by
    intro h
    have := addressTag_var hk
    rw [h, addressTag_ctrl hi] at this
    cases this
  unfold switch
  rw [exec_bind_ok hpop, swap_comm (by rw [addressTag_var hk, addressTag_cc]; decide),
    exec_bind_ok (exec_swap_cc_var hk (List.getElem?_set_self hlt)), List.set_set, exec_bind_get]
  simp only [hne 0 (by decide), hne 1 (by decide), decide_false, Bool.false_and]
  rfl

/-- A return to c0: the register then holds what the continuation had saved, or nothing. -/
theorem exec_switch_c0_of_popAll
    (hpop : exec (popAll (Addr.ctrl 0)) s =
      (.ok (), e'.holding cc' (ctrls.setOpt 0 (some (.continuation cont'))) vars)) :
    exec (switch (Addr.ctrl 0)) s =
      (.ok (), e'.holding { cont' with savelist := {} } ((ctrls.remove 0).apply cont'.savelist)
        vars) := by
  unfold switch
  rw [exec_bind_ok hpop, swap_comm (by rw [addressTag_ctrl (by decide), addressTag_cc]; decide),
    exec_bind_ok (exec_swap_cc_ctrl (by decide) rfl), exec_bind_get, holding_cc]
  rcases cont' with ⟨code, nargs, ⟨_ | saved, _, _, _, _, _, _⟩, stack, typeOf⟩ <;> rfl

/-- The implicit return does what the explicit one does. -/
theorem exec_switchToC0_of_popAll
    (hpop : exec (popAll (Addr.ctrl 0)) s =
      (.ok (), e'.holding cc' (ctrls.setOpt 0 (some (.continuation cont'))) vars)) :
    exec switchToC0 s =
      (.ok (), e'.holding { cont' with savelist := {} } ((ctrls.remove 0).apply cont'.savelist)
        vars) := by
  unfold switchToC0
  rw [exec_bind_ok hpop, exec_bind_get, holding_ctrls]
  rcases cont' with ⟨code, nargs, ⟨_ | saved, _, _, _, _, _, _⟩, stack, typeOf⟩ <;> rfl

/-- A return to c1: without a saved value the register gets the exit with code 1. -/
theorem exec_switch_c1_of_popAll
    (hpop : exec (popAll (Addr.ctrl 1)) s =
      (.ok (), e'.holding cc' (ctrls.setOpt 1 (some (.continuation cont'))) vars)) :
    exec (switch (Addr.ctrl 1)) s =
      (.ok (), e'.holding { cont' with savelist := {} }
        ((ctrls.putOpt 1 (.continuation (.withType (.quit 1)))).apply cont'.savelist) vars) := by
  unfold switch
  rw [exec_bind_ok hpop, swap_comm (by rw [addressTag_ctrl (by decide), addressTag_cc]; decide),
    exec_bind_ok (exec_swap_cc_ctrl (by decide) rfl), exec_bind_get, holding_cc]
  rcases cont' with ⟨code, nargs, ⟨_, _ | saved, _, _, _, _, _⟩, stack, typeOf⟩ <;> rfl

/-- A jump to a register that is not used up: the current continuation takes its place. -/
theorem exec_switch_c2_of_popAll
    (hpop : exec (popAll (Addr.ctrl 2)) s =
      (.ok (), e'.holding cc' (ctrls.setOpt 2 (some (.continuation cont'))) vars)) :
    exec (switch (Addr.ctrl 2)) s =
      (.ok (), e'.holding { cont' with savelist := {} }
        ((ctrls.putOpt 2 (.continuation cc')).apply cont'.savelist) vars) := by
  unfold switch
  rw [exec_bind_ok hpop, swap_comm (by rw [addressTag_ctrl (by decide), addressTag_cc]; decide),
    exec_bind_ok (exec_swap_cc_ctrl (by decide) rfl), exec_bind_get]
  rfl

end Switch

section PopAll

variable (hpassed : passed cc.stack (pargsRaw e.cmd) cont = .ok (stack', cont'))
  (hgas : popAllPrice cc.stack (pargsRaw e.cmd) cont ≤ e.gas.gasRemaining)

include hpassed hgas

theorem exec_popAll_var (hk : k < 16) (hvar : vars[k]? = some (.continuation cont)) :
    exec (popAll (Addr.var k)) (e.holding cc ctrls vars) =
      (.ok (), (e.pay (popAllPrice cc.stack (pargsRaw e.cmd) cont)).holding
        { cc with stack := stack' } ctrls (vars.set k (.continuation cont'))) := by
  have hlt := (List.getElem?_eq_some_iff.1 hvar).1
  have := (receiver_var e cc ctrls hk hlt).exec_popAll hpassed hgas
  rwa [set_of_getElem? hvar] at this

theorem exec_popAll_ctrl (hi : i ∈ SaveListOf.regs)
    (hctrl : ctrls.get i = some (.continuation cont)) :
    exec (popAll (Addr.ctrl i)) (e.holding cc ctrls vars) =
      (.ok (), (e.pay (popAllPrice cc.stack (pargsRaw e.cmd) cont)).holding
        { cc with stack := stack' } (ctrls.setOpt i (some (.continuation cont'))) vars) := by
  have := (receiver_ctrl e cc ctrls vars hi).exec_popAll hpassed hgas
  rwa [← hctrl, SaveListOf.setOpt_get _ hi] at this

/-- A jump to a continuation in a variable. -/
theorem exec_switch_var (hk : k < 16) (hvar : vars[k]? = some (.continuation cont)) :
    exec (switch (Addr.var k)) (e.holding cc ctrls vars) =
      (.ok (), (e.pay (popAllPrice cc.stack (pargsRaw e.cmd) cont)).holding
        { cont' with savelist := {} } (ctrls.apply cont'.savelist)
        (vars.set k (.continuation { cc with stack := stack' }))) :=
  exec_switch_var_of_popAll hk (List.getElem?_eq_some_iff.1 hvar).1
    (exec_popAll_var hpassed hgas hk hvar)

/-- A jump by `jmpx`: the saved c0 and c1 of the continuation are not restored. -/
theorem exec_jmpx (hvar : vars[0]? = some (.continuation cont)) :
    exec (jmpx false) (e.holding cc ctrls vars) =
      (.ok (), (e.pay (popAllPrice cc.stack (pargsRaw e.cmd) cont)).holding
        { cont' with savelist := {} } (ctrls.apply ((cont'.savelist.remove 0).remove 1))
        (vars.set 0 (.continuation { cc with stack := stack' }))) := by
  have hlt := (List.getElem?_eq_some_iff.1 hvar).1
  unfold jmpx
  rw [if_neg Bool.false_ne_true, exec_bind_ok (exec_popAll_var hpassed hgas (by decide) hvar),
    swap_comm (by rw [addressTag_var (by decide), addressTag_cc]; decide),
    exec_bind_ok (exec_swap_cc_var (by decide) (List.getElem?_set_self hlt)), List.set_set]
  rfl

theorem exec_switch_c0 (hctrl : ctrls.get 0 = some (.continuation cont)) :
    exec (switch (Addr.ctrl 0)) (e.holding cc ctrls vars) =
      (.ok (), (e.pay (popAllPrice cc.stack (pargsRaw e.cmd) cont)).holding
        { cont' with savelist := {} } ((ctrls.remove 0).apply cont'.savelist) vars) :=
  exec_switch_c0_of_popAll (exec_popAll_ctrl hpassed hgas (by decide) hctrl)

theorem exec_switchToC0 (hctrl : ctrls.get 0 = some (.continuation cont)) :
    exec switchToC0 (e.holding cc ctrls vars) =
      (.ok (), (e.pay (popAllPrice cc.stack (pargsRaw e.cmd) cont)).holding
        { cont' with savelist := {} } ((ctrls.remove 0).apply cont'.savelist) vars) :=
  exec_switchToC0_of_popAll (exec_popAll_ctrl hpassed hgas (by decide) hctrl)

theorem exec_switch_c2 (hctrl : ctrls.get 2 = some (.continuation cont)) :
    exec (switch (Addr.ctrl 2)) (e.holding cc ctrls vars) =
      (.ok (), (e.pay (popAllPrice cc.stack (pargsRaw e.cmd) cont)).holding
        { cont' with savelist := {} }
        ((ctrls.putOpt 2 (.continuation { cc with stack := stack' })).apply cont'.savelist) vars) :=
  exec_switch_c2_of_popAll (exec_popAll_ctrl hpassed hgas (by decide) hctrl)

end PopAll

/-! ### Jumps that succeeded -/

section Inversion

variable {s : Engine}

theorem popAll_ctrl_eq_ok (hi : i ∈ SaveListOf.regs) (hctrl : ctrls.get i = some (.continuation cont))
    (h : exec (popAll (Addr.ctrl i)) (e.holding cc ctrls vars) = (.ok (), s)) :
    ∃ stack' cont', passed cc.stack (pargsRaw e.cmd) cont = .ok (stack', cont') ∧
      s = (e.pay (popAllPrice cc.stack (pargsRaw e.cmd) cont)).holding { cc with stack := stack' }
        (ctrls.setOpt i (some (.continuation cont'))) vars := by
  have hstart : ctrls.setOpt i (some (.continuation cont)) = ctrls := by
    rw [← hctrl, SaveListOf.setOpt_get _ hi]
  rw [← hstart] at h
  exact (receiver_ctrl e cc ctrls vars hi).popAll_eq_ok h

theorem switch_c0_eq_ok (hctrl : ctrls.get 0 = some (.continuation cont))
    (h : exec (switch (Addr.ctrl 0)) (e.holding cc ctrls vars) = (.ok (), s)) :
    ∃ stack' cont', passed cc.stack (pargsRaw e.cmd) cont = .ok (stack', cont') ∧
      s = (e.pay (popAllPrice cc.stack (pargsRaw e.cmd) cont)).holding
        { cont' with savelist := {} } ((ctrls.remove 0).apply cont'.savelist) vars := by
  obtain ⟨_, t, hpop, -⟩ := exec_bind_eq_ok h
  obtain ⟨stack', cont', hpassed, rfl⟩ := popAll_ctrl_eq_ok (by decide) hctrl hpop
  rw [exec_switch_c0_of_popAll hpop] at h
  cases h
  exact ⟨stack', cont', hpassed, rfl⟩

theorem switchToC0_eq_ok (hctrl : ctrls.get 0 = some (.continuation cont))
    (h : exec switchToC0 (e.holding cc ctrls vars) = (.ok (), s)) :
    ∃ stack' cont', passed cc.stack (pargsRaw e.cmd) cont = .ok (stack', cont') ∧
      s = (e.pay (popAllPrice cc.stack (pargsRaw e.cmd) cont)).holding
        { cont' with savelist := {} } ((ctrls.remove 0).apply cont'.savelist) vars := by
  obtain ⟨_, t, hpop, -⟩ := exec_bind_eq_ok h
  obtain ⟨stack', cont', hpassed, rfl⟩ := popAll_ctrl_eq_ok (by decide) hctrl hpop
  rw [exec_switchToC0_of_popAll hpop] at h
  cases h
  exact ⟨stack', cont', hpassed, rfl⟩

end Inversion

section Refused

variable {code : ExceptionCode} (hpassed : passed cc.stack (pargsRaw e.cmd) cont = .error code)
  (hgas : popAllPrice cc.stack (pargsRaw e.cmd) cont ≤ e.gas.gasRemaining)

include hpassed hgas

theorem exec_popAll_var_error (hk : k < 16) (hvar : vars[k]? = some (.continuation cont)) :
    exec (popAll (Addr.var k)) (e.holding cc ctrls vars) =
      (.error (.exception (.fromCode code)),
        (e.pay (popAllPrice cc.stack (pargsRaw e.cmd) cont)).holding cc ctrls
          (vars.set k (.continuation (refused cc.stack (pargsRaw e.cmd) cont)))) := by
  have hlt := (List.getElem?_eq_some_iff.1 hvar).1
  have := (receiver_var e cc ctrls hk hlt).exec_popAll_error hpassed hgas
  rwa [set_of_getElem? hvar] at this

theorem exec_popAll_ctrl_error (hi : i ∈ SaveListOf.regs)
    (hctrl : ctrls.get i = some (.continuation cont)) :
    exec (popAll (Addr.ctrl i)) (e.holding cc ctrls vars) =
      (.error (.exception (.fromCode code)),
        (e.pay (popAllPrice cc.stack (pargsRaw e.cmd) cont)).holding cc (ctrls.setOpt i
          (some (.continuation (refused cc.stack (pargsRaw e.cmd) cont)))) vars) := by
  have := (receiver_ctrl e cc ctrls vars hi).exec_popAll_error hpassed hgas
  rwa [← hctrl, SaveListOf.setOpt_get _ hi] at this

end Refused

/-! ### Calls -/

/-- The limit on the values that a callee returns. -/
def returnNargs (cmd : InstructionExt) : Int :=
  match nargsRaw cmd, rargsRaw cmd with
  | some nargs, _ => nargs
  | none, some rargs => rargs
  | none, none => -1

theorem exec_fetchStack (items : Stack) {stack : Stack} (hstack : cc.stack = stack ++ items) :
    exec (fetchStack items.length) (e.holding cc ctrls vars) =
      (.ok (), e.holding { cc with stack } ctrls (vars ++ items.reverse)) := by
  have hdrop : Stack.dropRange 0 items.length cc.stack = .ok (items.reverse, stack) := by
    unfold Stack.dropRange Stack.depth
    rw [hstack]
    by_cases hitems : 0 ≥ items.length
    · have : items = [] := List.length_eq_zero_iff.1 (by omega)
      simp [this]
    · rw [if_neg hitems, if_neg (by rw [List.length_append]; omega)]
      simp
  unfold fetchStack takeStack
  rw [exec_bind_get, holding_cc, if_neg (by rw [hstack, List.length_append]; omega), exec_bind,
    exec_bind_get, holding_cc, hdrop]
  rfl

theorem exec_setReturnNargs {c : ContinuationData} (hctrl : ctrls.get 0 = some (.continuation c)) :
    exec setReturnNargs (e.holding cc ctrls vars) = (.ok (), e.holding cc
      (ctrls.setOpt 0 (some (.continuation { c with nargs := returnNargs e.cmd }))) vars) := by
  have hset (nargs : Int) : exec (setNargsByAddress (Addr.ctrl 0) nargs) (e.holding cc ctrls vars) =
      (.ok (), e.holding cc (ctrls.setOpt 0 (some (.continuation { c with nargs }))) vars) := by
    have hcont : exec (continuationByAddress (Addr.ctrl 0)) (e.holding cc ctrls vars) =
        (.ok c, e.holding cc ctrls vars) := by
      simp only [continuationByAddress, place_ctrl, storageIndex_ctrl, Nat.ofNat_pos, exec_bind_get,
        holding_ctrls, hctrl]
      rfl
    unfold setNargsByAddress
    rw [exec_bind_ok hcont]
    rfl
  have hnargs : nargsRaw (e.holding cc ctrls vars).cmd = nargsRaw e.cmd := rfl
  have hrargs : rargsRaw (e.holding cc ctrls vars).cmd = rargsRaw e.cmd := rfl
  unfold setReturnNargs
  rw [exec_bind_get, exec_bind_get, hnargs, hrargs]
  unfold returnNargs
  cases nargsRaw e.cmd <;> cases rargsRaw e.cmd <;> exact hset _

/-- Passing values changes the arity and the stack of the receiver only. -/
theorem passed_frame {stack : Stack} {pargs : Option Nat}
    (h : passed stack pargs cont = .ok (stack', cont')) :
    cont' = { cont with nargs := cont'.nargs, stack := cont'.stack } := by
  unfold passed at h
  cases hcount : passCount cont.nargs pargs stack.length with
  | error code =>
    rw [hcount] at h
    cases h
  | ok count =>
    rw [hcount] at h
    change moveTop count stack cont = _ at h
    unfold moveTop at h
    split at h
    · cases h
    · split at h
      · cases h
      · cases h
        rfl

theorem passed_savelist {stack : Stack} {pargs : Option Nat}
    (h : passed stack pargs cont = .ok (stack', cont')) : cont'.savelist = cont.savelist :=
  congrArg (·.savelist) (passed_frame h)

theorem passed_code {stack : Stack} {pargs : Option Nat}
    (h : passed stack pargs cont = .ok (stack', cont')) : cont'.code = cont.code :=
  congrArg (·.code) (passed_frame h)

/-! ### Passing without a number -/

section Whole

variable {stack : Stack}

theorem passed_whole (stack : Stack) (hnargs : cont.nargs = -1) :
    passed stack none cont = .ok ([], { cont with stack := cont.stack ++ stack }) := by
  unfold passed passCount moveTop
  simp [hnargs, bind, Except.bind]

theorem popAllPrice_whole (stack : Stack) (hnargs : cont.nargs = -1) (hcaptured : cont.stack = []) :
    popAllPrice stack none cont = 0 := by
  unfold popAllPrice passCount passPrice
  simp [hnargs, hcaptured]

/-- Without a number, passing fails only when the receiver asks for more than there is. -/
theorem passed_of_le (h : cont.nargs ≤ stack.length) : ∃ r, passed stack none cont = .ok r := by
  by_cases hnargs : cont.nargs < 0
  · exact ⟨_, by
      unfold passed passCount moveTop
      rw [if_pos hnargs]
      dsimp only [bind, Except.bind, Option.getD_none]
      rw [if_neg (by omega), if_neg (by omega)]⟩
  · exact ⟨_, by
      unfold passed passCount moveTop
      rw [if_neg hnargs]
      dsimp only [bind, Except.bind]
      rw [if_neg (by omega), if_neg (by omega)]⟩

theorem passed_of_lt (h : stack.length < cont.nargs) :
    passed stack none cont = .error .stackUnderflow := by
  unfold passed passCount moveTop
  rw [if_neg (by omega)]
  dsimp only [bind, Except.bind]
  rw [if_neg (by omega), if_pos (by omega)]

end Whole

section Callx

variable (hpassed : passed cc.stack (pargsRaw e.cmd) cont = .ok (stack', cont'))
  (hgas : popAllPrice cc.stack (pargsRaw e.cmd) cont ≤ e.gas.gasRemaining)

theorem exec_callx_of_lt {k : Nat} (h : k < vars.length) :
    exec (callx k false) (e.holding cc ctrls vars) = exec (enterCallee k) (e.holding cc ctrls vars) := by
  unfold callx
  rw [exec_bind_get, if_neg (by simp only [varCount, holding_vars]; omega),
    if_neg (by simp only [varCount, holding_vars]; omega), if_neg Bool.false_ne_true]

include hpassed hgas

/-- A call of a continuation without a c0 of its own: c0 becomes the rest of the current continuation,
with the c0 of the caller in its save list. -/
theorem exec_callx (hk : k < 16) (hvar : vars[k]? = some (.continuation cont))
    (hsaved : cont.savelist.get 0 = none) (hctrl : Fits 0 (ctrls.get 0))
    (hcc : Fits 0 (cc.savelist.get 0)) :
    exec (callx k false) (e.holding cc ctrls vars) =
      (.ok (), (e.pay (popAllPrice cc.stack (pargsRaw e.cmd) cont)).holding
        { cont' with savelist := {} }
        ((ctrls.apply cont.savelist).setOpt 0 (some (.continuation { cc with
          stack := stack'
          savelist := cc.savelist.setOpt 0 (ctrls.get 0)
          nargs := returnNargs e.cmd })))
        (vars.set k ((cc.savelist.get 0).getD .none))) := by
  have hlt := (List.getElem?_eq_some_iff.1 hvar).1
  have hsavelist := passed_savelist hpassed
  have hcc' : Fits 0 (({ cc with stack := stack' } : ContinuationData).savelist.get 0) := hcc
  rw [exec_callx_of_lt hlt]
  unfold enterCallee
  rw [exec_bind_ok (exec_popAll_var hpassed hgas hk hvar),
    exec_bind_ok (exec_var _ (List.getElem?_set_self hlt))]
  dsimp only [StackItem.asContinuation]
  rw [lift_ok, exec_bind_pure, hsavelist, hsaved, Option.isSome_none, if_neg Bool.false_ne_true]
  rw [exec_bind_ok (exec_swap_ctrl_ccSavelist (by decide) hctrl hcc'),
    swap_comm (by rw [addressTag_var hk, addressTag_cc]; decide),
    exec_bind_ok (exec_swap_cc_var hk (List.getElem?_set_self hlt)), List.set_set,
    swap_comm (by rw [addressTag_var hk, addressTag_ctrl (by decide)]; decide),
    exec_bind_ok ((exec_swap_ctrl_var (by decide) hk (List.getElem?_set_self hlt)).trans
      (swapOutcome_put rfl rfl)), List.set_set]
  unfold applySavelist
  rw [exec_bind_modify]
  refine (exec_setReturnNargs (e := e.pay _) (c := { cc with
    stack := stack'
    savelist := cc.savelist.setOpt 0 (ctrls.get 0) }) ?_).trans ?_
  · simp only [SaveListOf.apply, SaveListOf.get_zero] at hsaved ⊢
    rw [holding_cc, hsavelist, hsaved]
    rfl
  · rw [holding_cc, hsavelist]
    rfl

/-- A call of a continuation that has a c0 of its own. -/
theorem exec_callx_of_saved {saved : ContinuationData} (hk : k < 16)
    (hvar : vars[k]? = some (.continuation cont))
    (hsaved : cont.savelist.get 0 = some (.continuation saved)) :
    exec (callx k false) (e.holding cc ctrls vars) =
      (.ok (), (e.pay (popAllPrice cc.stack (pargsRaw e.cmd) cont)).holding
        { cont' with savelist := {} }
        ((ctrls.apply cont.savelist).setOpt 0 (some (.continuation { saved with
          nargs := returnNargs e.cmd })))
        (vars.set k (.continuation { cc with stack := stack' }))) := by
  have hlt := (List.getElem?_eq_some_iff.1 hvar).1
  have hsavelist := passed_savelist hpassed
  rw [exec_callx_of_lt hlt]
  unfold enterCallee
  rw [exec_bind_ok (exec_popAll_var hpassed hgas hk hvar),
    exec_bind_ok (exec_var _ (List.getElem?_set_self hlt))]
  dsimp only [StackItem.asContinuation]
  rw [lift_ok, exec_bind_pure, hsavelist, hsaved, Option.isSome_some, if_pos rfl,
    swap_comm (by rw [addressTag_var hk, addressTag_cc]; decide),
    exec_bind_ok (exec_swap_cc_var hk (List.getElem?_set_self hlt)), List.set_set]
  unfold applySavelist
  rw [exec_bind_modify]
  refine (exec_setReturnNargs (e := e.pay _) (c := saved) ?_).trans ?_
  · simp only [SaveListOf.apply, SaveListOf.get_zero] at hsaved ⊢
    rw [holding_cc, hsavelist, hsaved]
    rfl
  · rw [holding_cc, hsavelist]
    rfl

end Callx

/-- With no variables yet, a call takes the callee from the stack. -/
theorem exec_callx_fetch {stack : Stack} {item : StackItem} (hstack : cc.stack = stack ++ [item]) :
    exec (callx 0 false) (e.holding cc ctrls []) =
      exec (callx 0 false) (e.holding { cc with stack } ctrls [item]) := by
  unfold callx
  rw [exec_bind_get, exec_bind_get]
  simp only [varCount, holding_vars, List.length_nil, List.length_singleton, lt_irrefl, if_false,
    if_true, Nat.not_lt_zero, one_ne_zero, Bool.false_eq_true]
  have hfetch : exec (fetchStack 1) (e.holding cc ctrls []) =
      (.ok (), e.holding { cc with stack } ctrls [item]) := exec_fetchStack [item] hstack
  rw [exec_bind_ok hfetch]

end Transfers

end Engine

end TonVm
