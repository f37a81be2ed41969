import TonVm.Proof.Instruction
import TonVm.Plain

/-!
# Values passed to a continuation

Jumps, calls and returns pass the top of the stack. How many values that is follows from the number
given with the instruction and from the arity of the continuation, and the code decides it in two
places: `pop_all` chooses a number and `move_stack_from_cc` checks it against the arity again.
-/

namespace TonVm

open ExecLib

section Passing

variable [TonTypes]

/-! ### The number of values -/

/-- The number of values a continuation takes, if it is limited. -/
def arity (cont : ContinuationData) : Option Nat :=
  if cont.nargs < 0 then none else some cont.nargs.toNat

/-- The number of values that are to be passed: those given, and of them as many as the continuation
takes. Nothing when there are too few. -/
def documentedCount (arity given : Option Nat) (depth : Nat) : Option Nat :=
  match arity, given with
  | some arity, some given => if given ≤ depth ∧ arity ≤ given then some arity else none
  | some arity, none => if arity ≤ depth then some arity else none
  | none, some given => if given ≤ depth then some given else none
  | none, none => some depth

/-- More values are given than the continuation takes. -/
def Surplus (arity given : Option Nat) (depth : Nat) : Prop :=
  ∃ n m, arity = some n ∧ given = some m ∧ n < m ∧ m ≤ depth

def ExceptionCode.isStack (code : ExceptionCode) : Prop :=
  code = .stackUnderflow ∨ code = .stackOverflow

/-- What passing values comes to: the documented number of them, or a stack exception. -/
def PassesAsDocumented (stack : Stack) (given : Option Nat) (cont : ContinuationData) : Prop :=
  match documentedCount (arity cont) given stack.length with
  | some n => ∃ stack' cont', passed stack given cont = .ok (stack', cont') ∧
      cont'.stack = cont.stack ++ List.drop (stack.length - n) stack
  | none => ∃ code, passed stack given cont = .error code ∧ code.isStack

section Passed

variable {stack : Stack} {given : Option Nat} {cont : ContinuationData} {count : Nat}

theorem passed_of_count (hcount : passCount cont.nargs given stack.length = .ok count) :
    passed stack given cont = moveTop count stack cont := by
  unfold passed
  rw [hcount]
  rfl

theorem moveTop_of_le (hnargs : cont.nargs < 0 ∨ count ≤ cont.nargs) (hcount : count ≤ stack.length) :
    ∃ stack' cont', moveTop count stack cont = .ok (stack', cont') ∧
      cont'.stack = cont.stack ++ List.drop (stack.length - count) stack := by
  unfold moveTop
  rw [if_neg (by omega), if_neg (by omega)]
  exact ⟨_, _, rfl, rfl⟩

theorem moveTop_of_lt (hnargs : cont.nargs < 0 ∨ count ≤ cont.nargs) (hcount : stack.length < count) :
    ∃ code, moveTop count stack cont = .error code ∧ code.isStack := by
  unfold moveTop
  rw [if_neg (by omega), if_pos hcount]
  exact ⟨_, rfl, .inl rfl⟩

theorem moveTop_of_surplus (hnargs : 0 ≤ cont.nargs) (hcount : cont.nargs < count) :
    moveTop count stack cont = .error .stackOverflow := by
  unfold moveTop
  rw [if_pos ⟨hnargs, hcount⟩]

/-- Without a limit the number given is passed, or the whole stack. -/
theorem passesAsDocumented_of_unlimited (hnargs : cont.nargs < 0) :
    PassesAsDocumented stack given cont := by
  have hcount : passCount cont.nargs given stack.length = .ok (given.getD stack.length) := by
    unfold passCount
    rw [if_pos hnargs]
  unfold PassesAsDocumented arity documentedCount
  rw [passed_of_count hcount, if_pos hnargs]
  cases given with
  | none => exact moveTop_of_le (.inl hnargs) le_rfl
  | some given =>
    dsimp only [Option.getD_some]
    by_cases hle : given ≤ stack.length
    · rw [if_pos hle]
      exact moveTop_of_le (.inl hnargs) hle
    · rw [if_neg hle]
      exact moveTop_of_lt (.inl hnargs) (by omega)

/-- Without a number as many values are passed as the continuation takes. -/
theorem passesAsDocumented_of_limited (hnargs : ¬cont.nargs < 0) :
    PassesAsDocumented stack none cont := by
  have hcount : passCount cont.nargs none stack.length = .ok cont.nargs.toNat := by
    unfold passCount
    rw [if_neg hnargs]
  unfold PassesAsDocumented arity documentedCount
  rw [passed_of_count hcount, if_neg hnargs]
  dsimp only
  by_cases hle : cont.nargs.toNat ≤ stack.length
  · rw [if_pos hle]
    exact moveTop_of_le (.inr (by omega)) hle
  · rw [if_neg hle]
    exact moveTop_of_lt (.inr (by omega)) (by omega)

/-- With both, everything but the surplus is as documented. -/
theorem passesAsDocumented_both_iff (hnargs : ¬cont.nargs < 0) (m : Nat) :
    PassesAsDocumented stack (some m) cont ↔ ¬(cont.nargs < m ∧ m ≤ stack.length) := by
  unfold PassesAsDocumented arity documentedCount
  rw [if_neg hnargs]
  dsimp only
  by_cases hfew : (m : Int) < cont.nargs
  · have hpassed : passed stack (some m) cont = .error .stackUnderflow := by
      unfold passed passCount
      rw [if_neg hnargs]
      dsimp only
      rw [if_pos hfew]
      rfl
    rw [hpassed, if_neg (by omega)]
    exact iff_of_true ⟨_, rfl, .inl rfl⟩ (by omega)
  · have hcount : passCount cont.nargs (some m) stack.length = .ok m := by
      unfold passCount
      rw [if_neg hnargs]
      dsimp only
      rw [if_neg hfew]
    rw [passed_of_count hcount]
    by_cases hsurplus : cont.nargs < m
    · rw [moveTop_of_surplus (by omega) hsurplus]
      by_cases hle : m ≤ stack.length
      · rw [if_pos ⟨hle, by omega⟩]
        refine iff_of_false ?_ (not_not.2 ⟨hsurplus, hle⟩)
        rintro ⟨_, _, h, _⟩
        cases h
      · rw [if_neg (by omega)]
        exact iff_of_true ⟨_, rfl, .inr rfl⟩ (by omega)
    · refine iff_of_true ?_ (by omega)
      have hm : m = cont.nargs.toNat := by omega
      by_cases hle : m ≤ stack.length
      · rw [if_pos ⟨hle, by omega⟩, ← hm]
        exact moveTop_of_le (.inr (by omega)) hle
      · rw [if_neg (by omega)]
        exact moveTop_of_lt (.inr (by omega)) (by omega)

/-- The code passes the documented number of values unless there is a surplus, which it refuses. -/
theorem passesAsDocumented_iff :
    PassesAsDocumented stack given cont ↔ ¬Surplus (arity cont) given stack.length := by
  unfold Surplus arity
  by_cases hnargs : cont.nargs < 0
  · rw [if_pos hnargs]
    exact iff_of_true (passesAsDocumented_of_unlimited hnargs) (by simp)
  · rw [if_neg hnargs]
    cases given with
    | none => exact iff_of_true (passesAsDocumented_of_limited hnargs) (by simp)
    | some m =>
      rw [passesAsDocumented_both_iff hnargs]
      have : (∃ n k, some cont.nargs.toNat = some n ∧ some m = some k ∧ n < k ∧ k ≤ stack.length) ↔
          cont.nargs < m ∧ m ≤ stack.length := by
        constructor
        · rintro ⟨n, k, hn, hk, hlt, hle⟩
          cases hn
          cases hk
          omega
        · rintro ⟨hlt, hle⟩
          exact ⟨_, _, rfl, rfl, by omega, hle⟩
      rw [this]

end Passed

namespace Engine

/-! ### The instructions that pass values -/

inductive TransferInstruction where
  | jmpx
  | jmpxargs
  | callx
  | callxargs
  | ret
  | retargs
  deriving DecidableEq

namespace TransferInstruction

def handler : TransferInstruction → M Unit
  | jmpx => executeJmpx
  | jmpxargs => executeJmpxargs
  | callx => executeCallx
  | callxargs => executeCallxargs
  | ret => executeRet
  | retargs => executeRetargs

/-- The operands that the instruction reads from the code. -/
def options (e : Engine) : TransferInstruction → Option InstructionOptions
  | jmpx | callx | ret => none
  | jmpxargs | retargs => some (.pargs 0 16)
  | callxargs => some (if e.lastCmd = 0xDA then .argumentAndReturnConstraints else .pargs 0 16)

/-- What the instruction does once its operands are read. -/
def rest : TransferInstruction → M Unit
  | jmpx => do
    fetchStack 1
    Engine.jmpx false
  | jmpxargs => do
    fetchStack 1
    switch (Addr.var 0)
  | callx | callxargs => Engine.callx 0 false
  | ret | retargs => switch (Addr.ctrl 0)

/-- The continuation that receives values, and the stack they are taken from: a return goes to c0, the
others to the continuation on top of the stack. -/
def Target (e : Engine) (stack : Stack) (cont : ContinuationData) : TransferInstruction → Prop
  | ret | retargs => e.cc.stack = stack ∧ e.ctrls.get 0 = some (.continuation cont)
  | _ => e.cc.stack = stack ++ [.continuation cont]

section Loading

variable {e s : Engine} (i : TransferInstruction)
  (hload : exec (loadInstruction (i.options e)) e = (.ok (), s))

include hload

theorem loaded : Loaded e s := by
  cases i with
  | jmpx | callx | ret => exact loaded_of_none e hload
  | jmpxargs | retargs => exact (loaded_of_pargs e hload).1
  | callxargs =>
    dsimp only [options] at hload
    split at hload
    · exact (loaded_of_argumentAndReturnConstraints e hload).1
    · exact (loaded_of_pargs e hload).1

theorem exec_handler : exec i.handler e = exec i.rest s := by
  cases i with
  | jmpx | jmpxargs | callx | ret | retargs => exact exec_bind_ok hload
  | callxargs =>
    dsimp only [handler]
    unfold executeCallxargs
    rw [exec_bind_get]
    exact exec_bind_ok hload

end Loading

section Transfer

variable {e s : Engine} {stack stack' : Stack} {cont cont' : ContinuationData}
  {code : ExceptionCode} (i : TransferInstruction) (htarget : i.Target e stack cont)
  (hgas : popAllPrice stack (pargsRaw s.cmd) cont ≤ s.gas.gasRemaining)

include htarget hgas

/-- What every transfer comes to: the current continuation is the one that received the values. -/
theorem exec_rest (hs : Loaded e s) (he : RegistersTyped e)
    (hpassed : passed stack (pargsRaw s.cmd) cont = .ok (stack', cont')) :
    ∃ t, exec i.rest s = (.ok (), t) ∧ t.cc = { cont' with savelist := {} } := by
  cases i with
  | jmpx =>
    dsimp only [rest]
    rw [exec_bind_ok (hs.exec_fetchStack_one htarget)]
    exact ⟨_, exec_jmpx hpassed hgas rfl, rfl⟩
  | jmpxargs =>
    dsimp only [rest]
    rw [exec_bind_ok (hs.exec_fetchStack_one htarget)]
    exact ⟨_, exec_switch_var hpassed hgas (by decide) rfl, rfl⟩
  | callx | callxargs =>
    dsimp only [rest]
    have hmem : .continuation cont ∈ e.cc.stack := by
      rw [show e.cc.stack = stack ++ [.continuation cont] from htarget]
      simp
    rw [hs.eq_holding, exec_callx_fetch (hs.stack.trans htarget)]
    cases hsaved : cont.savelist.get 0 with
    | none =>
      refine ⟨_, exec_callx hpassed hgas (by decide) rfl hsaved ?_ ?_, rfl⟩
      · exact hs.ctrls ▸ he.fits_ctrls (by decide)
      · exact hs.savelist ▸ he.fits_cc (by decide)
    | some item =>
      obtain ⟨saved, hcont⟩ := eq_continuation_of_fits (he.fits_stack hmem (by decide)) (.inl rfl)
        (by rw [hsaved]; rfl)
      exact ⟨_, exec_callx_of_saved hpassed hgas (by decide) rfl hcont, rfl⟩
  | ret | retargs =>
    dsimp only [rest]
    rw [← htarget.1, ← hs.stack] at hpassed hgas
    have hctrl : s.ctrls.get 0 = some (.continuation cont) := hs.ctrls ▸ htarget.2
    have hswitch : exec (switch (Addr.ctrl 0)) (s.holding s.cc s.ctrls s.cmd.vars) = _ :=
      exec_switch_c0 hpassed hgas hctrl
    exact ⟨_, hswitch, rfl⟩

theorem exec_rest_error (hs : Loaded e s)
    (hpassed : passed stack (pargsRaw s.cmd) cont = .error code) :
    ∃ t, exec i.rest s = (.error (.exception (.fromCode code)), t) := by
  cases i with
  | jmpx | jmpxargs =>
    dsimp only [rest]
    rw [exec_bind_ok (hs.exec_fetchStack_one htarget)]
    refine ⟨_, exec_bind_error (exec_popAll_var_error hpassed hgas (by decide) rfl)⟩
  | callx | callxargs =>
    dsimp only [rest]
    rw [hs.eq_holding, exec_callx_fetch (hs.stack.trans htarget)]
    unfold Engine.callx
    rw [exec_bind_get]
    exact ⟨_, exec_bind_error (exec_popAll_var_error hpassed hgas (by decide) rfl)⟩
  | ret | retargs =>
    dsimp only [rest]
    rw [← htarget.1, ← hs.stack] at hpassed hgas
    exact ⟨_, exec_bind_error (exec_popAll_ctrl_error hpassed hgas (by decide)
      (hs.ctrls ▸ htarget.2))⟩

end Transfer

/-- The outcome of an instruction as documented: the documented number of values is passed, in order, or
there is a stack exception. -/
def AsDocumented (e : Engine) (stack : Stack) (given : Option Nat) (cont : ContinuationData)
    (i : TransferInstruction) : Prop :=
  match documentedCount (arity cont) given stack.length with
  | some n => ∃ t, exec i.handler e = (.ok (), t) ∧
      t.cc.stack = cont.stack ++ List.drop (stack.length - n) stack
  | none => ∃ code t, exec i.handler e = (.error (.exception (.fromCode code)), t) ∧ code.isStack

/-- Every transfer passes the documented number of values, except where more values are given than the
continuation takes. -/
theorem asDocumented_iff {e s : Engine} {stack : Stack} {cont : ContinuationData}
    (i : TransferInstruction) (he : RegistersTyped e)
    (hload : exec (loadInstruction (i.options e)) e = (.ok (), s)) (htarget : i.Target e stack cont)
    (hgas : popAllPrice stack (pargsRaw s.cmd) cont ≤ s.gas.gasRemaining) :
    i.AsDocumented e stack (pargsRaw s.cmd) cont ↔
      ¬Surplus (arity cont) (pargsRaw s.cmd) stack.length := by
  rw [← passesAsDocumented_iff]
  have hs := i.loaded hload
  unfold AsDocumented PassesAsDocumented
  rw [i.exec_handler hload]
  cases hpassed : passed stack (pargsRaw s.cmd) cont with
  | error code =>
    obtain ⟨t, ht⟩ := i.exec_rest_error htarget hgas hs hpassed
    rw [ht]
    split
    · simp
    · constructor
      · rintro ⟨code', t', h, hstack⟩
        cases h
        exact ⟨code, rfl, hstack⟩
      · rintro ⟨code', h, hstack⟩
        cases h
        exact ⟨code, t, rfl, hstack⟩
  | ok result =>
    obtain ⟨stack', cont'⟩ := result
    obtain ⟨t, ht, hcc⟩ := i.exec_rest htarget hgas hs he hpassed
    rw [ht]
    split
    · constructor
      · rintro ⟨t', h, hstack⟩
        cases h
        exact ⟨stack', cont', rfl, by rw [← hstack, hcc]⟩
      · rintro ⟨stack'', cont'', h, hstack⟩
        cases h
        exact ⟨t, rfl, by rw [hcc]; exact hstack⟩
    · simp

end TransferInstruction

/-! ### Calling a continuation that has a return address -/

section Jump

variable {e s : Engine} {stack stack' : Stack} {cont cont' saved : ContinuationData}

/-- The current continuation is the one called, the registers are those of the state with the saved
ones of the continuation, and nothing is left of the caller. -/
def JumpedTo (e : Engine) (cont' : ContinuationData) (t : Engine) : Prop :=
  t.cc = { cont' with savelist := {} } ∧ t.ctrls = e.ctrls.apply cont'.savelist

/-- A call of a continuation with a saved c0 is a jump up to the arity of that c0. -/
theorem exec_callx_jumpedTo (vars : List StackItem) {k : Nat} {cc : ContinuationData}
    (hs : s.ctrls = e.ctrls)
    (hpassed : passed cc.stack (pargsRaw s.cmd) cont = .ok (stack', cont'))
    (hgas : popAllPrice cc.stack (pargsRaw s.cmd) cont ≤ s.gas.gasRemaining) (hk : k < 16)
    (hvar : vars[k]? = some (.continuation cont))
    (hsaved : cont.savelist.get 0 = some (.continuation saved)) :
    ∃ t, exec (callx k false) (s.holding cc s.ctrls vars) = (.ok (), t) ∧
      (JumpedTo e cont' t ↔ saved.nargs = returnNargs s.cmd) := by
  refine ⟨_, exec_callx_of_saved hpassed hgas hk hvar hsaved, ?_⟩
  have hc0 : (s.ctrls.apply cont.savelist).get 0 = some (.continuation saved) := by
    rw [SaveListOf.get_zero] at hsaved ⊢
    unfold SaveListOf.apply
    rw [hsaved]
    rfl
  unfold JumpedTo
  rw [holding_cc, holding_ctrls, passed_savelist hpassed, ← hs]
  constructor
  · rintro ⟨-, h⟩
    have h0 := congrArg (SaveListOf.get · 0) h
    rw [SaveListOf.get_setOpt _ (by decide), hc0] at h0
    injection h0 with h0
    injection h0 with h0
    exact (congrArg ContinuationOf.nargs h0).symm
  · intro h
    refine ⟨rfl, ?_⟩
    rw [← h, ← hc0, SaveListOf.setOpt_get _ (by decide)]

/-- The number of values that `CALLXVARARGS` and its kin take from the stack: -1 stands for none. -/
def givenNumber (p : Int) : Option Nat := if p ≥ 0 then some p.toNat else none

/-- An engine with other instruction parameters. -/
def withParams (e : Engine) (params : List InstructionParameter) : Engine :=
  { e with cmd.params := params }

omit [TonTypes] in
theorem into_of_mem {v lo hi : Int} (h : lo ≤ v ∧ v ≤ hi) :
    (IntegerData.value v).into lo hi = .ok v := by
  dsimp only [IntegerData.into]
  rw [if_pos h]

theorem exec_fetchNargsPargs {cc : ContinuationData} {ctrls : SaveList} {vars : List StackItem}
    {p r lo hi : Int} (hr : vars[0]? = some (.int r)) (hp : vars[1]? = some (.int p))
    (hpr : lo ≤ r ∧ r ≤ hi) (hpp : lo ≤ p ∧ p ≤ hi) :
    exec (fetchNargsPargs lo hi lo hi) (s.holding cc ctrls vars) =
      (.ok (), (s.withParams (s.cmd.params ++ [.nargs r] ++
        (givenNumber p).toList.map InstructionParameter.pargs)).holding cc ctrls vars) := by
  have hnargs : exec (fetchNargs 0 lo hi) (s.holding cc ctrls vars) =
      (.ok (), (s.withParams (s.cmd.params ++ [.nargs r])).holding cc ctrls vars) := by
    unfold fetchNargs
    rw [exec_bind_ok (exec_var _ hr)]
    dsimp only [StackItem.int, StackItem.asInteger]
    rw [lift_ok, exec_bind_pure, into_of_mem hpr]
    rfl
  unfold fetchNargsPargs fetchPargs
  rw [exec_bind_ok hnargs, exec_bind_ok (exec_var _ hp)]
  dsimp only [StackItem.int, StackItem.asInteger]
  rw [lift_ok, exec_bind_pure, into_of_mem hpp, lift_ok, exec_bind_pure]
  unfold givenNumber
  split
  · rfl
  · simp only [Option.toList_none, List.map_nil, List.append_nil]
    rfl

theorem pargsRaw_given (r p : Int) : pargsRaw (s.withParams ([] ++ [.nargs r] ++
    (givenNumber p).toList.map InstructionParameter.pargs)).cmd = givenNumber p := by
  unfold givenNumber
  split <;> rfl

/-- A call of a continuation that has a return address is a jump exactly when that return address has
the arity that the call asks for. -/
theorem call_jumps_iff (hsaved : cont.savelist.get 0 = some (.continuation saved)) :
    (∀ i : TransferInstruction, i = .callx ∨ i = .callxargs → ∀ s stack stack' cont',
      exec (loadInstruction (i.options e)) e = (.ok (), s) →
      e.cc.stack = stack ++ [.continuation cont] →
      passed stack (pargsRaw s.cmd) cont = .ok (stack', cont') →
      popAllPrice stack (pargsRaw s.cmd) cont ≤ s.gas.gasRemaining →
      ∃ t, exec i.handler e = (.ok (), t) ∧
        (JumpedTo e cont' t ↔ saved.nargs = returnNargs s.cmd)) ∧
    (∀ p r, -1 ≤ p ∧ p ≤ 254 → -1 ≤ r ∧ r ≤ 254 → ∀ s stack stack' cont',
      exec loadInstruction e = (.ok (), s) →
      e.cc.stack = stack ++ [.continuation cont, .int p, .int r] →
      passed stack (givenNumber p) cont = .ok (stack', cont') →
      popAllPrice stack (givenNumber p) cont ≤ s.gas.gasRemaining →
      ∃ t, exec executeCallxva e = (.ok (), t) ∧ (JumpedTo e cont' t ↔ saved.nargs = r)) := by
  constructor
  · intro i hi s stack stack' cont' hload hstack hpassed hgas
    have hs := i.loaded hload
    have hrest : i.rest = callx 0 false := by
      rcases hi with rfl | rfl <;> rfl
    rw [i.exec_handler hload, hrest, hs.eq_holding, exec_callx_fetch (hs.stack.trans hstack)]
    exact exec_callx_jumpedTo [_] hs.ctrls hpassed hgas (by decide) rfl hsaved
  · intro p r hp hr s stack stack' cont' hload hstack hpassed hgas
    have hs := loaded_of_none e hload
    have hparams := params_of_loadInstruction e hload
    unfold executeCallxva
    rw [exec_bind_ok hload, exec_bind_ok (hs.exec_fetchStack_three hstack)]
    have hfetch : exec (fetchNargsPargs (-1) 254 (-1) 254)
        (s.holding { s.cc with stack } s.ctrls [.int r, .int p, .continuation cont]) = _ :=
      exec_fetchNargsPargs rfl rfl hr hp
    rw [hparams] at hfetch
    rw [exec_bind_ok hfetch]
    rw [← pargsRaw_given (s := s) r p] at hpassed hgas
    exact exec_callx_jumpedTo (s := s.withParams _) [.int r, .int p, _] hs.ctrls hpassed hgas
      (by decide) rfl hsaved

end Jump

end Engine

end Passing

namespace Engine

open scoped Plain

/-- The continuation in a place, by its arity and the arity of its saved c0. -/
def arities : Option StackItem → Option (Int × Option Int)
  | some (.continuation cont) => some (cont.nargs,
      match cont.savelist.c0 with
      | some (.continuation saved) => some saved.nargs
      | _ => none)
  | _ => none

/-- `JMPX` to a continuation that takes one value, with one value. -/
def jumping : Engine :=
  (withCapabilities []).setupWithLibraries (Plain.code [0xD9]) none
    (some [.int 1, .continuation { code := Plain.code [], nargs := 1 }]) none []

theorem registersTyped_jumping : RegistersTyped jumping := by
  refine good_setup _ _ _ _ (fun _ h => by cases h) ?_ rfl
  rintro _ ⟨⟩
  simp only [good_cons, good_continuation, good_cont_iff, good_empty, good_nil, and_true]
  refine ⟨good_int 1, ?_⟩
  rintro ⟨⟩

theorem asDocumented_jumping : TransferInstruction.jmpx.AsDocumented jumping [.int 1] none
    { code := Plain.code [], nargs := 1 } := by
  have htarget : TransferInstruction.jmpx.Target jumping [.int 1]
      { code := Plain.code [], nargs := 1 } := rfl
  refine (TransferInstruction.asDocumented_iff .jmpx registersTyped_jumping
    (exec_loadInstruction jumping) htarget (by decide)).2 ?_
  rintro ⟨_, _, _, h, _⟩
  cases h

/-- Three integers, a continuation that takes one value, and `JMPXARGS 2`. -/
def jumpingWithSurplus : Engine :=
  (withCapabilities []).setupWithLibraries
    (Plain.code [0x71, 0x72, 0x73, 0x90, 0xEC, 0x01, 0xDB, 0x12]) none none none []

/-- One value is to be passed of the two given, and there are three. The jump is refused. -/
theorem refused_jumpingWithSurplus :
    (passes 5 jumpingWithSurplus).2.cc.stack.length = 4 ∧
    arities (passes 5 jumpingWithSurplus).2.cc.stack.getLast? = some (1, none) ∧
    endedBy (passes 6 jumpingWithSurplus).1 = some .stackOverflow := by
  decide +kernel

/-- A continuation whose return address has no limit on its arguments. -/
def returning : ContinuationData :=
  { code := Plain.code [], savelist := { c0 := some (.continuation (.withCode (Plain.code []))) } }

/-- `CALLX` of a continuation with a return address. -/
def callingWithReturn : Engine :=
  (withCapabilities []).setupWithLibraries (Plain.code [0xD8]) none
    (some [.continuation returning]) none []

theorem jumps_callingWithReturn : ∃ t, exec executeCallx callingWithReturn = (.ok (), t) ∧
    JumpedTo callingWithReturn returning t := by
  have hsaved : returning.savelist.get 0 =
      some (.continuation (.withCode (Plain.code []))) := rfl
  obtain ⟨t, ht, hjump⟩ := (call_jumps_iff (e := callingWithReturn) hsaved).1 .callx (.inl rfl) _ [] []
    returning (exec_loadInstruction _) rfl rfl (by decide)
  exact ⟨t, ht, hjump.2 rfl⟩

/-- A return address that takes two values is saved in a continuation, which is then called. -/
def callingWithArity : Engine :=
  (withCapabilities []).setupWithLibraries
    (Plain.code [0x90, 0xEC, 0x02, 0x90, 0xED, 0x60, 0xD8]) none none none []

/-- The call removes the limit of the return address. -/
theorem arity_lost_callingWithArity :
    arities (passes 4 callingWithArity).2.cc.stack.getLast? = some (-1, some 2) ∧
    arities (passes 5 callingWithArity).2.ctrls.c0 = some (-1, none) := by
  decide +kernel

end Engine

end TonVm
