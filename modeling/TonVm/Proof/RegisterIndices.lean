import TonVm.Proof.SaveBoth

/-!
# Registers by an index on the stack

`PUSHCTR`, `POPCTR` and `SETCONTCTR` name a register in the code, and `PUSHCTRX`, `POPCTRX` and
`SETCONTCTRX` take its number from the stack. `POPCTRX` stores the number and not the value under it.
As no register holds numbers, it always fails.
-/

namespace TonVm

open ExecLib

namespace Engine

section Indices

variable [TonTypes]

/-- The three ways to use a register. -/
inductive RegisterAccess where
  | push
  | pop
  | setcont
  deriving DecidableEq

namespace RegisterAccess

/-- The instruction with the register in the last byte of its code. -/
def literal : RegisterAccess → Nat → M Unit
  | push, i => dispatched (0x40 + i) executePushctr
  | pop, i => dispatched (0x50 + i) executePopctr
  | setcont, i => dispatched (0x60 + i) executeSetcontctr

/-- The instruction that takes the register from the stack. -/
def indexed : RegisterAccess → M Unit
  | push => dispatched 0xE0 executePushctrx
  | pop => dispatched 0xE1 executePopctrx
  | setcont => dispatched 0xE2 executeSetcontctrx

/-- The instruction once it knows the register. The index is still variable 0. -/
def access : RegisterAccess → Nat → M Unit
  | push, i => do
    copyToVar (Addr.ctrl i)
    Engine.push (← popVar)
  | pop, i => swap (Addr.var 0) (Addr.ctrl i)
  | setcont, i => do
    let _ ← lift (← var 1).asContinuation
    swap (Addr.var 2) (Addr.savelist (Addr.var 1) i)
    Engine.push (← removeVar 1)

/-- What both forms have on the stack: a value, and a continuation above it. -/
def operands (x c : StackItem) : RegisterAccess → Stack
  | push => []
  | pop => [x]
  | setcont => [x, c]

end RegisterAccess

/-- A value that cannot be swapped with an entry, as it is not of the type of the register. Null is left
where it is when there is no entry. -/
def Misfit (i : Nat) (x : StackItem) (list : SaveList) : Prop :=
  (x.isNull && (list.get i).isNone) = false ∧ SaveList.canPut i x = false

instance (i : Nat) (x : StackItem) (list : SaveList) : Decidable (Misfit i x list) :=
  inferInstanceAs (Decidable (_ ∧ _))

/-- The instruction with an index does what the literal form does, and refuses a number that is none of
a register before it changes any. -/
def AsLiteral (e : Engine) (access : RegisterAccess) (x c : StackItem) (i : Nat) : Prop :=
  if i ∈ SaveListOf.regs then
    SameOutcome id (exec access.indexed (e.given (access.operands x c ++ [.int i])))
      (exec (access.literal i) (e.given (access.operands x c)))
  else
    ∃ t, exec access.indexed (e.given (access.operands x c ++ [.int i])) =
      (.error (.exception (.fromCode .rangeCheckError)), t) ∧ t.ctrls = e.ctrls

variable {e : Engine} {i : Nat}

/-! ### Starting the instructions -/

/-- `s` is `e` but for the accounts, the instruction, the current continuation and the registers. -/
def Alike (s e : Engine) : Prop := ∀ cc ctrls, s.core.holding cc ctrls [] = e.core.holding cc ctrls []

/-- The program ends with this result, and with this current continuation and these registers. -/
def Finishes (m : M Unit) (s : Engine) (r : Except Error Unit) (cc : ContinuationData)
    (ctrls : SaveList) : Prop :=
  ∃ t, exec m s = (r, t) ∧ t.core = s.core.holding cc ctrls []

namespace Finishes

variable {m m' : M Unit} {s : Engine} {r : Except Error Unit} {cc : ContinuationData}
  {ctrls : SaveList}

theorem of_exec {cc' : ContinuationData} {ctrls' : SaveList} {vars : List StackItem}
    (h : Finishes m' (s.holding cc' ctrls' vars) r cc ctrls) (hs : Alike s e)
    (hexec : exec m e = exec m' (s.holding cc' ctrls' vars)) : Finishes m e r cc ctrls := by
  obtain ⟨t, ht, hcore⟩ := h
  exact ⟨t, hexec.trans ht, hcore.trans (hs cc ctrls)⟩

theorem sameOutcome (h : Finishes m e r cc ctrls) (h' : Finishes m' s r cc ctrls) (hs : Alike s e) :
    SameOutcome id (exec m e) (exec m' s) := by
  obtain ⟨t, ht, hcore⟩ := h
  obtain ⟨t', ht', hcore'⟩ := h'
  rw [ht, ht']
  refine ⟨?_, ?_⟩
  · cases r <;> rfl
  · rw [hcore, hcore', hs]

end Finishes

/-- The literal form takes its arguments. -/
theorem exec_literal_fetchStack (hi : i ∈ SaveListOf.regs) (base : Nat) (hbase : 16 ∣ base)
    (items : Stack) (k : M Unit) (e : Engine) :
    ∃ s, Alike s e ∧ cregRaw s.cmd = some i ∧
      exec (dispatched (base + i) (do
        loadInstruction (some .controlRegister)
        fetchStack items.length
        k)) (e.given items) = exec k (s.holding e.cc e.ctrls items.reverse) := by
  obtain ⟨s, hcore, hs, hcreg, hexec⟩ := exec_dispatched hi base hbase (do
    fetchStack items.length
    k) (e.given items)
  refine ⟨s, fun cc ctrls => by rw [hcore]; rfl, hcreg, ?_⟩
  have hfetch : exec (fetchStack items.length) s =
      (.ok (), s.holding e.cc e.ctrls ([] ++ items.reverse)) := by
    conv_lhs => rw [hs]
    exact exec_fetchStack items rfl
  rw [hexec, exec_bind_ok hfetch]
  rfl

theorem exec_smallVar {s : Engine} (hlt : i ≤ 255) {k : Nat} (hvar : s.cmd.vars[k]? = some (.int i)) :
    exec (smallVar k) s = (.ok i, s) := by
  unfold smallVar
  have hsmall : (StackItem.int i).asSmallInteger = .ok i := IntegerData.intoUsize_natCast hlt
  rw [exec_bind_ok (exec_var s hvar), hsmall]
  rfl

/-- The state in which an instruction with this last byte, and no operand, starts. -/
def started (e : Engine) (byte : Nat) : Engine := { e with lastCmd := UInt8.ofNat byte }.afterLoad

theorem exec_dispatched_load (byte : Nat) (k : M Unit) (e : Engine) :
    exec (dispatched byte (do
      loadInstruction
      k)) e = exec k (e.started byte) := by
  unfold dispatched
  rw [exec_bind_modify, exec_bind_ok (exec_load _)]
  rfl

theorem exec_dispatched_fetchStack (byte : Nat) (items : Stack) (k : M Unit) (e : Engine) :
    exec (dispatched byte (do
      loadInstruction
      fetchStack items.length
      k)) (e.given items) = exec k ((e.started byte).holding e.cc e.ctrls items.reverse) := by
  unfold dispatched
  rw [exec_bind_modify]
  exact exec_load_fetchStack { e with lastCmd := UInt8.ofNat byte } items k

/-- The form with an index takes its arguments and checks the index. -/
theorem exec_indexed (a : RegisterAccess) (x c : StackItem) (hlt : i ≤ 255) (e : Engine) :
    ∃ s, Alike s e ∧ exec a.indexed (e.given (a.operands x c ++ [.int i])) =
      exec (if i ∈ SaveListOf.regs then a.access i else err .rangeCheckError)
        (s.holding e.cc e.ctrls (.int i :: (a.operands x c).reverse)) := by
  have hnumber : (StackItem.int i).asInteger = .ok (.value i) := rfl
  cases a with
  | push =>
    refine ⟨e.started 0xE0, fun _ _ => rfl, (exec_dispatched_fetchStack 0xE0 [.int i] _ e).trans ?_⟩
    rw [exec_bind_ok (exec_smallVar hlt rfl)]
    by_cases hi : i ∈ SaveListOf.regs
    · rw [if_neg (not_not_intro hi), if_pos hi]
      rfl
    · rw [if_pos hi, if_neg hi]
      rfl
  | pop =>
    refine ⟨e.started 0xE1, fun _ _ => rfl, (exec_dispatched_fetchStack 0xE1 [x, .int i] _ e).trans ?_⟩
    rw [exec_bind_ok (exec_smallVar hlt rfl)]
    by_cases hi : i ∈ SaveListOf.regs
    · rw [if_neg (not_not_intro hi), if_pos hi]
      rfl
    · rw [if_pos hi, if_neg hi]
      rfl
  | setcont =>
    refine ⟨e.started 0xE2, fun _ _ => rfl, (exec_dispatched_fetchStack 0xE2 [x, c, .int i] _ e).trans ?_⟩
    rw [exec_bind_ok (exec_var _ rfl), hnumber, lift_ok, exec_bind_pure,
      IntegerData.intoUsize_natCast hlt, lift_ok, exec_bind_pure]
    by_cases hi : i ∈ SaveListOf.regs
    · rw [if_neg (not_not_intro hi), if_pos hi]
      rfl
    · rw [if_pos hi, if_neg hi]
      rfl

/-! ### What follows -/

theorem swapOutcome_of_misfit {x : StackItem} {list : SaveList} (h : Misfit i x list)
    (state : SaveList → StackItem → Engine) : swapOutcome i state list x =
      (.error (.exception (.fromCode .typeCheckError)), state list x) := by
  unfold swapOutcome
  rw [h.1, h.2]
  rfl

/-- A swap that does not fail gives the same list and value in every state. -/
theorem exists_swapOutcome {x : StackItem} {list : SaveList} (h : ¬ Misfit i x list) :
    ∃ list' y, ∀ state, swapOutcome i state list x = (.ok (), state list' y) := by
  by_cases hnull : (x.isNull && (list.get i).isNone) = true
  · exact ⟨list, x, fun state => if_pos hnull⟩
  · have hput : SaveList.canPut i x = true := by
      by_contra hput
      exact h ⟨Bool.eq_false_of_not_eq_true hnull, Bool.eq_false_of_not_eq_true hput⟩
    exact ⟨_, _, fun state => (if_neg hnull).trans (if_pos hput)⟩

section Rest

variable (cc : ContinuationData)

theorem finishes_pushRegister (hi : i ∈ SaveListOf.regs) (s : Engine) (ctrls : SaveList)
    (vars : List StackItem) :
    Finishes (do
      copyToVar (Addr.ctrl i)
      push (← popVar)) (s.holding cc ctrls vars) (.ok ())
      { cc with stack := cc.stack ++ [(ctrls.get i).getD .none] } ctrls := by
  have hi16 : i < 16 := (lt_of_mem_regs hi).trans (by decide)
  have hpop : exec popVar (s.holding cc ctrls (vars ++ [(ctrls.get i).getD .none])) =
      (.ok ((ctrls.get i).getD .none), s.holding cc ctrls vars) := by
    unfold popVar lastVar
    rw [exec_bind, exec_bind_get, holding_vars, List.getLast?_concat]
    refine congrArg (Prod.mk _) (congrArg (s.holding cc ctrls) ?_)
    exact List.dropLast_concat
  refine ⟨(s.holding cc ctrls vars).given [(ctrls.get i).getD .none], ?_, rfl⟩
  rw [exec_bind_ok (exec_copyToVar_getD hi16), exec_bind_ok hpop]
  rfl

section Swap

variable (hi : i ∈ SaveListOf.regs) (s : Engine) {k : Nat} (hk : k < 16) {x : StackItem}
  {ctrls : SaveList} {vars : List StackItem} (hx : vars[k]? = some x)

include hi hk hx

theorem finishes_swapRegister_of_misfit (h : Misfit i x ctrls) :
    Finishes (swap (Addr.var k) (Addr.ctrl i)) (s.holding cc ctrls vars)
      (.error (.exception (.fromCode .typeCheckError))) cc ctrls := by
  have hi16 : i < 16 := (lt_of_mem_regs hi).trans (by decide)
  refine ⟨s.holding cc ctrls (vars.set k x), ?_, rfl⟩
  rw [swap_var_ctrl hk hi16, exec_swap_ctrl_var hi16 hk hx, swapOutcome_of_misfit h]

theorem ok_swapRegister (h : ¬ Misfit i x ctrls) :
    (exec (swap (Addr.var k) (Addr.ctrl i)) (s.holding cc ctrls vars)).1 = .ok () := by
  have hi16 : i < 16 := (lt_of_mem_regs hi).trans (by decide)
  obtain ⟨ctrls', y, houtcome⟩ := exists_swapOutcome h
  rw [swap_var_ctrl hk hi16, exec_swap_ctrl_var hi16 hk hx, houtcome]

end Swap

/-- What becomes of a continuation in a variable does not depend on the places of the variables. -/
theorem exists_finishes_setEntry (hi : i ∈ SaveListOf.regs) (ctrls : SaveList) (x : StackItem)
    (cont : ContinuationData) :
    ∃ r cc', ∀ (s : Engine) (vars : List StackItem) (k l : Nat), k < 16 → l < 16 → k ≠ l →
      vars[k]? = some x → vars[l]? = some (.continuation cont) →
      Finishes (do
        swap (Addr.var k) (Addr.savelist (Addr.var l) i)
        push (← removeVar l)) (s.holding cc ctrls vars) r cc' ctrls := by
  by_cases hmisfit : Misfit i x cont.savelist
  · refine ⟨.error (.exception (.fromCode .typeCheckError)), cc, ?_⟩
    intro s vars k l hk hl hkl hx hcont
    have hswap : exec (swap (Addr.var k) (Addr.savelist (Addr.var l) i)) (s.holding cc ctrls vars) = _ :=
      exec_swap_var_varSavelist hi hk hl hkl hx hcont
    rw [swapOutcome_of_misfit hmisfit] at hswap
    exact ⟨_, exec_bind_error hswap, rfl⟩
  · obtain ⟨list, y, houtcome⟩ := exists_swapOutcome hmisfit
    refine ⟨.ok (), { cc with stack := cc.stack ++ [.continuation { cont with savelist := list }] }, ?_⟩
    intro s vars k l hk hl hkl hx hcont
    have hswap : exec (swap (Addr.var k) (Addr.savelist (Addr.var l) i)) (s.holding cc ctrls vars) = _ :=
      exec_swap_var_varSavelist hi hk hl hkl hx hcont
    rw [houtcome] at hswap
    have hget : ((vars.set l (.continuation { cont with savelist := list })).set k y)[l]? =
        some (.continuation { cont with savelist := list }) := by
      rw [List.getElem?_set_ne hkl, List.getElem?_set_self (List.getElem?_eq_some_iff.1 hcont).1]
    refine ⟨s.holding { cc with stack := cc.stack ++ [.continuation { cont with savelist := list }] }
      ctrls (((vars.set l (.continuation { cont with savelist := list })).set k y).eraseIdx l), ?_, rfl⟩
    unfold removeVar
    rw [exec_bind_ok hswap, exec_bind, exec_bind_ok (exec_var _ hget)]
    rfl

end Rest

/-! ### The instructions -/

theorem not_canPut_int (hi : i ∈ SaveListOf.regs) (v : Int) : SaveList.canPut i (.int v) = false := by
  simp only [SaveListOf.regs, List.mem_cons, List.not_mem_nil, or_false] at hi
  rcases hi with rfl | rfl | rfl | rfl | rfl | rfl | rfl <;> rfl

theorem misfit_int (hi : i ∈ SaveListOf.regs) (v : Int) (list : SaveList) : Misfit i (.int v) list :=
  ⟨rfl, not_canPut_int hi v⟩

omit [TonTypes] in
theorem le_of_mem_regs (hi : i ∈ SaveListOf.regs) : i ≤ 255 := by
  have := lt_of_mem_regs hi
  omega

section Instructions

variable (e) (x c : StackItem)

theorem finishes_literal_push (hi : i ∈ SaveListOf.regs) :
    Finishes (RegisterAccess.push.literal i) e (.ok ())
      { e.cc with stack := e.cc.stack ++ [(e.ctrls.get i).getD .none] } e.ctrls := by
  obtain ⟨s, hcore, hs, hcreg, hliteral⟩ := exec_dispatched hi 0x40 (by decide) (do
    let creg ← param cregRaw
    copyToVar (Addr.ctrl creg)
    push (← popVar)) e
  rw [hs, exec_bind_ok (exec_param_creg hcreg _ _ _)] at hliteral
  exact (finishes_pushRegister e.cc hi s e.ctrls []).of_exec (fun _ _ => by rw [hcore]) hliteral

theorem sameOutcome_push (hi : i ∈ SaveListOf.regs) :
    SameOutcome id (exec RegisterAccess.push.indexed (e.given [.int i]))
      (exec (RegisterAccess.push.literal i) e) := by
  obtain ⟨s, hs, hindexed⟩ := exec_indexed .push .none .none (le_of_mem_regs hi) e
  rw [if_pos hi] at hindexed
  have hfinishes : Finishes RegisterAccess.push.indexed (e.given [.int i]) _ _ _ :=
    (finishes_pushRegister e.cc hi s e.ctrls [.int i]).of_exec hs hindexed
  exact hfinishes.sameOutcome (finishes_literal_push e hi) fun _ _ => rfl

theorem sameOutcome_setcont (hi : i ∈ SaveListOf.regs) :
    SameOutcome id (exec RegisterAccess.setcont.indexed (e.given [x, c, .int i]))
      (exec (RegisterAccess.setcont.literal i) (e.given [x, c])) := by
  obtain ⟨s, hs, hindexed⟩ := exec_indexed .setcont x c (le_of_mem_regs hi) e
  rw [if_pos hi, RegisterAccess.access, exec_bind_ok (exec_var _ rfl)] at hindexed
  obtain ⟨s', hs', hcreg, hliteral⟩ := exec_literal_fetchStack hi 0x60 (by decide) [x, c] (do
    let _ ← lift (← var 0).asContinuation
    let creg ← param cregRaw
    swap (Addr.var 1) (Addr.savelist (Addr.var 0) creg)
    push (← removeVar 0)) e
  rw [exec_bind_ok (exec_var _ rfl)] at hliteral
  -- both forms run the same end on the same values, which are in other variables
  have hfinishes : ∃ r cc ctrls,
      Finishes RegisterAccess.setcont.indexed (e.given [x, c, .int i]) r cc ctrls ∧
      Finishes (RegisterAccess.setcont.literal i) (e.given [x, c]) r cc ctrls := by
    cases hc : c.asContinuation with
    | error failure =>
      rw [hc] at hindexed hliteral
      exact ⟨_, _, _, ⟨_, hindexed, hs _ _⟩, ⟨_, hliteral, hs' _ _⟩⟩
    | ok cont =>
      obtain rfl := asContinuation_eq_ok hc
      obtain ⟨r, cc', hfinishes⟩ := exists_finishes_setEntry e.cc hi e.ctrls x cont
      rw [hc, lift_ok, exec_bind_pure] at hindexed hliteral
      rw [exec_bind_ok (exec_param_creg hcreg _ _ _)] at hliteral
      refine ⟨r, cc', e.ctrls, ?_, ?_⟩
      · exact (hfinishes s _ 2 1 (by decide) (by decide) (by decide) rfl rfl).of_exec hs hindexed
      · exact (hfinishes s' _ 1 0 (by decide) (by decide) (by decide) rfl rfl).of_exec hs' hliteral
  obtain ⟨r, cc, ctrls, hindexed, hliteral⟩ := hfinishes
  exact hindexed.sameOutcome hliteral fun _ _ => rfl

theorem exec_literal_pop (hi : i ∈ SaveListOf.regs) :
    ∃ s, Alike s e ∧ exec (RegisterAccess.pop.literal i) (e.given [x]) =
      exec (swap (Addr.var 0) (Addr.ctrl i)) (s.holding e.cc e.ctrls [x]) := by
  obtain ⟨s, hs, hcreg, hliteral⟩ := exec_literal_fetchStack hi 0x50 (by decide) [x] (do
    let creg ← param cregRaw
    swap (Addr.var 0) (Addr.ctrl creg)) e
  rw [exec_bind_ok (exec_param_creg hcreg _ _ _)] at hliteral
  exact ⟨s, hs, hliteral⟩

/-- The index is swapped with the register, and no register takes a number. -/
theorem sameOutcome_pop_iff (hi : i ∈ SaveListOf.regs) :
    SameOutcome id (exec RegisterAccess.pop.indexed (e.given [x, .int i]))
      (exec (RegisterAccess.pop.literal i) (e.given [x])) ↔ Misfit i x e.ctrls := by
  obtain ⟨s, hs, hindexed⟩ := exec_indexed .pop x .none (le_of_mem_regs hi) e
  obtain ⟨s', hs', hliteral⟩ := exec_literal_pop e x hi
  rw [if_pos hi] at hindexed
  have hfails : Finishes RegisterAccess.pop.indexed (e.given [x, .int i])
      (.error (.exception (.fromCode .typeCheckError))) e.cc e.ctrls :=
    (finishes_swapRegister_of_misfit e.cc hi s (by decide) rfl (misfit_int hi i e.ctrls)).of_exec hs
      hindexed
  constructor
  · intro hsame
    by_contra hfit
    obtain ⟨t, ht, -⟩ := hfails
    have hresult : (exec RegisterAccess.pop.indexed (e.given [x, .int i])).1.map id =
        (exec (RegisterAccess.pop.literal i) (e.given [x])).1 := hsame.1
    rw [ht, hliteral, ok_swapRegister e.cc hi s' (by decide) rfl hfit] at hresult
    cases hresult
  · intro hmisfit
    have hfinishes : Finishes (RegisterAccess.pop.literal i) (e.given [x]) _ _ _ :=
      (finishes_swapRegister_of_misfit e.cc hi s' (by decide) rfl hmisfit).of_exec hs' hliteral
    exact hfails.sameOutcome hfinishes fun _ _ => rfl

end Instructions

/-- `PUSHCTRX` and `SETCONTCTRX` do what their literal forms do with every number. `POPCTRX` does so only
for a value that the register does not take either. -/
theorem asLiteral_iff (e : Engine) (access : RegisterAccess) (x c : StackItem) (i : Fin 256) :
    AsLiteral e access x c i ↔ (access = .pop → i.val ∈ SaveListOf.regs → Misfit i x e.ctrls) := by
  unfold AsLiteral
  by_cases hi : i.val ∈ SaveListOf.regs
  · rw [if_pos hi]
    cases access with
    | push =>
      have hgiven : e.given (RegisterAccess.push.operands x c) = e := by
        simp [RegisterAccess.operands, given]
      rw [hgiven]
      exact iff_of_true (sameOutcome_push e hi) nofun
    | pop => exact (sameOutcome_pop_iff e x hi).trans ⟨fun h _ _ => h, fun h => h rfl hi⟩
    | setcont => exact iff_of_true (sameOutcome_setcont e x c hi) nofun
  · rw [if_neg hi]
    obtain ⟨s, -, hindexed⟩ := exec_indexed access x c (Nat.le_of_lt_succ i.isLt) e
    rw [if_neg hi] at hindexed
    exact iff_of_true ⟨_, hindexed, rfl⟩ fun _ h => absurd h hi

end Indices

section Concrete

open scoped Plain

/-- An empty cell is stored in c4 with `POPCTRX`. -/
def poppingByIndex : Engine :=
  (withCapabilities []).setupWithLibraries (Plain.code [0xC8, 0xC9, 0x74, 0xED, 0xE1]) none none none []

/-- An empty cell is stored in c4 with `POPCTR c4`. -/
def poppingByName : Engine :=
  (withCapabilities []).setupWithLibraries (Plain.code [0xC8, 0xC9, 0xED, 0x54]) none none none []

/-- A register takes a cell under its name but not by its number. -/
theorem ending_poppingByIndex :
    endedBy (passes 10 poppingByIndex).1 = some .typeCheckError ∧
      ending (passes 10 poppingByName) = (some 0, []) := by
  decide +kernel

end Concrete

end Engine

end TonVm
