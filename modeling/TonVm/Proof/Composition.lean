import TonVm.Proof.Returns

/-!
# Composition of continuations

`c ∘ᵢ c'` is `c` with `c'` saved as its `c(i)`, unless it has a saved `c(i)` already. The instructions
that compose continuations save through a swap, which replaces what is there. So they compute the
composition exactly when the entry is free, or holds the same value.
-/

namespace TonVm

open ExecLib

section Composition

variable [TonTypes]

/-- The composition: a saved register is kept. -/
def compose (i : Nat) (cont : ContinuationData) (value : Option StackItem) : ContinuationData :=
  { cont with savelist := cont.savelist.setOpt i ((cont.savelist.get i).or value) }

theorem compose_compose {i : Nat} (hi : i ∈ SaveListOf.regs) (cont : ContinuationData) (a : StackItem)
    (b : Option StackItem) :
    compose i (compose i cont (some a)) b = compose i cont (some a) := by
  unfold compose
  simp only [SaveListOf.get_setOpt _ hi, SaveListOf.setOpt_setOpt _ hi]
  cases cont.savelist.get i <;> rfl

/-- What the swap makes of a continuation: the value replaces the saved register. An absent value does
not replace anything. -/
def saveInto (i : Nat) (cont : ContinuationData) (value : Option StackItem) : Option ContinuationData :=
  match value, cont.savelist.get i with
  | some item, _ => some { cont with savelist := cont.savelist.setOpt i (some item) }
  | none, none => some cont
  | none, some _ => none

/-- The entry of a register is not used, or holds the value already. -/
def Free (i : Nat) (cont : ContinuationData) (value : Option StackItem) : Prop :=
  cont.savelist.get i = none ∨ cont.savelist.get i = value

theorem saveInto_eq_compose_iff {i : Nat} (hi : i ∈ SaveListOf.regs) {cont : ContinuationData}
    {value : Option StackItem} : saveInto i cont value = some (compose i cont value) ↔ Free i cont value := by
  unfold saveInto compose Free
  cases hget : cont.savelist.get i with
  | none =>
    refine iff_of_true ?_ (.inl rfl)
    cases value with
    | none =>
      have := SaveListOf.setOpt_get cont.savelist hi
      rw [hget] at this
      rw [Option.none_or, this]
    | some item => rfl
  | some old =>
    cases value with
    | none => simp
    | some item =>
      simp only [Option.some.injEq, reduceCtorEq, false_or, Option.or]
      constructor
      · intro h
        have := congrArg (fun cont : ContinuationData => cont.savelist.get i) h
        simpa [SaveListOf.get_setOpt _ hi, eq_comm] using this
      · rintro rfl
        rfl

/-! ### Storing through a swap -/

section Store

variable {i : Nat} {cont cont' : ContinuationData} {value : Option StackItem}
  {state : SaveList → StackItem → Engine}

theorem saveInto_frame (h : saveInto i cont value = some cont') :
    cont' = { cont with savelist := cont'.savelist } := by
  unfold saveInto at h
  split at h <;> cases h <;> rfl

/-- A swap with a variable that holds a continuation, or Null for none. -/
theorem swapOutcome_of_saveInto (hi : i = 0 ∨ i = 1) (hvalue : Fits i value)
    (h : saveInto i cont value = some cont') :
    ∃ w, Engine.swapOutcome i state cont.savelist (value.getD .none) =
      (.ok (), state cont'.savelist w) := by
  unfold saveInto at h
  split at h
  · rename_i item
    cases h
    have hput := hvalue item rfl
    refine ⟨_, Engine.swapOutcome_put hput ?_⟩
    cases item with
    | none => rcases hi with rfl | rfl <;> cases hput
    | _ => rfl
  · rename_i hget
    cases h
    exact ⟨_, Engine.swapOutcome_empty hget⟩
  · cases h

theorem swapOutcome_of_saveInto_none (hi : i = 0 ∨ i = 1) (h : saveInto i cont value = none) :
    ∃ t, Engine.swapOutcome i state cont.savelist (value.getD .none) =
      (.error (.exception (.fromCode .typeCheckError)), t) := by
  unfold saveInto at h
  split at h
  · cases h
  · cases h
  · rename_i hget
    refine ⟨_, Engine.swapOutcome_misfit ?_ hget⟩
    rcases hi with rfl | rfl <;> rfl

end Store

namespace Engine

/-! ### The instructions -/

inductive CompositionInstruction where
  | compos
  | composalt
  | composboth
  | thenret
  | thenretalt
  | atexit
  | atexitalt
  | setexitalt
  deriving DecidableEq

namespace CompositionInstruction

def handler : CompositionInstruction → M Unit
  | compos => executeCompos
  | composalt => executeComposalt
  | composboth => executeComposboth
  | thenret => executeThenret
  | thenretalt => executeThenretalt
  | atexit => executeAtexit
  | atexitalt => executeAtexitalt
  | setexitalt => executeSetexitalt

/-- The continuations that the instruction takes from the stack. -/
def args (cont cont' : ContinuationData) : CompositionInstruction → Stack
  | compos | composalt | composboth => [.continuation cont, .continuation cont']
  | _ => [.continuation cont]

/-- The stack and the registers as documented. -/
def documented (e : Engine) (stack : Stack) (cont cont' : ContinuationData) :
    CompositionInstruction → Stack × SaveList
  | compos => (stack ++ [.continuation (compose 0 cont (some (.continuation cont')))], e.ctrls)
  | composalt => (stack ++ [.continuation (compose 1 cont (some (.continuation cont')))], e.ctrls)
  | composboth => (stack ++ [.continuation (compose 1 (compose 0 cont (some (.continuation cont')))
      (some (.continuation cont')))], e.ctrls)
  | thenret => (stack ++ [.continuation (compose 0 cont e.ctrls.c0)], e.ctrls)
  | thenretalt => (stack ++ [.continuation (compose 0 cont e.ctrls.c1)], e.ctrls)
  | atexit => (stack, { e.ctrls with c0 := some (.continuation (compose 0 cont e.ctrls.c0)) })
  | atexitalt => (stack, { e.ctrls with c1 := some (.continuation (compose 1 cont e.ctrls.c1)) })
  | setexitalt => (stack, { e.ctrls with c1 := some (.continuation
      (compose 1 (compose 0 cont e.ctrls.c0) e.ctrls.c1)) })

/-- The stack and the registers that the code computes, or nothing when it fails. `SETEXITALT` looks at
the save list of the current continuation before it stores c1. -/
def computed (e : Engine) (stack : Stack) (cont cont' : ContinuationData) :
    CompositionInstruction → Option (Stack × SaveList)
  | compos => do
    let cont ← saveInto 0 cont (some (.continuation cont'))
    return (stack ++ [.continuation cont], e.ctrls)
  | composalt => do
    let cont ← saveInto 1 cont (some (.continuation cont'))
    return (stack ++ [.continuation cont], e.ctrls)
  | composboth => do
    let cont ← saveInto 0 cont (some (.continuation cont'))
    let cont ← saveInto 1 cont (some (.continuation cont'))
    return (stack ++ [.continuation cont], e.ctrls)
  | thenret => do
    let cont ← saveInto 0 cont e.ctrls.c0
    return (stack ++ [.continuation cont], e.ctrls)
  | thenretalt => do
    let cont ← saveInto 0 cont e.ctrls.c1
    return (stack ++ [.continuation cont], e.ctrls)
  | atexit => do
    let cont ← saveInto 0 cont e.ctrls.c0
    return (stack, { e.ctrls with c0 := some (.continuation cont) })
  | atexitalt => do
    let cont ← saveInto 1 cont e.ctrls.c1
    return (stack, { e.ctrls with c1 := some (.continuation cont) })
  | setexitalt => do
    let cont ← saveInto 0 cont e.ctrls.c0
    let cont ← if e.cc.savelist.c1.isSome then saveInto 1 cont e.ctrls.c1 else some cont
    return (stack, { e.ctrls with c1 := some (.continuation cont) })

variable {e : Engine} {stack : Stack} {cont cont' : ContinuationData}

/-! ### What the code computes -/

section Yields

/-- The program ends with this stack and these registers and leaves the rest of `base`, or it fails
with a type check error. -/
def Yields (m : M Unit) (s base : Engine) : Option (Stack × SaveList) → Prop
  | some (stack, ctrls) => ∃ t, exec m s = (.ok (), t) ∧
      t.core = base.core.holding { base.cc with stack } ctrls []
  | none => ∃ t, exec m s = (.error (.exception (.fromCode .typeCheckError)), t)

variable {m m' : M Unit} {s s' base : Engine} {r : Option (Stack × SaveList)}

theorem Yields.of_exec (h : Yields m' s' base r) (hexec : exec m s = exec m' s') : Yields m s base r := by
  rcases r with _ | ⟨stack, ctrls⟩
  · obtain ⟨t, ht⟩ := h
    exact ⟨t, hexec.trans ht⟩
  · obtain ⟨t, ht, hcore⟩ := h
    exact ⟨t, hexec.trans ht, hcore⟩

/-- A swap that puts a value into a save list, and what follows it. -/
theorem yields_swap {i : Nat} {state : SaveList → StackItem → Engine} {value : Option StackItem}
    {next : Unit → M Unit} {rest : ContinuationData → Option (Stack × SaveList)}
    (hswap : exec m s = swapOutcome i state cont.savelist (value.getD .none)) (hi : i = 0 ∨ i = 1)
    (hvalue : Fits i value)
    (h : ∀ cont' w, cont' = { cont with savelist := cont'.savelist } →
      Yields (next ()) (state cont'.savelist w) base (rest cont')) :
    Yields (m >>= next) s base (saveInto i cont value >>= rest) := by
  cases hsave : saveInto i cont value with
  | none =>
    obtain ⟨t, ht⟩ := swapOutcome_of_saveInto_none hi hsave
    exact ⟨t, exec_bind_error (hswap.trans ht)⟩
  | some cont' =>
    obtain ⟨w, hw⟩ := swapOutcome_of_saveInto hi hvalue hsave
    exact (h cont' w (saveInto_frame hsave)).of_exec (exec_bind_ok (hswap.trans hw))

end Yields

section Computed

/-- The common end of `COMPOS` and `COMPOSALT`. -/
theorem yields_saveSecond {i : Nat} (hi : i = 0 ∨ i = 1) :
    Yields (do
      swap (Addr.var 0) (Addr.savelist (Addr.var 1) i)
      push (← popVar)) (e.afterLoad.holding { e.cc with stack } e.ctrls
        [.continuation cont', .continuation cont]) e (do
      let cont ← saveInto i cont (some (.continuation cont'))
      return (stack ++ [.continuation cont], e.ctrls)) := by
  refine yields_swap (exec_swap_var_varSavelist (mem_regs_of hi) (by decide) (by decide) (by decide) rfl
    rfl) hi (fits_continuation hi cont') fun cont'' w hcont => ?_
  rw [← hcont]
  exact ⟨_, rfl, rfl⟩

theorem yields_compos (hstack : e.cc.stack = stack ++ [.continuation cont, .continuation cont']) :
    Yields executeCompos e e (computed e stack cont cont' compos) := by
  refine (yields_saveSecond (.inl rfl)).of_exec ?_
  unfold executeCompos
  rw [exec_bind_ok (exec_load e), exec_bind_ok ((loaded_afterLoad e).exec_fetchStack_two hstack)]
  rfl

theorem yields_composalt (hstack : e.cc.stack = stack ++ [.continuation cont, .continuation cont']) :
    Yields executeComposalt e e (computed e stack cont cont' composalt) := by
  refine (yields_saveSecond (.inr rfl)).of_exec ?_
  unfold executeComposalt
  rw [exec_bind_ok (exec_load e), exec_bind_ok ((loaded_afterLoad e).exec_fetchStack_two hstack)]
  rfl

theorem yields_composboth
    (hstack : e.cc.stack = stack ++ [.continuation cont, .continuation cont']) :
    Yields executeComposboth e e (computed e stack cont cont' composboth) := by
  have hstart : exec executeComposboth e = exec (do
      swap (Addr.var 0) (Addr.savelist (Addr.var 1) 0)
      swap (Addr.var 2) (Addr.savelist (Addr.var 1) 1)
      push (← removeVar 1)) (e.afterLoad.holding { e.cc with stack } e.ctrls
        [.continuation cont', .continuation cont, .continuation cont']) := by
    unfold executeComposboth
    rw [exec_bind_ok (exec_load e), exec_bind_ok ((loaded_afterLoad e).exec_fetchStack_two hstack)]
    rfl
  refine Yields.of_exec ?_ hstart
  refine yields_swap (exec_swap_var_varSavelist (by decide) (by decide) (by decide) (by decide) rfl
    rfl) (.inl rfl) (fits_continuation (.inl rfl) cont') fun cont₁ w₁ hcont₁ => ?_
  rw [← hcont₁]
  refine yields_swap (exec_swap_var_varSavelist (by decide) (by decide) (by decide) (by decide) rfl
    rfl) (.inr rfl) (fits_continuation (.inr rfl) cont') fun cont₂ w₂ hcont₂ => ?_
  rw [← hcont₂]
  exact ⟨_, rfl, rfl⟩

/-- The common end of `THENRET` and `THENRETALT`. -/
theorem yields_saveRegister {value : Option StackItem} (hvalue : Fits 0 value) :
    Yields (do
      swap (Addr.savelist (Addr.var 0) 0) (Addr.var 1)
      push (← removeVar 0)) (e.afterLoad.holding { e.cc with stack } e.ctrls
        [.continuation cont, value.getD .none]) e (do
      let cont ← saveInto 0 cont value
      return (stack ++ [.continuation cont], e.ctrls)) := by
  rw [swap_savelist_var (by decide) (by decide) (by decide)]
  refine yields_swap (exec_swap_var_varSavelist (by decide) (by decide) (by decide) (by decide) rfl
    rfl) (.inl rfl) hvalue fun cont'' w hcont => ?_
  rw [← hcont]
  exact ⟨_, rfl, rfl⟩

theorem yields_thenret (he : RegistersTyped e) (hstack : e.cc.stack = stack ++ [.continuation cont]) :
    Yields executeThenret e e (computed e stack cont cont' thenret) := by
  refine (yields_saveRegister (he.fits_ctrls (i := 0) (by decide))).of_exec ?_
  unfold executeThenret
  rw [exec_bind_ok (exec_load e), exec_bind_ok ((loaded_afterLoad e).exec_fetchStack_one hstack)]
  rfl

theorem yields_thenretalt (he : RegistersTyped e)
    (hstack : e.cc.stack = stack ++ [.continuation cont]) :
    Yields executeThenretalt e e (computed e stack cont cont' thenretalt) := by
  -- c0 and c1 take the same values
  have hfits : Fits 0 (e.ctrls.get 1) := he.fits_ctrls (i := 1) (by decide)
  refine (yields_saveRegister hfits).of_exec ?_
  unfold executeThenretalt
  rw [exec_bind_ok (exec_load e), exec_bind_ok ((loaded_afterLoad e).exec_fetchStack_one hstack)]
  rfl

/-- The common end of `ATEXIT` and `ATEXITALT`. -/
theorem yields_replaceRegister (he : RegistersTyped e) {i : Nat} (hi : i = 0 ∨ i = 1) :
    Yields (do
      swap (Addr.var 0) (Addr.ctrl i)
      swap (Addr.var 0) (Addr.savelist (Addr.ctrl i) i))
      (e.afterLoad.holding { e.cc with stack } e.ctrls [.continuation cont]) e (do
      let cont ← saveInto i cont (e.ctrls.get i)
      return (stack, e.ctrls.setOpt i (some (.continuation cont)))) := by
  have hregs := mem_regs_of hi
  have hi16 : i < 16 := (lt_of_mem_regs hregs).trans (by decide)
  have hput : SaveList.canPut i (.continuation cont) = true := fits_continuation hi cont _ rfl
  have hstart : exec (do
      swap (Addr.var 0) (Addr.ctrl i)
      swap (Addr.var 0) (Addr.savelist (Addr.ctrl i) i))
      (e.afterLoad.holding { e.cc with stack } e.ctrls [.continuation cont]) = exec (do
      swap (Addr.var 0) (Addr.savelist (Addr.ctrl i) i)
      pure ()) (e.afterLoad.holding { e.cc with stack } (e.ctrls.setOpt i (some (.continuation cont)))
        [(e.ctrls.get i).getD .none]) := by
    rw [swap_var_ctrl (by decide) hi16,
      exec_bind_ok ((exec_swap_ctrl_var hi16 (by decide) rfl).trans (swapOutcome_put hput rfl)), bind_pure]
    rfl
  refine Yields.of_exec ?_ hstart
  refine yields_swap (exec_swap_var_ctrlSavelist hregs hregs (by decide) rfl
    (SaveListOf.get_setOpt _ hregs _)) hi (he.fits_ctrls hregs) fun cont'' w hcont => ?_
  rw [← hcont, SaveListOf.setOpt_setOpt _ hregs]
  exact ⟨_, rfl, rfl⟩

theorem yields_atexit (he : RegistersTyped e) (hstack : e.cc.stack = stack ++ [.continuation cont]) :
    Yields executeAtexit e e (computed e stack cont cont' atexit) := by
  refine (yields_replaceRegister he (.inl rfl)).of_exec ?_
  unfold executeAtexit
  rw [exec_bind_ok (exec_load e), exec_bind_ok ((loaded_afterLoad e).exec_fetchStack_one hstack)]
  rfl

theorem yields_atexitalt (he : RegistersTyped e)
    (hstack : e.cc.stack = stack ++ [.continuation cont]) :
    Yields executeAtexitalt e e (computed e stack cont cont' atexitalt) := by
  refine (yields_replaceRegister he (.inr rfl)).of_exec ?_
  unfold executeAtexitalt
  rw [exec_bind_ok (exec_load e), exec_bind_ok ((loaded_afterLoad e).exec_fetchStack_one hstack)]
  rfl

theorem yields_setexitalt (he : RegistersTyped e)
    (hstack : e.cc.stack = stack ++ [.continuation cont]) :
    Yields executeSetexitalt e e (computed e stack cont cont' setexitalt) := by
  have hs := loaded_afterLoad e
  have hstart : exec executeSetexitalt e = exec (do
      swap (Addr.var 1) (Addr.savelist (Addr.var 0) 0)
      replaceC1) (e.afterLoad.holding { e.cc with stack } e.ctrls
        [.continuation cont, e.ctrls.c0.getD .none]) := by
    unfold executeSetexitalt
    rw [exec_bind_ok (exec_load e), exec_bind_ok (hs.exec_fetchStack_one hstack)]
    rfl
  have hlast (vars : List StackItem) (cont₁ : ContinuationData) :
      Yields (swap (Addr.var 0) (Addr.ctrl 1)) (e.afterLoad.holding { e.cc with stack } e.ctrls
        (.continuation cont₁ :: vars)) e
        (some (stack, { e.ctrls with c1 := some (.continuation cont₁) })) := by
    rw [swap_var_ctrl (by decide) (by decide)]
    exact ⟨_, (exec_swap_ctrl_var (by decide) (by decide) rfl).trans (swapOutcome_put rfl rfl), rfl⟩
  refine Yields.of_exec ?_ hstart
  refine yields_swap (exec_swap_var_varSavelist (by decide) (by decide) (by decide) (by decide) rfl
    rfl) (.inl rfl) (he.fits_ctrls (i := 0) (by decide)) fun cont₁ w₁ hcont₁ => ?_
  rw [← hcont₁]
  cases hsaved : e.cc.savelist.c1 with
  | none =>
    refine (hlast [w₁] cont₁).of_exec ?_
    rw [exec_bind_get]
    simp only [holding_cc, SaveListOf.get_one, hsaved]
    rfl
  | some saved =>
    have hexec : exec replaceC1 (e.afterLoad.holding { e.cc with stack } e.ctrls
            [.continuation cont₁, w₁]) = exec (do
          swap (Addr.var 2) (Addr.savelist (Addr.var 0) 1)
          swap (Addr.var 0) (Addr.ctrl 1)) (e.afterLoad.holding { e.cc with stack } e.ctrls
            [.continuation cont₁, w₁, e.ctrls.c1.getD .none]) := by
      rw [exec_bind_get]
      simp only [holding_cc, SaveListOf.get_one, hsaved]
      rfl
    refine Yields.of_exec ?_ hexec
    refine yields_swap (exec_swap_var_varSavelist (by decide) (by decide) (by decide) (by decide) rfl
      rfl) (.inr rfl) (he.fits_ctrls (i := 1) (by decide)) fun cont₂ w₂ hcont₂ => ?_
    rw [← hcont₂]
    exact hlast [w₁, w₂] cont₂

theorem yields_computed (he : RegistersTyped e) (i : CompositionInstruction)
    (hstack : e.cc.stack = stack ++ i.args cont cont') :
    Yields i.handler e e (computed e stack cont cont' i) := by
  cases i with
  | compos => exact yields_compos hstack
  | composalt => exact yields_composalt hstack
  | composboth => exact yields_composboth hstack
  | thenret => exact yields_thenret he hstack
  | thenretalt => exact yields_thenretalt he hstack
  | atexit => exact yields_atexit he hstack
  | atexitalt => exact yields_atexitalt he hstack
  | setexitalt => exact yields_setexitalt he hstack

end Computed

/-! ### Agreement with the composition -/

/-- No entry that the instruction writes is in use. What `SETEXITALT` does with c1 depends on the save
list of the current continuation: if it has no c1, then c1 is not saved. -/
def EntriesFree (e : Engine) (cont cont' : ContinuationData) : CompositionInstruction → Prop
  | compos => Free 0 cont (some (.continuation cont'))
  | composalt => Free 1 cont (some (.continuation cont'))
  | composboth => Free 0 cont (some (.continuation cont')) ∧ Free 1 cont (some (.continuation cont'))
  | thenret => Free 0 cont e.ctrls.c0
  | thenretalt => Free 0 cont e.ctrls.c1
  | atexit => Free 0 cont e.ctrls.c0
  | atexitalt => Free 1 cont e.ctrls.c1
  | setexitalt => Free 0 cont e.ctrls.c0 ∧
      if e.cc.savelist.c1.isSome then Free 1 cont e.ctrls.c1
      else cont.savelist.c1.isSome ∨ e.ctrls.c1 = none

theorem Yields.unique {m : M Unit} {s base : Engine} {r r' : Option (Stack × SaveList)}
    (h : Yields m s base r) (h' : Yields m s base r') : r = r' := by
  rcases r with _ | ⟨stack, ctrls⟩ <;> rcases r' with _ | ⟨stack', ctrls'⟩
  · rfl
  · obtain ⟨t, ht⟩ := h
    obtain ⟨t', ht', -⟩ := h'
    rw [ht] at ht'
    cases ht'
  · obtain ⟨t, ht, -⟩ := h
    obtain ⟨t', ht'⟩ := h'
    rw [ht] at ht'
    cases ht'
  · obtain ⟨t, ht, hcore⟩ := h
    obtain ⟨t', ht', hcore'⟩ := h'
    rw [ht] at ht'
    cases ht'
    rw [hcore] at hcore'
    have hstack := congrArg (fun e : Engine => e.cc.stack) hcore'
    have hctrls := congrArg Engine.ctrls hcore'
    exact congrArg some (Prod.ext hstack hctrls)

/-- Two entries saved one after the other. -/
theorem saveInto_saveInto_iff {value value' : Option StackItem} :
    (saveInto 0 cont value).bind (saveInto 1 · value') =
      some (compose 1 (compose 0 cont value) value') ↔ Free 0 cont value ∧ Free 1 cont value' := by
  rcases cont with ⟨code, nargs, ⟨c0, c1, c2, c3, c4, c5, c7⟩, stack, typeOf⟩
  cases c0 <;> cases c1 <;> cases value <;> cases value' <;>
    simp [saveInto, compose, Free, eq_comm]

theorem saveInto_eq_compose_one_iff {value value' : Option StackItem} :
    saveInto 0 cont value = some (compose 1 (compose 0 cont value) value') ↔
      Free 0 cont value ∧ (cont.savelist.c1.isSome ∨ value' = none) := by
  rcases cont with ⟨code, nargs, ⟨c0, c1, c2, c3, c4, c5, c7⟩, stack, typeOf⟩
  cases c0 <;> cases c1 <;> cases value <;> cases value' <;>
    simp [saveInto, compose, Free, eq_comm]

omit [TonTypes] in
theorem bind_some_eq_iff {α β : Type} {f : α → β} (hf : Function.Injective f) {x : Option α} {a : α} :
    (x >>= fun a => some (f a)) = some (f a) ↔ x = some a := by
  cases x <;> simp [hf.eq_iff]

theorem computed_eq_documented_iff (i : CompositionInstruction) :
    computed e stack cont cont' i = some (documented e stack cont cont' i) ↔
      EntriesFree e cont cont' i := by
  have hpushed : Function.Injective fun cont => (stack ++ [StackItem.continuation cont], e.ctrls) := by
    intro cont cont' h
    simpa using h
  have hc0 : Function.Injective fun cont =>
      (stack, { e.ctrls with c0 := some (StackItem.continuation cont) }) := by
    intro cont cont' h
    simpa using h
  have hc1 : Function.Injective fun cont =>
      (stack, { e.ctrls with c1 := some (StackItem.continuation cont) }) := by
    intro cont cont' h
    simpa using h
  cases i with
  | compos => exact (bind_some_eq_iff hpushed).trans (saveInto_eq_compose_iff (by decide))
  | composalt => exact (bind_some_eq_iff hpushed).trans (saveInto_eq_compose_iff (by decide))
  | composboth =>
    refine Iff.trans ?_ saveInto_saveInto_iff
    refine Iff.trans ?_ (bind_some_eq_iff hpushed)
    exact iff_of_eq (congrArg (· = _) (bind_assoc _ _ _).symm)
  | thenret => exact (bind_some_eq_iff hpushed).trans (saveInto_eq_compose_iff (by decide))
  | thenretalt => exact (bind_some_eq_iff hpushed).trans (saveInto_eq_compose_iff (by decide))
  | atexit => exact (bind_some_eq_iff hc0).trans (saveInto_eq_compose_iff (by decide))
  | atexitalt => exact (bind_some_eq_iff hc1).trans (saveInto_eq_compose_iff (by decide))
  | setexitalt =>
    cases hsaved : e.cc.savelist.c1.isSome with
    | true =>
      simp only [computed, EntriesFree, hsaved, if_true]
      refine Iff.trans ?_ saveInto_saveInto_iff
      refine Iff.trans ?_ (bind_some_eq_iff hc1)
      exact iff_of_eq (congrArg (· = _) (bind_assoc _ _ _).symm)
    | false =>
      simp only [computed, EntriesFree, hsaved, if_false, Bool.false_eq_true]
      exact (bind_some_eq_iff hc1).trans saveInto_eq_compose_one_iff

/-- Each of the instructions computes the documented composition exactly when the entries it writes are
free. The composition is idempotent in its first argument. -/
theorem composes_iff (he : RegistersTyped e) (i : CompositionInstruction)
    (hstack : e.cc.stack = stack ++ i.args cont cont') :
    (Yields i.handler e e (some (documented e stack cont cont' i)) ↔ EntriesFree e cont cont' i) ∧
      ∀ j ∈ SaveListOf.regs, ∀ a b, compose j (compose j cont (some a)) b = compose j cont (some a) := by
  have hcomputed := yields_computed he i hstack
  refine ⟨?_, fun j hj a b => compose_compose hj cont a b⟩
  rw [← computed_eq_documented_iff]
  constructor
  · exact hcomputed.unique
  · intro heq
    rwa [heq] at hcomputed

end CompositionInstruction

end Engine

end Composition

namespace Engine

open scoped Plain CompositionInstruction

theorem composes_jumping :
    CompositionInstruction.Yields executeThenret jumping jumping (some
      (CompositionInstruction.documented jumping [.int 1] { code := Plain.code [], nargs := 1 }
        .newEmpty .thenret)) :=
  (CompositionInstruction.composes_iff registersTyped_jumping .thenret rfl).1.2 (.inl rfl)

/-- The empty continuation is composed with one that pushes 1 and then with one that pushes 2. -/
def composingTwice : Engine :=
  (withCapabilities []).setupWithLibraries (Plain.code
    [0x90, 0x91, 0x71, 0xED, 0xF0, 0x91, 0x72, 0xED, 0xF0, 0x7F, 0xDB, 0x3A]) none none none []

/-- `SETEXITALT` with a continuation that returns to its c1, while c1 pushes 7. -/
def settingExitAlt : Engine :=
  (withCapabilities []).setupWithLibraries (Plain.code
    [0x91, 0x77, 0xED, 0x51, 0x92, 0xDB, 0x31, 0xED, 0xF5, 0xDB, 0x31]) none none none []

/-- The second composition replaces the first, so the result pushes 2. `SETEXITALT` does not save c1, so
nothing is pushed and the exit code is 1. -/
theorem ending_composingTwice :
    ending (passes 10 composingTwice) = (some 0, [2]) ∧
    ending (passes 10 settingExitAlt) = (some 1, []) := by
  decide +kernel

end Engine

end TonVm
