import TonVm.Proof.Returns

/-!
# Saving a register in c0 and c1

`SAVE` and `SAVEALT` put the current value of a register into the save list of c0 and of c1, where it
has no entry yet. `SAVEBOTH` stands for one after the other. Its test of c0 and c1 is the wrong way
round: it raises an exception when one of them is present.
-/

namespace TonVm

open ExecLib

namespace Engine

section SaveBoth

variable [TonTypes]

theorem cc_of_core {e s : Engine} (h : s.core = e.core) : s.cc = e.cc := by
  rw [← core_cc s, h, core_cc]

theorem ctrls_of_core {e s : Engine} (h : s.core = e.core) : s.ctrls = e.ctrls := by
  rw [← core_ctrls s, h, core_ctrls]

/-- The registers after the value of `c(i)` is saved in the continuation of another register, or nothing
when this is a type error. -/
def entrySaved (i index : Nat) (ctrls : SaveList) : Option SaveList :=
  match ctrls.get index with
  | some (.continuation cont) =>
    let value := (ctrls.get i).getD .none
    if (cont.savelist.get i).isSome || value.isNull then
      some ctrls
    else if SaveList.canPut i value then
      some (ctrls.setOpt index (some (.continuation
        { cont with savelist := cont.savelist.setOpt i (some value) })))
    else
      none
  | _ => none

/-- How an attempt to save an entry ends. -/
def savingResult : Option SaveList → Except Error Unit
  | some _ => .ok ()
  | none => .error (.exception (.fromCode .typeCheckError))

/-- The program changes the registers in this way, or raises a type check error and changes nothing. -/
def Saves (m : M Unit) (s : Engine) (r : Option SaveList) : Prop :=
  ∃ t, exec m s = (savingResult r, t) ∧ t.core = s.core.holding s.cc (r.getD s.ctrls) []

section Save

variable (e : Engine) (cc : ContinuationData) {ctrls : SaveList} {i index : Nat}

/-- The part of `save` that follows its test of the entry. -/
theorem saves_store (hi : i ∈ SaveListOf.regs) (hindex : index ∈ SaveListOf.regs)
    {cont : ContinuationData} (hcont : ctrls.get index = some (.continuation cont))
    (hfree : cont.savelist.get i = none) :
    Saves (do
      copyToVar (Addr.ctrl i)
      swap (Addr.var 0) (Addr.savelist (Addr.ctrl index) i)) (e.holding cc ctrls [])
      (entrySaved i index ctrls) := by
  have hi16 : i < 16 := (lt_of_mem_regs hi).trans (by decide)
  have hback : ctrls.setOpt index (some (.continuation { cont with savelist := cont.savelist })) =
      ctrls := by
    rw [← SaveListOf.setOpt_get ctrls hindex, hcont, SaveListOf.setOpt_setOpt _ hindex]
  unfold Saves
  rw [exec_bind_ok (exec_copyToVar_getD hi16), exec_swap_var_ctrlSavelist hi hindex (by decide) rfl hcont]
  unfold swapOutcome entrySaved
  simp only [hcont, hfree, Option.isNone_none, Option.isSome_none, Bool.and_true, Bool.false_or]
  by_cases hnull : ((ctrls.get i).getD .none).isNull = true
  · simp only [hnull, if_true]
    refine ⟨_, rfl, ?_⟩
    rw [hback]
    rfl
  · simp only [hnull, if_false, Bool.false_eq_true]
    by_cases hput : SaveList.canPut i ((ctrls.get i).getD .none) = true
    · simp only [hput, if_true]
      exact ⟨_, rfl, rfl⟩
    · simp only [hput, if_false, Bool.false_eq_true]
      refine ⟨_, rfl, ?_⟩
      rw [hback]
      rfl

theorem exec_param_creg {s : Engine} (hcreg : cregRaw s.cmd = some i) (cc : ContinuationData)
    (ctrls : SaveList) (vars : List StackItem) :
    exec (param cregRaw) (s.holding cc ctrls vars) = (.ok i, s.holding cc ctrls vars) := by
  have hsame : cregRaw (s.holding cc ctrls vars).cmd = some i := hcreg
  unfold param
  rw [exec_bind_get, hsame]
  rfl

theorem saves_save (ctrls : SaveList) (hi : i ∈ SaveListOf.regs) (hindex : index ∈ SaveListOf.regs)
    (hcreg : cregRaw e.cmd = some i) :
    Saves (save index) (e.holding cc ctrls []) (entrySaved i index ctrls) := by
  unfold Saves save
  rw [exec_bind_ok (exec_param_creg hcreg cc ctrls []), exec_bind_get, holding_ctrls]
  cases hget : ctrls.get index with
  | none =>
    have hnone : entrySaved i index ctrls = none := by simp only [entrySaved, hget]
    rw [hnone]
    exact ⟨_, rfl, rfl⟩
  | some item =>
    cases item with
    | continuation cont =>
      cases hentry : cont.savelist.get i with
      | none =>
        obtain ⟨t, ht, hcore⟩ := saves_store e cc hi hindex hget hentry
        refine ⟨t, ?_, hcore⟩
        rw [← ht]
        simp only [StackItem.asContinuation, lift_ok, pure_bind, hentry, Option.isNone_none, if_true,
          exec_bind_get]
        rfl
      | some old =>
        have hkept : entrySaved i index ctrls = some ctrls := by
          simp only [entrySaved, hget, hentry, Option.isSome_some, Bool.true_or, if_true]
        rw [hkept]
        refine ⟨e.holding cc ctrls [], ?_, rfl⟩
        simp only [StackItem.asContinuation, lift_ok, pure_bind, hentry, Option.isNone_some,
          Bool.false_eq_true, if_false]
        rfl
    | _ =>
      have hnone : entrySaved i index ctrls = none := by simp only [entrySaved, hget]
      rw [hnone]
      exact ⟨_, rfl, rfl⟩

end Save

/-! ### The instructions -/

/-- Runs the handler of an instruction that ends in this byte. -/
def dispatched (byte : Nat) (handler : M Unit) : M Unit := do
  modify fun e => { e with lastCmd := UInt8.ofNat byte }
  handler

/-- `SAVEBOTH c(i)`. -/
def saveboth (i : Nat) : M Unit := dispatched (0xC0 + i) executeSaveboth

/-- `SAVE c(i)` and then `SAVEALT c(i)`. -/
def saveThenSavealt (i : Nat) : M Unit := do
  dispatched (0xA0 + i) executeSave
  dispatched (0xB0 + i) executeSavealt

variable {i : Nat}

theorem exec_loadControlRegister (hi : i ∈ SaveListOf.regs) {e : Engine} (hnibble : lastNibble e = i) :
    ∃ s, exec (loadInstruction (some .controlRegister)) e = (.ok (), s) ∧ s.cmd.vars = [] ∧
      s.core = e.core ∧ cregRaw s.cmd = some i := by
  refine ⟨{ e.afterLoad with cmd.params := [.controlRegister i] }, ?_, rfl, rfl, rfl⟩
  have hafter : exec loadInstruction e = (.ok (), e.afterLoad) := exec_load e
  have hparam : lastNibble e.afterLoad = i := hnibble
  unfold loadInstruction extractInstruction at *
  rw [exec_bind_modify] at *
  dsimp only at *
  rw [exec_bind_ok hafter, exec_bind_get, hparam]
  rw [if_neg (not_not_intro hi)]
  rfl

omit [TonTypes] in
theorem nibble_of_byte {base : Nat} (hbase : 16 ∣ base) (hi : i ∈ SaveListOf.regs) :
    (UInt8.ofNat (base + i) &&& 0x0F).toNat = i := by
  have hlt := lt_of_mem_regs hi
  have hmask : (0x0F : UInt8).toNat = 2 ^ 4 - 1 := rfl
  rw [UInt8.toNat_and, hmask, Nat.and_two_pow_sub_one_eq_mod, UInt8.toNat_ofNat']
  omega

/-- The number of a register is in the last byte of the code of an instruction. -/
theorem exec_dispatched (hi : i ∈ SaveListOf.regs) (base : Nat) (hbase : 16 ∣ base)
    (k : M Unit) (e : Engine) :
    ∃ s, s.core = e.core ∧ s = s.holding e.cc e.ctrls [] ∧ cregRaw s.cmd = some i ∧
      exec (dispatched (base + i) (do
        loadInstruction (some .controlRegister)
        k)) e = exec k s := by
  have hnibble : lastNibble { e with lastCmd := UInt8.ofNat (base + i) } = i :=
    nibble_of_byte hbase hi
  obtain ⟨s, hload, hvars, hcore, hcreg⟩ := exec_loadControlRegister hi hnibble
  have hcc : s.cc = e.cc := cc_of_core hcore
  have hctrls : s.ctrls = e.ctrls := ctrls_of_core hcore
  refine ⟨s, hcore, ?_, hcreg, ?_⟩
  · rw [← hcc, ← hctrls, ← hvars]
    exact eq_holding s
  · unfold dispatched
    rw [exec_bind_modify, exec_bind_ok hload]

theorem saves_dispatched (hi : i ∈ SaveListOf.regs) (base index : Nat)
    (hbase : 16 ∣ base) (hindex : index ∈ SaveListOf.regs) (e : Engine) :
    Saves (dispatched (base + i) (do
      loadInstruction (some .controlRegister)
      save index)) e (entrySaved i index e.ctrls) := by
  obtain ⟨s, hcore, hs, hcreg, hexec⟩ := exec_dispatched hi base hbase (save index) e
  obtain ⟨t, ht, htcore⟩ := saves_save s e.cc e.ctrls hi hindex hcreg
  rw [← hs] at ht htcore
  refine ⟨t, hexec.trans ht, ?_⟩
  have hcc : s.cc = e.cc := cc_of_core hcore
  have hctrls : s.ctrls = e.ctrls := ctrls_of_core hcore
  rw [htcore, hcore, hcc, hctrls]

/-- `SAVEBOTH` always fails: a register that is present is refused by the test, and one that is absent
by `save`. -/
theorem exec_saveboth (hi : i ∈ SaveListOf.regs) (e : Engine) : Saves (saveboth i) e none := by
  obtain ⟨s, hcore, hs, hcreg, hexec⟩ := exec_dispatched hi 0xC0 (by decide) (do
    if ((← get).ctrls.get 0).isSome || ((← get).ctrls.get 1).isSome then
      err .typeCheckError
    else
      save 0
    save 1) e
  have hctrls : s.ctrls = e.ctrls := ctrls_of_core hcore
  unfold Saves
  have hstart : exec (saveboth i) e = _ := hexec
  rw [hstart, exec_bind_get, exec_bind_get]
  by_cases hpresent : ((s.ctrls.get 0).isSome || (s.ctrls.get 1).isSome) = true
  · rw [if_pos hpresent]
    exact ⟨s, rfl, hcore⟩
  · have hc0 : e.ctrls.get 0 = none := by
      rw [← hctrls]
      cases hget : s.ctrls.get 0 with
      | none => rfl
      | some item => simp [hget] at hpresent
    obtain ⟨t, ht, htcore⟩ := saves_save s e.cc e.ctrls hi
      (mem_regs_of (.inl rfl)) hcreg
    have hnone : entrySaved i 0 e.ctrls = none := by simp only [entrySaved, hc0]
    rw [hnone, ← hs] at ht htcore
    rw [if_neg hpresent, exec_bind_error ht]
    refine ⟨t, rfl, ?_⟩
    have hcc : s.cc = e.cc := cc_of_core hcore
    rw [htcore, hcore, hcc, hctrls]

/-- What `SAVE` stored stays when `SAVEALT` fails. -/
theorem exec_saveThenSavealt (hi : i ∈ SaveListOf.regs) (e : Engine) :
    ∃ t, exec (saveThenSavealt i) e =
        (savingResult ((entrySaved i 0 e.ctrls).bind (entrySaved i 1)), t) ∧
      t.core = e.core.holding e.cc
        (((entrySaved i 0 e.ctrls).bind (entrySaved i 1)).getD ((entrySaved i 0 e.ctrls).getD e.ctrls))
        [] := by
  obtain ⟨s, hs, hscore⟩ := saves_dispatched hi 0xA0 0 (by decide) (by decide) e
  have hsave : exec (dispatched (0xA0 + i) executeSave) e = _ := hs
  unfold saveThenSavealt
  cases hentry : entrySaved i 0 e.ctrls with
  | none =>
    rw [hentry] at hsave hscore
    exact ⟨s, exec_bind_error hsave, hscore⟩
  | some ctrls =>
    rw [hentry] at hsave hscore
    have hctrls : s.ctrls = ctrls := by
      rw [← core_ctrls s, hscore]
      rfl
    have hcc : s.cc = e.cc := by
      rw [← core_cc s, hscore]
      rfl
    obtain ⟨t, ht, htcore⟩ := saves_dispatched hi 0xB0 1 (by decide) (by decide) s
    have hsavealt : exec (dispatched (0xB0 + i) executeSavealt) s = _ := ht
    rw [hctrls] at hsavealt htcore
    refine ⟨t, (exec_bind_ok hsave).trans hsavealt, ?_⟩
    rw [htcore, hscore, hcc]
    rfl

theorem entrySaved_of_fits (index : Nat) (hindex : index ∈ SaveListOf.regs) {ctrls : SaveList}
    {cont : ContinuationData} (hcont : ctrls.get index = some (.continuation cont))
    (hfits : Fits i (ctrls.get i)) :
    ∃ cont', entrySaved i index ctrls = some (ctrls.setOpt index (some (.continuation cont'))) := by
  have hback : ctrls.setOpt index (some (.continuation cont)) = ctrls := by
    rw [← hcont, SaveListOf.setOpt_get _ hindex]
  simp only [entrySaved, hcont]
  by_cases hskip : ((cont.savelist.get i).isSome || ((ctrls.get i).getD .none).isNull) = true
  · rw [if_pos hskip]
    exact ⟨cont, by rw [hback]⟩
  · rw [if_neg hskip]
    cases hvalue : ctrls.get i with
    | none => simp [hvalue, StackItem.isNull] at hskip
    | some item =>
      rw [Option.getD_some, if_pos (hfits item hvalue)]
      exact ⟨_, rfl⟩

/-- In a state with typed registers neither instruction fails. -/
theorem entrySaved_of_typed (hi : i ∈ SaveListOf.regs) {e : Engine} (he : RegistersTyped e)
    (h0 : e.ctrls.c0.isSome = true) (h1 : e.ctrls.c1.isSome = true) :
    ∃ ctrls, (entrySaved i 0 e.ctrls).bind (entrySaved i 1) = some ctrls := by
  obtain ⟨c0, hc0⟩ := eq_continuation_of_fits (he.fits_ctrls (i := 0) (by decide)) (.inl rfl) h0
  obtain ⟨c1, hc1⟩ := eq_continuation_of_fits (he.fits_ctrls (i := 1) (by decide)) (.inr (.inl rfl)) h1
  obtain ⟨c0', hsave⟩ := entrySaved_of_fits 0 (by decide) hc0 (he.fits_ctrls hi)
  have hfits : Fits i ((e.ctrls.setOpt 0 (some (.continuation c0'))).get i) := by
    by_cases hi0 : i = 0
    · subst hi0
      exact fits_continuation (.inl rfl) c0'
    -- another register than c0 is as it was
    have hsame : (e.ctrls.setOpt 0 (some (.continuation c0'))).get i = e.ctrls.get i := by
      simp only [SaveListOf.regs, List.mem_cons, List.not_mem_nil, or_false] at hi
      rcases hi with rfl | rfl | rfl | rfl | rfl | rfl | rfl <;> first | exact absurd rfl hi0 | rfl
    rw [hsame]
    exact he.fits_ctrls hi
  have hc1' : (e.ctrls.setOpt 0 (some (.continuation c0'))).get 1 = some (.continuation c1) := hc1
  obtain ⟨c1', hsavealt⟩ := entrySaved_of_fits 1 (by decide) hc1' hfits
  exact ⟨_, by rw [hsave, Option.bind_some, hsavealt]⟩

/-- `SAVEBOTH` does what `SAVE` and `SAVEALT` do exactly when these fail and store nothing. They do not
fail when the registers are typed and both c0 and c1 are present, but `SAVEBOTH` does. -/
theorem saveboth_iff (hi : i ∈ SaveListOf.regs) (e : Engine) :
    (SameOutcome id (exec (saveboth i) e) (exec (saveThenSavealt i) e) ↔
      entrySaved i 0 e.ctrls = none ∨
        entrySaved i 0 e.ctrls = some e.ctrls ∧ entrySaved i 1 e.ctrls = none) ∧
    (RegistersTyped e → e.ctrls.c0.isSome = true → e.ctrls.c1.isSome = true →
      (exec (saveThenSavealt i) e).1 = .ok () ∧
        (exec (saveboth i) e).1 = .error (.exception (.fromCode .typeCheckError))) := by
  obtain ⟨s, hs, hscore⟩ := exec_saveboth hi e
  obtain ⟨t, ht, htcore⟩ := exec_saveThenSavealt hi e
  refine ⟨?_, ?_⟩
  · unfold SameOutcome
    rw [hs, ht]
    constructor
    · rintro ⟨hresult, hcore⟩
      rw [hscore, htcore] at hcore
      have hctrls := congrArg Engine.ctrls hcore
      simp only [holding_ctrls, Option.getD_none] at hctrls
      cases hentry : entrySaved i 0 e.ctrls with
      | none => exact .inl rfl
      | some ctrls =>
        rw [hentry] at hresult hctrls
        cases halt : entrySaved i 1 ctrls with
        | some ctrls' =>
          rw [Option.bind_some, halt] at hresult
          cases hresult
        | none =>
          rw [Option.bind_some, halt] at hctrls
          cases hctrls
          exact .inr ⟨rfl, halt⟩
    · intro h
      have hbind : (entrySaved i 0 e.ctrls).bind (entrySaved i 1) = none ∧
          (entrySaved i 0 e.ctrls).getD e.ctrls = e.ctrls := by
        rcases h with hentry | ⟨hentry, halt⟩
        · rw [hentry]
          exact ⟨rfl, rfl⟩
        · rw [hentry, Option.bind_some]
          exact ⟨halt, rfl⟩
      rw [hscore, htcore, hbind.1, hbind.2]
      exact ⟨rfl, rfl⟩
  · intro he h0 h1
    obtain ⟨ctrls, hctrls⟩ := entrySaved_of_typed hi he h0 h1
    rw [hs, ht, hctrls]
    exact ⟨rfl, rfl⟩

end SaveBoth

section Concrete

open scoped Plain

/-- `SAVEBOTH c4`. -/
def savingBoth : Engine :=
  (withCapabilities []).setupWithLibraries (Plain.code [0xED, 0xC4]) none none none []

/-- `SAVE c4` and `SAVEALT c4` succeed there, and `SAVEBOTH c4` fails. Without c0 neither of the two ways
saves anything. -/
theorem saveboth_savingBoth :
    ((exec (saveThenSavealt 4) savingBoth).1 = .ok () ∧
      (exec (saveboth 4) savingBoth).1 = .error (.exception (.fromCode .typeCheckError))) ∧
    SameOutcome id (exec (saveboth 4) { savingBoth with ctrls.c0 := none })
      (exec (saveThenSavealt 4) { savingBoth with ctrls.c0 := none }) :=
  ⟨(saveboth_iff (by decide) savingBoth).2 (good_setup _ _ _ _ nofun nofun rfl) rfl rfl,
    (saveboth_iff (by decide) _).1.2 (.inl rfl)⟩

/-- `SAVE c4` and `SAVEALT c4`. -/
def savingInTurn : Engine :=
  (withCapabilities []).setupWithLibraries (Plain.code [0xED, 0xA4, 0xED, 0xB4]) none none none []

/-- With c0 and c1 present `SAVEBOTH` ends the run with a type check error. -/
theorem ending_savingBoth :
    savingBoth.ctrls.c0.isSome = true ∧ savingBoth.ctrls.c1.isSome = true ∧
      endedBy (passes 10 savingBoth).1 = some .typeCheckError ∧
      ending (passes 10 savingInTurn) = (some 0, []) := by
  decide +kernel

end Concrete

end Engine

end TonVm
