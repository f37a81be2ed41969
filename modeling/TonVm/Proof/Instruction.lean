import TonVm.Proof.Transfer
import TonVm.Proof.Registers

/-!
# States around an instruction

Two ways to the same point of a program differ in the gas they used, in the number of steps and in the
record of the instruction executed last. `core` is what is left of a state without these. Loading an
instruction changes nothing of the core but the position in the code.
-/

namespace TonVm

open ExecLib

variable [TonTypes]

namespace Engine

/-- A state without its gas, its step count and the record of the instruction executed last. -/
def core (e : Engine) : Engine :=
  { e with
    gas := .empty
    step := 0
    cmd := {}
    cmdCode := {}
    lastCmd := 0 }

variable (e : Engine)

@[simp]
theorem core_cc : e.core.cc = e.cc := rfl

@[simp]
theorem core_ctrls : e.core.ctrls = e.ctrls := rfl

@[simp]
theorem core_pay (amount : Int) : (e.pay amount).core = e.core := rfl

@[simp]
theorem core_holding (cc : ContinuationData) (ctrls : SaveList) (vars : List StackItem) :
    (e.holding cc ctrls vars).core = e.core.holding cc ctrls [] := rfl

/-- An engine that has made an implicit step and paid for it. -/
def stepped (e : Engine) (price : Int) : Engine := { e with step := e.step + 1 }.pay price

@[simp]
theorem stepped_cc (price : Int) : (e.stepped price).cc = e.cc := rfl

@[simp]
theorem stepped_ctrls (price : Int) : (e.stepped price).ctrls = e.ctrls := rfl

@[simp]
theorem stepped_cmd (price : Int) : (e.stepped price).cmd = e.cmd := rfl

@[simp]
theorem stepped_gasRemaining (price : Int) :
    (e.stepped price).gas.gasRemaining = e.gas.gasRemaining - price := rfl

@[simp]
theorem core_stepped (price : Int) : (e.stepped price).core = e.core := rfl

theorem exec_countStep_tryUseGas {α : Type} {k : M α} {price : Int}
    (hgas : price ≤ e.gas.gasRemaining) :
    exec (do
      countStep
      tryUseGas price
      k) e = exec k (e.stepped price) := by
  have hpay : exec (tryUseGas price) { e with step := e.step + 1 } = (.ok (), e.stepped price) :=
    exec_tryUseGas hgas
  unfold countStep
  rw [exec_bind_modify, exec_bind_ok hpay]

theorem countStep_tryUseGas_eq_ok {α : Type} {k : M α} {price : Int} {a : α} {t : Engine}
    (h : exec (do
      countStep
      tryUseGas price
      k) e = (.ok a, t)) :
    price ≤ e.gas.gasRemaining ∧ exec k (e.stepped price) = (.ok a, t) := by
  unfold countStep at h
  rw [exec_bind_modify] at h
  obtain ⟨_, _, hpay, hk⟩ := exec_bind_eq_ok h
  obtain ⟨hgas, rfl⟩ := exec_tryUseGas_eq_ok hpay
  exact ⟨hgas, hk⟩

/-! ### Loading an instruction -/

theorem exec_eq_of_isOk {m : M Unit} {e : Engine} (h : (exec m e).1.isOk = true) :
    exec m e = (.ok (), (exec m e).2) := by
  rcases hm : exec m e with ⟨_ | _, s⟩
  · rw [hm] at h
    cases h
  · rfl

/-- `s` is `e` after the operands of an instruction were read. -/
structure Loaded (e s : Engine) : Prop where
  vars : s.cmd.vars = []
  core : s.core = { e with cc.code := s.cc.code }.core

namespace Loaded

variable {e} {s : Engine}

theorem ctrls (h : Loaded e s) : s.ctrls = e.ctrls := by
  have := congrArg Engine.ctrls h.core
  exact this

theorem cc (h : Loaded e s) : s.cc = { e.cc with code := s.cc.code } := congrArg Engine.cc h.core

theorem stack (h : Loaded e s) : s.cc.stack = e.cc.stack := congrArg (·.stack) h.cc

theorem savelist (h : Loaded e s) : s.cc.savelist = e.cc.savelist := congrArg (·.savelist) h.cc

theorem eq_holding (h : Loaded e s) : s = s.holding s.cc s.ctrls [] := by
  conv_lhs => rw [Engine.eq_holding s, h.vars]

theorem core_holding (h : Loaded e s) (cc : ContinuationData) (ctrls : SaveList) :
    s.core.holding cc ctrls [] = e.core.holding cc ctrls [] := by
  rw [h.core]
  rfl

/-- The instruction takes its arguments from the stack. -/
theorem exec_fetchStack (h : Loaded e s) (items : Stack) {stack : Stack}
    (hstack : e.cc.stack = stack ++ items) :
    exec (fetchStack items.length) s =
      (.ok (), s.holding { s.cc with stack } s.ctrls items.reverse) := by
  have hfetch : exec (fetchStack items.length) (s.holding s.cc s.ctrls []) =
      (.ok (), s.holding { s.cc with stack } s.ctrls ([] ++ items.reverse)) :=
    Engine.exec_fetchStack items (h.stack.trans hstack)
  rwa [← h.eq_holding] at hfetch

theorem exec_fetchStack_one (h : Loaded e s) {stack : Stack} {a : StackItem}
    (hstack : e.cc.stack = stack ++ [a]) :
    exec (fetchStack 1) s = (.ok (), s.holding { s.cc with stack } s.ctrls [a]) :=
  h.exec_fetchStack [a] hstack

theorem exec_fetchStack_two (h : Loaded e s) {stack : Stack} {a b : StackItem}
    (hstack : e.cc.stack = stack ++ [a, b]) :
    exec (fetchStack 2) s = (.ok (), s.holding { s.cc with stack } s.ctrls [b, a]) :=
  h.exec_fetchStack [a, b] hstack

theorem exec_fetchStack_three (h : Loaded e s) {stack : Stack} {a b c : StackItem}
    (hstack : e.cc.stack = stack ++ [a, b, c]) :
    exec (fetchStack 3) s = (.ok (), s.holding { s.cc with stack } s.ctrls [c, b, a]) :=
  h.exec_fetchStack [a, b, c] hstack

end Loaded

theorem exec_globals {s : Engine} {tuple : List StackItem} (h : s.ctrls.get 7 = some (.tuple tuple)) :
    exec globals s = (.ok tuple, s) := by
  unfold globals
  rw [exec_bind_ok (exec_ctrl s h)]
  rfl

/-- The state in which an instruction without operands starts. -/
def afterLoad (e : Engine) : Engine :=
  { e with
    cmd := {}
    step := e.step + 1
    gas := e.gas.useGas (Gas.basicGasPrice (0 + (TonTypes.pos e.cc.code - e.cmdCode.dataStart))) }

theorem exec_load : exec loadInstruction e = (.ok (), e.afterLoad) := exec_loadInstruction e

theorem loaded_afterLoad : Loaded e e.afterLoad := ⟨rfl, rfl⟩

/-- An engine with more on its stack. -/
def given (e : Engine) (items : Stack) : Engine := { e with cc.stack := e.cc.stack ++ items }

theorem given_given {s : Engine} (items items' : Stack) :
    (s.given items).given items' = s.given (items ++ items') := by
  unfold given
  rw [List.append_assoc]

theorem exec_push_given {s : Engine} (item : StackItem) :
    exec (push item) s = (.ok (), s.given [item]) := rfl

/-- An instruction without operands takes its arguments. -/
theorem exec_load_fetchStack {α : Type} (items : Stack) (k : M α) :
    exec (do
      loadInstruction
      fetchStack items.length
      k) (e.given items) = exec k (e.afterLoad.holding e.cc e.ctrls items.reverse) := by
  rw [exec_bind_ok (exec_load _),
    exec_bind_ok ((loaded_afterLoad (e.given items)).exec_fetchStack items rfl)]
  rfl

theorem params_of_loadInstruction {s : Engine} (h : exec loadInstruction e = (.ok (), s)) :
    s.cmd.params = [] := by
  rw [exec_loadInstruction] at h
  cases h
  rfl

theorem pargsRaw_of_params {e : Engine} (h : e.cmd.params = []) : pargsRaw e.cmd = none := by
  unfold pargsRaw
  rw [h]
  rfl

theorem pargs_of_loadInstruction {s : Engine} (h : exec loadInstruction e = (.ok (), s)) :
    pargsRaw s.cmd = none := pargsRaw_of_params (params_of_loadInstruction e h)

theorem cc_of_loadInstruction {s : Engine} (h : exec loadInstruction e = (.ok (), s)) :
    s.cc = e.cc := by
  rw [exec_loadInstruction] at h
  cases h
  rfl

theorem loaded_of_none {s : Engine} (h : exec loadInstruction e = (.ok (), s)) : Loaded e s := by
  rw [exec_loadInstruction] at h
  cases h
  exact ⟨rfl, rfl⟩

/-- The form of the operand byte that `CALLXARGS` and `TRYARGS` read. -/
theorem loaded_of_argumentAndReturnConstraints {s : Engine}
    (h : exec (loadInstruction (some .argumentAndReturnConstraints)) e = (.ok (), s)) :
    Loaded e s ∧ nargsRaw s.cmd = none := by
  unfold loadInstruction at h
  rw [exec_bind_modify] at h
  dsimp only [extractInstruction] at h
  unfold nextCmd at h
  rw [exec_bind, exec_bind_get] at h
  cases hbyte : TonTypes.getNextByte e.cc.code with
  | error failure =>
    simp only [hbyte] at h
    cases h
  | ok result =>
    simp only [hbyte] at h
    cases h
    exact ⟨⟨rfl, rfl⟩, rfl⟩

theorem loaded_of_pargs {s : Engine}
    (h : exec (loadInstruction (some (.pargs 0 16))) e = (.ok (), s)) :
    Loaded e s ∧ nargsRaw s.cmd = none ∧ rargsRaw s.cmd = none := by
  cases h
  exact ⟨⟨rfl, rfl⟩, rfl, rfl⟩

/-! ### Typed values -/

section Typed

variable {committed : CommittedState} {i : Nat}

theorem good_int (v : Int) : good (.registers committed) (StackItem.int v) :=
  (good_integer _).2 False.elim

/-- An entry of a list whose entries were put in place with the type check. -/
theorem fits_get {list : SaveList} (h : good (.registers committed) list)
    (hi : i ∈ SaveListOf.regs) : Fits i (list.get i) := by
  have hentry (index : Nat) (value : Option StackItem)
      (hvalue : GoodEntry (.registers committed) index value) : Fits index value := by
    rintro item rfl
    exact hvalue.2 trivial
  obtain ⟨c0, c1, c2, c3, c4, c5, c7⟩ := list
  obtain ⟨h0, h1, h2, h3, h4, h5, h7⟩ := h
  simp only [SaveListOf.regs, List.mem_cons, List.not_mem_nil, or_false] at hi
  rcases hi with rfl | rfl | rfl | rfl | rfl | rfl | rfl
  · exact hentry 0 c0 h0
  · exact hentry 1 c1 h1
  · exact hentry 2 c2 h2
  · exact hentry 3 c3 h3
  · exact hentry 4 c4 h4
  · exact hentry 5 c5 h5
  · exact hentry 7 c7 h7

/-- The continuation in c0, c1 or c3. -/
theorem eq_continuation_of_fits {value : Option StackItem} (h : Fits i value)
    (hi : i = 0 ∨ i = 1 ∨ i = 3) (hsome : value.isSome) :
    ∃ cont, value = some (.continuation cont) := by
  obtain ⟨item, rfl⟩ := Option.isSome_iff_exists.1 hsome
  have hput := h item rfl
  cases item with
  | continuation cont => exact ⟨cont, rfl⟩
  | _ => rcases hi with rfl | rfl | rfl <;> cases hput

namespace RegistersTyped

variable {e}

theorem fits_ctrls (h : RegistersTyped e) (hi : i ∈ SaveListOf.regs) : Fits i (e.ctrls.get i) :=
  fits_get (GoodEngine.ctrls h) hi

theorem good_cc (h : RegistersTyped e) :
    good (.registers e.cstate) e.cc.savelist ∧ good (.registers e.cstate) e.cc.stack :=
  ((good_cont_iff e.cc).1 (GoodEngine.cc h)).2

theorem fits_cc (h : RegistersTyped e) (hi : i ∈ SaveListOf.regs) : Fits i (e.cc.savelist.get i) :=
  fits_get h.good_cc.1 hi

/-- The save list of a continuation on the stack. -/
theorem fits_stack (h : RegistersTyped e) {cont : ContinuationData}
    (hmem : .continuation cont ∈ e.cc.stack) (hi : i ∈ SaveListOf.regs) :
    Fits i (cont.savelist.get i) := by
  have hcont := (good_continuation cont).1 (h.good_cc.2 _ hmem)
  exact fits_get ((good_cont_iff cont).1 hcont).2.1 hi

end RegistersTyped

end Typed

end Engine

end TonVm
