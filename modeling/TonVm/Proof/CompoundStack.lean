import TonVm.Proof.Instruction
import TonVm.Proof.Run

/-!
# Compound stack instructions

A compound instruction stands for a sequence of exchanges and pushes. The sequence checks the depth of
the stack at each step, the instruction checks one bound before it changes anything. All these bounds
are exact but one: `XCPU2` asks for two values also where `XCPU2 s0,s0,s0` needs one.
-/

namespace TonVm

open ExecLib

/-! ### Sequences of steps -/

inductive StackStep where
  | xchg (i j : Nat)
  | push (i : Nat)

namespace StackStep

section Lists

variable {α : Type}

def apply : StackStep → List α → Except Failure (List α)
  | xchg i j => Stack.swap i j
  | push i => Stack.pushCopy i

def applyAll : List StackStep → List α → Except Failure (List α)
  | [], stack => .ok stack
  | step :: rest, stack => do applyAll rest (← step.apply stack)

/-- The depths at which a step finds its items. -/
def Reaches : StackStep → Nat → Prop
  | xchg i j, depth => i < depth ∧ j < depth
  | push i, depth => i < depth

/-- The depth after a step. -/
def depthAfter : StackStep → Nat → Nat
  | xchg _ _, depth => depth
  | push _, depth => depth + 1

/-- Every step of a sequence finds its items. -/
def Enough : List StackStep → Nat → Prop
  | [], _ => True
  | step :: rest, depth => step.Reaches depth ∧ Enough rest (step.depthAfter depth)

theorem swap_of_lt {i j : Nat} {stack : List α} (hi : i < stack.length) (hj : j < stack.length) :
    ∃ stack', Stack.swap i j stack = .ok stack' ∧ stack'.length = stack.length := by
  have hget (k : Nat) (hk : k < stack.length) : ∃ x, stack[stack.length - k - 1]? = some x :=
    ⟨_, List.getElem?_eq_getElem (by omega)⟩
  obtain ⟨x, hx⟩ := hget i hi
  obtain ⟨y, hy⟩ := hget j hj
  refine ⟨(stack.set (stack.length - i - 1) y).set (stack.length - j - 1) x, ?_, ?_⟩
  · unfold Stack.swap Stack.depth
    rw [if_neg (by omega), hx, hy]
  · rw [List.length_set, List.length_set]

theorem pushCopy_of_lt {i : Nat} {stack : List α} (hi : i < stack.length) :
    ∃ stack', Stack.pushCopy i stack = .ok stack' ∧ stack'.length = stack.length + 1 := by
  obtain ⟨x, hx⟩ : ∃ x, stack[stack.length - 1 - i]? = some x :=
    ⟨_, List.getElem?_eq_getElem (by omega)⟩
  refine ⟨stack ++ [x], ?_, List.length_append⟩
  unfold Stack.pushCopy Stack.depth
  rw [if_neg (by omega), hx]
  rfl

theorem apply_of_reaches {step : StackStep} {stack : List α} (h : step.Reaches stack.length) :
    ∃ stack', step.apply stack = .ok stack' ∧ stack'.length = step.depthAfter stack.length := by
  cases step with
  | xchg i j => exact swap_of_lt h.1 h.2
  | push i => exact pushCopy_of_lt h

theorem apply_of_not_reaches {step : StackStep} {stack : List α} (h : ¬step.Reaches stack.length) :
    step.apply stack = .error (.code .stackUnderflow) := by
  cases step with
  | xchg i j =>
    have hshort : i ≥ stack.length ∨ j ≥ stack.length := by
      by_contra hno
      exact h ⟨by omega, by omega⟩
    exact if_pos hshort
  | push i => exact if_pos (not_lt.1 h)

/-- A sequence succeeds where every step finds its items, and underflows elsewhere. -/
theorem applyAll_cases (steps : List StackStep) (stack : List α) :
    (Enough steps stack.length ∧ ∃ final, applyAll steps stack = .ok final) ∨
      (¬Enough steps stack.length ∧ applyAll steps stack = .error (.code .stackUnderflow)) := by
  induction steps generalizing stack with
  | nil => exact .inl ⟨trivial, stack, rfl⟩
  | cons step rest ih =>
    by_cases h : step.Reaches stack.length
    · obtain ⟨stack', hok, hlen⟩ := apply_of_reaches h
      have hrest := ih stack'
      rw [hlen] at hrest
      rw [applyAll, hok]
      rcases hrest with ⟨henough, hfinal⟩ | ⟨hnot, herr⟩
      · exact .inl ⟨⟨h, henough⟩, hfinal⟩
      · exact .inr ⟨fun henough => hnot henough.2, herr⟩
    · refine .inr ⟨fun henough => h henough.1, ?_⟩
      rw [applyAll, apply_of_not_reaches h]
      rfl

theorem swap_comm (i j : Nat) (stack : List α) : Stack.swap i j stack = Stack.swap j i stack := by
  unfold Stack.swap
  by_cases h : i ≥ Stack.depth stack ∨ j ≥ Stack.depth stack
  · rw [if_pos h, if_pos h.symm]
  · rw [if_neg h, if_neg fun h' => h h'.symm]
    by_cases hij : i = j
    · rw [hij]
    · have hne : Stack.depth stack - i - 1 ≠ Stack.depth stack - j - 1 := by omega
      cases stack[Stack.depth stack - i - 1]? with
      | none => cases stack[Stack.depth stack - j - 1]? <;> rfl
      | some x =>
        cases stack[Stack.depth stack - j - 1]? with
        | none => rfl
        | some y => exact congrArg Except.ok (List.set_comm _ _ hne)

end Lists

end StackStep

/-! ### The instructions -/

inductive Compound where
  | xchg2
  | xchg3
  | xcpu
  | puxc
  | push2
  | push3
  | xc2pu
  | xcpuxc
  | xcpu2
  | puxc2
  | puxcpu
  | pu2xc
  deriving DecidableEq

namespace Compound

section Expansions

open StackStep

def xchg2Steps (i j : Nat) : List StackStep := [xchg 1 i, xchg 0 j]

def puxcSteps (i j : Nat) : List StackStep := [push i, xchg 0 1, xchg 0 j]

def push2Steps (i j : Nat) : List StackStep := [push i, push (j + 1)]

/-- The documented sequence for the operands in the code. -/
def expansion : Compound → Nat → Nat → Nat → List StackStep
  | xchg2, i, j, _ => xchg2Steps i j
  | xchg3, i, j, k => [xchg 2 i, xchg 1 j, xchg 0 k]
  | xcpu, i, j, _ => [xchg 0 i, push j]
  | puxc, i, j, _ => puxcSteps i j
  | push2, i, j, _ => push2Steps i j
  | push3, i, j, k => push i :: push2Steps (j + 1) (k + 1)
  | xc2pu, i, j, k => xchg2Steps i j ++ [push k]
  | xcpuxc, i, j, k => xchg 1 i :: puxcSteps j k
  | xcpu2, i, j, k => xchg 0 i :: push2Steps j k
  | puxc2, i, j, k => push i :: xchg 0 2 :: xchg2Steps j k
  | puxcpu, i, j, k => puxcSteps i j ++ [push k]
  | pu2xc, i, j, k => push i :: xchg 0 1 :: puxcSteps j k

/-- The depth that the instruction asks for. -/
def bound : Compound → Nat → Nat → Nat → Nat
  | xchg2, i, j, _ => max 1 (max i j) + 1
  | xchg3, i, j, k => max 2 (max k (max i j)) + 1
  | xcpu, i, j, _ => max i j + 1
  | puxc, i, j, _ => max (i + 1) j
  | push2, i, j, _ => max i j + 1
  | push3, i, j, k => max (max i j) k + 1
  | xc2pu, i, j, k => max 1 (max i (max j k)) + 1
  | xcpuxc, i, j, k => max 2 (max k (max i j + 1))
  | xcpu2, i, j, k => max 1 (max i (max j k)) + 1
  | puxc2, i, j, k => max 2 (max (max (i + 1) j) k)
  | puxcpu, i, j, k => max k (max (i + 1) j)
  | pu2xc, i, j, k => max k (max (i + 2) (j + 1)) - 1

/-- The one place where the bound is not what the sequence needs. -/
def Strict (c : Compound) (i j k depth : Nat) : Prop :=
  c = xcpu2 ∧ i = 0 ∧ j = 0 ∧ k = 0 ∧ depth = 1

theorem enough_iff (c : Compound) (i j k depth : Nat) :
    Enough (c.expansion i j k) depth ↔ c.bound i j k ≤ depth ∨ c.Strict i j k depth := by
  cases c <;>
    simp only [expansion, xchg2Steps, puxcSteps, push2Steps, List.cons_append, List.nil_append, Enough,
      Reaches, depthAfter, bound, Strict, reduceCtorEq, false_and, true_and, or_false, and_true] <;>
    omega

theorem not_strict_of_bound {c : Compound} {i j k depth : Nat} (h : c.bound i j k ≤ depth) :
    ¬c.Strict i j k depth := by
  rintro ⟨rfl, rfl, rfl, rfl, rfl⟩
  exact absurd h (by decide)

end Expansions

section Handlers

variable [TonTypes]

open Engine

def handler : Compound → M Unit
  | xchg2 => executeXchg2
  | xchg3 => executeXchg3
  | xcpu => executeXcpu
  | puxc => executePuxc
  | push2 => executePush2
  | push3 => executePush3
  | xc2pu => executeXc2pu
  | xcpuxc => executeXcpuxc
  | xcpu2 => executeXcpu2
  | puxc2 => executePuxc2
  | puxcpu => executePuxcpu
  | pu2xc => executePu2xc

/-- The form of the operands in the code. -/
def options : Compound → InstructionOptions
  | xchg2 | xcpu | puxc | push2 => .stackRegisterPair .getFromNextByte
  | xchg3 | push3 | xc2pu | xcpu2 => .stackRegisterTrio .getFromNextByte
  | xcpuxc => .stackRegisterTrio .getFromNextByteMinusOne
  | puxc2 | puxcpu => .stackRegisterTrio .getFromNextByteMinusOneMinusOne
  | pu2xc => .stackRegisterTrio .getFromNextByteMinusOneMinusTwo

/-- The operands that were read; an instruction with two has no third. -/
def HasOperands (s : Engine) (i j k : Nat) : Compound → Prop
  | xchg2 | xcpu | puxc | push2 => sregsRaw s.cmd = some ⟨i, j⟩ ∧ k = 0
  | _ => sregs3Raw s.cmd = some ⟨i, j, k⟩

/-- What an instruction does with a step. -/
def program : StackStep → M Unit
  | .xchg i j => swapItems i j
  | .push i => pushCopy i

def runAll : List StackStep → M Unit
  | [] => pure ()
  | step :: rest => do
    program step
    runAll rest

variable {e s : Engine} {i j k : Nat}

theorem exec_onStack {op : Stack → Except Failure Stack} {stack : Stack}
    (h : op s.cc.stack = .ok stack) : exec (onStack op) s = (.ok (), { s with cc.stack := stack }) := by
  unfold onStack
  rw [exec_bind_get, h]
  rfl

theorem exec_program {step : StackStep} {stack : Stack} (h : step.apply s.cc.stack = .ok stack) :
    exec (program step) s = (.ok (), { s with cc.stack := stack }) := by
  cases step with
  | xchg i j => exact exec_onStack h
  | push i => exact exec_onStack h

theorem exec_checkDepth (n : Nat) (m : M Unit) : exec (do
      checkDepth n
      m) s = if n ≤ s.cc.stack.length then exec m s
        else (.error (.exception (.fromCode .stackUnderflow)), s) := by
  unfold checkDepth
  rw [exec_bind, exec_bind_get]
  by_cases h : n ≤ s.cc.stack.length
  · rw [if_pos h, if_neg (not_lt.2 h)]
    rfl
  · rw [if_neg h, if_pos (not_le.1 h)]
    rfl

/-- `XCHG` is an exchange. -/
theorem exec_executeXchg {place : WhereToGetParams}
    (hload : exec (loadInstruction (some (.stackRegisterPair place))) e = (.ok (), s))
    (hops : sregsRaw s.cmd = some ⟨i, j⟩) :
    exec (executeXchg place) e = exec (program (.xchg i j)) s := by
  unfold executeXchg param
  rw [exec_bind_ok hload, exec_bind, exec_bind_get, hops]
  rfl

theorem exec_runAll {steps : List StackStep} {final : Stack}
    (h : StackStep.applyAll steps s.cc.stack = .ok final) :
    exec (runAll steps) s = (.ok (), { s with cc.stack := final }) := by
  induction steps generalizing s with
  | nil =>
    cases h
    rfl
  | cons step rest ih =>
    rw [StackStep.applyAll] at h
    cases hstep : step.apply s.cc.stack with
    | error failure =>
      rw [hstep] at h
      cases h
    | ok stack =>
      rw [hstep] at h
      unfold runAll
      rw [exec_bind_ok (exec_program hstep)]
      exact ih h

theorem exec_loadPair (hload : exec (loadInstruction (some (.stackRegisterPair .getFromNextByte))) e =
    (.ok (), s)) (hops : sregsRaw s.cmd = some ⟨i, j⟩) : exec loadPair e = (.ok ⟨i, j⟩, s) := by
  unfold loadPair param
  rw [exec_bind_ok hload, exec_bind_get, hops]
  rfl

theorem exec_loadTrio {place : WhereToGetParams}
    (hload : exec (loadInstruction (some (.stackRegisterTrio place))) e = (.ok (), s))
    (hops : sregs3Raw s.cmd = some ⟨i, j, k⟩) : exec (loadTrio place) e = (.ok ⟨i, j, k⟩, s) := by
  unfold loadTrio param
  rw [exec_bind_ok hload, exec_bind_get, hops]
  rfl

theorem exec_handler (c : Compound) (hload : exec (loadInstruction (some c.options)) e = (.ok (), s))
    (hops : c.HasOperands s i j k) :
    exec c.handler e = if c.bound i j k ≤ s.cc.stack.length then exec (runAll (c.expansion i j k)) s
      else (.error (.exception (.fromCode .stackUnderflow)), s) := by
  rw [← exec_checkDepth]
  cases c with
  | xchg2 | xcpu | puxc | push2 =>
    refine (exec_bind_ok (exec_loadPair hload hops.1)).trans ?_
    simp only [expansion, xchg2Steps, puxcSteps, push2Steps, runAll, program, bind_pure_unit]
    rfl
  | xchg3 | push3 | xc2pu | xcpuxc | xcpu2 | puxcpu =>
    refine (exec_bind_ok (exec_loadTrio hload hops)).trans ?_
    simp only [expansion, xchg2Steps, puxcSteps, push2Steps, List.cons_append, List.nil_append, runAll,
      program, bind_pure_unit]
    rfl
  | puxc2 =>
    have hswap : swapItems 2 0 = swapItems 0 2 := congrArg onStack (funext (StackStep.swap_comm 2 0))
    refine (exec_bind_ok (exec_loadTrio hload hops)).trans ?_
    simp only [expansion, xchg2Steps, runAll, program, bind_pure_unit, hswap]
    rfl
  | pu2xc =>
    refine (exec_bind_ok (exec_loadTrio hload hops)).trans ?_
    simp only [expansion, puxcSteps, runAll, program, bind_pure_unit]
    rw [exec_bind_get, exec_checkDepth]
    by_cases h : bound pu2xc i j k ≤ s.cc.stack.length
    · rw [if_pos h, if_neg (by simp only [bound] at h; omega)]
    · rw [if_neg h, if_pos (by simp only [bound] at h; omega)]
      rfl

theorem stack_of_loadPair
    (hload : exec (loadInstruction (some (.stackRegisterPair .getFromNextByte))) e = (.ok (), s)) :
    s.cc.stack = e.cc.stack := by
  unfold loadInstruction at hload
  rw [exec_bind_modify] at hload
  dsimp only [extractInstruction, extractRegisterPair] at hload
  obtain ⟨pair, _, hpair, hrest⟩ := exec_bind_eq_ok hload
  obtain ⟨byte, _, hnext, hpure⟩ := exec_bind_eq_ok hpair
  obtain ⟨code, -, rfl⟩ := exec_nextCmd_eq_ok hnext
  cases hpure
  cases hrest
  rfl

theorem stack_of_loadTrio {place : WhereToGetParams} (hplace : place ≠ .getFromLastByte2Bits)
    (hload : exec (loadInstruction (some (.stackRegisterTrio place))) e = (.ok (), s)) :
    s.cc.stack = e.cc.stack := by
  unfold loadInstruction at hload
  rw [exec_bind_modify] at hload
  dsimp only [extractInstruction] at hload
  obtain ⟨trio, _, htrio, hrest⟩ := exec_bind_eq_ok hload
  unfold extractRegisterTrio at htrio
  rw [exec_bind_get] at htrio
  split at htrio
  · exact absurd rfl hplace
  · obtain ⟨byte, _, hnext, hpure⟩ := exec_bind_eq_ok htrio
    obtain ⟨code, -, rfl⟩ := exec_nextCmd_eq_ok hnext
    cases hpure
    cases hrest
    rfl

/-- The instructions leave the stack alone while they read their operands. -/
theorem stack_of_load (c : Compound) (hload : exec (loadInstruction (some c.options)) e = (.ok (), s)) :
    s.cc.stack = e.cc.stack := by
  cases c with
  | xchg2 | xcpu | puxc | push2 => exact stack_of_loadPair hload
  | xchg3 | push3 | xc2pu | xcpuxc | xcpu2 | puxc2 | puxcpu | pu2xc =>
    exact stack_of_loadTrio (by decide) hload

/-- A run from a stack does what a sequence of steps does: it has the same final stack, or it underflows
and leaves the stack as it was. -/
def Agrees (stack : Stack) (run : Except Error Unit × Engine) : Except Failure Stack → Prop
  | .ok final => run.1 = .ok () ∧ run.2.cc.stack = final
  | .error failure => failure = .code .stackUnderflow ∧
    run.1 = .error (.exception (.fromCode .stackUnderflow)) ∧ run.2.cc.stack = stack

/-- A compound instruction does what its sequence does, except for one stack of depth one. -/
theorem compound_iff (c : Compound) (hload : exec (loadInstruction (some c.options)) e = (.ok (), s))
    (hops : c.HasOperands s i j k) :
    Agrees e.cc.stack (exec c.handler e) (StackStep.applyAll (c.expansion i j k) e.cc.stack) ↔
      ¬c.Strict i j k e.cc.stack.length := by
  have hstack := stack_of_load c hload
  have hexec := exec_handler c hload hops
  rw [hstack] at hexec
  have hiff := enough_iff c i j k e.cc.stack.length
  rcases StackStep.applyAll_cases (c.expansion i j k) e.cc.stack with ⟨henough, final, hok⟩ | ⟨hnot, herr⟩
  · rw [hok]
    by_cases hbound : c.bound i j k ≤ e.cc.stack.length
    · rw [if_pos hbound, exec_runAll (hstack ▸ hok)] at hexec
      rw [hexec]
      exact iff_of_true ⟨rfl, rfl⟩ (not_strict_of_bound hbound)
    · rw [if_neg hbound] at hexec
      rw [hexec]
      refine iff_of_false ?_ (not_not.2 ((hiff.1 henough).resolve_left hbound))
      rintro ⟨⟨⟩, -⟩
  · have hbound : ¬c.bound i j k ≤ e.cc.stack.length := fun h => hnot (hiff.2 (.inl h))
    rw [if_neg hbound] at hexec
    rw [herr, hexec]
    exact iff_of_true ⟨rfl, rfl, hstack⟩ fun hstrict => hnot (hiff.2 (.inr hstrict))

end Handlers

/-! ### Plain runs -/

section Concrete

open Engine
open scoped Plain

/-- An engine with a code and a stack of integers. -/
def running (code : List UInt8) (stack : List Int) : Engine :=
  (withCapabilities []).setupWithLibraries (Plain.code code) none (some (stack.map .int)) none []

/-- `PUXC s1,s1` on three values. -/
theorem compound_puxc :
    (exec executePuxc (running [0x12] [1, 2, 3])).1 = .ok () ∧
      (exec executePuxc (running [0x12] [1, 2, 3])).2.cc.stack = [.int 1, .int 3, .int 2, .int 2] := by
  have hload : exec (loadInstruction (some (options .puxc))) (running [0x12] [1, 2, 3]) =
      (.ok (), _) := exec_eq_of_isOk rfl
  exact (compound_iff .puxc hload ⟨rfl, rfl⟩).2 (by rintro ⟨⟨⟩, -⟩)

/-- `XCPU2 s0,s0,s0` on one value underflows. Its sequence makes three of the value. -/
theorem xcpu2_underflow :
    endedBy (passes 10 (running [0x54, 0x30, 0x00] [7])).1 = some .stackUnderflow ∧
    ending (passes 10 (running [0x00, 0x20, 0x21] [7])) = (some 0, [7, 7, 7]) := by
  decide +kernel

end Concrete

end Compound

end TonVm
