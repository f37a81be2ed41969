import TonVm.Proof.Registers

/-!
# The arity of the current continuation

A continuation with a limit on its arguments becomes the current one only after the stack is passed to
it, and what is passed uses the limit up. So the arity of the current continuation is -1 or 0, and
`discharge_nargs`, which drops as many values as the arity says, drops none.
-/

namespace TonVm

open ExecLib

section Invariant

variable [TonTypes]

/-- Arities of at least -1, and none above 0 for the current continuation. -/
def Policy.arity : Policy where
  ranged := False
  typed := False
  counted := True
  frame _ nargs _ := nargs ≤ 0
  frame_useGas _ _ h := h
  frame_newGasLimit _ h := h

/-- Values whose continuations, at any depth, take a number of arguments or have the arity -1. -/
def Counted {α : Type} [Sane α] (a : α) : Prop := good .arity a

namespace Engine

instance : Settles Policy.arity := ⟨fun _ h _ => h⟩

instance : Keeps Policy.arity executeCommit := by
  unfold executeCommit commit
  exact ⟨.bind (R := good Policy.arity) Keeps.out fun _ _ => .modify fun e he => { he with }⟩

theorem arity_of_good {e : Engine} (h : good Policy.arity e) : e.cc.nargs = -1 ∨ e.cc.nargs = 0 := by
  have hle : e.cc.nargs ≤ 0 := h.frame
  have hge : -1 ≤ e.cc.nargs := ((good_cont_iff e.cc).1 h.cc).1 trivial
  omega

/-! ### Discharging -/

/-- `t` is the state in which the implicit step of a loop, started in `e`, calls `discharge_nargs`. -/
inductive Discharges (e : Engine) : Engine → Prop where
  | whileLoop {body cond : SliceData} {t : Engine} (htype : e.cc.typeOf = .whileLoopCondition body cond)
      (h : exec checkWhileLoopCondition e = (.ok true, t)) : Discharges e t
  | repeatLoop {body : SliceData} {counter : Int} (htype : e.cc.typeOf = .repeatLoopBody body counter)
      (h : counter > 1) :
      Discharges e { e with cc.typeOf := .repeatLoopBody body (counter - 1) }
  | untilLoop {body : SliceData} {t : Engine} (htype : e.cc.typeOf = .untilLoopCondition body)
      (h : exec checkUntilLoopCondition e = (.ok true, t)) : Discharges e t
  | againLoop {body : SliceData} (htype : e.cc.typeOf = .againLoopBody body) : Discharges e e

/-- Up to that call the arity stays as it is. -/
theorem Discharges.nargs_eq {e t : Engine} (h : Discharges e t) : t.cc.nargs = e.cc.nargs := by
  have hwhile : Maintains (fun s : Engine => s.cc.nargs = e.cc.nargs) (fun _ : Error => True)
      checkWhileLoopCondition fun _ => True := by
    have hlift {α : Type} (x : Except Failure α) :
        Maintains (fun s : Engine => s.cc.nargs = e.cc.nargs) (fun _ : Error => True) (lift x)
          fun _ => True := maintains_lift (fun _ _ => trivial) fun _ => trivial
    exact .bind (R := fun _ => True) (.bind .get fun _ _ => .bind (hlift _) fun _ _ =>
      .bind (.modify fun _ h => h) fun _ _ => .pure trivial) fun _ _ =>
        .bind (hlift _) fun _ _ => .pure trivial
  cases h with
  | whileLoop _ h => exact hwhile.state rfl h
  | repeatLoop _ _ => rfl
  | untilLoop _ h =>
    obtain ⟨_, s, hcheck, hpure⟩ := exec_bind_eq_ok h
    have hst : s = t := congrArg Prod.snd hpure
    exact hst ▸ hwhile.state rfl hcheck
  | againLoop _ => rfl

/-- With no arguments left there is nothing to drop. -/
theorem exec_dischargeNargs_stack {e : Engine} (h : e.cc.nargs = -1 ∨ e.cc.nargs = 0) :
    (exec dischargeNargs e).2.cc.stack = e.cc.stack := by
  have hempty : Stack.dropRangeStraight (e.cc.stack.length - e.cc.nargs.toNat) e.cc.stack.length
      e.cc.stack = .ok ([], e.cc.stack) := Stack.dropRangeStraight_of_ge (by omega) _
  unfold dischargeNargs
  rw [exec_bind_get]
  dsimp only
  split
  · split
    · rw [hempty]
      rfl
    · rfl
  · rfl

/-! ### Runs -/

variable [TonBlock]

theorem good_arity_pass {e : Engine} (he : good Policy.arity e) :
    good Policy.arity (exec pass e).2 := by
  refine (ends_pass he fun _ handler s hget hs => ?_).2
  have hstart : good Policy.arity { e with cmdCode := .from e.cc.code } := { he with }
  obtain ⟨byte, _, _, _, hcovered⟩ := covered_of_getHandler Handlers.Complete.out hstart hget
  have hunranged : ¬Policy.arity.ranged := id
  generalize byte.toNat = n at hcovered
  cases hcovered with
  | keeps hkeeps => exact hkeeps.out s hs
  | commit => exact Keeps.out s hs
  | pushintBig => exact (keeps_executePushintBig_of_not_ranged hunranged).out s hs
  | add => exact (keeps_executeAdd_of_not_ranged hunranged).out s hs

/-- In every state of a run the current continuation takes any number of arguments or none. So where
`discharge_nargs` is called, its subtraction does not go below zero and no value is dropped. -/
theorem current_arity {ctrls : Option SaveList} {stack : Option Stack}
    (capabilities : List GlobalCapability) (code : SliceData) (gas : Option Gas)
    (libraries : List HashmapE) (hctrls : Counted ctrls) (hstack : Counted stack)
    {r : Except Error (Option Int)} {e : Engine}
    (h : Run (fun _ => True)
      ((withCapabilities capabilities).setupWithLibraries code ctrls stack gas libraries) r e) :
    (e.cc.nargs = -1 ∨ e.cc.nargs = 0) ∧
      ∀ t, Discharges e t → (t.cc.nargs = -1 ∨ 0 ≤ t.cc.nargs ∧ t.cc.nargs ≤ t.cc.stack.length) ∧
        (exec dischargeNargs t).2.cc.stack = t.cc.stack := by
  have hgood : good Policy.arity e :=
    h.invariant (fun s hs _ => good_arity_pass hs) (good_setup _ _ _ _ hctrls hstack (by decide : (-1 : Int) ≤ 0))
  have harity := arity_of_good hgood
  refine ⟨harity, fun t ht => ?_⟩
  have hnargs := ht.nargs_eq
  exact ⟨by omega, exec_dischargeNargs_stack (by omega)⟩

end Engine

end Invariant

/-! ### A run on plain cells -/

namespace Engine

open scoped Plain

/-- `AGAIN` with an empty body that takes one value. -/
def looping : Engine :=
  (withCapabilities []).setupWithLibraries (Plain.code [0xEA]) none
    (some [.int 1, .continuation { code := Plain.code [], nargs := 1 }]) none []

theorem counted_looping :
    Counted (some [StackItem.int 1, .continuation { code := Plain.code [], nargs := 1 }]) := by
  rintro _ ⟨⟩
  simp only [good_cons, good_continuation, good_cont_iff, good_empty, good_nil, and_true]
  exact ⟨fun h => h.elim, fun _ => by decide⟩

/-- The body has taken its value, and the step of the loop comes next. -/
theorem current_arity_looping :
    (passes 1 looping).2.cc.nargs = 0 ∧ Discharges (passes 2 looping).2 (passes 2 looping).2 ∧
      (exec dischargeNargs (passes 2 looping).2).2.cc.stack = (passes 2 looping).2.cc.stack := by
  have htype : (passes 2 looping).2.cc.typeOf = .againLoopBody (Plain.code []) := rfl
  have hdischarge : Discharges (passes 2 looping).2 (passes 2 looping).2 := .againLoop htype
  exact ⟨rfl, hdischarge, ((current_arity [] (Plain.code [0xEA]) none [] (fun _ h => by cases h)
    counted_looping (.of_passes 2 looping)).2 _ hdischarge).2⟩

end Engine

end TonVm
