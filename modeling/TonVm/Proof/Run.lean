import TonVm.Proof.MainLoop

/-!
# Runs of the machine

`execute` alternates between looking for the next instruction and executing one. A `pass` is one turn
of either, and `Run` is what a number of passes lead to. What a pass keeps holds along every run, and
`execute` ends in a state that a run leads to, up to the commit after a normal end.
-/

namespace TonVm

open ExecLib

variable [TonTypes] [TonBlock]

namespace Engine

/-- One turn of the main loop: an instruction, or an implicit step when the code is used up. -/
def pass : M (Option Int) := do
  if TonTypes.remainingBits (← get).cc.code ≠ 0 then
    executeInstruction (getHandler Handlers.newCodePage0)
    return none
  else
    seekStep

/-- Where passes lead to from a state, with the result of the last one, when every state they leave
satisfies `P`. A pass that ends with an exit code or an error is the last. -/
inductive Run (P : Engine → Prop) (e : Engine) : Except Error (Option Int) → Engine → Prop where
  | start : Run P e (.ok none) e
  | pass {s : Engine} : Run P e (.ok none) s → P s → Run P e (exec pass s).1 (exec pass s).2

/-- At most a number of passes, up to one that ends the run. -/
def passes : Nat → Engine → Except Error (Option Int) × Engine
  | 0, e => (.ok none, e)
  | n + 1, e =>
    match exec pass e with
    | (.ok none, t) => passes n t
    | last => last

/-- The code of the exception that ended a run. -/
def endedBy : Except Error (Option Int) → Option ExceptionCode
  | .error (.exception exception) => exception.exceptionCode
  | _ => none

/-- The integers on a stack. -/
def integersOn (stack : Stack) : List Int :=
  stack.filterMap fun
    | .integer (.value v) => some v
    | _ => none

/-- How a run ended: the exit code, if there is one, and the integers on the stack. -/
def ending (r : Except Error (Option Int) × Engine) : Option Int × List Int :=
  (r.1.toOption.join, integersOn r.2.cc.stack)

namespace Run

variable {P I : Engine → Prop} {e s t : Engine} {r : Except Error (Option Int)}

/-- What every pass keeps holds along a run. -/
theorem invariant (hstep : ∀ s, I s → P s → I (exec Engine.pass s).2) (he : I e)
    (h : Run P e r t) : I t := by
  induction h with
  | start => exact he
  | pass _ hP ih => exact hstep _ ih hP

theorem trans (h : Run P e (.ok none) s) (h' : Run P s r t) : Run P e r t := by
  induction h' with
  | start => exact h
  | pass _ hP ih => exact .pass ih hP

theorem one (hP : P e) (h : exec Engine.pass e = (r, t)) : Run P e r t := by
  have := Run.pass .start hP
  rwa [h] at this

theorem of_passes (n : Nat) (e : Engine) :
    Run (fun _ => True) e (passes n e).1 (passes n e).2 := by
  induction n generalizing e with
  | zero => exact .start
  | succ n ih =>
    unfold passes
    rcases h : exec Engine.pass e with ⟨_ | _ | _, t⟩
    · exact .one trivial h
    · exact (Run.one trivial h).trans (ih t)
    · exact .one trivial h

end Run

/-! ### Execution is a run -/

theorem exec_pass_of_code {e : Engine} (h : TonTypes.remainingBits e.cc.code ≠ 0) :
    exec pass e = exec (do executeInstruction (getHandler Handlers.newCodePage0); return none) e := by
  unfold pass
  rw [exec_bind_get, if_pos h]

theorem exec_pass_of_end {e : Engine} (h : ¬TonTypes.remainingBits e.cc.code ≠ 0) :
    exec pass e = exec seekStep e := by
  unfold pass
  rw [exec_bind_get, if_neg h]

/-- A pass from a good state, when the handler that an instruction finds ends well. -/
theorem ends_pass {p : Policy} [Settles p] {e : Engine} (he : good p e)
    (hrun : TonTypes.remainingBits e.cc.code ≠ 0 → ∀ handler s,
      exec (getHandler Handlers.newCodePage0) { e with cmdCode := .from e.cc.code } =
        (.ok handler, s) → good p s → Ends (good p) (good p) handler (good p) s) :
    Ends (good p) (good p) pass (good p) e := by
  unfold Ends
  by_cases hcode : TonTypes.remainingBits e.cc.code ≠ 0
  · have hstart : good p { e with cmdCode := .from e.cc.code } := { he with }
    have hget := (Keeps.out (p := p) (m := getHandler Handlers.newCodePage0))
    have hinstruction : Ends (good p) (good p)
        (executeInstruction (getHandler Handlers.newCodePage0)) (good p) e :=
      ends_executeInstruction (fun _ _ h => ⟨hget.error hstart h, hget.state hstart h⟩)
        fun handler s h => hrun hcode handler s h (hget.state hstart h)
    rw [exec_pass_of_code hcode]
    exact hinstruction.bind fun _ t _ _ ht => Maintains.pure (fun _ h => by cases h) t ht
  · rw [exec_pass_of_end hcode]
    exact Keeps.out e he

/-- What `seek_next_cmd` does is a run. When it finds an instruction, there is code. -/
theorem seekNextCmd_run (fuel : Nat) (e : Engine) :
    match exec (seekNextCmd fuel) e with
    | (.ok none, t) => Run (fun _ => True) e (.ok none) t
    | (.ok (some none), t) =>
      Run (fun _ => True) e (.ok none) t ∧ TonTypes.remainingBits t.cc.code ≠ 0
    | (.ok (some (some exitCode)), t) => Run (fun _ => True) e (.ok (some exitCode)) t
    | (.error err, t) => Run (fun _ => True) e (.error err) t := by
  induction fuel generalizing e with
  | zero => exact .start
  | succ fuel ih =>
    unfold seekNextCmd
    rw [exec_bind_get]
    by_cases h : TonTypes.remainingBits e.cc.code ≠ 0
    · rw [if_pos h, exec_pure]
      exact ⟨.start, h⟩
    · rw [if_neg h, exec_bind]
      have hpass := exec_pass_of_end h
      rcases hstep : exec seekStep e with ⟨_ | _ | exitCode, t⟩
      · exact .one trivial (hpass.trans hstep)
      · have hrun : Run (fun _ => True) e (.ok none) t := .one trivial (hpass.trans hstep)
        have hrest := ih t
        dsimp only
        rcases hnext : exec (seekNextCmd fuel) t with ⟨_ | _ | _ | _, u⟩ <;> rw [hnext] at hrest
        · exact hrun.trans hrest
        · exact hrun.trans hrest
        · exact ⟨hrun.trans hrest.1, hrest.2⟩
        · exact hrun.trans hrest
      · exact .one trivial (hpass.trans hstep)

/-- Where `execute` ends: after a normal end the commit follows the run. -/
theorem execute_run (seekFuel fuel : Nat) (e : Engine) :
    match exec (execute seekFuel fuel) e with
    | (.ok none, t) => Run (fun _ => True) e (.ok none) t
    | (.ok (some exitCode), t) =>
      ∃ s, Run (fun _ => True) e (.ok (some exitCode)) s ∧ exec commit s = (.ok (), t)
    | (.error err, t) => Run (fun _ => True) e (.error err) t := by
  unfold execute
  induction fuel generalizing e with
  | zero => exact .start
  | succ fuel ih =>
    unfold executeLoop
    rw [exec_bind]
    have hseek := seekNextCmd_run seekFuel e
    rcases h : exec (seekNextCmd seekFuel) e with ⟨_ | _ | _ | exitCode, s⟩ <;> rw [h] at hseek
    · exact hseek
    · exact hseek
    · have hpass := exec_pass_of_code hseek.2
      dsimp only
      rw [exec_bind]
      rw [exec_bind] at hpass
      rcases hinst : exec (executeInstruction (getHandler Handlers.newCodePage0)) s with ⟨_ | _, t⟩ <;>
        rw [hinst] at hpass
      · exact hseek.1.trans (.one trivial hpass)
      · have hrun := hseek.1.trans (.one trivial hpass)
        have hrest := ih t
        dsimp only
        rcases hnext : exec (executeLoop (getHandler Handlers.newCodePage0) seekFuel fuel) t with
          ⟨_ | _ | _, u⟩ <;> rw [hnext] at hrest
        · exact hrun.trans hrest
        · exact hrun.trans hrest
        · obtain ⟨v, hv, hcommit⟩ := hrest
          exact ⟨v, hrun.trans hv, hcommit⟩
    · exact ⟨s, hseek, rfl⟩

end Engine

end TonVm
