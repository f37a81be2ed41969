import TonVm.Proof.Run
import TonVm.Plain

/-!
# The types of registers and the committed state

Every register, and every saved register of a continuation that can be reached from the state, holds a
value of its type, and c4 and c5 are there. So `commit` records the current c4 and c5. The committed
state changes by a `COMMIT` and at the normal end of `execute`, by nothing else.
-/

namespace TonVm

open ExecLib

section Invariant

variable [TonTypes]

/-- Typed registers, and a committed state that does not change. -/
def Policy.registers (committed : CommittedState) : Policy where
  ranged := False
  typed := True
  counted := False
  frame cstate _ _ := cstate = committed
  frame_useGas _ _ h := h
  frame_newGasLimit _ h := h

/-- Values whose saved registers, at any depth, were put in place with the type check. -/
def Checked {α : Type} [Sane α] (a : α) : Prop := good (.registers .newEmpty) a

namespace Engine

instance (committed : CommittedState) : Settles (.registers committed) := ⟨fun _ _ h => h⟩

/-- Every register and every saved register of a continuation, wherever it is nested, holds a value
that `can_put` accepts, and c4 and c5 are present. -/
def RegistersTyped (e : Engine) : Prop := good (.registers e.cstate) e

/-! ### What the policy leaves out -/

section Unranged

variable {p : Policy} (h : ¬p.ranged)

include h

theorem keeps_executePushintBig_of_not_ranged : Keeps p executePushintBig := by
  have (x : IntegerData) : Good p x := by
    cases x with
    | nan => exact ⟨trivial⟩
    | value v => exact ⟨fun hranged => absurd hranged h⟩
  unfold executePushintBig
  refine ⟨.after fun _ _ => .bind (R := fun _ => True) ?_
    fun x _ => Keeps.out⟩
  unfold param
  refine .bind .get fun e _ => ?_
  split
  · exact .pure trivial
  · exact .throw Good.out

theorem keeps_executeAdd_of_not_ranged : Keeps p (executeAdd .signaling) :=
  keeps_binaryAssign fun _ _ hx =>
    IntegerData.good_addAssign_signaling hx fun _ _ _ _ hranged => absurd hranged h

end Unranged

/-! ### Typed registers -/

theorem registersTyped_iff {e : Engine} {committed : CommittedState} :
    good (.registers committed) e ↔ RegistersTyped e ∧ e.cstate = committed := by
  refine ⟨fun h => ?_, fun ⟨h, hcstate⟩ => hcstate ▸ h⟩
  have hcstate : e.cstate = committed := h.frame
  exact ⟨by rwa [RegistersTyped, hcstate], hcstate⟩

/-- The committed state is not among the values the policy asks about. -/
theorem good_setCstate {e : Engine} {committed : CommittedState} (h : good (.registers committed) e)
    (committed' : CommittedState) :
    good (.registers committed') { e with cstate := committed' } := by
  have hweaker : (Policy.registers committed').Weaker (.registers committed) := ⟨id, id, id⟩
  exact {
    cc := GoodContinuation.mono hweaker _ h.cc
    ctrls := GoodSaveList.mono hweaker _ h.ctrls
    roots := h.roots
    vars := GoodItems.mono hweaker _ h.vars
    params := fun parameter hmem => (h.params parameter hmem).mono hweaker
    frame := rfl }

/-- c4 and c5 hold cells. -/
theorem RegistersTyped.roots {e : Engine} (h : RegistersTyped e) :
    ∃ c4 c5 : Cell, e.ctrls.c4 = some (.cell c4) ∧ e.ctrls.c5 = some (.cell c5) := by
  have hroots := GoodEngine.roots h trivial
  have hctrls := GoodEngine.ctrls h
  rcases hlist : e.ctrls with ⟨c0, c1, c2, c3, c4, c5, c7⟩
  rw [hlist] at hroots hctrls
  obtain ⟨-, -, -, -, h4, h5, -⟩ := hctrls
  obtain ⟨item4, rfl⟩ := Option.isSome_iff_exists.1 hroots.1
  obtain ⟨item5, rfl⟩ := Option.isSome_iff_exists.1 hroots.2
  have hcell (item : StackItem) (hput : SaveList.canPut 4 item = true) :
      ∃ cell, item = .cell cell := by
    cases item with
    | cell cell => exact ⟨cell, rfl⟩
    | _ => cases hput
  obtain ⟨cell4, rfl⟩ := hcell item4 (h4.2 trivial)
  obtain ⟨cell5, rfl⟩ := hcell item5 (h5.2 trivial)
  exact ⟨cell4, cell5, rfl, rfl⟩

theorem withParams_cells (c4 c5 : Cell) :
    CommittedState.withParams (.cell c4) (.cell c5) = ⟨.cell c4, .cell c5, true⟩ := rfl

theorem exec_commit {e : Engine} {c4 c5 : Cell} (h4 : e.ctrls.c4 = some (.cell c4))
    (h5 : e.ctrls.c5 = some (.cell c5)) :
    exec commit e = (.ok (), { e with cstate := ⟨.cell c4, .cell c5, true⟩ }) := by
  unfold commit
  rw [exec_modify]
  simp only [SaveListOf.get, SaveListOf.adjust, SaveListOf.slot, Nat.reduceEqDiff, if_false, h4, h5,
    Option.getD_some, withParams_cells]

/-! ### One pass -/

variable [TonBlock]

/-- The next instruction is `COMMIT`. -/
def AtCommit (e : Engine) : Prop :=
  TonTypes.remainingBits e.cc.code ≠ 0 ∧ ∃ s, exec (getHandler Handlers.newCodePage0)
    { e with cmdCode := .from e.cc.code } = (.ok executeCommit, s)

/-- A handler that is not that of `COMMIT` keeps the registers typed and the committed state. -/
theorem ends_handler_of_not_commit {e s : Engine} {committed : CommittedState} {handler : M Unit}
    (he : good (.registers committed) e) (hcommit : handler ≠ executeCommit)
    (hget : exec (getHandler Handlers.newCodePage0) e = (.ok handler, s))
    (hs : good (.registers committed) s) :
    Ends (good (.registers committed)) (good (.registers committed)) handler
      (good (.registers committed)) s := by
  obtain ⟨byte, _, _, _, hcovered⟩ := covered_of_getHandler Handlers.Complete.out he hget
  have hunranged : ¬(Policy.registers committed).ranged := id
  generalize byte.toNat = n at hcovered
  cases hcovered with
  | keeps hkeeps => exact hkeeps.out s hs
  | pushintBig => exact (keeps_executePushintBig_of_not_ranged hunranged).out s hs
  | add => exact (keeps_executeAdd_of_not_ranged hunranged).out s hs
  | commit => exact absurd rfl hcommit

theorem pass_of_not_commit {e : Engine} (he : RegistersTyped e) (hcommit : ¬AtCommit e) :
    RegistersTyped (exec pass e).2 ∧ (exec pass e).2.cstate = e.cstate := by
  refine registersTyped_iff.1 (ends_pass he fun hcode handler s hget hs => ?_).2
  refine ends_handler_of_not_commit ?_ ?_ hget hs
  · exact { he with }
  · rintro rfl
    exact hcommit ⟨hcode, s, hget⟩

/-- `COMMIT` records c4 and c5, whether or not the gas lasts. -/
theorem pass_of_commit {e : Engine} {c4 c5 : Cell} (he : RegistersTyped e) (hcommit : AtCommit e)
    (h4 : e.ctrls.c4 = some (.cell c4)) (h5 : e.ctrls.c5 = some (.cell c5)) :
    RegistersTyped (exec pass e).2 ∧ (exec pass e).2.cstate = ⟨.cell c4, .cell c5, true⟩ := by
  obtain ⟨hcode, s, hget⟩ := hcommit
  have hstart : RegistersTyped { e with cmdCode := .from e.cc.code } := { he with }
  have hs : good (.registers e.cstate) s :=
    (Keeps.out (p := .registers e.cstate) (m := getHandler Handlers.newCodePage0)).state hstart hget
  -- the search for the handler does not touch the registers
  have hctrls : s.ctrls = e.ctrls := by
    have hnext : Maintains (fun s : Engine => s.ctrls = e.ctrls) (fun _ : Error => True) nextCmd
        fun _ => True := by
      unfold nextCmd
      refine .bind .get fun t ht => ?_
      split
      · exact .bind (.modify fun _ hs => hs) fun _ _ => .pure trivial
      · exact .throw trivial
    refine (maintains_getHandler hnext Handlers.newCodePage0).state ?_ hget
    rfl
  refine registersTyped_iff.1 ?_
  have hinstruction : Ends (good (.registers ⟨.cell c4, .cell c5, true⟩))
      (good (.registers ⟨.cell c4, .cell c5, true⟩))
      (executeInstruction (getHandler Handlers.newCodePage0))
      (good (.registers ⟨.cell c4, .cell c5, true⟩)) e := by
    refine ends_executeInstruction (fun err t h => ?_) fun handler t h => ?_
    · rw [hget] at h
      cases h
    · rw [hget] at h
      cases h
      unfold executeCommit Ends
      rw [exec_bind_ok (exec_loadInstruction s), exec_commit (hctrls ▸ h4) (hctrls ▸ h5)]
      have hloaded : GoodEngine (.registers e.cstate) (exec loadInstruction s).2 :=
        (Keeps.out (p := .registers e.cstate) (m := loadInstruction) s hs).2
      exact ⟨trivial, good_setCstate hloaded _⟩
  unfold Ends at hinstruction
  rw [exec_pass_of_code hcode]
  exact (Ends.bind hinstruction fun _ t _ _ ht =>
    Maintains.pure (Q := fun _ => True) trivial t ht).2

/-! ### Runs -/

/-- Where passes lead to, with the committed state of the last `COMMIT` among them, or of the start if
there was none. -/
inductive LastCommit (e : Engine) :
    CommittedState → Except Error (Option Int) → Engine → Prop where
  | start : LastCommit e e.cstate (.ok none) e
  | pass {committed : CommittedState} {s : Engine} :
    LastCommit e committed (.ok none) s → ¬AtCommit s →
      LastCommit e committed (exec pass s).1 (exec pass s).2
  | commit {committed : CommittedState} {s : Engine} {c4 c5 : StackItem} :
    LastCommit e committed (.ok none) s → AtCommit s →
      s.ctrls.get 4 = some c4 → s.ctrls.get 5 = some c5 →
      LastCommit e ⟨c4, c5, true⟩ (exec pass s).1 (exec pass s).2

theorem registersTyped_of_lastCommit {e t : Engine} {committed : CommittedState}
    {r : Except Error (Option Int)} (he : RegistersTyped e) (h : LastCommit e committed r t) :
    RegistersTyped t ∧ t.cstate = committed := by
  induction h with
  | start => exact ⟨he, rfl⟩
  | pass _ hcommit ih =>
    obtain ⟨htyped, hcstate⟩ := pass_of_not_commit ih.1 hcommit
    exact ⟨htyped, hcstate.trans ih.2⟩
  | commit _ hcommit h4 h5 ih =>
    obtain ⟨cell4, cell5, hcell4, hcell5⟩ := ih.1.roots
    obtain rfl := Option.some.inj (hcell4.symm.trans h4)
    obtain rfl := Option.some.inj (hcell5.symm.trans h5)
    exact pass_of_commit ih.1 hcommit hcell4 hcell5

/-- Every run has a last `COMMIT`, or none. -/
theorem exists_lastCommit {e t : Engine} {r : Except Error (Option Int)} (he : RegistersTyped e)
    (h : Run (fun _ => True) e r t) : ∃ committed, LastCommit e committed r t := by
  classical
  induction h with
  | start => exact ⟨_, .start⟩
  | @pass s _ _ ih =>
    obtain ⟨committed, hlast⟩ := ih
    by_cases hcommit : AtCommit s
    · obtain ⟨cell4, cell5, hcell4, hcell5⟩ := (registersTyped_of_lastCommit he hlast).1.roots
      exact ⟨_, .commit hlast hcommit hcell4 hcell5⟩
    · exact ⟨_, .pass hlast hcommit⟩

theorem registersTyped_of_run {e t : Engine} {r : Except Error (Option Int)} (he : RegistersTyped e)
    (h : Run (fun _ => True) e r t) : RegistersTyped t := by
  obtain ⟨_, hlast⟩ := exists_lastCommit he h
  exact (registersTyped_of_lastCommit he hlast).1

/-- From a start with registers put in place with the type check, registers and saved registers stay
typed and `commit` records c4 and c5. The committed state is that of the last `COMMIT`, also where
`execute` fails, up to the commit at a normal end. -/
theorem registers_typed_and_committed {ctrls : Option SaveList} {stack : Option Stack}
    (capabilities : List GlobalCapability) (code : SliceData) (gas : Option Gas)
    (libraries : List HashmapE) (hctrls : Checked ctrls) (hstack : Checked stack) :
    let e := (withCapabilities capabilities).setupWithLibraries code ctrls stack gas libraries
    (∀ r t, Run (fun _ => True) e r t →
      RegistersTyped t ∧ ∃ c4 c5 : Cell,
        t.ctrls.get 4 = some (.cell c4) ∧ t.ctrls.get 5 = some (.cell c5) ∧
        exec commit t = (.ok (), { t with cstate := ⟨.cell c4, .cell c5, true⟩ })) ∧
    (∀ committed r t, LastCommit e committed r t → t.cstate = committed) ∧
    (∀ seekFuel fuel, match exec (execute seekFuel fuel) e with
      | (.error err, t) => ∃ committed, LastCommit e committed (.error err) t
      | (.ok (some exitCode), t) => ∃ committed s, LastCommit e committed (.ok (some exitCode)) s ∧
        exec commit s = (.ok (), t)
      | (.ok none, t) => ∃ committed, LastCommit e committed (.ok none) t) := by
  intro e
  have he : RegistersTyped e := good_setup _ _ _ _ hctrls hstack rfl
  refine ⟨fun r t h => ?_, fun committed r t h => (registersTyped_of_lastCommit he h).2, ?_⟩
  · have ht := registersTyped_of_run he h
    obtain ⟨c4, c5, h4, h5⟩ := ht.roots
    exact ⟨ht, c4, c5, h4, h5, exec_commit h4 h5⟩
  · intro seekFuel fuel
    have hrun := execute_run seekFuel fuel e
    rcases h : exec (execute seekFuel fuel) e with ⟨_ | _ | exitCode, t⟩ <;> rw [h] at hrun
    · exact exists_lastCommit he hrun
    · exact exists_lastCommit he hrun
    · obtain ⟨s, hs, hcommit⟩ := hrun
      obtain ⟨committed, hlast⟩ := exists_lastCommit he hs
      exact ⟨committed, s, hlast, hcommit⟩

end Engine

end Invariant

namespace Engine

open scoped Plain

/-- The code `COMMIT`. -/
def committing : Engine :=
  (withCapabilities []).setupWithLibraries (Plain.code [0xF8, 0x0F]) none none none []

/-- Whether the committed state holds an empty cell for c4. -/
def committedEmpty (e : Engine) : Bool :=
  match e.cstate with
  | ⟨.cell (.mk .ordinary [] []), _, committed⟩ => committed
  | _ => false

theorem registers_typed_committing :
    committedEmpty (passes 1 committing).2 = true ∧ RegistersTyped (passes 1 committing).2 :=
  ⟨by decide +kernel, ((@registers_typed_and_committed _ _ none none [] (Plain.code [0xF8, 0x0F]) none
    [] (fun _ h => by cases h) fun _ h => by cases h).1 _ _ (.of_passes 1 committing)).1⟩

end Engine

end TonVm
