import TonVm.Proof.Run
import TonVm.Plain

/-!
# The range of integers

Every integer of the machine, wherever it is nested, lies between `-2 ^ 256` and `2 ^ 256`, unless a
step brings in a literal of the long `PUSHINT` that is larger, or `ADD` overflows: its sum is on the
stack when the exception is raised, where a handler that keeps the stack finds it.
-/

namespace TonVm

open ExecLib

section Invariant

variable [TonTypes]

/-- Integers in range, and nothing else. -/
def Policy.range : Policy where
  ranged := True
  typed := False
  counted := False
  frame _ _ _ := True
  frame_useGas _ _ _ := trivial
  frame_newGasLimit _ _ := trivial

namespace Engine

instance : Settles Policy.range := ⟨fun _ _ _ => trivial⟩

/-- Every integer that is not NaN is in range: on the stack, in the registers and among the variables
of the last instruction, and inside their tuples and continuations. -/
def IntegersInRange (e : Engine) : Prop := good Policy.range e

/-! ### The literal of the long `PUSHINT` -/

/-- The next byte of some code. -/
def codeByte : StateT SliceData (Except Failure) UInt8 := TonTypes.getNextByte

/-- The literal at the start of some code, and the code after it. -/
def pushintLiteral (code : SliceData) : Except Failure (IntegerData × SliceData) :=
  (IntegerData.fromBigEndianOctetStream codeByte).run code

/-- A program that reads the code of the current continuation as a reader of slices does. -/
def ReadsCode {α : Type} (m : M α) (reader : StateT SliceData (Except Failure) α) : Prop :=
  ∀ e a t, exec m e = (.ok a, t) → reader.run e.cc.code = .ok (a, t.cc.code)

namespace ReadsCode

variable {α β : Type} {m : M α} {reader : StateT SliceData (Except Failure) α}

protected theorem pure (a : α) : ReadsCode (pure a) (pure a) := by
  rintro e _ _ ⟨⟩
  rfl

protected theorem bind {f : α → M β} {next : α → StateT SliceData (Except Failure) β}
    (hm : ReadsCode m reader) (hf : ∀ a, ReadsCode (f a) (next a)) :
    ReadsCode (m >>= f) (reader >>= next) := by
  intro e b t h
  obtain ⟨a, s, ha, hb⟩ := exec_bind_eq_ok h
  rw [StateT.run_bind, hm e a s ha]
  exact hf a s b t hb

end ReadsCode

theorem readsCode_nextCmd : ReadsCode nextCmd codeByte := by
  intro e byte t h
  obtain ⟨rest, hbyte, rfl⟩ := exec_nextCmd_eq_ok h
  exact hbyte

theorem readsCode_readBytes (n : Nat) (digit : UInt32) :
    ReadsCode (IntegerData.readBytes nextCmd n digit) (IntegerData.readBytes codeByte n digit) := by
  induction n generalizing digit with
  | zero => exact .pure digit
  | succ n ih => exact .bind readsCode_nextCmd fun _ => ih _

theorem readsCode_readDigits (n : Nat) (digits : List UInt32) :
    ReadsCode (IntegerData.readDigits nextCmd n digits)
      (IntegerData.readDigits codeByte n digits) := by
  induction n generalizing digits with
  | zero => exact .pure digits
  | succ n ih => exact .bind (readsCode_readBytes 4 0) fun _ => ih _

theorem readsCode_literal :
    ReadsCode (IntegerData.fromBigEndianOctetStream nextCmd)
      (IntegerData.fromBigEndianOctetStream codeByte) := by
  unfold IntegerData.fromBigEndianOctetStream
  exact .bind readsCode_nextCmd fun _ => .bind (readsCode_readBytes _ _) fun _ =>
    .bind (readsCode_readDigits _ _) fun _ => .pure _

/-- The parameter of a long `PUSHINT` is the literal in the code. -/
theorem bigInteger_of_loadInstruction {e t : Engine}
    (h : exec (loadInstruction (some .bigInteger)) e = (.ok (), t)) :
    ∃ x rest, pushintLiteral e.cc.code = .ok (x, rest) ∧ t.cmd.params = [.bigInteger x] := by
  unfold loadInstruction extractInstruction at h
  rw [exec_bind_modify] at h
  obtain ⟨_, s, hgas, h⟩ := exec_bind_eq_ok h
  unfold basicUseGas useGas at hgas
  rw [exec_bind_get, exec_modify] at hgas
  cases hgas
  obtain ⟨x, u, hx, h⟩ := exec_bind_eq_ok h
  have hparams : u.cmd.params = [] := by
    have hbyte : Maintains (fun s : Engine => s.cmd.params = []) (fun _ : Error => True) nextCmd
        fun _ => True := by
      unfold nextCmd
      refine .bind .get fun e he => ?_
      split
      · exact .bind (.modify fun _ hs => hs) fun _ _ => .pure trivial
      · exact .throw trivial
    refine (maintains_fromBigEndianOctetStream hbyte).state ?_ hx
    rfl
  have hliteral := readsCode_literal _ _ _ hx
  cases h
  exact ⟨x, u.cc.code, hliteral, by simp [hparams]⟩

/-! ### Steps that keep the integers in range -/

/-- The literal of a long `PUSHINT` and the sum of an `ADD` are in range. -/
structure Harmless (e : Engine) : Prop where
  pushint : ∀ code v rest, TonTypes.getNextByte e.cc.code = .ok (0x82, code) →
    pushintLiteral code = .ok (.value v, rest) → InRange v
  add : ∀ code x y, TonTypes.getNextByte e.cc.code = .ok (0xA0, code) →
    Stack.get 0 e.cc.stack = .ok (.int y) → Stack.get 1 e.cc.stack = .ok (.int x) → InRange (x + y)

theorem ends_executePushintBig {e : Engine} (he : IntegersInRange e)
    (hliteral : ∀ v rest, pushintLiteral e.cc.code = .ok (.value v, rest) → InRange v) :
    Ends (good Policy.range) (good Policy.range) executePushintBig (good Policy.range) e := by
  unfold executePushintBig
  refine .bind (R := good Policy.range) (Keeps.out e he) fun _ t hload _ ht => ?_
  obtain ⟨x, rest, hx, hparams⟩ := bigInteger_of_loadInstruction hload
  have : Good Policy.range x := by
    cases x with
    | nan => exact ⟨trivial⟩
    | value v => exact ⟨fun _ => hliteral v rest hx⟩
  have hparam : exec (param bigintegerRaw) t = (.ok x, t) := by
    unfold param bigintegerRaw
    rw [exec_bind_get, hparams]
    rfl
  unfold Ends
  rw [exec_bind_ok hparam]
  exact Keeps.out t ht

theorem ends_executeAdd {e : Engine} (he : IntegersInRange e)
    (hsum : ∀ x y, Stack.get 0 e.cc.stack = .ok (.int y) → Stack.get 1 e.cc.stack = .ok (.int x) →
      InRange (x + y)) :
    Ends (good Policy.range) (good Policy.range) (executeAdd .signaling) (good Policy.range) e := by
  refine ends_binaryAssign he fun y x hx hgety hgetx => IntegerData.good_addAssign_signaling hx ?_
  rintro l r rfl rfl _
  exact hsum l r hgety hgetx

instance : Keeps Policy.range executeCommit := by
  unfold executeCommit commit
  exact ⟨.bind (R := good Policy.range) Keeps.out fun _ _ => .modify fun e he =>
    { he with frame := trivial }⟩

variable [TonBlock]

/-- The handler that a harmless state finds leaves the integers in range. -/
theorem ends_handler {e s : Engine} {handler : M Unit} (he : IntegersInRange e) (h : Harmless e)
    (hget : exec (getHandler Handlers.newCodePage0) { e with cmdCode := .from e.cc.code } =
      (.ok handler, s)) (hs : IntegersInRange s) :
    Ends (good Policy.range) (good Policy.range) handler (good Policy.range) s := by
  have hstart : IntegersInRange { e with cmdCode := .from e.cc.code } := { he with }
  obtain ⟨byte, t, hbyte, hdispatch, hcovered⟩ :=
    covered_of_getHandler Handlers.Complete.out hstart hget
  obtain ⟨rest, hcode, ht⟩ := exec_nextCmd_eq_ok hbyte
  have hrest : t.cc.code = rest := by rw [ht]
  have hstack : t.cc.stack = e.cc.stack := by rw [ht]
  rw [← hrest] at hcode
  generalize hn : byte.toNat = n at hcovered
  cases hcovered with
  | keeps hkeeps => exact hkeeps.out s hs
  | commit => exact Keeps.out s hs
  | pushintBig =>
    obtain rfl : byte = 0x82 := UInt8.toNat_inj.1 hn
    cases hdispatch
    exact ends_executePushintBig hs fun v rest => h.pushint _ v rest hcode
  | add =>
    obtain rfl : byte = 0xA0 := UInt8.toNat_inj.1 hn
    cases hdispatch
    exact ends_executeAdd hs fun x y hy hx =>
      h.add _ x y hcode (hstack ▸ hy) (hstack ▸ hx)

/-- In a run that leaves harmless states only, the integers stay in range. -/
theorem integersInRange_of_run {e t : Engine} {r : Except Error (Option Int)}
    (h : Run Harmless e r t) (he : IntegersInRange e) : IntegersInRange t :=
  h.invariant (fun _ hs hharmless =>
    (ends_pass hs fun _ _ _ hget hgood => ends_handler hs hharmless hget hgood).2) he

/-- The integer at the bottom of a stack. -/
def bottomInteger (e : Engine) : Option Int :=
  match e.cc.stack with
  | .integer (.value v) :: _ => some v
  | _ => none

omit [TonBlock] in
theorem not_integersInRange_of_bottom {e : Engine} {v : Int} (h : bottomInteger e = some v)
    (hv : ¬InRange v) : ¬IntegersInRange e := by
  intro he
  have hstack := ((good_cont_iff _).1 he.cc).2.2
  unfold bottomInteger at h
  split at h
  · rename_i x _ heq
    obtain rfl : x = v := Option.some.inj h
    have hx : good Policy.range (StackItem.integer (.value x)) :=
      hstack _ (heq ▸ List.mem_cons_self)
    exact hv ((good_integer _).1 hx trivial)
  · cases h

end Engine

end Invariant

/-! ### Runs on plain cells -/

namespace Engine

open scoped Plain

/-- `PUSHINT 5` in its long form. -/
def smallLiteral : Engine :=
  (withCapabilities []).setup (Plain.code [0x82, 0x00, 0x00, 0x05]) none none none

/-- A literal of 267 bits. -/
def largeLiteral : Engine :=
  (withCapabilities []).setup (Plain.code ([0x82, 0xFB] ++ List.replicate 33 0)) none none none

/-- `TRYKEEP` with the body `ADD`, over the largest integer and 1. -/
def overflowingSum : Engine :=
  (withCapabilities [.capsTvmBugfixes2022]).setup (Plain.code [0x91, 0xA0, 0x90, 0xF2, 0xFE]) none
    (some [.int (2 ^ 256 - 1), .int 1]) none

theorem harmless_smallLiteral : Harmless smallLiteral := by
  have hliteral : (TonTypes.getNextByte smallLiteral.cc.code).toOption.map
      (fun x => (x.1, (pushintLiteral x.2).toOption.map (·.1))) =
      some (0x82, some (.value 5)) := by decide +kernel
  constructor
  · intro code v rest hbyte hv
    rw [hbyte] at hliteral
    simp only [Except.toOption, Option.map_some, hv, Option.some.injEq, Prod.mk.injEq, true_and,
      IntegerData.value.injEq] at hliteral
    subst hliteral
    unfold InRange
    omega
  · intro code x y hbyte
    rw [hbyte] at hliteral
    simp [Except.toOption] at hliteral

/-- A run over a literal in range. -/
theorem integersInRange_smallLiteral :
    IntegersInRange (exec pass smallLiteral).2 :=
  integersInRange_of_run (.pass .start harmless_smallLiteral)
    (good_setup _ _ _ _ (fun _ h => by cases h) (fun _ h => by cases h) trivial)

/-- The machine can leave the range by a literal and by a sum that an exception handler finds. -/
theorem exists_run_out_of_range :
    (IntegersInRange largeLiteral ∧ ∃ r t, Run (fun _ => True) largeLiteral r t ∧
      ¬IntegersInRange t) ∧
    (IntegersInRange overflowingSum ∧ ∃ r t, Run (fun _ => True) overflowingSum r t ∧
      ¬IntegersInRange t) := by
  refine ⟨⟨?_, _, _, Run.of_passes 1 _, ?_⟩, ?_, _, _, Run.of_passes 4 _, ?_⟩
  · exact good_setup _ _ _ _ (fun _ h => by cases h) (fun _ h => by cases h) trivial
  · exact not_integersInRange_of_bottom
      (show bottomInteger (passes 1 largeLiteral).2 = some (3 * 2 ^ 264) by decide +kernel)
      (by unfold InRange; omega)
  · refine good_setup _ _ _ _ (fun _ h => by cases h) ?_ trivial
    rintro _ ⟨⟩
    have hint (v : Int) (hv : InRange v) : good Policy.range (StackItem.int v) :=
      (good_integer _).2 fun _ => hv
    exact (good_cons _ _).2 ⟨hint _ (by unfold InRange; omega),
      (good_cons _ _).2 ⟨hint _ (by unfold InRange; omega), good_nil⟩⟩
  · exact not_integersInRange_of_bottom
      (show bottomInteger (passes 4 overflowingSum).2 = some (2 ^ 256) by decide +kernel)
      (by unfold InRange; omega)

end Engine

end TonVm
