import TonVm.Lib.Recovery
import TonVm.Proof.Divmod
import TonVm.Proof.Parameters

/-!
# Quiet instructions

An arithmetic instruction comes in a signaling and in a quiet version. They share everything but the
reaction to NaN, to an overflow and, in one instruction, to a negative operand: there the signaling
version stops, and the quiet one goes on with NaN for every result. Where the operands lie in the range
so does a remainder, so the one range check that both versions leave to stop them never does.
-/

namespace TonVm

open ExecLib

/-- The codes that arithmetic may signal. -/
class Arithmetical (codes : List ExceptionCode) : Prop where
  out : ∀ code ∈ codes, code = .integerOverflow ∨ code = .rangeCheckError

instance : Arithmetical [.integerOverflow] := ⟨by decide⟩

instance : Arithmetical [.integerOverflow, .rangeCheckError] := ⟨by decide⟩

theorem IntegerData.addAssign_quiet (x y : IntegerData) :
    (x.addAssign .signaling y).1 = .ok () ∧ x.addAssign .quiet y = x.addAssign .signaling y ∨
      (x.addAssign .signaling y).1 = .error (.code .integerOverflow) ∧
        x.addAssign .quiet y = (.ok (), .nan) := by
  cases x with
  | nan => exact .inr ⟨rfl, rfl⟩
  | value v =>
    cases y with
    | nan => exact .inr ⟨rfl, rfl⟩
    | value w =>
      unfold IntegerData.addAssign
      dsimp only
      split
      · exact .inl ⟨rfl, rfl⟩
      · exact .inr ⟨rfl, rfl⟩

variable [TonTypes]

/-- The error carries one of the codes. -/
def Signals (codes : List ExceptionCode) : Error → Prop
  | .exception exception => ∃ code ∈ codes, exception.exceptionCode = some code
  | _ => False

theorem signals_code {codes : List ExceptionCode} {code : ExceptionCode} :
    Signals codes (Failure.code code).toError ↔ code ∈ codes := by
  constructor
  · rintro ⟨c, hc, h⟩
    cases h
    exact hc
  · intro h
    exact ⟨code, h, rfl⟩

namespace Engine

variable {α : Type} {codes : List ExceptionCode}

/-! ### Shared parts -/

theorem avoids_lift {x : Except Failure α}
    (h : ∀ failure, x = .error failure → ¬Signals codes failure.toError) :
    Avoids (Signals codes) (lift x : M α) := by
  cases x with
  | ok a => exact avoids_pure a
  | error failure => exact avoids_throw (h failure rfl)

section Avoids

variable [hcodes : Arithmetical codes]

/-- A failure of another kind. -/
theorem not_signals_of_ne {code : ExceptionCode} (h : code ≠ .integerOverflow)
    (h' : code ≠ .rangeCheckError) : ¬Signals codes (Failure.code code).toError := by
  rw [signals_code]
  intro hmem
  rcases hcodes.out code hmem with heq | heq
  · exact h heq
  · exact h' heq

instance : Avoids (Signals codes) (err .stackUnderflow : M α) :=
  avoids_throw (not_signals_of_ne nofun nofun)

instance : Avoids (Signals codes) (err .invalidOpcode : M α) :=
  avoids_throw (not_signals_of_ne nofun nofun)

theorem not_signals_asInteger {item : StackItem} {failure : Failure}
    (h : item.asInteger = .error failure) : ¬Signals codes failure.toError := by
  cases item <;> cases h <;> exact not_signals_of_ne nofun nofun

instance (item : StackItem) : Avoids (Signals codes) (lift item.asInteger) :=
  avoids_lift fun _ h => not_signals_asInteger h

instance (depth : Nat) : Avoids (Signals codes) (checkDepth depth) := by
  unfold checkDepth
  infer_instance

instance (i : Nat) : Avoids (Signals codes) (stackItem i) := by
  have (stack : Stack) : Avoids (Signals codes) (lift (Stack.get i stack) : M StackItem) := by
    refine avoids_lift fun failure h => ?_
    unfold Stack.get at h
    split at h
    · split at h
      · cases h
      · cases h
        exact id
    · cases h
      exact id
  unfold stackItem
  infer_instance

instance (i : Nat) (item : StackItem) : Avoids (Signals codes) (setStackItem i item) := by
  unfold setStackItem
  infer_instance

instance (item : StackItem) : Avoids (Signals codes) (push item) := by
  unfold push
  infer_instance

instance : Avoids (Signals codes) dropTopItem := by
  have (stack : Stack) : Avoids (Signals codes) (lift (Stack.drop 0 stack) : M (StackItem × Stack)) := by
    refine avoids_lift fun failure h => ?_
    unfold Stack.drop at h
    split at h
    · split at h
      · cases h
        exact not_signals_of_ne nofun nofun
      · cases h
    · cases h
      exact not_signals_of_ne nofun nofun
  unfold dropTopItem takeStack
  infer_instance

instance (i : Nat) : Avoids (Signals codes) (var i) := by
  refine ⟨fun s err t h => ?_⟩
  unfold var at h
  rw [exec_bind_get] at h
  split at h
  · cases h
  · cases h
    exact id

instance {β : Type} (raw : InstructionExt → Option β) : Avoids (Signals codes) (param raw) := by
  refine ⟨fun s err t h => ?_⟩
  unfold param at h
  rw [exec_bind_get] at h
  split at h
  · cases h
  · cases h
    exact id

instance (depth : Nat) : Avoids (Signals codes) (fetchStack depth) := by
  have (stack : Stack) : Avoids (Signals codes)
      (lift (Stack.dropRange 0 depth stack) : M (Stack × Stack)) := by
    refine avoids_lift fun failure h => ?_
    unfold Stack.dropRange at h
    split at h
    · cases h
    · split at h
      · cases h
        exact not_signals_of_ne nofun nofun
      · cases h
  unfold fetchStack takeStack
  infer_instance

instance : Avoids (Signals codes) nextCmd := by
  refine ⟨fun s err t h => ?_⟩
  unfold nextCmd at h
  rw [exec_bind_get] at h
  split at h
  · cases h
  · cases h
    exact not_signals_of_ne nofun nofun

instance (parameter : InstructionParameter) : Avoids (Signals codes) (pushParam parameter) := by
  unfold pushParam
  infer_instance

instance (bits : Nat) : Avoids (Signals codes) (basicUseGas bits) := by
  unfold basicUseGas useGas
  infer_instance

instance : Avoids (Signals codes) (loadInstruction none) := by
  unfold loadInstruction extractInstruction
  infer_instance

/-- The constant of one byte. -/
instance : Avoids (Signals codes) (loadInstruction (some (.integer (-128) 128))) := by
  have : Avoids (Signals codes) (extractInteger (-128) 128) := by
    change Avoids (Signals codes) (do
      basicUseGas 8
      let byte ← nextCmd
      return if byte.toNat < 128 then (byte.toNat : Int) else (byte.toNat : Int) - 256)
    infer_instance
  unfold loadInstruction extractInstruction
  infer_instance

/-- The length of one byte. -/
instance : Avoids (Signals codes) (loadInstruction (some (.lengthMinusOne 0 256))) := by
  have : Avoids (Signals codes) (extractLengthMinusOne 0 256) := by
    change Avoids (Signals codes) (do return (← nextCmd).toNat + 1)
    infer_instance
  unfold loadInstruction extractInstruction
  infer_instance

instance : Avoids (Signals codes) (loadInstruction (some .divisionMode)) := by
  have (mode : DivMode) : Avoids (Signals codes) (lift mode.commandName) := by
    refine avoids_lift fun failure h => ?_
    have : failure = .code .invalidOpcode := by
      unfold DivMode.commandName DivMode.roundingStrategy at h
      split at h
      · cases h
        rfl
      · split at h
        · cases h
          rfl
        · split at h
          · cases h
          · split at h <;> cases h
    rw [this]
    exact not_signals_of_ne nofun nofun
  unfold loadInstruction extractInstruction
  infer_instance

end Avoids

/-! ### Operations -/

/-- The quiet operation returns NaN where the signaling one signals, and is the same elsewhere. -/
structure Quiets (codes : List ExceptionCode) (nan : α) (x y : Except Failure α) : Prop where
  succeeds : ∀ a, x = .ok a → y = .ok a
  signals : ∀ failure, x = .error failure → Signals codes failure.toError → y = .ok nan
  fails : ∀ failure, x = .error failure → ¬Signals codes failure.toError → y = .error failure

theorem recovers_lift {nan : α} {x y : Except Failure α} (h : Quiets codes nan x y) (s : Engine) :
    Recovers (Signals codes) (fun a t => a = nan ∧ t = s) (lift x) (lift y) s := by
  cases x with
  | ok a =>
    rw [h.succeeds a rfl, lift_ok]
    exact .same _ s
  | error failure =>
    rw [lift_error]
    refine ⟨?_, ?_, ?_⟩
    · intro a t hok
      rw [exec_throw] at hok
      cases hok
    · intro err t herr hsignals
      cases herr
      rw [h.signals failure rfl hsignals]
      exact ⟨nan, s, rfl, rfl, rfl⟩
    · intro err t herr hsignals
      cases herr
      rw [h.fails failure rfl hsignals]
      rfl

namespace Quiets

variable {β : Type} {nan : α} {nan' : β}

theorem same (a nan : α) : Quiets codes nan (.ok a) (.ok a) := ⟨fun _ h => h, nofun, nofun⟩

theorem signaled {code : ExceptionCode} (h : code ∈ codes) :
    Quiets codes nan (.error (.code code)) (.ok nan) := by
  refine ⟨nofun, fun _ _ _ => rfl, fun failure hfailure hnot => ?_⟩
  cases hfailure
  exact absurd (signals_code.2 h) hnot

theorem failed {failure : Failure} (h : ¬Signals codes failure.toError) :
    Quiets codes nan (.error failure) (.error failure) := by
  refine ⟨nofun, fun _ hfailure hsignals => ?_, fun _ hfailure _ => hfailure⟩
  cases hfailure
  exact absurd hsignals h

theorem bind {x y : Except Failure α} {f g : α → Except Failure β} (h : Quiets codes nan x y)
    (hok : ∀ a, x = .ok a → Quiets codes nan' (f a) (g a)) (hnan : g nan = .ok nan') :
    Quiets codes nan' (x >>= f) (y >>= g) := by
  cases x with
  | ok a =>
    rw [h.succeeds a rfl]
    exact hok a rfl
  | error failure =>
    by_cases hsignals : Signals codes failure.toError
    · rw [h.signals failure rfl hsignals]
      refine ⟨nofun, fun _ _ _ => hnan, fun failure' hfailure hnot => ?_⟩
      cases hfailure
      exact absurd hsignals hnot
    · rw [h.fails failure rfl hsignals]
      exact failed hsignals

/-- A shared part before the two operations. -/
theorem after {x : Except Failure α} {f g : α → Except Failure β}
    (h : ∀ failure, x = .error failure → ¬Signals codes failure.toError)
    (hok : ∀ a, x = .ok a → Quiets codes nan' (f a) (g a)) :
    Quiets codes nan' (x >>= f) (x >>= g) := by
  cases x with
  | ok a => exact hok a rfl
  | error failure => exact failed (h failure rfl)

end Quiets

end Engine

namespace IntegerData

open Engine

/-- The operations that signal an overflow only. -/
abbrev Overflows {α : Type} (nan : α) (x y : Except Failure α) : Prop :=
  Quiets [.integerOverflow] nan x y

theorem not_signals_rangeCheck : ¬Signals [.integerOverflow] (Failure.code .rangeCheckError).toError := by
  rw [signals_code]
  decide

theorem overflows_hook {α : Type} (nan : α) :
    Overflows nan (.error (.code .integerOverflow)) (.ok nan) := .signaled (by decide)

variable {ρ R : Type}

theorem overflows_processSingleResult (result : Int) :
    Overflows nan (processSingleResult .signaling result nan)
      (processSingleResult .quiet result nan) := by
  unfold processSingleResult
  cases ofInt result with
  | ok x => exact .same _ _
  | error failure => exact overflows_hook nan

/-- The remainder's check is passed on by both versions, so it must not fail. -/
theorem overflows_processDoubleResult {result : Int × Int} (h : InRange result.2) :
    Overflows constructDoubleNan (processDoubleResult .signaling result constructDoubleNan)
      (processDoubleResult .quiet result constructDoubleNan) := by
  have hremainder : ofInt result.2 = .ok (.value result.2) := if_pos ((checkOverflow_iff _).2 h)
  unfold processDoubleResult
  rw [hremainder]
  cases ofInt result.1 with
  | ok x => exact .same _ _
  | error failure => exact overflows_hook _

theorem overflows_unaryOp (x : IntegerData) (callback : Int → ρ) (nan : R)
    {signaling quiet : ρ → R → Except Failure R}
    (h : ∀ v, Overflows nan (signaling (callback v) nan) (quiet (callback v) nan)) :
    Overflows nan (unaryOp .signaling x callback nan signaling)
      (unaryOp .quiet x callback nan quiet) := by
  cases x with
  | nan => exact overflows_hook _
  | value v => exact h v

theorem overflows_binaryOp (x y : IntegerData) (callback : Int → Int → ρ) (nan : R)
    {signaling quiet : ρ → R → Except Failure R}
    (h : ∀ v w, Overflows nan (signaling (callback v w) nan) (quiet (callback v w) nan)) :
    Overflows nan (binaryOp .signaling x y callback nan signaling)
      (binaryOp .quiet x y callback nan quiet) := by
  cases x with
  | nan => exact overflows_hook _
  | value v =>
    cases y with
    | nan => exact overflows_hook _
    | value w => exact h v w

theorem overflows_unarySingle (f : Int → Int) (x : IntegerData) :
    Overflows nan (unarySingle .signaling f x) (unarySingle .quiet f x) :=
  overflows_unaryOp x f nan fun v => overflows_processSingleResult (f v)

theorem overflows_binarySingle (f : Int → Int → Int) (x y : IntegerData) :
    Overflows nan (binarySingle .signaling f x y) (binarySingle .quiet f x y) :=
  overflows_binaryOp x y f nan fun v w => overflows_processSingleResult (f v w)

theorem overflows_compare (x y : IntegerData) :
    Overflows none (compare .signaling x y) (compare .quiet x y) := by
  cases x with
  | nan => exact overflows_hook _
  | value v =>
    cases y with
    | nan => exact overflows_hook _
    | value w => exact .same _ _

theorem overflows_compareSign (x y : IntegerData) :
    Overflows nan (compareSign .signaling x y) (compareSign .quiet x y) := by
  refine (overflows_compare x y).bind (fun order _ => ?_) rfl
  rcases order with _ | _ | _ | _
  · exact overflows_hook _
  all_goals exact .same _ _

theorem overflows_compareRule (rule : ComparisonRule) (x y : IntegerData) :
    Overflows nan (compareRule .signaling rule x y) (compareRule .quiet rule x y) := by
  refine (overflows_compare x y).bind (fun order _ => ?_) rfl
  rcases order with _ | _ | _ | _
  · exact overflows_hook _
  all_goals exact .same _ _

theorem overflows_signOf (x : IntegerData) : Overflows nan (signOf .signaling x) (signOf .quiet x) := by
  cases x with
  | nan => exact overflows_hook _
  | value v => exact .same _ _

theorem overflows_bitsizeOf (x : IntegerData) :
    Overflows nan (bitsizeOf .signaling x) (bitsizeOf .quiet x) := by
  cases x with
  | nan => exact overflows_hook _
  | value v =>
    have hsize (T : OperationBehavior) :
        bitsizeOf T (value v) = .ok (if v = 0 then zero else .value (bitsize v)) := by
      by_cases hv : v = 0
      · rw [hv]
        rfl
      · rw [bitsizeOf, isZero_value hv, if_neg hv]
        rfl
    rw [hsize, hsize]
    exact .same _ _

theorem overflows_pow2 (x : IntegerData) : Overflows nan (pow2 .signaling x) (pow2 .quiet x) := by
  unfold pow2
  cases h : x.intoUsize 0 1023 with
  | ok shift => exact overflows_unarySingle _ _
  | error failure =>
    rw [intoUsize_eq_error h]
    exact .failed not_signals_rangeCheck

theorem overflows_shift (f : Nat → Int → Int) (x y : IntegerData) :
    Overflows nan (do unarySingle .signaling (f (← y.intoUsize 0 1023)) x)
      (do unarySingle .quiet (f (← y.intoUsize 0 1023)) x) := by
  refine .after (fun failure h => ?_) fun shift _ => overflows_unarySingle _ x
  rw [intoUsize_eq_error h]
  exact not_signals_rangeCheck

/-- The one operation that signals a range error. -/
theorem quiets_ubitsizeOf (x : IntegerData) :
    Quiets [.integerOverflow, .rangeCheckError] nan (ubitsizeOf .signaling x) (ubitsizeOf .quiet x) := by
  cases x with
  | nan => exact .signaled (by decide)
  | value v =>
    unfold ubitsizeOf
    split
    · exact .signaled (by decide)
    · exact .same _ _

end IntegerData

namespace Engine

open IntegerData (overflows_hook)

variable {codes : List ExceptionCode} {e : Engine}

/-! ### Operations in place -/

/-- The operands are gone, and every result is NaN. -/
def LeavesNan (e : Engine) (operands results : Nat) (t : Engine) : Prop :=
  ∃ rest args, e.cc.stack = rest ++ args ∧ args.length = operands ∧
    t.cc.stack = rest ++ List.replicate results (.integer .nan)

/-- The quiet version of an instruction does what the signaling one does, and where that stops with
one of the codes it ends with NaN for every result. -/
def Simulates (codes : List ExceptionCode) (operands results : Nat) (f : OperationBehavior → M Unit)
    (e : Engine) : Prop :=
  Recovers (Signals codes) (fun _ t => LeavesNan e operands results t) (f .signaling) (f .quiet) e

theorem exists_append_one {stack : Stack} (h : 1 ≤ stack.length) :
    ∃ rest a, stack = rest ++ [a] := by
  rcases List.eq_nil_or_concat stack with rfl | ⟨rest, a, rfl⟩
  · exact absurd h (by simp)
  · exact ⟨rest, a, List.concat_eq_append⟩

theorem exists_append_two {stack : Stack} (h : 2 ≤ stack.length) :
    ∃ rest a b, stack = rest ++ [a, b] := by
  obtain ⟨rest, b, rfl⟩ := exists_append_one (Nat.le_of_succ_le h)
  have hrest : 1 ≤ rest.length := by simpa using h
  obtain ⟨rest, a, rfl⟩ := exists_append_one hrest
  exact ⟨rest, a, b, List.append_assoc _ _ _⟩

/-- The engine with another stack. -/
def withStack (e : Engine) (stack : Stack) : Engine := { e with cc.stack := stack }

theorem exec_setStackItem {s : Engine} {rest items : Stack} {i : Nat} (item : StackItem)
    (hs : s.cc.stack = rest ++ items) (hi : i < items.length) :
    exec (setStackItem i item) s =
      (.ok (), s.withStack (rest ++ items.set (items.length - i - 1) item)) := by
  unfold setStackItem
  rw [exec_modify, hs, List.length_append]
  have hindex : rest.length + items.length - i - 1 = rest.length + (items.length - i - 1) := by omega
  rw [hindex, List.set_append_right _ _ (by omega), Nat.add_sub_cancel_left]
  rfl

theorem exec_dropTopItem {s : Engine} (rest : Stack) {a : StackItem}
    (hs : s.cc.stack = rest ++ [a]) : exec dropTopItem s = (.ok (), s.withStack rest) := by
  have hdrop : Stack.drop 0 (rest ++ [a]) = .ok (a, rest) := by
    unfold Stack.drop Stack.depth
    simp [List.eraseIdx_append_of_length_le]
  unfold dropTopItem takeStack
  rw [bind_assoc, exec_bind_get, hs, hdrop]
  rfl

/-- The result goes into the place of the lower operand, and the top is dropped. -/
theorem exec_replaceTwo {s : Engine} {rest : Stack} {a b : StackItem} (item : StackItem)
    (hs : s.cc.stack = rest ++ [a, b]) :
    exec (do
      setStackItem 1 item
      dropTopItem) s = (.ok (), (s.withStack (rest ++ [item, b])).withStack (rest ++ [item])) := by
  have hset : (s.withStack (rest ++ [item, b])).cc.stack = (rest ++ [item]) ++ [b] := by
    rw [List.append_assoc]
    rfl
  rw [exec_bind_ok (exec_setStackItem item hs (by simp))]
  exact exec_dropTopItem (rest ++ [item]) hset

variable [Arithmetical codes]

/-- The part of the binary operations that takes the operands, and leaves Null on top. -/
theorem recovers_binary {R : Engine → Prop} {f g : IntegerData → IntegerData → M Unit}
    (h : ∀ rest a b y x s, e.cc.stack = rest ++ [a, b] → s.cc.stack = rest ++ [a, .none] →
      Recovers (Signals codes) (fun _ => R) (f y x) (g y x) s) :
    Recovers (Signals codes) (fun _ => R) (takeOperands f) (takeOperands g) e := by
  refine .after fun _ t ht => ?_
  rw [exec_load] at ht
  cases ht
  refine .after fun _ t ht => ?_
  obtain ⟨hdepth, rfl⟩ := exec_checkDepth_eq_ok ht
  obtain ⟨rest, a, b, hstack⟩ := exists_append_two hdepth
  refine .reading fun v0 => .after fun _ t ht => ?_
  rw [exec_setStackItem .none hstack (by simp)] at ht
  cases ht
  exact .reading fun _ => .reading fun _ => .reading fun _ => h rest a b _ _ _ hstack rfl

theorem simulates_binary
    {h : OperationBehavior → IntegerData → IntegerData → Except Failure IntegerData}
    (hq : ∀ y x, Quiets codes .nan (h .signaling y x) (h .quiet y x)) :
    Simulates codes 2 1 (fun T => binary (h T)) e := by
  refine recovers_binary fun rest a b y x s hstack hs => ?_
  refine (recovers_lift (hq y x) s).before ?_
  rintro _ _ ⟨rfl, rfl⟩
  exact ⟨(), _, exec_replaceTwo _ hs, rest, [a, b], hstack, rfl, rfl⟩

/-- The sum is on the stack before it is checked. -/
theorem simulates_add : Simulates [.integerOverflow] 2 1 executeAdd e := by
  refine recovers_binary fun rest a b y x s hstack hs => ?_
  change Recovers _ _
    (do
      setStackItem 1 (.integer (x.addAssign .signaling y).2)
      lift (x.addAssign .signaling y).1
      dropTopItem)
    (do
      setStackItem 1 (.integer (x.addAssign .quiet y).2)
      lift (x.addAssign .quiet y).1
      dropTopItem) s
  rcases x.addAssign_quiet y with ⟨hok, heq⟩ | ⟨herr, hquiet⟩
  · rw [heq, hok, lift_ok]
    exact .same _ s
  · rw [herr, hquiet]
    have hset := exec_setStackItem (.integer (x.addAssign .signaling y).2) hs (i := 1) (by simp)
    refine .ofError (exec_bind_ok hset) (signals_code.2 (List.mem_singleton.2 rfl))
      (exec_replaceTwo (.integer .nan) hs) ⟨rest, [a, b], hstack, rfl, rfl⟩

theorem simulates_unary {h : OperationBehavior → IntegerData → Except Failure IntegerData}
    (hq : ∀ x, Quiets codes .nan (h .signaling x) (h .quiet x)) :
    Simulates codes 1 1 (fun T => unary (h T)) e := by
  unfold Simulates unary
  refine .after fun _ t ht => ?_
  rw [exec_load] at ht
  cases ht
  refine .after fun _ t ht => ?_
  obtain ⟨hdepth, rfl⟩ := exec_checkDepth_eq_ok ht
  obtain ⟨rest, a, hstack⟩ := exists_append_one hdepth
  refine .reading fun _ => .reading fun _ => (recovers_lift (hq _) _).before ?_
  rintro _ _ ⟨rfl, rfl⟩
  exact ⟨(), _, exec_setStackItem _ hstack (by simp), rest, [a], hstack, rfl, rfl⟩

/-! ### Operations with an operand in the code -/

abbrev LeavesStack {α : Type} (m : M α) : Prop := Leaves (fun e : Engine => e.cc.stack) m

instance : LeavesStack nextCmd := by
  refine ⟨fun e => ?_⟩
  unfold nextCmd
  rw [exec_bind_get]
  split <;> rfl

instance (bits : Nat) : LeavesStack (basicUseGas bits) := ⟨fun _ => rfl⟩

instance (parameter : InstructionParameter) : LeavesStack (pushParam parameter) := ⟨fun _ => rfl⟩

instance (opts : Option InstructionOptions) [LeavesStack (extractInstruction opts)] :
    LeavesStack (loadInstruction opts) := by
  have : LeavesStack (modify fun e : Engine => { e with cmd := {}, step := e.step + 1 }) :=
    ⟨fun _ => rfl⟩
  unfold loadInstruction
  infer_instance

instance : LeavesStack (extractInstruction none) := ⟨fun _ => rfl⟩

instance : LeavesStack (extractInstruction (some (.integer (-128) 128))) := by
  have : LeavesStack (extractInteger (-128) 128) := by
    change LeavesStack (do
      basicUseGas 8
      let byte ← nextCmd
      return if byte.toNat < 128 then (byte.toNat : Int) else (byte.toNat : Int) - 256)
    infer_instance
  unfold extractInstruction
  infer_instance

instance : LeavesStack (extractInstruction (some (.lengthMinusOne 0 256))) := by
  have : LeavesStack (extractLengthMinusOne 0 256) := by
    change LeavesStack (do return (← nextCmd).toNat + 1)
    infer_instance
  unfold extractInstruction
  infer_instance

theorem stack_of_load {opts : Option InstructionOptions} [h : LeavesStack (loadInstruction opts)]
    {t : Engine} (ht : exec (loadInstruction opts) e = (.ok (), t)) : t.cc.stack = e.cc.stack :=
  h.eq ht

theorem exec_param_eq_ok {β : Type} {raw : InstructionExt → Option β} {b : β} {s t : Engine}
    (h : exec (param raw) s = (.ok b, t)) : raw s.cmd = some b ∧ t = s := by
  unfold param at h
  rw [exec_bind_get] at h
  split at h
  · cases h
    exact ⟨‹_›, rfl⟩
  · cases h

theorem simulates_binaryWithConst {h : OperationBehavior → Int → IntegerData → Except Failure IntegerData}
    (hq : ∀ y x, Quiets codes .nan (h .signaling y x) (h .quiet y x)) :
    Simulates codes 1 1 (fun T => binaryWithConst (h T)) e := by
  unfold Simulates binaryWithConst
  refine .after fun _ t ht => ?_
  have hload := stack_of_load ht
  refine .after fun _ u hu => ?_
  obtain ⟨hdepth, rfl⟩ := exec_checkDepth_eq_ok hu
  obtain ⟨rest, a, hstack⟩ := exists_append_one hdepth
  refine .reading fun _ => .reading fun _ => .reading fun _ =>
    (recovers_lift (hq _ _) _).before ?_
  rintro _ _ ⟨rfl, rfl⟩
  exact ⟨(), _, exec_setStackItem _ hstack (by simp), rest, [a], hload.symm.trans hstack, rfl, rfl⟩

theorem simulates_unaryWithLen {h : OperationBehavior → IntegerData → Nat → Except Failure IntegerData}
    (hq : ∀ x length, Quiets codes .nan (h .signaling x length) (h .quiet x length)) :
    Simulates codes 1 1 (fun T => unaryWithLen (h T)) e := by
  unfold Simulates unaryWithLen
  refine .after fun _ t ht => ?_
  have hload := stack_of_load ht
  refine .after fun _ u hu => ?_
  obtain ⟨hdepth, rfl⟩ := exec_checkDepth_eq_ok hu
  obtain ⟨rest, a, hstack⟩ := exists_append_one hdepth
  refine .reading fun _ => .reading fun _ => .reading fun _ =>
    (recovers_lift (hq _ _) _).before ?_
  rintro _ _ ⟨rfl, rfl⟩
  exact ⟨(), _, exec_setStackItem _ hstack (by simp), rest, [a], hload.symm.trans hstack, rfl, rfl⟩

/-! ### Checks of a width -/

theorem recovers_fitsIn {length : Nat} {opFit : IntegerData → Nat → Except Failure Bool}
    (hfit : ∀ v, ∃ b, opFit (.value v) length = .ok b) (s : Engine) :
    Recovers (Signals [.integerOverflow]) (fun _ t => LeavesNan s 1 1 t)
      (fitsIn .signaling length opFit) (fitsIn .quiet length opFit) s := by
  unfold fitsIn
  refine .after fun _ t ht => ?_
  obtain ⟨hdepth, rfl⟩ := exec_checkDepth_eq_ok ht
  obtain ⟨rest, a, hstack⟩ := exists_append_one hdepth
  refine .reading fun _ => .reading fun x => ?_
  -- the hook stops the signaling version and nothing else
  have hhook (f : OperationBehavior → Except Failure Unit)
      (hf : f .signaling = .error (.code .integerOverflow) ∧ f .quiet = .ok ()) :
      Recovers (Signals [.integerOverflow]) (fun _ v => LeavesNan t 1 1 v)
        (do
          lift (f .signaling)
          setStackItem 0 .nan)
        (do
          lift (f .quiet)
          setStackItem 0 .nan) t := by
    rw [hf.1, hf.2]
    refine (recovers_lift (overflows_hook ()) t).before ?_
    rintro _ _ ⟨rfl, rfl⟩
    exact ⟨(), _, exec_setStackItem _ hstack (by simp), rest, [a], hstack, rfl, rfl⟩
  cases x with
  | nan => exact hhook OperationBehavior.onNanParameter ⟨rfl, rfl⟩
  | value v =>
    obtain ⟨b, hb⟩ := hfit v
    change Recovers _ _
      (do
        if !(← lift (opFit (.value v) length)) then
          lift OperationBehavior.signaling.onIntegerOverflow
          setStackItem 0 .nan)
      (do
        if !(← lift (opFit (.value v) length)) then
          lift OperationBehavior.quiet.onIntegerOverflow
          setStackItem 0 .nan) t
    rw [hb, lift_ok, pure_bind, pure_bind]
    cases b with
    | true =>
      rw [if_neg (by decide), if_neg (by decide)]
      exact .same _ t
    | false => exact hhook OperationBehavior.onIntegerOverflow ⟨rfl, rfl⟩

/-- The length comes with the instruction. -/
theorem simulates_fits {opFit : IntegerData → Nat → Except Failure Bool}
    (hfit : ∀ v length, ∃ b, opFit (.value v) length = .ok b) :
    Simulates [.integerOverflow] 1 1 (fun T => do
      loadInstruction (some (.lengthMinusOne 0 256))
      fitsIn T (← param lengthRaw) opFit) e := by
  refine .after fun _ t ht => ?_
  have hload := stack_of_load ht
  refine .reading fun length => (recovers_fitsIn (fun v => hfit v length) t).mono ?_
  rintro _ t ⟨rest, args, hstack, hargs, ht⟩
  exact ⟨rest, args, hload.symm.trans hstack, hargs, ht⟩

theorem exec_fetchStack_eq_ok {depth : Nat} {s t : Engine}
    (h : exec (fetchStack depth) s = (.ok (), t)) : ∃ rest args, s.cc.stack = rest ++ args ∧
      args.length = depth ∧
      t = s.holding { s.cc with stack := rest } s.ctrls (s.cmd.vars ++ args.reverse) := by
  have hdepth : depth ≤ s.cc.stack.length := by
    by_contra hlt
    unfold fetchStack at h
    rw [exec_bind_get, if_pos (by omega)] at h
    cases h
  have hsplit := List.take_append_drop (s.cc.stack.length - depth) s.cc.stack
  have hlength : (s.cc.stack.drop (s.cc.stack.length - depth)).length = depth := by
    rw [List.length_drop]
    omega
  refine ⟨_, _, hsplit.symm, hlength, ?_⟩
  have hfetch : exec (fetchStack _) (s.holding s.cc s.ctrls s.cmd.vars) = _ :=
    exec_fetchStack _ hsplit.symm
  rw [hlength, ← eq_holding, h] at hfetch
  exact congrArg Prod.snd hfetch

instance (x : IntegerData) (lo hi : Nat) :
    Avoids (Signals [.integerOverflow]) (lift (x.intoUsize lo hi)) := by
  refine avoids_lift fun failure h => ?_
  rw [IntegerData.intoUsize_eq_error h]
  exact IntegerData.not_signals_rangeCheck

/-- The part of an operation that takes its operands off the stack. -/
theorem recovers_fetched {depth : Nat} {R : Unit → Engine → Prop} {f g : M Unit}
    (h : ∀ rest args u, e.cc.stack = rest ++ args → args.length = depth → u.cc.stack = rest →
      Recovers (Signals codes) R f g u) :
    Recovers (Signals codes) R
      (do
        loadInstruction
        fetchStack depth
        f)
      (do
        loadInstruction
        fetchStack depth
        g) e := by
  refine .after fun _ t ht => .after fun _ u hu => ?_
  obtain ⟨rest, args, hargs, hlength, hfetch⟩ := exec_fetchStack_eq_ok hu
  exact h rest args u ((stack_of_load ht).symm.trans hargs) hlength (congrArg (·.cc.stack) hfetch)

/-- The length is on top of the stack. -/
theorem simulates_fitsx {opFit : IntegerData → Nat → Except Failure Bool}
    (hfit : ∀ v length, ∃ b, opFit (.value v) length = .ok b) :
    Simulates [.integerOverflow] 2 1 (fun T => do fitsIn T (← fetchLength) opFit) e := by
  unfold Simulates fetchLength
  simp only [bind_assoc]
  refine recovers_fetched fun below args u hargs hlength hu => ?_
  refine .reading fun _ => .reading fun _ => .reading fun length =>
    (recovers_fitsIn (fun v => hfit v length) u).mono ?_
  rintro _ w ⟨rest, top, hstack, htop, hw⟩
  refine ⟨rest, top ++ args, ?_, ?_, hw⟩
  · rw [hargs, ← hu, hstack, List.append_assoc]
  · rw [List.length_append, htop, hlength]

/-! ### Operations on fetched operands -/

theorem exec_push_withStack (item : StackItem) (s : Engine) :
    exec (push item) s = (.ok (), s.withStack (s.cc.stack ++ [item])) := rfl

theorem exec_pushMinmax_none (compareType : MinMax) (x y : StackItem) (s : Engine) :
    ∃ t, exec (pushMinmax .quiet compareType x y none) s = (.ok (), t) ∧ t.cc.stack =
      s.cc.stack ++ List.replicate (if compareType = .minmax then 2 else 1) (.integer .nan) := by
  cases compareType with
  | min => exact ⟨_, rfl, rfl⟩
  | max => exact ⟨_, rfl, rfl⟩
  | minmax => exact ⟨_, rfl, List.append_assoc _ _ _⟩

/-- Only an outcome without an order tells the versions apart. -/
theorem recovers_pushMinmax {R : Engine → Prop} (compareType : MinMax) (x y : StackItem)
    (order : Option Ordering) (s : Engine)
    (h : ∀ t, t.cc.stack = s.cc.stack ++
      List.replicate (if compareType = .minmax then 2 else 1) (.integer .nan) → R t) :
    Recovers (Signals [.integerOverflow]) (fun _ => R) (pushMinmax .signaling compareType x y order)
      (pushMinmax .quiet compareType x y order) s := by
  cases order with
  | none =>
    obtain ⟨t, hexec, ht⟩ := exec_pushMinmax_none compareType x y s
    exact .ofError rfl (signals_code.2 (List.mem_singleton.2 rfl)) hexec (h t ht)
  | some order =>
    have hpush (a b : StackItem) : Avoids (Signals [.integerOverflow]) (do
        push a
        if compareType = .minmax then
          push b) := inferInstance
    cases order with
    | lt => exact .same (do
        push (if compareType = .max then (y, x) else (x, y)).1
        if compareType = .minmax then
          push (if compareType = .max then (y, x) else (x, y)).2) s
    | eq => exact .same (do
        push (if compareType ≠ .max then (y, x) else (x, y)).1
        if compareType = .minmax then
          push (if compareType ≠ .max then (y, x) else (x, y)).2) s
    | gt => exact .same (do
        push (if compareType ≠ .max then (y, x) else (x, y)).1
        if compareType = .minmax then
          push (if compareType ≠ .max then (y, x) else (x, y)).2) s

theorem simulates_minmax (compareType : MinMax) : Simulates [.integerOverflow] 2
    (if compareType = .minmax then 2 else 1) (fun T => minmax T compareType) e := by
  unfold Simulates minmax
  refine recovers_fetched fun below args u hargs hlength hu => ?_
  refine .reading fun x => .reading fun y => ?_
  have hnan (t : Engine) (ht : t.cc.stack = u.cc.stack ++
      List.replicate (if compareType = .minmax then 2 else 1) (.integer .nan)) :
      LeavesNan e 2 (if compareType = .minmax then 2 else 1) t :=
    ⟨below, args, hargs, hlength, hu ▸ ht⟩
  have hcompare : IntegerData.Overflows none
      (do (← x.asInteger).compare .signaling (← y.asInteger))
      (do (← x.asInteger).compare .quiet (← y.asInteger)) :=
    .after (fun _ => not_signals_asInteger) fun a _ =>
      .after (fun _ => not_signals_asInteger) fun b _ => IntegerData.overflows_compare a b
  change Recovers _ _
    (lift (do (← x.asInteger).compare .signaling (← y.asInteger)) >>=
      pushMinmax .signaling compareType x y)
    (lift (do (← x.asInteger).compare .quiet (← y.asInteger)) >>=
      pushMinmax .quiet compareType x y) u
  refine (recovers_lift hcompare u).bind (fun order w hw => ?_) ?_
  · obtain ⟨-, rfl⟩ := exec_lift_eq_ok hw
    exact recovers_pushMinmax compareType x y order w hnan
  · rintro _ _ ⟨rfl, rfl⟩
    obtain ⟨t, hexec, ht⟩ := exec_pushMinmax_none compareType x y _
    exact ⟨(), t, hexec, hnan t ht⟩

theorem simulates_abs : Simulates [.integerOverflow] 1 1 executeAbs e := by
  unfold Simulates executeAbs
  refine recovers_fetched fun below args u hargs hlength hu => ?_
  refine .reading fun item => .after fun x v hv => ?_
  obtain ⟨hx, rfl⟩ := exec_lift_eq_ok hv
  have hnan : LeavesNan e 1 1 (v.withStack (v.cc.stack ++ [.integer .nan])) :=
    ⟨below, args, hargs, hlength, by rw [← hu]; rfl⟩
  cases x with
  | nan =>
    obtain rfl : item = .integer .nan := eq_integer_of_asInteger hx
    exact .ofError rfl (signals_code.2 (List.mem_singleton.2 rfl)) (exec_push_withStack _ v) hnan
  | value value =>
    change Recovers _ _
      (if (IntegerData.value value).isNeg then
        do push (.integer (← lift ((IntegerData.value value).neg .signaling))) else push item)
      (if (IntegerData.value value).isNeg then
        do push (.integer (← lift ((IntegerData.value value).neg .quiet))) else push item) v
    split
    · refine (recovers_lift (IntegerData.overflows_unarySingle _ _) v).before ?_
      rintro _ _ ⟨rfl, rfl⟩
      exact ⟨(), _, exec_push_withStack _ _, hnan⟩
    · exact .same _ v

/-- A shift takes its length from the stack or from the code. -/
theorem simulates_shift (f : Nat → Int → Int) (byte : UInt8) :
    Simulates [.integerOverflow] (if e.lastCmd = byte then 2 else 1) 1 (fun T => do
      if (← get).lastCmd = byte then
        binary fun y x => do IntegerData.unarySingle T (f (← y.intoUsize 0 1023)) x
      else
        unaryWithLen fun x y => IntegerData.unarySingle T (f y) x) e := by
  refine .after fun s t ht => ?_
  rw [exec_get] at ht
  cases ht
  by_cases hbyte : e.lastCmd = byte
  · rw [if_pos hbyte, if_pos hbyte, if_pos hbyte]
    exact simulates_binary
      (h := fun T y x => do IntegerData.unarySingle T (f (← y.intoUsize 0 1023)) x)
      fun y x => IntegerData.overflows_shift f x y
  · rw [if_neg hbyte, if_neg hbyte, if_neg hbyte]
    exact simulates_unaryWithLen (h := fun T x length => IntegerData.unarySingle T (f length) x)
      fun x length => IntegerData.overflows_unarySingle (f length) x

end Engine

end TonVm
