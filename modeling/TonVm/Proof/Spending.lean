import TonVm.Proof.Registers
import TonVm.Proof.GasLedger

/-!
# What a run spends

Gas changes through charges, which are not negative, and through new limits, which leave the gas used
as it is and never go above a ceiling. So the gas used does not decrease, and it is below the ceiling
whenever the check for remaining gas succeeds. An instruction that returns has been read, which costs
at least the basic price.
-/

namespace TonVm

open ExecLib

/-- No limit that can be set is above the ceiling. -/
def Gas.ceiling (gas : Gas) : Int := max gas.gasBase (max 0 gas.gasLimitMax)

variable [TonTypes]

/-- Where some gas remains, the gas used is below the ceiling. -/
theorem Gas.used_le_ceiling {gas : Gas} (h : gas.checkGasRemaining = .ok ()) :
    gas.getGasUsedFull ≤ gas.ceiling :=
  ((checkGasRemaining_iff gas).1 h).trans (le_max_left _ _)

/-! ### Policies that ask nothing of values -/

/-- A policy about the frame only. -/
structure Policy.Lax (p : Policy) : Prop where
  ranged : ¬p.ranged
  typed : ¬p.typed
  counted : ¬p.counted

section Lax

variable {p : Policy}

mutual

theorem GoodItem.of_lax (h : p.Lax) : ∀ item : StackItem, GoodItem p item
  | .integer .nan => trivial
  | .integer (.value _) => fun hranged => absurd hranged h.ranged
  | .tuple items => GoodItems.of_lax h items
  | .continuation cont => GoodContinuation.of_lax h cont
  | .none | .builder _ | .cell _ | .slice _ => trivial

theorem GoodItems.of_lax (h : p.Lax) : ∀ items : List StackItem, GoodItems p items
  | [] => trivial
  | item :: items => ⟨GoodItem.of_lax h item, GoodItems.of_lax h items⟩

theorem GoodContinuation.of_lax (h : p.Lax) :
    ∀ cont : ContinuationOf StackItem, GoodContinuation p cont
  | ⟨_, _, savelist, stack, _⟩ =>
    ⟨fun hcounted => absurd hcounted h.counted, GoodSaveList.of_lax h savelist,
      GoodItems.of_lax h stack⟩

theorem GoodSaveList.of_lax (h : p.Lax) : ∀ list : SaveListOf StackItem, GoodSaveList p list
  | ⟨c0, c1, c2, c3, c4, c5, c7⟩ =>
    ⟨GoodEntry.of_lax h 0 c0, GoodEntry.of_lax h 1 c1, GoodEntry.of_lax h 2 c2,
      GoodEntry.of_lax h 3 c3, GoodEntry.of_lax h 4 c4, GoodEntry.of_lax h 5 c5,
      GoodEntry.of_lax h 7 c7⟩

theorem GoodEntry.of_lax (h : p.Lax) (index : Nat) :
    ∀ entry : Option StackItem, GoodEntry p index entry
  | none => trivial
  | some item => ⟨GoodItem.of_lax h item, fun htyped => absurd htyped h.typed⟩

end

/-- An engine is good when its frame is. -/
theorem good_engine_of_lax (h : p.Lax) {e : Engine} (hframe : p.frame e.cstate e.cc.nargs e.gas) :
    good p e where
  cc := GoodContinuation.of_lax h e.cc
  ctrls := GoodSaveList.of_lax h e.ctrls
  roots := fun htyped => absurd htyped h.typed
  vars := GoodItems.of_lax h e.cmd.vars
  params := fun parameter _ => by
    cases parameter with
    | nargs n => exact fun hcounted => absurd hcounted h.counted
    | _ => trivial
  frame := hframe

end Lax

/-! ### The gas used -/

/-- An amount of gas has been used, and the ceiling is known. -/
def Policy.spent (used ceiling : Int) : Policy where
  ranged := False
  typed := False
  counted := False
  frame _ _ gas := used ≤ gas.getGasUsedFull ∧ gas.ceiling ≤ ceiling
  frame_useGas amount hamount h := by
    refine ⟨?_, h.2⟩
    rw [Gas.getGasUsedFull_useGas]
    omega
  frame_newGasLimit limit h := by
    refine ⟨by rw [Gas.getGasUsedFull_newGasLimit]; exact h.1, ?_⟩
    have := h.2
    unfold Gas.ceiling Gas.newGasLimit at *
    dsimp only
    omega

/-- A bind, where the result of the first part does not matter. -/
theorem Keeps.andThen {α β : Type} [Sane α] [Sane β] {p : Policy} {m : M α} [hm : Keeps p m]
    {f : α → M β} (hf : ∀ a, Keeps p (f a)) : Keeps p (m >>= f) :=
  ⟨.bind hm.out fun a _ => (hf a).out⟩

namespace Engine

section Spent

variable (used ceiling : Int)

theorem lax_spent : (Policy.spent used ceiling).Lax := ⟨id, id, id⟩

instance : Settles (.spent used ceiling) := ⟨fun _ _ h => h⟩

instance (x : IntegerData) : Good (.spent used ceiling) x := by
  cases x with
  | nan => exact ⟨trivial⟩
  | value v => exact ⟨fun h => absurd h id⟩

instance (item : StackItem) : Good (.spent used ceiling) item :=
  ⟨GoodItem.of_lax (lax_spent _ _) item⟩

instance (cont : ContinuationData) : Good (.spent used ceiling) cont :=
  ⟨GoodContinuation.of_lax (lax_spent _ _) cont⟩

instance (error : Error) : Good (.spent used ceiling) error := by
  cases error with
  | exception exception => exact ⟨fun _ => GoodItem.of_lax (lax_spent _ _) exception.value⟩
  | _ => exact ⟨trivial⟩

instance {α : Type} [Sane α] [h : ∀ a : α, Good (.spent used ceiling) a] (x : Except Failure α) :
    Good (.spent used ceiling) x :=
  ⟨fun a _ => (h a).out⟩

instance {α : Type} [Sane α] [h : ∀ a : α, Good (.spent used ceiling) a] (l : List α) :
    Good (.spent used ceiling) l :=
  ⟨fun a _ => (h a).out⟩

instance : Keeps (.spent used ceiling) (IntegerData.fromBigEndianOctetStream nextCmd) :=
  ⟨(maintains_fromBigEndianOctetStream (.mono Keeps.out fun _ _ => trivial)).mono
    fun _ _ => Good.out⟩

instance {α : Type} [Sane α] [h : ∀ a : α, Good (.spent used ceiling) a]
    (raw : InstructionExt → Option α) : Keeps (.spent used ceiling) (param raw) := by
  unfold param
  refine ⟨.bind .get fun e _ => ?_⟩
  split
  · rename_i a _
    exact .pure (h a).out
  · exact .throw trivial

instance : Keeps (.spent used ceiling) commit := ⟨.modify fun _ he => { he with }⟩

instance : Keeps (.spent used ceiling) executeCommit := by
  unfold executeCommit
  infer_instance

instance : Keeps (.spent used ceiling) executePushintBig := keeps_executePushintBig_of_not_ranged id

instance : Keeps (.spent used ceiling) (executeAdd .signaling) := keeps_executeAdd_of_not_ranged id

end Spent

/-- The second state comes after the first, with an amount of gas spent in between. -/
structure Spends (amount : Int) (e t : Engine) : Prop where
  used : e.gas.getGasUsedFull + amount ≤ t.gas.getGasUsedFull
  ceiling : t.gas.ceiling ≤ e.gas.ceiling

namespace Spends

variable {α : Type} {e s t : Engine} {a b : Int}

theorem trans (h : Spends a e s) (h' : Spends b s t) : Spends (a + b) e t where
  used := by
    have := h.used
    have := h'.used
    omega
  ceiling := h'.ceiling.trans h.ceiling

theorem mono (h : Spends a e t) (hba : b ≤ a) : Spends b e t where
  used := le_trans (by omega) h.used
  ceiling := h.ceiling

/-- What keeps the engine good under every policy about the gas used spends no negative amount. -/
theorem of_keeps [Sane α] {m : M α} (h : ∀ used ceiling, Keeps (.spent used ceiling) m)
    {r : Except Error α} (hexec : exec m e = (r, t)) : Spends 0 e t := by
  have hgood : good (.spent e.gas.getGasUsedFull e.gas.ceiling) e :=
    good_engine_of_lax (lax_spent _ _) ⟨le_rfl, le_rfl⟩
  obtain ⟨hused, hceiling⟩ := ((h _ _).out.state hgood hexec).frame
  exact ⟨by rwa [add_zero], hceiling⟩

end Spends

/-! ### The price of an instruction -/

/-- A program that has charged at least the basic price when it returns. -/
class Pays {α : Type} (m : M α) : Prop where
  out : ∀ {e t : Engine} {a : α}, exec m e = (.ok a, t) → Spends 10 e t

section Combinators

variable {α β γ δ : Type} [Sane α] [Sane β] [Sane γ] [Sane δ]

omit [Sane α] in
/-- The first part pays. -/
theorem Pays.bind {m : M α} {f : α → M β} (hm : Pays m)
    (hf : ∀ a used ceiling, Keeps (.spent used ceiling) (f a)) : Pays (m >>= f) where
  out h := by
    obtain ⟨a, s, hfirst, hrest⟩ := exec_bind_eq_ok h
    exact (hm.out hfirst).trans (.of_keeps (hf a) hrest)

instance (m : M α) (f : α → M β) [hm : Pays m]
    [hf : ∀ a used ceiling, Keeps (.spent used ceiling) (f a)] : Pays (m >>= f) :=
  hm.bind hf

instance (priority := high) (m : M (α × β × γ)) (f : α × β × γ → M δ) [hm : Pays m]
    [hf : ∀ a b c used ceiling, Keeps (.spent used ceiling) (f (a, b, c))] : Pays (m >>= f) :=
  hm.bind fun abc => hf abc.1 abc.2.1 abc.2.2

/-- The rest pays. -/
instance (priority := low) (m : M α) (f : α → M β)
    [hk : ∀ used ceiling, Keeps (.spent used ceiling) m] [hf : ∀ a, Pays (f a)] :
    Pays (m >>= f) where
  out {e t b} h := by
    obtain ⟨a, s, hfirst, hrest⟩ := exec_bind_eq_ok h
    have hpaid := (Spends.of_keeps hk hfirst).trans ((hf a).out hrest)
    rwa [zero_add] at hpaid

omit [Sane α] in
instance (m n : M α) (c : Prop) [Decidable c] [hm : Pays m] [hn : Pays n] :
    Pays (if c then m else n) := by
  split
  · exact hm
  · exact hn

omit [Sane α] in
instance (code : ExceptionCode) : Pays (err code : M α) := ⟨fun h => by cases h⟩

omit [Sane α] in
instance : Pays (fail : M α) := ⟨fun h => by cases h⟩

end Combinators

/-! ### Reading an instruction -/

instance (n : Nat) : Pays (useGas (Gas.basicGasPrice n)) where
  out {e t a} h := by
    cases h
    refine ⟨?_, le_rfl⟩
    rw [Gas.getGasUsedFull_useGas, Gas.basicGasPrice]
    omega

instance (bits : Nat) : Pays (basicUseGas bits) := by
  unfold basicUseGas
  infer_instance

section LongBodies

set_option synthInstance.maxSize 1000000

instance (start stop : Int) : Pays (extractInteger start stop) := by
  unfold extractInteger
  infer_instance

instance (opts : Option InstructionOptions) : Pays (extractInstruction opts) := by
  unfold extractInstruction
  split <;> infer_instance

end LongBodies

instance (opts : Option InstructionOptions) : Pays (loadInstruction opts) := by
  unfold loadInstruction
  infer_instance

end Engine

end TonVm
