import TonVm.Proof.GoodValues
import TonVm.Executor.Decode

/-!
# Programs that keep the engine good

`Keeps p m` says that the program `m` takes a good engine to a good engine, returns good values and
fails with good errors. The instances follow the ways to build a program, so for most functions of
the machine instance resolution finds the proof once they are unfolded.
-/

namespace TonVm

open ExecLib

variable [TonTypes] {α β γ : Type} {p : Policy}

class Keeps (p : Policy) {α : Type} [Sane α] (m : M α) : Prop where
  out : Maintains (good p) (good p) m (good p)

/-! ### Combinators -/

section Combinators

variable [Sane α] [Sane β] [Sane γ]

instance (a : α) [h : Good p a] : Keeps p (pure a : M α) := ⟨.pure h.out⟩

instance (err : Error) [h : Good p err] : Keeps p (throw err : M α) := ⟨.throw h.out⟩

instance (m : M α) (f : α → M β) [hm : Keeps p m]
    [hf : ∀ a : { a : α // good p a }, Keeps p (f a.1)] : Keeps p (m >>= f) :=
  ⟨.bind hm.out fun a ha => (hf ⟨a, ha⟩).out⟩

/-- The result of the first program is not used. -/
instance (priority := high) (m : M α) (n : M β) [hm : Keeps p m] [hn : Keeps p n] :
    Keeps p (m >>= fun _ => n) :=
  ⟨.bind hm.out fun _ _ => hn.out⟩

instance (priority := high) (m : M (α × β)) (f : α × β → M γ) [hm : Keeps p m]
    [hf : ∀ (a : { a : α // good p a }) (b : { b : β // good p b }), Keeps p (f (a.1, b.1))] :
    Keeps p (m >>= f) :=
  ⟨.bind hm.out fun ab h => (hf ⟨ab.1, h.1⟩ ⟨ab.2, h.2⟩).out⟩

instance (priority := high) {δ : Type} [Sane δ] (m : M (α × β × γ)) (f : α × β × γ → M δ)
    [hm : Keeps p m]
    [hf : ∀ (a : { a : α // good p a }) (b : { b : β // good p b }) (c : { c : γ // good p c }),
      Keeps p (f (a.1, b.1, c.1))] :
    Keeps p (m >>= f) :=
  ⟨.bind hm.out fun abc h => (hf ⟨abc.1, h.1⟩ ⟨abc.2.1, h.2.1⟩ ⟨abc.2.2, h.2.2⟩).out⟩

instance (priority := high) (m : M (Option α)) (f : Option α → M β) [hm : Keeps p m]
    [hn : Keeps p (f none)] [hs : ∀ a : { a : α // good p a }, Keeps p (f (some a.1))] :
    Keeps p (m >>= f) := by
  refine ⟨.bind hm.out fun o ho => ?_⟩
  cases o with
  | none => exact hn.out
  | some a => exact (hs ⟨a, ho a rfl⟩).out

instance (priority := high) (m : M (Option α × β)) (f : Option α × β → M γ) [hm : Keeps p m]
    [hn : ∀ b : { b : β // good p b }, Keeps p (f (none, b.1))]
    [hs : ∀ (a : { a : α // good p a }) (b : { b : β // good p b }), Keeps p (f (some a.1, b.1))] :
    Keeps p (m >>= f) := by
  refine ⟨.bind hm.out fun ob h => ?_⟩
  obtain ⟨o, b⟩ := ob
  cases o with
  | none => exact (hn ⟨b, h.2⟩).out
  | some a => exact (hs ⟨a, h.1 a rfl⟩ ⟨b, h.2⟩).out

instance (priority := high) (m : M (Except Error α)) (f : Except Error α → M β) [hm : Keeps p m]
    [ho : ∀ a : { a : α // good p a }, Keeps p (f (.ok a.1))]
    [he : ∀ err : { err : Error // good p err }, Keeps p (f (.error err.1))] :
    Keeps p (m >>= f) := by
  refine ⟨.bind hm.out fun r hr => ?_⟩
  cases r with
  | ok a => exact (ho ⟨a, hr⟩).out
  | error err => exact (he ⟨err, hr⟩).out

instance (m n : M α) (c : Prop) [Decidable c] [hm : Keeps p m] [hn : Keeps p n] :
    Keeps p (if c then m else n) :=
  ⟨.ite (fun _ => hm.out) fun _ => hn.out⟩

instance : Keeps p (get : M Engine) := ⟨.get⟩

instance (g : Engine → Engine) [hg : ∀ e : { e : Engine // good p e }, Good p (g e.1)] :
    Keeps p (modify g : M Unit) :=
  ⟨(Maintains.modify fun e he => (hg ⟨e, he⟩).out).mono fun _ h => h⟩

end Combinators

/-! ### Errors -/

instance (code : ExceptionCode) : Good p (Error.exception (.fromCode code)) :=
  ⟨fun _ => Good.out (p := p) (a := StackItem.int 0)⟩

instance : Good p Error.other := ⟨trivial⟩

instance : Good p Error.panic := ⟨trivial⟩

instance (failure : Failure) : Good p failure.toError := by
  unfold Failure.toError
  split <;> infer_instance

/-! ### Parts of an engine -/

/-- Registers with c4 and c5 in place. -/
class GoodCtrls (p : Policy) (ctrls : SaveList) : Prop where
  list : good p ctrls
  roots : p.typed → ctrls.c4.isSome ∧ ctrls.c5.isSome

class GoodFrame (p : Policy) (cstate : CommittedState) (nargs : Int) (gas : Gas) : Prop where
  out : p.frame cstate nargs gas

section Parts

variable (e : Engine) [h : Good p e]

instance : Good p e.cc := ⟨h.out.cc⟩

instance : Good p e.ctrls := ⟨h.out.ctrls⟩

instance : GoodCtrls p e.ctrls := ⟨h.out.ctrls, h.out.roots⟩

instance : Good p e.cmd.vars := ⟨(goodItems_iff _).1 h.out.vars⟩

instance : Good p e.cmd.params := ⟨h.out.params⟩

instance : GoodFrame p e.cstate e.cc.nargs e.gas := ⟨h.out.frame⟩

end Parts

instance (cc : ContinuationData) (cmd : InstructionExt) (ctrls : SaveList)
    (libraries : List HashmapE) (indexProvider : Option IndexProvider)
    (visitedCells : List UInt256) (visitedExoticCells : List (UInt256 × SliceData))
    (cstate : CommittedState) (gas : Gas) (codePage debugOn : Int) (step : Nat)
    (cmdCode : SliceProto) (lastCmd : UInt8) (copylefted : Bool)
    (capabilities : List GlobalCapability) (blockVersion : Nat)
    [hcc : Good p cc] [hctrls : GoodCtrls p ctrls] [hvars : Good p cmd.vars]
    [hparams : Good p cmd.params] [hframe : GoodFrame p cstate cc.nargs gas] :
    Good p (Engine.mk cc cmd ctrls libraries indexProvider visitedCells visitedExoticCells cstate
      gas codePage debugOn step cmdCode lastCmd copylefted capabilities blockVersion) :=
  ⟨⟨hcc.out, hctrls.list, hctrls.roots, (goodItems_iff _).2 hvars.out, hparams.out, hframe.out⟩⟩

/-! ### Primitives of the engine -/

namespace Engine

section Errors

variable [Sane α]

instance (x : Except Failure α) [h : Good p x] : Keeps p (lift x) := by
  cases x with
  | ok a => exact ⟨.pure (h.out a rfl)⟩
  | error err => exact ⟨.throw (Good.out (p := p))⟩

instance (code : ExceptionCode) : Keeps p (err code : M α) := by
  unfold err
  infer_instance

instance : Keeps p (fail : M α) := by
  unfold fail
  infer_instance

theorem keeps_attempt {m : M α} (h : Keeps p m) : Keeps p (attempt m) := ⟨.attempt h.out⟩

instance (m : M α) [h : Keeps p m] : Keeps p (catchError m) := by
  unfold catchError
  refine ⟨.bind (keeps_attempt h).out fun r hr => ?_⟩
  split
  · exact .throw trivial
  · exact .pure hr

end Errors

instance (capability : GlobalCapability) : Keeps p (checkCapability capability) := by
  unfold checkCapability
  infer_instance

/-- A charge that is not negative. -/
class NonnegCharge (amount : Int) : Prop where
  out : 0 ≤ amount

instance (n : Nat) : NonnegCharge (Gas.basicGasPrice n) := ⟨by unfold Gas.basicGasPrice; omega⟩

instance : NonnegCharge Gas.finalizePrice := ⟨by decide⟩

instance : NonnegCharge Gas.exceptionPrice := ⟨by decide⟩

instance : NonnegCharge Gas.implicitJmpPrice := ⟨by decide⟩

instance : NonnegCharge Gas.implicitRetPrice := ⟨by decide⟩

instance (first : Bool) : NonnegCharge (Gas.loadCellPrice first) := ⟨by cases first <;> decide⟩

instance (n : Nat) : NonnegCharge (Gas.stackPrice n) := ⟨by unfold Gas.stackPrice; omega⟩

instance (n : Nat) : NonnegCharge (Gas.tupleGasPrice n) := ⟨by unfold Gas.tupleGasPrice; omega⟩

instance (cstate : CommittedState) (nargs : Int) (gas : Gas) (amount : Int)
    [h : GoodFrame p cstate nargs gas] [ha : NonnegCharge amount] :
    GoodFrame p cstate nargs (gas.useGas amount) :=
  ⟨p.frame_useGas amount ha.out h.out⟩

instance (cstate : CommittedState) (nargs : Int) (gas : Gas) (limit : Int)
    [h : GoodFrame p cstate nargs gas] : GoodFrame p cstate nargs (gas.newGasLimit limit) :=
  ⟨p.frame_newGasLimit limit h.out⟩

instance (amount : Int) [NonnegCharge amount] : Keeps p (useGas amount) := by
  unfold useGas
  infer_instance

instance (gas : Gas) : Good p gas.checkGasRemaining := by
  unfold Gas.checkGasRemaining
  split
  · exact ⟨trivial⟩
  · exact ⟨fun h => absurd rfl h⟩

/-- A check of the gas that is matched on. -/
theorem keeps_match_gas [Sane α] (gas : Gas) {f : Unit → M α} {g : Error → M α}
    (hf : Keeps p (f ())) (hg : ∀ err, good p err → Keeps p (g err)) :
    Keeps p (match gas.checkGasRemaining with
      | .ok () => f ()
      | .error err => g err) := by
  split
  · exact hf
  · rename_i err h
    have : good p gas.checkGasRemaining := Good.out
    rw [h] at this
    exact hg err this

instance : Keeps p checkGasRemaining := by
  unfold checkGasRemaining
  refine ⟨.bind .get fun e _ => (keeps_match_gas e.gas inferInstance fun err h => ?_).out⟩
  exact ⟨.throw h⟩

instance (amount : Int) [NonnegCharge amount] : Keeps p (tryUseGas amount) := by
  unfold tryUseGas
  infer_instance

instance (limit : Int) : Keeps p (newGasLimit limit) := by
  unfold newGasLimit
  infer_instance

/-! ### Operands -/

section Parameters

instance (nargs : Int) [h : HasArity p nargs] : Good p (InstructionParameter.nargs nargs) := ⟨h.out⟩

instance (x : IntegerData) : Good p (InstructionParameter.bigInteger x) := ⟨trivial⟩

instance (index : Nat) : Good p (InstructionParameter.controlRegister index) := ⟨trivial⟩

instance (mode : DivMode) : Good p (InstructionParameter.divisionMode mode) := ⟨trivial⟩

instance (x : Int) : Good p (InstructionParameter.integer x) := ⟨trivial⟩

instance (n : Nat) : Good p (InstructionParameter.length n) := ⟨trivial⟩

instance (x : LengthAndIndex) : Good p (InstructionParameter.lengthAndIndex x) := ⟨trivial⟩

instance (n : Nat) : Good p (InstructionParameter.pargs n) := ⟨trivial⟩

instance (n : Nat) : Good p (InstructionParameter.rargs n) := ⟨trivial⟩

instance (slice : SliceData) : Good p (InstructionParameter.slice slice) := ⟨trivial⟩

instance (index : Nat) : Good p (InstructionParameter.stackRegister index) := ⟨trivial⟩

instance (x : RegisterPair) : Good p (InstructionParameter.stackRegisterPair x) := ⟨trivial⟩

instance (x : RegisterTrio) : Good p (InstructionParameter.stackRegisterTrio x) := ⟨trivial⟩

theorem goodArity_nargsRaw {e : Engine} (he : good p e) {nargs : Int}
    (h : nargsRaw e.cmd = some nargs) : GoodArity p nargs := by
  obtain ⟨parameter, hmem, hparameter⟩ := List.exists_of_findSome?_eq_some h
  have hgood := he.params parameter hmem
  cases parameter with
  | nargs n =>
    obtain rfl : n = nargs := Option.some.inj hparameter
    exact hgood
  | _ => cases hparameter

instance (e : Engine) (nargs : Int) [he : Good p e] [h : HasArity p nargs] :
    HasArity p ((nargsRaw e.cmd).getD nargs) := by
  cases hraw : nargsRaw e.cmd with
  | none => exact h
  | some n => exact ⟨goodArity_nargsRaw he.out hraw⟩

end Parameters

/-! ### Variables and the stack -/

instance [Sane α] [Plain α] (raw : InstructionExt → Option α) : Keeps p (param raw) := by
  unfold param
  refine ⟨.bind .get fun e _ => ?_⟩
  split
  · exact .pure (Plain.out p _)
  · exact .throw trivial

instance (parameter : InstructionParameter) [Good p parameter] : Keeps p (pushParam parameter) := by
  unfold pushParam
  infer_instance

instance (index : Nat) : Keeps p (var index) := by
  unfold var
  refine ⟨.bind .get fun e he => ?_⟩
  split
  · rename_i item hitem
    exact .pure ((goodItems_iff _).1 he.vars item (List.mem_of_getElem? hitem))
  · exact .throw trivial

instance (index : Nat) (item : StackItem) [Good p item] : Keeps p (setVar index item) := by
  unfold setVar
  infer_instance

instance (item : StackItem) [Good p item] : Keeps p (pushVar item) := by
  unfold pushVar
  infer_instance

instance : Keeps p lastVar := by
  unfold lastVar
  refine ⟨.bind .get fun e he => ?_⟩
  split
  · rename_i item hitem
    exact .pure ((goodItems_iff _).1 he.vars item (List.mem_of_getLast? hitem))
  · exact Keeps.out

instance : Keeps p popVar := by
  unfold popVar
  infer_instance

instance (index : Nat) : Keeps p (removeVar index) := by
  unfold removeVar
  infer_instance

instance (item : StackItem) [Good p item] : Keeps p (push item) := by
  unfold push
  infer_instance

instance (value : Int) : Keeps p (pushInt value) := by
  unfold pushInt
  infer_instance

instance (items : List StackItem) [Good p items] : Keeps p (pushAll items) := by
  unfold pushAll
  infer_instance

instance (op : Stack → Except Failure Stack)
    [∀ stack : { stack : Stack // good p stack }, Good p (op stack.1)] : Keeps p (onStack op) := by
  unfold onStack
  refine ⟨.bind .get fun e he => ?_⟩
  have : Good p (op e.cc.stack) :=
    inferInstanceAs (Good p (op (⟨e.cc.stack, ((good_cont_iff _).1 he.cc).2.2⟩ : {s // good p s}).1))
  exact Keeps.out

instance [Sane α] (op : Stack → Except Failure (α × Stack))
    [∀ stack : { stack : Stack // good p stack }, Good p (op stack.1)] :
    Keeps p (takeStack op) := by
  unfold takeStack
  refine ⟨.bind .get fun e he => ?_⟩
  have : Good p (op e.cc.stack) :=
    inferInstanceAs (Good p (op (⟨e.cc.stack, ((good_cont_iff _).1 he.cc).2.2⟩ : {s // good p s}).1))
  exact Keeps.out

/-! ### Registers -/

/-- A value of the type of a register. -/
class FitsRegister (index : Nat) (item : StackItem) : Prop where
  out : SaveList.canPut index item = true

instance (cont : ContinuationData) : FitsRegister 0 (.continuation cont) := ⟨rfl⟩

instance (cont : ContinuationData) : FitsRegister 2 (.continuation cont) := ⟨rfl⟩

instance (items : List StackItem) : FitsRegister 7 (.tuple items) := ⟨rfl⟩

theorem roots_putOpt {list : SaveList} (index : Nat) (item : StackItem)
    (h : list.c4.isSome ∧ list.c5.isSome) :
    (list.putOpt index item).c4.isSome ∧ (list.putOpt index item).c5.isSome := by
  match index with
  | 0 | 1 | 2 | 3 | 6 | 7 => exact h
  | 4 => exact ⟨rfl, h.2⟩
  | 5 => exact ⟨h.1, rfl⟩
  | n + 8 => exact h

theorem goodCtrls_putOpt {ctrls : SaveList} (h : GoodCtrls p ctrls) {index : Nat}
    {item : StackItem} (hitem : good p item)
    (htyped : p.typed → SaveList.canPut index item = true) :
    GoodCtrls p (ctrls.putOpt index item) :=
  ⟨good_putOpt h.list hitem htyped, fun ht => roots_putOpt index item (h.roots ht)⟩

instance (ctrls : SaveList) (index : Nat) (item : StackItem) [h : GoodCtrls p ctrls]
    [hitem : Good p item] [hfits : FitsRegister index item] :
    GoodCtrls p (ctrls.putOpt index item) :=
  goodCtrls_putOpt h hitem.out fun _ => hfits.out

instance (list : SaveList) (index : Nat) (item : StackItem) [h : Good p list]
    [hitem : Good p item] [hfits : FitsRegister index item] : Good p (list.putOpt index item) :=
  ⟨good_putOpt h.out hitem.out fun _ => hfits.out⟩

instance (ctrls savelist : SaveList) [h : GoodCtrls p ctrls] [h' : Good p savelist] :
    GoodCtrls p (ctrls.apply savelist) := by
  refine ⟨good_apply h.list h'.out, fun ht => ?_⟩
  have := h.roots ht
  simp only [SaveListOf.apply, Option.isSome_or, this, Bool.or_true, and_self]

instance (ctrls : SaveList) [h : GoodCtrls p ctrls] : GoodCtrls p (ctrls.remove 0) :=
  ⟨good_remove h.list 0, h.roots⟩

instance (ctrls : SaveList) [h : GoodCtrls p ctrls] : GoodCtrls p (ctrls.remove 2) :=
  ⟨good_remove h.list 2, h.roots⟩

instance (index : Nat) : Keeps p (ctrl index) := by
  unfold ctrl
  refine ⟨.bind .get fun e he => ?_⟩
  split
  · rename_i item hitem
    exact .pure (good_get (he.ctrls : good p e.ctrls) hitem)
  · exact Keeps.out

instance (index : Nat) (item : StackItem) [Good p item] [FitsRegister index item] :
    Keeps p (setCtrl index item) := by
  unfold setCtrl
  infer_instance

instance (index : Nat) (item : StackItem) [hitem : Good p item] : Keeps p (putCtrl index item) := by
  unfold putCtrl
  refine ⟨.bind .get fun e he => ?_⟩
  have hctrls : GoodCtrls p e.ctrls := ⟨he.ctrls, he.roots⟩
  unfold SaveList.put
  split
  · rename_i hcan
    have : GoodCtrls p (e.ctrls.putOpt index item) :=
      goodCtrls_putOpt hctrls hitem.out fun _ => hcan
    exact .bind (.pure this) fun _ h => (Maintains.modify fun e' he' =>
      ({ he' with ctrls := h.list, roots := h.roots } : GoodEngine p _)).mono fun _ h => h
  · exact .bind (R := fun _ => False) (.throw Good.out) fun _ h => h.elim

end Engine

end TonVm

namespace ExecLib

open TonVm

/-- What follows a program that keeps the engine good has its result good. -/
theorem Maintains.after [TonTypes] {α β : Type} [Sane α] {p : Policy} {m : M α} [Keeps p m]
    {f : α → M β} {R : β → Prop} (h : ∀ a, good p a → Maintains (good p) (good p) (f a) R) :
    Maintains (good p) (good p) (m >>= f) R :=
  .bind (R := good p) Keeps.out h

end ExecLib
