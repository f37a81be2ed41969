import TonVm.Proof.KeepsDictionary
import TonVm.Executor.Accounts

/-!
# Actions, addresses and elections keep the engine good
-/

namespace TonVm

open ExecLib

variable [TonTypes] {α : Type} {p : Policy}

namespace Engine

/-! ### Actions -/

instance (actionId : Nat) (cell : Option Cell) (suffix : BuilderData) :
    Keeps p (addAction actionId cell suffix) := by
  unfold addAction
  refine ⟨.bind .get fun e _ => ?_⟩
  split <;> exact Keeps.out

instance [TonBlock] (grams : Nat) (other : Option Cell) (suffix : BuilderData) :
    Keeps p (reserve grams other suffix) := by
  unfold reserve
  infer_instance

/-! ### Addresses -/

instance (cell : SliceData) : Good p (readRewritePfx cell) := by
  unfold readRewritePfx
  infer_instance

instance (cell : SliceData) : Good p (parseAddress cell) := by
  unfold parseAddress
  refine ⟨good_bind Good.out fun field _ => good_bind Good.out fun tag htag => ?_⟩
  have : Good p tag := ⟨htag⟩
  dsimp only
  split <;> exact Good.out

instance (T : OperationBehavior) : Keeps p (executeLdmsgaddr T) := by
  unfold executeLdmsgaddr
  refine ⟨.after fun _ _ => .after fun _ _ => .after fun _ _ => .after fun slice _ => ?_⟩
  split <;> exact Keeps.out

set_option synthInstance.maxSize 1000000 in
instance (T : OperationBehavior) (op : List StackItem → M (List StackItem))
    [∀ items : { items : List StackItem // good p items }, Keeps p (op items.1)] :
    Keeps p (loadAddress T op) := by
  unfold loadAddress
  infer_instance

instance (length : Nat) : Good p (intMask length) := by
  unfold intMask
  split
  · rename_i x _
    split
    · rename_i mask hmask
      have hsub : good p (x.sub .quiet .one) := Good.out
      exact ⟨fun _ h => Except.ok.inj h ▸ hsub mask hmask⟩
    · infer_instance
  · infer_instance

instance (T : OperationBehavior) (y : IntegerData) (pfx : StackItem) [Good p y] :
    Good p (rewriteStd T y pfx) := by
  unfold rewriteStd
  split <;> infer_instance

instance (addr : SliceData) (pfx : StackItem) : Keeps p (rewriteVar addr pfx) := by
  unfold rewriteVar
  split <;> infer_instance

instance (T : OperationBehavior) (items : { items : List StackItem // good p items }) :
    Keeps p (stdParts T items.1) := by
  unfold stdParts
  split
  · rename_i tag pfx workchain addr h
    have : Good p workchain := ⟨items.2 workchain (by simp [h])⟩
    infer_instance
  · infer_instance

instance (T : OperationBehavior) : Keeps p (executeRewriteStdAddr T) := by
  unfold executeRewriteStdAddr
  infer_instance

instance (items : { items : List StackItem // good p items }) : Keeps p (varParts items.1) := by
  unfold varParts
  split
  · rename_i tag pfx workchain addr h
    have : Good p workchain := ⟨items.2 workchain (by simp [h])⟩
    infer_instance
  · infer_instance

instance (T : OperationBehavior) : Keeps p (executeRewriteVarAddr T) := by
  unfold executeRewriteVarAddr
  infer_instance

instance (opts : Option InstructionOptions) : Keeps p (internalDump opts) := by
  unfold internalDump
  infer_instance

instance (on : Bool) : Keeps p (switchDebug on) := by
  unfold switchDebug
  infer_instance

instance : Keeps p internalDumpString := by
  unfold internalDumpString
  infer_instance

/-! ### Elections and account lookup -/

section Elections

variable [TonBlock]

instance [Sane α] [Plain α] (parse : Cell → Except Failure α) (index : Int) :
    Keeps p (readConfigParam parse index) := by
  unfold readConfigParam
  infer_instance

instance (accounts : List Cell) (stakers : Stakers) : Keeps p (processStakers accounts stakers) := by
  induction accounts generalizing stakers with
  | nil =>
    unfold processStakers
    infer_instance
  | cons shardAcc accounts ih =>
    unfold processStakers
    infer_instance

instance (cfg17 : ConfigParam17) (curValidators : List UInt256) (mcSeqno : Nat)
    (accounts : List Cell) (stakers : Stakers) :
    Keeps p (processValidators cfg17 curValidators mcSeqno accounts stakers) := by
  induction accounts generalizing stakers with
  | nil =>
    unfold processValidators
    infer_instance
  | cons shardAcc accounts ih =>
    unfold processValidators
    refine ⟨.after fun result _ => ?_⟩
    split <;> exact Keeps.out

set_option synthInstance.maxSize 1000000 in
instance (cfg17 : ConfigParam17) : Keeps p (findValidators cfg17) := by
  unfold findValidators
  refine ⟨.after fun _ _ => .bind .get fun e _ => ?_⟩
  split <;> exact Keeps.out

instance (n : Nat) : Good p (StackItem.int (u128 n)) := by
  refine ⟨fun _ => inRange_of_bounds (by omega) ?_⟩
  unfold u128
  omega

instance (n : Nat) : Good p (StackItem.int ((n % 2 ^ 64 : Nat) : Int)) :=
  ⟨fun _ => inRange_of_bounds (by omega) (by omega)⟩

instance (cells : List Cell) : Good p (prepareItemsList cells) := by
  induction cells with
  | nil =>
    unfold prepareItemsList
    infer_instance
  | cons cell cells ih =>
    unfold prepareItemsList
    infer_instance

instance (f : IndexProvider → UInt256 → Except Failure (List Cell)) :
    Keeps p (executeFindAccounts f) := by
  unfold executeFindAccounts
  refine ⟨.after fun _ _ => .after fun _ _ => .after fun _ _ => .after fun _ _ =>
    .after fun slice _ => .after fun hash _ => .bind .get fun e _ => ?_⟩
  split <;> exact Keeps.out

end Elections

end Engine

end TonVm
