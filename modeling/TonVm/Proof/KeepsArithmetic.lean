import TonVm.Proof.KeepsStorage
import TonVm.Proof.EngineExec
import TonVm.Executor.Tuples

/-!
# Arithmetic, stack and tuple instructions keep the engine good

The in-place operations behind the arithmetic instructions, with the results of their handlers, and the
shared parts of the stack and tuple instructions. `ADD` is the exception: it writes an overflowing sum
to the stack before it fails, so its lemma needs a handler whose sum is good in every case.
-/

namespace TonVm

open ExecLib

variable [TonTypes] {α β : Type} {p : Policy}

/-! ### Results of the handlers -/

namespace IntegerData

variable (T : OperationBehavior) (x y : IntegerData)

instance : Good p (x.compareSign T y) := by
  refine ⟨good_bind Good.out fun o _ => ?_⟩
  split <;> exact Good.out

instance (rule : ComparisonRule) : Good p (x.compareRule T rule y) := by
  refine ⟨good_bind Good.out fun o _ => ?_⟩
  split <;> exact Good.out

instance : Good p (signOf T x) := by
  unfold signOf
  infer_instance

theorem good_value_of_le {n : Nat} (h : n ≤ 257) : good p (value n) :=
  fun _ => inRange_of_bounds (by omega) (by omega)

/-- The number of bits of an integer that is good is a good integer. -/
theorem good_bitsize {v : Int} (h : good p (value v)) : good p (value (bitsize v)) :=
  fun hr => good_value_of_le ((bitsize_le_iff v 256).2 (h hr)) hr

instance [h : Good p x] : Good p (bitsizeOf T x) := by
  cases x with
  | nan => exact inferInstanceAs (Good p (do T.onNanParameter; return nan))
  | value v =>
    have : Good p (value (bitsize v)) := ⟨good_bitsize h.out⟩
    exact inferInstanceAs (Good p (if (value v).isZero then pure zero else pure (value (bitsize v))))

instance [h : Good p x] : Good p (ubitsizeOf T x) := by
  cases x with
  | nan => exact inferInstanceAs (Good p (do T.onRangeCheckError; return nan))
  | value v =>
    have : Good p (value (bits v)) :=
      ⟨fun hr => good_value_of_le
        ((bits_le_bitsize v).trans ((bitsize_le_iff v 256).2 (h.out hr))) hr⟩
    exact inferInstanceAs (Good p
      (if (value v).isNan || (value v).isNeg then do T.onRangeCheckError; return nan
        else pure (value (bits v))))

instance : Good p (pow2 T x) := by
  unfold pow2
  split <;> infer_instance

/-- The quiet addition leaves NaN for a sum out of range. -/
instance : Good p (x.addAssign .quiet y).2 := by
  unfold addAssign
  split
  · split
    · rename_i hv
      exact ⟨fun _ => (checkOverflow_iff _).1 hv⟩
    · exact ⟨trivial⟩
  · exact ⟨trivial⟩

/-- The signaling addition leaves the sum, also where it is out of range. -/
theorem good_addAssign_signaling {x y : IntegerData} (hx : good p x)
    (hsum : ∀ l r, x = .value l → y = .value r → p.ranged → InRange (l + r)) :
    good p (x.addAssign .signaling y).2 := by
  unfold addAssign
  split
  · rename_i l r
    split <;> exact hsum l r rfl rfl
  · exact hx

end IntegerData

instance (encoding : Encoding) (length : Nat) (data : List UInt8) :
    Good p (encoding.deserialize length data) := by
  unfold Encoding.deserialize
  split
  · rename_i x hx
    exact ⟨fun _ h => Except.ok.inj h ▸ good_ofInt _ x hx⟩
  · infer_instance

/-! ### In-place operations -/

namespace Engine

instance (depth : Nat) : Keeps p (checkDepth depth) := by
  unfold checkDepth
  infer_instance

instance (i : Nat) : Keeps p (stackItem i) := by
  unfold stackItem
  infer_instance

instance (i : Nat) (item : StackItem) [Good p item] : Keeps p (setStackItem i item) := by
  unfold setStackItem
  infer_instance

instance : Keeps p dropTopItem := by
  unfold dropTopItem
  infer_instance

section InPlace

variable (T : OperationBehavior)

instance (handler : IntegerData → IntegerData → Except Failure IntegerData)
    [∀ y x : { x : IntegerData // good p x }, Good p (handler y.1 x.1)] :
    Keeps p (binary handler) := by
  unfold binary
  infer_instance

theorem eq_integer_of_asInteger {item : StackItem} {x : IntegerData}
    (h : item.asInteger = .ok x) : item = .integer x := by
  cases item <;> cases h
  rfl

/-- The item under the top does not depend on the top. -/
theorem get_one_set_top {stack : Stack} (item : StackItem) :
    Stack.get 1 (stack.set (stack.length - 0 - 1) item) = Stack.get 1 stack := by
  unfold Stack.get Stack.depth
  rw [List.length_set]
  split
  · rw [List.getElem?_set_ne (by omega)]
  · rfl

/-- An operation in place from one state, when what it writes is good also where it fails. -/
theorem ends_binaryAssign
    {handler : IntegerData → IntegerData → Except Failure Unit × IntegerData} {e : Engine}
    (he : good p e) (h : ∀ y x, good p x → Stack.get 0 e.cc.stack = .ok (.integer y) →
      Stack.get 1 e.cc.stack = .ok (.integer x) → good p (handler y x).2) :
    Ends (good p) (good p) (binaryAssign handler) (good p) e := by
  unfold binaryAssign
  refine .bind (R := good p) (Keeps.out e he) fun _ s hload _ hs => ?_
  have hstack : s.cc.stack = e.cc.stack := by
    cases hload
    rfl
  rw [← hstack] at h
  refine .bind (R := good p) (Keeps.out s hs) fun _ t hdepth _ ht => ?_
  obtain rfl := (exec_checkDepth_eq_ok hdepth).2
  refine .bind (R := good p) (Keeps.out t ht) fun v0 u hv0 hgood hu => ?_
  obtain ⟨hv0, rfl⟩ := exec_stackItem_eq_ok hv0
  refine .bind (R := good p) (Keeps.out u hu) fun _ t hset _ ht => ?_
  have hone : Stack.get 1 t.cc.stack = Stack.get 1 u.cc.stack := by
    cases hset
    exact get_one_set_top _
  rw [← hone] at h
  refine .bind (R := good p) (Keeps.out t ht) fun item t' hitem hgood' ht' => ?_
  obtain ⟨hitem, rfl⟩ := exec_stackItem_eq_ok hitem
  have : Good p item := ⟨hgood'⟩
  refine .bind (R := good p) (Keeps.out t' ht') fun x t hx hgoodx ht => ?_
  obtain ⟨hvx, rfl⟩ := exec_lift_eq_ok hx
  have : Good p v0 := ⟨hgood⟩
  refine .bind (R := good p) (Keeps.out t ht) fun y t hy _ ht => ?_
  obtain ⟨hvy, rfl⟩ := exec_lift_eq_ok hy
  have : Good p (handler y x).2 :=
    ⟨h y x hgoodx (eq_integer_of_asInteger hvy ▸ hv0) (eq_integer_of_asInteger hvx ▸ hitem)⟩
  exact Keeps.out t ht

theorem keeps_binaryAssign
    {handler : IntegerData → IntegerData → Except Failure Unit × IntegerData}
    (h : ∀ y x, good p x → good p (handler y x).2) : Keeps p (binaryAssign handler) :=
  ⟨fun _ he => ends_binaryAssign he fun y x hx _ _ => h y x hx⟩

instance : Keeps p (executeAdd .quiet) :=
  keeps_binaryAssign fun _ _ _ => Good.out

instance (handler : Int → IntegerData → Except Failure IntegerData)
    [∀ y, ∀ x : { x : IntegerData // good p x }, Good p (handler y x.1)] :
    Keeps p (binaryWithConst handler) := by
  unfold binaryWithConst
  infer_instance

instance (handler : IntegerData → Except Failure IntegerData)
    [∀ x : { x : IntegerData // good p x }, Good p (handler x.1)] :
    Keeps p (unary handler) := by
  unfold unary
  infer_instance

instance (handler : IntegerData → Nat → Except Failure IntegerData)
    [∀ x : { x : IntegerData // good p x }, ∀ n, Good p (handler x.1 n)] :
    Keeps p (unaryWithLen handler) := by
  unfold unaryWithLen
  infer_instance

instance (compareType : MinMax) (x y : StackItem) [Good p x] [Good p y] (order : Option Ordering) :
    Keeps p (pushMinmax T compareType x y order) := by
  unfold pushMinmax
  dsimp only
  split <;> infer_instance

instance (compareType : MinMax) : Keeps p (minmax T compareType) := by
  unfold minmax
  infer_instance

set_option synthInstance.maxSize 1000000 in
instance (length : Nat) (opFit : IntegerData → Nat → Except Failure Bool) :
    Keeps p (fitsIn T length opFit) := by
  unfold fitsIn
  infer_instance

instance : Keeps p fetchLength := by
  unfold fetchLength
  infer_instance

end InPlace

/-! ### Division -/

section Division

variable (T : OperationBehavior) (index : Int)

instance : Keeps p (getVar index) := by
  unfold getVar
  infer_instance

instance : Keeps p (getShift index) := by
  unfold getShift
  refine ⟨.bind .get fun e _ => ?_⟩
  split <;> exact Keeps.out

instance (mode : DivMode) (y : IntegerData) [Good p y] (product : Option Int) :
    Keeps p (divideProduct T mode y index product) := by
  unfold divideProduct
  split <;> infer_instance

set_option synthInstance.maxSize 1000000 in
instance (mode : DivMode) (x : IntegerData) : Keeps p (premultipliedDivmod T mode x index) := by
  unfold premultipliedDivmod
  infer_instance

instance (i n : Nat) : Keeps p (checkIntegerVars i n) := by
  induction n generalizing i with
  | zero =>
    unfold checkIntegerVars
    infer_instance
  | succ n ih =>
    unfold checkIntegerVars
    infer_instance

end Division

/-! ### Stack operations -/

instance (start stop : Nat) : Keeps p (dropRange start stop) := by
  unfold dropRange
  infer_instance

instance (index : Nat) : Keeps p (pushCopy index) := by
  unfold pushCopy
  infer_instance

instance (i j : Nat) : Keeps p (swapItems i j) := by
  unfold swapItems
  infer_instance

instance (index n : Nat) : Keeps p (pushCopies index n) := by
  induction n with
  | zero =>
    unfold pushCopies
    infer_instance
  | succ n ih =>
    unfold pushCopies
    infer_instance

instance (index : Nat) : Keeps p (smallVar index) := by
  unfold smallVar
  infer_instance

instance : Keeps p fetchSmall := by
  unfold fetchSmall
  infer_instance

instance (n : Nat) : Keeps p (dropTop n) := by
  unfold dropTop
  infer_instance

instance (i : Nat) : Keeps p (rollItem i) := by
  unfold rollItem
  infer_instance

instance (i : Nat) : Keeps p (insertTop i) := by
  unfold insertTop
  infer_instance

instance : Keeps p loadPair := by
  unfold loadPair
  infer_instance

instance (place : WhereToGetParams) : Keeps p (loadTrio place) := by
  unfold loadTrio
  infer_instance

instance (place : WhereToGetParams) : Keeps p (executeXchg place) := by
  unfold executeXchg
  infer_instance

instance (target : DataTag) : Keeps p (fetchRef target) := by
  unfold fetchRef
  infer_instance

/-! ### Tuples -/

instance (how : UInt8) : Keeps p (loadSized how) := by
  unfold loadSized
  infer_instance

instance (index hi : Nat) : Keeps p (indexVar index hi) := by
  unfold indexVar
  infer_instance

instance (how : UInt8) : Keeps p (tuple how) := by
  unfold tuple
  infer_instance

section LongBodies

set_option synthInstance.maxSize 1000000

instance (how : UInt8) : Keeps p (tupleIndex how) := by
  unfold tupleIndex
  infer_instance

instance (how : UInt8) : Keeps p (untuple how) := by
  unfold untuple
  infer_instance

instance (how : UInt8) : Keeps p (setIndexOperands how) := by
  unfold setIndexOperands
  infer_instance

instance (how : UInt8) : Keeps p (setIndex how) := by
  unfold setIndex setIndexV1 setIndexV2
  infer_instance

end LongBodies

instance (how : UInt8) : Keeps p (tupleLength how) := by
  unfold tupleLength
  refine ⟨.after fun _ _ => .after fun _ _ => .after fun item _ => ?_⟩
  split <;> exact Keeps.out

instance : Keeps p executeTupleLast := by
  unfold executeTupleLast
  refine ⟨.after fun _ _ => .after fun _ _ => .after fun item hitem => ?_⟩
  have : Good p item := ⟨hitem⟩
  refine .after fun items hitems => ?_
  split
  · rename_i last hlast
    have : Good p last := ⟨hitems last (List.mem_of_getLast? hlast)⟩
    exact Keeps.out
  · exact Keeps.out

instance : Keeps p executeTuplePop := by
  unfold executeTuplePop
  refine ⟨.after fun _ _ => .after fun _ _ => .after fun item hitem => ?_⟩
  have : Good p item := ⟨hitem⟩
  refine .after fun items hitems => ?_
  have : Good p items := ⟨hitems⟩
  split
  · exact Keeps.out
  · rename_i last hlast
    have : Good p last := ⟨hitems last (List.mem_of_getLast? hlast)⟩
    exact Keeps.out

set_option synthInstance.maxSize 1000000 in
instance (how : UInt8) : Keeps p (nullzeroswapif how) := by
  unfold nullzeroswapif
  infer_instance

instance : Keeps p globals := by
  unfold globals
  infer_instance

instance (c7 : List StackItem) (k : Nat) (x : StackItem) [Good p c7] [Good p x] :
    Good p (withGlobal c7 k x).1 := by
  unfold withGlobal
  split_ifs <;> dsimp only <;> infer_instance

set_option synthInstance.maxSize 1000000 in
instance (how : UInt8) : Keeps p (executeSetgetGlobalvar how) := by
  unfold executeSetgetGlobalvar
  infer_instance

end Engine

end TonVm
