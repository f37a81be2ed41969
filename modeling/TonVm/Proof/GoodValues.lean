import TonVm.Proof.Good
import TonVm.Proof.StackBlocks
import TonVm.Executor.Math

/-!
# Good values by their form

The instances below say how the property `good` passes through the pure parts of the machine: the
constructors of items, lists, stack operations, conversions and arithmetic. Nothing is assumed of a
type that holds no items.
-/

namespace TonVm

variable [TonTypes] {α β : Type} {p : Policy}

/-- A good value, found from its form. -/
class Good (p : Policy) {α : Type} [Sane α] (a : α) : Prop where
  out : good p a

/-- A type that holds no items. -/
class Plain (α : Type) [Sane α] : Prop where
  out : ∀ (p : Policy) (a : α), good p a

instance : @Plain _ α Sane.trivial := @Plain.mk _ α Sane.trivial fun _ _ => trivial

instance [Sane α] [Plain α] : Plain (List α) := ⟨fun p _ a _ => Plain.out p a⟩

instance [Sane α] [Plain α] : Plain (Option α) := ⟨fun p _ a _ => Plain.out p a⟩

instance [Sane α] [Sane β] [Plain α] [Plain β] : Plain (α × β) :=
  ⟨fun p x => ⟨Plain.out p x.1, Plain.out p x.2⟩⟩

instance [Sane α] [Plain α] : Plain (Except Failure α) := ⟨fun p _ a _ => Plain.out p a⟩

instance [Sane α] [Plain α] (a : α) : Good p a := ⟨Plain.out p a⟩

/-- A value under a binder comes with its property. -/
instance [Sane α] (a : { a : α // good p a }) : Good p a.1 := ⟨a.2⟩

instance [Sane α] (c : Prop) [Decidable c] (a b : α) [Good p a] [Good p b] :
    Good p (if c then a else b) := by
  split <;> assumption

/-! ### Items -/

instance : Good p StackItem.none := ⟨by simp [good, GoodItem]⟩

instance (b : BuilderData) : Good p (StackItem.builder b) := ⟨by simp [good, GoodItem]⟩

instance (c : Cell) : Good p (StackItem.cell c) := ⟨by simp [good, GoodItem]⟩

instance (s : SliceData) : Good p (StackItem.slice s) := ⟨by simp [good, GoodItem]⟩

instance (x : IntegerData) [h : Good p x] : Good p (StackItem.integer x) :=
  ⟨(good_integer x).2 h.out⟩

instance (items : List StackItem) [h : Good p items] : Good p (StackItem.tuple items) :=
  ⟨(good_tuple items).2 h.out⟩

instance (cont : ContinuationData) [h : Good p cont] : Good p (StackItem.continuation cont) :=
  ⟨(good_continuation cont).2 h.out⟩

/-- An arity, found good from its form. -/
class HasArity (p : Policy) (nargs : Int) : Prop where
  out : GoodArity p nargs

instance : HasArity p (-1) := ⟨fun _ => le_rfl⟩

instance (n : Nat) : HasArity p n := ⟨fun _ => by omega⟩

instance : HasArity p 1 := ⟨fun _ => by decide⟩

instance : HasArity p 2 := ⟨fun _ => by decide⟩

instance (n : Nat) : HasArity p ((n : Int) + 2) := ⟨fun _ => by omega⟩

instance (cont : ContinuationData) [h : Good p cont] : HasArity p cont.nargs :=
  ⟨((good_cont_iff cont).1 h.out).1⟩

instance (a b : Int) (c : Prop) [Decidable c] [HasArity p a] [HasArity p b] :
    HasArity p (if c then a else b) := by
  split <;> assumption

instance (code : SliceData) (nargs : Int) (savelist : SaveList) (stack : List StackItem)
    (typeOf : ContinuationType) [ha : HasArity p nargs] [h : Good p savelist] [h' : Good p stack] :
    Good p (ContinuationOf.mk code nargs savelist stack typeOf) :=
  ⟨(good_cont_iff _).2 ⟨ha.out, h.out, h'.out⟩⟩

instance (cont : ContinuationData) [h : Good p cont] : Good p cont.savelist :=
  ⟨((good_cont_iff cont).1 h.out).2.1⟩

instance (cont : ContinuationData) [h : Good p cont] : Good p cont.stack :=
  ⟨((good_cont_iff cont).1 h.out).2.2⟩

instance : Good p ({} : SaveList) := ⟨good_empty⟩

instance : Good p (ContinuationOf.newEmpty : ContinuationData) :=
  ⟨(good_cont_iff _).2 ⟨fun _ => le_rfl, good_empty, good_nil⟩⟩

instance (code : SliceData) : Good p (ContinuationOf.withCode code : ContinuationData) :=
  ⟨(good_cont_iff _).2 ⟨fun _ => le_rfl, good_empty, good_nil⟩⟩

instance (typeOf : ContinuationType) : Good p (ContinuationOf.withType typeOf : ContinuationData) :=
  ⟨(good_cont_iff _).2 ⟨fun _ => le_rfl, good_empty, good_nil⟩⟩

instance (cont : ContinuationData) [h : Good p cont] : Good p cont.copyWithoutStack :=
  have hcont := (good_cont_iff cont).1 h.out
  ⟨(good_cont_iff _).2 ⟨hcont.1, hcont.2.1, good_nil⟩⟩

instance (list : SaveList) (index : Nat) [h : Good p list] : Good p (list.get index) :=
  ⟨fun _ => good_get h.out⟩

instance (list : SaveList) (index : Nat) [h : Good p list] : Good p (list.remove index) :=
  ⟨good_remove h.out index⟩

instance (list : SaveList) (index : Nat) (item : StackItem) [h : Good p list] [h' : Good p item] :
    Good p (SaveList.put list index item) :=
  ⟨fun _ => good_put h.out h'.out⟩

/-! ### Integers -/

instance : Good p IntegerData.nan := ⟨trivial⟩

instance : Good p IntegerData.zero := ⟨fun _ => inRange_of_bounds (by decide) (by decide)⟩

instance : Good p IntegerData.one := ⟨fun _ => inRange_of_bounds (by decide) (by decide)⟩

instance : Good p IntegerData.minusOne := ⟨fun _ => inRange_of_bounds (by decide) (by decide)⟩

instance : Good p (StackItem.int 0) := ⟨fun _ => inRange_of_bounds (by decide) (by decide)⟩

instance : Good p (StackItem.int 1) := ⟨fun _ => inRange_of_bounds (by decide) (by decide)⟩

instance : Good p (StackItem.int (-1)) := ⟨fun _ => inRange_of_bounds (by decide) (by decide)⟩

instance : Good p (StackItem.int 32) := ⟨fun _ => inRange_of_bounds (by decide) (by decide)⟩

instance (gas : Int) : Good p (StackItem.int (Int.bmod gas (2 ^ 64))) := by
  refine ⟨fun _ => inRange_of_bounds ?_ ?_⟩
  · have := @Int.le_bmod gas (2 ^ 64) (by decide)
    omega
  · have := @Int.bmod_lt gas (2 ^ 64) (by decide)
    omega

instance (hash : UInt256) : Good p (IntegerData.ofHash hash) := by
  refine ⟨fun _ => inRange_of_bounds ?_ ?_⟩
  · omega
  · have := hash.isLt
    omega

instance : Good p StackItem.nan := ⟨trivial⟩

instance (b : Bool) : Good p (StackItem.boolean b) := by
  unfold StackItem.boolean
  infer_instance

instance (b : Bool) : Good p (IntegerData.boolint b) := by
  unfold IntegerData.boolint
  infer_instance

theorem good_ofInt (v : Int) : good p (IntegerData.ofInt v) := by
  intro x h
  obtain ⟨rfl, hv⟩ := IntegerData.ofInt_eq_ok h
  exact fun _ => hv

instance (v : Int) : Good p (IntegerData.ofInt v) := ⟨good_ofInt v⟩

instance (v : Int) : Good p (StackItem.checkedInt v) := by
  refine ⟨fun item h => ?_⟩
  unfold StackItem.checkedInt at h
  split at h
  · rename_i x hx
    cases h
    exact (good_integer x).2 (good_ofInt v x hx)
  · cases h

/-! ### Results without a state -/

section Except

variable [Sane α] [Sane β]

instance (a : α) [h : Good p a] : Good p (Except.ok a : Except Failure α) :=
  ⟨fun _ hb => Except.ok.inj hb ▸ h.out⟩

instance (a : α) [h : Good p a] : Good p (pure a : Except Failure α) :=
  ⟨fun _ hb => Except.ok.inj hb ▸ h.out⟩

instance (err : Failure) : Good p (Except.error err : Except Failure α) := ⟨fun _ h => by cases h⟩

instance (err : Failure) : Good p (throw err : Except Failure α) := ⟨fun _ h => by cases h⟩

theorem good_bind {x : Except Failure α} {f : α → Except Failure β} (hx : good p x)
    (hf : ∀ a, good p a → good p (f a)) : good p (x >>= f) :=
  ExecLib.Yields.bind hx hf

instance (x : Except Failure α) (f : α → Except Failure β) [hx : Good p x]
    [hf : ∀ a : { a : α // good p a }, Good p (f a.1)] : Good p (x >>= f) :=
  ⟨good_bind hx.out fun a ha => (hf ⟨a, ha⟩).out⟩

variable {γ : Type} [Sane γ]

instance (priority := high) (x : Except Failure (α × β)) (f : α × β → Except Failure γ)
    [hx : Good p x]
    [hf : ∀ (a : { a : α // good p a }) (b : { b : β // good p b }), Good p (f (a.1, b.1))] :
    Good p (x >>= f) :=
  ⟨good_bind hx.out fun ab h => (hf ⟨ab.1, h.1⟩ ⟨ab.2, h.2⟩).out⟩

instance (a : α) (b : β) [h : Good p a] [h' : Good p b] : Good p (a, b) := ⟨⟨h.out, h'.out⟩⟩

instance (x : Except Failure (α × β)) (f : α × β → γ) [hx : Good p x]
    [hf : ∀ (a : { a : α // good p a }) (b : { b : β // good p b }), Good p (f (a.1, b.1))] :
    Good p (x.map f) := by
  refine ⟨fun c hc => ?_⟩
  cases x with
  | error failure => cases hc
  | ok pair =>
    cases hc
    have hpair := hx.out pair rfl
    exact (hf ⟨pair.1, hpair.1⟩ ⟨pair.2, hpair.2⟩).out

end Except

/-! ### Conversions of items -/

instance (item : StackItem) [h : Good p item] : Good p item.asInteger := by
  refine ⟨fun x hx => ?_⟩
  cases item <;> simp only [StackItem.asInteger, Except.ok.injEq, reduceCtorEq] at hx
  subst hx
  exact (good_integer _).1 h.out

instance (item : StackItem) [h : Good p item] : Good p item.asContinuation := by
  refine ⟨fun cont hcont => ?_⟩
  cases item <;> simp only [StackItem.asContinuation, Except.ok.injEq, reduceCtorEq] at hcont
  subst hcont
  exact (good_continuation _).1 h.out

instance (item : StackItem) [h : Good p item] : Good p item.asTuple := by
  refine ⟨fun items hitems => ?_⟩
  cases item <;> simp only [StackItem.asTuple, Except.ok.injEq, reduceCtorEq] at hitems
  subst hitems
  exact (good_tuple _).1 h.out

instance (item : StackItem) (index : Nat) (default : Bool) [Good p item] :
    Good p (item.tupleItem index default) := by
  refine ⟨good_bind (Good.out (p := p)) fun items hitems => ?_⟩
  split
  · rename_i value hvalue
    rintro _ ⟨⟩
    exact hitems value (List.mem_of_getElem? hvalue)
  · exact Good.out (p := p)

/-! ### Lists and options -/

section List

variable [Sane α] [Sane β]

instance : Good p ([] : List α) := ⟨good_nil⟩

instance (a : α) (l : List α) [h : Good p a] [h' : Good p l] : Good p (a :: l) :=
  ⟨(good_cons a l).2 ⟨h.out, h'.out⟩⟩

instance (l l' : List α) [h : Good p l] [h' : Good p l'] : Good p (l ++ l') :=
  ⟨(good_append l l').2 ⟨h.out, h'.out⟩⟩

instance (l : List α) (n : Nat) [h : Good p l] : Good p (l.take n) :=
  ⟨good_of_subset h.out (List.take_subset n l)⟩

instance (l : List α) (n : Nat) [h : Good p l] : Good p (l.drop n) :=
  ⟨good_of_subset h.out (List.drop_subset n l)⟩

instance (l : List α) [h : Good p l] : Good p l.dropLast :=
  ⟨good_of_subset h.out (List.dropLast_subset l)⟩

instance (l : List α) (n : Nat) [h : Good p l] : Good p (l.eraseIdx n) :=
  ⟨good_of_subset h.out (List.eraseIdx_subset)⟩

instance (l : List α) [h : Good p l] : Good p l.reverse :=
  ⟨fun a ha => h.out a (List.mem_reverse.1 ha)⟩

instance (n : Nat) (a : α) [h : Good p a] : Good p (List.replicate n a) :=
  ⟨fun _ hb => List.eq_of_mem_replicate hb ▸ h.out⟩

instance (l : List α) (n : Nat) (a : α) [h : Good p l] [h' : Good p a] : Good p (l.set n a) :=
  ⟨fun b hb => (List.mem_or_eq_of_mem_set hb).elim (h.out b) fun heq => heq ▸ h'.out⟩

instance (l : List α) (n : Nat) (a : α) [h : Good p l] [h' : Good p a] :
    Good p (l.insertIdx n a) :=
  ⟨fun _ hb => (List.eq_or_mem_of_mem_insertIdx hb).elim (fun heq => heq ▸ h'.out) (h.out _)⟩

instance (l : List α) [h : Good p l] : Good p l.head? :=
  ⟨fun a ha => h.out a (List.mem_of_head? ha)⟩

instance : Good p (none : Option α) := ⟨fun _ h => by cases h⟩

instance (a : α) [h : Good p a] : Good p (some a) := ⟨fun _ hb => Option.some.inj hb ▸ h.out⟩

instance (o : Option α) (a : α) [h : Good p o] [h' : Good p a] : Good p (o.getD a) := by
  cases o with
  | none => exact h'
  | some b => exact ⟨h.out b rfl⟩

instance (o : Option α) (f : α → β) [h : Good p o]
    [hf : ∀ a : { a : α // good p a }, Good p (f a.1)] : Good p (o.map f) := by
  cases o with
  | none => exact ⟨fun _ h => by cases h⟩
  | some a => exact ⟨fun _ hb => Option.some.inj hb ▸ (hf ⟨a, h.out a rfl⟩).out⟩

end List

/-! ### Stack operations -/

section Stack

variable (stack : List StackItem) (i j : Nat)

instance (item : StackItem) [Good p stack] [Good p item] : Good p (Stack.push item stack) := by
  unfold Stack.push
  infer_instance

instance [Good p stack] : Good p (Stack.dropTop i stack) := by
  unfold Stack.dropTop
  infer_instance

instance [h : Good p stack] : Good p (Stack.drop i stack) := by
  unfold Stack.drop
  split
  · rename_i item hitem
    have : Good p item := ⟨h.out item (List.mem_of_getElem? hitem)⟩
    infer_instance
  · infer_instance

instance [Good p stack] : Good p (Stack.dropRange i j stack) := by
  unfold Stack.dropRange
  infer_instance

instance [Good p stack] : Good p (Stack.dropRangeStraight i j stack) := by
  rw [Stack.dropRangeStraight_eq]
  infer_instance

instance (peer : Stack) [Good p peer] [Good p stack] : Good p (Stack.moveRange i j peer stack) := by
  rw [Stack.moveRange_eq]
  infer_instance

instance [h : Good p stack] : Good p (Stack.get i stack) := by
  unfold Stack.get
  split
  · split
    · rename_i item hitem
      have : Good p item := ⟨h.out item (List.mem_of_getElem? hitem)⟩
      infer_instance
    · infer_instance
  · infer_instance

instance (item : StackItem) [Good p stack] [Good p item] : Good p (Stack.insert i item stack) := by
  unfold Stack.insert
  infer_instance

instance [Good p stack] : Good p (Stack.reverseRange i j stack) := by
  rw [Stack.reverseRange_eq]
  infer_instance

instance [h : Good p stack] : Good p (Stack.pushCopy i stack) := by
  unfold Stack.pushCopy
  split
  · infer_instance
  · split
    · rename_i item hitem
      have : Good p item := ⟨h.out item (List.mem_of_getElem? hitem)⟩
      infer_instance
    · infer_instance

instance [h : Good p stack] : Good p (Stack.swap i j stack) := by
  unfold Stack.swap
  split
  · infer_instance
  · split
    · rename_i x y hx hy
      have : Good p x := ⟨h.out x (List.mem_of_getElem? hx)⟩
      have : Good p y := ⟨h.out y (List.mem_of_getElem? hy)⟩
      infer_instance
    · infer_instance

instance [Good p stack] : Good p (Stack.blockSwap i j stack) := by
  unfold Stack.blockSwap
  simp only [Stack.foldr_push]
  infer_instance

end Stack

/-! ### Arithmetic -/

namespace IntegerData

section Results

variable {ρ R : Type} [Sane R] (T : OperationBehavior)

instance (x : IntegerData) (callback : Int → ρ) (nan : R) (process : ρ → R → Except Failure R)
    [Good p nan] [∀ r, Good p (process r nan)] : Good p (unaryOp T x callback nan process) := by
  unfold unaryOp
  split <;> infer_instance

instance (x y : IntegerData) (callback : Int → Int → ρ) (nan : R)
    (process : ρ → R → Except Failure R) [Good p nan] [∀ r, Good p (process r nan)] :
    Good p (binaryOp T x y callback nan process) := by
  unfold binaryOp
  split <;> infer_instance

instance (result : Int) (onNan : IntegerData) [Good p onNan] :
    Good p (processSingleResult T result onNan) := by
  unfold processSingleResult
  split
  · rename_i x hx
    exact ⟨fun _ h => Except.ok.inj h ▸ good_ofInt result x hx⟩
  · infer_instance

instance (result : Int × Int) (nan : IntegerData × IntegerData) [Good p nan] :
    Good p (processDoubleResult T result nan) := by
  unfold processDoubleResult
  split
  · rename_i x hx
    have : Good p x := ⟨good_ofInt result.1 x hx⟩
    infer_instance
  · infer_instance

instance : Good p constructDoubleNan := by
  unfold constructDoubleNan
  infer_instance

instance (f : Int → Int) (x : IntegerData) : Good p (unarySingle T f x) := by
  unfold unarySingle
  infer_instance

instance (f : Int → Int → Int) (x y : IntegerData) : Good p (binarySingle T f x y) := by
  unfold binarySingle
  infer_instance

end Results

section Operations

variable (T : OperationBehavior) (x y : IntegerData) (shift : Nat) (round : Round)

instance : Good p (x.div T y round) := by
  unfold div
  split
  · infer_instance
  · infer_instance

instance : Good p (x.divByShift T shift round) := by
  unfold IntegerData.divByShift
  infer_instance

end Operations

end IntegerData

end TonVm
