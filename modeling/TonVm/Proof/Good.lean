import TonVm.Proof.Integer
import TonVm.Lib.Invariant
import TonVm.Executor.Engine

/-!
# Good values

An invariant of the whole machine speaks about every value that can be reached from it: the items on
the stack, in the registers and in the variables, and what is nested in their tuples and
continuations. A `Policy` says what is asked of such a value. `good p` is the property it gives for
each type, and the class `Good p` lets instance resolution find it from the form of an expression.
-/

namespace TonVm

variable [TonTypes]

/-- What an invariant asks: whether integers are in range, whether saved registers have the type of
their register, whether an arity is a number of arguments or -1, and a property of the committed
state, the arity of the current continuation and the gas. Gas changes through the operations of `Gas`
only, so the property has to be closed under them. -/
structure Policy where
  ranged : Prop
  typed : Prop
  counted : Prop
  frame : CommittedState → Int → Gas → Prop
  frame_useGas : ∀ {cstate nargs gas} amount, 0 ≤ amount → frame cstate nargs gas →
    frame cstate nargs (gas.useGas amount)
  frame_newGasLimit : ∀ {cstate nargs gas} limit, frame cstate nargs gas →
    frame cstate nargs (gas.newGasLimit limit)

/-! ### The property of items -/

def GoodInteger (p : Policy) : IntegerData → Prop
  | .nan => True
  | .value v => p.ranged → InRange v

/-- An arity: a number of arguments, or -1 when there is no limit on them. -/
def GoodArity (p : Policy) (nargs : Int) : Prop := p.counted → -1 ≤ nargs

mutual

def GoodItem (p : Policy) : StackItem → Prop
  | .integer x => GoodInteger p x
  | .tuple items => GoodItems p items
  | .continuation cont => GoodContinuation p cont
  | .none | .builder _ | .cell _ | .slice _ => True

def GoodItems (p : Policy) : List StackItem → Prop
  | [] => True
  | item :: items => GoodItem p item ∧ GoodItems p items

def GoodContinuation (p : Policy) : ContinuationOf StackItem → Prop
  | ⟨_, nargs, savelist, stack, _⟩ =>
    GoodArity p nargs ∧ GoodSaveList p savelist ∧ GoodItems p stack

def GoodSaveList (p : Policy) : SaveListOf StackItem → Prop
  | ⟨c0, c1, c2, c3, c4, c5, c7⟩ =>
    GoodEntry p 0 c0 ∧ GoodEntry p 1 c1 ∧ GoodEntry p 2 c2 ∧ GoodEntry p 3 c3 ∧ GoodEntry p 4 c4 ∧
      GoodEntry p 5 c5 ∧ GoodEntry p 7 c7

/-- An entry for a register: a good value, of the type of the register. -/
def GoodEntry (p : Policy) (index : Nat) : Option StackItem → Prop
  | none => True
  | some item => GoodItem p item ∧ (p.typed → SaveList.canPut index item = true)

end

/-- An operand of an instruction: an arity, or something that holds none. -/
def GoodParameter (p : Policy) : InstructionParameter → Prop
  | .nargs n => GoodArity p n
  | _ => True

/-- The property of an engine. The variables of the last instruction are what it took from the stack,
so they count as values of the state. -/
structure GoodEngine (p : Policy) (e : Engine) : Prop where
  cc : GoodContinuation p e.cc
  ctrls : GoodSaveList p e.ctrls
  /-- c4 and c5 are there. -/
  roots : p.typed → e.ctrls.c4.isSome ∧ e.ctrls.c5.isSome
  vars : GoodItems p e.cmd.vars
  params : ∀ parameter ∈ e.cmd.params, GoodParameter p parameter
  frame : p.frame e.cstate e.cc.nargs e.gas

/-- The exception an error carries. The one that reports the end of the gas is never handled. -/
def GoodError (p : Policy) : Error → Prop
  | .exception x => x.exceptionCode ≠ some .outOfGas → GoodItem p x.value
  | .other | .panic => True

/-! ### The property of a type -/

/-- The property of a type, under a policy. A type without an instance of its own holds no items. -/
class Sane (α : Type) where
  good : Policy → α → Prop

export Sane (good)

variable {α β : Type}

instance (priority := low) Sane.trivial : Sane α := ⟨fun _ _ => True⟩

instance : Sane IntegerData := ⟨GoodInteger⟩

instance : Sane StackItem := ⟨GoodItem⟩

instance : Sane (ContinuationOf StackItem) := ⟨GoodContinuation⟩

instance : Sane (SaveListOf StackItem) := ⟨GoodSaveList⟩

instance : Sane InstructionParameter := ⟨GoodParameter⟩

instance : Sane Engine := ⟨GoodEngine⟩

instance : Sane Error := ⟨GoodError⟩

instance [Sane α] : Sane (List α) := ⟨fun p l => ∀ a ∈ l, good p a⟩

instance [Sane α] : Sane (Option α) := ⟨fun p o => ∀ a, o = some a → good p a⟩

instance [Sane α] [Sane β] : Sane (α × β) := ⟨fun p x => good p x.1 ∧ good p x.2⟩

/-- A result without a state: its errors carry zero. -/
instance [Sane α] : Sane (Except Failure α) := ⟨fun p x => ExecLib.Yields (good p) x⟩

instance [Sane α] : Sane (Except Error α) := ⟨fun p x => ExecLib.Outcome (good p) (good p) x⟩

/-! ### Unfolding -/

variable {p : Policy}

@[simp]
theorem good_integer (x : IntegerData) : good p (StackItem.integer x) ↔ good p x := by
  simp only [good, GoodItem]

theorem goodItems_iff (items : List StackItem) : GoodItems p items ↔ good p items := by
  induction items with
  | nil => simp [good, GoodItems]
  | cons item items ih =>
    simp only [GoodItems, ih]
    simp only [good, List.mem_cons, forall_eq_or_imp]

@[simp]
theorem good_tuple (items : List StackItem) : good p (StackItem.tuple items) ↔ good p items := by
  rw [← goodItems_iff]
  simp only [good, GoodItem]

@[simp]
theorem good_continuation (cont : ContinuationOf StackItem) :
    good p (StackItem.continuation cont) ↔ good p cont := by
  simp only [good, GoodItem]

theorem good_cont_iff (cont : ContinuationOf StackItem) :
    good p cont ↔ GoodArity p cont.nargs ∧ good p cont.savelist ∧ good p cont.stack := by
  rw [← goodItems_iff]
  obtain ⟨code, nargs, savelist, stack, typeOf⟩ := cont
  simp only [good, GoodContinuation]

theorem good_nil [Sane α] : good p ([] : List α) := by simp [good]

@[simp]
theorem good_cons [Sane α] (a : α) (l : List α) : good p (a :: l) ↔ good p a ∧ good p l := by
  simp [good]

@[simp]
theorem good_append [Sane α] (l l' : List α) : good p (l ++ l') ↔ good p l ∧ good p l' := by
  simp only [good, List.mem_append]
  exact ⟨fun h => ⟨fun a ha => h a (.inl ha), fun a ha => h a (.inr ha)⟩,
    fun h a ha => ha.elim (h.1 a) (h.2 a)⟩

theorem good_of_subset [Sane α] {l l' : List α} (h : good p l) (hsub : l' ⊆ l) : good p l' :=
  fun a ha => h a (hsub ha)

/-! ### Save lists -/

theorem good_get {list : SaveList} (h : good p list) {index : Nat} {item : StackItem}
    (hget : list.get index = some item) : good p item := by
  obtain ⟨c0, c1, c2, c3, c4, c5, c7⟩ := list
  obtain ⟨h0, h1, h2, h3, h4, h5, h7⟩ := h
  match index with
  | 0 | 1 | 2 | 3 | 4 | 5 | 6 | 7 =>
    simp only [SaveListOf.get, SaveListOf.adjust, SaveListOf.slot, Nat.reduceEqDiff, if_true,
      if_false] at hget
    subst hget
    first
      | exact h0.1 | exact h1.1 | exact h2.1 | exact h3.1 | exact h4.1 | exact h5.1 | exact h7.1
  | n + 8 => simp [SaveListOf.get, SaveListOf.adjust, SaveListOf.slot] at hget

theorem goodEntry_c0 {list : SaveList} (h : good p list) : GoodEntry p 0 list.c0 := by
  obtain ⟨c0, c1, c2, c3, c4, c5, c7⟩ := list
  exact h.1

/-- A value of the type of a register may be stored there. -/
theorem good_putOpt {list : SaveList} (h : good p list) {index : Nat} {item : StackItem}
    (hitem : good p item) (htyped : p.typed → SaveList.canPut index item = true) :
    good p (list.putOpt index item) := by
  obtain ⟨c0, c1, c2, c3, c4, c5, c7⟩ := list
  obtain ⟨h0, h1, h2, h3, h4, h5, h7⟩ := h
  match index with
  | 0 => exact ⟨⟨hitem, htyped⟩, h1, h2, h3, h4, h5, h7⟩
  | 1 => exact ⟨h0, ⟨hitem, htyped⟩, h2, h3, h4, h5, h7⟩
  | 2 => exact ⟨h0, h1, ⟨hitem, htyped⟩, h3, h4, h5, h7⟩
  | 3 => exact ⟨h0, h1, h2, ⟨hitem, htyped⟩, h4, h5, h7⟩
  | 4 => exact ⟨h0, h1, h2, h3, ⟨hitem, htyped⟩, h5, h7⟩
  | 5 => exact ⟨h0, h1, h2, h3, h4, ⟨hitem, htyped⟩, h7⟩
  -- there is no register c6, so with types this does not happen
  | 6 => exact ⟨h0, h1, h2, h3, h4, h5, hitem, fun ht => absurd (htyped ht) (by simp [SaveList.canPut])⟩
  | 7 => exact ⟨h0, h1, h2, h3, h4, h5, hitem, htyped⟩
  | n + 8 => exact ⟨h0, h1, h2, h3, h4, h5, h7⟩

theorem good_put {list list' : SaveList} (h : good p list) {index : Nat} {item : StackItem}
    (hitem : good p item) (hput : SaveList.put list index item = .ok list') : good p list' := by
  unfold SaveList.put at hput
  split at hput
  · rename_i hcan
    cases hput
    exact good_putOpt h hitem fun _ => hcan
  · cases hput

theorem good_remove {list : SaveList} (h : good p list) (index : Nat) :
    good p (list.remove index) := by
  obtain ⟨c0, c1, c2, c3, c4, c5, c7⟩ := list
  obtain ⟨h0, h1, h2, h3, h4, h5, h7⟩ := h
  match index with
  | 0 => exact ⟨trivial, h1, h2, h3, h4, h5, h7⟩
  | 1 => exact ⟨h0, trivial, h2, h3, h4, h5, h7⟩
  | 2 => exact ⟨h0, h1, trivial, h3, h4, h5, h7⟩
  | 3 => exact ⟨h0, h1, h2, trivial, h4, h5, h7⟩
  | 4 => exact ⟨h0, h1, h2, h3, trivial, h5, h7⟩
  | 5 => exact ⟨h0, h1, h2, h3, h4, trivial, h7⟩
  | 6 | 7 => exact ⟨h0, h1, h2, h3, h4, h5, trivial⟩
  | n + 8 => exact ⟨h0, h1, h2, h3, h4, h5, h7⟩

theorem goodEntry_or {index : Nat} {a b : Option StackItem} (ha : GoodEntry p index a)
    (hb : GoodEntry p index b) : GoodEntry p index (a.or b) := by
  cases a with
  | none => exact hb
  | some item => exact ha

theorem good_apply {list other : SaveList} (h : good p list) (h' : good p other) :
    good p (list.apply other) := by
  obtain ⟨c0, c1, c2, c3, c4, c5, c7⟩ := list
  obtain ⟨d0, d1, d2, d3, d4, d5, d7⟩ := other
  obtain ⟨h0, h1, h2, h3, h4, h5, h7⟩ := h
  obtain ⟨k0, k1, k2, k3, k4, k5, k7⟩ := h'
  exact ⟨goodEntry_or k0 h0, goodEntry_or k1 h1, goodEntry_or k2 h2, goodEntry_or k3 h3,
    goodEntry_or k4 h4, goodEntry_or k5 h5, goodEntry_or k7 h7⟩

theorem good_empty : good p ({} : SaveList) :=
  ⟨trivial, trivial, trivial, trivial, trivial, trivial, trivial⟩

/-- A register that holds a continuation may hold any other. -/
theorem canPut_of_continuation {list : SaveList} (h : good p list) {index : Nat}
    {cont : ContinuationData} (hget : list.get index = some (.continuation cont))
    (cont' : ContinuationData) (ht : p.typed) :
    SaveList.canPut index (.continuation cont') = true := by
  obtain ⟨c0, c1, c2, c3, c4, c5, c7⟩ := list
  obtain ⟨h0, h1, h2, h3, h4, h5, h7⟩ := h
  match index with
  | 0 | 1 | 2 | 3 => rfl
  | 4 | 5 | 6 | 7 =>
    simp only [SaveListOf.get, SaveListOf.adjust, SaveListOf.slot, Nat.reduceEqDiff, if_true,
      if_false] at hget
    subst hget
    first | exact absurd (h4.2 ht) (by simp [SaveList.canPut, StackItem.asCell, Except.isOk, Except.toBool])
          | exact absurd (h5.2 ht) (by simp [SaveList.canPut, StackItem.asCell, Except.isOk, Except.toBool])
          | exact absurd (h7.2 ht) (by simp [SaveList.canPut, StackItem.asTuple, Except.isOk, Except.toBool])
  | n + 8 => simp [SaveListOf.get, SaveListOf.adjust, SaveListOf.slot] at hget

/-! ### Two policies -/

/-- A policy that asks no more of values than another. -/
structure Policy.Weaker (q p : Policy) : Prop where
  ranged : q.ranged → p.ranged
  typed : q.typed → p.typed
  counted : q.counted → p.counted

section Weaker

variable {q : Policy}

mutual

theorem GoodItem.mono (h : q.Weaker p) : ∀ item : StackItem, GoodItem p item → GoodItem q item
  | .integer .nan, _ => trivial
  | .integer (.value _), k => fun hq => k (h.ranged hq)
  | .tuple items, k => GoodItems.mono h items k
  | .continuation cont, k => GoodContinuation.mono h cont k
  | .none, _ | .builder _, _ | .cell _, _ | .slice _, _ => trivial

theorem GoodItems.mono (h : q.Weaker p) :
    ∀ items : List StackItem, GoodItems p items → GoodItems q items
  | [], _ => trivial
  | item :: items, k => ⟨GoodItem.mono h item k.1, GoodItems.mono h items k.2⟩

theorem GoodContinuation.mono (h : q.Weaker p) :
    ∀ cont : ContinuationOf StackItem, GoodContinuation p cont → GoodContinuation q cont
  | ⟨_, _, savelist, stack, _⟩, k =>
    ⟨fun hq => k.1 (h.counted hq), GoodSaveList.mono h savelist k.2.1, GoodItems.mono h stack k.2.2⟩

theorem GoodSaveList.mono (h : q.Weaker p) :
    ∀ list : SaveListOf StackItem, GoodSaveList p list → GoodSaveList q list
  | ⟨c0, c1, c2, c3, c4, c5, c7⟩, ⟨k0, k1, k2, k3, k4, k5, k7⟩ =>
    ⟨GoodEntry.mono h 0 c0 k0, GoodEntry.mono h 1 c1 k1, GoodEntry.mono h 2 c2 k2,
      GoodEntry.mono h 3 c3 k3, GoodEntry.mono h 4 c4 k4, GoodEntry.mono h 5 c5 k5,
      GoodEntry.mono h 7 c7 k7⟩

theorem GoodEntry.mono (h : q.Weaker p) (index : Nat) :
    ∀ entry : Option StackItem, GoodEntry p index entry → GoodEntry q index entry
  | none, _ => trivial
  | some item, k => ⟨GoodItem.mono h item k.1, fun hq => k.2 (h.typed hq)⟩

end

theorem GoodParameter.mono (h : q.Weaker p) {parameter : InstructionParameter}
    (k : GoodParameter p parameter) : GoodParameter q parameter := by
  cases parameter with
  | nargs n => exact fun hq => k (h.counted hq)
  | _ => trivial

end Weaker

end TonVm
