import TonVm.Proof.Bits
import TonVm.Proof.Nested
import TonVm.Proof.Parameters
import TonVm.Proof.Views
import TonVm.Executor.Tuples
import TonVm.Stack.CodecOld

/-!
# The length of tuples

A tuple has at most 255 elements, so that its length fits the byte that the serializers write for it.
No check is made there. The bound is kept where tuples grow: by the range of an index, by the range of
a length and by the check of `TPUSH`, and where they are decoded, by the width of the length field.
-/

namespace TonVm

open ExecLib

variable [TonTypes]

/-- A tuple is not longer than its length byte can say. -/
def StackItem.Short : StackItem → Prop
  | .tuple items => items.length ≤ 255
  | _ => True

open StackItem (Short Every)

/-- An item that can be reached from the current continuation, from a register or from a variable of
the last instruction. -/
inductive Engine.Reaches (e : Engine) (x : StackItem) : Prop where
  | cc (h : StackItem.Within x (.continuation e.cc))
  | ctrl {index : Nat} {item : StackItem} (h : e.ctrls.get index = some item)
      (hx : StackItem.Within x item)
  | var {item : StackItem} (h : item ∈ e.cmd.vars) (hx : StackItem.Within x item)

/-- Every tuple that can be reached from the engine is short. -/
structure TuplesShort (e : Engine) : Prop where
  cc : e.cc.Every Short
  ctrls : e.ctrls.Every Short
  vars : ∀ item ∈ e.cmd.vars, item.Every Short

theorem tuplesShort_iff {e : Engine} :
    TuplesShort e ↔ ∀ items, e.Reaches (.tuple items) → items.length ≤ 255 := by
  constructor
  · intro h items hreach
    cases hreach with
    | cc hx => exact (StackItem.every_continuation _).2 ⟨trivial, h.cc⟩ _ hx
    | ctrl hget hx => exact h.ctrls _ _ hget _ hx
    | var hvar hx => exact h.vars _ hvar _ hx
  · intro h
    have hshort (x : StackItem) (hx : e.Reaches x) : x.Short := by
      cases x with
      | tuple items => exact h items hx
      | _ => trivial
    have hcc : (StackItem.continuation e.cc).Every Short := fun x hx => hshort x (.cc hx)
    exact ⟨((StackItem.every_continuation _).1 hcc).2,
      fun index item hget x hx => hshort x (.ctrl hget hx),
      fun item hitem x hx => hshort x (.var hitem hx)⟩

/-- `getNextInt` returns a number of the width it is asked for. -/
def ReadsWidth : Prop :=
  ∀ (slice rest : SliceData) (n v : Nat), TonTypes.getNextInt slice n = .ok (v, rest) → v < 2 ^ n

namespace Engine

variable {α β : Type}

/-! ### The parts of an instruction -/

/-- The tuples are short, and a length in the code is small. -/
structure Ready (e : Engine) : Prop extends TuplesShort e where
  length : ∀ n, lengthRaw e.cmd = some n → n ≤ 254

abbrev Stays (m : M α) (Q : α → Prop) : Prop := Maintains Ready (fun _ => True) m Q

theorem stays_lift {x : Except Failure α} {Q : α → Prop} (h : Yields Q x) : Stays (lift x) Q :=
  maintains_lift h fun _ => trivial

theorem stays_useGas (amount : Int) : Stays (useGas amount) fun _ => True :=
  .modify fun _ h => { h with }

theorem stays_push {item : StackItem} (hitem : item.Every Short) : Stays (push item) fun _ => True := by
  refine .modify fun e h => { h with cc := ⟨fun x hx => ?_, h.cc.savelist⟩ }
  rcases List.mem_append.1 hx with hx | hx
  · exact h.cc.stack x hx
  · rw [List.mem_singleton.1 hx]
    exact hitem

theorem stays_var (i : Nat) : Stays (var i) fun item => item.Every Short := by
  refine .bind .get fun e he => ?_
  split
  · exact .pure (he.vars _ (List.mem_of_getElem? ‹_›))
  · exact .throw trivial

theorem stays_length : Stays (param lengthRaw) fun n => n ≤ 254 := by
  refine .bind .get fun e he => ?_
  split
  · exact .pure (he.length _ ‹_›)
  · exact .throw trivial

theorem dropRange_subset (start stop : Nat) (stack : Stack) :
    Yields (fun r : Stack × Stack => r.1 ⊆ stack ∧ r.2 ⊆ stack)
      (Stack.dropRange start stop stack) := by
  unfold Stack.dropRange
  refine .ite (fun _ => .pure ⟨List.nil_subset _, List.Subset.refl _⟩) fun _ =>
    .ite (fun _ => .error _) fun _ => .pure ⟨fun x hx => ?_, List.append_subset.2 ⟨?_, ?_⟩⟩
  · exact List.mem_of_mem_drop (List.mem_of_mem_take (List.mem_reverse.1 hx))
  · exact List.take_subset _ _
  · exact List.drop_subset _ _

theorem stays_fetchStack (depth : Nat) : Stays (fetchStack depth) fun _ => True := by
  refine .bind .get fun _ _ => .ite (fun _ => .throw trivial) fun _ =>
    .bind (R := fun items => ∀ item ∈ items, item.Every Short) ?_ fun items hitems =>
    .modify fun e h => { h with vars := fun item hitem => ?_ }
  · refine .bind .get fun e he => .bind (stays_lift (dropRange_subset 0 depth e.cc.stack))
      fun r hr => .bind (.modify fun s h => ?_) fun _ _ => .pure fun item hitem =>
        he.cc.stack item (hr.1 hitem)
    exact { h with cc := ⟨fun item hitem => he.cc.stack item (hr.2 hitem), h.cc.savelist⟩ }
  · rcases List.mem_append.1 hitem with hold | hnew
    · exact h.vars item hold
    · exact hitems item hnew

theorem stays_asTuple {item : StackItem} (hitem : item.Every Short) : Stays (lift item.asTuple)
    fun items => items.length ≤ 255 ∧ ∀ x ∈ items, x.Every Short := by
  refine stays_lift ?_
  rintro items h
  cases item <;> cases h
  exact (StackItem.every_tuple items).1 hitem

theorem stays_indexVar (i hi : Nat) : Stays (indexVar i hi) fun n => n ≤ hi :=
  .bind (stays_var i) fun _ _ => .bind (stays_lift (Q := fun _ => True) fun _ _ => trivial)
    fun _ _ => stays_lift fun _ => IntegerData.intoUsize_le

/-- A tuple that is written to the stack. -/
theorem stays_pushTuple {items : List StackItem} (hlength : items.length ≤ 255)
    (hitems : ∀ x ∈ items, x.Every Short) : Stays (push (.tuple items)) fun _ => True :=
  stays_push ((StackItem.every_tuple items).2 ⟨hlength, hitems⟩)

/-! ### Loading -/

theorem ends_load_none {e : Engine} (h : TuplesShort e) :
    Ends Ready (fun _ => True) loadInstruction (fun _ => True) e :=
  ⟨trivial, ⟨⟨h.cc, h.ctrls, nofun⟩, nofun⟩⟩

theorem ends_load_length {e : Engine} (h : TuplesShort e) {start stop : Nat}
    (hrange : (start, stop) = (0, 16) ∨ (start, stop) = (1, 32)) :
    Ends Ready (fun _ => True) (loadInstruction (some (.length start stop))) (fun _ => True) e := by
  have hmask (mask : UInt8) (hmask : mask.toNat ≤ 254) : (e.lastCmd &&& mask).toNat ≤ 254 := by
    rw [UInt8.toNat_and]
    exact Nat.and_le_right.trans hmask
  rcases hrange with hrange | hrange <;> cases hrange <;>
    refine ⟨trivial, ⟨⟨h.cc, h.ctrls, nofun⟩, fun n hn => ?_⟩⟩ <;> cases hn
  · exact hmask 0x0F (by decide)
  · exact hmask 0x1F (by decide)

theorem ends_loadSized {e : Engine} (h : TuplesShort e) (how : UInt8) :
    Ends Ready (fun _ => True) (loadSized how) (fun _ => True) e := by
  unfold loadSized
  split
  · exact ends_load_length h (.inl rfl)
  · exact ends_load_none h

/-! ### Tuples -/

/-- The instruction leaves every tuple short, if it fails too. -/
abbrev LeavesShort (m : M α) (e : Engine) : Prop :=
  Ends Ready (fun _ => True) m (fun _ => True) e

theorem stays_makeTuple {params : Nat} (hle : params ≤ 255) :
    Stays (makeTuple params) fun _ => True := by
  refine .bind (stays_fetchStack params) fun _ _ => .bind .get fun s hs =>
    .bind (.modify fun s' hs' => ?_) fun _ _ => .bind (stays_useGas _) fun _ _ =>
      stays_pushTuple ?_ fun x hx => ?_
  · exact { hs' with vars := fun item hitem => hs.vars item (List.mem_of_mem_take hitem) }
  · rw [List.length_reverse, List.length_drop]
    omega
  · exact hs.vars x (List.mem_of_mem_drop (List.mem_reverse.1 hx))

theorem leavesShort_tuple {e : Engine} (h : TuplesShort e) (how : UInt8) :
    LeavesShort (tuple how) e := by
  refine (ends_loadSized h how).bind fun _ t _ _ ht => ?_
  dsimp only
  split
  · exact stays_length.bind (f := makeTuple) (fun n hn => stays_makeTuple (by omega)) t ht
  · exact (stays_fetchStack 1).bind (fun _ _ => (stays_indexVar 0 255).bind (f := makeTuple)
      fun n hn => stays_makeTuple hn) t ht

/-- An index that is small, a tuple that is short and an item. -/
structure SetsIndex (r : Nat × List StackItem × StackItem) : Prop where
  index : r.1 ≤ 254
  length : r.2.1.length ≤ 255
  items : ∀ x ∈ r.2.1, x.Every Short
  item : r.2.2.Every Short

theorem ends_setIndexOperands {e : Engine} (h : TuplesShort e) (how : UInt8) :
    Ends Ready (fun _ => True) (setIndexOperands how) SetsIndex e := by
  let params := if UInt8.bit how TupleMask.STACK then 3 else 2
  -- the tuple and the item, once the index is known
  have hitems (n : Nat) (hn : n ≤ 254) : Stays (do
      let item ← var (params - 1)
      let tuple ← if UInt8.bit how TupleMask.QUIET && item.isNull then pure [] else lift item.asTuple
      return (n, tuple, ← var (params - 2))) SetsIndex := by
    refine .bind (stays_var _) fun item hitem => .ite (fun _ => ?_) fun _ => ?_
    · refine .bind (R := fun tuple => tuple = []) (.pure rfl) fun tuple htuple => ?_
      rw [htuple]
      exact .bind (stays_var _) fun x hx => .pure ⟨hn, Nat.zero_le _, nofun, hx⟩
    · exact .bind (stays_asTuple hitem) fun tuple htuple => .bind (stays_var _) fun x hx =>
        .pure ⟨hn, htuple.1, htuple.2, hx⟩
  refine (ends_loadSized h how).bind fun _ t _ _ ht => ?_
  refine (stays_fetchStack params).bind (fun _ _ => .ite (fun _ => ?_) fun _ => ?_) t ht
  · exact stays_length.bind hitems
  · exact (stays_indexVar 0 254).bind hitems

theorem SetsIndex.replaced {n : Nat} {tuple : List StackItem} {item : StackItem}
    (h : SetsIndex (n, tuple, item)) :
    (tuple.set n item).length ≤ 255 ∧ ∀ x ∈ tuple.set n item, x.Every Short := by
  refine ⟨(List.length_set ..).trans_le h.length, fun x hx => ?_⟩
  rcases List.mem_or_eq_of_mem_set hx with hold | rfl
  · exact h.items x hold
  · exact h.item

theorem SetsIndex.extended {n : Nat} {tuple : List StackItem} {item : StackItem}
    (h : SetsIndex (n, tuple, item)) (hlt : ¬n < tuple.length) :
    (tuple ++ List.replicate (n - tuple.length) StackItem.none ++ [item]).length ≤ 255 ∧
      ∀ x ∈ tuple ++ List.replicate (n - tuple.length) StackItem.none ++ [item], x.Every Short := by
  have hn := h.index
  refine ⟨?_, fun x hx => ?_⟩
  · simp only [List.length_append, List.length_replicate, List.length_singleton]
    dsimp only at hn
    omega
  · rcases List.mem_append.1 hx with hx | hx
    · rcases List.mem_append.1 hx with hx | hx
      · exact h.items x hx
      · rw [List.eq_of_mem_replicate hx]
        exact StackItem.every_none.2 trivial
    · rw [List.mem_singleton.1 hx]
      exact h.item

theorem leavesShort_setIndexV2 {e : Engine} (h : TuplesShort e) (how : UInt8) :
    LeavesShort (setIndexV2 how) e := by
  refine (ends_setIndexOperands h how).bind fun r t _ hr ht => ?_
  obtain ⟨n, tuple, item⟩ := r
  refine Maintains.ite (fun _ => ?_) (fun hlt => ?_) t ht
  · exact .bind (stays_useGas _) fun _ _ => stays_pushTuple hr.replaced.1 hr.replaced.2
  · refine .ite (fun _ => .ite (fun _ => ?_) fun _ => ?_) fun _ => .throw trivial
    · exact stays_pushTuple hr.length hr.items
    · exact .bind (stays_useGas _) fun _ _ => stays_pushTuple (hr.extended hlt).1 (hr.extended hlt).2

theorem leavesShort_setIndexV1 {e : Engine} (h : TuplesShort e) (how : UInt8) :
    LeavesShort (setIndexV1 how) e := by
  refine (ends_setIndexOperands h how).bind fun r t _ hr ht => ?_
  obtain ⟨n, tuple, item⟩ := r
  have hpush {items : List StackItem} (hlength : items.length ≤ 255)
      (hitems : ∀ x ∈ items, x.Every Short) : Stays (do
        if !item.isNull then
          useGas (Gas.tupleGasPrice items.length)
        push (.tuple items)) fun _ => True :=
    .ite (fun _ => .bind (stays_useGas _) fun _ _ => stays_pushTuple hlength hitems) fun _ =>
      stays_pushTuple hlength hitems
  refine Maintains.ite (fun _ => ?_) (fun hlt => .ite (fun _ => ?_) fun _ => .throw trivial) t ht
  · exact hpush hr.replaced.1 hr.replaced.2
  · exact hpush (hr.extended hlt).1 (hr.extended hlt).2

theorem leavesShort_setIndex {e : Engine} (h : TuplesShort e) (how : UInt8) :
    LeavesShort (setIndex how) e := by
  unfold LeavesShort Ends setIndex
  rw [exec_bind_get, exec_ite]
  split
  · exact leavesShort_setIndexV2 h how
  · exact leavesShort_setIndexV1 h how

theorem leavesShort_tuplePush {e : Engine} (h : TuplesShort e) : LeavesShort executeTuplePush e := by
  refine (ends_load_none h).bind fun _ t _ _ ht => ?_
  refine (stays_fetchStack 2).bind (fun _ _ => .bind (stays_var 1) fun item hitem =>
    .bind (stays_asTuple hitem) fun tuple htuple => .ite (fun _ => ?_) fun hlength => ?_) t ht
  · exact .bind (R := fun _ => False) (.throw trivial) fun _ h => h.elim
  · refine .bind (stays_var 0) fun x hx => .bind (stays_useGas _) fun _ _ =>
      stays_pushTuple ?_ fun y hy => ?_
    · rw [List.length_append, List.length_singleton]
      omega
    · rcases List.mem_append.1 hy with hy | hy
      · exact htuple.2 y hy
      · rw [List.mem_singleton.1 hy]
        exact hx

theorem leavesShort_tuplePop {e : Engine} (h : TuplesShort e) : LeavesShort executeTuplePop e := by
  refine (ends_load_none h).bind fun _ t _ _ ht => ?_
  refine (stays_fetchStack 1).bind (fun _ _ => .bind (stays_var 0) fun item hitem =>
    .bind (stays_asTuple hitem) fun tuple htuple => ?_) t ht
  split
  · exact .throw trivial
  · rename_i value hlast
    refine .bind (stays_useGas _) fun _ _ => .bind (stays_pushTuple ?_ fun x hx => ?_) fun _ _ =>
      stays_push (htuple.2 value (List.mem_of_getLast? hlast))
    · rw [List.length_dropLast]
      omega
    · exact htuple.2 x (List.mem_of_mem_dropLast hx)

/-! ### Global variables -/

theorem stays_ctrl (index : Nat) : Stays (ctrl index) fun item => item.Every Short := by
  refine .bind .get fun e he => ?_
  split
  · exact .pure (he.ctrls _ _ ‹_›)
  · exact .throw trivial

theorem stays_putCtrl (index : Nat) {item : StackItem} (hitem : item.Every Short) :
    Stays (putCtrl index item) fun _ => True :=
  .bind .get fun _ he => .bind (stays_lift fun _ => SaveListOf.every_put he.ctrls hitem) fun _ hctrls =>
    .modify fun _ h => { h with ctrls := hctrls }

theorem yields_tupleItem {item : StackItem} (hitem : item.Every Short) (index : Nat) (default : Bool) :
    Yields (fun x => x.Every Short) (item.tupleItem index default) := by
  unfold StackItem.tupleItem
  refine .bind (Q := fun items => ∀ x ∈ items, x.Every Short) ?_ fun items hitems => ?_
  · rintro items h
    cases item <;> cases h
    exact ((StackItem.every_tuple items).1 hitem).2
  · split
    · exact .pure (hitems _ (List.mem_of_getElem? ‹_›))
    · exact .ite (fun _ => .pure (StackItem.every_none.2 trivial)) fun _ => .error _

theorem setsGlobal {k : Nat} {c7 : List StackItem} {x : StackItem} (h : SetsIndex (k, c7, x)) :
    (StackItem.tuple (withGlobal c7 k x).1).Every Short := by
  unfold withGlobal
  rw [StackItem.every_tuple]
  split
  · exact h.replaced
  · split
    · exact h.extended ‹_›
    · exact ⟨h.length, h.items⟩

theorem stays_accessGlobal (how : UInt8) (params : Nat) {k : Nat} (hk : k ≤ 254) :
    Stays (accessGlobal how params k) fun _ => True := by
  refine .ite (fun _ => .bind (R := fun c7 => c7.length ≤ 255 ∧ ∀ x ∈ c7, x.Every Short) ?_
    fun c7 hc7 => .bind (stays_var _) fun x hx => ?_) fun _ => ?_
  · exact .bind (stays_ctrl 7) fun _ => stays_asTuple
  · exact .bind (stays_useGas _) fun _ _ =>
      stays_putCtrl 7 (setsGlobal ⟨hk, hc7.1, hc7.2, hx⟩)
  · exact .bind (stays_ctrl 7) fun _ hitem =>
      .bind (stays_lift (yields_tupleItem hitem k true)) fun _ => stays_push

theorem leavesShort_setgetGlobalvar {e : Engine} (h : TuplesShort e) (how : UInt8) :
    LeavesShort (executeSetgetGlobalvar how) e := by
  have hrest (params : Nat) : Stays (do
      fetchStack params
      if UInt8.bit how GlobalMask.STACK then
        accessGlobal how params (← indexVar 0 254)
      else
        accessGlobal how params (← param lengthRaw)) fun _ => True :=
    .bind (stays_fetchStack params) fun _ _ => .ite
      (fun _ => (stays_indexVar 0 254).bind fun _ => stays_accessGlobal how params) fun _ =>
      stays_length.bind fun _ => stays_accessGlobal how params
  unfold executeSetgetGlobalvar
  dsimp only
  split
  · exact (ends_load_length h (.inr rfl)).bind fun _ t _ _ ht => hrest _ t ht
  · exact (ends_load_none h).bind fun _ t _ _ ht => hrest _ t ht

end Engine

/-! ### Decoded items -/

/-- A work item of the decoder whose result will be short. -/
def DeserializeItem.Short : DeserializeItem → Prop
  | .tuple length => length ≤ 255
  | .cont c => c.savelist.Every StackItem.Short
  | _ => True

theorem savelistWork_short (entries : List (SliceData × SliceData)) :
    Yields (fun work => ∀ w ∈ work, w.Short) (savelistWork entries) := by
  induction entries with
  | nil => exact .pure (List.forall_mem_nil _)
  | cons entry entries ih =>
    refine .bind_any fun key => .bind ih fun work hwork => .pure ?_
    exact List.forall_mem_cons.2 ⟨trivial, List.forall_mem_cons.2 ⟨trivial, hwork⟩⟩

theorem ContinuationOf.deserializeInternal_short (slice : SliceData) :
    (ContinuationOf.deserializeInternal slice).All fun r => ∀ w ∈ r.1, w.Short := by
  have hwork (stack : DeserializeItem) (hstack : stack.Short) (savelist : List DeserializeItem)
      (hsavelist : ∀ w ∈ savelist, w.Short) (typeOf : ContinuationType) (nargs : Int)
      (slice : SliceData) : (contWork stack typeOf nargs savelist slice).All
        fun r => ∀ w ∈ r.1, w.Short := by
    refine .bind_any fun r => .bind_any fun r => ?_
    refine List.forall_mem_cons.2 ⟨SaveListOf.every_empty, fun w hw => ?_⟩
    rcases List.mem_append.1 hw with hw | hw
    · exact hsavelist w hw
    · rcases List.mem_pair.1 hw with rfl | rfl
      · trivial
      · exact hstack
  have hrest (stack : DeserializeItem) (hstack : stack.Short) (typeOf : ContinuationType)
      (nargs : Int) (slice : SliceData) :
      (contEnd stack typeOf nargs slice).All fun r => ∀ w ∈ r.1, w.Short := by
    refine .bind_any fun r => .ite (fun _ => .bind_any fun r' => ?_) fun _ => ?_
    · exact .bind (.ofExcept (savelistWork_short _)) fun work hw => .bind_any fun _ =>
        hwork stack hstack work hw typeOf nargs r'.2
    · exact hwork stack hstack [] (List.forall_mem_nil _) typeOf nargs r.2
  unfold ContinuationOf.deserializeInternal
  refine .bind_any fun r => .bind_any fun r' => .bind_any fun r'' => .ite (fun _ => ?_) fun _ => ?_
  · exact .bind_any fun _ => .bind_any fun _ => .bind_any fun _ => hrest (.items _ _) trivial _ _ _
  · exact hrest (.items _ _) trivial _ _ _

theorem StackItem.deserializeInternal_short (hint : ReadsWidth) (slice : SliceData) :
    (StackItem.deserializeInternal slice).All fun r =>
      Sum.elim (fun item => item.Every StackItem.Short) (fun work => ∀ w ∈ work, w.Short) r.1 := by
  unfold StackItem.deserializeInternal
  refine .bind_any fun r => .ite (fun _ => ?_) fun _ => .ite (fun _ => ?_) fun _ => .ite (fun _ => ?_)
    fun _ => .ite (fun _ => ?_) fun _ => .ite (fun _ => ?_) fun _ => .ite (fun _ => ?_) fun _ =>
    .ite (fun _ => ?_) fun _ => trivial
  · exact every_none.2 trivial
  · refine .bind_any fun r => .ite (fun _ => .bind_any fun r => .bind_any fun x => ?_) fun _ =>
      .ite (fun _ => .bind_any fun r => .ite (fun _ => ?_) fun _ => trivial) fun _ => trivial
    · exact (every_integer x).2 trivial
    · exact (every_integer .nan).2 trivial
  · exact .bind_any fun r => (every_cell r.1).2 trivial
  · exact .bind_any fun r => (every_slice r.1).2 trivial
  · exact .bind_any fun r => .bind_any fun b => (every_builder b).2 trivial
  · exact .bind_any fun r => .bind_any fun child =>
      (ContinuationOf.deserializeInternal_short child).bind fun work hwork => hwork
  · refine .bind (.ofExcept (Q := fun r => r.1 < 2 ^ 8) fun r hr => hint _ _ _ _ hr) fun r hr =>
      .bind_any fun r' => .bind_any fun child => ?_
    exact List.forall_mem_cons.2 ⟨Nat.le_of_lt_succ hr, List.forall_mem_singleton.2 trivial⟩

namespace DeserializeState

/-- The items that the decoder holds are short, and those it will make. -/
structure Short (st : DeserializeState) : Prop where
  list : ∀ w ∈ st.list, w.Short
  items : ∀ item ∈ st.items, item.Every StackItem.Short
  itemsStack : ∀ level ∈ st.itemsStack, ∀ item ∈ level.1, item.Every StackItem.Short
  savelistStack : ∀ savelist ∈ st.savelistStack, savelist.Every StackItem.Short

theorem readItems_short (hint : ReadsWidth) (count : Nat) {st : DeserializeState} (h : st.Short) :
    (st.readItems count).All Short := by
  induction count generalizing st with
  | zero => exact h
  | succ count ih =>
    refine .bind (StackItem.deserializeInternal_short hint st.slice) fun r hr => .bind_any fun slice => ?_
    obtain ⟨item | work, rest⟩ := r
    · refine ih { h with items := fun x hx => ?_ }
      rcases List.mem_append.1 hx with hx | hx
      · exact h.items x hx
      · rw [List.mem_singleton.1 hx]
        exact hr
    · refine { h with list := fun w hw => ?_ }
      rcases List.mem_append.1 hw with hw | hw
      · exact hr w (List.mem_reverse.1 hw)
      · exact h.list w hw

theorem Short.leave {st : DeserializeState} (h : st.Short) {item : Option StackItem}
    (hitem : ∀ x, item = some x → x.Every StackItem.Short) : (st.leave item).Short := by
  refine { h with items := fun x hx => ?_, itemsStack := fun l hl => h.itemsStack l (List.mem_of_mem_tail hl) }
  rcases List.mem_append.1 hx with hx | hx
  · cases hlevels : st.itemsStack with
    | nil =>
      rw [hlevels] at hx
      cases hx
    | cons level levels =>
      rw [hlevels] at hx
      exact h.itemsStack level (hlevels ▸ List.mem_cons_self) x hx
  · exact hitem x (Option.mem_toList.1 hx)

theorem step_short {st : DeserializeState} (h : st.Short) {work : DeserializeItem}
    (hwork : work.Short) : Yields Short (st.step work) := by
  cases work with
  | items length slice =>
    exact .pure { h with
      items := nofun
      itemsStack := List.forall_mem_cons.2 ⟨h.items, h.itemsStack⟩ }
  | tuple length =>
    refine .ite (fun _ => .error _) fun hlength => .pure (h.leave ?_)
    rintro _ ⟨⟩
    obtain rfl : length = st.items.length := not_not.1 hlength
    exact (StackItem.every_tuple _).2 ⟨hwork, h.items⟩
  | cont cont =>
    have hpopped : Short { st with savelistStack := st.savelistStack.tail } :=
      { h with savelistStack := fun s hs => h.savelistStack s (List.mem_of_mem_tail hs) }
    refine .pure (hpopped.leave ?_)
    rintro _ ⟨⟩
    refine (StackItem.every_continuation _).2 ⟨trivial, h.items, ?_⟩
    cases hlists : st.savelistStack with
    | nil => exact hwork
    | cons savelist rest => exact h.savelistStack savelist (hlists ▸ List.mem_cons_self)
  | saveListItem index =>
    refine .bind (Q := Short) ?_ fun st' h' => .pure (h'.leave nofun)
    unfold putSavelist
    split
    · rename_i savelist rest item items hlists hitems
      have hput : Yields (SaveListOf.Every StackItem.Short) (SaveList.put savelist index item) :=
        fun _ => SaveListOf.every_put (h.savelistStack savelist (hlists ▸ List.mem_cons_self))
          (h.items item (hitems ▸ List.mem_cons_self))
      refine .bind hput fun savelist' h' => .pure { h with
        savelistStack := List.forall_mem_cons.2 ⟨h', fun s hs => h.savelistStack s ?_⟩ }
      rw [hlists]
      exact List.mem_cons_of_mem _ hs
    · exact .pure h
  | saveList =>
    exact .pure { h with
      savelistStack := List.forall_mem_cons.2 ⟨SaveListOf.every_empty, h.savelistStack⟩ }

end DeserializeState

theorem itemsDeserialize_short (hint : ReadsWidth) (fuel : Nat) {st : DeserializeState}
    (h : st.Short) : (itemsDeserialize fuel st).All fun items =>
      ∀ item ∈ items, item.Every StackItem.Short := by
  induction fuel generalizing st with
  | zero => trivial
  | succ fuel ih =>
    refine .bind (st.readItems_short hint _ h) fun st hst => ?_
    split
    · exact hst.items
    · rename_i work list hlist
      have hwork : work.Short := hst.list work (hlist ▸ List.mem_cons_self)
      have hst' : DeserializeState.Short { st with list } :=
        { hst with list := fun w hw => hst.list w (hlist ▸ List.mem_cons_of_mem _ hw) }
      exact .bind (.ofExcept (DeserializeState.step_short hst' hwork)) fun _ => ih

theorem StackItem.deserialize_short (hint : ReadsWidth) (fuel : Nat) (slice : SliceData) :
    (StackItem.deserialize fuel slice).All fun item => item.Every StackItem.Short := by
  have hstart : DeserializeState.Short { list := [.items 1 slice] } :=
    ⟨List.forall_mem_singleton.2 trivial, nofun, nofun, nofun⟩
  refine .bind (itemsDeserialize_short hint fuel hstart) fun items hitems => ?_
  split
  · exact hitems _ List.mem_cons_self
  · trivial

theorem ContinuationOf.deserialize_short (hint : ReadsWidth) (fuel : Nat) (slice : SliceData) :
    (ContinuationOf.deserialize fuel slice).All fun r => r.1.Every StackItem.Short := by
  refine .bind (ContinuationOf.deserializeInternal_short slice) fun r hr => ?_
  have hstart : DeserializeState.Short { list := r.1.reverse } :=
    ⟨fun w hw => hr w (List.mem_reverse.1 hw), nofun, nofun, nofun⟩
  refine .bind (itemsDeserialize_short hint fuel hstart) fun items hitems => ?_
  split
  · rename_i item items
    have hitem := hitems item List.mem_cons_self
    refine .bind (.ofExcept (Q := fun cont => cont.Every StackItem.Short) ?_) fun _ h => h
    rintro cont hcont
    cases item <;> cases hcont
    exact ((StackItem.every_continuation _).1 hitem).2
  · trivial

/-! ### The old format -/

section Decode

variable {decode : SliceData → Except Failure (DecodedOld StackItem)}
  (hdecode : ∀ slice, Yields (fun r => r.1.Every Short) (decode slice))

include hdecode

theorem tupleTailOld_short (count : Nat) (cell : Cell) :
    Yields (fun r => r.1.length = count ∧ ∀ item ∈ r.1, item.Every Short)
      (tupleTailOld decode count cell) := by
  induction count generalizing cell with
  | zero => exact .pure ⟨rfl, nofun⟩
  | succ count ih =>
    refine .bind_any fun _ => .bind (hdecode _) fun r h => .bind_any fun next =>
      .bind (ih next.1) fun r' h' => .pure ⟨?_, List.forall_mem_cons.2 ⟨h, h'.2⟩⟩
    exact congrArg (· + 1) h'.1

theorem stackTailOld_short (count : Nat) (cell : Cell) :
    Yields (fun r => ∀ item ∈ r.1, item.Every Short) (stackTailOld decode count cell) := by
  induction count generalizing cell with
  | zero => exact .pure nofun
  | succ count ih =>
    exact .bind_any fun _ => .bind (hdecode _) fun r h => .bind (ih _) fun r' h' =>
      .pure (List.forall_mem_cons.2 ⟨h, h'⟩)

theorem entriesOld_short (entries : List (SliceData × SliceData)) {savelist : SaveList}
    (h : savelist.Every Short) :
    Yields (fun r => r.1.Every Short) (entriesOld decode entries savelist) := by
  induction entries generalizing savelist with
  | nil => exact .pure h
  | cons entry entries ih =>
    refine .bind_any fun key => .bind (hdecode _) fun r hr =>
      .bind (Q := SaveListOf.Every Short) (fun _ => SaveListOf.every_put h hr) fun savelist' h' =>
      .bind (ih h') fun _ h'' => .pure h''

theorem savelistOld_short (slice : SliceData) :
    Yields (fun r => r.1.Every Short) (savelistOld decode slice) :=
  .bind_any fun _ => .ite (fun _ => .pure SaveListOf.every_empty) fun _ =>
    .bind (entriesOld_short hdecode _ SaveListOf.every_empty) fun _ h => .bind_any fun _ => .pure h

theorem stackOld_short (slice : SliceData) :
    Yields (fun r => ∀ item ∈ r.1, item.Every Short) (stackOld decode slice) := by
  refine .bind_any fun _ => .ite (fun _ => .pure nofun) fun _ => .bind_any fun r => ?_
  obtain ⟨depth, rest⟩ := r
  cases depth with
  | zero => exact .pure nofun
  | succ depth =>
    exact .bind (hdecode _) fun r h => .bind_any fun _ => .bind (stackTailOld_short hdecode _ _)
      fun _ h' => .pure (List.forall_mem_cons.2 ⟨h, h'⟩)

theorem contOld_short (slice : SliceData) :
    Yields (fun r => r.1.Every Short) (contOld decode slice) :=
  .bind_any fun _ => .bind_any fun _ => .bind (stackOld_short hdecode _) fun _ hstack =>
    .bind (savelistOld_short hdecode _) fun _ hsavelist => .bind_any fun _ => .bind_any fun _ =>
    .pure ⟨hstack, hsavelist⟩

end Decode

theorem StackItem.deserializeOld_short (hint : ReadsWidth) (fuel : Nat) (slice : SliceData) :
    Yields (fun r => r.1.Every Short) (StackItem.deserializeOld fuel slice) := by
  induction fuel generalizing slice with
  | zero => exact .error _
  | succ fuel ih =>
    refine .bind_any fun _ => .ite (fun _ => ?_) fun _ => .ite (fun _ => ?_) fun _ => .ite (fun _ => ?_)
      fun _ => .ite (fun _ => ?_) fun _ => .ite (fun _ => ?_) fun _ => .ite (fun _ => ?_) fun _ =>
      .ite (fun _ => ?_) fun _ => .error _
    · exact .pure (every_none.2 trivial)
    · refine .bind_any fun _ => .ite (fun _ => .bind_any fun _ => .bind_any fun x => ?_) fun _ =>
        .ite (fun _ => .bind_any fun _ => .ite (fun _ => ?_) fun _ => .error _) fun _ => .error _
      · exact .pure ((every_integer x).2 trivial)
      · exact .pure ((every_integer .nan).2 trivial)
    · exact .bind_any fun r => .pure ((every_cell r.1).2 trivial)
    · exact .bind_any fun r => .pure ((every_slice r.1).2 trivial)
    · exact .bind_any fun r => .bind_any fun b => .pure ((every_builder b).2 trivial)
    · exact .bind (contOld_short ih _) fun _ h => .pure ((every_continuation _).2 ⟨trivial, h⟩)
    · refine .bind (Q := fun r => r.1 < 2 ^ 8) (fun r hr => hint _ _ _ _ hr) fun r hr => ?_
      obtain ⟨length, rest⟩ := r
      cases length with
      | zero => exact .bind_any fun _ => .pure ((every_tuple _).2 ⟨Nat.zero_le _, nofun⟩)
      | succ length =>
        refine .bind (ih _) fun r h => .bind_any fun _ => .bind (tupleTailOld_short ih _ _)
          fun r' h' => .pure ((every_tuple _).2 ⟨?_, List.forall_mem_cons.2 ⟨h, h'.2⟩⟩)
        change r'.1.length + 1 ≤ 255
        rw [h'.1]
        exact Nat.le_of_lt_succ hr

/-! ### Sequences of instructions -/

namespace Engine

/-- What the bound is about: the instructions that make tuples, and the decoding of an item or of a
continuation from a slice, in either format, onto the stack. -/
inductive TupleAction where
  | tuple | tuplevar | setindex | setindexq | setindexvar | setindexvarq | tpush | tpop
  | setglob | setglobvar
  | decode (fuel : Nat) (slice : SliceData)
  | decodeOld (fuel : Nat) (slice : SliceData)
  | decodeCont (fuel : Nat) (slice : SliceData)
  | decodeContOld (fuel : Nat) (slice : SliceData)

def TupleAction.run : TupleAction → M Unit
  | tuple => executeTupleCreate
  | tuplevar => executeTupleCreatevar
  | setindex => executeTupleSetindex
  | setindexq => executeTupleSetindexQuiet
  | setindexvar => executeTupleSetindexvar
  | setindexvarq => executeTupleSetindexvarQuiet
  | tpush => executeTuplePush
  | tpop => executeTuplePop
  | setglob => executeSetglob
  | setglobvar => executeSetglobvar
  | decode fuel slice => do push (← runGas (StackItem.deserialize fuel slice))
  | decodeOld fuel slice => do push (← lift (StackItem.deserializeOld fuel slice)).1
  | decodeCont fuel slice => do
    push (.continuation (← runGas (ContinuationOf.deserialize fuel slice)).1)
  | decodeContOld fuel slice => do
    push (.continuation (← lift (ContinuationOf.deserializeOld fuel slice)).1)

/-- The values of an engine, which the loading of cells leaves alone. -/
def values (e : Engine) : ContinuationData × SaveList × InstructionExt := (e.cc, e.ctrls, e.cmd)

instance : Inert values := ⟨fun _ _ _ _ => rfl⟩

theorem tuplesShort_of_values {e t : Engine} (h : TuplesShort e) (ht : t.values = e.values) :
    TuplesShort t := by
  obtain ⟨hcc, hctrls, hcmd⟩ : t.cc = e.cc ∧ t.ctrls = e.ctrls ∧ t.cmd = e.cmd := by
    simpa [values] using ht
  exact ⟨hcc ▸ h.cc, hctrls ▸ h.ctrls, hcmd ▸ h.vars⟩

/-- An item with short tuples is pushed after a computation that leaves the values alone. -/
theorem tuplesShort_push {m : M α} [hleaves : Leaves values m] {f : α → StackItem}
    (hf : ∀ e a t, exec m e = (.ok a, t) → (f a).Every Short) {e : Engine} (h : TuplesShort e) :
    TuplesShort (exec (do push (f (← m))) e).2 := by
  rw [exec_bind]
  rcases hm : exec m e with ⟨r, t⟩
  have ht := tuplesShort_of_values h (hleaves.eq hm)
  cases r with
  | error err => exact ht
  | ok a =>
    refine { ht with cc := ⟨fun x hx => ?_, ht.cc.savelist⟩ }
    rcases List.mem_append.1 hx with hx | hx
    · exact ht.cc.stack x hx
    · rw [List.mem_singleton.1 hx]
      exact hf e a t hm

/-- One action. -/
theorem tuplesShort_run (hint : ReadsWidth) (action : TupleAction) {e : Engine} (h : TuplesShort e) :
    TuplesShort (exec action.run e).2 := by
  cases action with
  | tuple => exact (leavesShort_tuple h _).2.toTuplesShort
  | tuplevar => exact (leavesShort_tuple h _).2.toTuplesShort
  | setindex => exact (leavesShort_setIndex h _).2.toTuplesShort
  | setindexq => exact (leavesShort_setIndex h _).2.toTuplesShort
  | setindexvar => exact (leavesShort_setIndex h _).2.toTuplesShort
  | setindexvarq => exact (leavesShort_setIndex h _).2.toTuplesShort
  | tpush => exact (leavesShort_tuplePush h).2.toTuplesShort
  | tpop => exact (leavesShort_tuplePop h).2.toTuplesShort
  | setglob => exact (leavesShort_setgetGlobalvar h _).2.toTuplesShort
  | setglobvar => exact (leavesShort_setgetGlobalvar h _).2.toTuplesShort
  | decode fuel slice =>
    refine tuplesShort_push (f := fun item => item) (fun e item t hexec => ?_) h
    exact exec_runGas_of_all (StackItem.deserialize_short hint fuel slice) hexec
  | decodeOld fuel slice =>
    refine tuplesShort_push (f := fun r : DecodedOld StackItem => r.1) (fun e r t hexec => ?_) h
    exact StackItem.deserializeOld_short hint fuel slice r (exec_lift_eq_ok hexec).1
  | decodeCont fuel slice =>
    refine tuplesShort_push (f := fun r : ContinuationData × SliceData => .continuation r.1)
      (fun e r t hexec => (StackItem.every_continuation _).2 ⟨trivial, ?_⟩) h
    exact exec_runGas_of_all (ContinuationOf.deserialize_short hint fuel slice) hexec
  | decodeContOld fuel slice =>
    refine tuplesShort_push (f := fun r : DecodedOld ContinuationData => .continuation r.1)
      (fun e r t hexec => (StackItem.every_continuation _).2 ⟨trivial, ?_⟩) h
    exact contOld_short (StackItem.deserializeOld_short hint fuel) slice r (exec_lift_eq_ok hexec).1

/-! ### What the serializers write -/

/-- The second byte that is written, after the tag. -/
def lengthByte [Views] (builder : BuilderData) : Nat :=
  Plain.natOf (((builderBits builder).drop 8).take 8)

/-- The length byte of a tuple is its length in both formats. -/
structure WritesLength [Views] (items : List StackItem) : Prop where
  serializeInternal : (StackItem.serializeInternal (.tuple items)).All fun r =>
    ∃ header work, r = .inr (.tuple header :: work) ∧ lengthByte header = items.length
  serializeOld : Yields (fun r => lengthByte r.1 = items.length) (StackItem.serializeOld (.tuple items))

theorem lengthByte_of_bits [Views] {builder : BuilderData} {tag n : Nat} {rest : List Bool}
    (h : builderBits builder = Plain.bitsOf 8 tag ++ (Plain.bitsOf 8 n ++ rest)) :
    lengthByte builder = n % 2 ^ 8 := by
  rw [lengthByte, h, List.drop_left' (Plain.length_bitsOf 8 _),
    List.take_left' (Plain.length_bitsOf 8 _), Plain.natOf_bitsOf]

theorem writesLength_of_mod [Views] [LawfulViews] {items : List StackItem}
    (h : items.length % 2 ^ 8 = items.length) : WritesLength items where
  serializeInternal := by
    refine .bind (.ofExcept fun _ => builderBits_of_appendBits) fun tagged htagged => ?_
    refine .bind (.ofExcept fun _ => builderBits_of_appendBits) fun header hheader => ?_
    rw [htagged, LawfulViews.builderDefault.1, List.nil_append,
      ← List.append_nil (Plain.bitsOf 8 items.length)] at hheader
    exact ⟨header, _, rfl, (lengthByte_of_bits hheader).trans h⟩
  serializeOld := by
    unfold StackItem.serializeOld
    refine .bind (fun _ => builderBits_of_appendBits) fun tagged htagged => ?_
    refine .bind (fun _ => builderBits_of_appendBits) fun length hlength => .bind_any fun r => ?_
    refine .bind (fun _ => (LawfulViews.appendBuilder _ _).bits _) fun written hwritten => ?_
    refine .bind (fun _ => (LawfulViews.appendBuilder _ _).bits _) fun whole hwhole => .pure ?_
    rw [hlength, LawfulViews.builderDefault.1, List.nil_append] at hwritten
    rw [htagged, LawfulViews.builderDefault.1, List.nil_append, hwritten] at hwhole
    exact (lengthByte_of_bits hwhole).trans h

/-- The state after a sequence of actions, of which some may have failed. -/
def after (e : Engine) : List TupleAction → Engine
  | [] => e
  | action :: actions => (exec action.run e).2.after actions

theorem tuplesShort_after (hint : ReadsWidth) (actions : List TupleAction) {e : Engine}
    (h : TuplesShort e) : TuplesShort (e.after actions) := by
  induction actions generalizing e with
  | nil => exact h
  | cons action actions ih => exact ih (tuplesShort_run hint action h)

/-- No sequence of actions makes a tuple that is too long for its length byte, and both serializers
write the length. -/
theorem tuples_stay_short (hint : ReadsWidth) (e : Engine)
    (h : ∀ items, e.Reaches (.tuple items) → items.length ≤ 255) (actions : List TupleAction) :
    ∀ items, (e.after actions).Reaches (.tuple items) →
      items.length ≤ 255 ∧ items.length % 2 ^ 8 = items.length ∧
        ∀ [Views] [LawfulViews], WritesLength items := by
  intro items hitems
  have hlength := tuplesShort_iff.1 (tuplesShort_after hint actions (tuplesShort_iff.2 h)) items hitems
  have hmod : items.length % 2 ^ 8 = items.length := Nat.mod_eq_of_lt (by omega)
  exact ⟨hlength, hmod, writesLength_of_mod hmod⟩

end Engine

end TonVm

/-! ### With the plain cells -/

namespace TonVm

open ExecLib
open scoped Plain

theorem Plain.Slice.next_length (slice : Plain.Slice) (n : Nat) :
    Yields (fun r : List Bool × Plain.Slice => r.1.length ≤ n) (slice.next n) := by
  unfold Plain.Slice.next
  refine .ite (fun _ => .pure ?_) fun _ => .error _
  rw [List.length_take]
  exact Nat.min_le_left ..

theorem readsWidth_plain : ReadsWidth := by
  intro slice rest n v h
  have hread : Yields (fun r : Nat × SliceData => r.1 < 2 ^ n) (TonTypes.getNextInt slice n) :=
    .bind (Plain.Slice.next_length slice n) fun r hr =>
      .pure ((Plain.natOf_lt r.1).trans_le (Nat.pow_le_pow_right (by decide) hr))
  exact hread _ h

namespace Engine

/-- A state with an empty tuple and a number on the stack. -/
def beforeTpush : Engine :=
  { withCapabilities [] with
    cc := { (withCapabilities []).cc with stack := [.tuple [], .int 5] } }

theorem tuplesShort_beforeTpush : TuplesShort beforeTpush where
  cc := by
    refine ⟨fun x hx => ?_, SaveListOf.every_empty⟩
    have hx' : x = .tuple [] ∨ x = .int 5 := by simpa [beforeTpush] using hx
    rcases hx' with rfl | rfl
    · simp [StackItem.Short]
    · simp [StackItem.int, StackItem.Short]
  ctrls := SaveListOf.every_empty
  vars := List.forall_mem_nil _

theorem reaches_after_tpush : (beforeTpush.after [.tpush]).Reaches (.tuple [.int 5]) := by
  have hstack : (beforeTpush.after [.tpush]).cc.stack = [.tuple [.int 5]] := rfl
  refine .cc (.stack ?_ .self)
  rw [hstack]
  exact List.mem_singleton_self _

theorem tuples_stay_short_tpush :
    (beforeTpush.after [.tpush]).Reaches (.tuple [.int 5]) ∧
      [StackItem.int 5].length ≤ 255 ∧ [StackItem.int 5].length % 2 ^ 8 = [StackItem.int 5].length ∧
        ∀ [Views] [LawfulViews], WritesLength [.int 5] :=
  ⟨reaches_after_tpush,
    tuples_stay_short readsWidth_plain beforeTpush (tuplesShort_iff.1 tuplesShort_beforeTpush)
      [.tpush] _ reaches_after_tpush⟩

end Engine

end TonVm
