import TonVm.Proof.KeepsArithmetic
import TonVm.Executor.Deserialization

/-!
# Decoded items are good

What the decoders return is built from integers that passed the range check and from save lists that
were filled through the type check, so it is good whatever cells it was read from. The old format
reports its cost as a number, which is not negative.
-/

namespace TonVm

open ExecLib

variable [TonTypes] {α β : Type} {p : Policy}

/-! ### The new format -/

/-- The work items that hold a continuation. -/
instance : Sane DeserializeItem where
  good p
    | .cont cont => good p cont
    | _ => True

instance [Sane α] [Sane β] : Sane (α ⊕ β) := ⟨fun p x => Sum.elim (good p) (good p) x⟩

instance : Sane DeserializeState := ⟨fun p st => good p st.list ∧ good p st.items ∧
  good p st.itemsStack ∧ good p st.savelistStack⟩

instance (length : Nat) (slice : SliceData) : Good p (DeserializeItem.items length slice) := ⟨trivial⟩

instance (length : Nat) : Good p (DeserializeItem.tuple length) := ⟨trivial⟩

instance (cont : ContinuationData) [h : Good p cont] : Good p (DeserializeItem.cont cont) := ⟨h.out⟩

instance (index : Nat) : Good p (DeserializeItem.saveListItem index) := ⟨trivial⟩

instance : Good p DeserializeItem.saveList := ⟨trivial⟩

instance [Sane α] [Sane β] (a : α) [h : Good p a] : Good p (Sum.inl a : α ⊕ β) := ⟨h.out⟩

instance [Sane α] [Sane β] (b : β) [h : Good p b] : Good p (Sum.inr b : α ⊕ β) := ⟨h.out⟩

instance (entries : List (SliceData × SliceData)) : Good p (savelistWork entries) := by
  induction entries with
  | nil =>
    unfold savelistWork
    infer_instance
  | cons entry entries ih =>
    unfold savelistWork
    infer_instance

section LongBodies

set_option synthInstance.maxSize 1000000

instance (slice : SliceData) : Good p (ContinuationOf.deserializeInternal slice) := by
  unfold ContinuationOf.deserializeInternal
  infer_instance

instance (slice : SliceData) : Good p (StackItem.deserializeInternal slice) := by
  unfold StackItem.deserializeInternal
  infer_instance

end LongBodies

namespace DeserializeState

theorem good_readItems (count : Nat) {st : DeserializeState} (h : good p st) :
    good p (st.readItems count) := by
  induction count generalizing st with
  | zero => exact h
  | succ count ih =>
    unfold readItems
    refine good_bindGas Good.out fun ⟨item, slice⟩ hitem =>
      good_bindGas Good.out fun slice _ => ?_
    cases item with
    | inl item =>
      exact ih ⟨h.1, (good_append _ _).2 ⟨h.2.1, (good_cons _ _).2 ⟨hitem.1, good_nil⟩⟩, h.2.2⟩
    | inr work =>
      have hwork : Good p work := ⟨hitem.1⟩
      have hlist : Good p st.list := ⟨h.1⟩
      exact ⟨Good.out, h.2⟩

theorem good_leave {st : DeserializeState} {item : Option StackItem} (h : good p st)
    (hitem : good p item) : good p (st.leave item) := by
  have htop : good p (st.itemsStack.head?.getD ([], 0, TonTypes.sliceDefault)) := by
    have : Good p st.itemsStack := ⟨h.2.2.1⟩
    exact Good.out
  refine ⟨h.1, (good_append _ _).2 ⟨htop.1, ?_⟩, ?_, h.2.2.2⟩
  · exact fun a ha => hitem a (Option.mem_toList.1 ha)
  · exact fun a ha => h.2.2.1 a (List.mem_of_mem_tail ha)

theorem good_putSavelist (index : Nat) {st : DeserializeState} (h : good p st) :
    good p (st.putSavelist index) := by
  unfold putSavelist
  split
  · rename_i savelist rest item items hsavelists hitems
    have hs := h.2.2.2
    rw [hsavelists, good_cons] at hs
    have hi := h.2.1
    rw [hitems, good_cons] at hi
    have : Good p savelist := ⟨hs.1⟩
    have : Good p item := ⟨hi.1⟩
    refine good_bind Good.out fun savelist hput => ?_
    rintro _ ⟨⟩
    exact ⟨h.1, h.2.1, h.2.2.1, (good_cons _ _).2 ⟨hput, hs.2⟩⟩
  · rintro _ ⟨⟩
    exact h

theorem good_step {st : DeserializeState} {work : DeserializeItem} (h : good p st)
    (hwork : good p work) : good p (st.step work) := by
  cases work with
  | items length slice =>
    rintro _ ⟨⟩
    exact ⟨h.1, good_nil, (good_cons _ _).2 ⟨⟨h.2.1, trivial, trivial⟩, h.2.2.1⟩, h.2.2.2⟩
  | tuple length =>
    simp only [step]
    split
    · exact Good.out
    · rintro _ ⟨⟩
      exact good_leave h fun _ ha => Option.some.inj ha ▸ (good_tuple _).2 h.2.1
  | cont cont =>
    have hlists : Good p st.savelistStack := ⟨h.2.2.2⟩
    have hsaved : Good p cont.savelist := ⟨((good_cont_iff _).1 hwork).2.1⟩
    rintro _ ⟨⟩
    refine good_leave ⟨h.1, h.2.1, h.2.2.1, fun a ha => h.2.2.2 a (List.mem_of_mem_tail ha)⟩ ?_
    exact fun _ ha => Option.some.inj ha ▸ (good_continuation _).2
      ((good_cont_iff _).2 ⟨((good_cont_iff _).1 hwork).1, Good.out, h.2.1⟩)
  | saveListItem index =>
    refine good_bind (good_putSavelist index h) fun st hst => ?_
    rintro _ ⟨⟩
    exact good_leave hst fun _ ha => by cases ha
  | saveList =>
    rintro _ ⟨⟩
    exact ⟨h.1, h.2.1, h.2.2.1, (good_cons _ _).2 ⟨good_empty, h.2.2.2⟩⟩

end DeserializeState

theorem good_itemsDeserialize (fuel : Nat) {st : DeserializeState} (h : good p st) :
    good p (itemsDeserialize fuel st) := by
  induction fuel generalizing st with
  | zero => trivial
  | succ fuel ih =>
    unfold itemsDeserialize
    refine good_bindGas (st.good_readItems _ h) fun st hst => ?_
    split
    · exact hst.2.1
    · rename_i work list hlist
      have hl := hst.1
      rw [hlist, good_cons] at hl
      have : Good p ({ st with list }.step work) :=
        ⟨DeserializeState.good_step ⟨hl.2, hst.2⟩ hl.1⟩
      exact good_bindGas Good.out fun st hst => ih hst

instance (fuel : Nat) (slice : SliceData) : Good p (ContinuationOf.deserialize fuel slice) := by
  unfold ContinuationOf.deserialize
  refine ⟨good_bindGas Good.out fun ⟨work, slice⟩ hwork => ?_⟩
  have : Good p work := ⟨hwork.1⟩
  have hstart : good p ({ list := work.reverse } : DeserializeState) :=
    ⟨Good.out, good_nil, good_nil, good_nil⟩
  refine good_bindGas (good_itemsDeserialize fuel hstart) fun items hitems => ?_
  split
  · rename_i item items
    have : Good p item := ⟨((good_cons _ _).1 hitems).1⟩
    exact Good.out
  · trivial

/-! ### The cost of the old format -/

mutual

theorem serializeOld_gas : ∀ item : StackItem, Yields (fun r => 0 ≤ r.2) item.serializeOld
  | .none => by
    simp only [StackItem.serializeOld]
    exact .bind_any fun _ => .pure (Int.le_refl 0)
  | .integer data => by
    simp only [StackItem.serializeOld]
    exact .ite (fun _ => .bind_any fun _ => .pure (Int.le_refl 0)) fun _ =>
      .bind_any fun _ => .bind_any fun _ => .bind_any fun _ => .bind_any fun _ => .pure (Int.le_refl 0)
  | .cell data => by
    simp only [StackItem.serializeOld]
    exact .bind_any fun _ => .bind_any fun _ => .pure (Int.le_refl 0)
  | .continuation data => by
    simp only [StackItem.serializeOld]
    exact .bind_any fun _ => .bind (contSerializeOld_gas data) fun _ h => .bind_any fun _ => .pure h
  | .builder data => by
    simp only [StackItem.serializeOld]
    exact .bind_any fun _ => .bind_any fun _ => .bind_any fun _ =>
      .pure (by simp [Gas.finalizePrice])
  | .slice data => by
    simp only [StackItem.serializeOld]
    exact .bind_any fun _ => .bind_any fun _ => .bind_any fun _ => .pure (Int.le_refl 0)
  | .tuple data => by
    simp only [StackItem.serializeOld]
    exact .bind_any fun _ => .bind_any fun _ => .bind (listSerializeOld_gas data) fun _ h =>
      .bind_any fun _ => .bind_any fun _ => .pure h

theorem listSerializeOld_gas : ∀ items : List StackItem,
    Yields (fun r => 0 ≤ r.2) (listSerializeOld items)
  | [] => by
    simp only [listSerializeOld]
    exact .pure (Int.le_refl 0)
  | item :: items => by
    simp only [listSerializeOld]
    refine .bind (listSerializeOld_gas items) fun _ h => .bind (serializeOld_gas item) fun _ h' =>
      .bind_any fun _ => .bind_any fun _ => .bind_any fun _ => .pure ?_
    simp only [Gas.finalizePrice]
    omega

theorem contSerializeOld_gas : ∀ cont : ContinuationOf StackItem,
    Yields (fun r => 0 ≤ r.2) (contSerializeOld cont)
  | ⟨code, nargs, savelist, stack, typeOf⟩ => by
    simp only [contSerializeOld]
    refine .bind_any fun _ => .bind_any fun _ => .bind (listSerializeOld_gas stack) fun r h =>
      .bind_any fun _ => .bind_any fun _ => ?_
    have hrest (b : BuilderData) : Yields (fun r => 0 ≤ r.2) (do
        let (serialized, gas2) ← savelistSerializeOld savelist
        let builder ← TonTypes.appendBuilder b serialized
        let builder ← TonTypes.appendBits builder 0 16
        return (← TonTypes.appendBuilder builder (← sliceSerialize code), r.2 + gas2)) :=
      .bind (savelistSerializeOld_gas savelist) fun _ h' => .bind_any fun _ => .bind_any fun _ =>
        .bind_any fun _ => .bind_any fun _ => .pure (Int.add_nonneg h h')
    split
    · exact .bind_any hrest
    · exact .bind_any fun _ => .bind_any hrest

theorem savelistSerializeOld_gas : ∀ savelist : SaveListOf StackItem,
    Yields (fun r => 0 ≤ r.2) (savelistSerializeOld savelist)
  | ⟨c0, c1, c2, c3, c4, c5, c7⟩ => by
    simp only [savelistSerializeOld]
    refine .bind (entrySerializeOld_gas 0 c0 _ (Int.le_refl 0)) fun _ h =>
      .bind (entrySerializeOld_gas 1 c1 _ h) fun _ h => .bind (entrySerializeOld_gas 2 c2 _ h) fun _ h =>
      .bind (entrySerializeOld_gas 3 c3 _ h) fun _ h => .bind (entrySerializeOld_gas 4 c4 _ h) fun _ h =>
      .bind (entrySerializeOld_gas 5 c5 _ h) fun _ h => .bind (entrySerializeOld_gas 7 c7 _ h) fun r h => ?_
    split
    · exact .bind_any fun _ => .bind_any fun _ => .pure (Int.add_nonneg h (by decide))
    · exact .bind_any fun _ => .pure h

theorem entrySerializeOld_gas (index : Nat) : ∀ (entry : Option StackItem) (acc : HashmapE × Int),
    0 ≤ acc.2 → Yields (fun r => 0 ≤ r.2) (entrySerializeOld index entry acc)
  | none, _, h => by
    simp only [entrySerializeOld]
    exact .pure h
  | some item, (dict, gas), h => by
    simp only [entrySerializeOld]
    exact .bind_any fun _ => .bind_any fun _ => .bind (serializeOld_gas item) fun _ h' =>
      .bind_any fun _ => .pure (Int.add_nonneg h h')

end

/-- A decoded value that is good, at a cost that is not negative. -/
def GoodDecoded (p : Policy) [Sane α] (r : DecodedOld α) : Prop := good p r.1 ∧ 0 ≤ r.2.1

theorem contTypeOld_gas (slice : SliceData) :
    Yields (fun r => 0 ≤ r.2.1) (ContinuationType.deserializeOld slice) := by
  unfold ContinuationType.deserializeOld
  refine .bind_any fun r => .ite (fun _ => .pure (Int.le_refl 0)) fun _ => .ite
    (fun _ => .bind (Q := fun _ => False) (.error _) fun _ h => h.elim) fun _ =>
    .bind_any fun r => ?_
  dsimp only
  split
  all_goals repeat refine .bind_any fun _ => ?_
  all_goals first
    | exact .error _
    | exact .pure (Int.le_refl 0)
    | exact .pure (by simp [Gas.loadCellPrice])

section Decode

variable {decode : SliceData → Except Failure (DecodedOld StackItem)}
  (hdecode : ∀ slice, Yields (GoodDecoded p) (decode slice))

include hdecode

theorem good_tupleTailOld (count : Nat) (cell : Cell) :
    Yields (fun r => good p r.1 ∧ 0 ≤ r.2) (tupleTailOld decode count cell) := by
  induction count generalizing cell with
  | zero => exact .pure ⟨good_nil, Int.le_refl 0⟩
  | succ count ih =>
    unfold tupleTailOld
    refine .bind_any fun _ => .bind (hdecode _) fun r h => .bind_any fun next =>
      .bind (ih next.1) fun r' h' => .pure ⟨(good_cons _ _).2 ⟨h.1, h'.1⟩, ?_⟩
    exact Int.add_nonneg (Int.add_nonneg (by decide) h.2) h'.2

theorem good_stackTailOld (count : Nat) (cell : Cell) :
    Yields (fun r => good p r.1 ∧ 0 ≤ r.2) (stackTailOld decode count cell) := by
  induction count generalizing cell with
  | zero => exact .pure ⟨good_nil, Int.le_refl 0⟩
  | succ count ih =>
    unfold stackTailOld
    exact .bind_any fun _ => .bind (hdecode _) fun r h => .bind (ih _) fun r' h' =>
      .pure ⟨(good_cons _ _).2 ⟨h.1, h'.1⟩, Int.add_nonneg h.2 h'.2⟩

theorem good_entriesOld (entries : List (SliceData × SliceData)) {savelist : SaveList}
    (hsavelist : good p savelist) :
    Yields (fun r => good p r.1 ∧ 0 ≤ r.2) (entriesOld decode entries savelist) := by
  induction entries generalizing savelist with
  | nil => exact .pure ⟨hsavelist, Int.le_refl 0⟩
  | cons entry entries ih =>
    unfold entriesOld
    refine .bind_any fun key => .bind (hdecode _) fun r h => .bind (Q := good p) ?_ fun _ h' =>
      .bind (ih h') fun r' h' => .pure ⟨h'.1, Int.add_nonneg h.2 h'.2⟩
    exact fun _ => good_put hsavelist h.1

theorem good_savelistOld (slice : SliceData) :
    Yields (GoodDecoded p) (savelistOld decode slice) := by
  unfold savelistOld
  refine .bind_any fun r => .ite (fun _ => .pure ⟨good_empty, Int.le_refl 0⟩) fun _ =>
    .bind (good_entriesOld hdecode _ good_empty) fun r h => .bind_any fun _ =>
    .pure ⟨h.1, Int.add_nonneg (by decide) h.2⟩

theorem good_stackOld (slice : SliceData) : Yields (GoodDecoded p) (stackOld decode slice) := by
  unfold stackOld
  refine .bind_any fun r => .ite (fun _ => .pure ⟨good_nil, Int.le_refl 0⟩) fun _ =>
    .bind_any fun r => ?_
  split
  split
  · exact .pure ⟨good_nil, Int.le_refl 0⟩
  · exact .bind (hdecode _) fun r h => .bind_any fun _ =>
      .bind (good_stackTailOld hdecode _ _) fun r' h' =>
      .pure ⟨(good_cons _ _).2 ⟨h.1, h'.1⟩, Int.add_nonneg h.2 h'.2⟩

theorem good_contOld (slice : SliceData) : Yields (GoodDecoded p) (contOld decode slice) := by
  unfold contOld
  refine .bind (contTypeOld_gas slice) fun r h => .bind_any fun _ =>
    .bind (good_stackOld hdecode _) fun r' h' => .bind (good_savelistOld hdecode _) fun r'' h'' =>
    .bind_any fun _ => .bind_any fun _ => .pure ⟨(good_cont_iff _).2 ⟨HasArity.out, h''.1, h'.1⟩, ?_⟩
  exact Int.add_nonneg (Int.add_nonneg (Int.add_nonneg h h'.2) h''.2) (by decide)

end Decode

theorem good_deserializeOld (fuel : Nat) (slice : SliceData) :
    Yields (GoodDecoded p) (StackItem.deserializeOld fuel slice) := by
  induction fuel generalizing slice with
  | zero => exact .error _
  | succ fuel ih =>
    have hplain {item : StackItem} [h : Good p item] {gas : Int} (hgas : 0 ≤ gas)
        (rest : SliceData) : Yields (GoodDecoded p) (.ok (item, gas, rest) : Except Failure _) :=
      .pure ⟨h.out, hgas⟩
    unfold StackItem.deserializeOld
    refine .bind_any fun _ => .ite (fun _ => hplain (Int.le_refl 0) _) fun _ => .ite (fun _ => ?_)
      fun _ => .ite (fun _ => .bind_any fun _ => hplain (Int.le_refl 0) _) fun _ => .ite
      (fun _ => .bind_any fun _ => hplain (by decide) _) fun _ => .ite
      (fun _ => .bind_any fun _ => .bind_any fun _ => hplain (Int.le_refl 0) _) fun _ => .ite
      (fun _ => .bind (good_contOld ih _) fun _ h => .pure h) fun _ => .ite
      (fun _ => .bind_any fun _ => ?_) fun _ => .error _
    · refine .bind_any fun _ => .ite (fun _ => .bind_any fun _ => ?_) fun _ => .ite
        (fun _ => .bind_any fun _ => .ite (fun _ => hplain (Int.le_refl 0) _) fun _ => .error _)
        fun _ => .error _
      exact .bind (show good p (Encoding.deserialize _ _ _) from Good.out) fun x hx =>
        .pure ⟨(good_integer x).2 hx, Int.le_refl 0⟩
    · dsimp only
      split
      · exact .bind_any fun _ => hplain (Int.le_refl 0) _
      · exact .bind (ih _) fun _ h => .bind_any fun _ => .bind (good_tupleTailOld ih _ _) fun _ h' =>
          .pure ⟨(good_tuple _).2 ((good_cons _ _).2 ⟨h.1, h'.1⟩), Int.add_nonneg h.2 h'.2⟩

namespace Engine

set_option synthInstance.maxSize 1000000 in
instance (index : Nat) (x : Except Failure BuilderData) (quiet finalize : Bool) :
    Keeps p (storeData index x quiet finalize) := by
  unfold storeData
  cases x <;> infer_instance

instance (amount : { amount : Int // 0 ≤ amount }) : NonnegCharge amount.1 := ⟨amount.2⟩

/-- The cost of the old encoder is charged after it. -/
instance (priority := high) [Sane α] (cont : ContinuationData) (f : BuilderData × Int → M α)
    [hf : ∀ (b : BuilderData) (gas : { gas : Int // 0 ≤ gas }), Keeps p (f (b, gas.1))] :
    Keeps p (lift cont.serializeOld >>= f) :=
  ⟨.bind (maintains_lift (contSerializeOld_gas cont) fun _ => Good.out) fun r h =>
    (hf r.1 ⟨r.2, h⟩).out⟩

/-- The cost of the old decoder is charged after it. -/
instance (priority := high) [Sane α] (fuel : Nat) (slice : SliceData)
    (f : DecodedOld ContinuationData → M α)
    [hf : ∀ (cont : { cont : ContinuationData // good p cont }) (gas : { gas : Int // 0 ≤ gas })
      (slice : SliceData), Keeps p (f (cont.1, gas.1, slice))] :
    Keeps p (lift (ContinuationOf.deserializeOld fuel slice) >>= f) :=
  ⟨.bind (maintains_lift (good_contOld (p := p) (good_deserializeOld fuel) slice) fun _ => Good.out)
    fun r h => (hf ⟨r.1, h.1⟩ ⟨r.2.1, h.2⟩ r.2.2).out⟩

end Engine

end TonVm
