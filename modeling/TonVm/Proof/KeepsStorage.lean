import TonVm.Proof.Keeps
import TonVm.Proof.EngineExec
import TonVm.Proof.GasComputations
import TonVm.Executor.Continuation

/-!
# Cells, operands and microcode keep the engine good

Loading cells and decoding operands change no item. The microcode moves items between places: a
register or a save list only receives what its type check lets through, and a continuation that is
written back to a register was in that register before.
-/

namespace TonVm

open ExecLib

variable {α β : Type}

/-! ### Computations through a gas consumer -/

variable [TonTypes] {p : Policy}

section GasM

variable [Sane α] [Sane β]

instance : Sane (GasM α) := ⟨fun p m => m.All (good p)⟩

instance [Plain α] : Plain (GasM α) := by
  refine ⟨fun p m => ?_⟩
  induction m with
  | pure a => exact Plain.out p a
  | fail err => trivial
  | finalizeCell builder next ih => exact ih
  | loadCell cell next ih => exact ih

instance (a : α) [h : Good p a] : Good p (pure a : GasM α) := ⟨h.out⟩

theorem good_bindGas {m : GasM α} {f : α → GasM β} (hm : good p m)
    (hf : ∀ a, good p a → good p (f a)) : good p (m >>= f) :=
  GasMOf.All.bind hm hf

instance (m : GasM α) (f : α → GasM β) [h : Good p m]
    [hf : ∀ a : { a : α // good p a }, Good p (f a.1)] : Good p (m >>= f) :=
  ⟨good_bindGas h.out fun a ha => (hf ⟨a, ha⟩).out⟩

instance (priority := high) {γ : Type} [Sane γ] (m : GasM (α × β)) (f : α × β → GasM γ)
    [h : Good p m]
    [hf : ∀ (a : { a : α // good p a }) (b : { b : β // good p b }), Good p (f (a.1, b.1))] :
    Good p (m >>= f) :=
  ⟨good_bindGas h.out fun ab h => (hf ⟨ab.1, h.1⟩ ⟨ab.2, h.2⟩).out⟩

instance (err : Failure) : Good p (GasMOf.fail err : GasM α) := ⟨trivial⟩

instance (x : Except Failure α) [h : Good p x] : Good p (liftM x : GasM α) := by
  cases x with
  | ok a => exact ⟨h.out a rfl⟩
  | error err => exact ⟨trivial⟩

end GasM

namespace Engine

/-! ### Cells -/

instance (builder : BuilderData) : Keeps p (finalizeCell builder) := by
  unfold finalizeCell
  refine ⟨.bind Keeps.out fun _ _ => ?_⟩
  split
  · exact .pure trivial
  · exact Keeps.out

theorem keeps_runGasWith [Sane α] {load : Cell → M SliceData} (hload : ∀ cell, Keeps p (load cell))
    (m : GasM α) (hm : good p m) : Keeps p (runGasWith load m) := by
  induction m with
  | pure a => exact ⟨.pure hm⟩
  | fail err => exact ⟨.throw Good.out⟩
  | finalizeCell builder next ih => exact ⟨.bind Keeps.out fun cell _ => (ih cell (hm cell)).out⟩
  | loadCell cell next ih => exact ⟨.bind (hload cell).out fun slice _ => (ih slice (hm slice)).out⟩

theorem keeps_findLibrary {load : Cell → M SliceData} (hload : ∀ cell, Keeps p (load cell))
    (hash : SliceData) (libraries : List HashmapE) : Keeps p (findLibrary load hash libraries) := by
  induction libraries with
  | nil =>
    unfold findLibrary
    infer_instance
  | cons library libraries ih =>
    have := keeps_runGasWith hload (TonTypes.getWithGas library hash) (Plain.out p _)
    unfold findLibrary
    infer_instance

set_option synthInstance.maxSize 1000000 in
theorem keeps_resolveExotic {load : Cell → M SliceData} (hload : ∀ cell, Keeps p (load cell))
    (cell : Cell) : Keeps p (resolveExotic load cell) := by
  have (c : Cell) : Keeps p (loadLibraryCell load c) := by
    have := keeps_findLibrary hload
    unfold loadLibraryCell
    infer_instance
  unfold resolveExotic
  split <;> infer_instance

instance (slice : SliceData) (previousHashes : List UInt256) :
    Keeps p (loadHashedCellLoop.finish slice previousHashes) := by
  unfold loadHashedCellLoop.finish
  infer_instance

theorem keeps_loadHashedCellLoop (fuel : Nat) (cell : Cell) (resolveSpecial : Bool)
    (previousHashes : List UInt256) :
    Keeps p (loadHashedCellLoop (throw .panic) fuel cell resolveSpecial previousHashes) := by
  induction fuel generalizing cell resolveSpecial previousHashes with
  | zero =>
    unfold loadHashedCellLoop
    infer_instance
  | succ fuel ih =>
    have := keeps_resolveExotic (p := p) (fun c => ih c true []) cell
    unfold loadHashedCellLoop
    refine ⟨.ite (fun _ => Keeps.out) fun _ => .bind .get fun e _ => ?_⟩
    split <;> exact Keeps.out

instance (cell : Cell) (resolveSpecial : Bool) : Keeps p (loadHashedCell cell resolveSpecial) := by
  have := fun fuel => keeps_loadHashedCellLoop (p := p) fuel cell resolveSpecial []
  unfold loadHashedCell
  infer_instance

instance (cell : Cell) : Keeps p (loadCell cell) := by
  unfold loadCell
  infer_instance

instance (builder : BuilderData) : Keeps p (finalizeCellAndLoad builder) := by
  unfold finalizeCellAndLoad
  infer_instance

instance [Sane α] (m : GasM α) [h : Good p m] : Keeps p (runGas m) :=
  keeps_runGasWith inferInstance m h.out

/-! ### Operands -/

instance : Keeps p nextCmd := by
  unfold nextCmd
  refine ⟨.bind .get fun e _ => ?_⟩
  split <;> exact Keeps.out

instance : Keeps p cmdCodeSlice := by
  unfold cmdCodeSlice
  infer_instance

instance (n : Nat) : Keeps p (basicUseGas n) := by
  unfold basicUseGas
  infer_instance

instance (slice : SliceData) (n : Nat) : Keeps p (readCount slice n) := by
  unfold readCount
  infer_instance

section LongBodies

set_option synthInstance.maxSize 1000000

instance (offset r x refs bytes : Nat) : Keeps p (extractSlice offset r x refs bytes) := by
  unfold extractSlice
  infer_instance

instance (start stop : Int) : Keeps p (extractInteger start stop) := by
  unfold extractInteger
  infer_instance

end LongBodies

instance (start stop : Nat) : Keeps p (extractLength start stop) := by
  unfold extractLength
  infer_instance

instance (start stop : Nat) : Keeps p (extractLengthMinusOne start stop) := by
  unfold extractLengthMinusOne
  infer_instance

instance (start stop : Nat) : Keeps p (extractNibble start stop) := by
  unfold extractNibble
  infer_instance

instance (start stop : Nat) : Keeps p (extractStackRegister start stop) := by
  unfold extractStackRegister
  infer_instance

instance (place : WhereToGetParams) : Keeps p (extractRegisterPair place) := by
  unfold extractRegisterPair
  split <;> infer_instance

instance (place : WhereToGetParams) : Keeps p (extractRegisterTrio place) := by
  unfold extractRegisterTrio
  refine ⟨.bind .get fun e _ => ?_⟩
  split <;> exact Keeps.out

/-- Reading a long literal keeps what reading a byte keeps. -/
theorem maintains_fromBigEndianOctetStream {I : Engine → Prop} {E : Error → Prop} {byte : M UInt8}
    (h : Maintains I E byte fun _ => True) :
    Maintains I E (IntegerData.fromBigEndianOctetStream byte) fun _ => True := by
  have hbytes (n : Nat) (digit : UInt32) :
      Maintains I E (IntegerData.readBytes byte n digit) fun _ => True := by
    induction n generalizing digit with
    | zero => exact .pure trivial
    | succ n ih => exact .bind h fun _ _ => ih _
  have hdigits (n : Nat) (digits : List UInt32) :
      Maintains I E (IntegerData.readDigits byte n digits) fun _ => True := by
    induction n generalizing digits with
    | zero => exact .pure trivial
    | succ n ih => exact .bind (hbytes 4 0) fun _ _ => ih _
  unfold IntegerData.fromBigEndianOctetStream
  exact .bind h fun _ _ => .bind (hbytes _ _) fun _ _ => .bind (hdigits _ _) fun _ _ => .pure trivial

instance (opts : Option InstructionOptions) : Keeps p (extractInstruction opts) := by
  unfold extractInstruction
  split
  case h_3 =>
    refine ⟨.after fun _ _ => ?_⟩
    exact .bind (maintains_fromBigEndianOctetStream (.mono Keeps.out fun _ _ => trivial))
      fun _ _ => Keeps.out
  all_goals infer_instance

instance (opts : Option InstructionOptions) : Keeps p (loadInstruction opts) := by
  unfold loadInstruction
  infer_instance

/-! ### Continuations by address -/

/-- An address of a register that may hold continuations, or of no register. -/
class HoldsContinuation (p : Policy) (address : Nat) : Prop where
  out : p.typed → Place.of address = .ctrl →
    ∀ cont, SaveList.canPut (Addr.storageIndex address) (.continuation cont) = true

/-- An address from which a continuation is read holds continuations. -/
theorem maintains_continuationByAddress (address : Nat) :
    Maintains (good p) (good p) (continuationByAddress address)
      fun cont => good p cont ∧ HoldsContinuation p address := by
  unfold continuationByAddress
  split
  · rename_i hplace
    have h : ¬Place.of address = .ctrl := by simp [hplace]
    refine .after fun item hitem => ?_
    have : Good p item := ⟨hitem⟩
    exact .mono (R := good p) Keeps.out fun cont hcont => ⟨hcont, ⟨fun _ hctrl => absurd hctrl h⟩⟩
  · refine .bind .get fun e he => ?_
    split
    · rename_i item hitem
      cases item with
      | continuation cont =>
        refine .pure ⟨(good_continuation cont).1 (good_get he.ctrls hitem), ⟨fun ht _ cont' => ?_⟩⟩
        exact canPut_of_continuation he.ctrls hitem cont' ht
      | _ => exact .throw Good.out
    · exact .throw Good.out
  · exact .throw trivial

instance (address : Nat) : Keeps p (continuationByAddress address) :=
  ⟨(maintains_continuationByAddress address).mono fun _ h => h.1⟩

instance (address : Nat) (cont : ContinuationData) [haddress : HoldsContinuation p address]
    [hcont : Good p cont] : Keeps p (setContinuationByAddress address cont) := by
  unfold setContinuationByAddress
  split
  · infer_instance
  · rename_i hplace
    refine ⟨(Maintains.modify fun e he => ?_).mono fun _ h => h⟩
    have := goodCtrls_putOpt (p := p) ⟨he.ctrls, he.roots⟩ ((good_continuation cont).2 hcont.out)
      fun ht => haddress.out ht hplace cont
    exact { he with ctrls := this.list, roots := this.roots }
  · infer_instance

instance (address : Nat) (nargs : Int) [HasArity p nargs] :
    Keeps p (setNargsByAddress address nargs) := by
  unfold setNargsByAddress
  refine ⟨.bind (maintains_continuationByAddress address) fun cont hcont => ?_⟩
  have : Good p cont := ⟨hcont.1⟩
  have := hcont.2
  exact Keeps.out

/-! ### Passing the stack -/

instance (dst start stop : Nat) : Keeps p (moveStackFromCc dst start stop) := by
  unfold moveStackFromCc
  refine ⟨.bind (maintains_continuationByAddress dst) fun peer hpeer => ?_⟩
  have : Good p peer := ⟨hpeer.1⟩
  have := hpeer.2
  refine .ite (fun _ => .ite (fun _ => Keeps.out) fun hsave => ?_) fun _ => Keeps.out
  have : HasArity p (peer.nargs - (stop - start : Nat)) := ⟨fun _ => by omega⟩
  exact Keeps.out

instance (start stop dst : Nat) : Keeps p (popRange start stop dst) := by
  unfold popRange
  infer_instance

instance (dst : Nat) : Keeps p (popAll dst) := by
  unfold popAll
  refine ⟨.after fun cont _ => .bind .get fun e _ => .bind .get fun e' _ => ?_⟩
  dsimp only
  split
  · exact Keeps.out
  · split <;> exact Keeps.out

instance : Keeps p applySavelist := by
  unfold applySavelist
  infer_instance

instance : Keeps p applySavelistExcludingC0C1 := by
  unfold applySavelistExcludingC0C1
  infer_instance

instance (src : Nat) : Keeps p (copyToVar src) := by
  unfold copyToVar
  split <;> infer_instance

instance : Keeps p fetchReference := by
  unfold fetchReference
  refine ⟨.bind .get fun e _ => ?_⟩
  split <;> exact Keeps.out

instance (depth : Nat) : Keeps p (fetchStack depth) := by
  unfold fetchStack
  infer_instance

set_option synthInstance.maxSize 1000000 in
instance (x : Nat) (target origin : DataTag) : Keeps p (convert x target origin) := by
  unfold convert
  refine ⟨.bind .get fun e _ => ?_⟩
  cases origin <;> cases target <;> exact Keeps.out

/-! ### Swaps -/

/-- A list to be stored at an address: where that is the registers, c4 and c5 are in place. -/
class GoodListFor (p : Policy) (flags : Nat) (list : SaveList) : Prop where
  out : good p list
  roots : Place.of flags = .ctrl → p.typed → list.c4.isSome ∧ list.c5.isSome

theorem maintains_listAt (flags : Nat) :
    Maintains (good p) (good p) (listAt flags) (GoodListFor p flags) := by
  unfold listAt
  split
  · rename_i hplace
    refine .bind .get fun e he => .pure ⟨((good_cont_iff _).1 he.cc).2.1, fun h => ?_⟩
    simp [hplace] at h
  · exact .bind .get fun e he => .pure ⟨he.ctrls, fun _ => he.roots⟩
  · rename_i hplace
    refine .bind .get fun e he => ?_
    split
    · rename_i item hitem
      have : Good p item := ⟨good_get he.ctrls hitem⟩
      refine .after fun cont hcont => .pure ⟨((good_cont_iff _).1 hcont).2.1, ?_⟩
      simp [hplace]
    · exact .throw trivial
  · rename_i hplace
    refine .after fun item hitem => ?_
    have : Good p item := ⟨hitem⟩
    refine .after fun cont hcont => .pure ⟨((good_cont_iff _).1 hcont).2.1, ?_⟩
    simp [hplace]
  · exact .throw trivial

instance (flags : Nat) : Keeps p (listAt flags) :=
  ⟨(maintains_listAt flags).mono fun _ h => h.out⟩

instance (flags : Nat) (list : SaveList) [hlist : GoodListFor p flags list] :
    Keeps p (setListAt flags list) := by
  have : Good p list := ⟨hlist.out⟩
  unfold setListAt
  split
  · infer_instance
  · rename_i hplace
    have : GoodCtrls p list := ⟨hlist.out, hlist.roots hplace⟩
    infer_instance
  · refine ⟨.bind .get fun e he => ?_⟩
    split
    · rename_i item hitem
      cases item with
      | continuation cont =>
        have hcont := (good_cont_iff _).1 ((good_continuation cont).1 (good_get he.ctrls hitem))
        have hnew : good p ({ cont with savelist := list } : ContinuationData) :=
          (good_cont_iff _).2 ⟨hcont.1, hlist.out, hcont.2.2⟩
        have hput := canPut_of_continuation he.ctrls hitem
        rw [show lift (StackItem.continuation cont).asContinuation = pure cont from rfl, pure_bind]
        refine (Maintains.modify fun e' he' => ?_).mono fun _ h => h
        have := goodCtrls_putOpt (p := p) ⟨he'.ctrls, he'.roots⟩ ((good_continuation _).2 hnew) (hput _)
        exact { he' with ctrls := this.list, roots := this.roots }
      | _ => exact .bind (R := fun _ => False) (.throw Good.out) fun _ h => h.elim
    · exact .throw trivial
  · infer_instance
  · infer_instance

instance (flags : Nat) (item : StackItem) [hitem : Good p item] : Keeps p (putToList flags item) := by
  unfold putToList
  refine ⟨.bind (maintains_listAt flags) fun list hlist => ?_⟩
  unfold SaveList.put
  split
  · rename_i hcan
    have : GoodListFor p flags (list.putOpt (listIndex flags) item) :=
      ⟨good_putOpt hlist.out hitem.out fun _ => hcan,
        fun hplace ht => roots_putOpt _ _ (hlist.roots hplace ht)⟩
    have : Good p list := ⟨hlist.out⟩
    rw [show lift (.ok (list.putOpt (listIndex flags) item)) =
      (pure (list.putOpt (listIndex flags) item) : M SaveList) from rfl, pure_bind]
    exact Keeps.out
  · exact .bind (R := fun _ => False) (.throw Good.out) fun _ h => h.elim

instance (x y : Nat) : Keeps p (putToListFromItem x y) := by
  unfold putToListFromItem
  infer_instance

instance (x y : Nat) : Keeps p (swapWithList x y) := by
  unfold swapWithList
  infer_instance

/-- An address that is not that of c4 or c5. -/
class NoRoot (address : Nat) : Prop where
  out : Place.of address = .ctrl →
    Addr.storageIndex address ≠ 4 ∧ Addr.storageIndex address ≠ 5

theorem roots_remove {list : SaveList} {index : Nat} (hindex : index ≠ 4 ∧ index ≠ 5)
    (h : list.c4.isSome ∧ list.c5.isSome) :
    (list.remove index).c4.isSome ∧ (list.remove index).c5.isSome := by
  match index with
  | 0 | 1 | 2 | 3 | 6 | 7 => exact h
  | 4 => exact absurd rfl hindex.1
  | 5 => exact absurd rfl hindex.2
  | n + 8 => exact h

instance (x y : Nat) [hy : NoRoot y] : Keeps p (putToListFromList x y) := by
  unfold putToListFromList
  refine ⟨.after fun _ _ => .bind (maintains_listAt y) fun list hlist => ?_⟩
  split
  · rename_i item hitem
    have : Good p item := ⟨good_get hlist.out hitem⟩
    have : GoodListFor p y (list.remove (listIndex y)) := by
      refine ⟨good_remove hlist.out _, fun hplace ht => roots_remove ?_ (hlist.roots hplace ht)⟩
      simpa [listIndex, hplace] using hy.out hplace
    exact Keeps.out
  · exact Keeps.out

instance (x y : Nat) [NoRoot x] [NoRoot y] : Keeps p (swapBetweenLists x y) := by
  unfold swapBetweenLists
  infer_instance

/-- An address of another place than the current continuation. -/
class NotCc (address : Nat) : Prop where
  out : Place.of address ≠ .cc

/-- A swap that cannot leave c4 or c5 empty: one side is a variable, or neither side is one of the
two registers. -/
class SafeSwap (x y : Nat) : Prop where
  out : Place.of x = .var ∨ Place.of y = .var ∨ (NoRoot x ∧ NoRoot y)

omit [TonTypes] in
theorem SafeSwap.symm {x y : Nat} (h : SafeSwap x y) : SafeSwap y x :=
  ⟨h.out.elim (fun h => .inr (.inl h)) fun h =>
    h.elim .inl fun h => .inr (.inr ⟨h.2, h.1⟩)⟩

theorem keeps_swapOrdered {x y : Nat} (h : SafeSwap x y) (hx : NotCc x) : Keeps p (swapOrdered x y) := by
  unfold swapOrdered
  split
  · exact absurd ‹_› hx.out
  · exact absurd ‹_› hx.out
  · infer_instance
  · infer_instance
  · infer_instance
  · rename_i hx hy _ _ _
    rcases h.out with h | h | ⟨h, h'⟩
    · exact (hx h).elim
    · exact (hy h).elim
    · infer_instance

instance (x y : Nat) [h : SafeSwap x y] [hx : NotCc x] [hy : NotCc y] : Keeps p (swap x y) := by
  have := keeps_swapOrdered (p := p) h hx
  have := keeps_swapOrdered (p := p) h.symm hy
  unfold swap
  infer_instance

/-! ### Addresses -/

section Addresses

omit [TonTypes]

theorem addressTag_of_ctrl {code : Nat} (h : Place.of code = .ctrl) :
    Addr.addressTag code = 0x0100 := by
  unfold Place.of at h
  split at h <;> simp_all

theorem addressTag_of_cc {code : Nat} (h : Place.of code = .cc) : Addr.addressTag code = 0 := by
  unfold Place.of at h
  split at h <;> simp_all

theorem testBit_addressTag_var (n : Nat) : (Addr.addressTag (Addr.var n)).testBit 9 = true := by
  have h300 : Nat.testBit 0x0300 9 = true := by decide
  have hF00 : Nat.testBit 0x0F00 9 = true := by decide
  simp [Addr.addressTag, Addr.var, Addr.VAR, Nat.testBit_and, Nat.testBit_or, h300, hF00]

theorem testBit_addressTag_savelist (storage index : Nat) :
    (Addr.addressTag (Addr.savelist storage index)).testBit 11 = true := by
  have h800 : Nat.testBit 0x0800 11 = true := by decide
  have hF00 : Nat.testBit 0x0F00 11 = true := by decide
  simp [Addr.addressTag, Addr.savelist, Addr.SAVELIST, Nat.testBit_and, Nat.testBit_or, h800, hF00]

instance (n : Nat) : NoRoot (Addr.var n) := by
  refine ⟨fun h => ?_⟩
  have hbit := testBit_addressTag_var n
  rw [addressTag_of_ctrl h] at hbit
  exact absurd hbit (by decide)

instance (storage index : Nat) : NoRoot (Addr.savelist storage index) := by
  refine ⟨fun h => ?_⟩
  have hbit := testBit_addressTag_savelist storage index
  rw [addressTag_of_ctrl h] at hbit
  exact absurd hbit (by decide)

instance (n : Nat) : NotCc (Addr.var n) := by
  refine ⟨fun h => ?_⟩
  have hbit := testBit_addressTag_var n
  rw [addressTag_of_cc h] at hbit
  exact absurd hbit (by decide)

instance (storage index : Nat) : NotCc (Addr.savelist storage index) := by
  refine ⟨fun h => ?_⟩
  have hbit := testBit_addressTag_savelist storage index
  rw [addressTag_of_cc h] at hbit
  exact absurd hbit (by decide)

instance (index : Nat) : NotCc (Addr.ctrl index) := by
  refine ⟨fun h => ?_⟩
  have h100 : Nat.testBit 0x0100 8 = true := by decide
  have hF00 : Nat.testBit 0x0F00 8 = true := by decide
  have hbit : (Addr.addressTag (Addr.ctrl index)).testBit 8 = true := by
    simp [Addr.addressTag, Addr.ctrl, Addr.CTRL, Nat.testBit_and, Nat.testBit_or, h100, hF00]
  rw [addressTag_of_cc h] at hbit
  exact absurd hbit (by decide)

instance (x y : Nat) (c : Prop) [Decidable c] [NotCc x] [NotCc y] :
    NotCc (if c then x else y) := by
  split <;> assumption

instance : NoRoot (Addr.ctrl 0) := ⟨by decide⟩

instance : NoRoot (Addr.ctrl 1) := ⟨by decide⟩

instance : NoRoot (Addr.ctrl 2) := ⟨by decide⟩

instance (x y : Nat) (c : Prop) [Decidable c] [NoRoot x] [NoRoot y] :
    NoRoot (if c then x else y) := by
  split <;> assumption

instance (x y : Nat) [hx : NoRoot x] [hy : NoRoot y] : SafeSwap x y := ⟨.inr (.inr ⟨hx, hy⟩)⟩

instance (y : Nat) : SafeSwap (Addr.var 0) y := ⟨.inl rfl⟩

end Addresses

/-! ### Entering a continuation -/

/-- The item at an address of a variable or a register. -/
def itemAt (address : Nat) (e : Engine) : Option StackItem :=
  match Place.of address with
  | .var => e.cmd.vars[Addr.storageIndex address]?
  | .ctrl => e.ctrls.get (Addr.storageIndex address)
  | _ => none

/-- A continuation at an address has at most this arity. -/
def ArityAt (address : Nat) (n : Int) (e : Engine) : Prop :=
  ∀ cont, itemAt address e = some (.continuation cont) → cont.nargs ≤ n

theorem asContinuation_eq_ok {item : StackItem} {cont : ContinuationData}
    (h : item.asContinuation = .ok cont) : item = .continuation cont := by
  cases item with
  | continuation cont' => exact congrArg _ (Except.ok.inj h)
  | _ => cases h

theorem itemAt_of_continuationByAddress {address : Nat} {e t : Engine} {cont : ContinuationData}
    (h : exec (continuationByAddress address) e = (.ok cont, t)) :
    t = e ∧ itemAt address e = some (.continuation cont) := by
  unfold continuationByAddress at h
  split at h
  · rename_i hplace
    obtain ⟨item, s, hvar, hlift⟩ := exec_bind_eq_ok h
    obtain ⟨hitem, rfl⟩ := exec_var_eq_ok hvar
    obtain ⟨hcont, rfl⟩ := exec_lift_eq_ok hlift
    refine ⟨rfl, ?_⟩
    unfold itemAt
    rw [hplace]
    exact hitem.trans (congrArg some (asContinuation_eq_ok hcont))
  · rename_i hplace
    rw [exec_bind_get] at h
    split at h
    · rename_i item hitem
      obtain ⟨hcont, rfl⟩ := exec_lift_eq_ok h
      refine ⟨rfl, ?_⟩
      unfold itemAt
      rw [hplace]
      exact hitem.trans (congrArg some (asContinuation_eq_ok hcont))
    · cases h
  · cases h

theorem eq_of_get_putOpt {list : SaveList} {i : Nat} {x y : StackItem}
    (h : (list.putOpt i x).get i = some y) : y = x := by
  unfold SaveListOf.putOpt SaveListOf.get at h
  generalize SaveListOf.adjust i = slot at h
  unfold SaveListOf.slot SaveListOf.setSlot at h
  split at h <;> simp_all

theorem arityAt_setContinuationByAddress {address : Nat} {n : Int} {cont : ContinuationData}
    (hcont : cont.nargs ≤ n) {e t : Engine}
    (h : exec (setContinuationByAddress address cont) e = (.ok (), t)) : ArityAt address n t := by
  intro cont' hcont'
  unfold setContinuationByAddress at h
  unfold itemAt at hcont'
  split at h
  · rename_i hplace
    rw [hplace] at hcont'
    unfold setVar at h
    rw [exec_bind_get] at h
    split at h
    · cases h
      dsimp only at hcont'
      rw [List.getElem?_set_self ‹_›] at hcont'
      cases hcont'
      exact hcont
    · cases h
  · rename_i hplace
    rw [hplace] at hcont'
    cases h
    cases eq_of_get_putOpt hcont'
    exact hcont
  · cases h

theorem arityAt_of_tryUseGas {address : Nat} {n : Int} {amount : Int} {e t : Engine}
    (he : ArityAt address n e) (h : exec (tryUseGas amount) e = (.ok (), t)) :
    ArityAt address n t := by
  have hpay : Maintains (ArityAt address n) (fun _ => True) (tryUseGas amount) fun _ => True := by
    unfold tryUseGas useGas checkGasRemaining
    refine .bind (R := fun _ => True) (.modify fun _ h => h) fun _ _ => .bind .get fun s _ => ?_
    split
    · exact .pure trivial
    · exact .throw trivial
  exact hpay.state he h

/-- What is moved uses up the arity. -/
theorem arityAt_moveStackFromCc {dst count : Nat} {e t : Engine} (he : ArityAt dst count e)
    (h : exec (moveStackFromCc dst 0 count) e = (.ok (), t)) : ArityAt dst 0 t := by
  have hrest (peer : ContinuationData) (hpeer : peer.nargs ≤ 0) (s : Engine)
      (h : exec (do
        setContinuationByAddress dst peer
        let received ← takeStack (Stack.moveRange 0 count peer.stack)
        setContinuationByAddress dst { peer with stack := received }) s = (.ok (), t)) :
      ArityAt dst 0 t := by
    obtain ⟨_, _, -, htake⟩ := exec_bind_eq_ok h
    obtain ⟨_, _, -, hset⟩ := exec_bind_eq_ok htake
    exact arityAt_setContinuationByAddress (by exact hpeer) hset
  unfold moveStackFromCc at h
  obtain ⟨peer, s, hpeer, hmove⟩ := exec_bind_eq_ok h
  obtain ⟨rfl, hitem⟩ := itemAt_of_continuationByAddress hpeer
  have hle := he peer hitem
  dsimp only at hmove
  split at hmove
  · split at hmove
    · cases hmove
    · exact hrest _ (by dsimp only; omega) _ hmove
  · exact hrest _ (by omega) _ hmove

theorem arityAt_popRange {dst count : Nat} {e t : Engine} (he : ArityAt dst count e)
    (h : exec (popRange 0 count dst) e = (.ok (), t)) : ArityAt dst 0 t := by
  have hjoin (s : Engine) (hs : ArityAt dst count s)
      (h : exec (joinStacks dst 0 count) s = (.ok (), t)) : ArityAt dst 0 t := by
    obtain ⟨peer, s', hpeer, hmove⟩ := exec_bind_eq_ok h
    obtain ⟨rfl, -⟩ := itemAt_of_continuationByAddress hpeer
    dsimp only at hmove
    split at hmove
    · obtain ⟨_, _, hpay, hmove'⟩ := exec_bind_eq_ok hmove
      exact arityAt_moveStackFromCc (arityAt_of_tryUseGas hs hpay) hmove'
    · exact arityAt_moveStackFromCc hs hmove
  unfold popRange at h
  dsimp only at h
  rw [exec_bind_get] at h
  split at h
  · obtain ⟨_, s, hpay, hrest⟩ := exec_bind_eq_ok h
    exact hjoin s (arityAt_of_tryUseGas he hpay) hrest
  · exact hjoin e he h

theorem arityAt_popAll {dst : Nat} {e t : Engine} (h : exec (popAll dst) e = (.ok (), t)) :
    ArityAt dst 0 t := by
  unfold popAll at h
  obtain ⟨cont, s, hcont, hrest⟩ := exec_bind_eq_ok h
  obtain ⟨rfl, hitem⟩ := itemAt_of_continuationByAddress hcont
  have hat (n : Int) (hn : cont.nargs ≤ n) : ArityAt dst n s := by
    intro cont' hcont'
    cases hitem.symm.trans hcont'
    exact hn
  -- the number of values to pass is not less than the arity
  have hdrop (drop : Nat) (hle : cont.nargs ≤ drop)
      (h : exec (if drop > 0 then popRange 0 drop dst else pure ()) s = (.ok (), t)) :
      ArityAt dst 0 t := by
    split at h
    · exact arityAt_popRange (hat drop hle) h
    · cases h
      exact hat 0 (by omega)
  rw [exec_bind_get, exec_bind_get] at hrest
  dsimp only at hrest
  split at hrest
  · exact hdrop _ (by omega) hrest
  · split at hrest
    · split at hrest
      · cases hrest
      · exact hdrop _ (by omega) hrest
    · exact hdrop _ (by omega) hrest

section Outside

variable {vars : List StackItem} {x y : Nat}

/-- A list that is not in a variable. -/
def Outside (address : Nat) : Prop := Place.of address = .ctrl ∨ Place.of address = .ccSavelist

/-- The variables stay as they are. -/
abbrev LeavesVars (vars : List StackItem) {α : Type} (m : M α) : Prop :=
  Maintains (fun e => e.cmd.vars = vars) (fun _ => True) m fun _ => True

theorem leavesVars_listAt (hx : Outside x) : LeavesVars vars (listAt x) := by
  unfold listAt
  rcases hx with hx | hx <;> rw [hx] <;> exact .bind .get fun _ _ => .pure trivial

theorem leavesVars_setListAt (hx : Outside x) (list : SaveList) :
    LeavesVars vars (setListAt x list) := by
  unfold setListAt
  rcases hx with hx | hx <;> rw [hx] <;> exact .modify fun _ h => h

theorem leavesVars_putToList (hx : Outside x) (item : StackItem) :
    LeavesVars vars (putToList x item) :=
  .bind (leavesVars_listAt hx) fun _ _ =>
    .bind (R := fun _ => True) (maintains_lift (fun _ _ => trivial) fun _ => trivial) fun list _ =>
      .bind (leavesVars_setListAt hx list) fun _ _ => .pure trivial

theorem leavesVars_putToListFromList (hx : Outside x) (hy : Outside y) :
    LeavesVars vars (putToListFromList x y) := by
  refine .bind (leavesVars_listAt hx) fun _ _ => .bind (leavesVars_listAt hy) fun list _ => ?_
  split
  · exact .ite (fun _ => .bind (leavesVars_setListAt hy _) fun _ _ => leavesVars_putToList hx _)
      fun _ => .throw trivial
  · exact .throw trivial

theorem leavesVars_swapBetweenLists (hx : Outside x) (hy : Outside y) :
    LeavesVars vars (swapBetweenLists x y) := by
  refine .bind (leavesVars_listAt hy) fun _ _ => .ite (fun _ => ?_) fun _ =>
    .bind (leavesVars_listAt hx) fun _ _ => .ite (fun _ => ?_) fun _ => .pure trivial
  · refine .bind (leavesVars_putToListFromList hx hy) fun old _ => ?_
    split
    · exact .bind (leavesVars_putToList hy _) fun _ _ => .pure trivial
    · exact .pure trivial
  · exact .bind (leavesVars_putToListFromList hy hx) fun _ _ => .pure trivial

/-- Exchanging c0 with the saved c0 leaves a continuation in a variable alone. -/
theorem arityAt_var_swap {callee : Nat} {n : Int} {e t : Engine} (he : ArityAt (Addr.var callee) n e)
    (h : exec (swap (Addr.ctrl 0) (Addr.savelist Addr.CC 0)) e = (.ok (), t)) :
    ArityAt (Addr.var callee) n t := by
  have hswap : swap (Addr.ctrl 0) (Addr.savelist Addr.CC 0) =
      swapBetweenLists (Addr.ctrl 0) (Addr.savelist Addr.CC 0) := rfl
  rw [hswap] at h
  have hvars : t.cmd.vars = e.cmd.vars :=
    (leavesVars_swapBetweenLists (.inl (by decide)) (.inr (by decide))).state rfl h
  intro cont hcont
  refine he cont ?_
  unfold itemAt at hcont ⊢
  cases hplace : Place.of (Addr.var callee) with
  | var =>
    rw [hplace] at hcont
    exact hvars ▸ hcont
  | ctrl =>
    have hbit := testBit_addressTag_var callee
    rw [addressTag_of_ctrl hplace] at hbit
    exact absurd hbit (by decide)
  | _ =>
    rw [hplace] at hcont
    cases hcont

end Outside

/-- A policy that lets the current continuation have an arity that is used up. -/
class Settles (p : Policy) : Prop where
  out : ∀ {cstate nargs gas} nargs', nargs' ≤ 0 → p.frame cstate nargs gas →
    p.frame cstate nargs' gas

section Settles

variable [Settles p]

instance (e : Engine) [h : Good p e] : GoodFrame p e.cstate (-1) e.gas :=
  ⟨Settles.out (-1) (by decide) h.out.frame⟩

theorem keeps_setCc {cont : ContinuationData} (hcont : good p cont) (hnargs : cont.nargs ≤ 0) :
    Keeps p (modify fun e => { e with cc := cont } : M Unit) :=
  ⟨(Maintains.modify fun _ he => ({ he with
    cc := hcont, frame := Settles.out cont.nargs hnargs he.frame } : GoodEngine p _)).mono
      fun _ h => h⟩

theorem keeps_swapCc {address : Nat} {cont : ContinuationData} (haddress : HoldsContinuation p address)
    (hcont : good p cont) (hnargs : cont.nargs ≤ 0) : Keeps p (swapCc address cont) := by
  have := keeps_setCc hcont hnargs
  unfold swapCc
  infer_instance

/-- A continuation whose arity is used up becomes the current one. -/
theorem ends_swap_cc {address : Nat} [haddress : NotCc address] {e : Engine} (he : good p e)
    (harity : ArityAt address 0 e) :
    Ends (good p) (good p) (swap address Addr.CC) (good p) e := by
  have hcc : Place.of Addr.CC = .cc := by decide
  have htag : Addr.addressTag address > Addr.addressTag Addr.CC := by
    refine Nat.pos_of_ne_zero fun hzero => haddress.out ?_
    unfold Place.of
    rw [hzero]
    rfl
  have hswap (cont : ContinuationData) (hitem : itemAt address e = some (.continuation cont))
      (hcont : good p cont) (haddress : HoldsContinuation p address) :
      Ends (good p) (good p) (swapCc address cont) (good p) e :=
    (keeps_swapCc haddress hcont (harity cont hitem)).out e he
  unfold swap
  rw [if_pos htag]
  unfold swapOrdered
  rw [hcc]
  cases hplace : Place.of address with
  | ctrl =>
    unfold itemAt at hswap
    rw [hplace] at hswap
    unfold Ends
    rw [exec_bind_get]
    cases hget : e.ctrls.get (Addr.storageIndex address) with
    | none => exact ⟨Good.out, he⟩
    | some item =>
      cases item with
      | continuation cont =>
        exact hswap cont hget ((good_continuation cont).1 (good_get he.ctrls hget))
          ⟨fun ht _ cont' => canPut_of_continuation he.ctrls hget cont' ht⟩
      | _ => exact ⟨Good.out, he⟩
  | var =>
    unfold itemAt at hswap
    rw [hplace] at hswap
    refine (Keeps.out (m := var (Addr.storageIndex address)) e he).bind fun item t hvar hitem ht => ?_
    obtain ⟨hget, rfl⟩ := exec_var_eq_ok hvar
    cases item with
    | continuation cont =>
      exact hswap cont hget ((good_continuation cont).1 hitem)
        ⟨fun _ hctrl => by simp [hplace] at hctrl⟩
    | _ => exact ⟨Good.out, ht⟩
  | _ => exact ⟨trivial, he⟩

/-- The stack is passed to a continuation, which then becomes the current one. -/
instance (priority := high) {α : Type} [Sane α] (address : Nat) [NotCc address] (m : M α)
    [hm : Keeps p m] :
    Keeps p (do
      popAll address
      swap address Addr.CC
      m) :=
  ⟨fun e he => (Keeps.out (m := popAll address) e he).bind fun _ _ hpop _ ht =>
    (ends_swap_cc ht (arityAt_popAll hpop)).bind fun _ u _ _ hu => hm.out u hu⟩

end Settles

end Engine

end TonVm
