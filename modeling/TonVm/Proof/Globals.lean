import TonVm.Proof.RegisterIndices
import TonVm.Proof.CompoundStack

/-!
# Global variables

The items of c7 are the global variables. `SETGLOBVAR` and `GETGLOBVAR` have their own way to write and
to read an item. It is that of `SETINDEXVARQ` and `INDEXVARQ` with c7 brought on the stack and back.
-/

namespace TonVm

open ExecLib

section Globals

variable [TonTypes]

/-! ### Items of a tuple -/

/-- A tuple with an item written. Null is not written past the end, where it is read anyway. -/
def assigned (tuple : List StackItem) (k : Nat) (x : StackItem) : List StackItem :=
  if k < tuple.length then
    tuple.set k x
  else if x.isNull then
    tuple
  else
    tuple ++ List.replicate (k - tuple.length) .none ++ [x]

/-- The item of a tuple, or Null past the end. -/
def itemOf (tuple : List StackItem) (k : Nat) : StackItem := (tuple[k]?).getD .none

theorem eq_none_of_isNull {x : StackItem} (h : x.isNull = true) : x = .none := by
  cases x <;> first | rfl | cases h

theorem itemOf_assigned_self (tuple : List StackItem) (k : Nat) (x : StackItem) :
    itemOf (assigned tuple k x) k = x := by
  unfold itemOf assigned
  by_cases hk : k < tuple.length
  · rw [if_pos hk, List.getElem?_set_self hk, Option.getD_some]
  · rw [if_neg hk]
    by_cases hx : x.isNull = true
    · rw [if_pos hx, List.getElem?_eq_none (not_lt.1 hk), eq_none_of_isNull hx, Option.getD_none]
    · have hlength : (tuple ++ List.replicate (k - tuple.length) StackItem.none).length = k := by
        rw [List.length_append, List.length_replicate]
        omega
      rw [if_neg hx, List.getElem?_append_right hlength.le, hlength, Nat.sub_self]
      rfl

theorem itemOf_assigned_of_ne (tuple : List StackItem) {j k : Nat} (h : j ≠ k) (x : StackItem) :
    itemOf (assigned tuple k x) j = itemOf tuple j := by
  unfold itemOf assigned
  by_cases hk : k < tuple.length
  · rw [if_pos hk, List.getElem?_set_ne h.symm]
  · rw [if_neg hk]
    by_cases hx : x.isNull = true
    · rw [if_pos hx]
    · rw [if_neg hx]
      -- what lies between the old end and the new item reads as Null before and after
      by_cases hj : j < tuple.length
      · rw [List.append_assoc, List.getElem?_append_left hj]
      · rw [List.append_assoc, List.getElem?_append_right (not_lt.1 hj),
          List.getElem?_eq_none (not_lt.1 hj), Option.getD_none]
        by_cases hlt : j < k
        · rw [List.getElem?_append_left (by rw [List.length_replicate]; omega),
            List.getElem?_replicate, if_pos (by omega), Option.getD_some]
        · rw [List.getElem?_eq_none, Option.getD_none]
          rw [List.length_append, List.length_replicate, List.length_singleton]
          omega

theorem length_assigned_null (tuple : List StackItem) (k : Nat) :
    (assigned tuple k .none).length = tuple.length := by
  unfold assigned
  by_cases hk : k < tuple.length
  · rw [if_pos hk, List.length_set]
  · rw [if_neg hk]
    rfl

theorem tupleItem_eq (tuple : List StackItem) (k : Nat) :
    (StackItem.tuple tuple).tupleItem k true = .ok (itemOf tuple k) := by
  unfold StackItem.tupleItem itemOf StackItem.asTuple
  cases hget : tuple[k]? with
  | none => simp [hget, bind, Except.bind, pure, Except.pure]
  | some value => simp [hget, bind, Except.bind, pure, Except.pure]

namespace Engine

/-! ### Sequences of instructions -/

variable {e : Engine}

/-- The next instruction starts from the values that the first one leaves. -/
theorem Finishes.andThen {m k : M Unit} {args results : Stack} {r : Except Error Unit}
    {cc : ContinuationData} {ctrls ctrls' : SaveList}
    (hm : Finishes m (e.given args) (.ok ()) { e.cc with stack := e.cc.stack ++ results } ctrls)
    (hk : ∀ s, s.cc = e.cc → s.ctrls = ctrls → Alike s e → Finishes k (s.given results) r cc ctrls') :
    Finishes (do m; k) (e.given args) r cc ctrls' := by
  obtain ⟨t, ht, hcore⟩ := hm
  have hcc : t.cc = { e.cc with stack := e.cc.stack ++ results } := congrArg Engine.cc hcore
  have hctrls : t.ctrls = ctrls := congrArg Engine.ctrls hcore
  have halike : Alike t e := by
    intro cc' ctrls''
    rw [hcore]
    rfl
  have hgiven : { t with cc := e.cc }.given results = t := by
    unfold given
    rw [← hcc]
  obtain ⟨t', ht', hcore'⟩ := hk { t with cc := e.cc } rfl hctrls halike
  rw [hgiven] at ht' hcore'
  exact ⟨t', (exec_bind_ok ht).trans ht', hcore'.trans (halike _ _)⟩

theorem capabilities_of_alike {s : Engine} (h : Alike s e) : s.capabilities = e.capabilities := by
  have := congrArg Engine.capabilities (h e.cc e.ctrls)
  exact this

theorem exec_indexVar {s : Engine} {i hi : Nat} (h : i ≤ hi) {k : Nat}
    (hvar : s.cmd.vars[k]? = some (.int i)) : exec (indexVar k hi) s = (.ok i, s) := by
  unfold indexVar
  have hinteger : (StackItem.int i).asInteger = .ok (.value i) := rfl
  rw [exec_bind_ok (exec_var s hvar), hinteger, lift_ok, exec_bind_pure,
    IntegerData.intoUsize_natCast h]
  rfl

section Instructions

variable (e) {k : Nat} (tuple : List StackItem) (x : StackItem)

theorem finishes_swap (a b : StackItem) :
    Finishes (dispatched 0x01 executeSwap) (e.given [a, b]) (.ok ())
      { e.cc with stack := e.cc.stack ++ [b, a] } e.ctrls := by
  have hswap : Stack.swap 0 1 (e.cc.stack ++ [a, b]) = .ok (e.cc.stack ++ [b, a]) := by
    simp [Stack.swap, Stack.depth]
  have hload : ∃ s, exec (loadInstruction (some (.stackRegisterPair .getFromLastByte)))
      { (e.given [a, b]) with lastCmd := UInt8.ofNat 0x01 } = (.ok (), s) ∧
        sregsRaw s.cmd =
          some ⟨((UInt8.ofNat 0x01 &&& 0xF0) >>> 4).toNat, (UInt8.ofNat 0x01 &&& 0x0F).toNat⟩ ∧
        s.core = (e.given [a, b]).core := ⟨_, rfl, rfl, rfl⟩
  have hhigh : ((UInt8.ofNat 0x01 &&& 0xF0) >>> 4).toNat = 0 := by decide
  have hlow : (UInt8.ofNat 0x01 &&& 0x0F).toNat = 1 := by decide
  obtain ⟨s, hload, hregs, hcore⟩ := hload
  rw [hhigh, hlow] at hregs
  have hstack : s.cc.stack = e.cc.stack ++ [a, b] := congrArg (·.cc.stack) hcore
  rw [← hstack] at hswap
  refine ⟨_, (Compound.exec_executeXchg hload hregs).trans (Compound.exec_onStack hswap), ?_⟩
  exact congrArg (fun s : Engine => { s with cc.stack := e.cc.stack ++ [b, a] }) hcore

omit [TonTypes] in
theorem insertIdx_append_length {α : Type} (l rest : List α) (a : α) :
    (l ++ rest).insertIdx l.length a = l ++ a :: rest := by
  induction l with
  | nil => rfl
  | cons b l ih => simp [ih]

theorem finishes_rotrev (a b c : StackItem) :
    Finishes (dispatched 0x59 executeRotrev) (e.given [a, b, c]) (.ok ())
      { e.cc with stack := e.cc.stack ++ [c, a, b] } e.ctrls := by
  have hdrop : Stack.drop 0 (e.cc.stack ++ [a, b, c]) = .ok (c, e.cc.stack ++ [a, b]) := by
    simp [Stack.drop, Stack.depth, List.eraseIdx_append_of_length_le]
  have hinsert : Stack.insert 2 c (e.cc.stack ++ [a, b]) = .ok (e.cc.stack ++ [c, a, b]) := by
    simp [Stack.insert, Stack.depth, insertIdx_append_length]
  have hdepth : 3 ≤ ((e.given [a, b, c]).started 0x59).cc.stack.length := by
    have hlength : ((e.given [a, b, c]).started 0x59).cc.stack.length = e.cc.stack.length + 3 :=
      List.length_append
    omega
  have htake : exec (takeStack (Stack.drop 0)) ((e.given [a, b, c]).started 0x59) =
      (.ok c, (e.given [a, b]).started 0x59) := by
    unfold takeStack
    rw [exec_bind_get]
    show exec (lift (Stack.drop 0 (e.cc.stack ++ [a, b, c])) >>= _) _ = _
    rw [hdrop]
    rfl
  refine ⟨(e.given [c, a, b]).started 0x59, ?_, rfl⟩
  unfold executeRotrev insertTop
  rw [exec_dispatched_load, Compound.exec_checkDepth, if_pos hdepth, exec_bind_ok htake]
  exact Compound.exec_onStack hinsert

theorem finishes_indexvarq (hk : k ≤ 254) :
    Finishes (dispatched 0x86 executeTupleIndexvarQuiet) (e.given [.tuple tuple, .int k]) (.ok ())
      { e.cc with stack := e.cc.stack ++ [itemOf tuple k] } e.ctrls := by
  have hstart := exec_dispatched_fetchStack 0x86 [.tuple tuple, .int k] (do
    let n ← indexVar 0 254
    let item ← var 1
    if item.isNull && true then
      push .none
    else
      push (← lift (item.tupleItem n true))) e
  rw [exec_bind_ok (exec_indexVar hk rfl), exec_bind_ok (exec_var _ rfl), tupleItem_eq] at hstart
  exact ⟨_, hstart, rfl⟩

/-- The form of `SETINDEXVARQ` with the corrected treatment of Null. -/
theorem finishes_setindexvarq (hcap : e.checkCapabilities .capFixTupleIndexBug = true) (hk : k ≤ 254) :
    Finishes (dispatched 0x87 executeTupleSetindexvarQuiet) (e.given [.tuple tuple, x, .int k]) (.ok ())
      { e.cc with stack := e.cc.stack ++ [.tuple (assigned tuple k x)] } e.ctrls := by
  have hv2 : exec (dispatched 0x87 executeTupleSetindexvarQuiet) (e.given [.tuple tuple, x, .int k]) =
      exec (dispatched 0x87 (setIndexV2 (TupleMask.STACK ||| TupleMask.QUIET)))
        (e.given [.tuple tuple, x, .int k]) := by
    unfold dispatched executeTupleSetindexvarQuiet setIndex
    rw [exec_bind_modify, exec_bind_modify, exec_bind_get]
    exact congrArg (exec · _) (if_pos hcap)
  have hoperands : exec (setIndexOperands (TupleMask.STACK ||| TupleMask.QUIET))
      { (e.given [.tuple tuple, x, .int k]) with lastCmd := UInt8.ofNat 0x87 } =
        (.ok (k, tuple, x), (e.started 0x87).holding e.cc e.ctrls [.int k, x, .tuple tuple]) := by
    have hstart := exec_load_fetchStack { e with lastCmd := UInt8.ofNat 0x87 }
      [.tuple tuple, x, .int k] (do
        let n ← indexVar 0 254
        let item ← var 2
        let tuple ← if true && item.isNull then pure [] else lift item.asTuple
        return (n, tuple, ← var 1))
    rw [exec_bind_ok (exec_indexVar hk rfl)] at hstart
    exact hstart
  have hquiet : UInt8.bit (TupleMask.STACK ||| TupleMask.QUIET) TupleMask.QUIET = true := by decide
  rw [Finishes, hv2, dispatched, exec_bind_modify, setIndexV2, exec_bind_ok hoperands]
  dsimp only
  unfold assigned
  by_cases hlt : k < tuple.length
  · rw [if_pos hlt, if_pos hlt]
    exact ⟨_, rfl, rfl⟩
  · rw [if_neg hlt, if_neg hlt, if_pos hquiet]
    by_cases hnull : x.isNull = true
    · rw [if_pos hnull, if_pos hnull]
      exact ⟨_, rfl, rfl⟩
    · rw [if_neg hnull, if_neg hnull]
      exact ⟨_, rfl, rfl⟩

theorem finishes_getglobvar (hc7 : e.ctrls.get 7 = some (.tuple tuple)) (hk : k ≤ 254) :
    Finishes (dispatched 0x40 executeGetglobvar) (e.given [.int k]) (.ok ())
      { e.cc with stack := e.cc.stack ++ [itemOf tuple k] } e.ctrls := by
  have hstart := exec_dispatched_fetchStack 0x40 [.int k] (do
    let k ← indexVar 0 254
    push (← lift ((← ctrl 7).tupleItem k true))) e
  have hread := exec_ctrl ((e.started 0x40).holding e.cc e.ctrls [.int k]) hc7
  rw [exec_bind_ok (exec_indexVar hk rfl), List.reverse_singleton, exec_bind_ok hread,
    tupleItem_eq] at hstart
  exact ⟨_, hstart, rfl⟩

theorem finishes_setglobvar (hc7 : e.ctrls.get 7 = some (.tuple tuple)) (hk : k ≤ 254) :
    Finishes (dispatched 0x60 executeSetglobvar) (e.given [x, .int k]) (.ok ()) e.cc
      (e.ctrls.setOpt 7 (some (.tuple (assigned tuple k x)))) := by
  have hstart := exec_dispatched_fetchStack 0x60 [x, .int k] (do
    let k ← indexVar 0 254
    let c7 ← globals
    let x ← var 1
    useGas (Gas.tupleGasPrice (withGlobal c7 k x).2)
    putCtrl 7 (.tuple (withGlobal c7 k x).1)) e
  have hread := exec_globals (s := (e.started 0x60).holding e.cc e.ctrls [x, .int k].reverse) hc7
  rw [exec_bind_ok (exec_indexVar hk rfl), exec_bind_ok hread, exec_bind_ok (exec_var _ rfl)] at hstart
  have hassigned : (withGlobal tuple k x).1 = assigned tuple k x := by
    unfold withGlobal assigned
    split
    · rfl
    · cases x.isNull <;> rfl
  rw [hassigned] at hstart
  exact ⟨_, hstart, rfl⟩

/-- `POP c7` of a tuple. -/
theorem finishes_pop_tuple :
    Finishes (RegisterAccess.pop.literal 7) (e.given [.tuple tuple]) (.ok ()) e.cc
      (e.ctrls.setOpt 7 (some (.tuple tuple))) := by
  obtain ⟨s, hs, hexec⟩ := exec_literal_pop e (.tuple tuple) (i := 7) (by decide)
  rw [swap_var_ctrl (by decide) (by decide), exec_swap_ctrl_var (by decide) (by decide) rfl,
    swapOutcome_put rfl rfl] at hexec
  exact ⟨_, hexec, hs _ _⟩

end Instructions

/-! ### The documented sequences -/

/-- `PUSH c7; ROTREV; SETINDEXVARQ; POP c7`. -/
def setByIndex : M Unit := do
  RegisterAccess.push.literal 7
  dispatched 0x59 executeRotrev
  dispatched 0x87 executeTupleSetindexvarQuiet
  RegisterAccess.pop.literal 7

/-- `PUSH c7; SWAP; INDEXVARQ`. -/
def getByIndex : M Unit := do
  RegisterAccess.push.literal 7
  dispatched 0x01 executeSwap
  dispatched 0x86 executeTupleIndexvarQuiet

section Sequences

variable (e) {k : Nat} {tuple : List StackItem} (x : StackItem)

/-- `PUSH c7` above other values. -/
theorem finishes_push_tuple (hc7 : e.ctrls.get 7 = some (.tuple tuple)) (args : Stack) :
    Finishes (RegisterAccess.push.literal 7) (e.given args) (.ok ())
      { e.cc with stack := e.cc.stack ++ (args ++ [.tuple tuple]) } e.ctrls := by
  have hfinishes := finishes_literal_push (e.given args) (i := 7) (by decide)
  have hget : (e.given args).ctrls.get 7 = some (.tuple tuple) := hc7
  rw [hget, Option.getD_some] at hfinishes
  rw [← List.append_assoc]
  exact hfinishes

theorem finishes_setByIndex (hcap : e.checkCapabilities .capFixTupleIndexBug = true)
    (hc7 : e.ctrls.get 7 = some (.tuple tuple)) (hk : k ≤ 254) :
    Finishes setByIndex (e.given [x, .int k]) (.ok ()) e.cc
      (e.ctrls.setOpt 7 (some (.tuple (assigned tuple k x)))) := by
  refine (finishes_push_tuple e hc7 [x, .int k]).andThen fun s₁ hcc₁ hctrls₁ hs₁ => ?_
  refine (finishes_rotrev s₁ x (.int k) (.tuple tuple)).andThen fun s₂ hcc₂ hctrls₂ hs₂ => ?_
  have hcap₂ : s₂.checkCapabilities .capFixTupleIndexBug = true := by
    unfold checkCapabilities
    rw [capabilities_of_alike hs₂, capabilities_of_alike hs₁]
    exact hcap
  refine (finishes_setindexvarq s₂ tuple x hcap₂ hk).andThen fun s₃ hcc₃ hctrls₃ hs₃ => ?_
  have hfinishes := finishes_pop_tuple s₃ (assigned tuple k x)
  rw [hcc₃, hcc₂, hcc₁, hctrls₃, hctrls₂, hctrls₁] at hfinishes
  exact hfinishes

theorem finishes_getByIndex (hc7 : e.ctrls.get 7 = some (.tuple tuple)) (hk : k ≤ 254) :
    Finishes getByIndex (e.given [.int k]) (.ok ())
      { e.cc with stack := e.cc.stack ++ [itemOf tuple k] } e.ctrls := by
  refine (finishes_push_tuple e hc7 [.int k]).andThen fun s₁ hcc₁ hctrls₁ hs₁ => ?_
  refine (finishes_swap s₁ (.int k) (.tuple tuple)).andThen fun s₂ hcc₂ hctrls₂ hs₂ => ?_
  have hfinishes := finishes_indexvarq s₂ tuple hk
  rw [hcc₂, hcc₁, hctrls₂, hctrls₁] at hfinishes
  exact hfinishes

end Sequences

/-- `SETGLOBVAR` and `GETGLOBVAR` do what the sequences do that they stand for. So a variable that was set
is read back, the other variables are as they were, and Null past the end makes c7 no longer. -/
theorem global_variables (e : Engine) (hcap : e.checkCapabilities .capFixTupleIndexBug = true)
    (c7 : List StackItem) (hc7 : e.ctrls.get 7 = some (.tuple c7)) (k : Nat) (hk : k ≤ 254)
    (x : StackItem) :
    SameOutcome id (exec (dispatched 0x60 executeSetglobvar) (e.given [x, .int k]))
        (exec setByIndex (e.given [x, .int k])) ∧
      SameOutcome id (exec (dispatched 0x40 executeGetglobvar) (e.given [.int k]))
        (exec getByIndex (e.given [.int k])) ∧
      ∃ t c7', exec (dispatched 0x60 executeSetglobvar) (e.given [x, .int k]) = (.ok (), t) ∧
        t.cc = e.cc ∧ t.ctrls = e.ctrls.setOpt 7 (some (.tuple c7')) ∧
        Finishes (dispatched 0x40 executeGetglobvar) (t.given [.int k]) (.ok ())
          { e.cc with stack := e.cc.stack ++ [x] } t.ctrls ∧
        (∀ j ≤ 254, j ≠ k → ∃ y,
          Finishes (dispatched 0x40 executeGetglobvar) (t.given [.int j]) (.ok ())
            { e.cc with stack := e.cc.stack ++ [y] } t.ctrls ∧
          Finishes (dispatched 0x40 executeGetglobvar) (e.given [.int j]) (.ok ())
            { e.cc with stack := e.cc.stack ++ [y] } e.ctrls) ∧
        (x.isNull = true → c7'.length = c7.length) := by
  have hset := finishes_setglobvar e c7 x hc7 hk
  refine ⟨hset.sameOutcome (finishes_setByIndex e x hcap hc7 hk) fun _ _ => rfl, ?_, ?_⟩
  · exact (finishes_getglobvar e c7 hc7 hk).sameOutcome (finishes_getByIndex e hc7 hk) fun _ _ => rfl
  · obtain ⟨t, ht, hcore⟩ := hset
    have hcc : t.cc = e.cc := by
      rw [← core_cc t, hcore, holding_cc]
    have hctrls : t.ctrls = e.ctrls.setOpt 7 (some (.tuple (assigned c7 k x))) := by
      rw [← core_ctrls t, hcore, holding_ctrls]
    have hc7' : t.ctrls.get 7 = some (.tuple (assigned c7 k x)) := by
      rw [hctrls]
      rfl
    have hget {j : Nat} (hj : j ≤ 254) := finishes_getglobvar t (assigned c7 k x) hc7' hj
    refine ⟨t, assigned c7 k x, ht, hcc, hctrls, ?_, ?_, ?_⟩
    · have hfinishes := hget hk
      rwa [itemOf_assigned_self, hcc] at hfinishes
    · intro j hj hne
      have hfinishes := hget hj
      rw [itemOf_assigned_of_ne _ hne, hcc] at hfinishes
      exact ⟨itemOf c7 j, hfinishes, finishes_getglobvar e c7 hc7 hj⟩
    · intro hnull
      rw [eq_none_of_isNull hnull]
      exact length_assigned_null c7 k

end Engine

end Globals

namespace Engine

section Concrete

open scoped Plain

/-- An engine with two global variables. -/
def withGlobals : Engine :=
  { (withCapabilities [.capFixTupleIndexBug]) with ctrls.c7 := some (.tuple [.int 7, .int 8]) }

/-- Variable 3 is set to 5, and variable 1 is as before. Null for variable 3 leaves two variables. -/
theorem global_variables_pair :
    SameOutcome id (exec (dispatched 0x60 executeSetglobvar) (withGlobals.given [.int 5, .int 3]))
        (exec setByIndex (withGlobals.given [.int 5, .int 3])) ∧
      SameOutcome id (exec (dispatched 0x40 executeGetglobvar) (withGlobals.given [.int 3]))
        (exec getByIndex (withGlobals.given [.int 3])) ∧
      (∃ t y, exec (dispatched 0x60 executeSetglobvar) (withGlobals.given [.int 5, .int 3]) =
          (.ok (), t) ∧
        Finishes (dispatched 0x40 executeGetglobvar) (t.given [.int 3]) (.ok ())
          { withGlobals.cc with stack := [.int 5] } t.ctrls ∧
        Finishes (dispatched 0x40 executeGetglobvar) (t.given [.int 1]) (.ok ())
          { withGlobals.cc with stack := [y] } t.ctrls ∧
        Finishes (dispatched 0x40 executeGetglobvar) (withGlobals.given [.int 1]) (.ok ())
          { withGlobals.cc with stack := [y] } withGlobals.ctrls) ∧
      ∃ t c7', exec (dispatched 0x60 executeSetglobvar) (withGlobals.given [.none, .int 3]) =
          (.ok (), t) ∧
        t.ctrls = withGlobals.ctrls.setOpt 7 (some (.tuple c7')) ∧ c7'.length = 2 := by
  obtain ⟨hset, hget, t, -, ht, -, -, hread, hothers, -⟩ :=
    global_variables withGlobals (by decide) [.int 7, .int 8] rfl 3 (by decide) (.int 5)
  obtain ⟨y, hafter, hbefore⟩ := hothers 1 (by decide) (by decide)
  obtain ⟨-, -, s, c7', hs, -, hctrls, -, -, hlength⟩ :=
    global_variables withGlobals (by decide) [.int 7, .int 8] rfl 3 (by decide) .none
  exact ⟨hset, hget, ⟨t, y, ht, hread, hafter, hbefore⟩, s, c7', hs, hctrls, hlength rfl⟩

end Concrete

end Engine

end TonVm
