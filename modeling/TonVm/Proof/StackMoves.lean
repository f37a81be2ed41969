import TonVm.Plain
import TonVm.Proof.Transfer

/-!
# Moving and permuting stack values

What the block operations of the stack and `move_stack_from_cc` do, whichever of their ways they take.
-/

namespace TonVm

open ExecLib

section StackMoves

variable [TonTypes]

namespace SaveListOf

omit [TonTypes]

/-- A register that holds something can be written. -/
theorem get_putOpt_of_get {α : Type} {list : SaveListOf α} {i : Nat} {x : α}
    (h : list.get i = some x) (y : α) : (list.putOpt i y).get i = some y := by
  unfold get putOpt at *
  generalize adjust i = slot at *
  unfold SaveListOf.slot at h
  split at h <;> first | rfl | cases h

end SaveListOf

namespace Engine

/-! ### Moving values to a continuation -/

variable {dst : Nat} {e : Engine} {peer : ContinuationData}

/-- What is written to the address of a continuation is read there, whatever the stack is. -/
theorem exists_setContinuationByAddress (h : exec (continuationByAddress dst) e = (.ok peer, e))
    (cont : ContinuationData) :
    ∃ t, exec (setContinuationByAddress dst cont) e = (.ok (), t) ∧ t.cc = e.cc ∧
      ∀ stack, exec (continuationByAddress dst) { t with cc.stack := stack } =
        (.ok cont, { t with cc.stack := stack }) := by
  unfold continuationByAddress setContinuationByAddress at *
  cases hplace : Place.of dst with
  | var =>
    simp only [hplace] at h ⊢
    obtain ⟨item, _, hvar, -⟩ := exec_bind_eq_ok h
    obtain ⟨hitem, -⟩ := exec_var_eq_ok hvar
    have hlt : Addr.storageIndex dst < e.cmd.vars.length := (List.getElem?_eq_some_iff.1 hitem).1
    refine ⟨_, exec_setVar _ hlt _, rfl, fun stack => ?_⟩
    rw [exec_bind_ok (exec_var _ (List.getElem?_set_self hlt))]
    rfl
  | ctrl =>
    simp only [hplace, exec_bind_get] at h ⊢
    cases hget : e.ctrls.get (Addr.storageIndex dst) with
    | none =>
      rw [hget] at h
      cases h
    | some item =>
      refine ⟨{ e with ctrls := e.ctrls.putOpt (Addr.storageIndex dst) (.continuation cont) }, rfl, rfl,
        fun stack => ?_⟩
      rw [SaveListOf.get_putOpt_of_get hget]
      rfl
  | _ =>
    rw [hplace] at h
    cases h

/-- A continuation without a limit takes the range that is taken out. -/
theorem exec_moveStackFromCc_of_drop (h : exec (continuationByAddress dst) e = (.ok peer, e))
    (hnargs : peer.nargs < 0) {start stop : Nat} {moved rest : Stack}
    (hdrop : Stack.dropRangeStraight start stop e.cc.stack = .ok (moved, rest)) :
    ∃ t, exec (moveStackFromCc dst start stop) e = (.ok (), t) ∧ t.cc.stack = rest ∧
      exec (continuationByAddress dst) t = (.ok { peer with stack := peer.stack ++ moved }, t) := by
  obtain ⟨s, hset, hcc, hread⟩ := exists_setContinuationByAddress h peer
  obtain ⟨t, hset', hcc', hread'⟩ :=
    exists_setContinuationByAddress (hread rest) { peer with stack := peer.stack ++ moved }
  have htake : exec (takeStack (Stack.moveRange start stop peer.stack)) s =
      (.ok (peer.stack ++ moved), { s with cc.stack := rest }) := by
    rw [← hcc] at hdrop
    unfold takeStack
    rw [exec_bind_get, Stack.moveRange_eq, hdrop, Except.map, lift_ok, exec_bind_pure,
      exec_bind_modify]
    rfl
  refine ⟨t, ?_, by rw [hcc'], hread' t.cc.stack⟩
  unfold moveStackFromCc
  rw [exec_bind_ok h, if_neg (by omega), exec_bind_pure, exec_bind_ok hset, exec_bind_ok htake, hset']

/-- On each of its ways `move_stack_from_cc` takes the values of a range out of the current stack, in
their order, and puts them on the stack of a continuation that takes any number of them; and
`drop_range_straight` is `drop_range` with the order of what is taken reversed. -/
theorem moves_range_in_order :
    (∀ (e : Engine) (dst : Nat) (peer : ContinuationData) (start stop : Nat),
      exec (continuationByAddress dst) e = (.ok peer, e) → peer.nargs = -1 →
      stop ≤ e.cc.stack.length →
      ∃ bottom moved top t, e.cc.stack = bottom ++ moved ++ top ∧
        moved.length = stop - start ∧ (start ≤ stop → top.length = start) ∧
        exec (moveStackFromCc dst start stop) e = (.ok (), t) ∧ t.cc.stack = bottom ++ top ∧
        exec (continuationByAddress dst) t = (.ok { peer with stack := peer.stack ++ moved }, t)) ∧
    ∀ (start stop : Nat) (stack : Stack), Stack.dropRangeStraight start stop stack =
      (Stack.dropRange start stop stack).map fun (items, rest) => (items.reverse, rest) := by
  refine ⟨fun e dst peer start stop hpeer hnargs hstop => ?_, Stack.dropRangeStraight_eq⟩
  have hnegative : peer.nargs < 0 := by omega
  by_cases hle : start ≤ stop
  · obtain ⟨bottom, block, top, hstack, rfl, rfl⟩ := Stack.exists_block hle hstop
    have hdrop := Stack.dropRangeStraight_block bottom block top
    rw [← hstack] at hdrop
    obtain ⟨t, hmove, hrest, hread⟩ := exec_moveStackFromCc_of_drop hpeer hnegative hdrop
    exact ⟨bottom, block, top, t, hstack, (Nat.add_sub_cancel_left ..).symm, fun _ => rfl, hmove, hrest,
      hread⟩
  · have hdrop := Stack.dropRangeStraight_of_ge (not_le.1 hle).le e.cc.stack
    obtain ⟨t, hmove, hrest, hread⟩ := exec_moveStackFromCc_of_drop hpeer hnegative hdrop
    refine ⟨[], [], e.cc.stack, t, rfl, ?_, fun h => absurd h hle, hmove, hrest, hread⟩
    rw [List.length_nil]
    omega

/-! ### Permuting blocks -/

theorem exec_onStack_error {op : Stack → Except Failure Stack} {failure : Failure}
    (h : op e.cc.stack = .error failure) : exec (onStack op) e = (.error failure.toError, e) := by
  unfold onStack
  rw [exec_bind_get, h]
  rfl

/-- `block_swap` exchanges neighbouring blocks, `reverse_range` reverses one, the first is three of the
second, and neither touches the stack when the range is too deep. -/
theorem permutes_blocks :
    (∀ bottom lower upper : Stack,
      Stack.blockSwap lower.length upper.length (bottom ++ lower ++ upper) =
        .ok (bottom ++ upper ++ lower) ∧
      Stack.blockSwap upper.length lower.length (bottom ++ upper ++ lower) =
        .ok (bottom ++ lower ++ upper)) ∧
    (∀ bottom block top : Stack,
      Stack.reverseRange top.length (top.length + block.length) (bottom ++ block ++ top) =
        .ok (bottom ++ block.reverse ++ top)) ∧
    (∀ (stack : Stack) (start stop : Nat), start ≤ stop → stop ≤ stack.length →
      (Stack.reverseRange start stop stack >>= Stack.reverseRange start stop) = .ok stack) ∧
    (∀ (stack : Stack) (i j : Nat), i + j ≤ stack.length →
      Stack.blockSwap i j stack = (do
        let stack ← Stack.reverseRange 0 j stack
        let stack ← Stack.reverseRange j (i + j) stack
        Stack.reverseRange 0 (i + j) stack)) ∧
    (∀ (e : Engine) (i j : Nat), e.cc.stack.length < i + j →
      exec (onStack (Stack.blockSwap i j)) e = (.error (.exception (.fromCode .stackUnderflow)), e)) ∧
    ∀ (e : Engine) (start stop : Nat), e.cc.stack.length < stop →
      exec (onStack (Stack.reverseRange start stop)) e =
        (.error (.exception (.fromCode .stackUnderflow)), e) := by
  refine ⟨fun bottom lower upper => ?_, Stack.reverseRange_block, fun stack start stop hle hstop => ?_,
    fun stack i j hdepth => ?_, fun e i j hdepth => ?_, fun e start stop hdepth => ?_⟩
  · exact ⟨Stack.blockSwap_block bottom lower upper, Stack.blockSwap_block bottom upper lower⟩
  · obtain ⟨bottom, block, top, rfl, rfl, rfl⟩ := Stack.exists_block hle hstop
    rw [Stack.reverseRange_block]
    have hback := Stack.reverseRange_block bottom block.reverse top
    rwa [List.length_reverse, List.reverse_reverse] at hback
  · obtain ⟨bottom, lower, upper, rfl, rfl, hlen⟩ :=
      Stack.exists_block (Nat.le_add_left j i) hdepth
    obtain rfl : i = lower.length := by omega
    rw [Stack.blockSwap_block, Stack.reverse_blocks]
  · exact exec_onStack_error (Stack.blockSwap_of_lt hdepth)
  · exact exec_onStack_error (Stack.reverseRange_of_lt hdepth)

end Engine

end StackMoves

namespace Engine

open scoped Plain

/-- Four values on the stack, and a continuation with one value in the first variable. -/
def movingRange : Engine :=
  { Plain.idle with
    cc.stack := [.int 1, .int 2, .int 3, .int 4]
    cmd.vars := [.continuation { code := Plain.code [], stack := [.int 0] }] }

/-- The two values in the middle are moved. -/
theorem moves_middle_in_order :
    ∃ t, exec (moveStackFromCc (Addr.var 0) 1 3) movingRange = (.ok (), t) ∧
      t.cc.stack = [.int 1, .int 4] ∧ exec (continuationByAddress (Addr.var 0)) t =
        (.ok { code := Plain.code [], stack := [.int 0, .int 2, .int 3] }, t) := by
  obtain ⟨bottom, moved, top, t, hstack, hmoved, htop, ht, hrest, hpeer⟩ :=
    moves_range_in_order.1 movingRange (Addr.var 0) { code := Plain.code [], stack := [.int 0] } 1 3
      rfl rfl (by decide)
  have hcut : [StackItem.int 1] ++ [.int 2, .int 3] ++ [.int 4] = bottom ++ moved ++ top := hstack
  obtain ⟨hlower, rfl⟩ := List.append_inj' hcut (htop (by decide)).symm
  obtain ⟨rfl, rfl⟩ := List.append_inj' hlower hmoved.symm
  exact ⟨t, ht, hrest, hpeer⟩

theorem permutes_four :
    (Stack.reverseRange 1 3 movingRange.cc.stack >>= Stack.reverseRange 1 3) =
      .ok movingRange.cc.stack ∧
    Stack.blockSwap 1 3 movingRange.cc.stack = (do
      let stack ← Stack.reverseRange 0 3 movingRange.cc.stack
      let stack ← Stack.reverseRange 3 4 stack
      Stack.reverseRange 0 4 stack) ∧
    exec (onStack (Stack.blockSwap 2 3)) movingRange =
      (.error (.exception (.fromCode .stackUnderflow)), movingRange) ∧
    exec (onStack (Stack.reverseRange 1 5)) movingRange =
      (.error (.exception (.fromCode .stackUnderflow)), movingRange) := by
  obtain ⟨-, -, htwice, hthree, hswap, hreverse⟩ := permutes_blocks
  exact ⟨htwice _ 1 3 (by decide) (by decide), hthree _ 1 3 (by decide),
    hswap _ 2 3 (by decide), hreverse _ 1 5 (by decide)⟩

end Engine

end TonVm
