import TonVm.Stack.Ops

/-!
# Blocks of the stack

A stack is cut into a bottom, a block and a top, and an operation on a range says what becomes of the
parts. The ways the source takes for speed (swapping whole vectors, draining the top, exchanging items
from both ends) are told apart in the definitions and come to the same here.
-/

namespace TonVm.Stack

variable {α : Type}

/-! ### Cutting a stack -/

/-- Every range of positions below the depth is a block. -/
theorem exists_block {stack : List α} {start stop : Nat} (hle : start ≤ stop)
    (hstop : stop ≤ depth stack) :
    ∃ bottom block top, stack = bottom ++ block ++ top ∧ start = top.length ∧
      stop = top.length + block.length := by
  refine ⟨stack.take (depth stack - stop), (stack.drop (depth stack - stop)).take (stop - start),
    stack.drop (depth stack - start), ?_, ?_, ?_⟩
  · have hrest : stack.drop (depth stack - start) =
        (stack.drop (depth stack - stop)).drop (stop - start) := by
      rw [List.drop_drop]
      congr 1
      omega
    rw [List.append_assoc, hrest, List.take_append_drop, List.take_append_drop]
  all_goals
    unfold depth at *
    simp only [List.length_drop, List.length_take]
    omega

variable (bottom block top : List α)

theorem depth_block : depth (bottom ++ block ++ top) - (top.length + block.length) = bottom.length ∧
    depth (bottom ++ block ++ top) - top.length = bottom.length + block.length := by
  unfold depth
  simp only [List.length_append]
  omega

/-! ### Taking a block out -/

theorem dropRange_block :
    dropRange top.length (top.length + block.length) (bottom ++ block ++ top) =
      .ok (block.reverse, bottom ++ top) := by
  obtain ⟨hbottom, htop⟩ := depth_block bottom block top
  unfold dropRange
  by_cases hempty : top.length ≥ top.length + block.length
  · obtain rfl : block = [] := List.eq_nil_of_length_eq_zero (by omega)
    rw [if_pos hempty, List.append_nil, List.reverse_nil]
  · rw [if_neg hempty, if_neg (by unfold depth; simp only [List.length_append]; omega), hbottom, htop,
      Nat.add_sub_cancel_left]
    simp

/-- The two ways of taking a range out differ in the order of what is taken. -/
theorem dropRangeStraight_eq (start stop : Nat) (stack : List α) :
    dropRangeStraight start stop stack =
      (dropRange start stop stack).map fun (items, rest) => (items.reverse, rest) := by
  unfold dropRangeStraight dropRange
  by_cases hempty : start ≥ stop
  · rw [if_pos hempty, if_pos hempty]
    rfl
  rw [if_neg hempty, if_neg hempty]
  rcases lt_trichotomy stop (depth stack) with hlt | heq | hgt
  · rw [Nat.compare_eq_lt.2 hlt, if_neg (by omega)]
    simp [Except.map]
  · rw [Nat.compare_eq_eq.2 heq, if_neg (by omega), heq]
    simp [Except.map]
  · rw [Nat.compare_eq_gt.2 hgt, if_pos hgt]
    rfl

theorem dropRangeStraight_block :
    dropRangeStraight top.length (top.length + block.length) (bottom ++ block ++ top) =
      .ok (block, bottom ++ top) := by
  rw [dropRangeStraight_eq, dropRange_block]
  simp [Except.map]

theorem dropRangeStraight_of_ge {start stop : Nat} (h : stop ≤ start) (stack : List α) :
    dropRangeStraight start stop stack = .ok ([], stack) := if_pos h

theorem dropRangeStraight_of_lt {start stop : Nat} {stack : List α} (hle : start < stop)
    (h : depth stack < stop) : dropRangeStraight start stop stack = .error (.code .stackUnderflow) := by
  unfold dropRangeStraight
  rw [if_neg (by omega), Nat.compare_eq_gt.2 h]

/-! ### Moving a block to another stack -/

/-- Each way of moving a range takes it out in its order and appends it. -/
theorem moveRange_eq (start stop : Nat) (peer stack : List α) :
    moveRange start stop peer stack =
      (dropRangeStraight start stop stack).map fun (moved, rest) => (peer ++ moved, rest) := by
  unfold moveRange
  by_cases hstart : start = 0
  · subst hstart
    rw [if_pos rfl]
    by_cases hdepth : depth stack < stop
    · rw [if_pos hdepth, dropRangeStraight_of_lt (by omega) hdepth]
      rfl
    · obtain ⟨bottom, block, top, rfl, htop, rfl⟩ := exists_block (Nat.zero_le stop) (not_lt.1 hdepth)
      obtain rfl : top = [] := List.eq_nil_of_length_eq_zero htop.symm
      have hdrop := dropRangeStraight_block bottom block []
      rw [List.length_nil] at hdrop hdepth ⊢
      rw [hdrop, if_neg hdepth]
      simp only [List.append_nil, Nat.zero_add, depth, List.length_append]
      by_cases hall : peer.isEmpty ∧ block.length = bottom.length + block.length
      · obtain ⟨hpeer, hlen⟩ := hall
        obtain rfl : peer = [] := List.isEmpty_iff.1 hpeer
        obtain rfl : bottom = [] := List.eq_nil_of_length_eq_zero (by omega)
        simp [Except.map]
      · rw [if_neg hall, Nat.add_sub_cancel, List.drop_left, List.take_left]
        rfl
  · rw [if_neg hstart]
    cases dropRangeStraight start stop stack <;> rfl

/-! ### Reversing a block -/

theorem exchange_ends (a b : α) :
    exchange (bottom.length + block.length + 1) bottom.length (bottom ++ (a :: block ++ [b]) ++ top) =
      .ok (bottom ++ (b :: block ++ [a]) ++ top) := by
  have hlast : (bottom ++ (a :: block ++ [b]) ++ top)[bottom.length + block.length + 1]? = some b := by
    simp [Nat.add_assoc]
  have hfirst : (bottom ++ (a :: block ++ [b]) ++ top)[bottom.length]? = some a := by
    simp
  unfold exchange
  rw [hlast, hfirst]
  simp [Nat.add_assoc]

/-- The exchanges from both ends, from the outermost pair inwards. -/
theorem reverse_loop (block bottom top : List α) :
    (List.range (block.length / 2)).foldlM (fun storage i =>
        exchange (bottom.length + block.length - i - 1) (bottom.length + i) storage)
        (bottom ++ block ++ top) = .ok (bottom ++ block.reverse ++ top) := by
  induction block using List.bidirectionalRec generalizing bottom top with
  | nil => simp [pure, Except.pure]
  | singleton a => simp [pure, Except.pure]
  | cons_append a block b ih =>
    have hlen : (a :: (block ++ [b])).length = block.length + 2 := by simp
    have hhalf : (block.length + 2) / 2 = block.length / 2 + 1 := by omega
    -- the later exchanges are those of the inner block
    have hinner := ih (bottom ++ [b]) (a :: top)
    have hstep (storage : List α) (i : Nat) :
        exchange (bottom.length + (block.length + 2) - (i + 1) - 1) (bottom.length + (i + 1)) storage =
          exchange ((bottom ++ [b]).length + block.length - i - 1) ((bottom ++ [b]).length + i)
            storage := by
      rw [List.length_append, List.length_singleton]
      congr 1 <;> omega
    have hfirst : exchange (bottom.length + (block.length + 2) - 0 - 1) (bottom.length + 0)
        (bottom ++ a :: (block ++ [b]) ++ top) = .ok (bottom ++ [b] ++ block ++ a :: top) := by
      refine (exchange_ends bottom block top a b).trans ?_
      simp
    rw [hlen, hhalf, List.range_succ_eq_map, List.foldlM_cons, hfirst]
    refine (List.foldlM_map ..).trans ?_
    simp only [Nat.succ_eq_add_one, hstep, hinner]
    simp

theorem reverseRange_block :
    reverseRange top.length (top.length + block.length) (bottom ++ block ++ top) =
      .ok (bottom ++ block.reverse ++ top) := by
  obtain ⟨hbottom, htop⟩ := depth_block bottom block top
  unfold reverseRange
  rw [if_neg (by unfold depth; simp only [List.length_append]; omega), if_neg (by omega), hbottom, htop,
    Nat.add_sub_cancel_left]
  exact reverse_loop block bottom top

/-- The loop in one equation. -/
theorem reverseRange_eq (start stop : Nat) (stack : List α) :
    reverseRange start stop stack =
      if stop > depth stack then .error (.code .stackUnderflow)
      else if start > stop then .error .panic
      else .ok (stack.take (depth stack - stop) ++
        ((stack.drop (depth stack - stop)).take (stop - start)).reverse ++
        stack.drop (depth stack - start)) := by
  by_cases hstop : stop > depth stack
  · rw [if_pos hstop]
    exact if_pos hstop
  · by_cases hstart : start > stop
    · rw [if_neg hstop, if_pos hstart, reverseRange, if_neg hstop, if_pos hstart]
    · obtain ⟨bottom, block, top, rfl, rfl, rfl⟩ := exists_block (not_lt.1 hstart) (not_lt.1 hstop)
      obtain ⟨hbottom, htop⟩ := depth_block bottom block top
      rw [if_neg hstop, if_neg hstart, reverseRange_block, hbottom, htop, Nat.add_sub_cancel_left]
      simp

theorem reverseRange_of_lt {start stop : Nat} {stack : List α} (h : depth stack < stop) :
    reverseRange start stop stack = .error (.code .stackUnderflow) := if_pos h

/-! ### Exchanging two blocks -/

theorem foldr_push (block stack : List α) : block.foldr push stack = stack ++ block.reverse := by
  induction block with
  | nil => simp
  | cons a block ih => rw [List.foldr_cons, ih, push, List.reverse_cons, List.append_assoc]

theorem blockSwap_block (bottom lower upper : List α) :
    blockSwap lower.length upper.length (bottom ++ lower ++ upper) = .ok (bottom ++ upper ++ lower) := by
  unfold blockSwap
  rw [if_neg (by unfold depth; simp only [List.length_append]; omega), dropRange_block]
  show Except.ok (lower.reverse.foldr push (bottom ++ upper)) = _
  rw [foldr_push, List.reverse_reverse]

theorem blockSwap_of_lt {i j : Nat} {stack : List α} (h : depth stack < i + j) :
    blockSwap i j stack = .error (.code .stackUnderflow) := by
  unfold blockSwap
  rw [if_pos (by omega)]
  rfl

/-- Two neighbouring blocks are exchanged by reversing each of them and then both. -/
theorem reverse_blocks (bottom lower upper : List α) :
    (do
      let stack ← reverseRange 0 upper.length (bottom ++ lower ++ upper)
      let stack ← reverseRange upper.length (lower.length + upper.length) stack
      reverseRange 0 (lower.length + upper.length) stack) = .ok (bottom ++ upper ++ lower) := by
  have hupper := reverseRange_block (bottom ++ lower) upper []
  have hlower := reverseRange_block bottom lower upper.reverse
  have hboth := reverseRange_block bottom (lower.reverse ++ upper.reverse) []
  simp only [List.length_nil, Nat.zero_add, List.append_nil, List.length_append, List.length_reverse,
    List.reverse_append, List.reverse_reverse, ← List.append_assoc] at hupper hlower hboth
  rw [hupper]
  show (reverseRange upper.length (lower.length + upper.length) (bottom ++ lower ++ upper.reverse) >>=
    reverseRange 0 (lower.length + upper.length)) = _
  rw [Nat.add_comm lower.length, hlower]
  show reverseRange 0 (upper.length + lower.length) (bottom ++ lower.reverse ++ upper.reverse) = _
  rw [Nat.add_comm upper.length, hboth]

end TonVm.Stack
