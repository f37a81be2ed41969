import TonVm.Stack.Item

/-!
# The operand stack

The stack is a list with its top at the end. Indices in these operations count from the top. Each
operation checks before it changes anything, so a failed one returns no stack; indexing with `get`
is unchecked in the source and panics.
-/

namespace TonVm.Stack

variable {α : Type}

def depth (stack : List α) : Nat := stack.length

/-- `drop_top`: on a stack that is too short it only logs. -/
def dropTop (n : Nat) (stack : List α) : List α :=
  if depth stack < n then stack else stack.take (depth stack - n)

/-- `drop`: removes the item at an index and returns it. -/
def drop (i : Nat) (stack : List α) : Except Failure (α × List α) :=
  match stack[depth stack - i - 1]? with
  | some item =>
    if i ≥ depth stack then
      .error (.code .stackUnderflow)
    else
      .ok (item, stack.eraseIdx (depth stack - i - 1))
  | none => .error (.code .stackUnderflow)

/-- `drop_range(start..end)`: the removed items come topmost first. -/
def dropRange (start stop : Nat) (stack : List α) : Except Failure (List α × List α) :=
  if start ≥ stop then
    .ok ([], stack)
  else if stop > depth stack then
    .error (.code .stackUnderflow)
  else
    .ok (((stack.drop (depth stack - stop)).take (stop - start)).reverse,
      stack.take (depth stack - stop) ++ stack.drop (depth stack - start))

/-- `drop_range_straight(start..end)`: the removed items keep their order. A range that goes down to
the bottom keeps the vector for the removed items and copies those above them. -/
def dropRangeStraight (start stop : Nat) (stack : List α) : Except Failure (List α × List α) :=
  if start ≥ stop then
    .ok ([], stack)
  else
    match Ord.compare stop (depth stack) with
    | .gt => .error (.code .stackUnderflow)
    | .eq => .ok (stack.take (depth stack - start), stack.drop (depth stack - start))
    | .lt =>
      .ok ((stack.drop (depth stack - stop)).take (stop - start),
        stack.take (depth stack - stop) ++ stack.drop (depth stack - start))

/-- The stacks of the receiver and of the current continuation after `move_stack_from_cc`: the top is
drained, or the two vectors are swapped when all of the stack goes to an empty one. -/
def moveRange (start stop : Nat) (peer stack : List α) : Except Failure (List α × List α) :=
  if start = 0 then
    if depth stack < stop then
      .error (.code .stackUnderflow)
    else if peer.isEmpty ∧ stop = depth stack then
      .ok (stack, peer)
    else
      .ok (peer ++ stack.drop (depth stack - stop), stack.take (depth stack - stop))
  else do
    let (popped, stack) ← dropRangeStraight start stop stack
    return (peer ++ popped, stack)

def get (i : Nat) (stack : List α) : Except Failure α :=
  if i < depth stack then
    match stack[depth stack - i - 1]? with
    | some item => .ok item
    | none => .error .panic
  else
    .error .panic

def insert (i : Nat) (item : α) (stack : List α) : Except Failure (List α) :=
  if i ≤ depth stack then
    .ok (stack.insertIdx (depth stack - i) item)
  else
    .error .panic

def push (item : α) (stack : List α) : List α := stack ++ [item]

/-- `Vec::swap`, at positions from the bottom. -/
def exchange (a b : Nat) (storage : List α) : Except Failure (List α) :=
  match storage[a]?, storage[b]? with
  | some x, some y => .ok ((storage.set a y).set b x)
  | _, _ => .error .panic

/-- `reverse_range(start..end)`: exchanges from both ends of the block towards its middle. -/
def reverseRange (start stop : Nat) (stack : List α) : Except Failure (List α) :=
  if stop > depth stack then
    .error (.code .stackUnderflow)
  else if start > stop then
    .error .panic
  else
    (List.range ((stop - start) / 2)).foldlM (fun storage i =>
      exchange (depth stack - start - i - 1) (depth stack - stop + i) storage) stack

def pushCopy (index : Nat) (stack : List α) : Except Failure (List α) :=
  if index ≥ depth stack then
    .error (.code .stackUnderflow)
  else
    match stack[depth stack - 1 - index]? with
    | some item => .ok (push item stack)
    | none => .error .panic

def swap (i j : Nat) (stack : List α) : Except Failure (List α) :=
  if i ≥ depth stack ∨ j ≥ depth stack then
    .error (.code .stackUnderflow)
  else
    match stack[depth stack - i - 1]?, stack[depth stack - j - 1]? with
    | some x, some y =>
      .ok ((stack.set (depth stack - i - 1) y).set (depth stack - j - 1) x)
    | _, _ => .error .panic

/-- `block_swap`: swaps the blocks `0 .. j - 1` and `j .. j + i - 1`. -/
def blockSwap (i j : Nat) (stack : List α) : Except Failure (List α) := do
  if depth stack < j + i then
    throw (.code .stackUnderflow)
  let (block, stack) ← dropRange j (j + i) stack
  -- the block is popped from its end and pushed
  return block.foldr push stack

end TonVm.Stack
