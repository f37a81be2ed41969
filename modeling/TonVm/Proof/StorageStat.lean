import TonVm.Lib.Unfolding
import TonVm.Proof.CellLoads
import TonVm.Proof.Instruction
import TonVm.Proof.Integer
import TonVm.Proof.Views

/-!
# Storage statistics

`CDATASIZE` and `SDATASIZE` count the cells, bits and references under a cell or a slice. The slow way
walks over the cells and stops at a limit; the fast way takes the totals that the cells store, where
equal cells count more than once. Where no two cells are equal both should count the same. For a slice
the fast way adds the references of the slice to totals that have them already, and it has no case for
Null.
-/

namespace TonVm

open ExecLib Unfolding

section Laws

variable [TonTypes] [Views]

/-- An ordinary cell and the slice with its contents. -/
def Opens (cell : Cell) (slice : SliceData) : Prop :=
  TonTypes.cellType cell = .ordinary ∧ TonTypes.loadCell cell = .ok slice

/-- The cells that are reached from some cells, when all of them are ordinary. -/
abbrev ReachesCells : List Cell → List (Cell × SliceData) → Prop := Spans Opens sliceRefs

/-- No two of the cells are equal. -/
def AllDistinct (nodes : List (Cell × SliceData)) : Prop :=
  (nodes.map fun node => TonTypes.reprHash node.1).Nodup

def totalBits (nodes : List (Cell × SliceData)) : Nat :=
  (nodes.map fun node => (sliceBits node.2).length).sum

def totalRefs (nodes : List (Cell × SliceData)) : Nat :=
  (nodes.map fun node => (sliceRefs node.2).length).sum

/-- The totals that a cell stores are those of its tree. -/
class LawfulCounts : Prop where
  treeCellCount : ∀ cell nodes, ReachesCells [cell] nodes → TonTypes.treeCellCount cell = nodes.length
  treeBitsCount : ∀ cell nodes, ReachesCells [cell] nodes → TonTypes.treeBitsCount cell = totalBits nodes

end Laws

namespace Engine

/-! ### Saturation -/

/-- The largest `usize` for what exceeds it. -/
def saturated (n : Nat) : Nat := min n (2 ^ 64 - 1)

theorem saturatingAdd_saturated (a b : Nat) : saturatingAdd (saturated a) b = saturated (a + b) := by
  unfold saturatingAdd saturated
  omega

theorem saturated_of_lt {n : Nat} (h : n < 2 ^ 64) : saturated n = n := by
  unfold saturated
  omega

theorem foldl_saturatingAdd {α : Type} (f : α → Nat) (l : List α) (n : Nat) :
    l.foldl (fun n a => saturatingAdd n (f a)) (saturated n) = saturated (n + (l.map f).sum) := by
  induction l generalizing n with
  | nil => rfl
  | cons a l ih =>
    rw [List.foldl_cons, saturatingAdd_saturated, ih, List.map_cons, List.sum_cons, Nat.add_assoc]

/-! ### The walk -/

section Walk

variable [TonTypes]

/-- A cell is opened, at most at the price of a cell that has not been visited. -/
theorem exec_open {α : Type} {cell : Cell} {slice : SliceData} (hopen : Opens cell slice) {s : Engine}
    (hgas : Gas.loadCellPrice true ≤ s.gas.gasRemaining) :
    ∃ t, (∀ k : SliceData → M α, exec (if s.blockVersion = 34 then lift (TonTypes.loadCell cell) >>= k
        else loadHashedCell cell false >>= k) s = exec (k slice) t) ∧ t.cc = s.cc ∧
      s.gas.gasRemaining ≤ t.gas.gasRemaining + Gas.loadCellPrice true := by
  obtain ⟨htype, hload⟩ := hopen
  by_cases hversion : s.blockVersion = 34
  · have hprice : 0 ≤ Gas.loadCellPrice true := by decide
    refine ⟨s, fun k => ?_, rfl, by omega⟩
    rw [if_pos hversion, hload, lift_ok, pure_bind]
  · obtain ⟨t, hexec, hkept⟩ := exec_loadHashedCell_ordinary false htype hload hgas
    refine ⟨t, fun k => ?_, hkept⟩
    rw [if_neg hversion, exec_bind_ok hexec]

variable [Views]

/-- What a walk counts, starting from some counts: everything, or nothing if there are too many
cells. -/
def tally (max cells bits refs : Nat) (nodes : List (Cell × SliceData)) : Option DataSize :=
  if cells + nodes.length ≤ max then
    some ⟨cells + nodes.length, saturated (bits + totalBits nodes), saturated (refs + totalRefs nodes)⟩
  else none

theorem tally_perm {nodes nodes' : List (Cell × SliceData)} (h : nodes'.Perm nodes)
    (max cells bits refs : Nat) :
    tally max cells bits refs nodes' = tally max cells bits refs nodes := by
  have htotal (f : Cell × SliceData → Nat) : (nodes'.map f).sum = (nodes.map f).sum :=
    (h.map f).sum_eq
  unfold tally totalBits totalRefs
  rw [h.length_eq, htotal, htotal]

/-- One cell has been counted. -/
theorem tally_cons (max cells bits refs : Nat) (cell : Cell) (slice : SliceData)
    (nodes : List (Cell × SliceData)) :
    tally max cells bits refs ((cell, slice) :: nodes) =
      tally max (cells + 1) (bits + (sliceBits slice).length) (refs + (sliceRefs slice).length)
        nodes := by
  have hlength : cells + ((cell, slice) :: nodes).length = cells + 1 + nodes.length := by
    rw [List.length_cons]
    omega
  unfold tally totalBits totalRefs
  rw [hlength, List.map_cons, List.sum_cons, List.map_cons, List.sum_cons, Nat.add_assoc bits,
    Nat.add_assoc refs]

variable [LawfulSlices]

theorem readableReferences_eq (slice : SliceData) : readableReferences slice = sliceRefs slice := by
  have hread : (List.range (sliceRefs slice).length).map
      (fun i => (TonTypes.sliceReference slice i).toOption) = (sliceRefs slice).map some := by
    refine List.ext_getElem (by simp) fun i hi hi' => ?_
    have hcell := List.getElem?_eq_getElem (by simpa using hi)
    rw [List.getElem_map, List.getElem_map, List.getElem_range,
      LawfulSlices.sliceReference slice i _ hcell]
    rfl
  have hall := congrArg (List.filterMap id) hread
  rw [List.filterMap_map, List.filterMap_map] at hall
  unfold readableReferences
  rw [LawfulSlices.remainingReferences]
  exact hall.trans List.filterMap_some

theorem sliceReferences_from (slice : SliceData) {count index : Nat}
    (h : index + count = (sliceRefs slice).length) :
    sliceReferences slice count index = .ok ((sliceRefs slice).drop index) := by
  induction count generalizing index with
  | zero =>
    have hdrop : (sliceRefs slice).drop index = [] := List.drop_eq_nil_of_le h.ge
    rw [hdrop]
    rfl
  | succ count ih =>
    have hlt : index < (sliceRefs slice).length := by omega
    have hcell := LawfulSlices.sliceReference slice index _ (List.getElem?_eq_getElem hlt)
    unfold sliceReferences
    rw [hcell, ih (by omega), List.drop_eq_getElem_cons hlt]
    rfl

theorem sliceReferences_eq (slice : SliceData) :
    sliceReferences slice (TonTypes.remainingReferences slice) 0 = .ok (sliceRefs slice) := by
  rw [LawfulSlices.remainingReferences, sliceReferences_from slice (Nat.zero_add _), List.drop_zero]

/-- The walk over the cells that are reached: each of them is new when it is taken off. -/
theorem exec_walkCells {max fuel cells : Nat} (bits refs : Nat) {stack : List Cell}
    {nodes : List (Cell × SliceData)} {visited : List UInt256} {s : Engine}
    (hreach : ReachesCells stack nodes) (hdistinct : AllDistinct nodes)
    (hnew : ∀ node ∈ nodes, TonTypes.reprHash node.1 ∉ visited) (hfuel : max < fuel + cells)
    (hcells : cells ≤ max) (hgas : Gas.loadCellPrice true * nodes.length ≤ s.gas.gasRemaining) :
    ∃ t, exec (walkCells max fuel stack visited ⟨cells, saturated bits, saturated refs⟩) s =
      (.ok (tally max cells bits refs nodes), t) ∧ t.cc = s.cc := by
  induction fuel generalizing cells bits refs stack nodes visited s with
  | zero => omega
  | succ fuel ih =>
    obtain - | ⟨hopen, hunder, hothers⟩ := hreach
    · refine ⟨s, ?_, rfl⟩
      unfold tally
      rw [List.length_nil, if_pos (by omega)]
      rfl
    · rename_i cell slice stack under others
      rw [AllDistinct, List.map_cons, List.nodup_cons] at hdistinct
      have hfresh : TonTypes.reprHash cell ∉ visited := hnew _ List.mem_cons_self
      unfold walkCells
      rw [if_neg hfresh]
      by_cases hlimit : max = cells
      · refine ⟨s, ?_, rfl⟩
        unfold tally
        rw [if_pos hlimit, if_neg (by rw [List.length_cons]; omega)]
        rfl
      · rw [if_neg hlimit, exec_bind_get]
        have hprice : Gas.loadCellPrice true = 100 := rfl
        rw [List.length_cons, hprice] at hgas
        push_cast at hgas
        have hpay : Gas.loadCellPrice true ≤ s.gas.gasRemaining := by omega
        obtain ⟨t, hload, hcc, hpaid⟩ := exec_open hopen hpay
        obtain ⟨under', hunder', hperm⟩ := hunder.perm (List.reverse_perm _).symm
        have hsame := hperm.append_right others
        have hhashes := hsame.map fun node => TonTypes.reprHash node.1
        rw [hload]
        dsimp only
        rw [readableReferences_eq, LawfulSlices.remainingBits, LawfulSlices.remainingReferences,
          saturatingAdd_saturated, saturatingAdd_saturated, ← hcc, tally_cons,
          ← tally_perm hsame]
        refine ih _ _ (hunder'.append hothers) (hhashes.nodup_iff.2 hdistinct.2) ?_ (by omega)
          (by omega) ?_
        · -- the cells that remain are neither visited nor the one that has been opened
          intro node hnode
          have hmem := hsame.mem_iff.1 hnode
          rw [List.mem_cons, not_or]
          refine ⟨fun heq => hdistinct.1 ?_, hnew node (List.mem_cons_of_mem _ hmem)⟩
          exact List.mem_map.2 ⟨node, hmem, heq⟩
        · rw [hsame.length_eq, hprice]
          omega

end Walk

/-! ### The instructions -/

/-- The number of cells that is allowed. -/
def cellLimit (n : Nat) : Nat := min n (2 ^ 63 - 1)

theorem intoUsize_cellLimit (n : Nat) :
    (IntegerData.value n).intoUsize 0 (2 ^ 63 - 1) = .ok (cellLimit n) ∨
    ∃ failure, (IntegerData.value n).intoUsize 0 (2 ^ 63 - 1) = .error failure ∧
      cellLimit n = 2 ^ 63 - 1 := by
  by_cases h : n ≤ 2 ^ 63 - 1
  · left
    rw [IntegerData.intoUsize_natCast h, cellLimit, min_eq_left h]
  · right
    have hrange : ¬(((0 : Nat) : Int) ≤ n ∧ (n : Int) ≤ ((2 ^ 63 - 1 : Nat) : Int)) := by omega
    refine ⟨.code .rangeCheckError, ?_, min_eq_right (not_le.1 h).le⟩
    rw [IntegerData.intoUsize, IntegerData.into, if_neg hrange]
    rfl

section Instructions

open LoadMask

variable [TonTypes]

/-- What the size is taken of: a slice, or a cell or Null. -/
inductive Measured where
  | null
  | cell (cell : Cell)
  | slice (slice : SliceData)

namespace Measured

def item : Measured → StackItem
  | null => .none
  | cell c => .cell c
  | slice s => .slice s

def handler (quiet : Bool) : Measured → M Unit
  | null | cell _ => if quiet then executeCdatasizeq else executeCdatasize
  | slice _ => if quiet then executeSdatasizeq else executeSdatasize

def isSlice : Measured → Bool
  | slice _ => true
  | _ => false

variable [Views]

/-- The cells whose trees are counted: the one that holds a slice is not among them. -/
def roots : Measured → List Cell
  | null => []
  | cell c => [c]
  | slice s => sliceRefs s

/-- The bits that are counted besides those of the cells. -/
def ownBits : Measured → Nat
  | null | cell _ => 0
  | slice s => (sliceBits s).length

/-- The references that are counted besides those of the cells. -/
def ownRefs : Measured → Nat
  | null | cell _ => 0
  | slice s => (sliceRefs s).length

/-- The bounds of the data types: a stored total has 64 bits, and a slice is part of a cell. -/
def Bounded : Measured → Prop
  | null => True
  | cell c => TonTypes.treeBitsCount c < 2 ^ 64
  | slice s => (sliceBits s).length ≤ 1023 ∧ (sliceRefs s).length ≤ 4

end Measured

/-- Both capabilities that switch to the stored totals. -/
def fastStat (capabilities : List GlobalCapability) : Bool :=
  capabilities.contains .capFastStorageStatBugfix && capabilities.contains .capFastStorageStat

/-- The state with the operands on the stack. -/
def measuring (e : Engine) (item : Measured) (n : Nat) : Engine := e.given [item.item, .int n]

/-- The state in which the counting starts. -/
def measured (e : Engine) (item : Measured) (n : Nat) : Engine :=
  e.afterLoad.holding e.cc e.ctrls [.int n, item.item]

/-- The end of the instructions: what is pushed for a result. -/
def report (quiet : Bool) (result : Option DataSize) : M Unit := do
  match result with
  | some size =>
    pushInt size.cells
    pushInt size.bits
    pushInt size.refs
  | none =>
    if !quiet then
      err .cellOverflow
  if quiet then
    push (.boolean result.isSome)

/-- The items have the types that the instructions check. -/
theorem checkType_eq (item : Measured) (k : M Unit) :
    (if (!!item.isSlice) = true then lift item.item.asSlice >>= fun _ => k
      else if (!item.item.isNull) = true then lift item.item.asCell >>= fun _ => k else k) = k := by
  cases item <;> rfl

theorem exec_datasize_of {how : UInt8} {quiet : Bool} {item : Measured}
    (hquiet : UInt8.bit how QUIET = quiet) (hcel : UInt8.bit how CEL = !item.isSlice) (n : Nat)
    (e : Engine) :
    exec (datasize how) (e.measuring item n) = exec (do
      let result ← if fastStat e.capabilities then do
          let size ← lift (fastDatasize item.item)
          pure (if size.cells ≤ cellLimit n then some size else none)
        else slowDatasize (cellLimit n) item.item
      report quiet result) (e.measured item n) := by
  have hint : (StackItem.int n).asInteger = .ok (.value n) := rfl
  have hneg : (IntegerData.value n).checkNeg = .ok () := by
    simp [IntegerData.checkNeg]
  unfold datasize
  refine (exec_load_fetchStack e [item.item, .int n] _).trans ?_
  rw [exec_bind_ok (exec_var _ rfl), hint, lift_ok, pure_bind, exec_bind_ok (exec_var _ rfl), hcel,
    hquiet]
  dsimp only
  rw [checkType_eq, hneg, lift_ok, pure_bind, exec_bind_get]
  rcases intoUsize_cellLimit n with hmax | ⟨failure, hmax, hlimit⟩
  · rw [hmax]
    rfl
  · rw [hmax, hlimit]
    rfl

theorem exec_datasize (quiet : Bool) (item : Measured) (n : Nat) (e : Engine) :
    exec (item.handler quiet) (e.measuring item n) = exec (do
      let result ← if fastStat e.capabilities then do
          let size ← lift (fastDatasize item.item)
          pure (if size.cells ≤ cellLimit n then some size else none)
        else slowDatasize (cellLimit n) item.item
      report quiet result) (e.measured item n) := by
  cases item <;> cases quiet <;> exact exec_datasize_of rfl rfl n e

/-! ### What is reported -/

/-- How an instruction ends, and the stack that it leaves. -/
def outcome (r : Except Error Unit × Engine) : Except Error Unit × Stack := (r.1, r.2.cc.stack)

/-- The outcome for a result. -/
def reported (quiet : Bool) (stack : Stack) : Option DataSize → Except Error Unit × Stack
  | some size => (.ok (), stack ++ [.int size.cells, .int size.bits, .int size.refs] ++
      if quiet then [.boolean true] else [])
  | none => if quiet then (.ok (), stack ++ [.boolean false])
      else (.error (.exception (.fromCode .cellOverflow)), stack)

theorem exec_pushInt_natCast {n : Nat} (h : n < 2 ^ 64) (s : Engine) :
    exec (pushInt n) s = (.ok (), s.given [.int n]) := by
  have hrange : InRange n := by
    constructor
    · omega
    · have : (2 : Int) ^ 64 ≤ 2 ^ 256 := pow_le_pow_right₀ (by decide) (by decide)
      omega
  unfold pushInt
  rw [StackItem.checkedInt_of_inRange hrange, lift_ok, pure_bind]
  exact exec_push_given _

theorem outcome_report (quiet : Bool) {result : Option DataSize}
    (h : ∀ size ∈ result, size.cells < 2 ^ 64 ∧ size.bits < 2 ^ 64 ∧ size.refs < 2 ^ 64) (s : Engine) :
    outcome (exec (report quiet result) s) = reported quiet s.cc.stack result := by
  cases result with
  | none => cases quiet <;> rfl
  | some size =>
    obtain ⟨hcells, hbits, hrefs⟩ := h size rfl
    unfold report
    dsimp only
    rw [exec_bind_ok (exec_pushInt_natCast hcells s), exec_bind_ok (exec_pushInt_natCast hbits _),
      exec_bind_ok (exec_pushInt_natCast hrefs _), given_given, given_given]
    cases quiet with
    | false => simp [outcome, reported, given]
    | true =>
      rw [if_pos rfl, exec_push_given]
      simp [outcome, reported, given]

/-- Results that are reported alike have the same number of cells. -/
theorem cells_of_reported_eq {quiet : Bool} {stack : Stack} {result result' : Option DataSize}
    (h : reported quiet stack result = reported quiet stack result') :
    result.map DataSize.cells = result'.map DataSize.cells := by
  cases quiet <;> cases result <;> cases result' <;>
    simp_all [reported, StackItem.int]

/-- The fast way has no case for Null. -/
theorem outcome_fast_null (quiet : Bool) (n : Nat) {e : Engine}
    (hfast : fastStat e.capabilities = true) :
    outcome (exec (Measured.null.handler quiet) (e.measuring .null n)) =
      (.error (.exception (.fromCode .typeCheckError)), e.cc.stack) := by
  rw [exec_datasize, hfast]
  rfl

/-! ### The two ways of counting -/

section Counting

variable [Views]

/-- What the slow way counts. -/
def expected (item : Measured) (n : Nat) (nodes : List (Cell × SliceData)) : Option DataSize :=
  tally (cellLimit n) 0 item.ownBits item.ownRefs nodes

/-- What the fast way counts: the references of a slice are in the totals of its cells already. -/
def fastTally (item : Measured) (n : Nat) (nodes : List (Cell × SliceData)) : Option DataSize :=
  tally (cellLimit n) item.ownRefs item.ownBits (2 * item.ownRefs) nodes

/-- The items for which the two ways agree. -/
def Agrees (n : Nat) (nodes : List (Cell × SliceData)) : Measured → Prop
  | .null => False
  | .cell _ => True
  | .slice s => sliceRefs s = [] ∨ cellLimit n < nodes.length

theorem tally_lt {n cells bits refs : Nat} {nodes : List (Cell × SliceData)} :
    ∀ size ∈ tally (cellLimit n) cells bits refs nodes,
      size.cells < 2 ^ 64 ∧ size.bits < 2 ^ 64 ∧ size.refs < 2 ^ 64 := by
  intro size hsize
  unfold tally at hsize
  split_ifs at hsize with hle
  · cases hsize
    have hlimit : cellLimit n ≤ 2 ^ 63 - 1 := min_le_right _ _
    have hsaturated (m : Nat) : saturated m < 2 ^ 64 := by
      unfold saturated
      omega
    exact ⟨by dsimp only; omega, hsaturated _, hsaturated _⟩
  · cases hsize

/-- Where the counts of the two ways are reported alike. -/
theorem reported_fastTally_iff {item : Measured} (hnull : item ≠ .null) (quiet : Bool)
    (stack : Stack) (n : Nat) (nodes : List (Cell × SliceData)) :
    reported quiet stack (fastTally item n nodes) = reported quiet stack (expected item n nodes) ↔
      Agrees n nodes item := by
  cases item with
  | null => exact absurd rfl hnull
  | cell c => exact iff_of_true rfl trivial
  | slice slice =>
    by_cases hempty : sliceRefs slice = []
    · refine iff_of_true ?_ (.inl hempty)
      have hrefs : (Measured.slice slice).ownRefs = 0 := List.length_eq_zero_iff.2 hempty
      unfold fastTally expected
      rw [hrefs]
    · have hpos : 0 < (Measured.slice slice).ownRefs := List.length_pos_iff.2 hempty
      have hagrees : Agrees n nodes (.slice slice) ↔ cellLimit n < nodes.length := or_iff_right hempty
      rw [hagrees]
      unfold fastTally expected tally
      by_cases hle : 0 + nodes.length ≤ cellLimit n
      · refine iff_of_false (fun hsame => ?_) (by omega)
        have hcells := cells_of_reported_eq hsame
        rw [if_pos hle] at hcells
        split_ifs at hcells
        · have hcells := Option.some.inj hcells
          dsimp only at hcells
          omega
        · cases hcells
      · refine iff_of_true ?_ (by omega)
        rw [if_neg hle, if_neg (by omega)]

variable [LawfulSlices]

theorem exec_slowDatasize {item : Measured} {nodes : List (Cell × SliceData)}
    (hreach : ReachesCells item.roots nodes) (hdistinct : AllDistinct nodes) (hbounded : item.Bounded)
    (n : Nat) {s : Engine} (hgas : Gas.loadCellPrice true * nodes.length ≤ s.gas.gasRemaining) :
    ∃ t, exec (slowDatasize (cellLimit n) item.item) s = (.ok (expected item n nodes), t) ∧
      t.cc = s.cc := by
  have hfuel : cellLimit n < 5 * cellLimit n + 10 + 0 := by omega
  unfold slowDatasize
  cases item with
  | null =>
    obtain - | _ := hreach
    refine ⟨s, ?_, rfl⟩
    unfold expected tally
    rw [List.length_nil, if_pos (Nat.zero_le _)]
    rfl
  | cell c =>
    exact exec_walkCells 0 0 hreach hdistinct (fun _ _ => List.not_mem_nil) hfuel (Nat.zero_le _) hgas
  | slice slice =>
    obtain ⟨hbits, hrefs⟩ := hbounded
    obtain ⟨nodes', hreach', hperm⟩ := hreach.perm (List.reverse_perm (sliceRefs slice)).symm
    have hhashes := hperm.map fun node => TonTypes.reprHash node.1
    have hsizes : (⟨0, TonTypes.remainingBits slice, TonTypes.remainingReferences slice⟩ : DataSize) =
        ⟨0, saturated (sliceBits slice).length, saturated (sliceRefs slice).length⟩ := by
      rw [LawfulSlices.remainingBits, LawfulSlices.remainingReferences, saturated_of_lt (by omega),
        saturated_of_lt (by omega)]
    unfold expected
    rw [← tally_perm hperm]
    show ∃ t, exec (walkCells _ _ (readableReferences slice).reverse [] _) s = _ ∧ _
    rw [readableReferences_eq, hsizes]
    refine exec_walkCells _ _ hreach' (hhashes.nodup_iff.2 hdistinct) (fun _ _ => List.not_mem_nil)
      hfuel (Nat.zero_le _) ?_
    rwa [hperm.length_eq]

theorem outcome_slow (quiet : Bool) {item : Measured} (n : Nat) {nodes : List (Cell × SliceData)}
    (hreach : ReachesCells item.roots nodes) (hdistinct : AllDistinct nodes) (hbounded : item.Bounded)
    {e : Engine} (hslow : fastStat e.capabilities = false)
    (hgas : Gas.loadCellPrice true * nodes.length ≤ e.afterLoad.gas.gasRemaining) :
    outcome (exec (item.handler quiet) (e.measuring item n)) =
      reported quiet e.cc.stack (expected item n nodes) := by
  have hstart : Gas.loadCellPrice true * nodes.length ≤ (e.measured item n).gas.gasRemaining := hgas
  obtain ⟨t, hexec, hcc⟩ := exec_slowDatasize hreach hdistinct hbounded n hstart
  have hstack : t.cc.stack = e.cc.stack := by
    rw [hcc]
    rfl
  rw [exec_datasize, hslow]
  dsimp only
  rw [if_neg (by decide), exec_bind_ok hexec, ← hstack]
  exact outcome_report quiet tally_lt t

variable [LawfulCounts]

theorem fastDatasize_slice {slice : SliceData} {nodes : List (Cell × SliceData)}
    (hreach : ReachesCells (sliceRefs slice) nodes) (hbounded : (Measured.slice slice).Bounded) :
    fastDatasize (.slice slice) = .ok ⟨saturated ((sliceRefs slice).length + nodes.length),
      saturated ((sliceBits slice).length + totalBits nodes),
      saturated ((sliceRefs slice).length + nodes.length)⟩ := by
  obtain ⟨hbits, hrefs⟩ := hbounded
  have hcells := hreach.sum_roots_length LawfulCounts.treeCellCount
  have hsum : ((sliceRefs slice).map TonTypes.treeBitsCount).sum = totalBits nodes :=
    hreach.sum_roots LawfulCounts.treeBitsCount
  have hrefs' : TonTypes.remainingReferences slice = saturated (sliceRefs slice).length := by
    rw [LawfulSlices.remainingReferences, saturated_of_lt (by omega)]
  have hbits' : TonTypes.remainingBits slice = saturated (sliceBits slice).length := by
    rw [LawfulSlices.remainingBits, saturated_of_lt (by omega)]
  unfold fastDatasize
  dsimp only
  rw [sliceReferences_eq, ok_bind, hrefs', hbits', foldl_saturatingAdd, foldl_saturatingAdd, hcells,
    hsum]
  rfl

/-- The fast way, for everything but Null. -/
theorem fastDatasize_eq {item : Measured} {nodes : List (Cell × SliceData)}
    (hreach : ReachesCells item.roots nodes) (hbounded : item.Bounded) (hnull : item ≠ .null) (n : Nat) :
    ∃ size, fastDatasize item.item = .ok size ∧
      (if size.cells ≤ cellLimit n then some size else none) = fastTally item n nodes := by
  have hlimit : cellLimit n ≤ 2 ^ 63 - 1 := min_le_right _ _
  have hlength : nodes.length = item.roots.length + totalRefs nodes := hreach.length_eq
  cases item with
  | null => exact absurd rfl hnull
  | cell c =>
    have hcells := LawfulCounts.treeCellCount c nodes hreach
    have hbits := LawfulCounts.treeBitsCount c nodes hreach
    have hlength : nodes.length = 1 + totalRefs nodes := hlength
    have hbounded : totalBits nodes < 2 ^ 64 := hbits ▸ hbounded
    refine ⟨_, rfl, ?_⟩
    show (if TonTypes.treeCellCount c ≤ _ then some _ else none) = tally (cellLimit n) 0 0 0 nodes
    unfold tally
    rw [hcells, hbits, Nat.zero_add, Nat.zero_add, Nat.zero_add, saturated_of_lt hbounded]
    split_ifs with hle
    · rw [saturated_of_lt (by omega), hlength, Nat.add_sub_cancel_left]
    · rfl
  | slice slice =>
    have hlength : nodes.length = (sliceRefs slice).length + totalRefs nodes := hlength
    refine ⟨_, fastDatasize_slice hreach hbounded, ?_⟩
    show _ = tally (cellLimit n) (sliceRefs slice).length (sliceBits slice).length
      (2 * (sliceRefs slice).length) nodes
    have hrefs : 2 * (sliceRefs slice).length + totalRefs nodes =
        (sliceRefs slice).length + nodes.length := by omega
    unfold tally
    dsimp only
    rw [hrefs]
    by_cases hle : (sliceRefs slice).length + nodes.length ≤ cellLimit n
    · rw [saturated_of_lt (by omega), if_pos hle]
    · have hexceeds : ¬saturated ((sliceRefs slice).length + nodes.length) ≤ cellLimit n := by
        unfold saturated
        omega
      rw [if_neg hle, if_neg hexceeds]

theorem outcome_fast (quiet : Bool) {item : Measured} (n : Nat) {nodes : List (Cell × SliceData)}
    (hreach : ReachesCells item.roots nodes) (hbounded : item.Bounded) (hnull : item ≠ .null) {e : Engine}
    (hfast : fastStat e.capabilities = true) :
    outcome (exec (item.handler quiet) (e.measuring item n)) =
      reported quiet e.cc.stack (fastTally item n nodes) := by
  obtain ⟨size, hsize, hcounted⟩ := fastDatasize_eq hreach hbounded hnull n
  rw [exec_datasize, hfast]
  dsimp only
  rw [if_pos rfl, hsize, lift_ok, pure_bind, hcounted, pure_bind]
  exact outcome_report quiet tally_lt _

/-- The slow way counts the cells that are reached. The fast way reports the same exactly for a cell,
for a slice without references and for one whose cells exceed the limit. -/
theorem storage_stat_iff (quiet : Bool) (item : Measured) (n : Nat) {nodes : List (Cell × SliceData)}
    (hreach : ReachesCells item.roots nodes) (hdistinct : AllDistinct nodes) (hbounded : item.Bounded)
    {fast slow : List GlobalCapability} (hfast : fastStat fast = true) (hslow : fastStat slow = false)
    (e : Engine) (hgas : Gas.loadCellPrice true * nodes.length ≤ e.afterLoad.gas.gasRemaining) :
    outcome (exec (item.handler quiet) (measuring { e with capabilities := slow } item n)) =
      reported quiet e.cc.stack (expected item n nodes) ∧
    (outcome (exec (item.handler quiet) (measuring { e with capabilities := fast } item n)) =
        outcome (exec (item.handler quiet) (measuring { e with capabilities := slow } item n)) ↔
      Agrees n nodes item) := by
  have hslowly : outcome (exec (item.handler quiet)
      (measuring { e with capabilities := slow } item n)) =
        reported quiet e.cc.stack (expected item n nodes) :=
    outcome_slow quiet n hreach hdistinct hbounded hslow hgas
  refine ⟨hslowly, ?_⟩
  rw [hslowly]
  by_cases hnull : item = .null
  · subst hnull
    rw [outcome_fast_null quiet n hfast]
    refine iff_of_false (fun hsame => ?_) id
    obtain - | _ := hreach
    have hresult := congrArg Prod.fst hsame
    unfold expected tally at hresult
    rw [List.length_nil, if_pos (Nat.zero_le _)] at hresult
    cases hresult
  · rw [outcome_fast quiet n hreach hbounded hnull hfast]
    exact reported_fastTally_iff hnull quiet e.cc.stack n nodes

end Counting

end Instructions

end Engine

/-! ### The plain implementation -/

namespace Plain

open scoped TonVm.Plain

theorem countRefs_eq (refs : List Tree) : Tree.countRefs refs = (refs.map Tree.count).sum := by
  induction refs with
  | nil => rfl
  | cons ref refs ih => rw [Tree.countRefs, ih, List.map_cons, List.sum_cons]

theorem countBitsRefs_eq (refs : List Tree) :
    Tree.countBitsRefs refs = (refs.map Tree.countBits).sum := by
  induction refs with
  | nil => rfl
  | cons ref refs ih => rw [Tree.countBitsRefs, ih, List.map_cons, List.sum_cons]

theorem opens_iff {cell : Tree} {slice : Slice} :
    Opens cell slice ↔ cell.type = .ordinary ∧ slice = Slice.whole cell := by
  have hload : TonTypes.loadCell cell =
      if cell.type = .prunedBranch then .error .other else .ok (Slice.whole cell) := rfl
  constructor
  · rintro ⟨htype, hslice⟩
    have htype : cell.type = .ordinary := htype
    rw [hload, if_neg (by rw [htype]; decide)] at hslice
    exact ⟨htype, (Except.ok.inj hslice).symm⟩
  · rintro ⟨htype, rfl⟩
    refine ⟨htype, ?_⟩
    rw [hload, if_neg (by rw [htype]; decide)]

scoped instance lawfulCounts : LawfulCounts where
  treeCellCount cell nodes h := by
    have hsum : ([cell].map Tree.count).sum = (nodes.map fun _ => 1).sum := by
      refine Spans.sum_below (fun a b hopen => ?_) h
      obtain ⟨-, rfl⟩ := opens_iff.1 hopen
      show Tree.count a = 1 + ((Slice.whole a).refs.map Tree.count).sum
      rw [refs_whole, ← countRefs_eq]
      cases a
      rfl
    have hcount : Tree.count cell = nodes.length := by simpa using hsum
    exact hcount
  treeBitsCount cell nodes h := by
    have hsum : ([cell].map Tree.countBits).sum =
        (nodes.map fun node : Tree × Slice => node.2.bits.length).sum := by
      refine Spans.sum_below (fun a b hopen => ?_) h
      obtain ⟨-, rfl⟩ := opens_iff.1 hopen
      show Tree.countBits a =
        (Slice.whole a).bits.length + ((Slice.whole a).refs.map Tree.countBits).sum
      rw [bits_whole, refs_whole, ← countBitsRefs_eq]
      cases a
      rfl
    rw [List.map_singleton, List.sum_singleton] at hsum
    exact hsum

/-- A cell without contents. -/
def hollow : Tree := .mk .ordinary [] []

/-- A cell with one bit and one cell below it. -/
def pair : Tree := .mk .ordinary [true] [hollow]

def pairNodes : List (Tree × Slice) := [(pair, Slice.whole pair), (hollow, Slice.whole hollow)]

theorem reaches_pair : ReachesCells [pair] pairNodes := by
  have hopen (cell : Tree) (htype : cell.type = .ordinary) : Opens cell (Slice.whole cell) :=
    opens_iff.2 ⟨htype, rfl⟩
  have hnone : ReachesCells (sliceRefs (Slice.whole hollow)) [] := .nil
  have hunder : ReachesCells (sliceRefs (Slice.whole pair)) [(hollow, Slice.whole hollow)] :=
    .cons (hopen hollow rfl) hnone .nil
  exact .cons (hopen pair rfl) hunder .nil

end Plain

namespace Engine

open scoped Plain

def statCapabilities : List GlobalCapability := [.capFastStorageStatBugfix, .capFastStorageStat]

/-- An engine with gas and nothing but the operands on its stack. -/
def counting (capabilities : List GlobalCapability) (item : Measured) : Engine :=
  measuring { Plain.idle with capabilities } item 10

/-- Two cells, one bit and one reference. -/
theorem storage_stat_pair :
    outcome (exec executeCdatasizeq (counting [] (.cell Plain.pair))) =
      (.ok (), [.int 2, .int 1, .int 1, .boolean true]) ∧
    outcome (exec executeCdatasizeq (counting statCapabilities (.cell Plain.pair))) =
      outcome (exec executeCdatasizeq (counting [] (.cell Plain.pair))) := by
  have hgas : Gas.loadCellPrice true * Plain.pairNodes.length ≤
      Plain.idle.afterLoad.gas.gasRemaining := by
    decide +kernel
  have hdistinct : AllDistinct Plain.pairNodes := by
    unfold AllDistinct
    decide +kernel
  have hbounded : (Measured.cell Plain.pair).Bounded := by
    show Plain.Tree.countBits Plain.pair < 2 ^ 64
    decide
  have hfast : fastStat statCapabilities = true := rfl
  have hslow : fastStat [] = false := rfl
  obtain ⟨hcounts, hsame⟩ := storage_stat_iff true (.cell Plain.pair) 10 Plain.reaches_pair hdistinct
    hbounded hfast hslow Plain.idle hgas
  exact ⟨hcounts, hsame.2 trivial⟩

/-- A slice with one cell below it, and Null. -/
theorem storage_stat_differs :
    outcome (exec executeSdatasize (counting [] (.slice (Plain.Slice.whole Plain.pair)))) =
      (.ok (), [.int 1, .int 1, .int 1]) ∧
    outcome (exec executeSdatasize (counting statCapabilities
        (.slice (Plain.Slice.whole Plain.pair)))) =
      (.ok (), [.int 2, .int 1, .int 2]) ∧
    outcome (exec executeCdatasizeq (counting [] .null)) =
      (.ok (), [.int 0, .int 0, .int 0, .boolean true]) ∧
    outcome (exec executeCdatasizeq (counting statCapabilities .null)) =
      (.error (.exception (.fromCode .typeCheckError)), []) :=
  ⟨rfl, rfl, rfl, rfl⟩

end Engine

end TonVm
