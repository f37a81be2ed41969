import TonVm.Plain

/-!
# The gas ledger

Whatever the order of charges and new limits, the gas used is the sum of the charges, because a new
limit moves the base and the remaining gas together. So the check of the remaining gas compares the
charges with the base, and the base is the initial one or a limit that was cut to the maximum. The
amounts are `i64`: the sum of the limit and the credit has to fit, or the base is negative from the
start and a charge wraps the remaining gas around.
-/

namespace TonVm.Gas

/-! ### Operations on `i64` amounts -/

def IsI64 (v : Int) : Prop := -2 ^ 63 ≤ v ∧ v < 2 ^ 63

theorem i64_of_isI64 {v : Int} (h : IsI64 v) : i64 v = v := by
  obtain ⟨hmin, hmax⟩ := h
  exact Int.bmod_eq_of_le (by omega) (by omega)

/-- The gas after an operation on integers, with the amounts as `i64`. Wrapping commutes with sums and
differences, so it is enough to wrap what an operation results in. -/
def wrapped (gas : Gas) : Gas :=
  { gas with gasRemaining := i64 gas.gasRemaining, gasBase := i64 gas.gasBase }

theorem wrapped_of_isI64 {gas : Gas} (hremaining : IsI64 gas.gasRemaining) (hbase : IsI64 gas.gasBase) :
    gas.wrapped = gas := by
  rw [wrapped, i64_of_isI64 hremaining, i64_of_isI64 hbase]

/-- An operation that changes the gas. -/
inductive Op where
  | useGas (amount : Int)
  | tryUseGas (amount : Int)
  | newGasLimit (gasLimit : Int)

namespace Op

/-- The operation on integers. -/
def exact [TonTypes] (gas : Gas) : Op → Gas
  | useGas amount => gas.useGas amount
  | tryUseGas amount => (gas.tryUseGas amount).2
  | newGasLimit gasLimit => gas.newGasLimit gasLimit

def apply [TonTypes] (gas : Gas) (op : Op) : Gas := (op.exact gas).wrapped

def charge : Op → Int
  | useGas amount => amount
  | tryUseGas amount => amount
  | newGasLimit _ => 0

end Op

def run [TonTypes] (gas : Gas) (ops : List Op) : Gas := ops.foldl Op.apply gas

def charges (ops : List Op) : Int := (ops.map Op.charge).sum

/-- Some operation is a new limit. -/
def Rebased (ops : List Op) : Prop := ∃ gasLimit, Op.newGasLimit gasLimit ∈ ops

/-- What holds of the gas after some operations on a fresh one with a limit, a credit and a maximum. -/
structure Ledger (limit credit limitMax : Int) (ops : List Op) (gas : Gas) : Prop where
  used : gas.getGasUsedFull = charges ops
  maximum : gas.gasLimitMax = limitMax
  base_nonneg : 0 ≤ gas.gasBase
  base_le : gas.gasBase ≤ max (limit + credit) limitMax
  rebased : Rebased ops → 0 ≤ gas.gasLimit ∧ gas.gasLimit ≤ limitMax ∧ gas.gasCredit = 0

theorem charges_append (ops : List Op) (op : Op) :
    charges (ops ++ [op]) = charges ops + op.charge := by
  simp [charges]

theorem charges_nonneg {ops : List Op} (h : ∀ op ∈ ops, 0 ≤ op.charge) : 0 ≤ charges ops :=
  List.sum_nonneg (by simpa using h)

theorem rebased_append (ops : List Op) (op : Op) :
    Rebased (ops ++ [op]) ↔ Rebased ops ∨ ∃ gasLimit, op = .newGasLimit gasLimit := by
  simp only [Rebased, List.mem_append, List.mem_singleton, exists_or, eq_comm]

theorem getGasUsedFull_useGas (gas : Gas) (amount : Int) :
    (gas.useGas amount).getGasUsedFull = gas.getGasUsedFull + amount := by
  unfold getGasUsedFull useGas
  dsimp only
  omega

theorem getGasUsedFull_newGasLimit (gas : Gas) (gasLimit : Int) :
    (gas.newGasLimit gasLimit).getGasUsedFull = gas.getGasUsedFull := by
  unfold getGasUsedFull newGasLimit
  dsimp only
  omega

section Ledger

variable [TonTypes]

theorem getGasUsedFull_exact (gas : Gas) (op : Op) :
    (op.exact gas).getGasUsedFull = gas.getGasUsedFull + op.charge := by
  cases op with
  | useGas amount => exact getGasUsedFull_useGas gas amount
  | tryUseGas amount => exact getGasUsedFull_useGas gas amount
  | newGasLimit gasLimit =>
    rw [Op.charge, add_zero]
    exact getGasUsedFull_newGasLimit gas gasLimit

/-- The gas used is at most the base exactly when some gas remains. -/
theorem checkGasRemaining_iff (gas : Gas) :
    gas.checkGasRemaining = .ok () ↔ gas.getGasUsedFull ≤ gas.gasBase := by
  unfold checkGasRemaining getGasUsedFull
  split
  · simp only [true_iff]
    omega
  · simp only [reduceCtorEq, false_iff]
    omega

namespace Ledger

variable {limit credit limitMax price : Int} {ops : List Op} {gas : Gas}

omit [TonTypes] in
theorem new (hlimit : 0 ≤ limit) (hcredit : 0 ≤ credit) (hsum : limit + credit < 2 ^ 63) :
    Ledger limit credit limitMax [] (Gas.new limit credit limitMax price) := by
  have hfits : i64 (limit + credit) = limit + credit := i64_of_isI64 ⟨by omega, hsum⟩
  unfold Gas.new
  rw [hfits]
  refine ⟨sub_self _, rfl, add_nonneg hlimit hcredit, le_max_left _ _, ?_⟩
  rintro ⟨_, h⟩
  cases h

theorem useGas (h : Ledger limit credit limitMax ops gas) {op : Op} {amount : Int}
    (hexact : op.exact gas = gas.useGas amount) (hop : ∀ gasLimit, op ≠ .newGasLimit gasLimit) :
    Ledger limit credit limitMax (ops ++ [op]) (gas.useGas amount) where
  used := by rw [← hexact, getGasUsedFull_exact, charges_append, h.used]
  maximum := h.maximum
  base_nonneg := h.base_nonneg
  base_le := h.base_le
  rebased hrebased := by
    rcases (rebased_append ops op).1 hrebased with hops | ⟨gasLimit, heq⟩
    · exact h.rebased hops
    · exact absurd heq (hop gasLimit)

omit [TonTypes] in
theorem newGasLimit (h : Ledger limit credit limitMax ops gas) (hmax : 0 ≤ limitMax) (gasLimit : Int) :
    Ledger limit credit limitMax (ops ++ [.newGasLimit gasLimit]) (gas.newGasLimit gasLimit) := by
  have hmaximum := h.maximum
  have hclamp : 0 ≤ max 0 (min gasLimit gas.gasLimitMax) ∧
      max 0 (min gasLimit gas.gasLimitMax) ≤ limitMax := by omega
  exact {
    used := by rw [getGasUsedFull_newGasLimit, charges_append, h.used, Op.charge, add_zero]
    maximum := hmaximum
    base_nonneg := hclamp.1
    base_le := le_max_of_le_right hclamp.2
    rebased := fun _ => ⟨hclamp.1, hclamp.2, rfl⟩ }

theorem exact (h : Ledger limit credit limitMax ops gas) (hmax : 0 ≤ limitMax) (op : Op) :
    Ledger limit credit limitMax (ops ++ [op]) (op.exact gas) := by
  cases op with
  | useGas amount => exact h.useGas rfl fun _ => Op.noConfusion
  | tryUseGas amount => exact h.useGas rfl fun _ => Op.noConfusion
  | newGasLimit gasLimit => exact h.newGasLimit hmax gasLimit

variable (hmax64 : limitMax < 2 ^ 63) (hsum : limit + credit < 2 ^ 63)

include hmax64 hsum

omit [TonTypes] in
/-- While the charges add up to an `i64`, so does everything else. -/
theorem isI64 (h : Ledger limit credit limitMax ops gas) (hcharges : IsI64 (charges ops))
    (hnonneg : 0 ≤ charges ops) :
    IsI64 gas.gasRemaining ∧ IsI64 gas.gasBase ∧ IsI64 gas.getGasUsedFull := by
  have hused := h.used
  have hbase := h.base_le
  have hbase0 := h.base_nonneg
  simp only [IsI64, getGasUsedFull] at *
  omega

omit [TonTypes] in
theorem i64_used (h : Ledger limit credit limitMax ops gas) (hcharges : charges ops < 2 ^ 63)
    (hnonneg : 0 ≤ charges ops) : i64 gas.getGasUsedFull = charges ops := by
  rw [i64_of_isI64 (h.isI64 hmax64 hsum ⟨by omega, hcharges⟩ hnonneg).2.2, h.used]

/-- An operation whose charge still fits wraps nothing. -/
theorem apply (h : Ledger limit credit limitMax ops gas) (hmax : 0 ≤ limitMax) {op : Op}
    (hnonneg : 0 ≤ charges (ops ++ [op])) (hcharges : charges (ops ++ [op]) < 2 ^ 63) :
    IsI64 (op.exact gas).gasRemaining ∧ Ledger limit credit limitMax (ops ++ [op]) (op.apply gas) := by
  have hexact := h.exact hmax op
  obtain ⟨hremaining, hbase, -⟩ := hexact.isI64 hmax64 hsum ⟨by omega, hcharges⟩ hnonneg
  refine ⟨hremaining, ?_⟩
  rwa [Op.apply, wrapped_of_isI64 hremaining hbase]

theorem run (hlimit : 0 ≤ limit) (hcredit : 0 ≤ credit) (hmax : 0 ≤ limitMax) {ops : List Op}
    (hops : ∀ op ∈ ops, 0 ≤ op.charge) (hcharges : charges ops < 2 ^ 63) :
    Ledger limit credit limitMax ops ((Gas.new limit credit limitMax price).run ops) := by
  induction ops using List.reverseRecOn with
  | nil => exact .new hlimit hcredit hsum
  | append_singleton ops op ih =>
    have hnonneg := charges_nonneg hops
    rw [List.forall_mem_append, List.forall_mem_singleton] at hops
    have hlast := hops.2
    have hsplit := charges_append ops op
    have hledger := ih hops.1 (by omega)
    rw [Gas.run, List.foldl_append]
    exact (hledger.apply hmax64 hsum hmax hnonneg hcharges).2

end Ledger

/-- The gas used is the sum of the charges and never decreases, new limits stay within the maximum, and
the check succeeds as long as the charges are covered by the base, so the gas used when it succeeds is
bounded by what was given at the start. No operation overflows, so the build that checks for it computes
the same. -/
theorem gas_ledger {limit credit limitMax price : Int} (hlimit : 0 ≤ limit) (hcredit : 0 ≤ credit)
    (hmax : 0 ≤ limitMax) (hmax64 : limitMax < 2 ^ 63) (hsum : limit + credit < 2 ^ 63) (ops : List Op)
    (hops : ∀ op ∈ ops, 0 ≤ op.charge) (hcharges : charges ops < 2 ^ 63) :
    let gas := (Gas.new limit credit limitMax price).run ops
    i64 gas.getGasUsedFull = charges ops ∧ 0 ≤ i64 gas.getGasUsedFull ∧
      (∀ gasLimit, i64 ((Op.newGasLimit gasLimit).apply gas).getGasUsedFull = i64 gas.getGasUsedFull) ∧
      (∀ op : Op, 0 ≤ op.charge → charges (ops ++ [op]) < 2 ^ 63 →
        i64 gas.getGasUsedFull ≤ i64 (op.apply gas).getGasUsedFull) ∧
      (Rebased ops → 0 ≤ gas.gasLimit ∧ gas.gasLimit ≤ limitMax ∧ gas.gasCredit = 0) ∧
      (gas.checkGasRemaining = .ok () ↔ i64 gas.getGasUsedFull ≤ gas.gasBase) ∧
      (gas.checkGasRemaining = .ok () → i64 gas.getGasUsedFull ≤ max (limit + credit) limitMax) ∧
      IsI64 gas.getGasUsedFull ∧
      (∀ gasLimit, IsI64 ((gas.newGasLimit gasLimit).gasLimit - gas.gasBase)) ∧
      ∀ op : Op, 0 ≤ op.charge → charges (ops ++ [op]) < 2 ^ 63 → IsI64 (op.exact gas).gasRemaining := by
  intro gas
  have h : Ledger limit credit limitMax ops gas := .run hmax64 hsum hlimit hcredit hmax hops hcharges
  have hnonneg := charges_nonneg hops
  have hcheck := checkGasRemaining_iff gas
  have hused := h.i64_used hmax64 hsum hcharges hnonneg
  have hnext (op : Op) (hop : 0 ≤ op.charge) (hfits : charges (ops ++ [op]) < 2 ^ 63) :
      IsI64 (op.exact gas).gasRemaining ∧
        i64 (op.apply gas).getGasUsedFull = charges ops + op.charge := by
    have hsplit := charges_append ops op
    obtain ⟨hremaining, happlied⟩ := h.apply hmax64 hsum hmax (by omega) hfits
    refine ⟨hremaining, ?_⟩
    rw [happlied.i64_used hmax64 hsum hfits (by omega), hsplit]
  rw [h.used, ← hused] at hcheck
  refine ⟨hused, hused ▸ hnonneg, fun gasLimit => ?_, fun op hop hfits => ?_, h.rebased, hcheck,
    fun hok => (hcheck.1 hok).trans h.base_le, ?_, fun gasLimit => ?_,
    fun op hop hfits => (hnext op hop hfits).1⟩
  · have hfits : charges (ops ++ [.newGasLimit gasLimit]) < 2 ^ 63 := by
      rw [charges_append, Op.charge]
      omega
    rw [(hnext _ le_rfl hfits).2, hused, Op.charge, add_zero]
  · rw [(hnext op hop hfits).2, hused]
    omega
  · exact (h.isI64 hmax64 hsum ⟨by omega, hcharges⟩ hnonneg).2.2
  · obtain ⟨hlow, hhigh, -⟩ := (h.newGasLimit hmax gasLimit).rebased ⟨gasLimit, by simp⟩
    have hbase := h.base_le
    have hbase0 := h.base_nonneg
    simp only [IsI64]
    omega

end Ledger

section Concrete

open scoped Plain

/-- A charge, `ACCEPT` and another charge. -/
theorem gas_ledger_accept :
    (Gas.new 0 10000 1000000 10).run [.useGas 18, .newGasLimit (2 ^ 63 - 1), .tryUseGas 500] =
        ⟨1000000, 1000000, 0, 999482, 10, 1000000⟩ ∧
      i64 ((Gas.new 0 10000 1000000 10).run
        [.useGas 18, .newGasLimit (2 ^ 63 - 1), .tryUseGas 500]).getGasUsedFull = 518 :=
  ⟨by decide, (gas_ledger (by decide) (by decide) (by decide) (by decide) (by decide) _ (by decide)
    (by decide)).1⟩

/-- With the greatest limit and a credit of one the base is negative, and a charge of one leaves the
greatest amount: the check succeeds although the gas used exceeds the base. -/
theorem gas_ledger_wraps :
    let gas := (Gas.new (2 ^ 63 - 1) 1 (2 ^ 63 - 1) 10).run [.useGas 1]
    charges [.useGas 1] = 1 ∧ i64 gas.getGasUsedFull = 1 ∧ gas.gasBase = -2 ^ 63 ∧
      gas.gasRemaining = 2 ^ 63 - 1 ∧ gas.checkGasRemaining = .ok () :=
  ⟨by decide, by decide, by decide, by decide, rfl⟩

end Concrete

end TonVm.Gas
