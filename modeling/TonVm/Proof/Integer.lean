import TonVm.Stack.IntegerEncoding
import TonVm.Stack.Item

/-!
# The range of integers

`bitsize` counts the bits of a two's complement, and `check_overflow` accepts exactly the signed
257-bit integers. What the checked constructors return is therefore in that range.
-/

namespace TonVm

/-! ### Bit lengths -/

theorem eq_two_pow_log2_of_and_sub_one {m : Nat} (hm : m ≠ 0) (h : m &&& (m - 1) = 0) :
    m = 2 ^ m.log2 := by
  by_contra hne
  have hle : 2 ^ m.log2 ≤ m := Nat.log2_self_le hm
  have hlt : m < 2 ^ (m.log2 + 1) := Nat.lt_log2_self
  -- the top bit of `m` is also set in `m - 1`
  have htop : m.testBit m.log2 = true :=
    Nat.testBit_of_two_pow_le_and_two_pow_add_one_gt hle hlt
  have htop' : (m - 1).testBit m.log2 = true :=
    Nat.testBit_of_two_pow_le_and_two_pow_add_one_gt (by omega) (by omega)
  have hbit : (m &&& (m - 1)).testBit m.log2 = true := by
    rw [Nat.testBit_and, htop, htop', Bool.and_self]
  rw [h, Nat.zero_testBit] at hbit
  exact absurd hbit (by decide)

theorem two_pow_and_sub_one (n : Nat) : 2 ^ n &&& (2 ^ n - 1) = 0 := by
  rw [Nat.and_two_pow_sub_one_eq_mod, Nat.mod_self]

theorem bitsize_pos_le_iff {v : Int} (hv : 0 < v) (n : Nat) :
    bitsize v ≤ n + 1 ↔ v < 2 ^ n := by
  have hne : v ≠ 0 := by omega
  have hbits : bitsize v = v.natAbs.log2 + 2 := by
    rw [bitsize, if_neg (by omega), if_pos hv, bits, if_neg hne]
  have hlog : v.natAbs.log2 < n ↔ v.natAbs < 2 ^ n := Nat.log2_lt (by omega)
  have hcast : ((v.natAbs : Nat) : Int) = v := Int.natAbs_of_nonneg hv.le
  have hpow : v < 2 ^ n ↔ v.natAbs < 2 ^ n := by
    rw [← hcast]
    norm_cast
  rw [hbits, hpow, ← hlog]
  omega

theorem bitsize_neg_le_iff {v : Int} (hv : v < -1) (n : Nat) :
    bitsize v ≤ n + 1 ↔ -2 ^ n ≤ v := by
  have hne : v ≠ 0 := by omega
  have hm : v.natAbs ≠ 0 := by omega
  have hpow : -2 ^ n ≤ v ↔ v.natAbs ≤ 2 ^ n := by
    have hcast : ((v.natAbs : Nat) : Int) = -v := Int.ofNat_natAbs_of_nonpos (by omega)
    have hn : ((2 ^ n : Nat) : Int) = 2 ^ n := by norm_cast
    omega
  rw [hpow, bitsize, if_neg (by omega), if_neg (by omega), bits, if_neg hne]
  by_cases hand : v.natAbs &&& (v.natAbs - 1) = 0
  · rw [if_pos hand]
    have hself := eq_two_pow_log2_of_and_sub_one hm hand
    have hle : 2 ^ v.natAbs.log2 ≤ 2 ^ n ↔ v.natAbs.log2 ≤ n :=
      Nat.pow_le_pow_iff_right (by decide)
    rw [← hself] at hle
    omega
  · rw [if_neg hand]
    have hlog : v.natAbs.log2 < n ↔ v.natAbs < 2 ^ n := Nat.log2_lt hm
    -- a magnitude that is no power of two is not the lower bound itself
    have hneq : v.natAbs ≠ 2 ^ n := by
      intro heq
      rw [heq] at hand
      exact hand (two_pow_and_sub_one n)
    omega

/-- The signed values of `n + 1` bits. -/
theorem bitsize_le_iff (v : Int) (n : Nat) : bitsize v ≤ n + 1 ↔ -2 ^ n ≤ v ∧ v < 2 ^ n := by
  have hn : (0 : Int) < 2 ^ n := Int.pow_pos (by decide)
  rcases lt_trichotomy v 0 with hv | hv | hv
  · by_cases h1 : v = -1
    · subst h1
      simp only [bitsize, or_true, if_true]
      omega
    · rw [bitsize_neg_le_iff (by omega)]
      omega
  · subst hv
    simp only [bitsize, true_or, if_true]
    omega
  · rw [bitsize_pos_le_iff hv]
    omega

theorem one_le_bitsize (v : Int) : 1 ≤ bitsize v := by
  by_contra h
  have := (bitsize_le_iff v 0).1 (by omega)
  have hbound : v = -1 ∨ v = 0 := by
    simp only [pow_zero] at this
    omega
  rcases hbound with rfl | rfl <;> exact h (by decide)

/-- A number of bits holds a signed value when the value is in the two's complement range. -/
theorem bitsize_le_iff_of_pos (v : Int) {n : Nat} (hn : 1 ≤ n) :
    bitsize v ≤ n ↔ -2 ^ (n - 1) ≤ v ∧ v < 2 ^ (n - 1) := by
  rw [← bitsize_le_iff, Nat.sub_add_cancel hn]

theorem isLeast_bitsize (v : Int) :
    IsLeast {n | 1 ≤ n ∧ -2 ^ (n - 1) ≤ v ∧ v < 2 ^ (n - 1)} (bitsize v) := by
  constructor
  · exact ⟨one_le_bitsize v, (bitsize_le_iff_of_pos v (one_le_bitsize v)).1 le_rfl⟩
  · rintro n ⟨hn, hv⟩
    exact (bitsize_le_iff_of_pos v hn).2 hv

/-- On either side of zero a value of larger magnitude needs no fewer bits. -/
theorem bitsize_mono {v w : Int} (hsign : 0 ≤ v ∧ 0 ≤ w ∨ v ≤ 0 ∧ w ≤ 0) (h : |v| ≤ |w|) :
    bitsize v ≤ bitsize w := by
  have hw := (bitsize_le_iff_of_pos w (one_le_bitsize w)).1 le_rfl
  apply (bitsize_le_iff_of_pos v (one_le_bitsize w)).2
  have hpos : (0 : Int) < 2 ^ (bitsize w - 1) := Int.pow_pos (by decide)
  rcases hsign with ⟨hv, hw'⟩ | ⟨hv, hw'⟩
  · rw [abs_of_nonneg hv, abs_of_nonneg hw'] at h
    omega
  · rw [abs_of_nonpos hv, abs_of_nonpos hw'] at h
    omega

/-- A value that is in the range of a stack integer. -/
def InRange (v : Int) : Prop := -2 ^ 256 ≤ v ∧ v < 2 ^ 256

theorem checkOverflow_iff (v : Int) : checkOverflow v = true ↔ InRange v := by
  rw [checkOverflow, decide_eq_true_iff, InRange, ← bitsize_le_iff v 256]
  omega

theorem inRange_of_bounds {v : Int} (h : -2 ^ 64 ≤ v) (h' : v < 2 ^ 256) : InRange v := by
  unfold InRange
  omega

theorem bits_le_bitsize (v : Int) : bits v ≤ bitsize v := by
  unfold bitsize
  split
  · rename_i h
    rcases h with rfl | rfl <;> decide
  · split
    · omega
    · split <;> omega

/-- The signed bit size: the shortest two's complement that holds a value, and the range check that
rests on it. -/
theorem signed_bit_size (v : Int) :
    IsLeast {n | 1 ≤ n ∧ -2 ^ (n - 1) ≤ v ∧ v < 2 ^ (n - 1)} (bitsize v) ∧
    (∀ w, (0 ≤ v ∧ 0 ≤ w ∨ v ≤ 0 ∧ w ≤ 0) → |v| ≤ |w| → bitsize v ≤ bitsize w) ∧
    (checkOverflow v = true ↔ -2 ^ 256 ≤ v ∧ v < 2 ^ 256) :=
  ⟨isLeast_bitsize v, fun _ => bitsize_mono, checkOverflow_iff v⟩

/-! ### Checked constructors -/

namespace IntegerData

theorem ofInt_of_inRange {v : Int} (h : InRange v) : ofInt v = .ok (.value v) := by
  rw [ofInt, if_pos ((checkOverflow_iff v).2 h)]

theorem ofInt_of_not_inRange {v : Int} (h : ¬InRange v) : ∃ failure, ofInt v = .error failure := by
  rw [ofInt, if_neg fun hv => h ((checkOverflow_iff v).1 hv)]
  exact ⟨_, rfl⟩

theorem ofInt_eq_ok {v : Int} {x : IntegerData} (h : ofInt v = .ok x) : x = .value v ∧ InRange v := by
  unfold ofInt at h
  split at h
  · rename_i hv
    exact ⟨(Except.ok.inj h).symm, (checkOverflow_iff v).1 hv⟩
  · exact absurd h (by simp)

theorem into_eq_ok {x : IntegerData} {lo hi v : Int} (h : x.into lo hi = .ok v) : lo ≤ v ∧ v ≤ hi := by
  unfold into at h
  split at h
  · cases h
  · split at h
    · cases h
      assumption
    · cases h

/-- A number out of the range is refused with one code. -/
theorem intoUsize_eq_error {x : IntegerData} {lo hi : Nat} {failure : Failure}
    (h : x.intoUsize lo hi = .error failure) : failure = .code .rangeCheckError := by
  unfold intoUsize into at h
  cases x with
  | nan =>
    cases h
    rfl
  | value v =>
    dsimp only at h
    split at h
    · cases h
    · cases h
      rfl

theorem intoUsize_eq_ok {x : IntegerData} {lo hi n : Nat} (h : x.intoUsize lo hi = .ok n) :
    x = .value n ∧ n ≤ hi := by
  unfold intoUsize into at h
  cases x with
  | nan => cases h
  | value v =>
    dsimp only at h
    split at h
    · cases h
      refine ⟨congrArg value ?_, ?_⟩ <;> omega
    · cases h

theorem intoUsize_le {x : IntegerData} {lo hi n : Nat} (h : x.intoUsize lo hi = .ok n) : n ≤ hi :=
  (intoUsize_eq_ok h).2

theorem intoUsize_natCast {n hi : Nat} (h : n ≤ hi) : (value n).intoUsize 0 hi = .ok n := by
  rw [intoUsize, into, if_pos (by omega)]
  rfl

theorem unarySingle_of_inRange {T : OperationBehavior} {f : Int → Int} {v : Int} (h : InRange (f v)) :
    unarySingle T f (.value v) = .ok (.value (f v)) := by
  simp only [unarySingle, unaryOp, processSingleResult, ofInt_of_inRange h]

theorem binarySingle_of_inRange {T : OperationBehavior} {f : Int → Int → Int} {l r : Int}
    (h : InRange (f l r)) : binarySingle T f (.value l) (.value r) = .ok (.value (f l r)) := by
  simp only [binarySingle, binaryOp, processSingleResult, ofInt_of_inRange h]

/-! ### Addition in place -/

/-- `add_assign` does what `add` does: it ends in the same way, leaves the sum in the operand and, when
it fails, leaves the operand alone. -/
structure AddsInPlace (T : OperationBehavior) (x y : IntegerData) : Prop where
  outcome : (x.addAssign T y).1 = (x.add T y).map fun _ => ()
  sum : ∀ z, x.add T y = .ok z → (x.addAssign T y).2 = z
  unchanged : ∀ failure, x.add T y = .error failure → (x.addAssign T y).2 = x

variable {T : OperationBehavior} {l r : Int}

theorem add_of_inRange (h : InRange (l + r)) :
    (value l).add T (value r) = .ok (.value (l + r)) := binarySingle_of_inRange h

theorem addAssign_of_inRange (h : InRange (l + r)) :
    (value l).addAssign T (value r) = (.ok (), .value (l + r)) := by
  simp only [addAssign, (checkOverflow_iff _).2 h, if_true]

theorem add_of_not_inRange (h : ¬InRange (l + r)) :
    (value l).add T (value r) = T.onIntegerOverflow.map fun _ => nan := by
  obtain ⟨failure, hfailure⟩ := ofInt_of_not_inRange h
  simp only [binarySingle, binaryOp, processSingleResult, hfailure]
  cases T <;> rfl

theorem addAssign_of_not_inRange (h : ¬InRange (l + r)) :
    (value l).addAssign T (value r) =
      (T.onIntegerOverflow, if T = .signaling then .value (l + r) else nan) := by
  simp only [addAssign, if_neg fun hv => h ((checkOverflow_iff _).1 hv)]
  cases T <;> rfl

theorem add_of_isNan {x y : IntegerData} (h : x.isNan ∨ y.isNan) :
    x.add T y = T.onNanParameter.map fun _ => nan := by
  cases x with
  | nan => cases T <;> rfl
  | value l =>
    cases y with
    | nan => cases T <;> rfl
    | value r => simp [isNan] at h

theorem addAssign_of_isNan {x y : IntegerData} (h : x.isNan ∨ y.isNan) :
    x.addAssign T y = (T.onNanParameter, if T = .signaling then x else nan) := by
  cases x with
  | nan => cases T <;> rfl
  | value l =>
    cases y with
    | nan => cases T <;> rfl
    | value r => simp [isNan] at h

/-- With NaN among the operands nothing is written before the reaction to it. -/
theorem addsInPlace_of_isNan {x y : IntegerData} (h : x.isNan ∨ y.isNan) : AddsInPlace T x y := by
  have hadd := add_of_isNan (T := T) h
  have hassign := addAssign_of_isNan (T := T) h
  cases T with
  | signaling =>
    refine ⟨by rw [hadd, hassign]; rfl, ?_, fun _ _ => by rw [hassign]; rfl⟩
    intro z hz
    rw [hadd] at hz
    cases hz
  | quiet =>
    refine ⟨by rw [hadd, hassign]; rfl, ?_, ?_⟩
    · intro z hz
      rw [hadd] at hz
      rw [hassign]
      exact Except.ok.inj hz
    · intro failure hfailure
      rw [hadd] at hfailure
      cases hfailure

theorem addsInPlace_of_inRange (h : InRange (l + r)) : AddsInPlace T (value l) (value r) := by
  constructor
  · rw [add_of_inRange h, addAssign_of_inRange h]
    rfl
  · intro z hz
    rw [add_of_inRange h] at hz
    rw [addAssign_of_inRange h, Except.ok.inj hz]
  · intro failure hfailure
    rw [add_of_inRange h] at hfailure
    cases hfailure

theorem addsInPlace_quiet_of_not_inRange (h : ¬InRange (l + r)) :
    AddsInPlace .quiet (value l) (value r) := by
  constructor
  · rw [add_of_not_inRange h, addAssign_of_not_inRange h]
    rfl
  · intro z hz
    rw [add_of_not_inRange h] at hz
    rw [addAssign_of_not_inRange h]
    exact Except.ok.inj hz
  · intro failure hfailure
    rw [add_of_not_inRange h] at hfailure
    cases hfailure

/-- The sum that overflows has replaced the operand by the time the signaling version stops. -/
theorem not_addsInPlace_signaling (hl : InRange l) (h : ¬InRange (l + r)) :
    ¬AddsInPlace .signaling (value l) (value r) := by
  intro hadds
  have hsame := hadds.unchanged _ (add_of_not_inRange h)
  rw [addAssign_of_not_inRange h, if_pos rfl] at hsame
  rw [value.inj hsame] at h
  exact h hl

/-- In-place addition agrees with addition unless a signaling addition of two numbers overflows. -/
theorem adds_in_place_iff (T : OperationBehavior) {x y : IntegerData}
    (hx : ∀ l, x = .value l → InRange l) :
    AddsInPlace T x y ↔
      ¬(T = .signaling ∧ ∃ l r, x = .value l ∧ y = .value r ∧ ¬InRange (l + r)) := by
  constructor
  · rintro hadds ⟨rfl, l, r, rfl, rfl, hover⟩
    exact not_addsInPlace_signaling (hx l rfl) hover hadds
  · intro hcond
    by_cases hnan : x.isNan ∨ y.isNan
    · exact addsInPlace_of_isNan hnan
    cases x with
    | nan => exact absurd (.inl rfl) hnan
    | value l =>
      cases y with
      | nan => exact absurd (.inr rfl) hnan
      | value r =>
        by_cases hsum : InRange (l + r)
        · exact addsInPlace_of_inRange hsum
        cases T with
        | signaling => exact absurd ⟨rfl, l, r, rfl, rfl, hsum⟩ hcond
        | quiet => exact addsInPlace_quiet_of_not_inRange hsum

theorem adds_in_place_iff_one :
    (∀ l, value 1 = .value l → InRange l) ∧ AddsInPlace .signaling (value 1) (value 2) := by
  have hone : ∀ l, value 1 = .value l → InRange l := by
    rintro _ ⟨⟩
    exact inRange_of_bounds (by omega) (by omega)
  refine ⟨hone, (adds_in_place_iff .signaling hone).2 ?_⟩
  rintro ⟨-, _, _, ⟨⟩, ⟨⟩, hover⟩
  exact hover (inRange_of_bounds (by omega) (by omega))

/-- The greatest integer plus one: the operand keeps a number that no stack may hold. -/
theorem addAssign_greatest :
    InRange (2 ^ 256 - 1) ∧ InRange 1 ∧
      (value (2 ^ 256 - 1)).add .signaling (value 1) = .error (.code .integerOverflow) ∧
      (value (2 ^ 256 - 1)).addAssign .signaling (value 1) =
        (.error (.code .integerOverflow), .value (2 ^ 256)) ∧
      ¬AddsInPlace .signaling (value (2 ^ 256 - 1)) (value 1) := by
  have hsum : (2 ^ 256 - 1 + 1 : Int) = 2 ^ 256 := by omega
  have hgreatest : InRange (2 ^ 256 - 1) := inRange_of_bounds (by omega) (by omega)
  have hover : ¬InRange (2 ^ 256 - 1 + 1) := fun h => absurd h.2 (by omega)
  refine ⟨hgreatest, inRange_of_bounds (by omega) (by omega), add_of_not_inRange hover, ?_,
    not_addsInPlace_signaling hgreatest hover⟩
  rw [addAssign_of_not_inRange hover, hsum]
  rfl

end IntegerData

theorem StackItem.checkedInt_of_inRange [TonTypes] {v : Int} (h : InRange v) :
    checkedInt v = .ok (.int v) := by
  unfold checkedInt
  rw [IntegerData.ofInt_of_inRange h]
  rfl

end TonVm
