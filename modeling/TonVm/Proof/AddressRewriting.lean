import TonVm.Proof.CellLoads
import TonVm.Proof.QuietStores
import TonVm.Proof.Run

/-!
# Rewriting addresses

An internal address may carry a prefix that replaces its first bits. `REWRITEVARADDR` puts the prefix
and the rest of the address together as slices, `REWRITESTDADDR` as integers. The bytes of the prefix
are padded on the right, and the second one shifts them as if they were not: a prefix that does not
fill its bytes ends up too far to the left.
-/

namespace TonVm

open ExecLib

section Laws

variable [TonTypes]

/-- A slice of an ordinary cell. -/
def IsOrdinary (slice : SliceData) : Prop :=
  TonTypes.cellType (TonTypes.sliceIntoCell slice) = .ordinary

variable [Views]

/-- What the methods on slices do that read and put together addresses. -/
class LawfulAddresses : Prop where
  remainingBits : ∀ slice, TonTypes.remainingBits slice = (sliceBits slice).length
  getBytestring : ∀ slice, getBytestring slice = Plain.bytesOf (sliceBits slice)
  getNextBit : ∀ slice,
    Takes slice 1 (TonTypes.getNextBit slice) fun bits => decide (Plain.natOf bits = 1)
  getNextByte : ∀ slice, Takes slice 8 (TonTypes.getNextByte slice) Plain.byteOf
  getNextSlice : ∀ slice n, n ≤ (sliceBits slice).length →
    ∃ part rest, TonTypes.getNextSlice slice n = .ok (part, rest) ∧
      sliceBits part = (sliceBits slice).take n ∧ sliceRefs part = [] ∧
      sliceBits rest = (sliceBits slice).drop n ∧ sliceRefs rest = sliceRefs slice
  shrinkDataFrom : ∀ slice n, n ≤ (sliceBits slice).length →
    sliceBits (shrinkDataFrom slice n) = (sliceBits slice).drop n
  appendBytestring : ∀ builder slice,
    Builds ((builderBits builder).length + (sliceBits slice).length ≤ 1023)
      (TonTypes.appendBytestring builder slice) (builderBits builder ++ sliceBits slice)
      (builderRefs builder)
  ordinary_getNextBit : ∀ slice bit rest, IsOrdinary slice →
    TonTypes.getNextBit slice = .ok (bit, rest) → IsOrdinary rest
  ordinary_getNextInt : ∀ slice n value rest, IsOrdinary slice →
    TonTypes.getNextInt slice n = .ok (value, rest) → IsOrdinary rest
  ordinary_getNextSlice : ∀ slice n part rest, IsOrdinary slice →
    TonTypes.getNextSlice slice n = .ok (part, rest) → IsOrdinary part
  /-- Without references, an ordinary slice with more data after it makes an ordinary cell. -/
  finalize : ∀ slice more builder, IsOrdinary slice → sliceRefs slice = [] →
    TonTypes.appendBytestring (TonTypes.sliceAsBuilder slice) more = .ok builder →
    ∃ cell loaded, TonTypes.finalize builder 1024 = .ok cell ∧ TonTypes.cellType cell = .ordinary ∧
      TonTypes.loadCell cell = .ok loaded ∧ sliceBits loaded = builderBits builder

end Laws

/-! ### Addresses as bits -/

/-- The prefix of an address, if there is one. -/
def pfxBits : Option (List Bool) → List Bool
  | none => [false]
  | some pfx => true :: (Plain.bitsOf 5 pfx.length ++ pfx)

inductive AddressForm where
  | std
  | var

/-- An address of 256 bits in one of the two forms. -/
def addressBits (form : AddressForm) (pfx : Option (List Bool)) (workchain : Int) (addr : List Bool) :
    List Bool :=
  match form with
  | .std => [true, false] ++ (pfxBits pfx ++ (Plain.bitsOf 8 (workchain % 2 ^ 8).toNat ++ addr))
  | .var => [true, true] ++ (pfxBits pfx ++ (Plain.bitsOf 9 256 ++
    (Plain.bitsOf 32 (workchain % 2 ^ 32).toNat ++ addr)))

def AddressForm.width : AddressForm → Nat
  | std => 8
  | var => 32

/-- The workchains of a form. -/
def AddressForm.Workchain (form : AddressForm) (workchain : Int) : Prop :=
  -2 ^ (form.width - 1) ≤ workchain ∧ workchain < 2 ^ (form.width - 1)

/-- The low bits of a workchain stand for it. -/
theorem bmod_emod {workchain : Int} {n size : Nat} (hn : 1 ≤ n) (hsize : (size : Int) = 2 ^ n)
    (h : -2 ^ (n - 1) ≤ workchain ∧ workchain < 2 ^ (n - 1)) :
    Int.bmod ((workchain % 2 ^ n).toNat : Int) size = workchain := by
  obtain ⟨m, rfl⟩ := Nat.exists_eq_add_of_le' hn
  rw [Nat.add_sub_cancel] at h
  have hpos : (0 : Int) < 2 ^ (m + 1) := by positivity
  have hnonneg := Int.emod_nonneg workchain hpos.ne'
  have hsucc : (2 : Int) ^ (m + 1) = 2 * 2 ^ m := by ring
  rw [Int.toNat_of_nonneg hnonneg, ← hsize, Int.emod_bmod]
  exact Int.bmod_eq_of_le (by rw [hsize]; omega) (by rw [hsize]; omega)

theorem natOf_residue (workchain : Int) (n : Nat) :
    Plain.natOf (Plain.bitsOf n (workchain % 2 ^ n).toNat) = (workchain % 2 ^ n).toNat := by
  have hpos : (0 : Int) < 2 ^ n := by positivity
  have hlt := Int.emod_lt_of_pos workchain hpos
  have hcast : ((2 ^ n : Nat) : Int) = 2 ^ n := by push_cast; rfl
  rw [Plain.natOf_bitsOf, Nat.mod_eq_of_lt]
  omega

theorem except_bind_ok {ε α β : Type} {x : Except ε α} {f : α → Except ε β} {a : α} (h : x = .ok a) :
    (x >>= f) = f a := by
  rw [h]
  rfl

theorem checkedInt_workchain [TonTypes] {form : AddressForm} {workchain : Int}
    (h : form.Workchain workchain) : StackItem.checkedInt workchain = .ok (.int workchain) := by
  refine StackItem.checkedInt_of_inRange ?_
  obtain ⟨hlo, hhi⟩ := h
  have hle : (2 : Int) ^ (form.width - 1) ≤ 2 ^ 256 :=
    pow_le_pow_right₀ (by decide) (by cases form <;> decide)
  exact ⟨by omega, by omega⟩

/-! ### Bits of integers -/

theorem inRange_natCast {n : Nat} : InRange (n : Int) ↔ n < 2 ^ 256 := by
  unfold InRange
  constructor
  · rintro ⟨-, h⟩
    exact_mod_cast h
  · intro h
    have hcast : (n : Int) < 2 ^ 256 := by exact_mod_cast h
    exact ⟨by omega, hcast⟩

theorem intMask_eq {n : Nat} (h : n < 256) :
    Engine.intMask n = .ok (.value ((2 ^ n - 1 : Nat) : Int)) := by
  have hlt : 2 ^ n < 2 ^ 256 := Nat.pow_lt_pow_right (by decide) h
  have hshift : (1 : Int) * 2 ^ n = ((2 ^ n : Nat) : Int) := by
    push_cast
    ring
  have hsub : ((2 ^ n : Nat) : Int) - 1 = ((2 ^ n - 1 : Nat) : Int) := by
    have := Nat.one_le_two_pow (n := n)
    omega
  have hone : IntegerData.one.shl .quiet n = .ok (.value ((2 ^ n : Nat) : Int)) := by
    rw [← hshift]
    refine IntegerData.unarySingle_of_inRange ?_
    rw [hshift]
    exact inRange_natCast.2 hlt
  have htwo : (IntegerData.value ((2 ^ n : Nat) : Int)).sub .quiet .one =
      .ok (.value ((2 ^ n - 1 : Nat) : Int)) := by
    rw [← hsub]
    refine IntegerData.binarySingle_of_inRange ?_
    rw [hsub]
    exact inRange_natCast.2 (by omega)
  unfold Engine.intMask
  rw [hone]
  dsimp only
  rw [htwo]

theorem natOf_drop (bits : List Bool) (n : Nat) :
    Plain.natOf bits % 2 ^ (bits.length - n) = Plain.natOf (bits.drop n) := by
  have hlt := Plain.natOf_lt (bits.drop n)
  have happend := Plain.natOf_append (bits.take n) (bits.drop n)
  rw [List.take_append_drop] at happend
  rw [List.length_drop] at happend hlt
  rw [happend, Nat.mul_add_mod_self_right, Nat.mod_eq_of_lt hlt]

theorem and_mask (T : OperationBehavior) {a n : Nat} (hn : n ≤ 256) :
    (IntegerData.value a).and T (.value ((2 ^ n - 1 : Nat) : Int)) =
      .ok (.value ((a % 2 ^ n : Nat) : Int)) := by
  have hlt : a % 2 ^ n < 2 ^ 256 :=
    (Nat.mod_lt _ (Nat.two_pow_pos n)).trans_le (Nat.pow_le_pow_right (by decide) hn)
  have hland : Int.land a ((2 ^ n - 1 : Nat) : Int) = ((a % 2 ^ n : Nat) : Int) := by
    rw [← Nat.and_two_pow_sub_one_eq_mod]
    rfl
  rw [← hland]
  refine IntegerData.binarySingle_of_inRange ?_
  rw [hland]
  exact inRange_natCast.2 hlt

/-- A number below a power of two and a multiple of the power have no bits in common. -/
theorem or_shifted (T : OperationBehavior) {low high n : Nat} (hn : n ≤ 256) (hlow : low < 2 ^ n)
    (hhigh : high * 2 ^ n < 2 ^ 256) :
    (IntegerData.value low).or T (.value ((high * 2 ^ n : Nat) : Int)) =
      .ok (.value ((high * 2 ^ n + low : Nat) : Int)) := by
  have hor : low ||| high * 2 ^ n = high * 2 ^ n + low := by
    rw [Nat.or_comm, Nat.mul_comm, Nat.two_pow_add_eq_or_of_lt hlow]
  have hlt : low ||| high * 2 ^ n < 2 ^ 256 :=
    Nat.or_lt_two_pow (hlow.trans_le (Nat.pow_le_pow_right (by decide) hn)) hhigh
  rw [← hor]
  exact IntegerData.binarySingle_of_inRange (inRange_natCast.2 hlt)

/-- The number that a prefix is taken for: its bytes, padded on the right. -/
def paddedValue (pfx : List Bool) : Nat := Plain.natOf pfx * 2 ^ excessShift pfx.length

/-- The padding of a prefix adds nothing to its number. -/
def Aligned (pfx : List Bool) : Prop := 8 ∣ pfx.length ∨ Plain.natOf pfx = 0

theorem aligned_iff {pfx : List Bool} : Aligned pfx ↔ paddedValue pfx = Plain.natOf pfx := by
  have hshift : 8 ∣ pfx.length ↔ excessShift pfx.length = 0 := by
    have hmul := bitsToBytes_mul pfx.length
    have hlt := excessShift_lt pfx.length
    omega
  unfold Aligned paddedValue
  rw [hshift]
  by_cases hzero : Plain.natOf pfx = 0
  · rw [hzero, Nat.zero_mul]
    exact iff_of_true (.inr rfl) rfl
  · rw [mul_eq_left₀ hzero, Nat.pow_eq_one]
    simp [hzero]

/-! ### Reading an address -/

section Parsing

variable [TonTypes] [Views] [LawfulViews] [LawfulAddresses]

open Engine

/-- The item for a prefix. -/
def HoldsPrefix (pfx : Option (List Bool)) (item : StackItem) : Prop :=
  match pfx with
  | none => item = .none
  | some pfx => ∃ slice, item = .slice slice ∧ sliceBits slice = pfx ∧ sliceRefs slice = [] ∧
    IsOrdinary slice

theorem readRewritePfx_eq {cell : SliceData} {pfx : Option (List Bool)} {rest : List Bool}
    (hlen : ∀ bits ∈ pfx, bits.length < 2 ^ 5) (hordinary : IsOrdinary cell)
    (hbits : sliceBits cell = pfxBits pfx ++ rest) :
    ∃ item cell', readRewritePfx cell = .ok (item, cell') ∧ HoldsPrefix pfx item ∧
      sliceBits cell' = rest := by
  cases pfx with
  | none =>
    obtain ⟨cell', hbit, hrest, -⟩ := (LawfulAddresses.getNextBit cell).append hbits rfl
    refine ⟨.none, cell', ?_, rfl, hrest⟩
    unfold readRewritePfx
    rw [hbit]
    rfl
  | some pfx =>
    have hlen := hlen pfx rfl
    have hbits : sliceBits cell = [true] ++ (Plain.bitsOf 5 pfx.length ++ (pfx ++ rest)) := by
      rw [hbits, pfxBits, List.cons_append, List.append_assoc]
      rfl
    obtain ⟨cell₁, hbit, hrest₁, -⟩ := (LawfulAddresses.getNextBit cell).append hbits rfl
    have hordinary₁ := LawfulAddresses.ordinary_getNextBit cell _ cell₁ hordinary hbit
    obtain ⟨cell₂, hint, hrest₂, -⟩ :=
      (LawfulViews.getNextInt cell₁ 5).append hrest₁ (Plain.length_bitsOf _ _)
    have hordinary₂ := LawfulAddresses.ordinary_getNextInt cell₁ 5 _ cell₂ hordinary₁ hint
    rw [Plain.natOf_bitsOf, Nat.mod_eq_of_lt hlen] at hint
    obtain ⟨part, cell₃, hslice, hpart, hrefs, hrest₃, -⟩ :=
      LawfulAddresses.getNextSlice cell₂ pfx.length (by rw [hrest₂, List.length_append]; omega)
    have hordinary₃ := LawfulAddresses.ordinary_getNextSlice cell₂ _ part cell₃ hordinary₂ hslice
    rw [hrest₂, List.take_left] at hpart
    rw [hrest₂, List.drop_left] at hrest₃
    refine ⟨.slice part, cell₃, ?_, ⟨part, rfl, hpart, hrefs, hordinary₃⟩, hrest₃⟩
    unfold readRewritePfx
    refine (except_bind_ok hbit).trans ?_
    refine (except_bind_ok hint).trans ?_
    exact except_bind_ok hslice

theorem parseAddress_std {slice : SliceData} {pfx : Option (List Bool)} {workchain : Int}
    {addr rest : List Bool} (hlen : ∀ bits ∈ pfx, bits.length < 2 ^ 5)
    (hwc : AddressForm.std.Workchain workchain) (haddr : addr.length = 256)
    (hordinary : IsOrdinary slice)
    (hbits : sliceBits slice = addressBits .std pfx workchain addr ++ rest) :
    ∃ tag item a cell, parseAddress slice = .ok ([tag, item, .int workchain, .slice a], cell) ∧
      HoldsPrefix pfx item ∧ sliceBits a = addr := by
  have hbits : sliceBits slice = [true, false] ++ (pfxBits pfx ++
      (Plain.bitsOf 8 (workchain % 2 ^ 8).toNat ++ (addr ++ rest))) := by
    rw [hbits]
    simp only [addressBits, List.append_assoc]
  obtain ⟨cell₁, hint, hrest₁, -⟩ := (LawfulViews.getNextInt slice 2).append hbits rfl
  have hordinary₁ := LawfulAddresses.ordinary_getNextInt slice 2 _ cell₁ hordinary hint
  obtain ⟨item, cell₂, hpfx, hholds, hrest₂⟩ := readRewritePfx_eq hlen hordinary₁ hrest₁
  obtain ⟨cell₃, hbyte, hrest₃, -⟩ :=
    (LawfulAddresses.getNextByte cell₂).append hrest₂ (Plain.length_bitsOf _ _)
  obtain ⟨a, cell₄, hslice, ha, -⟩ :=
    LawfulAddresses.getNextSlice cell₃ 256 (by rw [hrest₃, List.length_append, haddr]; omega)
  rw [hrest₃, ← haddr, List.take_left] at ha
  refine ⟨.int 2, item, a, cell₄, ?_, hholds, ha⟩
  have hbmod : (Plain.byteOf (Plain.bitsOf 8 (workchain % 2 ^ 8).toNat)).toInt8.toInt =
      workchain := by
    rw [Plain.byteOf, natOf_residue, UInt8.toInt8_ofNat', Int8.toInt_ofNat']
    exact bmod_emod (by decide) (by norm_num [Int8.size]) hwc
  have hitem : StackItem.checkedInt
      (Plain.byteOf (Plain.bitsOf 8 (workchain % 2 ^ 8).toNat)).toInt8.toInt = .ok (.int workchain) := by
    rw [hbmod]
    exact checkedInt_workchain hwc
  have htag : StackItem.checkedInt (Plain.natOf [true, false]) = .ok (.int 2) := rfl
  unfold parseAddress
  refine (except_bind_ok hint).trans ?_
  refine (except_bind_ok htag).trans ?_
  refine (except_bind_ok hpfx).trans ?_
  refine (except_bind_ok hbyte).trans ?_
  refine (except_bind_ok hitem).trans ?_
  exact except_bind_ok hslice

theorem parseAddress_var {slice : SliceData} {pfx : Option (List Bool)} {workchain : Int}
    {addr rest : List Bool} (hlen : ∀ bits ∈ pfx, bits.length < 2 ^ 5)
    (hwc : AddressForm.var.Workchain workchain) (haddr : addr.length = 256)
    (hordinary : IsOrdinary slice)
    (hbits : sliceBits slice = addressBits .var pfx workchain addr ++ rest) :
    ∃ tag item a cell, parseAddress slice = .ok ([tag, item, .int workchain, .slice a], cell) ∧
      HoldsPrefix pfx item ∧ sliceBits a = addr := by
  have hbits : sliceBits slice = [true, true] ++ (pfxBits pfx ++ (Plain.bitsOf 9 256 ++
      (Plain.bitsOf 32 (workchain % 2 ^ 32).toNat ++ (addr ++ rest)))) := by
    rw [hbits]
    simp only [addressBits, List.append_assoc]
  obtain ⟨cell₁, hint, hrest₁, -⟩ := (LawfulViews.getNextInt slice 2).append hbits rfl
  have hordinary₁ := LawfulAddresses.ordinary_getNextInt slice 2 _ cell₁ hordinary hint
  obtain ⟨item, cell₂, hpfx, hholds, hrest₂⟩ := readRewritePfx_eq hlen hordinary₁ hrest₁
  obtain ⟨cell₃, hcount, hrest₃, -⟩ :=
    (LawfulViews.getNextInt cell₂ 9).append hrest₂ (Plain.length_bitsOf _ _)
  obtain ⟨cell₄, hword, hrest₄, -⟩ :=
    (LawfulViews.getNextInt cell₃ 32).append hrest₃ (Plain.length_bitsOf _ _)
  obtain ⟨a, cell₅, hslice, ha, -⟩ :=
    LawfulAddresses.getNextSlice cell₄ 256 (by rw [hrest₄, List.length_append, haddr]; omega)
  rw [hrest₄, ← haddr, List.take_left] at ha
  refine ⟨.int 3, item, a, cell₅, ?_, hholds, ha⟩
  have hbmod : asI32 (workchain % 2 ^ 32).toNat = workchain := by
    unfold asI32
    exact bmod_emod (by decide) (by norm_num) hwc
  have hitem : StackItem.checkedInt (asI32 (workchain % 2 ^ 32).toNat) = .ok (.int workchain) := by
    rw [hbmod]
    exact checkedInt_workchain hwc
  have htag : StackItem.checkedInt (Plain.natOf [true, true]) = .ok (.int 3) := rfl
  rw [Plain.natOf_bitsOf, Nat.mod_eq_of_lt (by decide)] at hcount
  rw [natOf_residue] at hword
  unfold parseAddress
  refine (except_bind_ok hint).trans ?_
  refine (except_bind_ok htag).trans ?_
  refine (except_bind_ok hpfx).trans ?_
  refine (except_bind_ok hcount).trans ?_
  refine (except_bind_ok hword).trans ?_
  refine (except_bind_ok hitem).trans ?_
  exact except_bind_ok hslice

theorem parseAddress_eq {form : AddressForm} {slice : SliceData} {pfx : Option (List Bool)}
    {workchain : Int} {addr rest : List Bool} (hlen : ∀ bits ∈ pfx, bits.length < 2 ^ 5)
    (hwc : form.Workchain workchain) (haddr : addr.length = 256) (hordinary : IsOrdinary slice)
    (hbits : sliceBits slice = addressBits form pfx workchain addr ++ rest) :
    ∃ tag item a cell, parseAddress slice = .ok ([tag, item, .int workchain, .slice a], cell) ∧
      HoldsPrefix pfx item ∧ sliceBits a = addr := by
  cases form with
  | std => exact parseAddress_std hlen hwc haddr hordinary hbits
  | var => exact parseAddress_var hlen hwc haddr hordinary hbits

omit [LawfulViews] in
theorem getBigint_of_lt {slice : SliceData} (hpos : 0 < (sliceBits slice).length)
    (hlt : (sliceBits slice).length < 256) :
    getBigint slice = (paddedValue (sliceBits slice) * 2 ^ (256 - (sliceBits slice).length) : Nat) := by
  unfold getBigint
  rw [LawfulAddresses.remainingBits, if_neg (by omega), if_pos hlt, LawfulAddresses.getBytestring,
    Plain.fromBytesBe_bytesOf]
  unfold paddedValue
  push_cast
  rfl

omit [LawfulViews] in
theorem getBigint_of_eq {slice : SliceData} (h : (sliceBits slice).length = 256) :
    getBigint slice = Plain.natOf (sliceBits slice) := by
  have hbytes := (Plain.zeroPadded_bytesOf (sliceBits slice)).1
  have hcount : bitsToBytes 256 = 32 := rfl
  have hshift : excessShift 256 = 0 := rfl
  rw [h, hcount] at hbytes
  unfold getBigint
  rw [LawfulAddresses.remainingBits, if_neg (by omega), if_neg (by omega),
    LawfulAddresses.getBytestring, List.take_of_length_le hbytes.le, Plain.fromBytesBe_bytesOf, h,
    hshift, pow_zero, Nat.mul_one]

omit [LawfulViews] in
/-- The integer that the prefix and the address are put together to. -/
theorem rewriteStd_slice (T : OperationBehavior) {slice : SliceData} {addr : List Bool}
    (hpos : 0 < (sliceBits slice).length) (hlt : (sliceBits slice).length < 256)
    (haddr : addr.length = 256) :
    rewriteStd T (.value (Plain.natOf addr)) (.slice slice) = (do
      let _ ← IntegerData.ofInt
        ((paddedValue (sliceBits slice) * 2 ^ (256 - (sliceBits slice).length) : Nat) : Int)
      return .value ((paddedValue (sliceBits slice) * 2 ^ (256 - (sliceBits slice).length) +
        Plain.natOf (addr.drop (sliceBits slice).length) : Nat) : Int)) := by
  have hrange : ¬256 < (sliceBits slice).length := by omega
  unfold rewriteStd
  dsimp only
  rw [LawfulAddresses.remainingBits, if_neg hrange, if_pos hpos, getBigint_of_lt hpos hlt]
  generalize paddedValue (sliceBits slice) = high
  generalize (sliceBits slice).length = n at hpos hlt ⊢
  by_cases hin : InRange ((high * 2 ^ (256 - n) : Nat) : Int)
  · have hlow := Plain.natOf_lt (addr.drop n)
    rw [List.length_drop, haddr] at hlow
    have hand := and_mask T (a := Plain.natOf addr) (n := 256 - n) (by omega)
    rw [← haddr, natOf_drop addr n, haddr] at hand
    rw [IntegerData.ofInt_of_inRange hin, intMask_eq (by omega)]
    refine (except_bind_ok rfl).trans ?_
    refine (except_bind_ok rfl).trans ?_
    refine (except_bind_ok hand).trans ?_
    exact or_shifted T (by omega) hlow (inRange_natCast.1 hin)
  · obtain ⟨failure, herr⟩ := IntegerData.ofInt_of_not_inRange hin
    rw [herr]
    rfl

omit [LawfulViews] in
/-- The integer is the prefix and the rest of the address exactly where the padding adds nothing. -/
theorem rewriteStd_iff (T : OperationBehavior) {pfx : Option (List Bool)} {item : StackItem}
    {addr : List Bool} (hlen : ∀ bits ∈ pfx, bits.length < 2 ^ 5) (hitem : HoldsPrefix pfx item)
    (haddr : addr.length = 256) :
    rewriteStd T (.value (Plain.natOf addr)) item =
        .ok (.value (Plain.natOf (pfx.getD [] ++ addr.drop (pfx.getD []).length))) ↔
      Aligned (pfx.getD []) := by
  cases pfx with
  | none =>
    obtain rfl : item = .none := hitem
    exact iff_of_true rfl (.inl (dvd_zero 8))
  | some bits =>
    obtain ⟨slice, rfl, rfl, -, -⟩ := hitem
    have hlen := hlen _ rfl
    rw [Option.getD_some]
    by_cases hempty : (sliceBits slice).length = 0
    · have hnil : sliceBits slice = [] := List.length_eq_zero_iff.1 hempty
      have hsame : rewriteStd T (.value (Plain.natOf addr)) (.slice slice) =
          .ok (.value (Plain.natOf addr)) := by
        unfold rewriteStd
        dsimp only
        rw [LawfulAddresses.remainingBits, if_neg (by omega), if_neg (by omega)]
        rfl
      rw [hsame, hnil]
      exact iff_of_true rfl (.inl (dvd_zero 8))
    · rw [rewriteStd_slice T (by omega) (by omega) haddr, Plain.natOf_append, List.length_drop, haddr,
        aligned_iff]
      have hnat := Plain.natOf_lt (sliceBits slice)
      generalize paddedValue (sliceBits slice) = high
      constructor
      · intro h
        obtain ⟨_, -, hok⟩ := bind_eq_ok h
        injection Except.ok.inj hok with hvalue
        have hsum := Nat.add_right_cancel (Int.natCast_inj.1 hvalue)
        exact Nat.eq_of_mul_eq_mul_right (Nat.two_pow_pos _) hsum
      · rintro rfl
        have hin : Plain.natOf (sliceBits slice) * 2 ^ (256 - (sliceBits slice).length) < 2 ^ 256 := by
          calc Plain.natOf (sliceBits slice) * 2 ^ (256 - (sliceBits slice).length)
              < 2 ^ (sliceBits slice).length * 2 ^ (256 - (sliceBits slice).length) :=
                Nat.mul_lt_mul_of_pos_right hnat (Nat.two_pow_pos _)
            _ = 2 ^ 256 := by rw [← pow_add, Nat.add_sub_cancel' (by omega)]
        rw [IntegerData.ofInt_of_inRange (inRange_natCast.2 hin)]
        rfl

end Parsing

/-! ### The instructions -/

namespace Engine

section Instructions

variable [TonTypes]

theorem exec_finalizeCellAndLoad {s : Engine} {builder : BuilderData} {cell : Cell} {slice : SliceData}
    (hcell : TonTypes.finalize builder 1024 = .ok cell) (htype : TonTypes.cellType cell = .ordinary)
    (hload : TonTypes.loadCell cell = .ok slice)
    (hgas : Gas.finalizePrice + Gas.loadCellPrice true ≤ s.gas.gasRemaining) :
    ∃ t, exec (finalizeCellAndLoad builder) s = (.ok slice, t) ∧ t.cc = s.cc := by
  have hfinal : exec (finalizeCell builder) s = (.ok cell, s.pay Gas.finalizePrice) := by
    unfold finalizeCell useGas
    rw [exec_bind_modify, hcell]
    rfl
  have hrest : Gas.loadCellPrice true ≤ (s.pay Gas.finalizePrice).gas.gasRemaining := by
    show _ ≤ s.gas.gasRemaining - Gas.finalizePrice
    omega
  unfold finalizeCellAndLoad
  rw [exec_bind_ok hfinal]
  obtain ⟨t, hexec, hcc, -⟩ := exec_loadHashedCell_ordinary true htype hload hrest
  exact ⟨t, hexec, hcc⟩

/-- The state in which the fields of an address are put together. -/
def parsed (e : Engine) (stack : Stack) (slice : SliceData) : Engine :=
  e.afterLoad.holding { e.afterLoad.cc with stack } e.afterLoad.ctrls [.slice slice]

/-- An instruction on the fields of an address ends well where its operation does, and raises an
exception elsewhere. -/
theorem exec_loadAddress {op : List StackItem → M (List StackItem)} {e : Engine} {stack : Stack}
    {slice rest : SliceData} {items : List StackItem} (hstack : e.cc.stack = stack ++ [.slice slice])
    (hparse : parseAddress slice = .ok (items, rest)) :
    exec (loadAddress .signaling op) e =
      match exec (op items) (parsed e stack slice) with
      | (.ok out, t) => (.ok (), { t with cc.stack := t.cc.stack ++ out })
      | (.error .panic, t) => (.error .panic, t)
      | (.error _, t) => (.error (.exception (.fromCode .cellUnderflow)), t) := by
  have hslice : (StackItem.slice slice).asSlice = .ok slice := rfl
  have hfetch : exec (fetchStack 1) e.afterLoad = (.ok (), parsed e stack slice) :=
    (loaded_afterLoad e).exec_fetchStack_one hstack
  have hvar : (parsed e stack slice).cmd.vars[0]? = some (.slice slice) := rfl
  unfold loadAddress
  rw [exec_bind_ok (exec_load _), exec_bind_ok hfetch, exec_bind_ok (exec_var _ hvar), hslice, lift_ok,
    exec_bind_pure, exec_bind, exec_catchError, hparse, lift_ok, pure_bind]
  dsimp only
  rcases exec (op items) (parsed e stack slice) with ⟨err | out, t⟩
  · cases err <;> rfl
  · rfl

section Laws

variable [Views] [LawfulViews] [LawfulAddresses] [LawfulReferences] {s : Engine} {a : SliceData}
  {pfx : Option (List Bool)} {item : StackItem} {addr : List Bool}

omit [LawfulViews] in
theorem exec_rewriteVar (hlen : ∀ bits ∈ pfx, bits.length < 2 ^ 5) (hitem : HoldsPrefix pfx item)
    (ha : sliceBits a = addr) (haddr : addr.length = 256)
    (hgas : Gas.finalizePrice + Gas.loadCellPrice true ≤ s.gas.gasRemaining) :
    ∃ out t, exec (rewriteVar a item) s = (.ok out, t) ∧ t.cc = s.cc ∧
      sliceBits out = pfx.getD [] ++ addr.drop (pfx.getD []).length := by
  subst ha
  cases pfx with
  | none =>
    obtain rfl : item = .none := hitem
    exact ⟨a, s, rfl, rfl, rfl⟩
  | some bits =>
    obtain ⟨slice, rfl, rfl, hrefs, hordinary⟩ := hitem
    have hlen := hlen _ rfl
    unfold rewriteVar
    dsimp only
    rw [LawfulAddresses.remainingBits, LawfulAddresses.remainingBits, if_neg (by omega),
      Option.getD_some]
    by_cases hempty : (sliceBits slice).length = 0
    · rw [if_neg (by omega), List.length_eq_zero_iff.1 hempty]
      exact ⟨a, s, rfl, rfl, rfl⟩
    · obtain ⟨hbits, -⟩ := LawfulReferences.sliceAsBuilder slice
      have hrest := LawfulAddresses.shrinkDataFrom a (sliceBits slice).length (by omega)
      obtain ⟨builder, happend, hdata, -⟩ :=
        (LawfulAddresses.appendBytestring (TonTypes.sliceAsBuilder slice)
          (shrinkDataFrom a (sliceBits slice).length)).exists (by
            rw [hbits, hrest, List.length_drop]
            omega)
      obtain ⟨cell, loaded, hcell, htype, hload, hloaded⟩ :=
        LawfulAddresses.finalize slice _ builder hordinary hrefs happend
      obtain ⟨t, hexec, hcc⟩ := exec_finalizeCellAndLoad hcell htype hload hgas
      rw [if_pos (by omega), happend, lift_ok, exec_bind_pure]
      exact ⟨loaded, t, hexec, hcc, by rw [hloaded, hdata, hbits, hrest]⟩

omit [LawfulViews] [LawfulReferences] in
/-- `REWRITESTDADDR` pushes the workchain and the integer, where there is one. -/
theorem exec_rewriteStdAddr {e : Engine} {stack : Stack} {slice rest : SliceData}
    {tag workchain : StackItem} (hstack : e.cc.stack = stack ++ [.slice slice])
    (hparse : parseAddress slice = .ok ([tag, item, workchain, .slice a], rest))
    (ha : sliceBits a = addr) (haddr : addr.length = 256) (y : IntegerData) :
    (∃ t, exec (executeRewriteStdAddr .signaling) e = (.ok (), t) ∧
      t.cc.stack = stack ++ [workchain, .integer y]) ↔
      rewriteStd .signaling (.value (Plain.natOf addr)) item = .ok y := by
  have hslice : (StackItem.slice a).asSlice = .ok a := rfl
  have hint : IntegerData.ofInt (getBigint a) = .ok (.value (Plain.natOf addr)) := by
    have hlt := Plain.natOf_lt addr
    rw [haddr] at hlt
    rw [getBigint_of_eq (by rw [ha, haddr]), ha, IntegerData.ofInt_of_inRange (inRange_natCast.2 hlt)]
  unfold executeRewriteStdAddr
  rw [exec_loadAddress hstack hparse]
  dsimp only [stdParts]
  rw [hslice, lift_ok, pure_bind, LawfulAddresses.remainingBits, ha, haddr, if_neg (by decide), hint,
    lift_ok, pure_bind]
  cases rewriteStd .signaling (.value (Plain.natOf addr)) item with
  | ok z =>
    rw [lift_ok, exec_bind_pure]
    constructor
    · rintro ⟨t, hexec, hfinal⟩
      cases hexec
      have hsame : stack ++ [workchain, .integer z] = stack ++ [workchain, .integer y] := hfinal
      injection List.append_cancel_left hsame with _ htail
      injection htail with hitem
      injection hitem with hz
      rw [hz]
    · rintro ⟨⟩
      exact ⟨_, rfl, rfl⟩
  | error failure =>
    refine iff_of_false ?_ nofun
    rintro ⟨t, hexec, -⟩
    cases failure <;> cases hexec

/-- The two instructions agree exactly on the prefixes whose padding adds nothing. -/
theorem rewrite_addresses_iff {form : AddressForm} {e : Engine} {stack : Stack} {slice : SliceData}
    {workchain : Int} {rest : List Bool} (hlen : ∀ bits ∈ pfx, bits.length ≤ 30)
    (hwc : form.Workchain workchain) (haddr : addr.length = 256) (hordinary : IsOrdinary slice)
    (hbits : sliceBits slice = addressBits form pfx workchain addr ++ rest)
    (hstack : e.cc.stack = stack ++ [.slice slice])
    (hgas : Gas.finalizePrice + Gas.loadCellPrice true ≤ e.afterLoad.gas.gasRemaining) :
    (∃ t t' out, exec (executeRewriteVarAddr .signaling) e = (.ok (), t) ∧
      t.cc.stack = stack ++ [.int workchain, .slice out] ∧
      sliceBits out = pfx.getD [] ++ addr.drop (pfx.getD []).length ∧
      exec (executeRewriteStdAddr .signaling) e = (.ok (), t') ∧
      t'.cc.stack = stack ++ [.int workchain, .int (Plain.natOf (sliceBits out))]) ↔
      Aligned (pfx.getD []) := by
  have hshort (bits : List Bool) (hmem : bits ∈ pfx) : bits.length < 2 ^ 5 :=
    (hlen bits hmem).trans_lt (by decide)
  obtain ⟨tag, item, a, cell, hparse, hitem, ha⟩ :=
    parseAddress_eq hshort hwc haddr hordinary hbits
  have hslice : (StackItem.slice a).asSlice = .ok a := rfl
  obtain ⟨out, u, hout, hcc, hbitsOut⟩ :=
    exec_rewriteVar (s := parsed e stack slice) hshort hitem ha haddr hgas
  have hvar : exec (executeRewriteVarAddr .signaling) e =
      (.ok (), { u with cc.stack := stack ++ [.int workchain, .slice out] }) := by
    unfold executeRewriteVarAddr
    rw [exec_loadAddress hstack hparse]
    dsimp only [varParts]
    rw [hslice, lift_ok, pure_bind, exec_bind_ok hout]
    have hkept : u.cc.stack = stack := congrArg (·.stack) hcc
    rw [← hkept]
    rfl
  have hstd := exec_rewriteStdAddr hstack hparse ha haddr (.value (Plain.natOf (sliceBits out)))
  have hiff := rewriteStd_iff .signaling hshort hitem haddr
  rw [← hbitsOut, ← hstd] at hiff
  refine Iff.trans ⟨?_, ?_⟩ hiff
  · rintro ⟨t, t', out', hexec, hfinal, -, hexec', hfinal'⟩
    rw [hvar] at hexec
    cases hexec
    have hsame : stack ++ [.int workchain, .slice out] = stack ++ [.int workchain, .slice out'] :=
      hfinal
    injection List.append_cancel_left hsame with _ htail
    injection htail with hslices
    injection hslices with hout
    rw [hout]
    exact ⟨t', hexec', hfinal'⟩
  · rintro ⟨t', hexec', hfinal'⟩
    exact ⟨_, t', out, hvar, rfl, hbitsOut, hexec', hfinal'⟩

end Laws

end Instructions

end Engine

/-! ### Plain slices -/

namespace Plain

open scoped TonVm.Plain

theorem bits_ofBits (bits : List Bool) : (Slice.ofBits bits).bits = bits := List.take_length

theorem next_eq_ok {slice rest : Slice} {n : Nat} {bits : List Bool}
    (h : slice.next n = .ok (bits, rest)) : rest = { slice with start := slice.start + n } := by
  unfold Slice.next at h
  split_ifs at h
  cases h
  rfl

theorem getNextSlice_eq {slice : Slice} {n : Nat} (h : n ≤ slice.bits.length) :
    TonTypes.getNextSlice slice n = .ok
      ({ slice with stop := slice.start + n, refStop := slice.refStart },
        ({ slice with start := slice.start + n } : Slice)) := by
  have hnext : slice.moveBy n = .ok { slice with start := slice.start + n } := by
    have hroom : n ≤ slice.remainingBits := h
    unfold Slice.moveBy Slice.next
    rw [if_pos hroom]
    rfl
  have hshrink : slice.shrinkData 0 n = { slice with stop := slice.start + n } :=
    if_pos ⟨Nat.zero_le n, h⟩
  show (do
    let rest ← slice.moveBy n
    return (({ slice.shrinkData 0 n with refStop := slice.refStart } : Slice), rest)) = _
  rw [hnext, hshrink]
  rfl

scoped instance lawfulAddresses : LawfulAddresses where
  remainingBits _ := rfl
  getBytestring _ := rfl
  getNextBit slice := Takes.map (takes_next slice 1) fun bits => decide (natOf bits = 1)
  getNextByte slice := Takes.map (takes_next slice 8) byteOf
  getNextSlice slice n hn := by
    refine ⟨_, _, getNextSlice_eq hn, ?_, ?_, ?_, rfl⟩
    · have h := bits_shrinkData slice (Nat.zero_le n) hn
      have hshrink : slice.shrinkData 0 n = { slice with stop := slice.start + n } :=
        if_pos ⟨Nat.zero_le n, hn⟩
      rw [hshrink] at h
      exact h
    · exact List.drop_eq_nil_of_le (List.length_take_le _ _)
    · exact (List.drop_drop ..).symm
  shrinkDataFrom := bits_shrinkDataFrom
  appendBytestring builder slice := builds_appendBits builder slice.bits
  ordinary_getNextBit slice bit rest h hok := by
    obtain ⟨⟨_, _⟩, hnext, hrest⟩ := bind_eq_ok hok
    cases hrest
    rw [next_eq_ok hnext]
    exact h
  ordinary_getNextInt slice n value rest h hok := by
    obtain ⟨⟨_, _⟩, hnext, hrest⟩ := bind_eq_ok hok
    cases hrest
    rw [next_eq_ok hnext]
    exact h
  ordinary_getNextSlice slice n part rest h hok := by
    obtain ⟨_, -, hpart⟩ := bind_eq_ok hok
    cases hpart
    have hcell : (Slice.shrinkData slice 0 n).cell = Slice.cell slice := by
      unfold Slice.shrinkData
      split_ifs <;> rfl
    show (Slice.shrinkData slice 0 n).cell.type = .ordinary
    rw [hcell]
    exact h
  finalize slice more builder h hrefs happend := by
    have hroom := (builds_appendBits (Slice.toBuilder slice) (Slice.bits more)).room builder happend
    have happend : (Slice.toBuilder slice).appendBits (Slice.bits more) = .ok builder := happend
    unfold Builder.appendBits at happend
    rw [if_pos hroom] at happend
    cases happend
    have htype : (Slice.cell slice).type = .ordinary := h
    have hrefs : Slice.refs slice = [] := hrefs
    let cell : Tree := .mk .ordinary (Slice.bits slice ++ Slice.bits more) []
    refine ⟨cell, Slice.whole cell, ?_, rfl, rfl, ?_⟩
    · show Builder.finalize ⟨(Slice.cell slice).type, Slice.bits slice ++ Slice.bits more,
        Slice.refs slice⟩ 1024 = _
      rw [htype, hrefs]
      unfold Builder.finalize
      exact if_pos (Nat.zero_le 1024)
    · show (cell.bits.take cell.bits.length).drop 0 = _
      rw [List.take_length]
      rfl

end Plain

namespace Engine

open scoped Plain

/-- The address of the zeros in the workchain 0, with a prefix. -/
def zeroAddress (pfx : List Bool) : List Bool :=
  addressBits .std (some pfx) 0 (List.replicate 256 false)

def rewriting (code : List UInt8) (pfx : List Bool) : Engine :=
  (withCapabilities []).setupWithLibraries (Plain.code code) none
    (some [.slice (Plain.Slice.ofBits (zeroAddress pfx))]) none []

/-- A prefix of a byte. -/
theorem rewrite_addresses_byte :
    ∃ t t' out,
      exec (executeRewriteVarAddr .signaling) (rewriting [] (List.replicate 8 true)) = (.ok (), t) ∧
      t.cc.stack = [.int 0, .slice out] ∧
      sliceBits out = List.replicate 8 true ++ (List.replicate 256 false).drop 8 ∧
      exec (executeRewriteStdAddr .signaling) (rewriting [] (List.replicate 8 true)) = (.ok (), t') ∧
      t'.cc.stack = [.int 0, .int (Plain.natOf (sliceBits out))] := by
  have hlen : ∀ bits ∈ some (List.replicate 8 true), bits.length ≤ 30 := by
    rintro _ ⟨⟩
    decide
  have hwc : AddressForm.std.Workchain 0 := ⟨by decide, by decide⟩
  have haddr : (List.replicate 256 false).length = 256 := List.length_replicate
  have hordinary : IsOrdinary (Plain.Slice.ofBits (zeroAddress (List.replicate 8 true))) := rfl
  have hbits : sliceBits (Plain.Slice.ofBits (zeroAddress (List.replicate 8 true)) : SliceData) =
      addressBits .std (some (List.replicate 8 true)) 0 (List.replicate 256 false) ++ [] :=
    (Plain.bits_ofBits _).trans (List.append_nil _).symm
  have hstack : (rewriting [] (List.replicate 8 true)).cc.stack =
      [] ++ [.slice (Plain.Slice.ofBits (zeroAddress (List.replicate 8 true)))] := rfl
  have hgas : Gas.finalizePrice + Gas.loadCellPrice true ≤
      (rewriting [] (List.replicate 8 true)).afterLoad.gas.gasRemaining := by
    decide +kernel
  exact (rewrite_addresses_iff hlen hwc haddr hordinary hbits hstack hgas).2 (.inl (by decide))

/-- With the prefix `1` one of the instructions fails, and with the prefix `0000001` it pushes the
double of the integer. -/
theorem rewriting_unaligned :
    ending (passes 10 (rewriting [0xFA, 0x46] [true])) = (some 0, [0]) ∧
    endedBy (passes 10 (rewriting [0xFA, 0x44] [true])).1 = some .cellUnderflow ∧
    ending (passes 10 (rewriting [0xFA, 0x44] [false, false, false, false, false, false, true])) =
      (some 0, [0, 2 ^ 250]) := by
  decide +kernel

end Engine

end TonVm
