import TonVm.Proof.IntegerCodec

/-!
# Keys as integers

The key of a dictionary is a bit string, and stands for an integer. The encodings of integers write
and read keys by this value, and it tells a key of a given length. An integer that has no key of a
length lies on one side of all that have one.
-/

namespace TonVm

/-- The integer that a bit string stands for, in two's complement for signed keys. -/
def keyValue (signed : Bool) (bits : List Bool) : Int :=
  if signed && bits.head?.getD false then Plain.natOf bits - 2 ^ bits.length else Plain.natOf bits

/-- The encoding that writes and reads the keys. -/
def keyEncoding (signed : Bool) : Encoding :=
  if signed then .signedBigEndian else .unsignedBigEndian

namespace Plain

theorem zeroPadded_bytesOf (bits : List Bool) : ZeroPadded bits.length (bytesOf bits) := by
  have hlen := congrArg List.length (ofBytes_bytesOf bits)
  rw [length_ofBytes, List.length_append, List.length_replicate, ← bitsToBytes_mul] at hlen
  rw [zeroPadded_iff, fromBytesBe_bytesOf]
  exact ⟨by omega, Nat.dvd_mul_left _ _⟩

end Plain

/-- A padded string is the residue of the value that it decodes to. -/
theorem Encoding.Layout.decode_emod {encoding : Encoding} {n m : Nat} {read : List UInt8 → Int}
    (h : encoding.Layout n List.reverse read) {data : List UInt8} (hdata : ZeroPadded n data)
    (hm : fromBytesBe data = m * 2 ^ excessShift n) : encoding.decode n data % 2 ^ n = m := by
  obtain ⟨hlen, hmul⟩ := h.decode_mul hdata
  have hpos : (0 : Int) < 2 ^ excessShift n := by positivity
  have hread : read data.reverse % 2 ^ (8 * bitsToBytes n) = (m : Int) * 2 ^ excessShift n := by
    rw [← fromBytesLe_complementLe, h.complement_read _ hlen]
    exact_mod_cast hm
  rw [← hmul, bitsToBytes_mul, pow_add, mul_comm, mul_comm (2 ^ n), Int.mul_emod_mul_of_pos _ _ hpos,
    mul_comm] at hread
  exact mul_right_cancel₀ hpos.ne' hread

theorem keyEncoding_width {signed : Bool} {n : Nat} (h : n ≤ 256) : (keyEncoding signed).Width n := by
  cases signed
  · exact h
  · exact h.trans (by decide)

theorem keyEncoding_inverse {signed : Bool} {n : Nat} (h : signed = true → n ≠ 0) :
    (keyEncoding signed).Inverse n := by
  cases signed with
  | false => exact Encoding.layout_unsignedBigEndian.inverse
  | true => exact (Encoding.layout_signedBigEndian (h rfl)).inverse

theorem keyValue_emod (signed : Bool) (bits : List Bool) :
    keyValue signed bits % 2 ^ bits.length = Plain.natOf bits := by
  have hlt := Plain.natOf_lt bits
  have hmod : (Plain.natOf bits : Int) % 2 ^ bits.length = Plain.natOf bits :=
    Int.emod_eq_of_lt (by positivity) (by exact_mod_cast hlt)
  unfold keyValue
  split
  · rw [Int.sub_emod_right, hmod]
  · exact hmod

theorem fits_keyValue (signed : Bool) {bits : List Bool} (h : bits ≠ []) :
    (keyEncoding signed).Fits bits.length (keyValue signed bits) := by
  have hlt := Plain.natOf_lt bits
  cases signed with
  | false =>
    show (0 : Int) ≤ Plain.natOf bits ∧ (Plain.natOf bits : Int) < 2 ^ bits.length
    exact_mod_cast And.intro (Nat.zero_le _) hlt
  | true =>
    obtain ⟨bit, rest, rfl⟩ := List.exists_cons_of_ne_nil h
    have hrest : (Plain.natOf rest : Int) < 2 ^ rest.length := by exact_mod_cast Plain.natOf_lt rest
    show bitsize _ ≤ rest.length + 1
    rw [bitsize_le_iff]
    unfold keyValue
    rw [Plain.natOf_cons, List.length_cons, pow_succ]
    cases bit
    · simp only [List.head?_cons, Option.getD_some, Bool.and_false, Bool.toNat_false]
      push_cast
      constructor <;> omega
    · simp only [List.head?_cons, Option.getD_some, Bool.and_true, Bool.toNat_true, if_true]
      push_cast
      constructor <;> omega

/-- A value of a width is told by its residue. -/
theorem eq_of_fits_of_emod {signed : Bool} {n : Nat} (hn : n ≠ 0) {v w : Int}
    (hv : (keyEncoding signed).Fits n v) (hw : (keyEncoding signed).Fits n w)
    (h : v % 2 ^ n = w % 2 ^ n) : v = w := by
  have hdvd : (2 : Int) ^ n ∣ v - w := Int.dvd_of_emod_eq_zero (Int.emod_eq_emod_iff_emod_sub_eq_zero.1 h)
  have hlt : |v - w| < 2 ^ n := by
    rw [abs_lt]
    cases signed with
    | false =>
      obtain ⟨hv0, hvn⟩ := hv
      obtain ⟨hw0, hwn⟩ := hw
      constructor <;> omega
    | true =>
      obtain ⟨k, rfl⟩ := Nat.exists_eq_succ_of_ne_zero hn
      obtain ⟨hv0, hvn⟩ := (bitsize_le_iff v k).1 hv
      obtain ⟨hw0, hwn⟩ := (bitsize_le_iff w k).1 hw
      rw [Nat.succ_eq_add_one, pow_succ]
      constructor <;> omega
  have := Int.eq_zero_of_abs_lt_dvd hdvd hlt
  omega

theorem keyValue_injective {signed : Bool} {bits bits' : List Bool} (hlen : bits.length = bits'.length)
    (h : keyValue signed bits = keyValue signed bits') : bits = bits' := by
  refine Plain.natOf_injective hlen ?_
  zify
  rw [← keyValue_emod signed, ← keyValue_emod signed, h, hlen]

theorem decode_bytesOf (signed : Bool) {bits : List Bool} (h : bits ≠ []) :
    (keyEncoding signed).decode bits.length (Plain.bytesOf bits) = keyValue signed bits := by
  have hn : bits.length ≠ 0 := List.length_eq_zero_iff.not.2 h
  have hdata := Plain.zeroPadded_bytesOf bits
  have hm := Plain.fromBytesBe_bytesOf bits
  refine eq_of_fits_of_emod hn ?_ (fits_keyValue signed h) ?_
  · exact (keyEncoding_inverse fun _ => hn).fits _ hdata
  · rw [keyValue_emod]
    cases signed with
    | false => exact Encoding.layout_unsignedBigEndian.decode_emod hdata hm
    | true => exact (Encoding.layout_signedBigEndian hn).decode_emod hdata hm

/-- An integer that has no key lies below or above all that have one. -/
theorem lt_of_not_fits {signed : Bool} {n : Nat} (hpos : 1 ≤ n) {i k : Int}
    (hi : ¬(keyEncoding signed).Fits n i) (hk : (keyEncoding signed).Fits n k) :
    if i < 0 then i < k else k < i := by
  cases signed with
  | false =>
    obtain ⟨hk0, hkn⟩ := hk
    have hi : ¬(0 ≤ i ∧ i < 2 ^ n) := hi
    split_ifs <;> omega
  | true =>
    obtain ⟨m, rfl⟩ := Nat.exists_eq_add_of_le' hpos
    obtain ⟨hk0, hkn⟩ := (bitsize_le_iff k m).1 hk
    have hi := (bitsize_le_iff i m).not.1 hi
    split_ifs <;> omega

/-- The sign of such an integer and the direction tell where the keys are. -/
theorem side_of_lt {i k : Int} (h : if i < 0 then i < k else k < i) (next : Bool) :
    if !decide (i < 0) ^^ next then if next then i < k else k < i
      else if next then k < i else i < k := by
  by_cases hneg : i < 0
  · cases next <;> simpa [hneg] using h
  · cases next <;> simpa [hneg] using h

end TonVm
