import TonVm.Plain
import TonVm.Proof.Bytes

/-!
# Strings of bits

A number and the bits of a width determine each other, and so do bytes and their bits. The highest bit
comes first, so that the value of a string of bytes is its big-endian value.
-/

namespace TonVm.Plain

theorem natOf_append_singleton (bits : List Bool) (bit : Bool) :
    natOf (bits ++ [bit]) = 2 * natOf bits + bit.toNat := by
  simp [natOf]

theorem natOf_append (bits bits' : List Bool) :
    natOf (bits ++ bits') = natOf bits * 2 ^ bits'.length + natOf bits' := by
  induction bits' using List.reverseRecOn with
  | nil => simp [natOf]
  | append_singleton bits' bit ih =>
    rw [← List.append_assoc, natOf_append_singleton, ih, natOf_append_singleton, List.length_append,
      List.length_singleton, pow_succ]
    ring

theorem natOf_cons (bit : Bool) (bits : List Bool) :
    natOf (bit :: bits) = bit.toNat * 2 ^ bits.length + natOf bits := by
  rw [← List.singleton_append, natOf_append]
  simp [natOf]

theorem natOf_lt (bits : List Bool) : natOf bits < 2 ^ bits.length := by
  induction bits using List.reverseRecOn with
  | nil => decide
  | append_singleton bits bit ih =>
    have hbit := bit.toNat_lt
    rw [natOf_append_singleton, List.length_append, List.length_singleton, pow_succ]
    omega

@[simp]
theorem length_bitsOf (n value : Nat) : (bitsOf n value).length = n := by
  induction n with
  | zero => rfl
  | succ n ih => rw [bitsOf, List.length_cons, ih]

theorem natOf_bitsOf (n value : Nat) : natOf (bitsOf n value) = value % 2 ^ n := by
  induction n with
  | zero => simp [bitsOf, natOf, Nat.mod_one]
  | succ n ih =>
    rw [bitsOf, natOf_cons, length_bitsOf, ih, Nat.toNat_testBit, pow_succ, Nat.mod_mul]
    ring

/-- Strings of one length are told by their values. -/
theorem natOf_injective {bits bits' : List Bool} (hlen : bits.length = bits'.length)
    (h : natOf bits = natOf bits') : bits = bits' := by
  induction bits generalizing bits' with
  | nil => exact (List.length_eq_zero_iff.1 hlen.symm).symm
  | cons bit bits ih =>
    cases bits' with
    | nil => cases hlen
    | cons bit' bits' =>
      have hlen' : bits.length = bits'.length := Nat.succ.inj hlen
      have hlt := natOf_lt bits
      have hlt' := natOf_lt bits'
      rw [natOf_cons, natOf_cons, hlen'] at h
      rw [hlen'] at hlt
      have hbits : bit = bit' ∧ natOf bits = natOf bits' := by
        cases bit <;> cases bit' <;> simp_all; omega
      rw [hbits.1, ih hlen' hbits.2]

theorem bitsOf_natOf {bits : List Bool} {n : Nat} (h : bits.length = n) :
    bitsOf n (natOf bits) = bits := by
  refine natOf_injective (by rw [length_bitsOf, h]) ?_
  rw [natOf_bitsOf, Nat.mod_eq_of_lt]
  exact h ▸ natOf_lt bits

/-! ### Bytes -/

@[simp]
theorem ofBytes_nil : ofBytes [] = [] := rfl

@[simp]
theorem ofBytes_cons (byte : UInt8) (bytes : List UInt8) :
    ofBytes (byte :: bytes) = bitsOf 8 byte.toNat ++ ofBytes bytes := rfl

@[simp]
theorem length_ofBytes (bytes : List UInt8) : (ofBytes bytes).length = 8 * bytes.length := by
  induction bytes with
  | nil => rfl
  | cons byte bytes ih =>
    rw [ofBytes_cons, List.length_append, length_bitsOf, ih, List.length_cons]
    omega

theorem take_ofBytes (bytes : List UInt8) (n : Nat) :
    (ofBytes bytes).take (8 * n) = ofBytes (bytes.take n) := by
  induction bytes generalizing n with
  | nil => simp
  | cons byte bytes ih =>
    cases n with
    | zero => simp
    | succ n =>
      rw [ofBytes_cons, List.take_succ_cons, ofBytes_cons, Nat.mul_succ, Nat.add_comm,
        List.take_add, List.take_left' (length_bitsOf 8 _), List.drop_left' (length_bitsOf 8 _), ih]

theorem fromBytesBe_append (bytes bytes' : List UInt8) : fromBytesBe (bytes ++ bytes') =
    fromBytesBe bytes * 256 ^ bytes'.length + fromBytesBe bytes' := by
  rw [fromBytesBe, List.reverse_append, fromBytesLe_append, List.length_reverse]
  simp only [fromBytesBe]
  ring

theorem natOf_ofBytes (bytes : List UInt8) : natOf (ofBytes bytes) = fromBytesBe bytes := by
  induction bytes with
  | nil => rfl
  | cons byte bytes ih =>
    have hbyte : fromBytesBe [byte] = byte.toNat := by simp [fromBytesBe, fromBytesLe]
    have hlt : byte.toNat < 2 ^ 8 := byte.toNat_lt
    rw [ofBytes_cons, natOf_append, natOf_bitsOf, Nat.mod_eq_of_lt hlt, length_ofBytes, ih,
      ← List.singleton_append, fromBytesBe_append, hbyte, pow_bytes]

theorem bytesOf_ofBytes (bytes : List UInt8) : bytesOf (ofBytes bytes) = bytes := by
  induction bytes with
  | nil => rfl
  | cons byte bytes ih =>
    have hbyte : byteOf (bitsOf 8 byte.toNat) = byte := by
      rw [byteOf, natOf_bitsOf, Nat.mod_eq_of_lt byte.toNat_lt, UInt8.ofNat_toNat]
    have hcons : bytesOf (bitsOf 8 byte.toNat ++ ofBytes bytes) =
        byteOf (bitsOf 8 byte.toNat) :: bytesOf (ofBytes bytes) := rfl
    rw [ofBytes_cons, hcons, hbyte, ih]

theorem bitsOf_byteOf {bits : List Bool} (h : bits.length = 8) : bitsOf 8 (byteOf bits).toNat = bits := by
  have hlt := natOf_lt bits
  rw [h] at hlt
  rw [byteOf, UInt8.toNat_ofNat_of_lt' hlt, bitsOf_natOf h]

theorem excessShift_add_eight (n : Nat) : excessShift (n + 8) = excessShift n := by
  rw [excessShift, excessShift, calcExcessBits_eq, calcExcessBits_eq, Nat.add_mod_right]

theorem ofBytes_bytesOf (bits : List Bool) :
    ofBytes (bytesOf bits) = bits ++ List.replicate (excessShift bits.length) false := by
  fun_induction bytesOf bits with
  | case1 => rfl
  | case2 a b c d e f g h rest ih =>
    have hlen : (a :: b :: c :: d :: e :: f :: g :: h :: rest).length = rest.length + 8 := rfl
    rw [ofBytes_cons, bitsOf_byteOf rfl, ih, hlen, excessShift_add_eight]
    rfl
  | case3 bits hne hshort =>
    -- a byte that is not full
    have hpos : 0 < bits.length := List.length_pos_iff.2 hne
    have hlt : bits.length < 8 := by
      rcases bits with _ | ⟨a, _ | ⟨b, _ | ⟨c, _ | ⟨d, _ | ⟨e, _ | ⟨f, _ | ⟨g, _ | ⟨h, rest⟩⟩⟩⟩⟩⟩⟩⟩
      case cons.cons.cons.cons.cons.cons.cons.cons => exact (hshort _ _ _ _ _ _ _ _ _ rfl).elim
      all_goals simp
    have hshift : excessShift bits.length = 8 - bits.length := by
      rw [excessShift, calcExcessBits_eq, Nat.mod_eq_of_lt hlt, if_pos hpos.ne']
    have htake : (bits ++ List.replicate 8 false).take 8 =
        bits ++ List.replicate (8 - bits.length) false := by
      rw [List.take_append, List.take_of_length_le hlt.le, List.take_replicate,
        min_eq_left (Nat.sub_le _ _)]
    have hlen : (bits ++ List.replicate (8 - bits.length) false).length = 8 := by
      rw [List.length_append, List.length_replicate]
      omega
    rw [ofBytes_cons, ofBytes_nil, List.append_nil, htake, bitsOf_byteOf hlen, hshift]

theorem natOf_replicate_false (n : Nat) : natOf (List.replicate n false) = 0 := by
  induction n with
  | zero => rfl
  | succ n ih => rw [List.replicate_succ, natOf_cons, ih, Bool.toNat_false, Nat.zero_mul]

theorem fromBytesBe_bytesOf (bits : List Bool) :
    fromBytesBe (bytesOf bits) = natOf bits * 2 ^ excessShift bits.length := by
  rw [← natOf_ofBytes, ofBytes_bytesOf, natOf_append, List.length_replicate, natOf_replicate_false,
    Nat.add_zero]

end TonVm.Plain
