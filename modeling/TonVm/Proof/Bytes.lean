import Mathlib.Tactic.Linarith
import Mathlib.Tactic.Positivity
import Mathlib.Tactic.Ring
import TonVm.Proof.Integer

/-!
# Bytes of integers

What the big integers of the source do with bytes: a number and its bytes determine each other, and
the shortest two's complement, extended by its sign, is the two's complement of any larger width.
-/

namespace TonVm

theorem forall_byte {p : UInt8 → Prop} (h : ∀ i : Fin 256, p (UInt8.ofNat i)) (byte : UInt8) :
    p byte := by
  have := h ⟨byte.toNat, byte.toNat_lt⟩
  rwa [UInt8.ofNat_toNat] at this

/-! ### Numbers and their bytes -/

@[simp]
theorem length_bytesLe (count n : Nat) : (bytesLe count n).length = count := by
  induction count generalizing n with
  | zero => rfl
  | succ count ih => simp only [bytesLe, List.length_cons, ih]

theorem fromBytesLe_bytesLe (count n : Nat) : fromBytesLe (bytesLe count n) = n % 256 ^ count := by
  induction count generalizing n with
  | zero => simp [bytesLe, fromBytesLe, Nat.mod_one]
  | succ count ih =>
    have hbyte : (UInt8.ofNat n).toNat = n % 256 := rfl
    rw [bytesLe, fromBytesLe, ih, hbyte, pow_succ', Nat.mod_mul]

theorem fromBytesLe_lt (bytes : List UInt8) : fromBytesLe bytes < 256 ^ bytes.length := by
  induction bytes with
  | nil => simp [fromBytesLe]
  | cons b bytes ih =>
    have hb : b.toNat < 256 := b.toNat_lt
    rw [fromBytesLe, List.length_cons, pow_succ']
    omega

theorem bytesLe_fromBytesLe (bytes : List UInt8) :
    bytesLe bytes.length (fromBytesLe bytes) = bytes := by
  induction bytes with
  | nil => rfl
  | cons b bytes ih =>
    have hb : b.toNat < 256 := b.toNat_lt
    have hdiv : (b.toNat + 256 * fromBytesLe bytes) / 256 = fromBytesLe bytes := by omega
    have hbyte : UInt8.ofNat (b.toNat + 256 * fromBytesLe bytes) = b := by
      apply UInt8.toNat_inj.1
      rw [UInt8.toNat_ofNat']
      omega
    rw [fromBytesLe, List.length_cons, bytesLe, hdiv, hbyte, ih]

theorem fromBytesLe_append (low high : List UInt8) :
    fromBytesLe (low ++ high) = fromBytesLe low + 256 ^ low.length * fromBytesLe high := by
  induction low with
  | nil => simp [fromBytesLe]
  | cons b low ih =>
    rw [List.cons_append, fromBytesLe, fromBytesLe, ih, List.length_cons, pow_succ']
    ring

theorem fromBytesLe_replicate (count : Nat) (byte : UInt8) :
    255 * fromBytesLe (List.replicate count byte) + byte.toNat = byte.toNat * 256 ^ count := by
  induction count with
  | zero => simp [fromBytesLe]
  | succ count ih =>
    rw [List.replicate_succ, fromBytesLe, pow_succ']
    linarith

/-- Bytes are told by their number and their value. -/
theorem eq_bytesLe {bytes : List UInt8} {count n : Nat} (hlen : bytes.length = count)
    (hval : fromBytesLe bytes = n) : bytes = bytesLe count n := by
  rw [← hlen, ← hval, bytesLe_fromBytesLe]

theorem bytesLe_extend {low count n : Nat} (hle : low ≤ count) (hn : n < 256 ^ low) :
    bytesLe low n ++ List.replicate (count - low) 0 = bytesLe count n := by
  apply eq_bytesLe
  · simp only [List.length_append, length_bytesLe, List.length_replicate]
    omega
  · have hzero := fromBytesLe_replicate (count - low) 0
    have h0 : (0 : UInt8).toNat = 0 := rfl
    rw [h0] at hzero
    rw [fromBytesLe_append, fromBytesLe_bytesLe, Nat.mod_eq_of_lt hn]
    have : fromBytesLe (List.replicate (count - low) 0) = 0 := by omega
    rw [this, mul_zero, add_zero]

/-! ### Widths -/

theorem bitsToBytes_eq (n : Nat) : bitsToBytes n = (n + 7) / 8 := Nat.shiftRight_eq_div_pow _ _

theorem calcExcessBits_eq (n : Nat) : calcExcessBits n = n % 8 :=
  Nat.and_two_pow_sub_one_eq_mod n 3

theorem excessShift_lt (n : Nat) : excessShift n < 8 := by
  rw [excessShift, calcExcessBits_eq]
  split <;> omega

/-- The shift fills the last byte. -/
theorem bitsToBytes_mul (n : Nat) : 8 * bitsToBytes n = n + excessShift n := by
  rw [excessShift, calcExcessBits_eq, bitsToBytes_eq]
  split <;> omega

/-! ### Two's complements of whole bytes -/

theorem pow_bytes (count : Nat) : 256 ^ count = 2 ^ (8 * count) := (pow_mul 2 8 count).symm

theorem emod_of_neg {v m : Int} (h : -m ≤ v) (hv : v < 0) : v % m = v + m := by
  rw [← Int.add_emod_right]
  exact Int.emod_eq_of_lt (by omega) (by omega)

/-- The two's complement of a number of bytes, least significant first. -/
def complementLe (count : Nat) (v : Int) : List UInt8 := bytesLe count (v % 2 ^ (8 * count)).toNat

theorem bounds_of_bitsize_le {v : Int} {count : Nat} (h : bitsize v ≤ 8 * count) :
    ∃ half : Nat, 2 ^ (8 * count) = 2 * half ∧ -(half : Int) ≤ v ∧ v < half := by
  have hpos := one_le_bitsize v
  have hcount : 8 * count = (8 * count - 1) + 1 := by omega
  rw [hcount] at h
  refine ⟨2 ^ (8 * count - 1), ?_, ?_⟩
  · rw [← pow_succ', ← hcount]
  · have := (bitsize_le_iff v _).1 h
    push_cast
    exact this

theorem bitsize_le_of_bounds {v : Int} {count half : Nat} (hhalf : 2 ^ (8 * count) = 2 * half)
    (hlo : -(half : Int) ≤ v) (hhi : v < half) : bitsize v ≤ 8 * count := by
  have hcount : 8 * count = (8 * count - 1) + 1 := by
    by_contra h
    have h0 : 8 * count = 0 := by omega
    rw [h0, pow_zero] at hhalf
    omega
  have hpow : half = 2 ^ (8 * count - 1) := by
    rw [hcount, pow_succ'] at hhalf
    omega
  rw [hcount, bitsize_le_iff]
  rw [hpow] at hlo hhi
  push_cast at hlo hhi
  exact ⟨hlo, hhi⟩

theorem fromBytesLe_complementLe (count : Nat) (v : Int) :
    (fromBytesLe (complementLe count v) : Int) = v % 2 ^ (8 * count) := by
  have hpos : (0 : Int) < 2 ^ (8 * count) := by positivity
  have hnonneg := Int.emod_nonneg v hpos.ne'
  have hlt := Int.emod_lt_of_pos v hpos
  rw [complementLe, fromBytesLe_bytesLe, pow_bytes, Nat.mod_eq_of_lt, Int.toNat_of_nonneg hnonneg]
  zify
  rwa [Int.toNat_of_nonneg hnonneg]

theorem eq_complementLe {bytes : List UInt8} {count : Nat} {v : Int} (hlen : bytes.length = count)
    (hval : (fromBytesLe bytes : Int) = v % 2 ^ (8 * count)) : bytes = complementLe count v := by
  apply eq_bytesLe hlen
  omega

theorem fromBytesLe_fill (count : Nat) (isNegative : Bool) :
    (fromBytesLe (List.replicate count (getFill isNegative)) : Int) =
      if isNegative then 2 ^ (8 * count) - 1 else 0 := by
  have hfill := fromBytesLe_replicate count (getFill isNegative)
  rw [pow_bytes] at hfill
  zify at hfill
  cases isNegative with
  | true =>
    have hbyte : (getFill true).toNat = 255 := rfl
    rw [hbyte] at hfill
    rw [if_pos rfl]
    push_cast at hfill
    linarith
  | false =>
    have hbyte : (getFill false).toNat = 0 := rfl
    rw [hbyte] at hfill
    rw [if_neg (by decide)]
    omega

/-- Extending the shortest two's complement by its sign gives the two's complement of the width. -/
theorem toSignedBytesLe_extend {v : Int} {count : Nat} (h : bitsize v ≤ 8 * count) :
    toSignedBytesLe v ++
      List.replicate (count - (toSignedBytesLe v).length) (getFill (decide (v < 0))) =
    complementLe count v := by
  have hshort : toSignedBytesLe v = complementLe (bitsToBytes (bitsize v)) v := rfl
  have hlen : (toSignedBytesLe v).length = bitsToBytes (bitsize v) := length_bytesLe _ _
  generalize hlow : bitsToBytes (bitsize v) = low at *
  rw [bitsToBytes_eq] at hlow
  have hfits : bitsize v ≤ 8 * low := by omega
  obtain ⟨half, hhalf, hlo, hhi⟩ := bounds_of_bitsize_le hfits
  have hhalf' : (2 : Int) ^ (8 * low) = 2 * half := by exact_mod_cast hhalf
  have hmul : (2 : Int) ^ (8 * count) = 2 ^ (8 * low) * 2 ^ (8 * (count - low)) := by
    rw [← pow_add]
    congr 1
    omega
  have hle : (2 : Int) ^ (8 * low) ≤ 2 ^ (8 * count) :=
    pow_le_pow_right₀ (by decide) (by omega)
  apply eq_complementLe
  · simp only [List.length_append, List.length_replicate]
    omega
  · rw [fromBytesLe_append, hlen, Nat.cast_add, Nat.cast_mul, hshort, fromBytesLe_complementLe,
      pow_bytes, fromBytesLe_fill]
    by_cases hv : v < 0
    · rw [if_pos (decide_eq_true hv), emod_of_neg (by omega) hv, emod_of_neg (by omega) hv, hmul]
      push_cast
      ring
    · rw [if_neg (by simpa using hv), mul_zero, add_zero, Int.emod_eq_of_lt (by omega) (by omega),
        Int.emod_eq_of_lt (by omega) (by omega)]

theorem fromSignedBytesLe_complementLe {v : Int} {count : Nat} (h : bitsize v ≤ 8 * count) :
    fromSignedBytesLe (complementLe count v) = v := by
  have hlen : (complementLe count v).length = count := length_bytesLe _ _
  obtain ⟨half, hhalf, hlo, hhi⟩ := bounds_of_bitsize_le h
  have hcast : (2 : Int) ^ (8 * count) = ((2 ^ (8 * count) : Nat) : Int) := by push_cast; rfl
  rw [fromSignedBytesLe, fromBytesLe_complementLe, hlen, hcast, Int.emod_bmod, hhalf]
  exact Int.bmod_eq_of_le (by omega) (by omega)

/-- A string of bytes is the two's complement of the value it stands for. -/
theorem complementLe_fromSignedBytesLe (bytes : List UInt8) :
    complementLe bytes.length (fromSignedBytesLe bytes) = bytes := by
  symm
  apply eq_complementLe rfl
  have hlt := fromBytesLe_lt bytes
  have hcast : (2 : Int) ^ (8 * bytes.length) = ((2 ^ (8 * bytes.length) : Nat) : Int) := by
    push_cast
    rfl
  rw [pow_bytes] at hlt
  rw [fromSignedBytesLe, hcast, Int.bmod_emod, Int.emod_eq_of_lt (by omega) (by omega)]

theorem bitsize_fromSignedBytesLe {bytes : List UInt8} (h : bytes ≠ []) :
    bitsize (fromSignedBytesLe bytes) ≤ 8 * bytes.length := by
  have hlen : 8 * bytes.length = (8 * bytes.length - 1) + 1 := by
    have := List.length_pos_iff.2 h
    omega
  have hhalf : 2 ^ (8 * bytes.length) = 2 * 2 ^ (8 * bytes.length - 1) := by
    rw [← pow_succ', ← hlen]
  apply bitsize_le_of_bounds hhalf
  · have := Int.le_bmod (x := fromBytesLe bytes) (m := 2 ^ (8 * bytes.length)) (by positivity)
    rw [fromSignedBytesLe]
    omega
  · have := Int.bmod_lt (x := fromBytesLe bytes) (m := 2 ^ (8 * bytes.length)) (by positivity)
    rw [fromSignedBytesLe]
    omega

/-! ### Magnitudes -/

theorem bits_le_iff {v : Int} (hv : 0 ≤ v) (n : Nat) : bits v ≤ n ↔ v < 2 ^ n := by
  have hpow : v < 2 ^ n ↔ v.natAbs < 2 ^ n := by
    have hn : ((2 ^ n : Nat) : Int) = 2 ^ n := by push_cast; rfl
    omega
  rw [hpow, bits]
  split
  · rename_i h
    simp [h]
  · rename_i h
    rw [← Nat.log2_lt (by omega)]
    omega

theorem toBytesLe_extend {n count : Nat} (hcount : 1 ≤ count) (hn : n < 2 ^ (8 * count)) :
    toBytesLe n ++ List.replicate (count - (toBytesLe n).length) (getFill false) =
      bytesLe count n := by
  have hbits : bits n ≤ 8 * count := (bits_le_iff (by omega) _).2 (by exact_mod_cast hn)
  have hlen : (toBytesLe n).length = max 1 (bitsToBytes (bits n)) := length_bytesLe _ _
  have hlow : (n : Int) < 2 ^ (8 * max 1 (bitsToBytes (bits n))) := by
    apply (bits_le_iff (by omega) _).1
    rw [bitsToBytes_eq]
    omega
  rw [hlen]
  apply bytesLe_extend
  · rw [bitsToBytes_eq]
    omega
  · rw [pow_bytes]
    exact_mod_cast hlow

end TonVm
