import TonVm.Lib.Exec
import TonVm.Proof.Bytes

/-!
# The operand of the long PUSHINT

The decoder fills 32-bit digits from the top: the first one is the sign extension of three bits, with
as many bytes shifted in as make the rest a multiple of four. Up to multiples of the top digit's range
the digits are always the two's complement read so far, and the negation of the digits takes a
negative value back to its magnitude.
-/

namespace TonVm.IntegerData

open ExecLib

/-! ### Digits -/

theorem ofDigits_lt (digits : List UInt32) : ofDigits digits < 2 ^ (32 * digits.length) := by
  induction digits with
  | nil => simp [ofDigits]
  | cons d digits ih =>
    have hd : d.toNat < 2 ^ 32 := d.toNat_lt
    rw [ofDigits, List.length_cons, Nat.mul_succ, Nat.add_comm (32 * _), pow_add]
    omega

@[simp]
theorem length_twosComplement (carry : Bool) (digits : List UInt32) :
    (twosComplement carry digits).length = digits.length := by
  induction digits generalizing carry with
  | nil => rfl
  | cons d digits ih => cases carry <;> exact congrArg (· + 1) (ih _)

theorem toNat_not (d : UInt32) : (~~~d).toNat = 2 ^ 32 - 1 - d.toNat := by
  rw [UInt32.toNat_not]
  rfl

/-- Without a carry every bit is flipped. -/
theorem ofDigits_twosComplement_false (digits : List UInt32) :
    ofDigits (twosComplement false digits) + ofDigits digits + 1 = 2 ^ (32 * digits.length) := by
  induction digits with
  | nil => rfl
  | cons d digits ih =>
    have hd : d.toNat < 2 ^ 32 := d.toNat_lt
    have hcons : twosComplement false (d :: digits) = ~~~d :: twosComplement false digits := rfl
    rw [hcons, ofDigits, ofDigits, toNat_not, List.length_cons, Nat.mul_succ,
      Nat.add_comm (32 * _), pow_add, ← ih]
    omega

theorem toNat_not_add_one (d : UInt32) : (~~~d + 1).toNat = (2 ^ 32 - d.toNat) % 2 ^ 32 := by
  have hd : d.toNat < 2 ^ 32 := d.toNat_lt
  have hone : (1 : UInt32).toNat = 1 := rfl
  rw [UInt32.toNat_add, toNat_not, hone]
  congr 1
  omega

/-- The carry goes on as long as the digits are zero. -/
theorem dvd_twosComplement (digits : List UInt32) :
    2 ^ (32 * digits.length) ∣ ofDigits (twosComplement true digits) + ofDigits digits := by
  induction digits with
  | nil => exact one_dvd _
  | cons d digits ih =>
    have hd : d.toNat < 2 ^ 32 := d.toNat_lt
    have hcons : twosComplement true (d :: digits) =
      (~~~d + 1) :: twosComplement (decide (~~~d + 1 = 0)) digits := rfl
    have hnat := toNat_not_add_one d
    rw [hcons, ofDigits, ofDigits, List.length_cons, Nat.mul_succ, Nat.add_comm (32 * _), pow_add]
    by_cases hzero : d.toNat = 0
    · have hcarry : ~~~d + 1 = 0 := by
        apply UInt32.toNat_inj.1
        rw [hnat, hzero]
        rfl
      have hsum : (~~~d + 1).toNat + 2 ^ 32 * ofDigits (twosComplement true digits) +
          (d.toNat + 2 ^ 32 * ofDigits digits) =
          2 ^ 32 * (ofDigits (twosComplement true digits) + ofDigits digits) := by
        rw [hcarry, hzero]
        have : (0 : UInt32).toNat = 0 := rfl
        omega
      rw [decide_eq_true hcarry, hsum]
      exact Nat.mul_dvd_mul_left _ ih
    · have hcarry : ~~~d + 1 ≠ 0 := by
        intro h
        rw [h] at hnat
        have : (0 : UInt32).toNat = 0 := rfl
        omega
      have hflip := ofDigits_twosComplement_false digits
      rw [decide_eq_false hcarry]
      refine ⟨1, ?_⟩
      rw [← hflip]
      omega

/-- `twos_complement` negates modulo the range of the buffer. -/
theorem ofDigits_twosComplement (digits : List UInt32) :
    ofDigits (twosComplement true digits) =
      (2 ^ (32 * digits.length) - ofDigits digits) % 2 ^ (32 * digits.length) := by
  have hlt := ofDigits_lt digits
  have hlt' := ofDigits_lt (twosComplement true digits)
  rw [length_twosComplement] at hlt'
  obtain ⟨k, hk⟩ := dvd_twosComplement digits
  generalize 2 ^ (32 * digits.length) = m at *
  rcases Nat.eq_zero_or_pos (ofDigits digits) with hzero | hpos
  · have hk0 : k = 0 := by
      by_contra hne
      have := Nat.le_mul_of_pos_right m (Nat.pos_of_ne_zero hne)
      omega
    rw [hk0] at hk
    rw [hzero, Nat.sub_zero, Nat.mod_self]
    omega
  · have hk1 : k = 1 := by
      have hle : m * k < m * 2 := by omega
      have := Nat.lt_of_mul_lt_mul_left hle
      have hne : k ≠ 0 := by
        rintro rfl
        omega
      omega
    rw [hk1] at hk
    rw [Nat.mod_eq_of_lt (by omega)]
    omega

/-! ### Reading bytes -/

/-- A stream of bytes, with the error at its end. -/
def nextByte (atEnd : Failure) : ExecM Failure (List UInt8) UInt8 := do
  match ← get with
  | [] => throw atEnd
  | byte :: rest =>
    set rest
    return byte

variable {atEnd : Failure}

@[simp]
theorem exec_nextByte_nil : exec (nextByte atEnd) [] = (.error atEnd, []) := rfl

@[simp]
theorem exec_nextByte_cons (byte : UInt8) (rest : List UInt8) :
    exec (nextByte atEnd) (byte :: rest) = (.ok byte, rest) := rfl

theorem toNat_shift_or (digit : UInt32) (byte : UInt8) :
    ((digit <<< 8) ||| byte.toUInt32).toNat = (digit.toNat * 256 + byte.toNat) % 2 ^ 32 := by
  have hb : byte.toNat < 2 ^ 8 := byte.toNat_lt
  have hbyte : byte.toUInt32.toNat = byte.toNat := rfl
  have hshift : (digit <<< 8).toNat = (digit.toNat % 2 ^ 24) <<< 8 := by
    rw [UInt32.toNat_shiftLeft, Nat.shiftLeft_eq, Nat.shiftLeft_eq]
    have : (8 : UInt32).toNat % 32 = 8 := rfl
    rw [this]
    omega
  rw [UInt32.toNat_or, hshift, hbyte, ← Nat.shiftLeft_add_eq_or_of_lt hb, Nat.shiftLeft_eq]
  omega

theorem fromBytesBe_cons (byte : UInt8) (bytes : List UInt8) :
    fromBytesBe (byte :: bytes) = byte.toNat * 256 ^ bytes.length + fromBytesBe bytes := by
  rw [fromBytesBe, List.reverse_cons, fromBytesLe_append, List.length_reverse, fromBytesBe,
    fromBytesLe, fromBytesLe]
  ring

/-- Bytes shifted into a digit: the top ones are lost. -/
def shiftIn (digit : UInt32) (bytes : List UInt8) : UInt32 :=
  UInt32.ofNat (digit.toNat * 256 ^ bytes.length + fromBytesBe bytes)

theorem shiftIn_cons (digit : UInt32) (byte : UInt8) (bytes : List UInt8) :
    shiftIn ((digit <<< 8) ||| byte.toUInt32) bytes = shiftIn digit (byte :: bytes) := by
  apply UInt32.toNat_inj.1
  rw [shiftIn, shiftIn, UInt32.toNat_ofNat', UInt32.toNat_ofNat', toNat_shift_or, fromBytesBe_cons,
    List.length_cons, pow_succ', Nat.add_mod, Nat.mod_mul_mod, ← Nat.add_mod]
  congr 1
  ring

theorem exec_readBytes (n : Nat) (digit : UInt32) {bytes : List UInt8} (h : n ≤ bytes.length) :
    exec (readBytes (nextByte atEnd) n digit) bytes =
      (.ok (shiftIn digit (bytes.take n)), bytes.drop n) := by
  induction n generalizing digit bytes with
  | zero =>
    have hzero : shiftIn digit [] = digit := by
      apply UInt32.toNat_inj.1
      simp [shiftIn, fromBytesBe, fromBytesLe]
    rw [readBytes, exec_pure, List.take_zero, hzero, List.drop_zero]
  | succ n ih =>
    cases bytes with
    | nil => exact absurd h (by simp)
    | cons byte rest =>
      rw [readBytes, exec_bind_ok (exec_nextByte_cons byte rest), ih _ (Nat.le_of_succ_le_succ h),
        shiftIn_cons, List.take_succ_cons, List.drop_succ_cons]

theorem exec_readBytes_short (n : Nat) (digit : UInt32) {bytes : List UInt8} (h : bytes.length < n) :
    exec (readBytes (nextByte atEnd) n digit) bytes = (.error atEnd, []) := by
  induction n generalizing digit bytes with
  | zero => omega
  | succ n ih =>
    cases bytes with
    | nil => rw [readBytes, exec_bind_error exec_nextByte_nil]
    | cons byte rest =>
      rw [readBytes, exec_bind_ok (exec_nextByte_cons byte rest), ih _ (Nat.lt_of_succ_lt_succ h)]

theorem fromBytesBe_append (high low : List UInt8) :
    fromBytesBe (high ++ low) = fromBytesBe high * 256 ^ low.length + fromBytesBe low := by
  rw [fromBytesBe, List.reverse_append, fromBytesLe_append, List.length_reverse, fromBytesBe,
    fromBytesBe]
  ring

theorem fromBytesBe_lt (bytes : List UInt8) : fromBytesBe bytes < 256 ^ bytes.length := by
  have := fromBytesLe_lt bytes.reverse
  rwa [List.length_reverse] at this

theorem toNat_shiftIn_zero {bytes : List UInt8} (h : bytes.length = 4) :
    (shiftIn 0 bytes).toNat = fromBytesBe bytes := by
  have hlt := fromBytesBe_lt bytes
  have hzero : (0 : UInt32).toNat = 0 := rfl
  rw [h] at hlt
  rw [shiftIn, UInt32.toNat_ofNat', hzero, zero_mul, zero_add]
  exact Nat.mod_eq_of_lt hlt

theorem exec_readDigits (n : Nat) (digits : List UInt32) {bytes : List UInt8}
    (h : 4 * n ≤ bytes.length) :
    ∃ all, exec (readDigits (nextByte atEnd) n digits) bytes = (.ok all, bytes.drop (4 * n)) ∧
      all.length = digits.length + n ∧
      ofDigits all = ofDigits digits * 256 ^ (4 * n) + fromBytesBe (bytes.take (4 * n)) := by
  induction n generalizing digits bytes with
  | zero =>
    refine ⟨digits, by rw [readDigits]; rfl, rfl, ?_⟩
    rw [Nat.mul_zero, List.take_zero, pow_zero, mul_one]
    rfl
  | succ n ih =>
    have hlen : (bytes.take 4).length = 4 := List.length_take_of_le (by omega)
    have hrest : 4 * n ≤ (bytes.drop 4).length := by
      rw [List.length_drop]
      omega
    obtain ⟨all, hexec, hall, hval⟩ := ih (shiftIn 0 (bytes.take 4) :: digits) hrest
    have hsplit : 4 * (n + 1) = 4 + 4 * n := by omega
    refine ⟨all, ?_, ?_, ?_⟩
    · rw [readDigits, exec_bind_ok (exec_readBytes 4 0 (by omega)), hexec, List.drop_drop, hsplit]
    · rw [hall, List.length_cons]
      omega
    · have htake : ((bytes.drop 4).take (4 * n)).length = 4 * n := List.length_take_of_le hrest
      rw [hval, ofDigits, toNat_shiftIn_zero hlen, hsplit, List.take_add, fromBytesBe_append, htake,
        pow_add]
      ring

theorem exec_readDigits_short (n : Nat) (digits : List UInt32) {bytes : List UInt8}
    (h : bytes.length < 4 * n) :
    exec (readDigits (nextByte atEnd) n digits) bytes = (.error atEnd, []) := by
  induction n generalizing digits bytes with
  | zero => omega
  | succ n ih =>
    rw [readDigits]
    by_cases hfour : 4 ≤ bytes.length
    · rw [exec_bind_ok (exec_readBytes 4 0 hfour), ih]
      rw [List.length_drop]
      omega
    · rw [exec_bind_error (exec_readBytes_short 4 0 (by omega))]

/-! ### The first byte -/

/-- The digit that the three bits of the first byte are extended to. -/
def leading (first : UInt8) : UInt32 :=
  let greatest3bits := (first &&& 0b111).toUInt32
  if greatest3bits &&& 0b100 ≠ 0 then 0xFFFFFFF8 ||| greatest3bits else greatest3bits

theorem length_bits (first : UInt8) : (first &&& 0b11111000).toNat >>> 3 = first.toNat / 8 := by
  revert first
  exact forall_byte (by decide +kernel)

theorem negative_iff (first : UInt8) :
    (first &&& 0b111).toUInt32 &&& 0b100 ≠ 0 ↔ 4 ≤ first.toNat % 8 := by
  revert first
  exact forall_byte (by decide +kernel)

theorem toNat_leading (first : UInt8) :
    (leading first).toNat =
      if 4 ≤ first.toNat % 8 then 2 ^ 32 - 8 + first.toNat % 8 else first.toNat % 8 := by
  revert first
  exact forall_byte (by decide +kernel)

/-! ### The operand -/

/-- The signed big-endian integer of `8l + 19` bits that follows the five bits `l`. -/
def operand (first : UInt8) (rest : List UInt8) : Int :=
  let l := first.toNat / 8
  Int.bmod (first.toNat % 8 * 256 ^ (l + 2) + fromBytesBe (rest.take (l + 2)) : Nat)
    (2 ^ (8 * l + 19))

theorem bmod_of_top_bits {g r x : Nat} (hg : g < 8) (hx : x < r) :
    Int.bmod (g * r + x : Nat) (8 * r) = if 4 ≤ g then ((g * r + x : Nat) : Int) - 8 * r
      else ((g * r + x : Nat) : Int) := by
  split
  · rename_i h
    have hlo : 4 * r ≤ g * r := Nat.mul_le_mul_right r h
    have hhi : g * r ≤ 7 * r := Nat.mul_le_mul_right r (by omega)
    rw [← Int.sub_bmod_right]
    push_cast
    exact Int.bmod_eq_of_le (by push_cast; omega) (by push_cast; omega)
  · rename_i h
    have hhi : g * r ≤ 3 * r := Nat.mul_le_mul_right r (by omega)
    exact Int.bmod_eq_of_le (by omega) (by omega)

/-- The digits that are read, as a magnitude. -/
theorem digits_value (first : UInt8) {u q x y : Nat} (hu : u ≤ 3) (hx : x < 256 ^ u) (hy : y < q) :
    let all := ((leading first).toNat * 256 ^ u + x) % 2 ^ 32 * q + y
    let magnitude := first.toNat % 8 * (256 ^ u * q) + (x * q + y)
    if 4 ≤ first.toNat % 8 then
      all < 2 ^ 32 * q ∧ 2 ^ 32 * q - all + magnitude = 8 * (256 ^ u * q)
    else all = magnitude := by
  have hg : first.toNat % 8 < 8 := Nat.mod_lt _ (by decide)
  dsimp only
  rw [toNat_leading]
  generalize first.toNat % 8 = g at *
  split
  · rename_i h
    -- the digit wraps to its range less the magnitude
    have hwrap : ∃ z, ((2 ^ 32 - 8 + g) * 256 ^ u + x) % 2 ^ 32 + z = 2 ^ 32 ∧ 1 ≤ z ∧
        z + (g * 256 ^ u + x) = 8 * 256 ^ u := by
      refine ⟨8 * 256 ^ u - (g * 256 ^ u + x), ?_⟩
      interval_cases u <;> omega
    obtain ⟨z, hsum, hz, htop⟩ := hwrap
    have hq : q ≤ z * q := Nat.le_mul_of_pos_left q hz
    have hall : 2 ^ 32 * q = ((2 ^ 32 - 8 + g) * 256 ^ u + x) % 2 ^ 32 * q + z * q := by
      rw [← add_mul, hsum]
    have hmagnitude : z * q + (g * (256 ^ u * q) + x * q) = 8 * (256 ^ u * q) := by
      calc z * q + (g * (256 ^ u * q) + x * q) = (z + (g * 256 ^ u + x)) * q := by ring
        _ = 8 * (256 ^ u * q) := by rw [htop, mul_assoc]
    omega
  · rename_i h
    have hsmall : g * 256 ^ u + x < 2 ^ 32 := by
      interval_cases u <;> omega
    rw [Nat.mod_eq_of_lt hsmall]
    ring

/-- What the digits stand for, once a negative value's are negated. -/
theorem fromVec_digits {first : UInt8} {all : List UInt32} {u q x y : Nat} (hu : u ≤ 3)
    (hx : x < 256 ^ u) (hy : y < q) (hrange : 2 ^ (32 * all.length) = 2 ^ 32 * q)
    (hall : ofDigits all = ((leading first).toNat * 256 ^ u + x) % 2 ^ 32 * q + y) :
    let negative := decide (4 ≤ first.toNat % 8)
    fromVecLeUnchecked negative (if negative then twosComplement true all else all) =
      .value (Int.bmod (first.toNat % 8 * (256 ^ u * q) + (x * q + y) : Nat) (8 * (256 ^ u * q))) := by
  have hvalue := digits_value first hu hx hy
  have hg : first.toNat % 8 < 8 := Nat.mod_lt _ (by decide)
  have hlow : x * q + y < 256 ^ u * q := by
    calc x * q + y < (x + 1) * q := by
          rw [add_mul]
          omega
      _ ≤ 256 ^ u * q := Nat.mul_le_mul_right q hx
  dsimp only at hvalue ⊢
  rw [bmod_of_top_bits hg hlow, fromVecLeUnchecked]
  rw [← hall] at hvalue
  congr 1
  by_cases h : 4 ≤ first.toNat % 8
  · rw [if_pos h] at hvalue
    have htop : 4 * (256 ^ u * q) ≤ first.toNat % 8 * (256 ^ u * q) := Nat.mul_le_mul_right _ h
    have hpow : 256 ^ u * q ≤ 256 ^ 3 * q :=
      Nat.mul_le_mul_right q (Nat.pow_le_pow_right (by decide) hu)
    have hmod : (2 ^ 32 * q - ofDigits all) % (2 ^ 32 * q) = 2 ^ 32 * q - ofDigits all :=
      Nat.mod_eq_of_lt (by omega)
    simp only [h, decide_true, if_true]
    rw [ofDigits_twosComplement, hrange, hmod]
    omega
  · rw [if_neg h] at hvalue
    simp only [h, decide_false, Bool.false_eq_true, if_false, hvalue]

/-- The decoder after its first byte, with the numbers that it computes from it. -/
theorem exec_stream_cons (atEnd : Failure) (first : UInt8) (rest : List UInt8) :
    ∃ u c, u ≤ 3 ∧ u + 4 * c = first.toNat / 8 + 2 ∧
      exec (fromBigEndianOctetStream (nextByte atEnd)) (first :: rest) =
        exec (do
          let digit ← readBytes (nextByte atEnd) u (leading first)
          let digits ← readDigits (nextByte atEnd) c [digit]
          let negative := decide (4 ≤ first.toNat % 8)
          return fromVecLeUnchecked negative
            (if negative then twosComplement true digits else digits)) rest := by
  have hand (n : Nat) : n &&& 0b11 = n % 4 := Nat.and_two_pow_sub_one_eq_mod n 2
  have hdiv (n : Nat) : n >>> 2 = n / 4 := Nat.shiftRight_eq_div_pow n 2
  refine ⟨(if (first.toNat / 8 + 3) % 4 = 0 then 4 else (first.toNat / 8 + 3) % 4) - 1,
    (first.toNat / 8 + 3 + 3) / 4 - 1, by split <;> omega, by split <;> omega, ?_⟩
  rw [fromBigEndianOctetStream, exec_bind_ok (exec_nextByte_cons first rest)]
  change exec (readBytes (nextByte atEnd) _ (leading first) >>= _) rest = _
  simp only [length_bits, negative_iff, hand, hdiv, decide_eq_true_eq]

theorem operand_eq {first : UInt8} {rest : List UInt8} {u c : Nat}
    (hsum : u + 4 * c = first.toNat / 8 + 2) (hlong : first.toNat / 8 + 2 ≤ rest.length) :
    operand first rest =
      Int.bmod (first.toNat % 8 * (256 ^ u * 256 ^ (4 * c)) +
          (fromBytesBe (rest.take u) * 256 ^ (4 * c) +
            fromBytesBe ((rest.drop u).take (4 * c))) : Nat)
        (8 * (256 ^ u * 256 ^ (4 * c))) := by
  have hlen : ((rest.drop u).take (4 * c)).length = 4 * c := by
    apply List.length_take_of_le
    rw [List.length_drop]
    omega
  have hbytes : fromBytesBe (rest.take (u + 4 * c)) =
      fromBytesBe (rest.take u) * 256 ^ (4 * c) + fromBytesBe ((rest.drop u).take (4 * c)) := by
    rw [List.take_add, fromBytesBe_append, hlen]
  have hwidth : 2 ^ (8 * (first.toNat / 8) + 19) = 8 * 256 ^ (u + 4 * c) := by
    rw [hsum, pow_bytes, Nat.mul_add, pow_add, pow_add]
    ring
  rw [operand, ← hsum, hwidth, hbytes, pow_add]

theorem exec_fromBigEndianOctetStream (atEnd : Failure) (first : UInt8) (rest : List UInt8) :
    exec (fromBigEndianOctetStream (nextByte atEnd)) (first :: rest) =
      if first.toNat / 8 + 2 ≤ rest.length then
        (.ok (.value (operand first rest)), rest.drop (first.toNat / 8 + 2))
      else (.error atEnd, []) := by
  obtain ⟨u, c, hu, hsum, hstream⟩ := exec_stream_cons atEnd first rest
  rw [hstream]
  have hdrop : (rest.drop u).length = rest.length - u := List.length_drop
  by_cases hlong : first.toNat / 8 + 2 ≤ rest.length
  · have hfour : 4 * c ≤ (rest.drop u).length := by omega
    have hx := fromBytesBe_lt (rest.take u)
    have hy := fromBytesBe_lt ((rest.drop u).take (4 * c))
    have hlen : (rest.take u).length = u := List.length_take_of_le (by omega)
    rw [hlen] at hx
    rw [List.length_take_of_le hfour] at hy
    obtain ⟨all, hexec, hall, hval⟩ :=
      exec_readDigits c [shiftIn (leading first) (rest.take u)] hfour
    have hrange : 2 ^ (32 * all.length) = 2 ^ 32 * 256 ^ (4 * c) := by
      rw [hall, pow_bytes, ← pow_add, List.length_singleton]
      congr 1
      omega
    have hdigit : ofDigits [shiftIn (leading first) (rest.take u)] =
        ((leading first).toNat * 256 ^ u + fromBytesBe (rest.take u)) % 2 ^ 32 := by
      rw [ofDigits, ofDigits, shiftIn, UInt32.toNat_ofNat', hlen]
      rfl
    rw [hdigit] at hval
    rw [if_pos hlong, exec_bind_ok (exec_readBytes u _ (by omega)), exec_bind_ok hexec, exec_pure,
      fromVec_digits hu hx hy hrange hval, operand_eq hsum hlong, List.drop_drop, hsum]
  · rw [if_neg hlong]
    by_cases hshort : rest.length < u
    · rw [exec_bind_error (exec_readBytes_short u _ hshort)]
    · rw [exec_bind_ok (exec_readBytes u _ (by omega)),
        exec_bind_error (exec_readDigits_short c _ (by omega))]

/-- The decoder reads the two's complement that the first byte announces, and no byte more; a stream
that ends before is refused. The negation that it does on the way is one modulo the digits' range. -/
theorem octetStream_decodes :
    (∀ digits : List UInt32, ofDigits (twosComplement true digits) =
      (2 ^ (32 * digits.length) - ofDigits digits) % 2 ^ (32 * digits.length)) ∧
    ∀ atEnd : Failure,
      exec (fromBigEndianOctetStream (nextByte atEnd)) [] = (.error atEnd, []) ∧
      ∀ (first : UInt8) (rest : List UInt8),
        exec (fromBigEndianOctetStream (nextByte atEnd)) (first :: rest) =
          if first.toNat / 8 + 2 ≤ rest.length then
            (.ok (.value (operand first rest)), rest.drop (first.toNat / 8 + 2))
          else (.error atEnd, []) := by
  refine ⟨ofDigits_twosComplement, fun atEnd => ⟨?_, exec_fromBigEndianOctetStream atEnd⟩⟩
  rw [fromBigEndianOctetStream, exec_bind_error exec_nextByte_nil]

end TonVm.IntegerData
