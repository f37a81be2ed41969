import TonVm.Proof.Bits

/-!
# Integers in bit strings

The big-endian encodings shift the value so that its last bit ends a byte, write the bytes of the
shifted value and extend them to the width; the little-endian ones have whole bytes to begin with.
The buffer is then the two's complement of the width, whatever the shortest form was, so decoding
takes back the value, and a string of the width is the buffer of the value it decodes to.
-/

namespace TonVm

/-! ### Strings padded with zeros -/

/-- The bytes of a string of `n` bits: what is left of the last byte is zero. -/
def ZeroPadded (n : Nat) (data : List UInt8) : Prop :=
  data.length = bitsToBytes n ∧ ∀ byte ∈ data.getLast?, byte.toNat % 2 ^ excessShift n = 0

theorem zeroPadded_iff {n : Nat} {data : List UInt8} :
    ZeroPadded n data ↔ data.length = bitsToBytes n ∧ 2 ^ excessShift n ∣ fromBytesBe data := by
  refine and_congr_right fun _ => ?_
  rw [fromBytesBe, ← List.head?_reverse]
  cases data.reverse with
  | nil => simp [fromBytesLe]
  | cons byte rest =>
    have hdvd : 2 ^ excessShift n ∣ 256 * fromBytesLe rest :=
      (pow_dvd_pow 2 (excessShift_lt n).le).mul_right _
    simp only [List.head?_cons, Option.mem_def, Option.some.injEq, forall_eq', fromBytesLe]
    rw [← Nat.dvd_iff_mod_eq_zero, Nat.dvd_add_left hdvd]

theorem extendBufferBe_reverse (buffer : List UInt8) (n : Nat) (isNegative : Bool) :
    extendBufferBe buffer.reverse n isNegative =
      (buffer ++ List.replicate (bitsToBytes n - buffer.length) (getFill isNegative)).reverse := by
  rw [extendBufferBe, List.reverse_append, List.reverse_replicate, List.length_reverse]

/-! ### The encodings -/

namespace Encoding

def isSigned : Encoding → Bool
  | signedBigEndian | signedLittleEndian => true
  | unsignedBigEndian | unsignedLittleEndian => false

/-- The widths in use. -/
def Width : Encoding → Nat → Prop
  | signedBigEndian, n => n ≤ 257
  | unsignedBigEndian, n => n ≤ 256
  | signedLittleEndian, n | unsignedLittleEndian, n => n = 32 ∨ n = 64

/-- The values of a width, the bounds of the signed ones as rationals. -/
def Range (encoding : Encoding) (n : Nat) (v : Int) : Prop :=
  if encoding.isSigned then -(2 : ℚ) ^ ((n : Int) - 1) ≤ v ∧ (v : ℚ) < 2 ^ ((n : Int) - 1)
  else 0 ≤ v ∧ v < 2 ^ n

/-- The values that pass the check of the source. -/
def Fits (encoding : Encoding) (n : Nat) (v : Int) : Prop :=
  if encoding.isSigned then bitsize v ≤ n else 0 ≤ v ∧ v < 2 ^ n

theorem fits_iff_range (encoding : Encoding) (n : Nat) (v : Int)
    (h : encoding.isSigned = true → n ≠ 0) : encoding.Fits n v ↔ encoding.Range n v := by
  unfold Fits Range
  split
  · rename_i hs
    obtain ⟨k, rfl⟩ := Nat.exists_eq_succ_of_ne_zero (h hs)
    have hexp : ((k + 1 : Nat) : Int) - 1 = k := by omega
    rw [bitsize_le_iff, Nat.succ_eq_add_one, hexp, zpow_natCast]
    norm_cast
  · rfl

theorem ufitsIn_value {v : Int} (hv : 0 ≤ v) (n : Nat) :
    (IntegerData.value v).ufitsIn n = .ok (decide (v < 2 ^ n)) := by
  have hneg : (IntegerData.value v).isNeg = false := by simpa [IntegerData.isNeg] using hv
  rw [IntegerData.ufitsIn, hneg, ← decide_eq_decide.2 (bits_le_iff hv n)]
  rfl

theorem ite_error_eq_ok_iff {c : Prop} [Decidable c] {err : Failure} :
    (if c then Except.error err else pure ()) = Except.ok () ↔ ¬c := by
  split
  · rename_i h
    exact iff_of_false nofun (not_not.2 h)
  · rename_i h
    exact iff_of_true rfl h

theorem checkFits_iff (encoding : Encoding) (n : Nat) (v : Int) :
    encoding.checkFits n (.value v) = .ok () ↔ encoding.Fits n v := by
  have hsigned : (IntegerData.value v).fitsIn n = .ok (decide (bitsize v ≤ n)) := rfl
  by_cases hv : 0 ≤ v
  · have hneg : (IntegerData.value v).isNeg = false := by simpa [IntegerData.isNeg] using hv
    have hcheck : (IntegerData.value v).checkNeg = .ok () := by
      simpa [IntegerData.checkNeg] using hv
    cases encoding <;>
      simp [checkFits, Fits, isSigned, hsigned, ufitsIn_value hv, hneg, hcheck, hv, bind, Except.bind,
        ite_error_eq_ok_iff]
  · have hneg : (IntegerData.value v).isNeg = true := by simpa [IntegerData.isNeg] using hv
    have hcheck : (IntegerData.value v).checkNeg = .error (.code .rangeCheckError) := by
      simpa [IntegerData.checkNeg] using hv
    cases encoding <;>
      simp [checkFits, Fits, isSigned, hsigned, hneg, hcheck, hv, bind, Except.bind, ite_error_eq_ok_iff]

/-- Values that fit and strings of the width correspond: a buffer is such a string and decodes to its
value, and a string is the buffer of the value it decodes to. -/
structure Inverse (encoding : Encoding) (n : Nat) : Prop where
  padded : ∀ v, encoding.Fits n v → ZeroPadded n ((encoding.buffer n v).take (bitsToBytes n))
  decode : ∀ v, encoding.Fits n v →
    encoding.decode n ((encoding.buffer n v).take (bitsToBytes n)) = v
  fits : ∀ data, ZeroPadded n data → encoding.Fits n (encoding.decode n data)
  encode : ∀ data, ZeroPadded n data →
    (encoding.buffer n (encoding.decode n data)).take (bitsToBytes n) = data

theorem bitsize_mul_two_pow_le {n : Nat} (hn : n ≠ 0) (v : Int) (shift : Nat) :
    bitsize (v * 2 ^ shift) ≤ n + shift ↔ bitsize v ≤ n := by
  obtain ⟨k, rfl⟩ := Nat.exists_eq_succ_of_ne_zero hn
  have hpos : (0 : Int) < 2 ^ shift := by positivity
  have hsum : k.succ + shift = k + shift + 1 := by omega
  rw [hsum, bitsize_le_iff, Nat.succ_eq_add_one, bitsize_le_iff, pow_add, ← neg_mul,
    mul_le_mul_iff_left₀ hpos, mul_lt_mul_iff_left₀ hpos]

theorem shiftRight_mul_two_pow {w : Int} {shift : Nat} (h : 2 ^ shift ∣ w) :
    w >>> shift * 2 ^ shift = w := by
  rw [Int.shiftRight_eq_div_pow]
  exact Int.ediv_mul_cancel (by exact_mod_cast h)

theorem mul_two_pow_shiftRight (v : Int) (shift : Nat) : (v * 2 ^ shift) >>> shift = v := by
  rw [Int.shiftRight_eq_div_pow]
  exact Int.mul_ediv_cancel v (by positivity)

theorem excess_dvd (n : Nat) : (2 : Int) ^ excessShift n ∣ 2 ^ (8 * bitsToBytes n) := by
  apply pow_dvd_pow
  rw [bitsToBytes_mul]
  omega

theorem dvd_emod_iff {d w m : Int} (h : d ∣ m) : d ∣ w % m ↔ d ∣ w := by
  rw [Int.dvd_iff_emod_eq_zero, Int.emod_emod_of_dvd w h, ← Int.dvd_iff_emod_eq_zero]

/-- How an encoding lays out the shifted value: it writes the bytes of the two's complement in an
order of its own, and reads them back as a signed or as an unsigned number. -/
structure Layout (encoding : Encoding) (n : Nat) (order : List UInt8 → List UInt8)
    (read : List UInt8 → Int) : Prop where
  order_order : ∀ bytes, order (order bytes) = bytes
  padded : ∀ bytes, ZeroPadded n (order bytes) ↔
    bytes.length = bitsToBytes n ∧ 2 ^ excessShift n ∣ fromBytesLe bytes
  decode : ∀ data, encoding.decode n data = read (order data) >>> excessShift n
  buffer : ∀ v, encoding.Fits n v → (encoding.buffer n v).take (bitsToBytes n) =
    order (complementLe (bitsToBytes n) (v * 2 ^ excessShift n))
  read_complement : ∀ v, encoding.Fits n v →
    read (complementLe (bitsToBytes n) (v * 2 ^ excessShift n)) = v * 2 ^ excessShift n
  complement_read : ∀ bytes : List UInt8, bytes.length = bitsToBytes n →
    complementLe (bitsToBytes n) (read bytes) = bytes
  fits : ∀ bytes v, bytes.length = bitsToBytes n → read bytes = v * 2 ^ excessShift n →
    encoding.Fits n v

section Layouts

variable {encoding : Encoding} {n : Nat} {order : List UInt8 → List UInt8}
  {read : List UInt8 → Int}

/-- What a padded string stands for, before the shift. -/
theorem Layout.decode_mul (h : Layout encoding n order read) {data : List UInt8}
    (hdata : ZeroPadded n data) :
    (order data).length = bitsToBytes n ∧
      encoding.decode n data * 2 ^ excessShift n = read (order data) := by
  have hpadded := (h.padded (order data)).1 (by rwa [h.order_order])
  refine ⟨hpadded.1, ?_⟩
  rw [h.decode]
  apply shiftRight_mul_two_pow
  rw [← dvd_emod_iff (excess_dvd n), ← fromBytesLe_complementLe, h.complement_read _ hpadded.1]
  exact_mod_cast hpadded.2

theorem Layout.inverse (h : Layout encoding n order read) : encoding.Inverse n where
  padded v hv := by
    rw [h.buffer v hv, h.padded]
    refine ⟨length_bytesLe _ _, ?_⟩
    zify
    rw [fromBytesLe_complementLe, dvd_emod_iff (excess_dvd n)]
    exact Dvd.intro_left v rfl
  decode v hv := by
    rw [h.buffer v hv, h.decode, h.order_order, h.read_complement v hv, mul_two_pow_shiftRight]
  fits data hdata := by
    obtain ⟨hlen, hmul⟩ := h.decode_mul hdata
    exact h.fits _ _ hlen hmul.symm
  encode data hdata := by
    obtain ⟨hlen, hmul⟩ := h.decode_mul hdata
    rw [h.buffer _ (h.fits _ _ hlen hmul.symm), hmul, h.complement_read _ hlen, h.order_order]

theorem padded_reverse (n : Nat) (bytes : List UInt8) :
    ZeroPadded n bytes.reverse ↔
      bytes.length = bitsToBytes n ∧ 2 ^ excessShift n ∣ fromBytesLe bytes := by
  rw [zeroPadded_iff, List.length_reverse, fromBytesBe, List.reverse_reverse]

theorem padded_id (hshift : excessShift n = 0) (bytes : List UInt8) :
    ZeroPadded n (id bytes) ↔
      bytes.length = bitsToBytes n ∧ 2 ^ excessShift n ∣ fromBytesLe bytes := by
  rw [zeroPadded_iff, hshift, pow_zero, id]
  simp only [one_dvd]

/-! #### Signed values -/

theorem signed_size (hn : n ≠ 0) {v : Int} :
    bitsize (v * 2 ^ excessShift n) ≤ 8 * bitsToBytes n ↔ bitsize v ≤ n := by
  rw [bitsToBytes_mul, bitsize_mul_two_pow_le hn]

theorem signed_complement_read (bytes : List UInt8) (h : bytes.length = bitsToBytes n) :
    complementLe (bitsToBytes n) (fromSignedBytesLe bytes) = bytes := by
  rw [← h, complementLe_fromSignedBytesLe]

theorem signed_fits (hn : n ≠ 0) (bytes : List UInt8) (v : Int) (hlen : bytes.length = bitsToBytes n)
    (h : fromSignedBytesLe bytes = v * 2 ^ excessShift n) : bitsize v ≤ n := by
  have hne : bytes ≠ [] := by
    rw [← List.length_pos_iff, hlen, bitsToBytes_eq]
    omega
  rw [← signed_size hn, ← h, ← hlen]
  exact bitsize_fromSignedBytesLe hne

theorem take_complementLe (count : Nat) (w : Int) :
    (complementLe count w).take count = complementLe count w :=
  List.take_of_length_le (length_bytesLe _ _).le

theorem take_reverse_complementLe (count : Nat) (w : Int) :
    (complementLe count w).reverse.take count = (complementLe count w).reverse := by
  apply List.take_of_length_le
  rw [List.length_reverse]
  exact (length_bytesLe _ _).le

theorem layout_signedBigEndian (hn : n ≠ 0) :
    Layout signedBigEndian n List.reverse fromSignedBytesLe where
  order_order := List.reverse_reverse
  padded := padded_reverse n
  decode _ := rfl
  buffer v hv := by
    rw [Encoding.buffer, toSignedBytesBe, extendBufferBe_reverse,
      toSignedBytesLe_extend ((signed_size hn).2 hv), take_reverse_complementLe]
  read_complement v hv := fromSignedBytesLe_complementLe ((signed_size hn).2 hv)
  complement_read := signed_complement_read
  fits := signed_fits hn

theorem layout_signedLittleEndian (hn : n ≠ 0) (hshift : excessShift n = 0) :
    Layout signedLittleEndian n id fromSignedBytesLe where
  order_order _ := rfl
  padded := padded_id hshift
  decode data := by
    rw [hshift, Int.shiftRight_zero]
    rfl
  buffer v hv := by
    have hsize := (signed_size hn).2 hv
    rw [hshift, pow_zero, mul_one] at hsize ⊢
    rw [Encoding.buffer, extendBufferLe, toSignedBytesLe_extend hsize, take_complementLe, id]
  read_complement v hv := fromSignedBytesLe_complementLe ((signed_size hn).2 hv)
  complement_read := signed_complement_read
  fits := signed_fits hn

/-! #### Unsigned values -/

/-- For an unsigned value the two's complement is the magnitude. -/
theorem complementLe_natCast {count m : Nat} (h : m < 2 ^ (8 * count)) :
    complementLe count m = bytesLe count m := by
  have hmod : ((m : Int) % 2 ^ (8 * count)).toNat = m := by
    rw [Int.emod_eq_of_lt (by omega) (by exact_mod_cast h), Int.toNat_natCast]
  rw [complementLe, hmod]

theorem unsigned_lt {v : Int} (hv : 0 ≤ v ∧ v < 2 ^ n) :
    v.toNat * 2 ^ excessShift n < 2 ^ (8 * bitsToBytes n) := by
  have hlt : v.toNat < 2 ^ n := by
    zify
    rw [Int.toNat_of_nonneg hv.1]
    exact hv.2
  rw [bitsToBytes_mul, pow_add]
  exact Nat.mul_lt_mul_of_pos_right hlt (by positivity)

theorem unsigned_cast {v : Int} (hv : 0 ≤ v) (shift : Nat) :
    v * 2 ^ shift = ((v.toNat * 2 ^ shift : Nat) : Int) := by
  push_cast
  rw [Int.toNat_of_nonneg hv]

theorem unsigned_read_complement (v : Int) (hv : 0 ≤ v ∧ v < 2 ^ n) :
    (fromBytesLe (complementLe (bitsToBytes n) (v * 2 ^ excessShift n)) : Int) =
      v * 2 ^ excessShift n := by
  have hlt := unsigned_lt hv
  rw [fromBytesLe_complementLe, unsigned_cast hv.1]
  exact Int.emod_eq_of_lt (by omega) (by exact_mod_cast hlt)

theorem unsigned_complement_read (bytes : List UInt8) (h : bytes.length = bitsToBytes n) :
    complementLe (bitsToBytes n) (fromBytesLe bytes) = bytes := by
  have hlt := fromBytesLe_lt bytes
  rw [h, pow_bytes] at hlt
  rw [complementLe_natCast hlt, ← h, bytesLe_fromBytesLe]

theorem unsigned_fits (bytes : List UInt8) (v : Int) (hlen : bytes.length = bitsToBytes n)
    (h : (fromBytesLe bytes : Int) = v * 2 ^ excessShift n) : 0 ≤ v ∧ v < 2 ^ n := by
  have hpos : (0 : Int) < 2 ^ excessShift n := by positivity
  have hlt := fromBytesLe_lt bytes
  rw [hlen, pow_bytes, bitsToBytes_mul, pow_add] at hlt
  zify at hlt
  rw [h] at hlt
  exact ⟨nonneg_of_mul_nonneg_left (by omega) hpos, lt_of_mul_lt_mul_right hlt hpos.le⟩

theorem layout_unsignedBigEndian : Layout unsignedBigEndian n List.reverse (fromBytesLe ·) where
  order_order := List.reverse_reverse
  padded := padded_reverse n
  decode _ := rfl
  buffer v hv := by
    have hlt := unsigned_lt hv
    rw [unsigned_cast hv.1, Encoding.buffer, toBytesBe, extendBufferBe_reverse]
    rcases Nat.eq_zero_or_pos (bitsToBytes n) with hzero | hpos
    · rw [hzero]
      rfl
    · rw [toBytesLe_extend hpos hlt, ← complementLe_natCast hlt, take_reverse_complementLe]
  read_complement := unsigned_read_complement
  complement_read := unsigned_complement_read
  fits := unsigned_fits

theorem layout_unsignedLittleEndian (hn : n ≠ 0) (hshift : excessShift n = 0) :
    Layout unsignedLittleEndian n id (fromBytesLe ·) where
  order_order _ := rfl
  padded := padded_id hshift
  decode data := by
    rw [hshift, Int.shiftRight_zero]
    rfl
  buffer v hv := by
    have hlt := unsigned_lt hv
    have hpos : 1 ≤ bitsToBytes n := by
      rw [bitsToBytes_eq]
      omega
    rw [unsigned_cast hv.1]
    rw [hshift, pow_zero, mul_one] at hlt ⊢
    rw [Encoding.buffer, extendBufferLe, toBytesLe_extend hpos hlt, ← complementLe_natCast hlt,
      List.take_take, min_self, take_complementLe, id]
  read_complement := unsigned_read_complement
  complement_read := unsigned_complement_read
  fits := unsigned_fits

end Layouts

theorem excessShift_of_littleEndian {n : Nat} (h : n = 32 ∨ n = 64) : excessShift n = 0 := by
  rcases h with rfl | rfl <;> rfl

theorem inverse_of_width {encoding : Encoding} {n : Nat} (hw : encoding.Width n)
    (h : encoding.isSigned = true → n ≠ 0) : encoding.Inverse n := by
  cases encoding with
  | signedBigEndian => exact (layout_signedBigEndian (h rfl)).inverse
  | unsignedBigEndian => exact layout_unsignedBigEndian.inverse
  | signedLittleEndian =>
    exact (layout_signedLittleEndian (h rfl) (excessShift_of_littleEndian hw)).inverse
  | unsignedLittleEndian =>
    have hn : n ≠ 0 := by
      rcases hw with rfl | rfl <;> decide
    exact (layout_unsignedLittleEndian hn (excessShift_of_littleEndian hw)).inverse

theorem inRange_of_fits {encoding : Encoding} {n : Nat} {v : Int} (hw : encoding.Width n)
    (h : encoding.Fits n v) : InRange v := by
  have hsigned (hn : n ≤ 257) (hv : bitsize v ≤ n) : InRange v :=
    (bitsize_le_iff v 256).1 (hv.trans hn)
  have hunsigned (hn : n ≤ 256) (hv : 0 ≤ v ∧ v < 2 ^ n) : InRange v := by
    have hle : (2 : Int) ^ n ≤ 2 ^ 256 := pow_le_pow_right₀ (by decide) hn
    exact inRange_of_bounds (by omega) (by omega)
  cases encoding with
  | signedBigEndian => exact hsigned hw h
  | unsignedBigEndian => exact hunsigned hw h
  | signedLittleEndian => exact hsigned (by rcases hw with rfl | rfl <;> decide) h
  | unsignedLittleEndian => exact hunsigned (by rcases hw with rfl | rfl <;> decide) h

theorem width_le {encoding : Encoding} {n : Nat} (hw : encoding.Width n) : n ≤ 1023 := by
  cases encoding <;> simp only [Width] at hw <;> omega

theorem deserialize_of_inRange {encoding : Encoding} {n : Nat} {data : List UInt8}
    (h : InRange (encoding.decode n data)) :
    encoding.deserialize n data = .ok (.value (encoding.decode n data)) := by
  rw [deserialize, IntegerData.ofInt, if_pos ((checkOverflow_iff _).2 h)]

/-- What a builder of a raw string holds, as far as the encodings need it: a prefix of whole bytes,
or one whose last byte is padded with zeros. -/
structure RawLaw [TonTypes] : Prop where
  withRaw : ∀ (data : List UInt8) (n : Nat), n ≤ 1023 → ZeroPadded n (data.take (bitsToBytes n)) →
    ∃ builder, TonTypes.withRaw data n = .ok builder ∧ TonTypes.bitsUsed builder = n ∧
      TonTypes.builderBytes builder = data.take (bitsToBytes n)

/-- The encoding is a bijection between the integers of the width and the strings of it. -/
structure Codec [TonTypes] (encoding : Encoding) (n : Nat) : Prop where
  succeeds_iff : ∀ v, (∃ builder, encoding.trySerialize n (.value v) = .ok builder) ↔
    encoding.Range n v
  decodes : ∀ v builder, encoding.trySerialize n (.value v) = .ok builder →
    TonTypes.bitsUsed builder = n ∧
      encoding.deserialize n (TonTypes.builderBytes builder) = .ok (.value v)
  encodes : ∀ data, ZeroPadded n data → ∃ v builder,
    encoding.deserialize n data = .ok (.value v) ∧
      encoding.trySerialize n (.value v) = .ok builder ∧
      TonTypes.bitsUsed builder = n ∧ TonTypes.builderBytes builder = data

section Serialization

variable [TonTypes] {encoding : Encoding} {n : Nat}

theorem trySerialize_of_fits {v : Int} (h : encoding.Fits n v) :
    encoding.trySerialize n (.value v) = TonTypes.withRaw (encoding.buffer n v) n := by
  rw [trySerialize, (checkFits_iff encoding n v).2 h]
  rfl

theorem fits_of_trySerialize {v : Int} {builder : BuilderData}
    (h : encoding.trySerialize n (.value v) = .ok builder) : encoding.Fits n v := by
  rw [← checkFits_iff]
  rw [trySerialize] at h
  cases hfits : encoding.checkFits n (.value v) with
  | ok u => rfl
  | error err =>
    rw [hfits] at h
    exact absurd h nofun

theorem Inverse.codec (h : encoding.Inverse n) (law : RawLaw) (hw : encoding.Width n)
    (hn : encoding.isSigned = true → n ≠ 0) : encoding.Codec n := by
  have hbuilds (v : Int) (hv : encoding.Fits n v) : ∃ builder,
      encoding.trySerialize n (.value v) = .ok builder ∧ TonTypes.bitsUsed builder = n ∧
        TonTypes.builderBytes builder = (encoding.buffer n v).take (bitsToBytes n) := by
    rw [trySerialize_of_fits hv]
    exact law.withRaw _ n (width_le hw) (h.padded v hv)
  refine ⟨fun v => ?_, fun v builder hv => ?_, fun data hdata => ?_⟩
  · rw [← fits_iff_range encoding n v hn]
    constructor
    · rintro ⟨builder, hv⟩
      exact fits_of_trySerialize hv
    · intro hv
      obtain ⟨builder, hok, -⟩ := hbuilds v hv
      exact ⟨builder, hok⟩
  · have hfits := fits_of_trySerialize hv
    obtain ⟨builder', hok, hused, hbytes⟩ := hbuilds v hfits
    rw [hv] at hok
    obtain rfl := Except.ok.inj hok
    have hdecode := h.decode v hfits
    have hrange := inRange_of_fits hw hfits
    rw [← hdecode] at hrange
    refine ⟨hused, ?_⟩
    rw [hbytes, deserialize_of_inRange hrange, hdecode]
  · have hfits := h.fits data hdata
    obtain ⟨builder, hok, hused, hbytes⟩ := hbuilds _ hfits
    refine ⟨_, builder, deserialize_of_inRange (inRange_of_fits hw hfits), hok, hused, ?_⟩
    rw [hbytes, h.encode data hdata]

end Serialization

/-- A signed integer of no bits: zero lies between the bounds, and its shortest form has one bit. -/
theorem range_zero {encoding : Encoding} (h : encoding.isSigned = true) : encoding.Range 0 0 := by
  rw [Range, if_pos h]
  norm_num

theorem eq_zero_of_range_zero {encoding : Encoding} (h : encoding.isSigned = true) {v : Int}
    (hv : encoding.Range 0 v) : v = 0 := by
  rw [Range, if_pos h] at hv
  norm_num at hv
  obtain ⟨hlo, hhi⟩ := hv
  have hlo : (-1 : ℚ) < v := by linarith
  have hhi : (v : ℚ) < 1 := by linarith
  norm_cast at hlo hhi
  omega

theorem not_fits_zero {encoding : Encoding} (h : encoding.isSigned = true) (v : Int) :
    ¬encoding.Fits 0 v := by
  rw [Fits, if_pos h]
  have := one_le_bitsize v
  omega

/-- Integers and bit strings of a width correspond, except that the signed width of no bits has a
string and no integer. -/
theorem codec_iff [TonTypes] (law : RawLaw) (encoding : Encoding) (n : Nat)
    (hw : encoding.Width n) : encoding.Codec n ↔ (encoding.isSigned = true → n ≠ 0) := by
  constructor
  · rintro h hs rfl
    obtain ⟨builder, hok⟩ := (h.succeeds_iff 0).2 (range_zero hs)
    exact not_fits_zero hs 0 (fits_of_trySerialize hok)
  · intro hn
    exact (inverse_of_width hw hn).codec law hw hn

/-! ### The plain implementation -/

section Plain

open scoped TonVm.Plain
open TonVm.Plain

theorem byteOf_bitsOf (byte : UInt8) : byteOf (bitsOf 8 byte.toNat) = byte := by
  have h : ∀ i : Fin 256, byteOf (bitsOf 8 i) = UInt8.ofNat i := by decide +kernel
  exact (h ⟨byte.toNat, byte.toNat_lt⟩).trans (UInt8.ofNat_toNat)

/-- The first bits of a byte, when the others are zero. -/
theorem byteOf_take (byte : UInt8) {n : Nat} (hn : n < 8) (h : byte.toNat % 2 ^ (8 - n) = 0) :
    byteOf (((bitsOf 8 byte.toNat).take n ++ List.replicate 8 false).take 8) = byte := by
  have hall : ∀ n : Fin 8, ∀ i : Fin 256, i.val % 2 ^ (8 - n.val) = 0 →
      byteOf (((bitsOf 8 i).take n ++ List.replicate 8 false).take 8) = UInt8.ofNat i := by
    decide +kernel
  exact (hall ⟨n, hn⟩ ⟨byte.toNat, byte.toNat_lt⟩ h).trans UInt8.ofNat_toNat

theorem bytesOf_bitsOf_append (byte : UInt8) (bits : List Bool) :
    bytesOf (bitsOf 8 byte.toNat ++ bits) = byte :: bytesOf bits :=
  congrArg (· :: bytesOf bits) (byteOf_bitsOf byte)

theorem zeroPadded_tail {n : Nat} {byte : UInt8} {data : List UInt8}
    (h : ZeroPadded (n + 8) (byte :: data)) : ZeroPadded n data := by
  obtain ⟨hlen, hlast⟩ := h
  rw [excessShift_add_eight] at hlast
  refine ⟨?_, fun last hmem => hlast last ?_⟩
  · rw [bitsToBytes_eq] at hlen ⊢
    rw [List.length_cons] at hlen
    omega
  · cases data with
    | nil => exact absurd hmem nofun
    | cons next rest => rwa [List.getLast?_cons_cons]

theorem bytesOf_take {n : Nat} {data : List UInt8} (h : ZeroPadded n (data.take (bitsToBytes n))) :
    bytesOf ((ofBytes data).take n) = data.take (bitsToBytes n) ∧
      ((ofBytes data).take n).length = n := by
  induction data generalizing n with
  | nil =>
    have hn : n = 0 := by
      have := h.1
      rw [bitsToBytes_eq] at this
      simp only [List.take_nil, List.length_nil] at this
      omega
    subst hn
    exact ⟨rfl, rfl⟩
  | cons byte data ih =>
    have hbits : ofBytes (byte :: data) = bitsOf 8 byte.toNat ++ ofBytes data := rfl
    have hlen : (bitsOf 8 byte.toNat).length = 8 := rfl
    rcases Nat.lt_or_ge n 8 with hlt | hge
    · rcases Nat.eq_zero_or_pos n with rfl | hpos
      · exact ⟨rfl, rfl⟩
      · -- the string ends in this byte
        have hone : bitsToBytes n = 1 := by
          rw [bitsToBytes_eq]
          omega
        have hshift : excessShift n = 8 - n := by
          have := bitsToBytes_mul n
          omega
        rw [hone] at h ⊢
        have hbyte := byteOf_take byte hlt (hshift ▸ h.2 byte rfl)
        rw [hbits, List.take_append_of_le_length (by omega)]
        refine ⟨?_, by rw [List.length_take, hlen]; omega⟩
        have hshort : bytesOf ((bitsOf 8 byte.toNat).take n) =
            [byteOf (((bitsOf 8 byte.toNat).take n ++ List.replicate 8 false).take 8)] := by
          interval_cases n <;> rfl
        rw [hshort, hbyte]
        rfl
    · obtain ⟨m, rfl⟩ := Nat.exists_eq_add_of_le' hge
      have hsucc : bitsToBytes (m + 8) = bitsToBytes m + 1 := by
        rw [bitsToBytes_eq, bitsToBytes_eq]
        omega
      rw [hsucc, List.take_succ_cons] at h
      obtain ⟨hbytes, hrest⟩ := ih (zeroPadded_tail h)
      have htake : (bitsOf 8 byte.toNat ++ ofBytes data).take (m + 8) =
          bitsOf 8 byte.toNat ++ (ofBytes data).take m := by
        rw [List.take_append, hlen, Nat.add_sub_cancel, List.take_of_length_le (by omega)]
      rw [hbits, htake, hsucc, List.take_succ_cons]
      exact ⟨by rw [bytesOf_bitsOf_append, hbytes],
        by rw [List.length_append, hlen, hrest, Nat.add_comm]⟩

theorem rawLaw : RawLaw where
  withRaw data n hn h := by
    obtain ⟨hbytes, hlen⟩ := bytesOf_take h
    refine ⟨{ bits := (ofBytes data).take n }, ?_, hlen, hbytes⟩
    exact (if_pos (by simpa [hlen] using hn))

/-- Negative integers of five bits. -/
theorem codec_iff_five :
    signedBigEndian.Codec 5 ∧
      signedBigEndian.trySerialize 5 (.value (-3)) = .ok { bits := [true, true, true, false, true] } :=
  have hw : signedBigEndian.Width 5 := Nat.le_of_ble_eq_true rfl
  ⟨(codec_iff rawLaw .signedBigEndian 5 hw).2 fun _ => by decide, rfl⟩

/-- The empty string decodes to zero as a signed integer, and zero is refused at that width. -/
theorem zero_of_no_bits :
    signedBigEndian.Range 0 0 ∧
      signedBigEndian.trySerialize 0 (.value 0) = .error (.code .rangeCheckError) ∧
      signedBigEndian.deserialize 0 [] = .ok (.value 0) ∧
      unsignedBigEndian.trySerialize 0 (.value 0) = .ok {} :=
  ⟨range_zero rfl, rfl, rfl, rfl⟩

end Plain

end Encoding

end TonVm
