import TonVm.Proof.GasPurchase
import TonVm.Proof.Views

/-!
# Integers of variable length

A currency amount is stored as the number of its bytes and the bytes. `STGRAMS` and `STVARUINT32`
write the fewest bytes of an unsigned integer, and none for zero; `STVARINT16` and `STVARINT32` write
the shortest two's complement, which has a byte for zero too.
-/

namespace TonVm

open ExecLib

/-! ### The bytes -/

theorem bitsToBytes_le_iff (n count : Nat) : bitsToBytes n ≤ count ↔ n ≤ 8 * count := by
  rw [bitsToBytes_eq]
  omega

theorem bits_eq_zero_iff {v : Int} : bits v = 0 ↔ v = 0 := by
  unfold bits
  split_ifs with h <;> simp [h]

theorem toBytesBe_of_ne_zero {n : Nat} (hn : n ≠ 0) :
    toBytesBe n = (bytesLe (bitsToBytes (bits n)) n).reverse := by
  have hpos : 1 ≤ bitsToBytes (bits n) := by
    have hbits : bits n ≠ 0 := mt bits_eq_zero_iff.1 (by exact_mod_cast hn)
    rw [bitsToBytes_eq]
    omega
  rw [toBytesBe, toBytesLe, max_eq_right hpos]

theorem fromBytesBe_bytesLe {n count : Nat} (h : bits n ≤ 8 * count) :
    fromBytesBe (bytesLe count n).reverse = n := by
  rw [fromBytesBe, List.reverse_reverse, fromBytesLe_bytesLe, pow_bytes, Nat.mod_eq_of_lt]
  have := (bits_le_iff (Int.natCast_nonneg n) _).1 h
  exact_mod_cast this

theorem fromSignedBytesBe_toSignedBytesBe (v : Int) : fromSignedBytesBe (toSignedBytesBe v) = v := by
  rw [fromSignedBytesBe, toSignedBytesBe, List.reverse_reverse]
  exact fromSignedBytesLe_complementLe ((bitsToBytes_le_iff _ _).1 le_rfl)

theorem bits_nibble {n : Nat} (h : n < 16) :
    (Plain.ofBytes [UInt8.ofNat n <<< 4]).take 4 = Plain.bitsOf 4 n := by
  have hall : ∀ i : Fin 16, (Plain.ofBytes [UInt8.ofNat i <<< 4]).take 4 = Plain.bitsOf 4 i := by
    decide
  exact hall ⟨n, h⟩

/-! ### The formats -/

/-- The four formats of integers behind their length in bytes. -/
inductive VarFormat where
  | grams
  | varInt16
  | varUint32
  | varInt32
  deriving DecidableEq, Repr

namespace VarFormat

def signed : VarFormat → Bool
  | grams | varUint32 => false
  | varInt16 | varInt32 => true

/-- The documented range, from `low` up to but not including `high`. -/
def low : VarFormat → Int
  | grams | varUint32 => 0
  | varInt16 => -2 ^ 119
  | varInt32 => -2 ^ 247

def high : VarFormat → Int
  | grams => 2 ^ 120
  | varInt16 => 2 ^ 119
  | varUint32 => 2 ^ 248
  | varInt32 => 2 ^ 247

def Covers (format : VarFormat) (x : Int) : Prop := format.low ≤ x ∧ x < format.high

/-- Bits of the length field. -/
def lengthBits : VarFormat → Nat
  | grams | varInt16 => 4
  | varUint32 | varInt32 => 5

def maxBits : VarFormat → Nat
  | grams | varInt16 => 120
  | varUint32 | varInt32 => 248

/-- The size of a value as `store_var` measures it. -/
def size (format : VarFormat) (x : Int) : Nat := if format.signed then bitsize x else bits x

theorem covers_iff (format : VarFormat) (x : Int) :
    format.Covers x ↔ (format.signed = false → 0 ≤ x) ∧ format.size x ≤ format.maxBits := by
  have hunsigned (n : Nat) : 0 ≤ x ∧ x < 2 ^ n ↔ (false = false → 0 ≤ x) ∧ bits x ≤ n :=
    ⟨fun h => ⟨fun _ => h.1, (bits_le_iff h.1 n).2 h.2⟩,
      fun h => ⟨h.1 rfl, (bits_le_iff (h.1 rfl) n).1 h.2⟩⟩
  have hsigned (n : Nat) : -2 ^ n ≤ x ∧ x < 2 ^ n ↔ (true = false → 0 ≤ x) ∧ bitsize x ≤ n + 1 :=
    ⟨fun h => ⟨nofun, (bitsize_le_iff x n).2 h⟩, fun h => (bitsize_le_iff x n).1 h.2⟩
  cases format with
  | grams => exact hunsigned 120
  | varInt16 => exact hsigned 119
  | varUint32 => exact hunsigned 248
  | varInt32 => exact hsigned 247

/-- The bytes that are written. -/
def bytes (format : VarFormat) (x : Int) : List UInt8 :=
  if format.signed then toSignedBytesBe x
  else (bytesLe (bitsToBytes (bits x)) x.toNat).reverse

/-- The bits that are written: the number of bytes and the bytes. -/
def written (format : VarFormat) (x : Int) : List Bool :=
  Plain.bitsOf format.lengthBits (format.bytes x).length ++ Plain.ofBytes (format.bytes x)

theorem length_bytes (format : VarFormat) (x : Int) :
    (format.bytes x).length = bitsToBytes (format.size x) := by
  unfold bytes size
  split <;> simp [toSignedBytesBe, toSignedBytesLe]

theorem length_bytes_lt {format : VarFormat} {x : Int} (h : format.Covers x) :
    (format.bytes x).length < 2 ^ format.lengthBits := by
  have hsize := ((format.covers_iff x).1 h).2
  rw [length_bytes]
  have hle : bitsToBytes (format.size x) ≤ format.maxBits / 8 := by
    rw [bitsToBytes_le_iff]
    refine hsize.trans ?_
    cases format <;> decide
  refine hle.trans_lt ?_
  cases format <;> decide

theorem length_written (format : VarFormat) (x : Int) :
    (format.written x).length = format.lengthBits + 8 * (format.bytes x).length := by
  rw [written, List.length_append, Plain.length_bitsOf, Plain.length_ofBytes]

/-- What the bytes stand for. -/
def value (format : VarFormat) (bytes : List UInt8) : Int :=
  if format.signed then fromSignedBytesBe bytes else fromBytesBe bytes

theorem value_bytes {format : VarFormat} {x : Int} (h : format.Covers x) :
    format.value (format.bytes x) = x := by
  unfold value bytes
  split_ifs with hsigned
  · exact fromSignedBytesBe_toSignedBytesBe x
  · have hx := ((format.covers_iff x).1 h).1 (Bool.eq_false_of_not_eq_true hsigned)
    lift x to Nat using hx
    rw [Int.toNat_natCast, fromBytesBe_bytesLe ((bitsToBytes_le_iff _ _).1 le_rfl)]

/-! ### The length field -/

/-- A number of bytes holds a value. -/
def Holds (format : VarFormat) (count : Nat) (x : Int) : Prop :=
  if format.signed then
    if count = 0 then x = 0 else -2 ^ (8 * count - 1) ≤ x ∧ x < 2 ^ (8 * count - 1)
  else 0 ≤ x ∧ x < 2 ^ (8 * count)

theorem lengthField_written {format : VarFormat} {x : Int} (h : format.Covers x) :
    Plain.natOf ((format.written x).take format.lengthBits) = (format.bytes x).length := by
  rw [written, List.take_left' (Plain.length_bitsOf _ _), Plain.natOf_bitsOf,
    Nat.mod_eq_of_lt (length_bytes_lt h)]

theorem holds_iff {format : VarFormat} {x : Int} (h : format.Covers x)
    (hx : format.signed = true → x ≠ 0) (count : Nat) :
    format.Holds count x ↔ (format.bytes x).length ≤ count := by
  rw [length_bytes, bitsToBytes_le_iff]
  unfold Holds size
  split_ifs with hsigned hzero
  · have := one_le_bitsize x
    have := hx hsigned
    subst hzero
    omega
  · have hcount : 8 * count = 8 * count - 1 + 1 := by omega
    conv_rhs => rw [hcount]
    exact (bitsize_le_iff x _).symm
  · have hnonneg := ((format.covers_iff x).1 h).1 (Bool.eq_false_of_not_eq_true hsigned)
    rw [bits_le_iff hnonneg]
    exact and_iff_right hnonneg

/-! ### The instructions -/

/-- What `store_var` computes of a value: its size, and bytes of which those written are the first. -/
theorem varBytes_value (format : VarFormat) {x : Int} (h : format.signed = false → 0 ≤ x) :
    ∃ vec, Engine.varBytes (.value x) format.signed = .ok (format.size x, vec) ∧
      (if format.size x ≠ 0 then vec.length else 0) = (format.bytes x).length ∧
      vec.take (format.bytes x).length = format.bytes x := by
  cases hsigned : format.signed with
  | true =>
    have hsize : format.size x = bitsize x := if_pos hsigned
    have hbytes : format.bytes x = toSignedBytesBe x := if_pos hsigned
    refine ⟨toSignedBytesBe x, ?_, ?_, ?_⟩
    · rw [hsize]
      rfl
    · rw [hsize, hbytes, if_pos (by have := one_le_bitsize x; omega)]
    · rw [hbytes, List.take_length]
  | false =>
    have hx := h hsigned
    have hsize : format.size x = bits x := if_neg (by simp [hsigned])
    have hbytes : format.bytes x = (bytesLe (bitsToBytes (bits x)) x.toNat).reverse :=
      if_neg (by simp [hsigned])
    lift x to Nat using hx
    refine ⟨toBytesBe x, ?_, ?_, ?_⟩
    · rw [hsize]
      rfl
    · rw [hsize, hbytes]
      split_ifs with hzero
      · rw [toBytesBe_of_ne_zero (by simpa [bits_eq_zero_iff] using hzero)]
        rfl
      · have hbits : bits (x : Int) = 0 := not_not.1 hzero
        rw [hbits]
        rfl
    · rw [hbytes]
      by_cases hzero : x = 0
      · subst hzero
        rfl
      · rw [toBytesBe_of_ne_zero hzero, Int.toNat_natCast, List.take_length]

section Instructions

variable [TonTypes]

open Engine

def store : VarFormat → M Unit
  | grams => executeStgrams
  | varInt16 => executeStvarint16
  | varUint32 => executeStvaruint32
  | varInt32 => executeStvarint32

def load : VarFormat → M Unit
  | grams => executeLdgrams
  | varInt16 => executeLdvarint16
  | varUint32 => executeLdvaruint32
  | varInt32 => executeLdvarint32

theorem store_eq (format : VarFormat) :
    format.store = storeVar format.maxBits format.lengthBits format.signed := by
  cases format <;> rfl

theorem load_eq (format : VarFormat) : format.load = loadVar format.lengthBits format.signed := by
  cases format <;> rfl

/-- What `store_var` does with the size and the bytes of a value. -/
def storeBytes (format : VarFormat) (b : BuilderData) (size : Nat) (vec : List UInt8) : M Unit := do
  if format.maxBits < size then
    err .rangeCheckError
  let bytes := if size ≠ 0 then vec.length else 0
  let x ← Engine.lift (TonTypes.appendBits TonTypes.builderDefault bytes format.lengthBits)
  let x ← Engine.lift (TonTypes.appendRaw x vec (bytes * 8))
  if TonTypes.canAppend b x then
    match TonTypes.appendBuilder b x with
    | .ok b => push (.builder b)
    | .error _ => throw .panic
  else
    err .cellOverflow

theorem exec_store (format : VarFormat) (e : Engine) (b : BuilderData) (x : Int) :
    exec format.store (e.given [.builder b, .int x]) = exec (do
      let (size, vec) ← Engine.lift (varBytes (.value x) format.signed)
      format.storeBytes b size vec)
      (e.afterLoad.holding e.cc e.ctrls [.int x, .builder b]) := by
  have hint : (StackItem.int x).asInteger = .ok (.value x) := rfl
  have hbuilder : (StackItem.builder b).asBuilder = .ok b := rfl
  rw [store_eq]
  unfold storeVar
  refine (exec_load_fetchStack e [.builder b, .int x] _).trans ?_
  rw [exec_bind_ok (exec_var _ rfl), hint, lift_ok, exec_bind_pure, exec_bind_get]
  dsimp only
  rw [if_neg (by simp [IntegerData.isNan]), exec_bind_ok (exec_var _ rfl), hbuilder, lift_ok,
    exec_bind_pure]
  rfl

/-- A value out of the range is not stored. -/
theorem exec_store_not_covers {format : VarFormat} {x : Int} (h : ¬format.Covers x) (e : Engine)
    (b : BuilderData) : (exec format.store (e.given [.builder b, .int x])).1 =
      .error (.exception (.fromCode .rangeCheckError)) := by
  rw [exec_store]
  by_cases hneg : format.signed = false → 0 ≤ x
  · obtain ⟨vec, hvec, -⟩ := format.varBytes_value hneg
    have hsize : format.maxBits < format.size x := not_le.1 fun hle =>
      h ((format.covers_iff x).2 ⟨hneg, hle⟩)
    rw [hvec, lift_ok, exec_bind_pure]
    unfold storeBytes
    dsimp only
    rw [if_pos hsize]
    rfl
  · obtain ⟨hsigned, hx⟩ := Classical.not_imp.1 hneg
    have hcheck : (IntegerData.value x).checkNeg = .error (.code .rangeCheckError) :=
      if_pos (not_le.1 hx)
    rw [hsigned]
    unfold varBytes
    rw [if_neg Bool.false_ne_true, hcheck]
    rfl

section Lawful

variable [Views] [LawfulViews]

/-- The field that is stored for a value in the range. -/
theorem exec_storeBytes {format : VarFormat} {x : Int} (h : format.Covers x) {vec : List UInt8}
    (hlen : (if format.size x ≠ 0 then vec.length else 0) = (format.bytes x).length)
    (htake : vec.take (format.bytes x).length = format.bytes x) {b : BuilderData}
    (hroom : (builderBits b).length + (format.written x).length ≤ 1023 ∧ (builderRefs b).length ≤ 4)
    (s : Engine) : ∃ b', exec (format.storeBytes b (format.size x) vec) s =
        (.ok (), { s with cc.stack := s.cc.stack ++ [.builder b'] }) ∧
      builderBits b' = builderBits b ++ format.written x ∧ builderRefs b' = builderRefs b := by
  have hsize := ((format.covers_iff x).1 h).2
  have hle : (format.bytes x).length ≤ vec.length := by
    have := congrArg List.length htake
    rw [List.length_take] at this
    omega
  have hwritten := format.length_written x
  obtain ⟨hdefault, hdefaultRefs⟩ := LawfulViews.builderDefault
  obtain ⟨x₁, hx₁, hbits₁, hrefs₁⟩ := (LawfulViews.appendBits TonTypes.builderDefault
    (format.bytes x).length format.lengthBits).exists (by rw [hdefault, List.length_nil]; omega)
  rw [hdefault, List.nil_append] at hbits₁
  rw [hdefaultRefs] at hrefs₁
  obtain ⟨x₂, hx₂, hbits₂, hrefs₂⟩ := (LawfulViews.appendRaw x₁ vec ((format.bytes x).length * 8)
    (by omega)).exists (by rw [hbits₁, Plain.length_bitsOf]; omega)
  rw [hbits₁, Nat.mul_comm, Plain.take_ofBytes, htake] at hbits₂
  rw [hrefs₁] at hrefs₂
  have hfits : (builderBits b).length + (builderBits x₂).length ≤ 1023 ∧
      (builderRefs b).length + (builderRefs x₂).length ≤ 4 := by
    rw [hbits₂, hrefs₂]
    exact ⟨hroom.1, by simpa using hroom.2⟩
  obtain ⟨b', hb', hbits', hrefs'⟩ := (LawfulViews.appendBuilder b x₂).exists hfits
  refine ⟨b', ?_, by rw [hbits', hbits₂]; rfl, by rw [hrefs', hrefs₂, List.append_nil]⟩
  unfold storeBytes
  rw [if_neg (not_lt.2 hsize)]
  dsimp only
  rw [hlen, hx₁, lift_ok, exec_bind_pure, hx₂, lift_ok, exec_bind_pure,
    if_pos ((LawfulViews.canAppend b x₂).2 hfits), hb']
  rfl

/-- A value in the range is stored where there is room. -/
theorem exec_store_covers {format : VarFormat} {x : Int} (h : format.Covers x) (e : Engine)
    {b : BuilderData}
    (hroom : (builderBits b).length + (format.written x).length ≤ 1023 ∧ (builderRefs b).length ≤ 4) :
    ∃ t b', exec format.store (e.given [.builder b, .int x]) = (.ok (), t) ∧
      t.cc.stack = e.cc.stack ++ [.builder b'] ∧
      builderBits b' = builderBits b ++ format.written x ∧ builderRefs b' = builderRefs b := by
  obtain ⟨vec, hvec, hlen, htake⟩ := format.varBytes_value ((format.covers_iff x).1 h).1
  obtain ⟨b', hexec, hbits, hrefs⟩ := exec_storeBytes h hlen htake hroom
    (e.afterLoad.holding e.cc e.ctrls [.int x, .builder b])
  have hstore : exec format.store (e.given [.builder b, .int x]) = exec
      (format.storeBytes b (format.size x) vec)
      (e.afterLoad.holding e.cc e.ctrls [.int x, .builder b]) := by
    rw [exec_store, hvec, lift_ok, exec_bind_pure]
  exact ⟨_, b', hstore.trans hexec, rfl, hbits, hrefs⟩

/-- A slice that begins with a stored value gives it back. -/
theorem exec_load_written {format : VarFormat} {x : Int} (h : format.Covers x) (e : Engine)
    {slice : SliceData} {rest : List Bool} (hslice : sliceBits slice = format.written x ++ rest) :
    ∃ t slice', exec format.load (e.given [.slice slice]) = (.ok (), t) ∧
      t.cc.stack = e.cc.stack ++ [.int x, .slice slice'] ∧ sliceBits slice' = rest ∧
      sliceRefs slice' = sliceRefs slice := by
  rw [written, List.append_assoc] at hslice
  obtain ⟨slice₁, hlength, hbits₁, hrefs₁⟩ :=
    (LawfulViews.getNextInt slice format.lengthBits).append hslice (Plain.length_bitsOf _ _)
  rw [Plain.natOf_bitsOf, Nat.mod_eq_of_lt (length_bytes_lt h)] at hlength
  obtain ⟨slice₂, hbytes, hbits₂, hrefs₂⟩ :=
    (LawfulViews.getNextBytes slice₁ (format.bytes x).length).append hbits₁
      (Plain.length_ofBytes _)
  rw [Plain.bytesOf_ofBytes] at hbytes
  have hvalue : (if format.signed then fromSignedBytesBe (format.bytes x)
      else (fromBytesBe (format.bytes x) : Int)) = x := value_bytes h
  have hrange : InRange x := by
    obtain ⟨hlow, hhigh⟩ := h
    cases format <;> simp only [low, high] at hlow hhigh <;> constructor <;> omega
  have hslice' : (StackItem.slice slice).asSlice = .ok slice := rfl
  have hload : exec format.load (e.given [.slice slice]) = (.ok (), e.afterLoad.holding
      { e.cc with stack := e.cc.stack ++ [.int x] ++ [.slice slice₂] } e.ctrls [.slice slice]) := by
    rw [load_eq]
    unfold loadVar
    refine (exec_load_fetchStack e [.slice slice] _).trans ?_
    rw [exec_bind_ok (exec_var _ rfl), hslice', lift_ok, exec_bind_pure, hlength, lift_ok,
      exec_bind_pure]
    dsimp only
    rw [hbytes, lift_ok, exec_bind_pure]
    dsimp only
    rw [hvalue]
    exact exec_bind_ok (exec_pushInt hrange)
  exact ⟨_, slice₂, hload, List.append_assoc .., hbits₂, hrefs₂.trans hrefs₁⟩

/-- `serialize_grams` writes what `STGRAMS` does. -/
theorem serializeGrams_eq {g : Nat} (h : g < 2 ^ 120) : ∃ builder,
    serializeGrams g = .ok builder ∧ builderBits builder = grams.written g ∧
      builderRefs builder = [] := by
  have hhigh : (g : Int) < 2 ^ 120 := by exact_mod_cast h
  have hcovers : grams.Covers g := ⟨Int.natCast_nonneg g, hhigh⟩
  have hbytes : grams.bytes g = (bytesLe (bitsToBytes (bits g)) g).reverse := rfl
  have hlen : (grams.bytes g).length = bitsToBytes (bits g) := grams.length_bytes g
  have hlt : bitsToBytes (bits g) < 16 := hlen ▸ length_bytes_lt hcovers
  obtain ⟨b₁, hb₁, hbits₁, hrefs₁⟩ := (LawfulViews.withRaw
    [UInt8.ofNat (bitsToBytes (bits g)) <<< 4] 4 (by simp)).exists (by decide)
  rw [bits_nibble hlt] at hbits₁
  obtain ⟨b₂, hb₂, hbits₂, hrefs₂⟩ := (LawfulViews.appendRaw b₁ (grams.bytes g)
    (bitsToBytes (bits g) * 8) (by omega)).exists (by rw [hbits₁, Plain.length_bitsOf]; omega)
  rw [hbits₁, Nat.mul_comm, Plain.take_ofBytes, ← hlen, List.take_length] at hbits₂
  refine ⟨b₂, ?_, hbits₂, hrefs₂.trans hrefs₁⟩
  unfold serializeGrams
  dsimp only
  rw [hb₁]
  exact hb₂

/-- A value in the range is stored and comes back, one out of the range is refused, and both ways to
write an amount of nanograms agree. -/
theorem var_integers_round_trip (format : VarFormat) (x : Int) (e : Engine) :
    (format.Covers x → ∀ b : BuilderData,
      (builderBits b).length + (format.written x).length ≤ 1023 ∧ (builderRefs b).length ≤ 4 →
      ∃ t b', exec format.store (e.given [.builder b, .int x]) = (.ok (), t) ∧
        t.cc.stack = e.cc.stack ++ [.builder b'] ∧
        builderBits b' = builderBits b ++ format.written x ∧ builderRefs b' = builderRefs b) ∧
    (¬format.Covers x → ∀ b : BuilderData, (exec format.store (e.given [.builder b, .int x])).1 =
      .error (.exception (.fromCode .rangeCheckError))) ∧
    (format.Covers x → ∀ (slice : SliceData) (rest : List Bool),
      sliceBits slice = format.written x ++ rest →
      ∃ t slice', exec format.load (e.given [.slice slice]) = (.ok (), t) ∧
        t.cc.stack = e.cc.stack ++ [.int x, .slice slice'] ∧ sliceBits slice' = rest ∧
        sliceRefs slice' = sliceRefs slice) ∧
    ∀ g < 2 ^ 120, ∃ builder, serializeGrams g = .ok builder ∧
      builderBits builder = grams.written g ∧ builderRefs builder = [] :=
  ⟨fun h _ hroom => exec_store_covers h e hroom, fun h b => exec_store_not_covers h e b,
    fun h _ _ hslice => exec_load_written h e hslice, fun _ hg => serializeGrams_eq hg⟩

/-- The value is stored behind the least number of bytes that hold it, in that number of bytes. -/
def StoresLeast (e : Engine) (format : VarFormat) (x : Int) : Prop :=
  ∀ b : BuilderData,
    (builderBits b).length + (format.written x).length ≤ 1023 ∧ (builderRefs b).length ≤ 4 →
    ∃ t b' length, exec format.store (e.given [.builder b, .int x]) = (.ok (), t) ∧
      t.cc.stack = e.cc.stack ++ [.builder b'] ∧
      builderBits b' = builderBits b ++ format.written x ∧
      Plain.natOf ((format.written x).take format.lengthBits) = length ∧
      (format.written x).length = format.lengthBits + 8 * length ∧
      IsLeast {count | format.Holds count x} length

/-- The length field is the least one, except for a zero in the signed formats. -/
theorem storesLeast_iff (e : Engine) {format : VarFormat} {x : Int} (h : format.Covers x) :
    StoresLeast e format x ↔ (format.signed = true → x ≠ 0) := by
  constructor
  · rintro hleast hsigned rfl
    have hroom : (builderBits TonTypes.builderDefault).length + (format.written 0).length ≤ 1023 ∧
        (builderRefs TonTypes.builderDefault).length ≤ 4 := by
      rw [LawfulViews.builderDefault.1, LawfulViews.builderDefault.2, length_written]
      have := length_bytes_lt h
      cases format <;> simp only [lengthBits] at this ⊢ <;> simp <;> omega
    obtain ⟨_, _, length, -, -, -, hlength, -, hmin⟩ := hleast _ hroom
    have hzero : format.Holds 0 0 := by
      unfold Holds
      rw [if_pos hsigned, if_pos rfl]
    have hle : length ≤ 0 := hmin.2 hzero
    have hbytes : (format.bytes 0).length = 1 := by
      rw [length_bytes, size, if_pos hsigned]
      rfl
    rw [lengthField_written h, hbytes] at hlength
    omega
  · intro hx b hroom
    obtain ⟨t, b', hexec, hstack, hbits, -⟩ := exec_store_covers h e hroom
    refine ⟨t, b', _, hexec, hstack, hbits, lengthField_written h, format.length_written x, ?_, ?_⟩
    · exact (holds_iff h hx _).2 le_rfl
    · exact fun count hcount => (holds_iff h hx count).1 hcount

end Lawful

end Instructions

/-! ### Amounts in plain cells -/

section Concrete

open Engine
open scoped Plain

theorem var_integers_round_trip_grams :
    ∃ t slice', exec grams.load ((withCapabilities []).given
        [.slice (Plain.Slice.ofBits (grams.written 1000 ++ [true]))]) = (.ok (), t) ∧
      t.cc.stack = [.int 1000, .slice slice'] ∧ sliceBits slice' = [true] ∧ sliceRefs slice' = [] :=
  (var_integers_round_trip grams 1000 (withCapabilities [])).2.2.1 ⟨by decide, by decide⟩ _ [true] rfl

theorem storesLeast_minus_one : StoresLeast (withCapabilities []) varInt16 (-1) :=
  (storesLeast_iff (withCapabilities []) ⟨by decide, by decide⟩).2 fun _ => by decide

/-- A signed zero is stored behind the length 1, though no byte is needed for it. -/
theorem signed_zero_takes_a_byte :
    varInt16.Covers 0 ∧ varInt16.Holds 0 0 ∧
      ∃ t b', exec varInt16.store ((withCapabilities []).given [.builder {}, .int 0]) = (.ok (), t) ∧
        t.cc.stack = [.builder b'] ∧ builderBits b' = Plain.bitsOf 4 1 ++ Plain.bitsOf 8 0 :=
  ⟨⟨by decide, by decide⟩, rfl, _, _, rfl, rfl, rfl⟩

end Concrete

end VarFormat

end TonVm
