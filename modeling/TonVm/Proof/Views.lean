import TonVm.Proof.Bits

/-!
# What slices and builders hold

A slice and a builder are told by their bits and their references. The laws say what the methods of
the packages do with these, as far as the proofs need it: writing appends where there is room for it,
and reading takes off the front.
-/

namespace TonVm

/-- The bits and the references of slices and builders. -/
class Views [TonTypes] where
  sliceBits : SliceData → List Bool
  sliceRefs : SliceData → List Cell
  builderBits : BuilderData → List Bool
  builderRefs : BuilderData → List Cell

export Views (sliceBits sliceRefs builderBits builderRefs)

section Laws

variable [TonTypes] [Views]

/-- A builder comes out exactly where there is room, and holds the bits and references. -/
structure Builds (room : Prop) (result : Except Failure BuilderData) (bits : List Bool)
    (refs : List Cell) : Prop where
  succeeds : room → ∃ builder, result = .ok builder
  room : ∀ builder, result = .ok builder → room
  bits : ∀ builder, result = .ok builder → builderBits builder = bits
  refs : ∀ builder, result = .ok builder → builderRefs builder = refs

theorem Builds.exists {room : Prop} {result : Except Failure BuilderData} {bits : List Bool}
    {refs : List Cell} (h : Builds room result bits refs) (hroom : room) :
    ∃ builder, result = .ok builder ∧ builderBits builder = bits ∧ builderRefs builder = refs := by
  obtain ⟨builder, hok⟩ := h.succeeds hroom
  exact ⟨builder, hok, h.bits builder hok, h.refs builder hok⟩

/-- The first `n` bits of a slice are taken off, and stand for a value. -/
def Takes {α : Type} (slice : SliceData) (n : Nat) (result : Except Failure (α × SliceData))
    (value : List Bool → α) : Prop :=
  n ≤ (sliceBits slice).length → ∃ rest, result = .ok (value ((sliceBits slice).take n), rest) ∧
    sliceBits rest = (sliceBits slice).drop n ∧ sliceRefs rest = sliceRefs slice

/-- Where a slice starts with a string, the string is taken off. -/
theorem Takes.append {α : Type} {slice : SliceData} {n : Nat}
    {result : Except Failure (α × SliceData)} {value : List Bool → α} (h : Takes slice n result value)
    {bits rest : List Bool} (hbits : sliceBits slice = bits ++ rest) (hlen : bits.length = n) :
    ∃ slice', result = .ok (value bits, slice') ∧ sliceBits slice' = rest ∧
      sliceRefs slice' = sliceRefs slice := by
  subst hlen
  obtain ⟨slice', hok, hrest, hrefs⟩ := h (by simp [hbits])
  rw [hbits, List.take_left] at hok
  rw [hbits, List.drop_left] at hrest
  exact ⟨slice', hok, hrest, hrefs⟩

theorem Takes.map {α β : Type} {slice : SliceData} {n : Nat} {result : Except Failure (α × SliceData)}
    {value : List Bool → α} (h : Takes slice n result value) (f : α → β) :
    Takes slice n (do
      let (a, rest) ← result
      return (f a, rest)) (f ∘ value) := by
  intro hn
  obtain ⟨rest, hok, hrest⟩ := h hn
  refine ⟨rest, ?_, hrest⟩
  rw [hok]
  rfl

end Laws

/-- The laws of the methods that write and read. -/
class LawfulViews [TonTypes] [Views] : Prop where
  builderDefault : builderBits TonTypes.builderDefault = [] ∧ builderRefs TonTypes.builderDefault = []
  withRaw : ∀ (bytes : List UInt8) (n : Nat), n ≤ 8 * bytes.length →
    Builds (n ≤ 1023) (TonTypes.withRaw bytes n) ((Plain.ofBytes bytes).take n) []
  appendBits : ∀ (builder : BuilderData) (value n : Nat),
    Builds ((builderBits builder).length + n ≤ 1023) (TonTypes.appendBits builder value n)
      (builderBits builder ++ Plain.bitsOf n value) (builderRefs builder)
  appendRaw : ∀ (builder : BuilderData) (bytes : List UInt8) (n : Nat), n ≤ 8 * bytes.length →
    Builds ((builderBits builder).length + n ≤ 1023) (TonTypes.appendRaw builder bytes n)
      (builderBits builder ++ (Plain.ofBytes bytes).take n) (builderRefs builder)
  canAppend : ∀ builder other : BuilderData, TonTypes.canAppend builder other = true ↔
    (builderBits builder).length + (builderBits other).length ≤ 1023 ∧
      (builderRefs builder).length + (builderRefs other).length ≤ 4
  appendBuilder : ∀ builder other : BuilderData,
    Builds ((builderBits builder).length + (builderBits other).length ≤ 1023 ∧
        (builderRefs builder).length + (builderRefs other).length ≤ 4)
      (TonTypes.appendBuilder builder other) (builderBits builder ++ builderBits other)
      (builderRefs builder ++ builderRefs other)
  getNextInt : ∀ (slice : SliceData) (n : Nat),
    Takes slice n (TonTypes.getNextInt slice n) Plain.natOf
  getNextBytes : ∀ (slice : SliceData) (n : Nat),
    Takes slice (8 * n) (TonTypes.getNextBytes slice n) Plain.bytesOf

theorem builderBits_of_appendBits [TonTypes] [Views] [LawfulViews] {builder builder' : BuilderData}
    {value n : Nat} (h : TonTypes.appendBits builder value n = .ok builder') :
    builderBits builder' = builderBits builder ++ Plain.bitsOf n value :=
  (LawfulViews.appendBits builder value n).bits builder' h

/-- The laws of the methods that look at a slice or narrow it. -/
class LawfulSlices [TonTypes] [Views] : Prop where
  remainingBits : ∀ slice, TonTypes.remainingBits slice = (sliceBits slice).length
  remainingReferences : ∀ slice, TonTypes.remainingReferences slice = (sliceRefs slice).length
  sliceReference : ∀ slice index cell, (sliceRefs slice)[index]? = some cell →
    TonTypes.sliceReference slice index = .ok cell
  sliceIsEmpty : ∀ slice, sliceRefs slice = [] →
    (TonTypes.sliceIsEmpty slice = true ↔ sliceBits slice = [])
  shrinkDataTo : ∀ slice n, n ≤ (sliceBits slice).length →
    sliceBits (shrinkDataTo slice n) = (sliceBits slice).take n
  shrinkReferencesTo : ∀ slice, sliceBits (shrinkReferencesTo slice 0) = sliceBits slice ∧
    sliceRefs (shrinkReferencesTo slice 0) = []

/-! ### The plain implementation -/

namespace Plain

open scoped TonVm.Plain

scoped instance views : Views where
  sliceBits := Slice.bits
  sliceRefs := Slice.refs
  builderBits := Builder.bits
  builderRefs := Builder.refs

theorem builds_appendBits (builder : Builder) (bits : List Bool) :
    Builds (builder.bits.length + bits.length ≤ 1023) (builder.appendBits bits)
      (builder.bits ++ bits) builder.refs := by
  unfold Builder.appendBits
  split_ifs with h
  · exact ⟨fun _ => ⟨_, rfl⟩, fun _ _ => h, fun _ hok => by cases hok; rfl,
      fun _ hok => by cases hok; rfl⟩
  · exact ⟨fun hroom => absurd hroom h, nofun, nofun, nofun⟩

theorem builds_appendRefs (builder : Builder) (refs : List Tree) :
    Builds (builder.refs.length + refs.length ≤ 4) (builder.appendRefs refs) builder.bits
      (builder.refs ++ refs) := by
  unfold Builder.appendRefs
  split_ifs with h
  · exact ⟨fun _ => ⟨_, rfl⟩, fun _ _ => h, fun _ hok => by cases hok; rfl,
      fun _ hok => by cases hok; rfl⟩
  · exact ⟨fun hroom => absurd hroom h, nofun, nofun, nofun⟩

theorem builds_appendBuilder (builder other : Builder) :
    Builds (builder.bits.length + other.bits.length ≤ 1023 ∧
        builder.refs.length + other.refs.length ≤ 4)
      (do (← builder.appendBits other.bits).appendRefs other.refs) (builder.bits ++ other.bits)
      (builder.refs ++ other.refs) := by
  have hbits := builds_appendBits builder other.bits
  cases happend : builder.appendBits other.bits with
  | error failure =>
    refine ⟨fun hroom => ?_, nofun, nofun, nofun⟩
    obtain ⟨_, hok⟩ := hbits.succeeds hroom.1
    rw [happend] at hok
    cases hok
  | ok both =>
    have hrefs := builds_appendRefs both other.refs
    have hroom := hbits.room both happend
    have hboth : both.bits = builder.bits ++ other.bits := hbits.bits both happend
    have hkept : both.refs = builder.refs := hbits.refs both happend
    rw [hboth, hkept] at hrefs
    exact ⟨fun h => hrefs.succeeds h.2, fun _ hok => ⟨hroom, hrefs.room _ hok⟩, hrefs.bits, hrefs.refs⟩

theorem takes_next (slice : Slice) (n : Nat) : Takes slice n (slice.next n) id :=
  fun h => ⟨_, if_pos h, (List.drop_drop ..).symm, rfl⟩

scoped instance lawfulViews : LawfulViews where
  builderDefault := ⟨rfl, rfl⟩
  withRaw bytes n hn := by
    have h := builds_appendBits {} ((ofBytes bytes).take n)
    rwa [List.length_take, length_ofBytes, min_eq_left hn, List.length_nil, Nat.zero_add] at h
  appendBits builder value n := by
    have h := builds_appendBits builder (bitsOf n value)
    rwa [length_bitsOf] at h
  appendRaw builder bytes n hn := by
    have h := builds_appendBits builder ((ofBytes bytes).take n)
    rwa [List.length_take, length_ofBytes, min_eq_left hn] at h
  canAppend builder other := by
    show (decide _ && decide _) = true ↔ _
    rw [Bool.and_eq_true, decide_eq_true_iff, decide_eq_true_iff]
    rfl
  appendBuilder := builds_appendBuilder
  getNextInt slice n := Takes.map (takes_next slice n) natOf
  getNextBytes slice n := Takes.map (takes_next slice (8 * n)) bytesOf

theorem bits_whole (cell : Tree) : (Slice.whole cell).bits = cell.bits := by
  show (cell.bits.take cell.bits.length).drop 0 = cell.bits
  rw [List.take_length, List.drop_zero]

theorem refs_whole (cell : Tree) : (Slice.whole cell).refs = cell.refs := by
  show (cell.refs.take cell.refs.length).drop 0 = cell.refs
  rw [List.take_length, List.drop_zero]

theorem finalize_eq_ok {builder : Builder} {maxDepth : Nat} {cell : Tree}
    (h : builder.finalize maxDepth = .ok cell) : cell = .mk builder.type builder.bits builder.refs := by
  unfold Builder.finalize at h
  dsimp only at h
  split_ifs at h
  cases h
  rfl

/-- A window of a window. -/
theorem drop_take_window {α : Type} (l : List α) {lo hi start stop : Nat} (hle : start ≤ stop)
    (hstop : stop ≤ ((l.take hi).drop lo).length) :
    (l.take (lo + stop)).drop (lo + start) = (((l.take hi).drop lo).take stop).drop start := by
  rw [List.length_drop, List.length_take] at hstop
  rw [List.take_drop, List.drop_drop, List.take_take]
  by_cases hzero : stop = 0
  · obtain rfl : start = 0 := by omega
    rw [hzero, List.drop_eq_nil_of_le (by simp), List.drop_eq_nil_of_le (by simp)]
  · rw [min_eq_left (by omega)]

theorem shrinkData_of_le {slice : Slice} {start stop : Nat} (hle : start ≤ stop)
    (hstop : stop ≤ slice.bits.length) : slice.shrinkData start stop =
      { slice with start := slice.start + start, stop := slice.start + stop } := if_pos ⟨hle, hstop⟩

theorem bits_shrinkData (slice : Slice) {start stop : Nat} (hle : start ≤ stop)
    (hstop : stop ≤ slice.bits.length) :
    (slice.shrinkData start stop).bits = (slice.bits.take stop).drop start := by
  rw [shrinkData_of_le hle hstop]
  exact drop_take_window slice.cell.bits hle hstop

theorem refs_shrinkReferences (slice : Slice) {start stop : Nat} (hle : start ≤ stop)
    (hstop : stop ≤ slice.refs.length) :
    (slice.shrinkReferences start stop).refs = (slice.refs.take stop).drop start ∧
      (slice.shrinkReferences start stop).bits = slice.bits := by
  have hshrink : slice.shrinkReferences start stop = { slice with
      refStart := slice.refStart + start, refStop := slice.refStart + stop } := if_pos ⟨hle, hstop⟩
  rw [hshrink]
  exact ⟨drop_take_window slice.cell.refs hle hstop, rfl⟩

theorem bits_shrinkDataFrom (slice : Slice) (n : Nat) (h : n ≤ slice.bits.length) :
    sliceBits (shrinkDataFrom slice n) = slice.bits.drop n := by
  have hbits : (slice.shrinkData n slice.bits.length).bits =
      (slice.bits.take slice.bits.length).drop n := bits_shrinkData slice h le_rfl
  rw [List.take_length] at hbits
  exact hbits

scoped instance lawfulSlices : LawfulSlices where
  remainingBits _ := rfl
  remainingReferences _ := rfl
  sliceReference slice index cell h := by
    show Slice.reference slice index = .ok cell
    unfold Slice.reference
    rw [show (Slice.refs slice)[index]? = some cell from h]
  sliceIsEmpty slice h := by
    have hrefs : Slice.refs slice = [] := h
    show (decide ((Slice.bits slice).length = 0) && decide ((Slice.refs slice).length = 0)) = true ↔
      Slice.bits slice = []
    simp [hrefs]
  shrinkDataTo slice n h := bits_shrinkData slice (Nat.zero_le n) h
  shrinkReferencesTo slice := by
    obtain ⟨hrefs, hbits⟩ := refs_shrinkReferences slice le_rfl (Nat.zero_le _)
    exact ⟨hbits, hrefs⟩

end Plain

end TonVm
