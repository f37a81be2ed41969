import TonVm.Utils
import TonVm.Proof.CellLoads
import TonVm.Proof.Consumers
import TonVm.Proof.Views

/-!
# Byte strings survive packing

The cells that the packer makes are a chain that holds the bytes in their order, 127 in each cell but
the last. The unpacker follows the chain from its first cell. Both ask a gas consumer for the cells, and
the result holds for any consumer that loads what it has finalized.
-/

namespace TonVm

open ExecLib

section Laws

variable [TonTypes] [Views]

/-- The laws of the methods that pack and unpack bytes. -/
class LawfulPacking : Prop where
  bitsUsed : ∀ builder, TonTypes.bitsUsed builder = (builderBits builder).length
  checkedAppendReference : ∀ builder cell,
    Builds ((builderRefs builder).length + 1 ≤ 4) (TonTypes.checkedAppendReference builder cell)
      (builderBits builder) (builderRefs builder ++ [cell])
  getBytestring : ∀ slice, getBytestring slice = Plain.bytesOf (sliceBits slice)

/-- A builder that is put together by appending. -/
inductive Assembled : BuilderData → Prop
  | builderDefault : Assembled TonTypes.builderDefault
  | appendBits {builder builder' : BuilderData} {value n : Nat} (h : Assembled builder)
      (happend : TonTypes.appendBits builder value n = .ok builder') : Assembled builder'
  | appendBuilder {builder builder' other : BuilderData} (h : Assembled builder)
      (happend : TonTypes.appendBuilder builder other = .ok builder') : Assembled builder'
  | appendRaw {builder builder' : BuilderData} {bytes : List UInt8} {n : Nat}
      (h : Assembled builder) (happend : TonTypes.appendRaw builder bytes n = .ok builder') :
      Assembled builder'
  | checkedAppendReference {builder builder' : BuilderData} {cell : Cell} (h : Assembled builder)
      (happend : TonTypes.checkedAppendReference builder cell = .ok builder') : Assembled builder'

/-- The consumer loads the cells it has finalized from such builders with what they held. -/
def Lossless (consumer : Consumer) : Prop :=
  ∀ builder cell slice, Assembled builder → consumer.Finalizes builder cell →
    consumer.Loads cell slice →
    sliceBits slice = builderBits builder ∧ sliceRefs slice = builderRefs builder

/-- What becomes of such builders when they are finalized. -/
class LawfulFinalize : Prop where
  ordinary : ∀ builder cell, Assembled builder → TonTypes.finalize builder 1024 = .ok cell →
    TonTypes.cellType cell = .ordinary
  loadCell : ∀ builder cell, Assembled builder → TonTypes.finalize builder 1024 = .ok cell →
    ∃ slice, TonTypes.loadCell cell = .ok slice ∧ sliceBits slice = builderBits builder ∧
      sliceRefs slice = builderRefs builder

/-- The engine loads the cells as they were finalized. -/
theorem lossless_engine [LawfulFinalize] : Lossless Engine.consumer := by
  rintro builder cell slice hassembled ⟨e, t, hcell⟩ ⟨e', t', hslice⟩
  obtain ⟨hfinal, -⟩ := Engine.exec_finalizeCell_eq_ok hcell
  have htype := LawfulFinalize.ordinary builder cell hassembled hfinal
  obtain ⟨hops, final, s, hwalks, -⟩ := Engine.loads_of_exec hslice
  obtain ⟨slice', hload', hcontent⟩ := LawfulFinalize.loadCell builder cell hassembled hfinal
  cases hwalks with
  | ordinary _ _ hload =>
    rw [hload] at hload'
    cases hload'
    exact hcontent
  | cached hne => exact absurd htype hne
  | hop hne => exact absurd htype hne

end Laws

/-! ### Chunks -/

@[simp]
theorem chunks_nil : chunks 127 [] = [] := rfl

theorem chunks_of_ne_nil {bytes : List UInt8} (h : bytes ≠ []) :
    chunks 127 bytes = bytes.take 127 :: chunks 127 (bytes.drop 127) := by
  have hpos := List.length_pos_of_ne_nil h
  have hcount : (bytes.length + 127 - 1) / 127 = (bytes.length - 127 + 127 - 1) / 127 + 1 := by omega
  unfold chunks
  rw [hcount, List.length_drop, List.range_succ_eq_map, List.map_cons, List.map_map, Nat.zero_mul,
    List.drop_zero]
  refine congrArg _ (List.map_congr_left fun i _ => ?_)
  rw [Function.comp_apply, List.drop_drop, Nat.succ_mul, Nat.add_comm 127]

section Chains

variable [TonTypes] [Views]

/-- A builder that starts a chain with some bytes: the last cell holds at most 127 of them and no
reference, a cell before it exactly 127 and the reference to the next one. -/
inductive Chain (consumer : Consumer) : BuilderData → List UInt8 → Prop
  | last {builder : BuilderData} {bytes : List UInt8} (hlen : bytes.length ≤ 127)
      (hbits : builderBits builder = Plain.ofBytes bytes) (hrefs : builderRefs builder = []) :
      Chain consumer builder bytes
  | link {builder next : BuilderData} {cell : Cell} {head rest : List UInt8}
      (hlen : head.length = 127) (hbits : builderBits builder = Plain.ofBytes head)
      (hrefs : builderRefs builder = [cell]) (hassembled : Assembled next)
      (hcell : consumer.Finalizes next cell) (hnext : Chain consumer next rest) :
      Chain consumer builder (head ++ rest)

variable [LawfulViews] [LawfulPacking] {consumer : Consumer}

omit [LawfulPacking] in
/-- What a chunk is appended to is empty. -/
theorem appendRaw_chunk {builder builder' : BuilderData} {bytes : List UInt8}
    (hempty : builderBits builder = [])
    (h : TonTypes.appendRaw builder bytes (bytes.length * 8) = .ok builder') :
    builderBits builder' = Plain.ofBytes bytes ∧ builderRefs builder' = builderRefs builder := by
  have hbuilds := LawfulViews.appendRaw builder bytes (bytes.length * 8) (Nat.mul_comm _ _).le
  refine ⟨?_, hbuilds.refs builder' h⟩
  rw [hbuilds.bits builder' h, hempty, List.nil_append, Nat.mul_comm, ← Plain.length_ofBytes,
    List.take_length]

omit [LawfulViews] [LawfulPacking] in
/-- A chain begins with an empty builder only if there are no bytes, and it is then its only one. -/
theorem Chain.nil_iff {builder : BuilderData} {bytes : List UInt8} (h : Chain consumer builder bytes) :
    (builderBits builder = [] ↔ bytes = []) ∧ (bytes = [] → builderRefs builder = []) := by
  cases h with
  | last hlen hbits hrefs =>
    rw [hbits, ← List.length_eq_zero_iff, Plain.length_ofBytes]
    simp [hrefs]
  | @link _ _ _ head rest hlen hbits hrefs =>
    have hne : head ≠ [] := by
      rintro rfl
      cases hlen
    rw [hbits, ← List.length_eq_zero_iff, Plain.length_ofBytes, hlen]
    simp [hne]

theorem chain_packChunks {bytes : List UInt8} {builder : BuilderData}
    (h : (packChunks (chunks 127 bytes)).Yields consumer builder) :
    Assembled builder ∧ Chain consumer builder bytes := by
  induction hn : bytes.length using Nat.strong_induction_on generalizing bytes builder with
  | _ n ih =>
    subst hn
    by_cases hempty : bytes = []
    · subst hempty
      obtain rfl : TonTypes.builderDefault = builder := h
      obtain ⟨hbits, hrefs⟩ := LawfulViews.builderDefault
      exact ⟨.builderDefault, .last (Nat.zero_le _) hbits hrefs⟩
    · rw [chunks_of_ne_nil hempty, packChunks, GasMOf.yields_bind] at h
      obtain ⟨next, hnext, h⟩ := h
      have hpos := List.length_pos_of_ne_nil hempty
      obtain ⟨hassembled, hchain⟩ := ih _ (by rw [List.length_drop]; omega) hnext rfl
      have hsplit := List.take_append_drop 127 bytes
      rw [LawfulPacking.bitsUsed] at h
      by_cases hused : builderBits next = []
      · -- the last chunk
        rw [if_neg (not_not.2 (List.length_eq_zero_iff.2 hused)), GasMOf.yields_liftM] at h
        have hrest := hchain.nil_iff.1.1 hused
        have hrefs := hchain.nil_iff.2 hrest
        obtain ⟨hbits, hkept⟩ := appendRaw_chunk hused h
        rw [hrest, List.append_nil] at hsplit
        rw [hsplit] at hbits
        rw [List.drop_eq_nil_iff] at hrest
        exact ⟨hassembled.appendRaw h, .last hrest hbits (hkept.trans hrefs)⟩
      · -- a chunk before the cells that are made already
        rw [if_pos fun hzero => hused (List.length_eq_zero_iff.1 hzero), GasMOf.yields_bind] at h
        obtain ⟨cell, hcell, h⟩ := h
        rw [GasMOf.yields_bind] at h
        obtain ⟨newCell, hnew, h⟩ := h
        rw [GasMOf.yields_liftM] at hnew h
        rw [GasM.yields_finalize] at hcell
        have hbuilds := LawfulPacking.checkedAppendReference TonTypes.builderDefault cell
        obtain ⟨hbits, hkept⟩ :=
          appendRaw_chunk ((hbuilds.bits newCell hnew).trans LawfulViews.builderDefault.1) h
        rw [hbuilds.refs newCell hnew, LawfulViews.builderDefault.2, List.nil_append] at hkept
        have hlen : (bytes.take 127).length = 127 := by
          have := List.length_pos_of_ne_nil fun hrest => hused (hchain.nil_iff.1.2 hrest)
          rw [List.length_drop] at this
          rw [List.length_take]
          omega
        refine ⟨(Assembled.builderDefault.checkedAppendReference hnew).appendRaw h, ?_⟩
        rw [← hsplit]
        exact .link hlen hbits hkept hassembled hcell hchain

/-! ### Unpacking -/

section Passes

variable [LawfulSlices] {slice : SliceData} {bytes : List UInt8}
  (hbits : sliceBits slice = Plain.ofBytes bytes)

omit [LawfulViews] [LawfulPacking] in
include hbits in
theorem remainingBits_whole : TonTypes.remainingBits slice % 8 = 0 := by
  rw [LawfulSlices.remainingBits, hbits, Plain.length_ofBytes]
  exact Nat.mul_mod_right 8 _

omit [LawfulViews] in
include hbits in
theorem unpackLoop_last (hrefs : sliceRefs slice = []) (fuel : Nat) (data : List UInt8) :
    unpackLoop (fuel + 1) slice data = pure (some (data ++ bytes)) := by
  rw [unpackLoop, if_neg (not_not.2 (remainingBits_whole hbits)), LawfulPacking.getBytestring, hbits,
    Plain.bytesOf_ofBytes, LawfulSlices.remainingReferences, hrefs]
  rfl

omit [LawfulViews] in
include hbits in
theorem unpackLoop_link {cell : Cell} (hrefs : sliceRefs slice = [cell]) (fuel : Nat)
    (data : List UInt8) :
    unpackLoop (fuel + 1) slice data =
      .loadCell cell fun slice => unpackLoop fuel slice (data ++ bytes) := by
  have hreference : TonTypes.sliceReference slice 0 = .ok cell :=
    LawfulSlices.sliceReference slice 0 cell (by rw [hrefs]; rfl)
  rw [unpackLoop, if_neg (not_not.2 (remainingBits_whole hbits)), LawfulPacking.getBytestring, hbits,
    Plain.bytesOf_ofBytes, LawfulSlices.remainingReferences, hrefs, hreference]
  rfl

end Passes

omit [LawfulViews] in
theorem returns_unpackLoop [LawfulSlices] (hlossless : Lossless consumer) {builder : BuilderData}
    {bytes : List UInt8} (h : Chain consumer builder bytes) (hassembled : Assembled builder)
    {cell : Cell} (hcell : consumer.Finalizes builder cell) {slice : SliceData}
    (hslice : consumer.Loads cell slice) {fuel : Nat} (hfuel : bytes.length / 127 < fuel)
    (data : List UInt8) :
    (unpackLoop fuel slice data).Returns consumer (· = some (data ++ bytes)) := by
  obtain ⟨fuel, rfl⟩ := Nat.exists_eq_add_one_of_ne_zero (Nat.ne_zero_of_lt hfuel)
  induction h generalizing cell slice fuel data with
  | last hlen hbits hrefs =>
    obtain ⟨hcontent, hcontent'⟩ := hlossless _ _ _ hassembled hcell hslice
    rw [unpackLoop_last (hcontent.trans hbits) (hcontent'.trans hrefs)]
    rfl
  | @link builder next cell' head rest hlen hbits hrefs hnext hcell' hchain ih =>
    obtain ⟨hcontent, hcontent'⟩ := hlossless _ _ _ hassembled hcell hslice
    have hrest : rest.length / 127 < fuel := by
      rw [List.length_append, hlen] at hfuel
      omega
    obtain ⟨fuel, rfl⟩ := Nat.exists_eq_add_one_of_ne_zero (Nat.ne_zero_of_lt hrest)
    rw [unpackLoop_link (hcontent.trans hbits) (hcontent'.trans hrefs), ← List.append_assoc]
    intro slice' hslice'
    exact ih hnext hcell' hslice' (data ++ head) fuel hrest

/-- What was packed is a chain of cells, and unpacking it gives the bytes back. -/
theorem unpacks_packed_data [LawfulSlices] (hlossless : Lossless consumer) {bytes : List UInt8}
    {cell : Cell} (hpack : (packDataToCell bytes).Yields consumer cell) :
    (∃ builder, consumer.Finalizes builder cell ∧ Chain consumer builder bytes) ∧
    ∀ slice, consumer.Loads cell slice → ∀ fuel, bytes.length / 127 < fuel →
      (unpackDataFromCell fuel slice).Returns consumer (· = some bytes) := by
  rw [packDataToCell, GasMOf.yields_bind] at hpack
  obtain ⟨builder, hbuilder, hcell⟩ := hpack
  rw [GasM.yields_finalize] at hcell
  obtain ⟨hassembled, hchain⟩ := chain_packChunks hbuilder
  refine ⟨⟨builder, hcell, hchain⟩, fun slice hslice fuel hfuel => ?_⟩
  exact returns_unpackLoop hlossless hchain hassembled hcell hslice hfuel []

end Chains

/-! ### The plain implementation -/

namespace Plain

open scoped TonVm.Plain

scoped instance lawfulPacking : LawfulPacking where
  bitsUsed _ := rfl
  checkedAppendReference builder cell := builds_appendRefs builder [cell]
  getBytestring _ := rfl

theorem type_appendBits {builder builder' : Builder} {bits : List Bool}
    (h : builder.appendBits bits = .ok builder') : builder'.type = builder.type := by
  unfold Builder.appendBits at h
  split at h
  · cases h
    rfl
  · cases h

theorem type_appendRefs {builder builder' : Builder} {refs : List Tree}
    (h : builder.appendRefs refs = .ok builder') : builder'.type = builder.type := by
  unfold Builder.appendRefs at h
  split at h
  · cases h
    rfl
  · cases h

theorem ordinary_of_assembled {builder : BuilderData} (h : Assembled builder) :
    Builder.type builder = .ordinary := by
  induction h with
  | builderDefault => rfl
  | appendBits _ happend ih => exact (type_appendBits happend).trans ih
  | appendBuilder _ happend ih =>
    obtain ⟨both, hboth, hrefs⟩ := bind_eq_ok happend
    exact (type_appendRefs hrefs).trans ((type_appendBits hboth).trans ih)
  | appendRaw _ happend ih => exact (type_appendBits happend).trans ih
  | checkedAppendReference _ happend ih => exact (type_appendRefs happend).trans ih

scoped instance lawfulFinalize : LawfulFinalize where
  ordinary builder cell h hcell := by
    rw [finalize_eq_ok hcell]
    exact ordinary_of_assembled h
  loadCell builder cell h hcell := by
    have hcell : cell = .mk .ordinary (Builder.bits builder) (Builder.refs builder) := by
      rw [← ordinary_of_assembled h]
      exact finalize_eq_ok hcell
    subst hcell
    exact ⟨_, rfl, bits_whole _, refs_whole _⟩

end Plain

/-- Bytes that do not fit into one cell. -/
def manyBytes : List UInt8 := (List.range 200).map Nat.toUInt8

open scoped Plain in
/-- They are packed by an engine, into two cells, and unpacked. -/
theorem unpacks_packed_data_many :
    ∃ cell t, exec (Engine.runGas (packDataToCell manyBytes)) Plain.idle = (.ok cell, t) ∧
      ∀ slice, Engine.consumer.Loads cell slice →
        (unpackDataFromCell 2 slice).Returns Engine.consumer (· = some manyBytes) := by
  have hpack : (exec (Engine.runGas (packDataToCell manyBytes)) Plain.idle).1.isOk = true := by
    decide +kernel
  have hlength : manyBytes.length / 127 < 2 := by decide +kernel
  -- the bytes themselves no longer matter
  generalize manyBytes = bytes at hpack hlength ⊢
  rcases hcell : exec (Engine.runGas (packDataToCell bytes)) Plain.idle with ⟨_ | cell, t⟩
  · rw [hcell] at hpack
    cases hpack
  · refine ⟨cell, t, rfl, fun slice hslice => ?_⟩
    have hcells := unpacks_packed_data lossless_engine (Engine.yields_of_exec_runGas hcell)
    exact hcells.2 slice hslice 2 hlength

end TonVm
