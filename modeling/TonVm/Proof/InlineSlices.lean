import TonVm.Lib.Concludes
import TonVm.Proof.EngineExec
import TonVm.Proof.Views
import TonVm.Executor.Decode

/-!
# Slices inside the code

`extract_slice` reads two counts after the opcode and takes that many references and bytes out of the
code. Where it stops is the end of a byte of the instruction, so the slice also gets the bits that
fill the last byte of the header.
-/

namespace TonVm

open ExecLib

section Laws

variable [TonTypes] [Views]

/-- The laws of the methods that read counts from the code and narrow it. -/
class LawfulWindows : Prop where
  remainingBits : ∀ slice, TonTypes.remainingBits slice = (sliceBits slice).length
  remainingReferences : ∀ slice, TonTypes.remainingReferences slice = (sliceRefs slice).length
  getNextInt : ∀ slice n value rest, TonTypes.getNextInt slice n = .ok (value, rest) →
    n ≤ (sliceBits slice).length ∧ value = Plain.natOf ((sliceBits slice).take n) ∧
      sliceBits rest = (sliceBits slice).drop n ∧ sliceRefs rest = sliceRefs slice
  shrinkData : ∀ slice start stop, start ≤ stop → stop ≤ (sliceBits slice).length →
    sliceBits (TonTypes.shrinkData slice start stop) = ((sliceBits slice).take stop).drop start ∧
      sliceRefs (TonTypes.shrinkData slice start stop) = sliceRefs slice
  shrinkReferences : ∀ slice start stop, start ≤ stop → stop ≤ (sliceRefs slice).length →
    sliceRefs (TonTypes.shrinkReferences slice start stop) =
        ((sliceRefs slice).take stop).drop start ∧
      sliceBits (TonTypes.shrinkReferences slice start stop) = sliceBits slice

end Laws

section Extracting

variable [TonTypes] [Views] [LawfulWindows]

/-! ### Narrowing -/

theorem shrinkDataFrom_spec {slice : SliceData} {n : Nat} (h : n ≤ (sliceBits slice).length) :
    sliceBits (shrinkDataFrom slice n) = (sliceBits slice).drop n ∧
      sliceRefs (shrinkDataFrom slice n) = sliceRefs slice := by
  have hshrink := LawfulWindows.shrinkData slice n (sliceBits slice).length h le_rfl
  rwa [List.take_length, ← LawfulWindows.remainingBits] at hshrink

theorem shrinkReferencesFrom_spec {slice : SliceData} {n : Nat} (h : n ≤ (sliceRefs slice).length) :
    sliceRefs (shrinkReferencesFrom slice n) = (sliceRefs slice).drop n ∧
      sliceBits (shrinkReferencesFrom slice n) = sliceBits slice := by
  have hshrink := LawfulWindows.shrinkReferences slice n (sliceRefs slice).length h le_rfl
  rwa [List.take_length, ← LawfulWindows.remainingReferences] at hshrink

/-! ### The counts in the header -/

/-- A field of `width` bits at a position, as a number. -/
def fieldAt (bits : List Bool) (position width : Nat) : Nat :=
  Plain.natOf ((bits.drop position).take width)

/-- What an inline slice is: `shift` bits of the code after the start of the command are consumed, up to
the end of a byte, and the slice has those after the header. -/
structure Extracts (code : SliceData) (offset r x refs bytes shift : Nat) (out rest : SliceData) :
    Prop where
  greatest : IsGreatest {m | 8 ∣ m ∧
    m ≤ 8 * (bytes + fieldAt (sliceBits code) (offset + r) x) + offset + r + x + 7} shift
  header : offset + r + x ≤ shift
  within : shift ≤ (sliceBits code).length
  withinRefs : refs + fieldAt (sliceBits code) offset r ≤ (sliceRefs code).length
  restBits : sliceBits rest = (sliceBits code).drop shift
  restRefs : sliceRefs rest = (sliceRefs code).drop (refs + fieldAt (sliceBits code) offset r)
  outBits : sliceBits out = ((sliceBits code).take shift).drop (offset + r + x)
  outRefs : sliceRefs out = (sliceRefs code).take (refs + fieldAt (sliceBits code) offset r)

omit [TonTypes] [Views] [LawfulWindows] in
theorem isGreatest_sub_mod (n : Nat) : IsGreatest {m | 8 ∣ m ∧ m ≤ n} (n - n % 8) := by
  constructor
  · exact ⟨Nat.dvd_sub_mod n, Nat.sub_le _ _⟩
  · rintro m ⟨⟨k, rfl⟩, hle⟩
    omega

namespace Engine

variable {e : Engine}

omit [Views] [LawfulWindows] in
theorem concludes_lift {α : Type} (x : Except Failure α) :
    Concludes (fun _ t => t = e) (fun a t => t = e ∧ x = .ok a) (lift x) e := by
  cases x with
  | error failure => exact .of_error rfl rfl
  | ok a => exact .of_ok rfl ⟨rfl, rfl⟩

omit [Views] [LawfulWindows] in
theorem concludes_cmdCodeSlice : Concludes (fun _ t => t = e)
    (fun code t => t = e ∧ exec cmdCodeSlice e = (.ok code, e)) cmdCodeSlice e := by
  have hstate : Concludes (fun _ t => t = e) (fun _ t => t = e) cmdCodeSlice e := by
    unfold cmdCodeSlice
    refine .of_exec ?_ (exec_bind_get _ _)
    refine .bind (concludes_lift _) ?_
    rintro code t ⟨rfl, -⟩
    exact .pure rfl
  refine ⟨fun {code t} hcode => ?_, hstate.error⟩
  obtain rfl := hstate.ok hcode
  exact ⟨rfl, hcode⟩

/-- Reading a count: where nothing fails, the field is there. -/
theorem concludes_readCount (slice : SliceData) (width : Nat) :
    Concludes (fun _ t => t = e) (fun read t => t = e ∧ width ≤ (sliceBits slice).length ∧
      read.1 = fieldAt (sliceBits slice) 0 width ∧ sliceBits read.2 = (sliceBits slice).drop width ∧
      sliceRefs read.2 = sliceRefs slice) (readCount slice width) e := by
  unfold readCount
  refine .ite (fun _ => ?_) fun hzero => ?_
  · refine (concludes_lift _).mono (fun _ _ h => h) ?_
    rintro ⟨count, rest⟩ t ⟨rfl, hread⟩
    exact ⟨rfl, LawfulWindows.getNextInt slice width count rest hread⟩
  · obtain rfl : width = 0 := not_not.1 hzero
    exact .pure ⟨rfl, Nat.zero_le _, rfl, rfl, rfl⟩

/-- The cuts, once the counts are read: `slice` is the code after the header. -/
theorem extracts_of_counts {code slice : SliceData} {offset r x refs bytes moreRefs moreBytes : Nat}
    (hheader : offset + r + x ≤ (sliceBits code).length)
    (hrefs : moreRefs = fieldAt (sliceBits code) offset r)
    (hbytes : moreBytes = fieldAt (sliceBits code) (offset + r) x)
    (hbits : sliceBits slice = (sliceBits code).drop (offset + r + x))
    (hkept : sliceRefs slice = sliceRefs code) {shift : Nat}
    (hshift : shift = 8 * (bytes + moreBytes) + offset + r + x + 7 -
      (8 * (bytes + moreBytes) + offset + r + x + 7) % 8)
    (hroom : ¬((sliceBits slice).length < shift - r - x - offset ∨
      (sliceRefs slice).length < refs + moreRefs)) :
    Extracts code offset r x refs bytes shift
      (shrinkReferencesTo (shrinkDataTo slice (shift - r - x - offset)) (refs + moreRefs))
      (shrinkReferencesFrom (shrinkDataFrom code shift) (refs + moreRefs)) := by
  subst hrefs hbytes
  have hgreatest := isGreatest_sub_mod
    (8 * (bytes + fieldAt (sliceBits code) (offset + r) x) + offset + r + x + 7)
  rw [← hshift] at hgreatest
  have hpast : offset + r + x ≤ shift := by omega
  have hlength : shift - r - x - offset = shift - (offset + r + x) := by omega
  rw [hlength] at *
  obtain ⟨hfits, hfitsRefs⟩ := not_or.1 hroom
  rw [hbits, List.length_drop] at hfits
  have hinside : shift ≤ (sliceBits code).length := by omega
  obtain ⟨hcodeBits, hcodeRefs⟩ := shrinkDataFrom_spec hinside
  have hinsideRefs : refs + fieldAt (sliceBits code) offset r ≤
      (sliceRefs (shrinkDataFrom code shift)).length := by
    rw [hcodeRefs, ← hkept]
    omega
  obtain ⟨hrestRefs, hrestBits⟩ := shrinkReferencesFrom_spec hinsideRefs
  obtain ⟨hcutBits, hcutRefs⟩ := LawfulWindows.shrinkData slice 0 (shift - (offset + r + x))
    (Nat.zero_le _) (by rw [hbits, List.length_drop]; omega)
  obtain ⟨houtRefs, houtBits⟩ := LawfulWindows.shrinkReferences
    (shrinkDataTo slice (shift - (offset + r + x))) 0 (refs + fieldAt (sliceBits code) offset r)
    (Nat.zero_le _) (by rw [shrinkDataTo, hcutRefs]; omega)
  refine ⟨hgreatest, hpast, hinside, by rw [← hkept]; omega, hrestBits.trans hcodeBits, ?_, ?_, ?_⟩
  · rw [hrestRefs, hcodeRefs]
  · refine houtBits.trans (hcutBits.trans ?_)
    rw [hbits, List.drop_zero, List.take_drop, Nat.add_sub_cancel' hpast]
  · refine houtRefs.trans ?_
    rw [shrinkDataTo, hcutRefs, hkept, List.drop_zero]

/-- How `extract_slice` ends. -/
theorem concludes_extractSlice (offset r x refs bytes : Nat) :
    Concludes (fun _ t => t = e) (fun out t => ∃ code shift rest,
      exec cmdCodeSlice e = (.ok code, e) ∧ t = { e with cc.code := rest } ∧
      Extracts code offset r x refs bytes shift out rest) (extractSlice offset r x refs bytes) e := by
  unfold extractSlice
  refine .bind concludes_cmdCodeSlice ?_
  rintro code t ⟨rfl, hcode⟩
  refine .ite (fun _ => .of_error rfl rfl) fun hoffset => ?_
  rw [LawfulWindows.remainingBits] at hoffset
  have hinside : offset ≤ (sliceBits code).length := by omega
  obtain ⟨hafter, hafterRefs⟩ := shrinkDataFrom_spec hinside
  refine .bind (concludes_readCount _ r) ?_
  rintro ⟨moreRefs, slice⟩ t ⟨rfl, hr, hcount, hslice, hsliceRefs⟩
  refine .bind (concludes_readCount slice x) ?_
  rintro ⟨moreBytes, slice'⟩ t ⟨rfl, hx, hcount', hslice', hsliceRefs'⟩
  refine .ite (fun _ => .of_error rfl rfl) fun hroom => ?_
  rw [LawfulWindows.remainingBits, LawfulWindows.remainingReferences] at hroom
  refine .of_ok rfl ⟨code, _, _, hcode, rfl, extracts_of_counts ?_ ?_ ?_ ?_ ?_ rfl hroom⟩
  · rw [hafter, List.length_drop] at hr
    rw [hslice, hafter, List.length_drop, List.length_drop] at hx
    omega
  · rw [hafter] at hcount
    exact hcount
  · rw [hslice, hafter, List.drop_drop] at hcount'
    exact hcount'
  · rw [hslice', hslice, hafter, List.drop_drop, List.drop_drop, Nat.add_assoc]
  · rw [hsliceRefs', hsliceRefs, hafterRefs]

/-- An inline slice ends at the end of a byte and its code continues there; where there is none,
nothing is changed. The code of the command is the window that was recorded at its start. -/
theorem extracts_inline_slice (e : Engine) (offset r x refs bytes : Nat) :
    (∀ out t, exec (extractSlice offset r x refs bytes) e = (.ok out, t) →
      ∃ code shift rest, exec cmdCodeSlice e = (.ok code, e) ∧ t = { e with cc.code := rest } ∧
        Extracts code offset r x refs bytes shift out rest) ∧
    (∀ err t, exec (extractSlice offset r x refs bytes) e = (.error err, t) → t = e) ∧
    ∀ cell whole, TonTypes.cellOpt e.cc.code = some cell → TonTypes.loadCell cell = .ok whole →
      e.cmdCode.dataStart ≤ e.cmdCode.dataEnd → e.cmdCode.dataEnd ≤ (sliceBits whole).length →
      e.cmdCode.refsStart ≤ e.cmdCode.refsEnd → e.cmdCode.refsEnd ≤ (sliceRefs whole).length →
      ∃ code, exec cmdCodeSlice e = (.ok code, e) ∧
        sliceBits code = ((sliceBits whole).take e.cmdCode.dataEnd).drop e.cmdCode.dataStart ∧
        sliceRefs code = ((sliceRefs whole).take e.cmdCode.refsEnd).drop e.cmdCode.refsStart := by
  have hends := concludes_extractSlice (e := e) offset r x refs bytes
  refine ⟨fun out t h => hends.ok h, fun err t h => hends.error h,
    fun cell whole hcell hload hdata hdata' hrefs hrefs' => ?_⟩
  obtain ⟨hbits, hkept⟩ := LawfulWindows.shrinkData whole _ _ hdata hdata'
  obtain ⟨hrefsOut, hbitsOut⟩ := LawfulWindows.shrinkReferences
    (TonTypes.shrinkData whole e.cmdCode.dataStart e.cmdCode.dataEnd) _ _ hrefs (by rwa [hkept])
  refine ⟨_, ?_, hbitsOut.trans hbits, by rw [hrefsOut, hkept]⟩
  unfold cmdCodeSlice
  rw [exec_bind_get, hcell, Option.getD_some, hload, lift_ok, exec_bind_pure]
  rfl

end Engine

end Extracting

/-! ### The plain implementation -/

namespace Plain

open scoped TonVm.Plain

scoped instance lawfulWindows : LawfulWindows where
  remainingBits _ := rfl
  remainingReferences _ := rfl
  getNextInt slice n value rest h := by
    by_cases hn : n ≤ (Slice.bits slice).length
    · obtain ⟨rest', hread, hbits, hrefs⟩ := LawfulViews.getNextInt (slice : SliceData) n hn
      cases hread.symm.trans h
      exact ⟨hn, rfl, hbits, hrefs⟩
    · have hnext : Slice.next slice n = .error (.code .cellUnderflow) := if_neg hn
      have hread : TonTypes.getNextInt (slice : SliceData) n = .error (.code .cellUnderflow) := by
        show (do
          let (bits, slice) ← Slice.next slice n
          return (natOf bits, slice)) = _
        rw [hnext]
        rfl
      cases hread.symm.trans h
  shrinkData slice start stop hle hstop := by
    refine ⟨bits_shrinkData slice hle hstop, ?_⟩
    show Slice.refs (Slice.shrinkData slice start stop) = Slice.refs slice
    rw [shrinkData_of_le hle hstop]
    rfl
  shrinkReferences slice start stop hle hstop := refs_shrinkReferences slice hle hstop

/-- An engine at an instruction whose half byte `1` announces a byte of data. -/
def announcing : Engine :=
  { idle with
    cc.code := code [0x41, 0xAB]
    cmdCode := { dataEnd := 16 } }

end Plain

open scoped Plain in
theorem extracts_inline_slice_byte :
    ∃ out t, exec (Engine.extractSlice 4 0 4 0 0) Plain.announcing = (.ok out, t) ∧
      Plain.Slice.bits out = Plain.ofBytes [0xAB] ∧
      ∃ code shift rest, exec Engine.cmdCodeSlice Plain.announcing = (.ok code, Plain.announcing) ∧
        t = { Plain.announcing with cc.code := rest } ∧ Extracts code 4 0 4 0 0 shift out rest :=
  ⟨_, _, rfl, by decide, (Engine.extracts_inline_slice Plain.announcing 4 0 4 0 0).1 _ _ rfl⟩

end TonVm
