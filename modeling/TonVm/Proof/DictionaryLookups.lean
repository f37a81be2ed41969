import TonVm.Proof.DictionaryStore

/-!
# Looking up a key

`DICTGET` and `DICTGETOPTREF` with their three kinds of keys are one routine with a mask. A dictionary
is a map, and every slice that is long enough and every integer should be answered from it: an integer
that no key stands for is not in the map. The routine reads the key first, and an integer that has none
is an exception. A key of no bits is not looked up at all, and `DICTGETOPTREF` then pushes nothing.
-/

namespace TonVm

open ExecLib FiniteMap

/-- The laws of reading a value, where the reading returns, and of the keys that are read for it. -/
class LawfulLookups [TonTypes] [Views] [DictView] : Prop where
  loadBitstring : ∀ builder slice, builderRefs builder = [] →
    TonTypes.loadBitstring builder = .ok slice → sliceRefs slice = []
  getWithGas : ∀ (dict : HashmapE) (key : SliceData), IsDict dict →
    (sliceBits key).length = dict.bitLen → Engine.Ensures (TonTypes.getWithGas dict key)
      fun found => found = lookup (dictEntries dict) (sliceBits key)

/-- The map of a dictionary from integers is its map from keys. -/
theorem dictMap_keyValue [TonTypes] [DictView] {signed : Bool} {dict : HashmapE}
    (hdict : IsDict dict) {bits : List Bool} (hlen : bits.length = dict.bitLen) :
    dictMap signed dict (keyValue signed bits) = lookup (dictEntries dict) bits := by
  unfold dictMap lookup
  congr 1
  apply List.find?_congr
  intro entry hentry
  have hlength := (hdict.length entry hentry).trans hlen.symm
  exact decide_eq_decide.2 ⟨keyValue_injective hlength, fun heq => by rw [heq]⟩

namespace Engine

open DictMask

/-! ### The instructions -/

/-- A mask that reads a value and neither sets nor deletes it. -/
structure IsLookup (how : UInt8) (ret : Bool) : Prop where
  set : UInt8.bit how SET = false
  invCnv : UInt8.any how (INV ||| CNV) = false
  inv : UInt8.bit how INV = false
  change : UInt8.any how (SET ||| DEL) = false
  get : UInt8.bit how GET = true
  ret : UInt8.bit how RET = ret

inductive LookupKind where
  | get
  | getOptRef

def LookupKind.mask : LookupKind → UInt8
  | get => GET ||| RET
  | getOptRef => GET

/-- Whether the instruction says that it has found a value. -/
def LookupKind.returns : LookupKind → Bool
  | get => true
  | getOptRef => false

theorem LookupKind.isLookup (kind : LookupKind) : IsLookup kind.mask kind.returns := by
  cases kind <;> constructor <;> decide

section Lookups

variable [TonTypes]

/-- A key as the instructions take it. -/
inductive LookupKey where
  | slice (key : SliceData)
  | integer (signed : Bool) (value : Int)

namespace LookupKey

def item : LookupKey → StackItem
  | slice key => .slice key
  | integer _ value => .int value

def reader : LookupKey → KeyReader
  | slice _ => keyreaderFromSlice
  | integer true _ => keyreaderFromInt
  | integer false _ => keyreaderFromUint

/-- What a dictionary has for a key. -/
def found [Views] [DictView] (dict : HashmapE) : LookupKey → Option SliceData
  | slice key => lookup (dictEntries dict) ((sliceBits key).take dict.bitLen)
  | integer signed value => dictMap signed dict value

/-- A slice has enough bits for a key. -/
def HasBits [Views] (n : Nat) : LookupKey → Prop
  | slice key => n ≤ (sliceBits key).length
  | integer _ _ => True

/-- An integer stands for a key of a length. -/
def HasKey (n : Nat) : LookupKey → Prop
  | slice _ => True
  | integer true value => 1 ≤ n ∧ -2 ^ (n - 1) ≤ value ∧ value < 2 ^ (n - 1)
  | integer false value => 0 ≤ value ∧ value < 2 ^ n

end LookupKey

namespace LookupKind

def handler : LookupKind → LookupKey → M Unit
  | get, .slice _ => executeDictget
  | get, .integer true _ => executeDictiget
  | get, .integer false _ => executeDictuget
  | getOptRef, .slice _ => executeDictgetoptref
  | getOptRef, .integer true _ => executeDictigetoptref
  | getOptRef, .integer false _ => executeDictugetoptref

def accessor : LookupKind → ValAccessor
  | get => valreaderFromSlice
  | getOptRef => valreaderFromRefopt

/-- What is pushed for a value, which is one reference for `getOptRef`, or for none. -/
def results [Views] : LookupKind → Option SliceData → Stack
  | get, some value => [.slice value, .boolean true]
  | get, none => [.boolean false]
  | getOptRef, some value => (sliceRefs value).map .cell
  | getOptRef, none => [.none]

/-- What is pushed without looking a key up. -/
def skipped : LookupKind → Stack
  | get => [.boolean false]
  | getOptRef => []

/-- The values that a lookup is for. -/
def Accepts [Views] : LookupKind → SliceData → Prop
  | get, _ => True
  | getOptRef, value => sliceBits value = [] ∧ (sliceRefs value).length = 1

theorem handler_eq (kind : LookupKind) (key : LookupKey) :
    kind.handler key = dict key.reader kind.mask kind.accessor := by
  rcases key with _ | ⟨_ | _, _⟩ <;> cases kind <;> rfl

end LookupKind

/-- The state in which the key is looked up. -/
def asked (e : Engine) (key : LookupKey) (dict : HashmapE) : Engine :=
  e.afterLoad.holding e.cc e.ctrls [.int dict.bitLen, dictItem dict, key.item]

/-- The state with the operands of a lookup on the stack. -/
def asking (e : Engine) (key : LookupKey) (dict : HashmapE) : Engine :=
  e.given [key.item, dictItem dict, .int dict.bitLen]

/-- What is pushed for the value that an accessor returns. -/
def pushFound (ret : Bool) : Option StackItem → M Unit
  | none => if ret then push (.boolean false) else pure ()
  | some value => do
    push value
    if ret then push (.boolean true)

/-- The routine after its key has been read. -/
def answer (ret : Bool) (accessor : ValAccessor) (dict : HashmapE) (key : SliceData) : M Unit := do
  if TonTypes.sliceIsEmpty key then
    if ret then push (.boolean false)
  else
    pushFound ret (← accessor dict key).1

theorem dict_eq {how : UInt8} {ret : Bool} (h : IsLookup how ret) (reader : KeyReader)
    (accessor : ValAccessor) : dict reader how accessor = (do
      loadInstruction
      fetchStack 3
      let dict ← dictVar
      let key ← lift (reader (← var 2) dict.bitLen)
      answer ret accessor dict key) := by
  unfold dict answer
  simp only [h.set, h.invCnv, h.inv, h.change, h.get, h.ret, Bool.not_false, Bool.and_false,
    Bool.false_eq_true, if_false, if_true]
  rfl

theorem exec_handler_lookup (kind : LookupKind) (key : LookupKey) {dict : HashmapE}
    (hlen : dict.bitLen ≤ 1023) (e : Engine) :
    exec (kind.handler key) (e.asking key dict) = exec (do
      let slice ← lift (key.reader key.item dict.bitLen)
      answer kind.returns kind.accessor dict slice) (e.asked key dict) := by
  rw [kind.handler_eq, dict_eq kind.isLookup]
  refine (exec_load_fetchStack e [key.item, dictItem dict, .int dict.bitLen] _).trans ?_
  unfold dictVar indexVar
  simp only [bind_assoc, pure_bind]
  rw [exec_bind_ok (exec_var _ rfl), bind_bitLen hlen]
  rw [exec_bind_ok (exec_var _ rfl), asDict_dictItem, lift_ok, pure_bind]
  rw [exec_bind_ok (exec_var _ rfl)]
  rfl

/-! ### The answer -/

theorem exec_answer_empty (kind : LookupKind) (dict : HashmapE) {key : SliceData}
    (h : TonTypes.sliceIsEmpty key = true) (s : Engine) :
    exec (answer kind.returns kind.accessor dict key) s = (.ok (), s.given kind.skipped) := by
  unfold answer
  rw [if_pos h]
  cases kind with
  | get => rfl
  | getOptRef =>
    unfold given
    rw [LookupKind.skipped, List.append_nil]
    rfl

theorem exec_answer_error (kind : LookupKind) {dict : HashmapE} {key : SliceData}
    (h : ¬TonTypes.sliceIsEmpty key = true) {s t : Engine} {err : Error}
    (hget : exec (runGas (TonTypes.getWithGas dict key)) s = (.error err, t)) :
    exec (answer kind.returns kind.accessor dict key) s = (.error err, t) := by
  unfold answer
  rw [if_neg h]
  refine exec_bind_error ?_
  cases kind
  · exact exec_bind_error hget
  · exact exec_bind_error hget

theorem tryUnrefLeaf_eq [Views] [LawfulSlices] {value : SliceData}
    (h : LookupKind.getOptRef.Accepts value) :
    ∃ cell, sliceRefs value = [cell] ∧ tryUnrefLeaf value = .ok (.cell cell) := by
  obtain ⟨hbits, hrefs⟩ := h
  obtain ⟨cell, hcell⟩ := List.length_eq_one_iff.1 hrefs
  have hread := LawfulSlices.sliceReference value 0 cell (by rw [hcell]; rfl)
  refine ⟨cell, hcell, ?_⟩
  unfold tryUnrefLeaf
  rw [LawfulSlices.remainingBits, LawfulSlices.remainingReferences, hbits, hrefs,
    if_pos ⟨rfl, one_ne_zero⟩, hread]
  rfl

theorem exec_answer_ok [Views] [LawfulSlices] (kind : LookupKind) {dict : HashmapE} {key : SliceData}
    (h : ¬TonTypes.sliceIsEmpty key = true) {s t : Engine} {found : Option SliceData}
    (hget : exec (runGas (TonTypes.getWithGas dict key)) s = (.ok found, t))
    (hfound : ∀ value ∈ found, kind.Accepts value) :
    exec (answer kind.returns kind.accessor dict key) s = (.ok (), t.given (kind.results found)) := by
  unfold answer
  rw [if_neg h]
  cases kind with
  | get =>
    have hread : exec (LookupKind.get.accessor dict key) s = (.ok (found.map .slice, dict), t) :=
      exec_bind_ok hget
    rw [exec_bind_ok hread]
    cases found with
    | none => rfl
    | some value =>
      show exec (do push (.slice value); push (.boolean true)) t = _
      rw [exec_bind_ok (exec_push_given _), exec_push_given, given_given]
      rfl
  | getOptRef =>
    cases found with
    | none =>
      have hread : exec (LookupKind.getOptRef.accessor dict key) s = (.ok (some .none, dict), t) :=
        exec_bind_ok hget
      rw [exec_bind_ok hread]
      rfl
    | some value =>
      obtain ⟨cell, hrefs, hleaf⟩ := tryUnrefLeaf_eq (hfound value rfl)
      have hread : exec (LookupKind.getOptRef.accessor dict key) s =
          (.ok (some (.cell cell), dict), t) := by
        have hunref : unrefOrNull (some value) = .ok (some (.cell cell)) := by
          show (do return some (← tryUnrefLeaf value)) = _
          rw [hleaf]
          rfl
        refine (exec_bind_ok hget).trans ?_
        rw [hunref]
        rfl
      rw [exec_bind_ok hread, LookupKind.results, hrefs]
      rfl

theorem skipped_eq_results_iff [Views] (kind : LookupKind) {found : Option SliceData}
    (h : ∀ value ∈ found, kind.Accepts value) :
    kind.skipped = kind.results found ↔ kind = .get ∧ found = none := by
  rcases kind with _ | _ <;> rcases found with _ | value
  · exact iff_of_true rfl ⟨rfl, rfl⟩
  · exact iff_of_false nofun nofun
  · exact iff_of_false nofun nofun
  · refine iff_of_false (fun heq => ?_) nofun
    have hrefs := (h value rfl).2
    rw [List.map_eq_nil_iff.1 heq.symm] at hrefs
    cases hrefs

/-! ### The key -/

theorem found_mem [Views] [DictView] {key : LookupKey} {dict : HashmapE} {value : SliceData}
    (h : value ∈ key.found dict) : ∃ entry ∈ dictEntries dict, entry.2 = value := by
  rcases key with slice | ⟨signed, i⟩
  · obtain ⟨entry, hfind, rfl⟩ := Option.map_eq_some_iff.1 h
    exact ⟨entry, List.mem_of_find?_eq_some hfind, rfl⟩
  · obtain ⟨entry, hfind, rfl⟩ := Option.map_eq_some_iff.1 h
    exact ⟨entry, List.mem_of_find?_eq_some hfind, rfl⟩

theorem fits_iff_hasKey (signed : Bool) (n : Nat) (i : Int) :
    (keyEncoding signed).Fits n i ↔ (LookupKey.integer signed i).HasKey n := by
  cases signed with
  | false => exact Iff.rfl
  | true =>
    cases n with
    | zero => exact iff_of_false (Encoding.not_fits_zero rfl i) fun h => absurd h.1 (by decide)
    | succ n =>
      show bitsize i ≤ n + 1 ↔ 1 ≤ n + 1 ∧ -2 ^ n ≤ i ∧ i < 2 ^ n
      rw [bitsize_le_iff]
      exact (and_iff_right (Nat.le_add_left 1 n)).symm

/-- The readers of integers write those that are not refused by their sign. -/
theorem reader_integer {signed : Bool} {n : Nat} {i : Int} (h : signed = false → 0 ≤ i) :
    (LookupKey.integer signed i).reader (.int i) n =
      intAsSlice (.value i) (keyEncoding signed) n := by
  cases signed with
  | true => rfl
  | false =>
    have hneg : (IntegerData.value i).isNeg = false := decide_eq_false (not_lt.2 (h rfl))
    show (if (IntegerData.value i).isNan || (IntegerData.value i).isNeg then _ else _) = _
    rw [hneg]
    rfl

theorem reader_of_not_hasKey {key : LookupKey} {n : Nat} (h : ¬key.HasKey n) :
    ∃ failure, key.reader key.item n = .error failure := by
  rcases key with slice | ⟨signed, i⟩
  · exact absurd trivial h
  · by_cases hsign : signed = false → 0 ≤ i
    · obtain ⟨failure, herr⟩ := intAsSlice_of_not_fits ((fits_iff_hasKey signed n i).not.2 h)
      exact ⟨failure, (reader_integer hsign).trans herr⟩
    · rw [Classical.not_imp] at hsign
      obtain ⟨rfl, hneg⟩ := hsign
      refine ⟨.code .integerOverflow, ?_⟩
      have hneg : (IntegerData.value i).isNeg = true := decide_eq_true (not_le.1 hneg)
      show (if (IntegerData.value i).isNan || (IntegerData.value i).isNeg then _ else _) = _
      rw [hneg]
      rfl

section Laws

variable [Views] [DictView] [LawfulViews] [LawfulDicts] [LawfulSlices] [LawfulLookups]

/-- The key that is read is the one that stands for the operand. -/
theorem reader_of_hasKey {key : LookupKey} {dict : HashmapE} (hdict : IsDict dict)
    (hlen : dict.bitLen ≤ 1023) (hbits : key.HasBits dict.bitLen) (h : key.HasKey dict.bitLen) :
    ∃ slice, key.reader key.item dict.bitLen = .ok slice ∧ (sliceBits slice).length = dict.bitLen ∧
      sliceRefs slice = [] ∧ lookup (dictEntries dict) (sliceBits slice) = key.found dict := by
  rcases key with slice | ⟨signed, i⟩
  · have hbits : dict.bitLen ≤ (sliceBits slice).length := hbits
    obtain ⟨hkept, hrefs⟩ := LawfulSlices.shrinkReferencesTo (shrinkDataTo slice dict.bitLen)
    rw [LawfulSlices.shrinkDataTo slice _ hbits] at hkept
    refine ⟨_, ?_, ?_, hrefs, ?_⟩
    · show (if TonTypes.remainingBits slice < dict.bitLen then _ else _) = _
      rw [LawfulSlices.remainingBits, if_neg (not_lt.2 hbits)]
      rfl
    · rw [hkept, List.length_take, min_eq_left hbits]
    · rw [hkept]
      rfl
  · have hfits := (fits_iff_hasKey signed dict.bitLen i).2 h
    have hsign : signed = false → 0 ≤ i := by
      rintro rfl
      exact h.1
    obtain ⟨builder, hbuild, hbits, hrefs, hvalue⟩ := exists_asBuilder hlen hfits
    obtain ⟨slice, hload, hslice⟩ := LawfulDicts.loadBitstring builder
    have hlength : (sliceBits slice).length = dict.bitLen := by
      rw [hslice, hbits, Plain.length_bitsOf]
    refine ⟨slice, ?_, hlength, LawfulLookups.loadBitstring builder slice hrefs hload, ?_⟩
    · refine (reader_integer hsign).trans ?_
      unfold intAsSlice
      rw [hbuild]
      exact hload
    · rw [← dictMap_keyValue hdict hlength, hslice, hvalue]
      rfl

/-! ### Lookups -/

/-- A lookup leaves the answer in place of its operands, or fails as the package does when it looks
the key up. -/
def Resolves (kind : LookupKind) (key : LookupKey) (dict : HashmapE) (e : Engine) : Prop :=
  (∃ t, exec (kind.handler key) (e.asking key dict) = (.ok (), t) ∧
    t.cc.stack = e.cc.stack ++ kind.results (key.found dict)) ∨
  ∃ slice err t, key.reader key.item dict.bitLen = .ok slice ∧
    exec (runGas (TonTypes.getWithGas dict slice)) (e.asked key dict) = (.error err, t) ∧
    exec (kind.handler key) (e.asking key dict) = (.error err, t)

/-- A lookup whose key can be read: only a key of no bits is not looked up. -/
theorem resolves_of_hasKey (kind : LookupKind) {key : LookupKey} {dict : HashmapE}
    (hdict : IsDict dict) (hlen : dict.bitLen ≤ 1023) (hbits : key.HasBits dict.bitLen)
    (hkey : key.HasKey dict.bitLen) (hvalues : ∀ value ∈ key.found dict, kind.Accepts value) (e : Engine) :
    Resolves kind key dict e ↔ (dict.bitLen = 0 → kind = .get ∧ key.found dict = none) := by
  obtain ⟨slice, hread, hlength, hrefs, hfound⟩ := reader_of_hasKey hdict hlen hbits hkey
  have hexec : exec (kind.handler key) (e.asking key dict) =
      exec (answer kind.returns kind.accessor dict slice) (e.asked key dict) := by
    rw [exec_handler_lookup kind key hlen, hread, lift_ok, pure_bind]
  have hempty : TonTypes.sliceIsEmpty slice = true ↔ dict.bitLen = 0 := by
    rw [LawfulSlices.sliceIsEmpty slice hrefs, ← List.length_eq_zero_iff, hlength]
  unfold Resolves
  rw [hexec]
  by_cases hzero : dict.bitLen = 0
  · rw [exec_answer_empty kind dict (hempty.2 hzero), ← skipped_eq_results_iff kind hvalues]
    constructor
    · rintro (⟨t, ht, hstack⟩ | ⟨_, _, _, _, _, herr⟩)
      · cases ht
        exact fun _ => List.append_cancel_left hstack
      · cases herr
    · intro hskip
      refine .inl ⟨_, rfl, ?_⟩
      rw [← hskip hzero]
      rfl
  · refine iff_of_true ?_ fun h => absurd h hzero
    have hkeyed := hempty.not.2 hzero
    have hstack := (inferInstance : Leaves (fun s : Engine => s.cc.stack)
      (runGas (TonTypes.getWithGas dict slice))).out (e.asked key dict)
    rcases hget : exec (runGas (TonTypes.getWithGas dict slice)) (e.asked key dict) with ⟨r, t⟩
    rw [hget] at hstack
    cases r with
    | error err => exact .inr ⟨slice, err, t, hread, hget, exec_answer_error kind hkeyed hget⟩
    | ok found =>
      have hlookup := LawfulLookups.getWithGas dict slice hdict hlength _ _ _ hget
      rw [hfound] at hlookup
      subst hlookup
      refine .inl ⟨_, exec_answer_ok kind hkeyed hget hvalues, ?_⟩
      show t.cc.stack ++ _ = _
      rw [show t.cc.stack = e.cc.stack from hstack]

/-- The lookups answer from the map of the dictionary exactly where an integer stands for a key, and
where the key has no bits only `DICTGET` does, if it is not there. -/
theorem dictionary_lookup_iff (kind : LookupKind) (key : LookupKey) {dict : HashmapE}
    (hdict : IsDict dict) (hlen : dict.bitLen ≤ 1023) (hbits : key.HasBits dict.bitLen)
    (hvalues : ∀ entry ∈ dictEntries dict, kind.Accepts entry.2) (e : Engine) :
    Resolves kind key dict e ↔
      key.HasKey dict.bitLen ∧ (dict.bitLen = 0 → kind = .get ∧ key.found dict = none) := by
  have haccepts : ∀ value ∈ key.found dict, kind.Accepts value := by
    intro value hvalue
    obtain ⟨entry, hentry, rfl⟩ := found_mem hvalue
    exact hvalues entry hentry
  by_cases hkey : key.HasKey dict.bitLen
  · rw [resolves_of_hasKey kind hdict hlen hbits hkey haccepts, and_iff_right hkey]
  · refine iff_of_false ?_ fun h => hkey h.1
    obtain ⟨failure, hread⟩ := reader_of_not_hasKey hkey
    rintro (⟨t, ht, -⟩ | ⟨slice, err, t, hok, -⟩)
    · rw [exec_handler_lookup kind key hlen, hread] at ht
      cases ht
    · rw [hread] at hok
      cases hok

end Laws

end Lookups

end Engine

/-! ### The plain implementation -/

namespace Plain

open scoped TonVm.Plain

scoped instance lawfulLookups : LawfulLookups where
  loadBitstring builder slice _ h := by
    cases h
    rfl
  getWithGas dict key _ _ := by
    intro e found t h
    exact exec_visit h

/-- The empty key, in a dictionary whose keys have no bits. -/
def rootOnly : HashmapE := ⟨0, ((Entries.chain [([], {})]).toOption).join⟩

end Plain

namespace Engine

open scoped Plain

/-- The key 3 is found. -/
theorem dictionary_lookup_odds :
    ((LookupKey.integer false 3).found Plain.odds).isSome = true ∧
      Resolves .get (.integer false 3) Plain.odds Plain.idle := by
  refine ⟨by decide +kernel, ?_⟩
  refine (dictionary_lookup_iff .get (.integer false 3) Plain.isDict_odds (by decide) trivial
    (fun _ _ => trivial) Plain.idle).2 ⟨?_, fun hzero => absurd hzero (by decide)⟩
  exact ⟨by decide, by decide⟩

/-- What the lookups do with a number that has no key, and with the key of no bits. -/
theorem lookups_of_no_key :
    (∃ t, exec executeDictiget (Plain.idle.asking (.integer true 128) Plain.odds) =
      (.error (.exception (.fromCode .rangeCheckError)), t)) ∧
    (∃ t, exec executeDictuget (Plain.idle.asking (.integer false (-1)) Plain.odds) =
      (.error (.exception (.fromCode .integerOverflow)), t)) ∧
    (∃ t, exec executeDictugetoptref (Plain.idle.asking (.integer false 0) ⟨0, none⟩) = (.ok (), t) ∧
      t.cc.stack = []) ∧
    ((LookupKey.integer false 0).found Plain.rootOnly).isSome = true ∧
    ∃ t, exec executeDictuget (Plain.idle.asking (.integer false 0) Plain.rootOnly) = (.ok (), t) ∧
      t.cc.stack = [.boolean false] := by
  refine ⟨⟨_, rfl⟩, ⟨_, rfl⟩, ⟨_, rfl, rfl⟩, by decide +kernel, ⟨_, rfl, rfl⟩⟩

end Engine

end TonVm
