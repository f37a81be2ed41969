import TonVm.Lib.OrderedMap
import TonVm.Proof.DictionaryKeys
import TonVm.Proof.KeyValue
import TonVm.Proof.Parameters
import TonVm.Proof.Views

/-!
# Neighbours of a key

A dictionary with keys of `n` bits is a map from the integers that the keys stand for. Where the
searches of the package find the neighbour of a key and the extreme keys, `GETNEXT` and `GETPREV` find
the neighbour of every integer: one that is no key lies below or above all of them, and the search is
for the extreme key or not made at all.
-/

namespace TonVm

open ExecLib OrderedMap

/-! ### Dictionaries as maps -/

/-- The keys of a dictionary with their values. -/
class DictView [TonTypes] where
  dictEntries : HashmapE → List (List Bool × SliceData)

export DictView (dictEntries)

section Maps

variable [TonTypes] [DictView]

/-- A dictionary whose keys have the length that it says and are different. -/
structure IsDict (dict : HashmapE) : Prop where
  length : ∀ entry ∈ dictEntries dict, entry.1.length = dict.bitLen
  nodup : ((dictEntries dict).map Prod.fst).Nodup

/-- A dictionary as a map from integers. -/
def dictMap (signed : Bool) (dict : HashmapE) (key : Int) : Option SliceData :=
  ((dictEntries dict).find? fun entry => keyValue signed entry.1 = key).map Prod.snd

theorem dictMap_isSome {signed : Bool} {dict : HashmapE} {k : Int} :
    (dictMap signed dict k).isSome ↔ ∃ entry ∈ dictEntries dict, keyValue signed entry.1 = k := by
  simp [dictMap, Option.isSome_map, List.find?_isSome]

theorem dictMap_of_mem {signed : Bool} {dict : HashmapE} (hdict : IsDict dict)
    {entry : List Bool × SliceData} (h : entry ∈ dictEntries dict) :
    dictMap signed dict (keyValue signed entry.1) = some entry.2 := by
  have hsome : ((dictEntries dict).find? fun other =>
      decide (keyValue signed other.1 = keyValue signed entry.1)).isSome := by
    rw [List.find?_isSome]
    exact ⟨entry, h, by simp⟩
  obtain ⟨found, hfound⟩ := Option.isSome_iff_exists.1 hsome
  have hmem := List.mem_of_find?_eq_some hfound
  have hkey : keyValue signed found.1 = keyValue signed entry.1 := by
    simpa using List.find?_some hfound
  have hlen := (hdict.length found hmem).trans (hdict.length entry h).symm
  have heq := List.inj_on_of_nodup_map hdict.nodup hmem h (keyValue_injective hlen hkey)
  rw [dictMap, hfound, heq]
  rfl

/-- The map of a dictionary has keys of its width only. -/
theorem fits_of_dictMap {signed : Bool} {dict : HashmapE} (hdict : IsDict dict)
    (hpos : 1 ≤ dict.bitLen) {k : Int} (hk : (dictMap signed dict k).isSome) :
    (keyEncoding signed).Fits dict.bitLen k := by
  obtain ⟨entry, hmem, hkey⟩ := dictMap_isSome.1 hk
  have hlen := hdict.length entry hmem
  have hne : entry.1 ≠ [] := by
    rw [← List.length_pos_iff]
    omega
  rw [← hkey, ← hlen]
  exact fits_keyValue signed hne

variable [Views]

/-- A leaf as an entry of the map. -/
def leafEntry (signed : Bool) (leaf : BuilderData × SliceData) : Int × SliceData :=
  (keyValue signed (builderBits leaf.1), leaf.2)

/-- A search has found the first entry in a direction among the keys with a property. -/
structure Finds (signed next : Bool) (dict : HashmapE) (P : Int → Prop)
    (found : Option (BuilderData × SliceData)) : Prop where
  length : ∀ leaf ∈ found, (builderBits leaf.1).length = dict.bitLen
  first : FirstEntry next (dictMap signed dict) P (found.map (leafEntry signed))

end Maps

/-- The laws of keys and of the searches, where a search returns. -/
class LawfulDicts [TonTypes] [Views] [DictView] : Prop where
  bitsUsed : ∀ builder, TonTypes.bitsUsed builder = (builderBits builder).length
  builderBytes : ∀ builder, TonTypes.builderBytes builder = Plain.bytesOf (builderBits builder)
  loadBitstring : ∀ builder, ∃ slice, TonTypes.loadBitstring builder = .ok slice ∧
    sliceBits slice = builderBits builder
  findLeaf : ∀ (dict : HashmapE) (key : SliceData) (next same signed : Bool), IsDict dict →
    dict.bitLen ≤ 1023 → (sliceBits key).length = dict.bitLen → ∀ s found t,
      exec (Engine.runGas (TonTypes.findLeaf dict key next same signed)) s = (.ok found, t) →
      Finds signed next dict (Beyond next same (keyValue signed (sliceBits key))) found
  getMin : ∀ (dict : HashmapE) (signed : Bool), IsDict dict → dict.bitLen ≤ 1023 → ∀ s found t,
    exec (Engine.runGas (TonTypes.getMin dict signed)) s = (.ok found, t) →
    Finds signed true dict (fun _ => True) found
  getMax : ∀ (dict : HashmapE) (signed : Bool), IsDict dict → dict.bitLen ≤ 1023 → ∀ s found t,
    exec (Engine.runGas (TonTypes.getMax dict signed)) s = (.ok found, t) →
    Finds signed false dict (fun _ => True) found

namespace Engine

open DictMask

/-! ### The instructions -/

section Neighbours

variable [TonTypes]

/-- The instructions that search for a neighbour by an integer key. -/
def neighbour (signed next same : Bool) : M Unit :=
  match signed, next, same with
  | true, true, false => executeDictigetnext
  | true, true, true => executeDictigetnexteq
  | true, false, false => executeDictigetprev
  | true, false, true => executeDictigetpreveq
  | false, true, false => executeDictugetnext
  | false, true, true => executeDictugetnexteq
  | false, false, false => executeDictugetprev
  | false, false, true => executeDictugetpreveq

def neighbourMask (signed next same : Bool) : UInt8 :=
  (if signed then SIGN else 0) ||| (if next then NEXT else PREV) ||| (if same then SAME else 0)

/-- What a mask says of a search for a neighbour. -/
structure IsMask (how : UInt8) (signed next same : Bool) : Prop where
  slc : UInt8.bit how SLC = false
  ref : UInt8.bit how REF = false
  sign : UInt8.bit how SIGN = signed
  forward : UInt8.bit how NEXT = next
  least : UInt8.bit how MIN = next
  equal : UInt8.bit how SAME = same

omit [TonTypes] in
theorem isMask_neighbourMask (signed next same : Bool) :
    IsMask (neighbourMask signed next same) signed next same := by
  refine ⟨?_, ?_, ?_, ?_, ?_, ?_⟩ <;> cases signed <;> cases next <;> cases same <;> rfl

theorem neighbour_eq (signed next same : Bool) :
    neighbour signed next same = dictiter (neighbourMask signed next same) := by
  cases signed <;> cases next <;> cases same <;> rfl

/-- The searches of the package in a dictionary. -/
inductive Search (dict : HashmapE) : GasM (Option (BuilderData × SliceData)) → Prop where
  | findLeaf (key : SliceData) (next same signed : Bool) :
      Search dict (TonTypes.findLeaf dict key next same signed)
  | getMin (signed : Bool) : Search dict (TonTypes.getMin dict signed)
  | getMax (signed : Bool) : Search dict (TonTypes.getMax dict signed)

/-- What is pushed for an entry: the value, the key and -1, or only 0. -/
def pushed : Option (Int × SliceData) → Stack
  | some (key, value) => [.slice value, .int key, .boolean true]
  | none => [.boolean false]

/-- A leaf with its value as a stack item. -/
def leafItem (leaf : BuilderData × SliceData) : BuilderData × StackItem := (leaf.1, .slice leaf.2)

/-- A search of the package with the values as stack items. -/
def searchItems (search : GasM (Option (BuilderData × SliceData))) :
    M (Option (BuilderData × StackItem)) := do
  return (← runGas search).map leafItem

theorem finder_eq {how : UInt8} (href : UInt8.bit how REF = false) (dict : HashmapE) :
    finder dict how = searchItems (if UInt8.bit how MIN then
      TonTypes.getMin dict (UInt8.bit how SIGN) else TonTypes.getMax dict (UInt8.bit how SIGN)) := by
  unfold finder
  dsimp only
  split
  all_goals
    refine congrArg (runGas _ >>= ·) (funext fun found => ?_)
    cases found with
    | none => rfl
    | some leaf => simp [href, leafItem]

theorem asDict_dictItem (dict : HashmapE) : (dictItem dict).asDict = .ok dict.data := by
  obtain ⟨_, _ | _⟩ := dict <;> rfl

/-- The length of the keys is read as it is. -/
theorem bind_bitLen {α : Type} {n : Nat} (hlen : n ≤ 1023) (f : Nat → M α) :
    (do f (← lift ((← lift (StackItem.int n).asInteger).intoUsize 0 1023))) = f n := by
  rw [show (StackItem.int n).asInteger = .ok (.value n) from rfl, lift_ok, pure_bind,
    IntegerData.intoUsize_natCast hlen, lift_ok, pure_bind]

theorem exec_iterSearch {how : UInt8} {key : StackItem} {dict : HashmapE} (hlen : dict.bitLen ≤ 1023)
    {found : Option SliceData × Bool} (hkey : readKey key dict.bitLen how = .ok found) (s : Engine) :
    exec (iterSearch how key (dictItem dict) (.int dict.bitLen)) s = exec (match found with
      | (some key, _) => iterReader dict key how
      | (none, neg) => if !neg ^^ UInt8.bit how MIN then finder dict how else pure none) s := by
  unfold iterSearch
  rewrite [bind_bitLen hlen, asDict_dictItem, lift_ok, pure_bind, hkey, lift_ok, pure_bind]
  obtain ⟨_ | _, _⟩ := found <;> rfl

/-! ### Keys -/

theorem asBuilder_of_not_fits {encoding : Encoding} {n : Nat} {i : Int} (h : ¬encoding.Fits n i) :
    ∃ failure, (IntegerData.value i).asBuilder encoding n = .error failure := by
  have hbuild : (IntegerData.value i).asBuilder encoding n = encoding.trySerialize n (.value i) := rfl
  rw [hbuild]
  cases hok : encoding.trySerialize n (.value i) with
  | ok builder => exact absurd (Encoding.fits_of_trySerialize hok) h
  | error failure => exact ⟨failure, rfl⟩

theorem intAsSlice_of_not_fits {signed : Bool} {n : Nat} {i : Int}
    (h : ¬(keyEncoding signed).Fits n i) :
    ∃ failure, intAsSlice (.value i) (keyEncoding signed) n = .error failure := by
  obtain ⟨failure, herr⟩ := asBuilder_of_not_fits h
  refine ⟨failure, ?_⟩
  unfold intAsSlice
  rw [herr]
  rfl

theorem readKey_int {how : UInt8} (hslc : UInt8.bit how SLC = false) (n : Nat) (i : Int) :
    readKey (.int i) n how =
      if !UInt8.bit how SIGN && decide (i < 0) then .ok (none, true)
      else match intAsSlice (.value i) (keyEncoding (UInt8.bit how SIGN)) n with
        | .ok slice => .ok (some slice, UInt8.bit how SIGN && decide (i < 0))
        | .error _ => .ok (none, decide (i < 0)) := by
  have hint : (StackItem.int i).asInteger = .ok (.value i) := rfl
  have hnan : (IntegerData.value i).isNan = false := rfl
  have hneg : (IntegerData.value i).isNeg = decide (i < 0) := rfl
  unfold readKey
  rw [if_neg (by rw [hslc]; decide), hint]
  simp only [hnan, hneg, bind, Except.bind]
  generalize decide (i < 0) = neg
  cases UInt8.bit how SIGN with
  | true =>
    show _ = match intAsSlice (.value i) .signedBigEndian n with
      | .ok slice => Except.ok (some slice, neg)
      | .error _ => Except.ok (none, neg)
    cases intAsSlice (.value i) .signedBigEndian n <;> rfl
  | false =>
    show _ = if neg then Except.ok (none, true)
      else match intAsSlice (.value i) .unsignedBigEndian n with
        | .ok slice => Except.ok (some slice, false)
        | .error _ => Except.ok (none, neg)
    cases neg with
    | true => rfl
    | false => cases intAsSlice (.value i) .unsignedBigEndian n <;> rfl

section Laws

variable [Views] [DictView] [LawfulViews] [LawfulDicts]

omit [DictView] [LawfulDicts] in
/-- An integer that fits is written as its residue, which stands for it. -/
theorem exists_asBuilder {signed : Bool} {n : Nat} (hle : n ≤ 1023) {i : Int}
    (h : (keyEncoding signed).Fits n i) :
    ∃ builder, (IntegerData.value i).asBuilder (keyEncoding signed) n = .ok builder ∧
      builderBits builder = Plain.bitsOf n (i % 2 ^ n).toNat ∧ builderRefs builder = [] ∧
      keyValue signed (builderBits builder) = i := by
  have hzero : signed = true → n ≠ 0 := by
    rintro rfl rfl
    have hsigned : (keyEncoding true).isSigned = true := rfl
    exact Encoding.not_fits_zero hsigned i h
  have hinverse := keyEncoding_inverse hzero
  have hpadded := hinverse.padded i h
  have hlen := hpadded.1
  rw [List.length_take] at hlen
  have hroom : n ≤ 8 * ((keyEncoding signed).buffer n i).length := by
    have := bitsToBytes_mul n
    omega
  obtain ⟨builder, hraw, hbits, hrefs⟩ := (LawfulViews.withRaw _ n hroom).exists hle
  obtain ⟨hbytes, hcount⟩ := Encoding.bytesOf_take hpadded
  rw [← hbits] at hbytes hcount
  have hvalue : keyValue signed (builderBits builder) = i := by
    by_cases hn : n = 0
    · -- only an unsigned zero fits into no bits
      subst hn
      cases signed with
      | true => exact absurd rfl (hzero rfl)
      | false =>
        obtain ⟨hnonneg, hlt⟩ := h
        rw [List.length_eq_zero_iff.1 hcount]
        show ((0 : Nat) : Int) = i
        omega
    · have hne : builderBits builder ≠ [] := by
        rw [← List.length_pos_iff]
        omega
      have hdecode := decode_bytesOf signed hne
      rw [hcount, hbytes, hinverse.decode i h] at hdecode
      exact hdecode.symm
  refine ⟨builder, ?_, ?_, hrefs, hvalue⟩
  · rw [← hraw, ← Encoding.trySerialize_of_fits h]
    rfl
  · have hmod := keyValue_emod signed (builderBits builder)
    rw [hvalue, hcount] at hmod
    rw [hmod, Int.toNat_natCast, Plain.bitsOf_natOf hcount]

/-- An integer of the width has a key that stands for it. -/
theorem exists_intAsSlice {signed : Bool} {n : Nat} (hle : n ≤ 1023) {i : Int}
    (h : (keyEncoding signed).Fits n i) :
    ∃ slice, intAsSlice (.value i) (keyEncoding signed) n = .ok slice ∧
      (sliceBits slice).length = n ∧ keyValue signed (sliceBits slice) = i := by
  obtain ⟨builder, hbuild, hbits, -, hvalue⟩ := exists_asBuilder hle h
  obtain ⟨slice, hload, hslice⟩ := LawfulDicts.loadBitstring builder
  refine ⟨slice, ?_, ?_, ?_⟩
  · unfold intAsSlice
    rw [hbuild]
    exact hload
  · rw [hslice, hbits, Plain.length_bitsOf]
  · rw [hslice]
    exact hvalue

/-- The key for an integer, where it has one; otherwise only its sign is known. -/
theorem readKey_cases {how : UInt8} (hslc : UInt8.bit how SLC = false) {n : Nat} (hle : n ≤ 1023)
    (i : Int) :
    (∃ slice neg, readKey (.int i) n how = .ok (some slice, neg) ∧ (sliceBits slice).length = n ∧
      keyValue (UInt8.bit how SIGN) (sliceBits slice) = i) ∨
    (¬(keyEncoding (UInt8.bit how SIGN)).Fits n i ∧
      readKey (.int i) n how = .ok (none, decide (i < 0))) := by
  rw [readKey_int hslc]
  by_cases hfits : (keyEncoding (UInt8.bit how SIGN)).Fits n i
  · left
    obtain ⟨slice, hok, hlen, hvalue⟩ := exists_intAsSlice hle hfits
    refine ⟨slice, UInt8.bit how SIGN && decide (i < 0), ?_, hlen, hvalue⟩
    rw [if_neg, hok]
    rw [Bool.and_eq_true, Bool.not_eq_true', decide_eq_true_iff]
    rintro ⟨hsign, hneg⟩
    rw [hsign] at hfits
    exact absurd hfits.1 (not_le.2 hneg)
  · right
    refine ⟨hfits, ?_⟩
    obtain ⟨failure, herr⟩ := intAsSlice_of_not_fits hfits
    rw [herr]
    split
    · simp_all
    · rfl

/-! ### Searches -/

omit [LawfulViews] in
theorem keyInteger_eq (how : UInt8) {key : BuilderData} (hne : builderBits key ≠ []) :
    keyInteger how key = keyValue (UInt8.bit how SIGN) (builderBits key) := by
  unfold keyInteger
  rw [LawfulDicts.bitsUsed, LawfulDicts.builderBytes]
  exact decode_bytesOf _ hne

omit [LawfulViews] in
theorem exec_pushEntry_leaf {how : UInt8} (hslc : UInt8.bit how SLC = false) {n : Nat} (hpos : 1 ≤ n)
    (hle : n ≤ 256) {found : Option (BuilderData × SliceData)}
    (hlen : ∀ leaf ∈ found, (builderBits leaf.1).length = n) (s : Engine) :
    exec (pushEntry how (found.map leafItem)) s = (.ok (), s.given
      (pushed (found.map (leafEntry (UInt8.bit how SIGN))))) := by
  cases found with
  | none => rfl
  | some leaf =>
    have hwidth := hlen leaf rfl
    have hne : builderBits leaf.1 ≠ [] := by
      rw [← List.length_pos_iff]
      omega
    have hkey := keyInteger_eq how hne
    have hrange : InRange (keyInteger how leaf.1) := by
      have hfits := fits_keyValue (UInt8.bit how SIGN) hne
      rw [hkey]
      exact Encoding.inRange_of_fits (keyEncoding_width (hwidth.trans_le hle)) hfits
    have hexec := exec_pushEntry_of_inRange hslc hrange (.slice leaf.2) s
    rw [hkey, List.append_assoc, List.append_assoc] at hexec
    exact hexec

instance : Inert fun e : Engine => e.cc.stack := ⟨fun _ _ _ _ => rfl⟩

omit [LawfulViews] in
/-- A search that finds what it should, and the push: if the search returns, so does the
instruction. -/
theorem exec_searchItems_push {how : UInt8} (hslc : UInt8.bit how SLC = false) {dict : HashmapE}
    (hpos : 1 ≤ dict.bitLen) (hle : dict.bitLen ≤ 256) {next : Bool} {P : Int → Prop}
    {search : GasM (Option (BuilderData × SliceData))}
    (hfinds : ∀ s found t, exec (runGas search) s = (.ok found, t) →
      Finds (UInt8.bit how SIGN) next dict P found) (s : Engine) :
    (∃ found t, exec (searchItems search >>= pushEntry how) s = (.ok (), t) ∧
      FirstEntry next (dictMap (UInt8.bit how SIGN) dict) P found ∧
      t.cc.stack = s.cc.stack ++ pushed found) ∨
    ∃ err t, exec (runGas search) s = (.error err, t) ∧
      exec (searchItems search >>= pushEntry how) s = (.error err, t) := by
  have hstack := (inferInstance : Leaves (fun e : Engine => e.cc.stack) (runGas search)).out s
  rcases hexec : exec (runGas search) s with ⟨r, t⟩
  rw [hexec] at hstack
  have hstack : t.cc.stack = s.cc.stack := hstack
  unfold searchItems
  rw [bind_assoc]
  cases r with
  | error err =>
    right
    exact ⟨err, t, rfl, exec_bind_error hexec⟩
  | ok found =>
    left
    have hfound := hfinds s found t hexec
    refine ⟨found.map (leafEntry (UInt8.bit how SIGN)), t.given
      (pushed (found.map (leafEntry (UInt8.bit how SIGN)))), ?_, hfound.first, ?_⟩
    · rw [exec_bind_ok hexec, pure_bind]
      exact exec_pushEntry_leaf hslc hpos hle hfound.length t
    · rw [← hstack]
      rfl

/-- What is searched for an integer: the neighbour of its key, an extreme key of the dictionary, or
nothing where all keys are on the other side. -/
theorem iterSearch_cases {how : UInt8} {signed next same : Bool} (hmask : IsMask how signed next same)
    {dict : HashmapE} (hdict : IsDict dict) (hpos : 1 ≤ dict.bitLen) (hlen : dict.bitLen ≤ 1023)
    (i : Int) (s : Engine) :
    (∃ search, Search dict search ∧
      exec (iterSearch how (.int i) (dictItem dict) (.int dict.bitLen)) s =
        exec (searchItems search) s ∧
      ∀ s found t, exec (runGas search) s = (.ok found, t) →
        Finds signed next dict (Beyond next same i) found) ∨
    (exec (iterSearch how (.int i) (dictItem dict) (.int dict.bitLen)) s = (.ok none, s) ∧
      FirstEntry next (dictMap signed dict) (Beyond next same i) none) := by
  obtain ⟨hslc, href, rfl, hforward, hleast, hequal⟩ := hmask
  rcases readKey_cases hslc hlen i with ⟨slice, neg, hkey, hwidth, hvalue⟩ | ⟨hfits, hkey⟩
  · left
    refine ⟨_, .findLeaf slice next same (UInt8.bit how SIGN), ?_, ?_⟩
    · rw [exec_iterSearch hlen hkey, ← hforward, ← hequal]
      rfl
    · have hfinds := LawfulDicts.findLeaf dict slice next same (UInt8.bit how SIGN) hdict hlen hwidth
      rwa [hvalue] at hfinds
  · have hside (k : Int) (hk : (dictMap (UInt8.bit how SIGN) dict k).isSome) :
        if !decide (i < 0) ^^ next then if next then i < k else k < i
          else if next then k < i else i < k :=
      side_of_lt (lt_of_not_fits hpos hfits (fits_of_dictMap hdict hpos hk)) next
    have hexec := exec_iterSearch hlen hkey s
    dsimp only at hexec
    rw [hleast, finder_eq href, hleast] at hexec
    -- the sign and the direction decide on which side of the integer all keys are
    by_cases hnear : (!decide (i < 0) ^^ next) = true
    · left
      have hbeyond (k : Int) (hk : (dictMap (UInt8.bit how SIGN) dict k).isSome) :
          Beyond next same i k := by
        have hk := hside k hk
        rw [if_pos hnear] at hk
        exact beyond_of_lt hk
      have hextreme : ∀ s found t, exec (runGas (if next = true then
          TonTypes.getMin dict (UInt8.bit how SIGN) else TonTypes.getMax dict (UInt8.bit how SIGN))) s =
            (.ok found, t) → Finds (UInt8.bit how SIGN) next dict (fun _ => True) found := by
        cases next
        · exact LawfulDicts.getMax dict _ hdict hlen
        · exact LawfulDicts.getMin dict _ hdict hlen
      rw [if_pos hnear] at hexec
      refine ⟨_, ?_, hexec, fun s found t hfound => ?_⟩
      · cases next
        · exact .getMax _
        · exact .getMin _
      · obtain ⟨hlength, hfirst⟩ := hextreme s found t hfound
        refine ⟨hlength, (firstEntry_congr (fun k hk => ?_) _).1 hfirst⟩
        exact iff_of_true trivial (hbeyond k hk)
    · right
      rw [if_neg hnear] at hexec
      refine ⟨hexec, firstEntry_none fun k hk => ?_⟩
      have hk := hside k hk
      rw [if_neg hnear] at hk
      exact not_beyond_of_lt hk

/-- `GETNEXT` and `GETPREV` with integer keys, for every integer: the entry with the nearest key is
pushed, or that there is none. They fail only where a search of the package does, and as it does. -/
theorem dictionary_neighbours (signed next same : Bool) {dict : HashmapE} (hdict : IsDict dict)
    (hpos : 1 ≤ dict.bitLen) (hle : dict.bitLen ≤ 256) (i : Int) (e : Engine) :
    (∃ found t, exec (neighbour signed next same)
        (e.given [.int i, dictItem dict, .int dict.bitLen]) = (.ok (), t) ∧
      FirstEntry next (dictMap signed dict) (Beyond next same i) found ∧
      t.cc.stack = e.cc.stack ++ pushed found) ∨
    ∃ search err t, Search dict search ∧
      exec (runGas search) (e.afterLoad.holding e.cc e.ctrls
        [.int dict.bitLen, dictItem dict, .int i]) = (.error err, t) ∧
      exec (neighbour signed next same)
        (e.given [.int i, dictItem dict, .int dict.bitLen]) = (.error err, t) := by
  have hmask := isMask_neighbourMask signed next same
  rw [neighbour_eq, exec_dictiter, exec_bind]
  rcases iterSearch_cases hmask hdict hpos (hle.trans (by decide)) i (e.afterLoad.holding e.cc e.ctrls
    [.int dict.bitLen, dictItem dict, .int i]) with ⟨search, hsearch, hexec, hfinds⟩ | ⟨hexec, hnone⟩
  · rw [hexec, ← exec_bind]
    rw [← hmask.sign] at hfinds
    rcases exec_searchItems_push hmask.slc hpos hle hfinds _ with h | ⟨err, t, herr, hpush⟩
    · rw [hmask.sign] at h
      exact .inl h
    · exact .inr ⟨search, err, t, hsearch, herr, hpush⟩
  · rw [hexec]
    exact .inl ⟨none, _, rfl, hnone, rfl⟩

end Laws

end Neighbours

end Engine

/-! ### The plain implementation -/

namespace Plain

open scoped TonVm.Plain

scoped instance dictView : DictView where
  dictEntries := Entries.ofDict

/-- The order of the ranks is that of the integers: they differ by half the range for signed keys. -/
theorem rank_eq (signed : Bool) (bits : List Bool) : (rank signed bits : Int) =
    keyValue signed bits + if signed && bits ≠ [] then 2 ^ (bits.length - 1) else 0 := by
  cases signed with
  | false => simp [rank, keyValue]
  | true =>
    cases bits with
    | nil => rfl
    | cons sign rest =>
      unfold rank keyValue
      dsimp only
      rw [natOf_cons, natOf_cons, List.length_cons, pow_succ]
      cases sign
      · simp
        ring
      · simp
        ring

theorem rank_le_iff {signed : Bool} {bits bits' : List Bool} (h : bits.length = bits'.length) :
    rank signed bits ≤ rank signed bits' ↔ keyValue signed bits ≤ keyValue signed bits' := by
  have hnil : bits ≠ [] ↔ bits' ≠ [] := by
    rw [← List.length_pos_iff, ← List.length_pos_iff, h]
  zify
  rw [rank_eq, rank_eq, h]
  simp only [hnil, add_le_add_iff_right]

theorem rank_lt_iff {signed : Bool} {bits bits' : List Bool} (h : bits.length = bits'.length) :
    rank signed bits < rank signed bits' ↔ keyValue signed bits < keyValue signed bits' := by
  rw [← not_le, rank_le_iff h.symm, not_le]

theorem rank_lt (signed : Bool) (bits : List Bool) : rank signed bits < 2 ^ bits.length := by
  unfold rank
  split
  · exact natOf_lt _
  · exact natOf_lt _

theorem least_eq_none {order : List Bool → Nat} {entries : List (List Bool × Slice)}
    (h : least order entries = none) : entries = [] := by
  cases entries with
  | nil => rfl
  | cons entry entries =>
    unfold least at h
    split at h
    · split_ifs at h
    · cases h

theorem least_eq_some {order : List Bool → Nat} {entries : List (List Bool × Slice)}
    {entry : List Bool × Slice} (h : least order entries = some entry) :
    entry ∈ entries ∧ ∀ other ∈ entries, order entry.1 ≤ order other.1 := by
  induction entries generalizing entry with
  | nil => cases h
  | cons first entries ih =>
    unfold least at h
    cases hrest : least order entries with
    | none =>
      rw [hrest] at h
      cases h
      rw [least_eq_none hrest]
      simp
    | some other =>
      obtain ⟨hmem, hleast⟩ := ih hrest
      rw [hrest] at h
      dsimp only at h
      split_ifs at h with hle
      · cases h
        refine ⟨List.mem_cons_self, fun another hother => ?_⟩
        rcases List.mem_cons.1 hother with rfl | hother
        · exact le_rfl
        · exact hle.trans (hleast another hother)
      · cases h
        refine ⟨List.mem_cons_of_mem _ hmem, fun another hother => ?_⟩
        rcases List.mem_cons.1 hother with rfl | hother
        · exact (not_le.1 hle).le
        · exact hleast another hother

/-- The order in which a search looks at the keys. -/
def searchOrder (signed next : Bool) : List Bool → Nat :=
  if next then rank signed else fun k => 2 ^ 1023 - rank signed k

theorem searchOrder_le_iff {signed next : Bool} {bits bits' : List Bool}
    (h : bits.length = bits'.length) (hlen : bits.length ≤ 1023) :
    searchOrder signed next bits ≤ searchOrder signed next bits' ↔
      if next then keyValue signed bits ≤ keyValue signed bits'
      else keyValue signed bits' ≤ keyValue signed bits := by
  cases next with
  | true => exact rank_le_iff h
  | false =>
    have hlt := (rank_lt signed bits').trans_le (Nat.pow_le_pow_right two_pos (h ▸ hlen))
    show 2 ^ 1023 - rank signed bits ≤ 2 ^ 1023 - rank signed bits' ↔
      keyValue signed bits' ≤ keyValue signed bits
    rw [tsub_le_tsub_iff_left hlt.le, rank_le_iff h.symm]

/-- Where a search looks through the entries for the first one, it finds it. -/
theorem finds_least {signed next : Bool} {dict : HashmapE} (hdict : IsDict dict)
    (hlen : dict.bitLen ≤ 1023) {p : List Bool × Slice → Bool} {P : Int → Prop}
    (hp : ∀ entry ∈ Entries.ofDict dict, p entry = true ↔ P (keyValue signed entry.1)) :
    Finds signed next dict P
      ((least (searchOrder signed next) ((Entries.ofDict dict).filter p)).map leafResult) := by
  cases hleast : least (searchOrder signed next) ((Entries.ofDict dict).filter p) with
  | none =>
    refine ⟨nofun, Set.eq_empty_iff_forall_notMem.2 fun k hk => ?_⟩
    obtain ⟨entry, hmem, rfl⟩ := dictMap_isSome.1 hk.1
    have hfiltered : entry ∈ (Entries.ofDict dict).filter p :=
      List.mem_filter.2 ⟨hmem, (hp entry hmem).2 hk.2⟩
    rw [least_eq_none hleast] at hfiltered
    cases hfiltered
  | some entry =>
    obtain ⟨hfiltered, hfirst⟩ := least_eq_some hleast
    obtain ⟨hmem, hentry⟩ := List.mem_filter.1 hfiltered
    have hwidth := hdict.length entry hmem
    have hkey : keyValue signed entry.1 ∈ keys (dictMap signed dict) P :=
      ⟨dictMap_isSome.2 ⟨entry, hmem, rfl⟩, (hp entry hmem).1 hentry⟩
    have hbound (k : Int) (hk : k ∈ keys (dictMap signed dict) P) :
        if next then keyValue signed entry.1 ≤ k else k ≤ keyValue signed entry.1 := by
      obtain ⟨other, hother, rfl⟩ := dictMap_isSome.1 hk.1
      have hlength := hwidth.trans (hdict.length other hother).symm
      refine (searchOrder_le_iff hlength (hwidth.trans_le hlen)).1 (hfirst other ?_)
      exact List.mem_filter.2 ⟨hother, (hp other hother).2 hk.2⟩
    refine ⟨?_, dictMap_of_mem hdict hmem, ?_⟩
    · rintro leaf ⟨⟩
      exact hwidth
    · cases next with
      | true => exact ⟨hkey, hbound⟩
      | false => exact ⟨hkey, hbound⟩

theorem finds_extreme {signed next : Bool} {dict : HashmapE} (hdict : IsDict dict)
    (hlen : dict.bitLen ≤ 1023) : Finds signed next dict (fun _ => True)
      ((least (searchOrder signed next) (Entries.ofDict dict)).map leafResult) := by
  have h : Finds signed next dict (fun _ => True)
      ((least (searchOrder signed next) ((Entries.ofDict dict).filter fun _ => true)).map leafResult) :=
    finds_least hdict hlen fun _ _ => iff_of_true rfl trivial
  rwa [List.filter_true] at h

theorem exec_visit {α : Type} {dict : HashmapE} {result found : α} {s t : Engine}
    (h : exec (Engine.runGas (do visit dict; return result)) s = (.ok found, t)) : found = result := by
  unfold Engine.runGas at h
  rw [Engine.runGasWith_bind] at h
  obtain ⟨_, _, -, hpure⟩ := exec_bind_eq_ok h
  cases hpure
  rfl

theorem beyond_iff {signed next same : Bool} {bits key : List Bool} (h : bits.length = key.length) :
    ((same && bits = key) || (if next then rank signed key < rank signed bits
      else rank signed bits < rank signed key)) = true ↔
      Beyond next same (keyValue signed key) (keyValue signed bits) := by
  have heq : bits = key ↔ keyValue signed bits = keyValue signed key :=
    ⟨fun heq => by rw [heq], keyValue_injective h⟩
  have hlt : rank signed bits < rank signed key ↔ keyValue signed bits < keyValue signed key :=
    rank_lt_iff h
  have hgt : rank signed key < rank signed bits ↔ keyValue signed key < keyValue signed bits :=
    rank_lt_iff h.symm
  cases next <;> cases same
  · simp [Beyond, hlt]
  · simp [Beyond, hlt, heq, le_iff_eq_or_lt]
  · simp [Beyond, hgt]
  · simp [Beyond, hgt, heq, le_iff_eq_or_lt, @eq_comm _ (keyValue signed bits)]

scoped instance lawfulDicts : LawfulDicts where
  bitsUsed _ := rfl
  builderBytes _ := rfl
  loadBitstring builder := by
    refine ⟨_, rfl, ?_⟩
    show (builder.bits.take builder.bits.length).drop 0 = builder.bits
    rw [List.take_length, List.drop_zero]
  findLeaf dict key next same signed hdict hlen hkey s found t h := by
    rw [exec_visit h]
    exact finds_least hdict hlen fun entry hmem => beyond_iff ((hdict.length entry hmem).trans hkey.symm)
  getMin dict signed hdict hlen s found t h := by
    rw [exec_visit h]
    exact finds_extreme hdict hlen
  getMax dict signed hdict hlen s found t h := by
    rw [exec_visit h]
    exact finds_extreme hdict hlen

/-! ### A small dictionary -/

/-- The keys 3 and 5 of eight bits. -/
def odds : HashmapE :=
  ⟨8, ((Entries.chain [(bitsOf 8 3, {}), (bitsOf 8 5, {})]).toOption).join⟩

theorem isDict_odds : IsDict odds := ⟨by decide +kernel, by decide +kernel⟩

end Plain

namespace Engine

open scoped Plain

/-- No key of eight bits is 300: its predecessor is the greatest key. -/
theorem dictionary_neighbours_odds : ∃ found t, exec executeDictugetprev
    (((withCapabilities []).setupWithLibraries (Plain.code [0, 0]) none none none []).given
      [.int 300, dictItem Plain.odds, .int 8]) = (.ok (), t) ∧
    FirstEntry false (dictMap false Plain.odds) (fun k => k < 300) found ∧
    t.cc.stack = pushed found := by
  rcases dictionary_neighbours false false false Plain.isDict_odds (by decide) (by decide) 300
    ((withCapabilities []).setupWithLibraries (Plain.code [0, 0]) none none none [])
    with h | ⟨search, err, t, -, -, herr⟩
  · exact h
  · have hok : (exec executeDictugetprev
        (((withCapabilities []).setupWithLibraries (Plain.code [0, 0]) none none none []).given
          [.int 300, dictItem Plain.odds, .int 8])).1.isOk = true := by
      decide +kernel
    cases hok.symm.trans (congrArg (fun r => r.1.isOk) herr)

end Engine

end TonVm
