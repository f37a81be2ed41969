import TonVm.Proof.DictionaryOrder

/-!
# Integer keys that do not fit

A dictionary may have keys of up to 1023 bits, and the instructions that search it by the order of its
keys push the key they find as an integer, which has 257 bits. A key that does not fit is a panic. Which
key is found is known from the entries of the dictionary: the least or the greatest one, or the nearest
one to an integer.
-/

namespace TonVm

namespace Engine

open ExecLib OrderedMap DictMask

section Search

variable [TonTypes] [Views] [DictView]

/-- The first key of a dictionary in the direction of a search, among the keys with a property. -/
def FirstKey (how : UInt8) (dict : HashmapE) (P : Int → Prop) (k : Int) : Prop :=
  IsFirst (UInt8.bit how NEXT) (keys (dictMap (UInt8.bit how SIGN) dict) P) k

/-- What a search has found: the first key, or that there is none. -/
def FoundKey (how : UInt8) (dict : HashmapE) (P : Int → Prop) :
    Option (BuilderData × StackItem) → Prop
  | some (key, _) => FirstKey how dict P (keyInteger how key)
  | none => keys (dictMap (UInt8.bit how SIGN) dict) P = ∅

/-- The instructions that search by integer keys, each with the part of it that searches, its arguments
and the keys that it looks among. -/
inductive IntegerSearch (dict : HashmapE) : UInt8 → M Unit → M (Option (BuilderData × StackItem)) →
    Stack → (Int → Prop) → Prop where
  | neighbour (signed next same : Bool) (i : Int) :
      IntegerSearch dict (neighbourMask signed next same) (neighbour signed next same)
        (iterSearch (neighbourMask signed next same) (.int i) (dictItem dict) (.int dict.bitLen))
        [.int i, dictItem dict, .int dict.bitLen] (Beyond next same i)
  | extreme (how : UInt8) (hslc : UInt8.bit how SLC = false) :
      IntegerSearch dict how (find how) (findSearch how (dictItem dict) (.int dict.bitLen))
        [dictItem dict, .int dict.bitLen] fun _ => True

omit [TonTypes] [Views] [DictView] in
theorem isFirst_unique {next : Bool} {s : Set Int} {a b : Int} (ha : IsFirst next s a)
    (hb : IsFirst next s b) : a = b := by
  cases next with
  | true => exact IsLeast.unique ha hb
  | false => exact IsGreatest.unique ha hb

variable {how : UInt8} {dict : HashmapE} {P : Int → Prop}

omit [Views] in
theorem FirstKey.mem {k : Int} (h : FirstKey how dict P k) :
    k ∈ keys (dictMap (UInt8.bit how SIGN) dict) P := by
  unfold FirstKey IsFirst at h
  split at h
  · exact h.1
  · exact h.1

omit [Views] in
theorem FoundKey.inRange_iff {found : Option (BuilderData × StackItem)} (h : FoundKey how dict P found) :
    (∀ key value, found = some (key, value) → InRange (keyInteger how key)) ↔
      ∀ k, FirstKey how dict P k → InRange k := by
  cases found with
  | none =>
    refine iff_of_true nofun fun k hk => ?_
    have hmem := hk.mem
    rw [show keys _ _ = ∅ from h] at hmem
    exact hmem.elim
  | some entry =>
    obtain ⟨key, value⟩ := entry
    constructor
    · intro hrange k hk
      rw [isFirst_unique hk h]
      exact hrange key value rfl
    · rintro hrange _ _ ⟨⟩
      exact hrange _ h

section Searches

variable [LawfulDicts]

/-- The key of a leaf that a search of the package has found. -/
theorem foundKey_of_finds (hpos : 1 ≤ dict.bitLen) {leaf : Option (BuilderData × SliceData)}
    (h : Finds (UInt8.bit how SIGN) (UInt8.bit how NEXT) dict P leaf)
    {found : Option (BuilderData × StackItem)} (hkeys : found.map Prod.fst = leaf.map Prod.fst) :
    FoundKey how dict P found := by
  obtain ⟨hlength, hfirst⟩ := h
  cases leaf with
  | none =>
    rw [Option.map_none, Option.map_eq_none_iff] at hkeys
    subst hkeys
    exact hfirst
  | some leaf =>
    obtain ⟨entry, rfl, hkey⟩ := Option.map_eq_some_iff.1 hkeys
    have hne : builderBits leaf.1 ≠ [] := by
      rw [← List.length_pos_iff, hlength leaf rfl]
      exact hpos
    show FirstKey how dict P (keyInteger how entry.1)
    rw [hkey, keyInteger_eq how hne]
    exact hfirst.2

variable (hdict : IsDict dict) (hpos : 1 ≤ dict.bitLen) (hlen : dict.bitLen ≤ 1023)

include hdict hpos hlen

/-- The search for an extreme key. -/
theorem foundKey_of_finder {s t : Engine} {found : Option (BuilderData × StackItem)}
    (h : exec (finder dict how) s = (.ok found, t)) : FoundKey how dict (fun _ => True) found := by
  unfold finder at h
  dsimp only at h
  split at h
  all_goals
    rename_i hmin
    obtain ⟨leaf, u, hleaf, h⟩ := exec_bind_eq_ok h
    have hkeys : found.map Prod.fst = leaf.map Prod.fst := by
      cases leaf with
      | none =>
        cases h
        rfl
      | some leaf =>
        dsimp only at h
        split at h
        · obtain ⟨item, _, -, h⟩ := exec_bind_eq_ok h
          cases h
          rfl
        · cases h
          rfl
    refine foundKey_of_finds hpos ?_ hkeys
  · rw [show UInt8.bit how NEXT = true from hmin]
    exact LawfulDicts.getMin dict _ hdict hlen s leaf u hleaf
  · rw [show UInt8.bit how NEXT = false from Bool.eq_false_of_not_eq_true hmin]
    exact LawfulDicts.getMax dict _ hdict hlen s leaf u hleaf

theorem foundKey_of_findSearch {s t : Engine} {found : Option (BuilderData × StackItem)}
    (h : exec (findSearch how (dictItem dict) (.int dict.bitLen)) s = (.ok found, t)) :
    FoundKey how dict (fun _ => True) found := by
  unfold findSearch at h
  rw [bind_bitLen hlen, asDict_dictItem, lift_ok, pure_bind] at h
  obtain ⟨entry, u, hentry, h⟩ := exec_bind_eq_ok h
  have hsame : found = entry := by
    unfold findTaken at h
    split at h
    all_goals
      dsimp only at h
      split at h
    · obtain ⟨_, _, -, h⟩ := exec_bind_eq_ok h
      obtain ⟨_, _, -, h⟩ := exec_bind_eq_ok h
      obtain ⟨_, _, -, h⟩ := exec_bind_eq_ok h
      cases h
      rfl
    · cases h
      rfl
    · obtain ⟨_, _, -, h⟩ := exec_bind_eq_ok h
      cases h
      rfl
    · cases h
      rfl
  rw [hsame]
  exact foundKey_of_finder hdict hpos hlen hentry

variable [LawfulViews]

theorem foundKey_of_iterSearch {signed next same : Bool} {i : Int} {s t : Engine}
    {found : Option (BuilderData × StackItem)}
    (h : exec (iterSearch (neighbourMask signed next same) (.int i) (dictItem dict)
      (.int dict.bitLen)) s = (.ok found, t)) :
    FoundKey (neighbourMask signed next same) dict (Beyond next same i) found := by
  have hmask := isMask_neighbourMask signed next same
  rcases iterSearch_cases hmask hdict hpos hlen i s with ⟨search, -, hexec, hfinds⟩ | ⟨hexec, hnone⟩
  · rw [h] at hexec
    obtain ⟨leaf, u, hleaf, hfound⟩ := exec_bind_eq_ok hexec.symm
    cases hfound
    rw [← hmask.sign] at hfinds
    nth_rewrite 2 [← hmask.forward] at hfinds
    refine foundKey_of_finds hpos (hfinds s leaf t hleaf) ?_
    rw [Option.map_map]
    rfl
  · rw [h] at hexec
    cases hexec
    show keys (dictMap _ dict) _ = ∅
    rw [hmask.sign]
    exact hnone

end Searches

omit [Views] [DictView] in
/-- An instruction is its search, which does not panic, and the push of what is found. -/
theorem IntegerSearch.exec_eq [CalmTypes] {instr : M Unit} {search : M (Option (BuilderData × StackItem))}
    {args : Stack} (h : IntegerSearch dict how instr search args P) (e : Engine) :
    exec instr (e.given args) = exec (search >>= pushEntry how)
        (e.afterLoad.holding e.cc e.ctrls args.reverse) ∧
      UInt8.bit how SLC = false ∧ Avoids Panics search := by
  cases h with
  | neighbour signed next same i =>
    rw [neighbour_eq]
    exact ⟨exec_dictiter _ e _ _ _, (isMask_neighbourMask signed next same).slc, inferInstance⟩
  | extreme _ hslc => exact ⟨exec_find how e _ _, hslc, inferInstance⟩

end Search

section Panics

variable [TonTypes] [CalmTypes] [Views] [LawfulViews] [DictView] [LawfulDicts]

/-- The instructions that search by integer keys do not panic where the first key that they look for
fits, as all keys of at most 256 bits, or 257 signed ones, do; and where the search does not fail before,
they panic in all other cases. -/
theorem integer_keys_panic_iff {dict : HashmapE} (hdict : IsDict dict) (hpos : 1 ≤ dict.bitLen)
    (hlen : dict.bitLen ≤ 1023) {how : UInt8} {instr : M Unit}
    {search : M (Option (BuilderData × StackItem))} {args : Stack} {P : Int → Prop}
    (h : IntegerSearch dict how instr search args P) (e : Engine) :
    ((∀ k, FirstKey how dict P k → InRange k) →
      ∀ t, exec instr (e.given args) ≠ (.error .panic, t)) ∧
    (∀ found s, exec search (e.afterLoad.holding e.cc e.ctrls args.reverse) = (.ok found, s) →
      ((∀ t, exec instr (e.given args) ≠ (.error .panic, t)) ↔
        ∀ k, FirstKey how dict P k → InRange k)) ∧
    (dict.bitLen ≤ (if UInt8.bit how SIGN then 257 else 256) →
      ∀ t, exec instr (e.given args) ≠ (.error .panic, t)) := by
  obtain ⟨hexec, hslc, hcalm⟩ := h.exec_eq e
  have hfound {found : Option (BuilderData × StackItem)} {s t : Engine}
      (hs : exec search s = (.ok found, t)) : FoundKey how dict P found := by
    cases h with
    | neighbour signed next same i => exact foundKey_of_iterSearch hdict hpos hlen hs
    | extreme => exact foundKey_of_findSearch hdict hpos hlen hs
  have hpanic := pushEntry_panic_iff hslc hcalm (e.afterLoad.holding e.cc e.ctrls args.reverse)
  rw [← hexec] at hpanic
  have hsafe (hrange : ∀ k, FirstKey how dict P k → InRange k) :=
    hpanic.2 fun key value s hs => hrange _ (hfound hs)
  refine ⟨hsafe, fun found s hs => ⟨fun hnone => ?_, hsafe⟩, fun hwidth => hsafe fun k hk => ?_⟩
  · refine (hfound hs).inRange_iff.1 fun key value hkey => ?_
    rw [hkey] at hs
    exact hpanic.1 hnone key value s hs
  · refine Encoding.inRange_of_fits ?_ (fits_of_dictMap hdict hpos hk.mem.1)
    unfold keyEncoding
    split_ifs at hwidth ⊢
    · exact hwidth
    · exact hwidth

end Panics

/-! ### Keys in plain cells -/

section Concrete

open scoped Plain

/-- A dictionary with one key. -/
def single (key : List Bool) : HashmapE :=
  ⟨key.length, ((Plain.Entries.chain [(key, {})]).toOption).join⟩

/-- An engine before a search in a dictionary with one key. -/
def beforeSearch (key : List Bool) : Engine :=
  ((withCapabilities []).setupWithLibraries (Plain.code [0, 0]) none none none []).given
    [dictItem (single key), .int key.length]

/-- The least key of a dictionary with keys of 257 bits can be `2 ^ 256`. -/
theorem wide_key_panics :
    (exec executeDictumin (beforeSearch (true :: List.replicate 256 false))).1 = .error .panic := by
  decide +kernel

/-- A key of 257 bits that stands for one is no panic. -/
theorem small_key_is_pushed :
    (∀ k, FirstKey MIN (single (Plain.bitsOf 257 1)) (fun _ => True) k → InRange k) ∧
    ∀ t, exec executeDictumin (beforeSearch (Plain.bitsOf 257 1)) ≠ (.error .panic, t) := by
  have hdict : IsDict (single (Plain.bitsOf 257 1)) := ⟨by decide +kernel, by decide +kernel⟩
  have hone : ∀ entry ∈ dictEntries (single (Plain.bitsOf 257 1)), keyValue false entry.1 = 1 := by
    decide +kernel
  have hrange : ∀ k, FirstKey MIN (single (Plain.bitsOf 257 1)) (fun _ => True) k → InRange k := by
    intro k hk
    obtain ⟨entry, hmem, rfl⟩ := dictMap_isSome.1 hk.mem.1
    rw [show UInt8.bit MIN SIGN = false from rfl, hone entry hmem]
    constructor <;> decide
  exact ⟨hrange, (integer_keys_panic_iff hdict (by decide +kernel) (by decide +kernel)
    (.extreme MIN rfl) _).1 hrange⟩

end Concrete

end Engine

end TonVm
