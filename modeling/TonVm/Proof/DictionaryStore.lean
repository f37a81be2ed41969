import TonVm.Lib.FiniteMap
import TonVm.Proof.DictionaryOrder

/-!
# Dictionaries as finite maps

Reading and setting a key of a dictionary, as far as the bits of the values are concerned: a dictionary
is a finite map from its keys, and setting a key changes the map there and nowhere else.
-/

namespace TonVm

open ExecLib FiniteMap

section Maps

variable [TonTypes] [Views] [DictView]

/-- The bits of the value that a dictionary has for a key. -/
def dictValue (dict : HashmapE) (key : List Bool) : Option (List Bool) :=
  (lookup (dictEntries dict) key).map sliceBits

/-- A dictionary after a key has been set. -/
structure Stores (dict : HashmapE) (key value : List Bool) (dict' : HashmapE) : Prop where
  isDict : IsDict dict'
  bitLen : dict'.bitLen = dict.bitLen
  value : dictValue dict' = Function.update (dictValue dict) key (some value)

theorem dictValue_eq_lookup (dict : HashmapE) : dictValue dict =
    lookup ((dictEntries dict).map fun entry => (entry.1, sliceBits entry.2)) :=
  funext fun key => (lookup_map sliceBits (dictEntries dict) key).symm

/-- Setting a key changes the sum of the values by the difference at the key. -/
theorem Stores.sum {dict dict' : HashmapE} {key value : List Bool} (h : Stores dict key value dict')
    (hdict : IsDict dict) (f : List Bool → Nat) :
    ((dictEntries dict').map fun entry => f (sliceBits entry.2)).sum + (dictValue dict key).elim 0 f =
      ((dictEntries dict).map fun entry => f (sliceBits entry.2)).sum + f value := by
  have hset := h.value
  rw [dictValue_eq_lookup, dictValue_eq_lookup] at hset
  have hsum := sum_update (by rw [List.map_map]; exact hdict.nodup)
    (by rw [List.map_map]; exact h.isDict.nodup) hset f
  rw [List.map_map, List.map_map, ← dictValue_eq_lookup] at hsum
  exact hsum

end Maps

/-- The laws of reading and setting, where they return, and of the keys that are made for them. -/
class LawfulStores [TonTypes] [Views] [DictView] : Prop where
  dictEntries_none : ∀ bitLen, dictEntries ⟨bitLen, none⟩ = []
  fromRaw : ∀ (bytes : List UInt8) (n : Nat), n ≤ 8 * bytes.length →
    sliceBits (TonTypes.fromRaw bytes n) = (Plain.ofBytes bytes).take n
  loadCell : ∀ builder cell slice, TonTypes.builderIntoCell builder = .ok cell →
    TonTypes.loadCell cell = .ok slice → sliceBits slice = builderBits builder
  getNextInt_le : ∀ (slice : SliceData) (n : Nat) result, TonTypes.getNextInt slice n = .ok result →
    n ≤ (sliceBits slice).length
  getWithGas : ∀ (dict : HashmapE) (key : SliceData), IsDict dict →
    (sliceBits key).length = dict.bitLen → Engine.Ensures (TonTypes.getWithGas dict key)
      fun found => found.map sliceBits = dictValue dict (sliceBits key)
  updateWithGas : ∀ (dict : HashmapE) (key : SliceData) (value : BuilderData), IsDict dict →
    (sliceBits key).length = dict.bitLen →
    Engine.Ensures (TonTypes.updateWithGas .set dict key (.builder value))
      fun result => Stores dict (sliceBits key) (builderBits value) result.2

theorem isDict_none [TonTypes] [Views] [DictView] [LawfulStores] (bitLen : Nat) :
    IsDict ⟨bitLen, none⟩ := by
  constructor <;> rw [LawfulStores.dictEntries_none]
  · exact nofun
  · exact List.nodup_nil

/-! ### The plain implementation -/

namespace Plain

open scoped TonVm.Plain

namespace Entries

/-- Setting a key takes the place of what the key had. -/
theorem insert_perm (key : List Bool) (value : Builder) {entries : Entries}
    (h : (entries.map Prod.fst).Nodup) :
    (entries.insert key value).Perm ((key, value) :: entries.erase key) := by
  induction entries with
  | nil => exact .rfl
  | cons entry entries ih =>
    obtain ⟨k, v⟩ := entry
    rw [List.map_cons, List.nodup_cons] at h
    unfold insert
    split_ifs with hkey hlt
    · -- the rest has no entry for the key
      subst hkey
      refine .cons _ ?_
      have hrest : erase key ((key, v) :: entries) = entries := by
        rw [erase, List.filter_cons_of_neg (by simp), List.filter_eq_self]
        intro entry hentry
        have hne : entry.1 ≠ key := fun heq => h.1 (List.mem_map.2 ⟨entry, hentry, heq⟩)
        simpa using hne
      rw [hrest]
    · rw [erase, erase, List.filter_cons_of_pos (by simpa using Ne.symm hkey)]
    · rw [erase, List.filter_cons_of_pos (by simpa using Ne.symm hkey)]
      exact ((ih h.2).cons (k, v)).trans (.swap _ _ _)

theorem mem_insert {key : List Bool} {value : Builder} {entries : Entries}
    (h : (entries.map Prod.fst).Nodup) (entry : List Bool × Builder) :
    entry ∈ entries.insert key value ↔ entry = (key, value) ∨ entry ∈ entries ∧ entry.1 ≠ key := by
  rw [(insert_perm key value h).mem_iff, List.mem_cons, erase, List.mem_filter]
  simp only [ne_eq, decide_eq_true_iff]

theorem nodup_insert {key : List Bool} {value : Builder} {entries : Entries}
    (h : (entries.map Prod.fst).Nodup) : ((entries.insert key value).map Prod.fst).Nodup := by
  rw [((insert_perm key value h).map Prod.fst).nodup_iff, List.map_cons, List.nodup_cons]
  refine ⟨fun hmem => ?_, h.sublist (List.filter_sublist.map Prod.fst)⟩
  obtain ⟨entry, hentry, hkey⟩ := List.mem_map.1 hmem
  have hne := List.of_mem_filter hentry
  simp [hkey] at hne

/-- The key and the bits of a leaf are read back. -/
theorem unleaf_leaf {key : List Bool} {value : Builder} {tree : Tree} (h : leaf key value = .ok tree) :
    (unleaf tree).1 = key ∧ (unleaf tree).2.bits = value.bits := by
  unfold leaf at h
  dsimp only at h
  split_ifs at h with hlen
  cases h
  rw [List.length_append, List.length_append, length_bitsOf] at hlen
  have hten : (bitsOf 10 key.length ++ key ++ value.bits).take 10 = bitsOf 10 key.length := by
    rw [List.append_assoc]
    exact List.take_left' (length_bitsOf _ _)
  have hlength : natOf (bitsOf 10 key.length) = key.length := by
    rw [natOf_bitsOf]
    exact Nat.mod_eq_of_lt (by omega)
  have hrest : (bitsOf 10 key.length ++ key ++ value.bits).drop 10 = key ++ value.bits := by
    rw [List.append_assoc]
    exact List.drop_left' (length_bitsOf _ _)
  unfold unleaf
  simp only [Tree.bits, hten, hlength, hrest, List.take_left, Slice.bits, Slice.whole, List.take_length,
    true_and]
  rw [← List.drop_drop, hrest, List.drop_left]

/-- The entries of a dictionary with the bits of the values. -/
def values (entries : List (List Bool × Slice)) : List (List Bool × List Bool) :=
  entries.map fun entry => (entry.1, entry.2.bits)

theorem chain_eq_none {entries : Entries} (h : entries.chain = .ok none) : entries = [] := by
  cases entries with
  | nil => rfl
  | cons entry entries =>
    obtain ⟨key, value⟩ := entry
    unfold chain at h
    cases hleaf : leaf key value with
    | error failure =>
      rw [hleaf] at h
      cases h
    | ok tree =>
      cases hchain : chain entries with
      | error failure =>
        rw [hleaf, hchain] at h
        cases h
      | ok rest =>
        rw [hleaf, hchain] at h
        cases rest <;> cases h

theorem leaves_chain {entries : Entries} {root : Tree} (h : entries.chain = .ok (some root))
    {fuel : Nat} (hfuel : root.depth < fuel) :
    values (leaves fuel root) = entries.map fun entry => (entry.1, entry.2.bits) := by
  induction entries generalizing root fuel with
  | nil => cases h
  | cons entry entries ih =>
    obtain ⟨key, value⟩ := entry
    obtain ⟨fuel, rfl⟩ : ∃ n, fuel = n + 1 := ⟨fuel - 1, by omega⟩
    unfold chain at h
    cases hleaf : leaf key value with
    | error failure =>
      rw [hleaf] at h
      cases h
    | ok tree =>
      obtain ⟨hkey, hbits⟩ := unleaf_leaf hleaf
      cases hchain : chain entries with
      | error failure =>
        rw [hleaf, hchain] at h
        cases h
      | ok rest =>
        rw [hleaf, hchain] at h
        cases rest with
        | none =>
          cases h
          rw [chain_eq_none hchain]
          simp [leaves, Tree.refs, values, hkey, hbits]
        | some node =>
          cases h
          have hdepth : node.depth < fuel := by
            simp only [Tree.depth, Tree.depthRefs] at hfuel
            omega
          have hrest := ih hchain hdepth
          simp only [values] at hrest
          simp [leaves, Tree.refs, values, hkey, hbits, hrest]

theorem values_ofDict {entries : Entries} {data : Option Tree} (h : entries.chain = .ok data)
    (bitLen : Nat) : values (ofDict ⟨bitLen, data⟩) = entries.map fun entry => (entry.1, entry.2.bits) := by
  cases data with
  | none =>
    rw [chain_eq_none h]
    rfl
  | some root => exact leaves_chain h (Nat.lt_succ_self _)

end Entries

theorem dictValue_eq (dict : HashmapE) :
    dictValue dict = lookup (Entries.values (Entries.ofDict dict)) := by
  funext key
  exact (lookup_map Slice.bits (Entries.ofDict dict) key).symm

/-- A dictionary that is written back has the entries that it is written with. -/
theorem ensures_store (bitLen : Nat) (entries : Entries) :
    Engine.Ensures (store bitLen entries) fun dict => dict.bitLen = bitLen ∧
      Entries.values (Entries.ofDict dict) = entries.map fun entry => (entry.1, entry.2.bits) := by
  refine .bind (.lift fun data hdata => hdata) fun data hdata => ?_
  cases data with
  | none => exact .pure ⟨rfl, Entries.values_ofDict hdata bitLen⟩
  | some root =>
    intro e dict t h
    obtain ⟨cell, s, hcell, hpure⟩ := exec_bind_eq_ok h
    cases hpure
    obtain ⟨type, bits, refs⟩ := root
    have hroot : cell = .mk type bits refs := finalize_eq_ok (Engine.exec_finalizeCell_eq_ok hcell).1
    rw [hroot]
    exact ⟨rfl, Entries.values_ofDict hdata bitLen⟩

theorem stores_insert {dict dict' : HashmapE} (hdict : IsDict dict) {key : List Bool}
    (hkey : key.length = dict.bitLen) {value : Builder} (hlen : dict'.bitLen = dict.bitLen)
    (h : Entries.values (Entries.ofDict dict') =
      ((Entries.load dict).insert key value).map fun entry => (entry.1, entry.2.bits)) :
    Stores dict key value.bits dict' := by
  have hload : ((Entries.load dict).map Prod.fst).Nodup := by
    rw [Entries.load, List.map_map]
    exact hdict.nodup
  have hkeys : (Entries.ofDict dict').map Prod.fst =
      ((Entries.load dict).insert key value).map Prod.fst := by
    have hfst := congrArg (List.map Prod.fst) h
    rwa [Entries.values, List.map_map, List.map_map] at hfst
  have hvalues : Entries.values (Entries.ofDict dict) =
      (Entries.load dict).map fun entry => (entry.1, entry.2.bits) := by
    rw [Entries.load, List.map_map]
    rfl
  refine ⟨⟨fun entry hentry => ?_, ?_⟩, hlen, ?_⟩
  · have hmem : entry.1 ∈ ((Entries.load dict).insert key value).map Prod.fst :=
      hkeys ▸ List.mem_map_of_mem hentry
    obtain ⟨inserted, hinserted, hfst⟩ := List.mem_map.1 hmem
    rw [hlen, ← hfst]
    rcases (Entries.mem_insert hload inserted).1 hinserted with rfl | ⟨hold, -⟩
    · exact hkey
    · obtain ⟨old, hmem, rfl⟩ := List.mem_map.1 hold
      exact hdict.length old hmem
  · show ((Entries.ofDict dict').map Prod.fst).Nodup
    rw [hkeys]
    exact Entries.nodup_insert hload
  · have hset : lookup ((Entries.load dict).insert key value) =
        Function.update (lookup (Entries.load dict)) key (some value) :=
      lookup_update hload (Entries.nodup_insert hload) (Entries.mem_insert hload)
    funext k
    rw [dictValue_eq, dictValue_eq, h, hvalues, lookup_map, hset]
    by_cases hk : k = key
    · subst hk
      rw [Function.update_self, Function.update_self]
      rfl
    · rw [Function.update_of_ne hk, Function.update_of_ne hk, lookup_map]

scoped instance lawfulStores : LawfulStores where
  dictEntries_none _ := rfl
  fromRaw bytes n _ := bits_whole _
  loadCell builder cell slice hcell hslice := by
    have hslice : (if cell.type = .prunedBranch then .error .other else .ok (.whole cell)) =
        (.ok slice : Except Failure Slice) := hslice
    split_ifs at hslice
    cases hslice
    exact (bits_whole cell).trans (by rw [finalize_eq_ok hcell]; rfl)
  getNextInt_le slice n result h := by
    obtain ⟨next, hnext, -⟩ := bind_eq_ok h
    unfold Slice.next at hnext
    split_ifs at hnext with hle
    exact hle
  getWithGas dict key _ _ := by
    refine .bind (Q := fun _ => True) (.of_all (.any _)) fun _ _ => .pure ?_
    rfl
  updateWithGas dict key value hdict hkey := by
    refine .bind (Q := fun _ => True) (.of_all (.any _)) fun _ _ => ?_
    refine .bind (ensures_store _ _) fun dict' hdict' => .pure ?_
    obtain ⟨hlen, hentries⟩ := hdict'
    exact stores_insert hdict hkey hlen hentries

end Plain

end TonVm
