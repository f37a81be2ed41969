import Mathlib

/-!
# Finite maps as lists of entries

A list of entries with distinct keys is a finite map. What is known of the map by its lookups says how
many entries there are and what they add up to.
-/

namespace FiniteMap

variable {κ ν μ : Type} [DecidableEq κ]

/-- The value of the first entry with a key. -/
def lookup (entries : List (κ × ν)) (key : κ) : Option ν :=
  (entries.find? fun entry => entry.1 = key).map Prod.snd

theorem lookup_nil (key : κ) : lookup ([] : List (κ × ν)) key = none := rfl

theorem lookup_isSome {entries : List (κ × ν)} {key : κ} :
    (lookup entries key).isSome ↔ key ∈ entries.map Prod.fst := by
  rw [lookup, Option.isSome_map, List.find?_isSome, List.mem_map]
  simp only [decide_eq_true_iff]

theorem lookup_map (f : ν → μ) (entries : List (κ × ν)) (key : κ) :
    lookup (entries.map fun entry => (entry.1, f entry.2)) key = (lookup entries key).map f := by
  rw [lookup, lookup, List.find?_map, Option.map_map, Option.map_map]
  rfl

theorem lookup_eq_some {entries : List (κ × ν)} (h : (entries.map Prod.fst).Nodup) {key : κ}
    {value : ν} : lookup entries key = some value ↔ (key, value) ∈ entries := by
  constructor
  · intro hlookup
    obtain ⟨⟨k, v⟩, hfind, hv⟩ := Option.map_eq_some_iff.1 hlookup
    cases hv
    have hkey : k = key := by simpa using List.find?_some hfind
    exact hkey ▸ List.mem_of_find?_eq_some hfind
  · intro hmem
    have hsome : (lookup entries key).isSome := lookup_isSome.2 (List.mem_map_of_mem hmem)
    obtain ⟨found, hfound⟩ := Option.isSome_iff_exists.1 hsome
    obtain ⟨⟨k, v⟩, hfind, hv⟩ := Option.map_eq_some_iff.1 hfound
    cases hv
    have hkey : k = key := by simpa using List.find?_some hfind
    have heq := List.inj_on_of_nodup_map h (List.mem_of_find?_eq_some hfind) hmem hkey
    rw [hfound, congrArg Prod.snd heq]

/-- The map after its value at a key has been set. -/
theorem lookup_update {entries entries' : List (κ × ν)} (h : (entries.map Prod.fst).Nodup)
    (h' : (entries'.map Prod.fst).Nodup) {key : κ} {value : ν}
    (hmem : ∀ entry, entry ∈ entries' ↔ entry = (key, value) ∨ entry ∈ entries ∧ entry.1 ≠ key) :
    lookup entries' = Function.update (lookup entries) key (some value) := by
  funext k
  ext v
  rw [lookup_eq_some h', hmem]
  by_cases hk : k = key
  · subst hk
    simp [eq_comm]
  · rw [Function.update_of_ne hk, lookup_eq_some h]
    simp [hk]

/-- Where the keys are known, they are the keys of the entries. -/
theorem keys_perm {entries : List (κ × ν)} (h : (entries.map Prod.fst).Nodup) {keys : List κ}
    (hkeys : keys.Nodup) (hmem : ∀ k, (lookup entries k).isSome ↔ k ∈ keys) :
    (entries.map Prod.fst).Perm keys :=
  (List.perm_ext_iff_of_nodup h hkeys).2 fun k => lookup_isSome.symm.trans (hmem k)

/-- The values of the entries add up to those of the keys. -/
theorem sum_values {entries : List (κ × ν)} (h : (entries.map Prod.fst).Nodup) {keys : List κ}
    (hkeys : keys.Nodup) (hmem : ∀ k, (lookup entries k).isSome ↔ k ∈ keys) (f : ν → Nat) :
    (entries.map fun entry => f entry.2).sum = (keys.map fun k => (lookup entries k).elim 0 f).sum := by
  rw [← ((keys_perm h hkeys hmem).map _).sum_eq, List.map_map]
  refine congrArg List.sum (List.map_congr_left fun entry hentry => ?_)
  have hlookup : lookup entries entry.1 = some entry.2 := (lookup_eq_some h).2 hentry
  rw [Function.comp_apply, hlookup, Option.elim_some]

/-- The values of the entries, added up over any keys that are enough. -/
theorem sum_eq_sum_lookup {entries : List (κ × ν)} (h : (entries.map Prod.fst).Nodup) {keys : Finset κ}
    (hkeys : ∀ k ∈ entries.map Prod.fst, k ∈ keys) (f : ν → Nat) :
    (entries.map fun entry => f entry.2).sum = ∑ k ∈ keys, (lookup entries k).elim 0 f := by
  have hsubset : (entries.map Prod.fst).toFinset ⊆ keys := fun k hk => hkeys k (List.mem_toFinset.1 hk)
  rw [sum_values h h (fun _ => lookup_isSome) f, ← List.sum_toFinset _ h]
  refine Finset.sum_subset hsubset fun k _ hk => ?_
  rw [List.mem_toFinset, ← lookup_isSome, Option.not_isSome_iff_eq_none] at hk
  rw [hk, Option.elim_none]

/-- Setting a key changes the sum of the values by the difference at the key. -/
theorem sum_update {entries entries' : List (κ × ν)} (h : (entries.map Prod.fst).Nodup)
    (h' : (entries'.map Prod.fst).Nodup) {key : κ} {value : ν}
    (hset : lookup entries' = Function.update (lookup entries) key (some value)) (f : ν → Nat) :
    (entries'.map fun entry => f entry.2).sum + (lookup entries key).elim 0 f =
      (entries.map fun entry => f entry.2).sum + f value := by
  have hold (k : κ) (hk : k ∈ entries.map Prod.fst) :
      k ∈ insert key (entries.map Prod.fst).toFinset := by
    simp only [Finset.mem_insert, List.mem_toFinset]
    exact .inr hk
  have hnew (k : κ) (hk : k ∈ entries'.map Prod.fst) :
      k ∈ insert key (entries.map Prod.fst).toFinset := by
    simp only [Finset.mem_insert, List.mem_toFinset]
    by_cases hkey : k = key
    · exact .inl hkey
    · rw [← lookup_isSome, hset, Function.update_of_ne hkey, lookup_isSome] at hk
      exact .inr hk
  have helim : (fun k => (lookup entries' k).elim 0 f) =
      Function.update (fun k => (lookup entries k).elim 0 f) key (f value) := by
    funext k
    rw [hset]
    by_cases hkey : k = key
    · subst hkey
      rw [Function.update_self, Function.update_self, Option.elim_some]
    · rw [Function.update_of_ne hkey, Function.update_of_ne hkey]
  have hmem : key ∈ insert key (entries.map Prod.fst).toFinset := Finset.mem_insert_self _ _
  rw [sum_eq_sum_lookup h hold f, sum_eq_sum_lookup h' hnew f, helim, Finset.sum_update_of_mem hmem,
    ← Finset.add_sum_erase _ _ hmem, Finset.sdiff_singleton_eq_erase]
  omega

/-! ### Writing one entry after the other -/

/-- A map after some entries have been written to it. -/
def writes (map : κ → Option ν) (entries : List (κ × ν)) : κ → Option ν :=
  entries.foldl (fun map entry => Function.update map entry.1 (some entry.2)) map

theorem writes_cons (map : κ → Option ν) (entry : κ × ν) (entries : List (κ × ν)) :
    writes map (entry :: entries) = writes (Function.update map entry.1 (some entry.2)) entries := rfl

theorem writes_isSome {map : κ → Option ν} {entries : List (κ × ν)} {key : κ} :
    (writes map entries key).isSome ↔ (map key).isSome ∨ key ∈ entries.map Prod.fst := by
  induction entries generalizing map with
  | nil => simp [writes]
  | cons entry entries ih =>
    rw [writes_cons, ih, List.map_cons, List.mem_cons, ← or_assoc]
    by_cases hk : key = entry.1
    · subst hk
      simp
    · rw [Function.update_of_ne hk]
      simp [hk]

theorem writes_of_notMem {map : κ → Option ν} {entries : List (κ × ν)} {key : κ}
    (h : key ∉ entries.map Prod.fst) : writes map entries key = map key := by
  induction entries generalizing map with
  | nil => rfl
  | cons entry entries ih =>
    rw [List.map_cons, List.mem_cons, not_or] at h
    rw [writes_cons, ih h.2, Function.update_of_ne h.1]

/-- No entry is written over where the keys are distinct. -/
theorem writes_of_mem {map : κ → Option ν} {entries : List (κ × ν)}
    (h : (entries.map Prod.fst).Nodup) {entry : κ × ν} (hmem : entry ∈ entries) :
    writes map entries entry.1 = some entry.2 := by
  induction entries generalizing map with
  | nil => cases hmem
  | cons first entries ih =>
    rw [List.map_cons, List.nodup_cons] at h
    rw [writes_cons]
    rcases List.mem_cons.1 hmem with rfl | hmem
    · rw [writes_of_notMem h.1, Function.update_self]
    · exact ih h.2 hmem

end FiniteMap
