import Mathlib.Order.Bounds.Basic

/-!
# Neighbours in an ordered map

A map from an ordered type of keys, and the first of its entries in a direction among the keys with a
property. Searches from a key are the case of the keys beyond it.
-/

namespace OrderedMap

variable {κ ν : Type} [LinearOrder κ]

/-- The keys of a map with a property. -/
def keys (map : κ → Option ν) (P : κ → Prop) : Set κ := {k | (map k).isSome ∧ P k}

/-- The least element of a set for `next`, the greatest otherwise. -/
def IsFirst (next : Bool) (s : Set κ) (k : κ) : Prop := if next then IsLeast s k else IsGreatest s k

/-- The first entry in a direction among the keys with a property, or none where there is no key. -/
def FirstEntry (next : Bool) (map : κ → Option ν) (P : κ → Prop) : Option (κ × ν) → Prop
  | some (k, v) => map k = some v ∧ IsFirst next (keys map P) k
  | none => keys map P = ∅

/-- The keys after `i` in a direction, with `i` itself for `same`. -/
def Beyond (next same : Bool) (i k : κ) : Prop :=
  match next, same with
  | true, false => i < k
  | true, true => i ≤ k
  | false, false => k < i
  | false, true => k ≤ i

theorem firstEntry_congr {next : Bool} {map : κ → Option ν} {P Q : κ → Prop}
    (h : ∀ k, (map k).isSome → (P k ↔ Q k)) (found : Option (κ × ν)) :
    FirstEntry next map P found ↔ FirstEntry next map Q found := by
  have hkeys : keys map P = keys map Q := Set.ext fun k => and_congr_right (h k)
  unfold FirstEntry
  rw [hkeys]

theorem firstEntry_none {next : Bool} {map : κ → Option ν} {P : κ → Prop}
    (h : ∀ k, (map k).isSome → ¬P k) : FirstEntry next map P none :=
  Set.eq_empty_iff_forall_notMem.2 fun k hk => h k hk.1 hk.2

/-- Everything is beyond a point on the near side. -/
theorem beyond_of_lt {next same : Bool} {i k : κ} (h : if next then i < k else k < i) :
    Beyond next same i k := by
  cases next <;> cases same
  · exact h
  · exact le_of_lt h
  · exact h
  · exact le_of_lt h

/-- Nothing is beyond a point on the far side. -/
theorem not_beyond_of_lt {next same : Bool} {i k : κ} (h : if next then k < i else i < k) :
    ¬Beyond next same i k := by
  cases next <;> cases same
  · exact not_lt_of_gt h
  · exact not_le_of_gt h
  · exact not_lt_of_gt h
  · exact not_le_of_gt h

end OrderedMap
