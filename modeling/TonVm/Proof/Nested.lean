import TonVm.Stack.Item
import TonVm.Proof.KeepsStorage

/-!
# What is nested in an item

An item may hold others: a tuple its elements, a continuation its stack and what is saved in its save
list. `Within x item` says that `x` is found in an item at some depth, and `Every P item` that all that
is found there has a property.
-/

namespace TonVm

open ExecLib

variable {α β : Type}

/-- A slot holds what was written last to one of the slots, or what it held before. -/
theorem SaveListOf.slot_setSlot (list : SaveListOf α) (value : Option α) (j k : Nat) :
    (list.setSlot j value).slot k = value ∨ (list.setSlot j value).slot k = list.slot k := by
  rcases j with _ | _ | _ | _ | _ | _ | _ | j <;> rcases k with _ | _ | _ | _ | _ | _ | _ | k <;>
    first | exact .inr rfl | exact .inl rfl

/-! ### Nested items -/

variable [TonTypes]

namespace StackItem

/-- `x` is the item or is found in it. -/
inductive Within (x : StackItem) : StackItem → Prop where
  | self : Within x x
  | tuple {items : List StackItem} {item : StackItem} (h : item ∈ items) (hx : Within x item) :
      Within x (.tuple items)
  | stack {cont : ContinuationData} {item : StackItem} (h : item ∈ cont.stack)
      (hx : Within x item) : Within x (.continuation cont)
  | saved {cont : ContinuationData} {index : Nat} {item : StackItem}
      (h : cont.savelist.get index = some item) (hx : Within x item) : Within x (.continuation cont)

/-- All that is found in the item, the item included, has a property. -/
def Every (P : StackItem → Prop) (item : StackItem) : Prop := ∀ x, Within x item → P x

end StackItem

/-- All that is found in the entries has a property. -/
def SaveListOf.Every (P : StackItem → Prop) (list : SaveList) : Prop :=
  ∀ index item, list.get index = some item → item.Every P

/-- All that is found in the stack and in the save list has a property. -/
structure ContinuationOf.Every (P : StackItem → Prop) (cont : ContinuationData) : Prop where
  stack : ∀ item ∈ cont.stack, item.Every P
  savelist : cont.savelist.Every P

variable {P : StackItem → Prop}

namespace StackItem

theorem Every.here {item : StackItem} (h : item.Every P) : P item := h item .self

@[simp]
theorem every_tuple (items : List StackItem) :
    (StackItem.tuple items).Every P ↔ P (.tuple items) ∧ ∀ item ∈ items, item.Every P := by
  constructor
  · intro h
    exact ⟨h.here, fun item hitem x hx => h x (.tuple hitem hx)⟩
  · rintro ⟨hself, hitems⟩ x (_ | ⟨hitem, hx⟩)
    · exact hself
    · exact hitems _ hitem x hx

@[simp]
theorem every_continuation (cont : ContinuationData) :
    (StackItem.continuation cont).Every P ↔ P (.continuation cont) ∧ cont.Every P := by
  constructor
  · intro h
    exact ⟨h.here, fun item hitem x hx => h x (.stack hitem hx),
      fun index item hget x hx => h x (.saved hget hx)⟩
  · rintro ⟨hself, hcont⟩ x (_ | _ | ⟨hitem, hx⟩ | ⟨hget, hx⟩)
    · exact hself
    · exact hcont.stack _ hitem x hx
    · exact hcont.savelist _ _ hget x hx

@[simp]
theorem every_none : StackItem.none.Every P ↔ P .none := by
  refine ⟨Every.here, fun h x hx => ?_⟩
  cases hx
  exact h

@[simp]
theorem every_integer (value : IntegerData) :
    (StackItem.integer value).Every P ↔ P (.integer value) := by
  refine ⟨Every.here, fun h x hx => ?_⟩
  cases hx
  exact h

@[simp]
theorem every_cell (cell : Cell) : (StackItem.cell cell).Every P ↔ P (.cell cell) := by
  refine ⟨Every.here, fun h x hx => ?_⟩
  cases hx
  exact h

@[simp]
theorem every_slice (slice : SliceData) : (StackItem.slice slice).Every P ↔ P (.slice slice) := by
  refine ⟨Every.here, fun h x hx => ?_⟩
  cases hx
  exact h

@[simp]
theorem every_builder (builder : BuilderData) :
    (StackItem.builder builder).Every P ↔ P (.builder builder) := by
  refine ⟨Every.here, fun h x hx => ?_⟩
  cases hx
  exact h

end StackItem

/-! ### Save lists -/

namespace SaveListOf

theorem every_empty : Every P ({} : SaveList) := by
  intro index item h
  unfold get slot at h
  split at h <;> cases h

theorem every_put {list list' : SaveList} {index : Nat} {item : StackItem} (h : list.Every P)
    (hitem : item.Every P) (hput : SaveList.put list index item = .ok list') : list'.Every P := by
  unfold SaveList.put at hput
  split at hput
  · cases hput
    intro i x hget
    rcases slot_setSlot list (some item) (adjust index) (adjust i) with hnew | hold
    · obtain rfl : item = x := Option.some.inj (hnew.symm.trans hget)
      exact hitem
    · exact h i x (hold.symm.trans hget)
  · cases hput

end SaveListOf

end TonVm
