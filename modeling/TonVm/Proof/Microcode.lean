import TonVm.Proof.EngineExec
import TonVm.Executor.Exceptions
import TonVm.Executor.ControlFlow

/-!
# Running the microcode

What the microcode does to the current continuation, the registers and the instruction variables. A
state is written as `e.holding cc ctrls vars`: an engine with these three replaced.
-/

namespace TonVm

open ExecLib

/-! ### Addresses -/

section Addresses

variable {i j : Nat}

@[simp]
theorem place_cc : Place.of Addr.CC = .cc := rfl

@[simp]
theorem place_var (h : i < 16) : Place.of (Addr.var i) = .var := by
  revert i
  decide

@[simp]
theorem place_ctrl (h : i < 16) : Place.of (Addr.ctrl i) = .ctrl := by
  revert i
  decide

@[simp]
theorem place_ccSavelist (h : i < 8) : Place.of (Addr.savelist Addr.CC i) = .ccSavelist := by
  revert i
  decide

@[simp]
theorem place_ctrlSavelist (hi : i < 16) (hj : j < 8) :
    Place.of (Addr.savelist (Addr.ctrl i) j) = .ctrlSavelist := by
  revert j
  revert i
  decide

@[simp]
theorem place_varSavelist (hi : i < 16) (hj : j < 8) :
    Place.of (Addr.savelist (Addr.var i) j) = .varSavelist := by
  revert j
  revert i
  decide

@[simp]
theorem storageIndex_var (h : i < 16) : Addr.storageIndex (Addr.var i) = i := by
  revert i
  decide

@[simp]
theorem storageIndex_ctrl (h : i < 16) : Addr.storageIndex (Addr.ctrl i) = i := by
  revert i
  decide

@[simp]
theorem storageIndex_ctrlSavelist (hi : i < 16) (hj : j < 8) :
    Addr.storageIndex (Addr.savelist (Addr.ctrl i) j) = i := by
  revert j
  revert i
  decide

@[simp]
theorem storageIndex_varSavelist (hi : i < 16) (hj : j < 8) :
    Addr.storageIndex (Addr.savelist (Addr.var i) j) = i := by
  revert j
  revert i
  decide

@[simp]
theorem savelistIndex_ccSavelist (h : i < 8) :
    Addr.savelistIndex (Addr.savelist Addr.CC i) = i := by
  revert i
  decide

@[simp]
theorem savelistIndex_ctrlSavelist (hi : i < 16) (hj : j < 8) :
    Addr.savelistIndex (Addr.savelist (Addr.ctrl i) j) = j := by
  revert j
  revert i
  decide

@[simp]
theorem savelistIndex_varSavelist (hi : i < 16) (hj : j < 8) :
    Addr.savelistIndex (Addr.savelist (Addr.var i) j) = j := by
  revert j
  revert i
  decide

@[simp]
theorem addressTag_cc : Addr.addressTag Addr.CC = 0 := rfl

@[simp]
theorem addressTag_var (h : i < 16) : Addr.addressTag (Addr.var i) = 0x300 := by
  revert i
  decide

@[simp]
theorem addressTag_ctrl (h : i < 16) : Addr.addressTag (Addr.ctrl i) = 0x100 := by
  revert i
  decide

@[simp]
theorem addressTag_ccSavelist (h : i < 8) :
    Addr.addressTag (Addr.savelist Addr.CC i) = 0x800 := by
  revert i
  decide

@[simp]
theorem addressTag_ctrlSavelist (hi : i < 16) (hj : j < 8) :
    Addr.addressTag (Addr.savelist (Addr.ctrl i) j) = 0x900 := by
  revert j
  revert i
  decide

@[simp]
theorem addressTag_varSavelist (hi : i < 16) (hj : j < 8) :
    Addr.addressTag (Addr.savelist (Addr.var i) j) = 0xB00 := by
  revert j
  revert i
  decide

end Addresses

/-! ### Save lists -/

namespace SaveListOf

variable {α : Type} (list : SaveListOf α)

/-- A list with the entry of a register replaced, by nothing too. -/
def setOpt (index : Nat) (value : Option α) : SaveListOf α := list.setSlot (adjust index) value

theorem putOpt_eq (index : Nat) (value : α) : list.putOpt index value = list.setOpt index (some value) :=
  rfl

theorem remove_eq (index : Nat) : list.remove index = list.setOpt index none := rfl

theorem get_setOpt {index : Nat} (h : index ∈ regs) (value : Option α) :
    (list.setOpt index value).get index = value := by
  simp only [regs, List.mem_cons, List.not_mem_nil, or_false] at h
  rcases h with rfl | rfl | rfl | rfl | rfl | rfl | rfl <;> rfl

theorem setOpt_setOpt {index : Nat} (h : index ∈ regs) (value value' : Option α) :
    (list.setOpt index value).setOpt index value' = list.setOpt index value' := by
  simp only [regs, List.mem_cons, List.not_mem_nil, or_false] at h
  rcases h with rfl | rfl | rfl | rfl | rfl | rfl | rfl <;> rfl

theorem setOpt_get {index : Nat} (h : index ∈ regs) : list.setOpt index (list.get index) = list := by
  simp only [regs, List.mem_cons, List.not_mem_nil, or_false] at h
  rcases h with rfl | rfl | rfl | rfl | rfl | rfl | rfl <;> rfl

@[simp]
theorem get_zero : list.get 0 = list.c0 := rfl

@[simp]
theorem get_one : list.get 1 = list.c1 := rfl

@[simp]
theorem get_two : list.get 2 = list.c2 := rfl

@[simp]
theorem setOpt_zero (value : Option α) : list.setOpt 0 value = { list with c0 := value } := rfl

@[simp]
theorem setOpt_one (value : Option α) : list.setOpt 1 value = { list with c1 := value } := rfl

@[simp]
theorem setOpt_two (value : Option α) : list.setOpt 2 value = { list with c2 := value } := rfl

end SaveListOf

theorem lt_of_mem_regs {i : Nat} (h : i ∈ SaveListOf.regs) : i < 8 := by
  simp only [SaveListOf.regs, List.mem_cons, List.not_mem_nil, or_false] at h
  omega

theorem listIndex_ctrl {i : Nat} (h : i < 16) : Engine.listIndex (Addr.ctrl i) = i := by
  simp only [Engine.listIndex, place_ctrl h, storageIndex_ctrl h]

theorem listIndex_ccSavelist {i : Nat} (h : i < 8) : Engine.listIndex (Addr.savelist Addr.CC i) = i := by
  simp only [Engine.listIndex, place_ccSavelist h, savelistIndex_ccSavelist h]

theorem listIndex_varSavelist {k i : Nat} (hk : k < 16) (hi : i < 8) :
    Engine.listIndex (Addr.savelist (Addr.var k) i) = i := by
  simp only [Engine.listIndex, place_varSavelist hk hi, savelistIndex_varSavelist hk hi]

theorem listIndex_ctrlSavelist {k i : Nat} (hk : k < 16) (hi : i < 8) :
    Engine.listIndex (Addr.savelist (Addr.ctrl k) i) = i := by
  simp only [Engine.listIndex, place_ctrlSavelist hk hi, savelistIndex_ctrlSavelist hk hi]

section States

variable [TonTypes]

/-- A value of the type of a register, or none. -/
def Fits (index : Nat) (value : Option StackItem) : Prop :=
  ∀ item, value = some item → SaveList.canPut index item = true

theorem fits_continuation {i : Nat} (hi : i = 0 ∨ i = 1) (cont : ContinuationData) :
    Fits i (some (.continuation cont)) := by
  rintro _ ⟨⟩
  rcases hi with rfl | rfl <;> rfl

omit [TonTypes] in
theorem mem_regs_of {i : Nat} (hi : i = 0 ∨ i = 1) : i ∈ SaveListOf.regs := by
  rcases hi with rfl | rfl <;> decide

namespace Engine

/-! ### States -/

/-- An engine with another current continuation, registers and variables. -/
def holding (e : Engine) (cc : ContinuationData) (ctrls : SaveList) (vars : List StackItem) : Engine :=
  { e with cc, ctrls, cmd.vars := vars }

variable (e : Engine) (cc cc' : ContinuationData) (ctrls ctrls' : SaveList) (vars vars' : List StackItem)

theorem eq_holding : e = e.holding e.cc e.ctrls e.cmd.vars := rfl

@[simp]
theorem holding_cc : (e.holding cc ctrls vars).cc = cc := rfl

@[simp]
theorem holding_ctrls : (e.holding cc ctrls vars).ctrls = ctrls := rfl

@[simp]
theorem holding_vars : (e.holding cc ctrls vars).cmd.vars = vars := rfl

@[simp]
theorem holding_params : (e.holding cc ctrls vars).cmd.params = e.cmd.params := rfl

@[simp]
theorem holding_gas : (e.holding cc ctrls vars).gas = e.gas := rfl

@[simp]
theorem holding_holding : (e.holding cc ctrls vars).holding cc' ctrls' vars' = e.holding cc' ctrls' vars' := rfl

/-! ### Lists by address -/

@[simp]
theorem exec_listAt_ctrl {i : Nat} (h : i < 16) :
    exec (listAt (Addr.ctrl i)) e = (.ok e.ctrls, e) := by
  simp only [listAt, place_ctrl h]
  rfl

@[simp]
theorem exec_setListAt_ctrl {i : Nat} (h : i < 16) (list : SaveList) :
    exec (setListAt (Addr.ctrl i) list) e = (.ok (), e.holding e.cc list e.cmd.vars) := by
  simp only [setListAt, place_ctrl h]
  rfl

@[simp]
theorem exec_listAt_ccSavelist {i : Nat} (h : i < 8) :
    exec (listAt (Addr.savelist Addr.CC i)) e = (.ok e.cc.savelist, e) := by
  simp only [listAt, place_ccSavelist h]
  rfl

@[simp]
theorem exec_setListAt_ccSavelist {i : Nat} (h : i < 8) (list : SaveList) :
    exec (setListAt (Addr.savelist Addr.CC i) list) e =
      (.ok (), e.holding { e.cc with savelist := list } e.ctrls e.cmd.vars) := by
  simp only [setListAt, place_ccSavelist h]
  rfl

theorem exec_var {k : Nat} {v : StackItem} (h : e.cmd.vars[k]? = some v) :
    exec (var k) e = (.ok v, e) := by
  simp only [var, exec_bind_get, h]
  rfl

theorem exec_ctrl {i : Nat} {item : StackItem} (h : e.ctrls.get i = some item) :
    exec (ctrl i) e = (.ok item, e) := by
  simp only [ctrl, exec_bind_get, h]
  rfl

theorem exec_setVar {k : Nat} (h : k < e.cmd.vars.length) (v : StackItem) :
    exec (setVar k v) e = (.ok (), e.holding e.cc e.ctrls (e.cmd.vars.set k v)) := by
  simp only [setVar, exec_bind_get, h, if_true]
  rfl

theorem exec_listAt_varSavelist {k i : Nat} {cont : ContinuationData} (hk : k < 16) (hi : i < 8)
    (h : e.cmd.vars[k]? = some (.continuation cont)) :
    exec (listAt (Addr.savelist (Addr.var k) i)) e = (.ok cont.savelist, e) := by
  simp only [listAt, place_varSavelist hk hi, storageIndex_varSavelist hk hi]
  rw [exec_bind_ok (exec_var e h)]
  rfl

theorem exec_setListAt_varSavelist {k i : Nat} {cont : ContinuationData} (hk : k < 16) (hi : i < 8)
    (h : e.cmd.vars[k]? = some (.continuation cont)) (list : SaveList) :
    exec (setListAt (Addr.savelist (Addr.var k) i) list) e =
      (.ok (), e.holding e.cc e.ctrls
        (e.cmd.vars.set k (.continuation { cont with savelist := list }))) := by
  simp only [setListAt, place_varSavelist hk hi, storageIndex_varSavelist hk hi]
  rw [exec_bind_ok (exec_var e h)]
  exact exec_setVar e (List.getElem?_eq_some_iff.1 h).1 _

theorem exec_listAt_ctrlSavelist {k i : Nat} {cont : ContinuationData} (hk : k < 16) (hi : i < 8)
    (h : e.ctrls.get k = some (.continuation cont)) :
    exec (listAt (Addr.savelist (Addr.ctrl k) i)) e = (.ok cont.savelist, e) := by
  simp only [listAt, place_ctrlSavelist hk hi, storageIndex_ctrlSavelist hk hi, exec_bind_get, h]
  rfl

theorem exec_setListAt_ctrlSavelist {k i : Nat} {cont : ContinuationData} (hk : k < 16) (hi : i < 8)
    (h : e.ctrls.get k = some (.continuation cont)) (list : SaveList) :
    exec (setListAt (Addr.savelist (Addr.ctrl k) i) list) e =
      (.ok (), e.holding e.cc
        (e.ctrls.setOpt k (some (.continuation { cont with savelist := list }))) e.cmd.vars) := by
  simp only [setListAt, place_ctrlSavelist hk hi, storageIndex_ctrlSavelist hk hi, exec_bind_get, h]
  rfl

/-! ### Swaps -/

/-- The two lists of a state that is given as a function of them. -/
structure TwoLists (x y : Nat) (state : SaveList → SaveList → Engine) : Prop where
  listx : ∀ a b, exec (listAt x) (state a b) = (.ok a, state a b)
  listy : ∀ a b, exec (listAt y) (state a b) = (.ok b, state a b)
  setx : ∀ a b list, exec (setListAt x list) (state a b) = (.ok (), state list b)
  sety : ∀ a b list, exec (setListAt y list) (state a b) = (.ok (), state a list)

theorem TwoLists.symm {x y : Nat} {state : SaveList → SaveList → Engine} (h : TwoLists x y state) :
    TwoLists y x fun a b => state b a where
  listx a b := h.listy b a
  listy a b := h.listx b a
  setx a b list := h.sety b a list
  sety a b list := h.setx b a list

section TwoLists

variable {x y i j : Nat} {state : SaveList → SaveList → Engine} {a b : SaveList}

theorem exec_putToListFromList (h : TwoLists x y state) (hx : listIndex x = i) (hy : listIndex y = j)
    {item : StackItem} (hitem : b.get j = some item) (hput : SaveList.canPut i item = true) :
    exec (putToListFromList x y) (state a b) =
      (.ok (a.get i), state (a.setOpt i (some item)) (b.setOpt j none)) := by
  simp only [putToListFromList, putToList, exec_bind, h.listx, h.listy, h.setx, h.sety, hx, hy, hitem,
    hput, if_true, SaveList.put, lift_ok, exec_pure, SaveListOf.putOpt_eq, SaveListOf.remove_eq]

/-- Two entries that fit at each other's place are exchanged. -/
theorem exec_swapBetweenLists (h : TwoLists x y state) (hi : i ∈ SaveListOf.regs)
    (hj : j ∈ SaveListOf.regs) (hx : listIndex x = i) (hy : listIndex y = j)
    (ha : Fits j (a.get i)) (hb : Fits i (b.get j)) :
    exec (swapBetweenLists x y) (state a b) =
      (.ok (), state (a.setOpt i (b.get j)) (b.setOpt j (a.get i))) := by
  unfold swapBetweenLists
  rw [exec_bind_ok (h.listy a b), hy]
  cases hbj : b.get j with
  | some item =>
    rw [Option.isSome_some, if_pos rfl,
      exec_bind_ok (exec_putToListFromList h hx hy hbj (hb item hbj))]
    cases hai : a.get i with
    | some old =>
      simp only [putToList, exec_bind, h.listy, h.sety, hy, ha old hai, if_true, SaveList.put, lift_ok,
        exec_pure, SaveListOf.putOpt_eq, SaveListOf.setOpt_setOpt _ hj]
    | none => rfl
  | none =>
    rw [Option.isSome_none, if_neg Bool.false_ne_true, exec_bind_ok (h.listx a b), hx]
    cases hai : a.get i with
    | some old =>
      rw [Option.isSome_some, if_pos rfl,
        exec_bind_ok (exec_putToListFromList h.symm hy hx hai (ha old hai))]
      rfl
    | none =>
      rw [Option.isSome_none, if_neg Bool.false_ne_true, ← hai, SaveListOf.setOpt_get a hi, hai, ← hbj,
        SaveListOf.setOpt_get b hj]
      rfl

end TwoLists

/-- A list and a variable of a state that is given as a function of them. -/
structure ListAndVar (x k : Nat) (state : SaveList → StackItem → Engine) : Prop where
  list : ∀ a v, exec (listAt x) (state a v) = (.ok a, state a v)
  setList : ∀ a v list, exec (setListAt x list) (state a v) = (.ok (), state list v)
  var : ∀ a v, (state a v).cmd.vars[k]? = some v
  setVar : ∀ a v item, (state a v).holding (state a v).cc (state a v).ctrls
    ((state a v).cmd.vars.set k item) = state a item

/-- What a swap of a variable with an entry of a list comes to: nothing when both are empty, and an
exception when the variable does not fit. Otherwise what was in the list, or Null, goes into the
variable. -/
def swapOutcome (i : Nat) (state : SaveList → StackItem → Engine) (a : SaveList) (v : StackItem) :
    Except Error Unit × Engine :=
  if v.isNull && (a.get i).isNone then
    (.ok (), state a v)
  else if SaveList.canPut i v then
    (.ok (), state (a.setOpt i (some v)) ((a.get i).getD .none))
  else
    (.error (.exception (.fromCode .typeCheckError)), state a v)

section SwapOutcome

variable {i : Nat} {state : SaveList → StackItem → Engine} {a : SaveList} {v : StackItem}

theorem swapOutcome_put (hput : SaveList.canPut i v = true) (hv : v.isNull = false) :
    swapOutcome i state a v = (.ok (), state (a.setOpt i (some v)) ((a.get i).getD .none)) := by
  unfold swapOutcome
  rw [hv, hput]
  rfl

theorem swapOutcome_empty (hget : a.get i = none) :
    swapOutcome i state a .none = (.ok (), state a .none) := by
  unfold swapOutcome
  rw [hget]
  rfl

theorem swapOutcome_misfit {old : StackItem} (hput : SaveList.canPut i v = false)
    (hget : a.get i = some old) :
    swapOutcome i state a v = (.error (.exception (.fromCode .typeCheckError)), state a v) := by
  unfold swapOutcome
  rw [hget, hput, Option.isNone_some, Bool.and_false]
  rfl

theorem exec_swapWithList {x k : Nat} (h : ListAndVar x k state) (hk : k < 16)
    (hx : listIndex x = i) (a : SaveList) (v : StackItem) :
    exec (swapWithList x (Addr.var k)) (state a v) = swapOutcome i state a v := by
  have hvar (a : SaveList) : exec (var (Addr.storageIndex (Addr.var k))) (state a v) =
      (.ok v, state a v) := by
    rw [storageIndex_var hk]
    exact exec_var _ (h.var a v)
  have hset (a : SaveList) (v item : StackItem) :
      exec (setVar (Addr.storageIndex (Addr.var k)) item) (state a v) = (.ok (), state a item) := by
    rw [storageIndex_var hk, exec_setVar _ (List.getElem?_eq_some_iff.1 (h.var a v)).1, h.setVar]
  have hcond : ((a.get i).isSome || !v.isNull) = !(v.isNull && (a.get i).isNone) := by
    cases a.get i <;> cases v.isNull <;> rfl
  unfold swapWithList swapOutcome
  rw [exec_bind_ok (h.list a v), exec_bind_ok (hvar a), hx, hcond]
  by_cases hnone : (v.isNull && (a.get i).isNone) = true
  · rw [if_pos hnone, hnone]
    rfl
  · rw [if_neg hnone, Bool.eq_false_of_not_eq_true hnone]
    by_cases hput : SaveList.canPut i v = true
    · simp only [putToListFromItem, putToList, exec_bind, h.list, hvar, hset, h.setList, hx, hput,
        Bool.not_false, if_true, SaveList.put, lift_ok, exec_pure, SaveListOf.putOpt_eq]
    · simp only [putToListFromItem, exec_bind, hvar, hx, hput, Bool.not_false, if_true]
      rfl

end SwapOutcome

/-! ### Swaps by address -/

theorem swap_comm {x y : Nat} (h : Addr.addressTag x ≠ Addr.addressTag y) :
    swap x y = swap y x := by
  unfold swap
  split <;> split <;> first | rfl | omega

theorem swap_savelist_var {k l i : Nat} (hk : k < 16) (hl : l < 16) (hi : i < 8) :
    swap (Addr.savelist (Addr.var k) i) (Addr.var l) = swap (Addr.var l) (Addr.savelist (Addr.var k) i) :=
  swap_comm (by rw [addressTag_varSavelist hk hi, addressTag_var hl]; decide)

theorem swap_var_ctrl {k i : Nat} (hk : k < 16) (hi : i < 16) :
    swap (Addr.var k) (Addr.ctrl i) = swap (Addr.ctrl i) (Addr.var k) :=
  swap_comm (by rw [addressTag_ctrl hi, addressTag_var hk]; decide)

section ByAddress

variable {e cc ctrls vars} {i j k l : Nat}

theorem set_of_getElem? {v : StackItem} (h : vars[k]? = some v) : vars.set k v = vars := by
  obtain ⟨hk, rfl⟩ := List.getElem?_eq_some_iff.1 h
  exact List.set_getElem_self hk

/-- An entry of the registers and one of the save list of the current continuation. -/
theorem exec_swap_ctrl_ccSavelist (hi : i ∈ SaveListOf.regs) (hctrl : Fits i (ctrls.get i))
    (hcc : Fits i (cc.savelist.get i)) :
    exec (swap (Addr.ctrl i) (Addr.savelist Addr.CC i)) (e.holding cc ctrls vars) =
      (.ok (), e.holding { cc with savelist := cc.savelist.setOpt i (ctrls.get i) }
        (ctrls.setOpt i (cc.savelist.get i)) vars) := by
  have hi8 := lt_of_mem_regs hi
  have hi16 : i < 16 := by omega
  have hlists : TwoLists (Addr.ctrl i) (Addr.savelist Addr.CC i) fun a b =>
      e.holding { cc with savelist := b } a vars := by
    constructor
    · exact fun a b => exec_listAt_ctrl _ hi16
    · exact fun a b => exec_listAt_ccSavelist _ hi8
    · exact fun a b list => exec_setListAt_ctrl _ hi16 list
    · exact fun a b list => exec_setListAt_ccSavelist _ hi8 list
  have hswap : swap (Addr.ctrl i) (Addr.savelist Addr.CC i) =
      swapBetweenLists (Addr.ctrl i) (Addr.savelist Addr.CC i) := by
    simp only [swap, swapOrdered, addressTag_ctrl hi16, addressTag_ccSavelist hi8, place_ctrl hi16,
      place_ccSavelist hi8]
    rfl
  rw [hswap]
  exact exec_swapBetweenLists hlists hi hi (listIndex_ctrl hi16) (listIndex_ccSavelist hi8) hctrl hcc

/-- An entry of the registers and one of the save list of a continuation in a variable. -/
theorem exec_swap_ctrl_varSavelist {cont : ContinuationData} (hi : i ∈ SaveListOf.regs)
    (hj : j ∈ SaveListOf.regs) (hk : k < 16) (hvar : vars[k]? = some (.continuation cont))
    (hctrl : Fits j (ctrls.get i)) (hcont : Fits i (cont.savelist.get j)) :
    exec (swap (Addr.ctrl i) (Addr.savelist (Addr.var k) j)) (e.holding cc ctrls vars) =
      (.ok (), e.holding cc (ctrls.setOpt i (cont.savelist.get j)) (vars.set k
        (.continuation { cont with savelist := cont.savelist.setOpt j (ctrls.get i) }))) := by
  have hi16 : i < 16 := by
    have := lt_of_mem_regs hi
    omega
  have hj8 := lt_of_mem_regs hj
  have hlt := (List.getElem?_eq_some_iff.1 hvar).1
  have hget (b : SaveList) : (vars.set k (.continuation { cont with savelist := b }))[k]? =
      some (.continuation { cont with savelist := b }) := List.getElem?_set_self hlt
  have hlists : TwoLists (Addr.ctrl i) (Addr.savelist (Addr.var k) j) fun a b =>
      e.holding cc a (vars.set k (.continuation { cont with savelist := b })) := by
    constructor
    · exact fun a b => exec_listAt_ctrl _ hi16
    · intro a b
      rw [exec_listAt_varSavelist _ hk hj8 (hget b)]
    · exact fun a b list => exec_setListAt_ctrl _ hi16 list
    · intro a b list
      rw [exec_setListAt_varSavelist _ hk hj8 (hget b)]
      simp only [holding_vars, List.set_set]
      rfl
  have hswap : swap (Addr.ctrl i) (Addr.savelist (Addr.var k) j) =
      swapBetweenLists (Addr.ctrl i) (Addr.savelist (Addr.var k) j) := by
    simp only [swap, swapOrdered, addressTag_ctrl hi16, addressTag_varSavelist hk hj8, place_ctrl hi16,
      place_varSavelist hk hj8]
    rfl
  have hstart := set_of_getElem? hvar
  have := exec_swapBetweenLists hlists hi hj (a := ctrls) (b := cont.savelist) (listIndex_ctrl hi16)
    (listIndex_varSavelist hk hj8) hctrl hcont
  rw [hswap]
  rwa [hstart] at this

/-- A variable and a register. -/
theorem exec_swap_ctrl_var {v : StackItem} (hi : i < 16) (hk : k < 16) (hvar : vars[k]? = some v) :
    exec (swap (Addr.ctrl i) (Addr.var k)) (e.holding cc ctrls vars) =
      swapOutcome i (fun a w => e.holding cc a (vars.set k w)) ctrls v := by
  have hlt := (List.getElem?_eq_some_iff.1 hvar).1
  have hstate : ListAndVar (Addr.ctrl i) k fun a w => e.holding cc a (vars.set k w) := by
    constructor
    · exact fun a w => exec_listAt_ctrl _ hi
    · exact fun a w list => exec_setListAt_ctrl _ hi list
    · exact fun a w => List.getElem?_set_self hlt
    · exact fun a w item => congrArg _ (List.set_set _)
  have hswap : swap (Addr.ctrl i) (Addr.var k) = swapWithList (Addr.ctrl i) (Addr.var k) := by
    simp only [swap, swapOrdered, addressTag_ctrl hi, addressTag_var hk, place_ctrl hi, place_var hk]
    rfl
  have hstart := set_of_getElem? hvar
  have := exec_swapWithList hstate hk (listIndex_ctrl hi) ctrls v
  rw [hswap]
  rwa [hstart] at this

/-- A variable and an entry of the save list of a continuation in another variable. -/
theorem exec_swap_var_varSavelist {cont : ContinuationData} {v : StackItem}
    (hi : i ∈ SaveListOf.regs) (hk : k < 16) (hl : l < 16) (hkl : k ≠ l)
    (hvar : vars[k]? = some v) (hcont : vars[l]? = some (.continuation cont)) :
    exec (swap (Addr.var k) (Addr.savelist (Addr.var l) i)) (e.holding cc ctrls vars) =
      swapOutcome i (fun a w => e.holding cc ctrls
        ((vars.set l (.continuation { cont with savelist := a })).set k w)) cont.savelist v := by
  have hi8 := lt_of_mem_regs hi
  have hltk := (List.getElem?_eq_some_iff.1 hvar).1
  have hltl := (List.getElem?_eq_some_iff.1 hcont).1
  have hget (a : SaveList) (w : StackItem) :
      ((vars.set l (.continuation { cont with savelist := a })).set k w)[l]? =
        some (.continuation { cont with savelist := a }) := by
    rw [List.getElem?_set_ne hkl, List.getElem?_set_self hltl]
  have hstate : ListAndVar (Addr.savelist (Addr.var l) i) k fun a w => e.holding cc ctrls
      ((vars.set l (.continuation { cont with savelist := a })).set k w) := by
    constructor
    · intro a w
      rw [exec_listAt_varSavelist _ hl hi8 (hget a w)]
    · intro a w list
      rw [exec_setListAt_varSavelist _ hl hi8 (hget a w)]
      simp only [holding_vars, List.set_comm _ _ hkl, List.set_set]
      rfl
    · exact fun a w => List.getElem?_set_self (by rwa [List.length_set])
    · exact fun a w item => congrArg _ (List.set_set _)
  have hswap : swap (Addr.var k) (Addr.savelist (Addr.var l) i) =
      swapWithList (Addr.savelist (Addr.var l) i) (Addr.var k) := by
    simp only [swap, swapOrdered, addressTag_var hk, addressTag_varSavelist hl hi8, place_var hk,
      place_varSavelist hl hi8]
    rfl
  have hstart : (vars.set l (.continuation cont)).set k v = vars := by
    rw [set_of_getElem? hcont, set_of_getElem? hvar]
  have := exec_swapWithList hstate hk (listIndex_varSavelist hl hi8) cont.savelist v
  rw [hswap]
  rwa [hstart] at this

/-- A variable and an entry of the save list of a continuation in a register. -/
theorem exec_swap_var_ctrlSavelist {cont : ContinuationData} {v : StackItem}
    (hi : i ∈ SaveListOf.regs) (hl : l ∈ SaveListOf.regs) (hk : k < 16)
    (hvar : vars[k]? = some v) (hcont : ctrls.get l = some (.continuation cont)) :
    exec (swap (Addr.var k) (Addr.savelist (Addr.ctrl l) i)) (e.holding cc ctrls vars) =
      swapOutcome i (fun a w => e.holding cc
        (ctrls.setOpt l (some (.continuation { cont with savelist := a }))) (vars.set k w))
        cont.savelist v := by
  have hi8 := lt_of_mem_regs hi
  have hl16 : l < 16 := by
    have := lt_of_mem_regs hl
    omega
  have hlt := (List.getElem?_eq_some_iff.1 hvar).1
  have hget (a : SaveList) : (ctrls.setOpt l (some (.continuation { cont with savelist := a }))).get l =
      some (.continuation { cont with savelist := a }) := SaveListOf.get_setOpt _ hl _
  have hstate : ListAndVar (Addr.savelist (Addr.ctrl l) i) k fun a w => e.holding cc
      (ctrls.setOpt l (some (.continuation { cont with savelist := a }))) (vars.set k w) := by
    constructor
    · intro a w
      rw [exec_listAt_ctrlSavelist _ hl16 hi8 (hget a)]
    · intro a w list
      rw [exec_setListAt_ctrlSavelist _ hl16 hi8 (hget a)]
      simp only [holding_ctrls, SaveListOf.setOpt_setOpt _ hl]
      rfl
    · exact fun a w => List.getElem?_set_self hlt
    · exact fun a w item => congrArg _ (List.set_set _)
  have hswap : swap (Addr.var k) (Addr.savelist (Addr.ctrl l) i) =
      swapWithList (Addr.savelist (Addr.ctrl l) i) (Addr.var k) := by
    simp only [swap, swapOrdered, addressTag_var hk, addressTag_ctrlSavelist hl16 hi8, place_var hk,
      place_ctrlSavelist hl16 hi8]
    rfl
  have hstart : ctrls.setOpt l (some (.continuation cont)) = ctrls := by
    rw [← hcont, SaveListOf.setOpt_get _ hl]
  have := exec_swapWithList hstate hk (listIndex_ctrlSavelist hl16 hi8) cont.savelist v
  rw [hswap]
  rwa [hstart, set_of_getElem? hvar] at this

/-- A variable and an entry of the save list of the current continuation. -/
theorem exec_swap_var_ccSavelist {v : StackItem} (hi : i ∈ SaveListOf.regs) (hk : k < 16)
    (hvar : vars[k]? = some v) :
    exec (swap (Addr.var k) (Addr.savelist Addr.CC i)) (e.holding cc ctrls vars) =
      swapOutcome i (fun a w => e.holding { cc with savelist := a } ctrls (vars.set k w))
        cc.savelist v := by
  have hi8 := lt_of_mem_regs hi
  have hlt := (List.getElem?_eq_some_iff.1 hvar).1
  have hstate : ListAndVar (Addr.savelist Addr.CC i) k fun a w =>
      e.holding { cc with savelist := a } ctrls (vars.set k w) := by
    constructor
    · exact fun a w => exec_listAt_ccSavelist _ hi8
    · exact fun a w list => exec_setListAt_ccSavelist _ hi8 list
    · exact fun a w => List.getElem?_set_self hlt
    · exact fun a w item => congrArg _ (List.set_set _)
  have hswap : swap (Addr.var k) (Addr.savelist Addr.CC i) =
      swapWithList (Addr.savelist Addr.CC i) (Addr.var k) := by
    simp only [swap, swapOrdered, addressTag_var hk, addressTag_ccSavelist hi8, place_var hk,
      place_ccSavelist hi8]
    rfl
  have := exec_swapWithList hstate hk (listIndex_ccSavelist hi8) cc.savelist v
  rw [hswap]
  rwa [set_of_getElem? hvar] at this

/-- The current continuation and one in a variable. -/
theorem exec_swap_cc_var {cont : ContinuationData} (hk : k < 16)
    (hvar : vars[k]? = some (.continuation cont)) :
    exec (swap Addr.CC (Addr.var k)) (e.holding cc ctrls vars) =
      (.ok (), e.holding cont ctrls (vars.set k (.continuation cc))) := by
  have hlt := (List.getElem?_eq_some_iff.1 hvar).1
  have hswap : swap Addr.CC (Addr.var k) = (do
      swapCc (Addr.var k) (← lift (← var k).asContinuation)) := by
    simp only [swap, swapOrdered, addressTag_cc, addressTag_var hk, place_cc, place_var hk,
      storageIndex_var hk]
    rfl
  rw [hswap, exec_bind_ok (exec_var _ (by rwa [holding_vars]))]
  simp only [StackItem.asContinuation, lift_ok, exec_bind_pure, swapCc, setContinuationByAddress,
    place_var hk, storageIndex_var hk, exec_bind_get]
  rw [exec_bind_ok (exec_setVar _ (by rwa [holding_vars]) _)]
  rfl

/-- The current continuation and one in a register. -/
theorem exec_swap_cc_ctrl {cont : ContinuationData} (hi : i < 16)
    (hctrl : ctrls.get i = some (.continuation cont)) :
    exec (swap Addr.CC (Addr.ctrl i)) (e.holding cc ctrls vars) =
      (.ok (), e.holding cont (ctrls.setOpt i (some (.continuation cc))) vars) := by
  have hswap : swap Addr.CC (Addr.ctrl i) = swapOrdered Addr.CC (Addr.ctrl i) := by
    simp only [swap, addressTag_cc, addressTag_ctrl hi]
    rfl
  rw [hswap]
  simp only [swapOrdered, place_cc, place_ctrl hi, storageIndex_ctrl hi, exec_bind_get, holding_ctrls,
    hctrl, StackItem.asContinuation, lift_ok, exec_bind_pure, swapCc, setContinuationByAddress]
  rfl

/-! ### Copies -/

theorem exec_copyToVar_getD (hi : i < 16) :
    exec (copyToVar (Addr.ctrl i)) (e.holding cc ctrls vars) =
      (.ok (), e.holding cc ctrls (vars ++ [(ctrls.get i).getD .none])) := by
  simp only [copyToVar, place_ctrl hi, storageIndex_ctrl hi, exec_bind_get, holding_ctrls]
  rfl

theorem exec_copyToVar_ctrl {v : StackItem} (hi : i < 16) (hctrl : ctrls.get i = some v) :
    exec (copyToVar (Addr.ctrl i)) (e.holding cc ctrls vars) =
      (.ok (), e.holding cc ctrls (vars ++ [v])) := by
  rw [exec_copyToVar_getD hi, hctrl, Option.getD_some]

/-- Two variables. -/
theorem exec_swap_var_var {v w : StackItem} (hk : k < 16) (hl : l < 16)
    (hvark : vars[k]? = some v) (hvarl : vars[l]? = some w) :
    exec (swap (Addr.var k) (Addr.var l)) (e.holding cc ctrls vars) =
      (.ok (), e.holding cc ctrls ((vars.set k w).set l v)) := by
  have hltk := (List.getElem?_eq_some_iff.1 hvark).1
  have hltl := (List.getElem?_eq_some_iff.1 hvarl).1
  have hswap : swap (Addr.var k) (Addr.var l) = swapOrdered (Addr.var k) (Addr.var l) := by
    simp only [swap, addressTag_var hk, addressTag_var hl]
    rfl
  rw [hswap]
  simp only [swapOrdered, place_var hk, place_var hl, storageIndex_var hk, storageIndex_var hl]
  rw [exec_bind_ok (exec_var _ (by rwa [holding_vars])),
    exec_bind_ok (exec_var _ (by rwa [holding_vars])),
    exec_bind_ok (exec_setVar _ (by rwa [holding_vars]) _),
    exec_setVar _ (by rwa [holding_vars, List.length_set])]
  rfl

end ByAddress

end Engine

end States

end TonVm
