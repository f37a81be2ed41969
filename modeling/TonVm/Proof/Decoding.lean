import TonVm.Proof.Calm
import TonVm.Proof.Consumers
import TonVm.Proof.KeyValue
import TonVm.Proof.Views
import TonVm.Stack.Codec

/-!
# The decoder of items

The decoder is a loop over three stacks: the work that is left, the items of the enclosing levels and
the save lists of the enclosing continuations. What it is to find is told here by recursion over the
levels, and the loop is shown to find it: each piece of work meets the levels it was left for.
-/

namespace TonVm

open ExecLib

section Decoder

variable [TonTypes]

/-! ### What is decoded -/

/-- Work that makes one item: the elements of a tuple, or the stack and the saved registers of a
continuation. -/
inductive Job where
  | tuple (length : Nat) (slice : SliceData)
  | cont (cont : ContinuationData) (entries : List (Nat × SliceData)) (length : Nat)
      (slice : SliceData)

/-- The work for the entries of a save list, in the order of pushing. -/
def entryWork : List (Nat × SliceData) → List DeserializeItem
  | [] => []
  | (key, value) :: entries => .saveListItem key :: .items 1 value :: entryWork entries

/-- The work of a job, in the order of pushing. -/
def Job.work : Job → List DeserializeItem
  | tuple length slice => [.tuple length, .items length slice]
  | cont c entries length slice => .cont c :: entryWork entries ++ [.saveList, .items length slice]

mutual

/-- The items that are read one after another from a slice and from those it leads to. -/
inductive Decodes (consumer : Consumer) : Nat → SliceData → List StackItem → Prop
  | done {slice : SliceData} : Decodes consumer 0 slice []
  | plain {n : Nat} {slice rest next : SliceData} {item : StackItem} {items : List StackItem}
      (hread : (StackItem.deserializeInternal slice).Yields consumer (.inl item, rest))
      (hnext : (DeserializeState.advance rest).Yields consumer next)
      (hitems : Decodes consumer n next items) : Decodes consumer (n + 1) slice (item :: items)
  | nested {n : Nat} {slice rest next : SliceData} {job : Job} {item : StackItem}
      {items : List StackItem}
      (hread : (StackItem.deserializeInternal slice).Yields consumer (.inr job.work, rest))
      (hnext : (DeserializeState.advance rest).Yields consumer next)
      (hjob : Makes consumer job item)
      (hitems : Decodes consumer n next items) : Decodes consumer (n + 1) slice (item :: items)

/-- The item that a job makes. -/
inductive Makes (consumer : Consumer) : Job → StackItem → Prop
  | tuple {length : Nat} {slice : SliceData} {items : List StackItem}
      (hitems : Decodes consumer length slice items) :
      Makes consumer (.tuple length slice) (.tuple items)
  | cont {cont : ContinuationData} {entries : List (Nat × SliceData)} {length : Nat}
      {slice : SliceData} {stack : List StackItem} {savelist : SaveList}
      (hstack : Decodes consumer length slice stack) (hsaves : Saves consumer entries savelist) :
      Makes consumer (.cont cont entries length slice) (.continuation { cont with stack, savelist })

/-- The save list with the entries of a continuation, each at its register. -/
inductive Saves (consumer : Consumer) : List (Nat × SliceData) → SaveList → Prop
  | nil : Saves consumer [] {}
  | cons {key : Nat} {value : SliceData} {entries : List (Nat × SliceData)} {savelist : SaveList}
      {item : StackItem} (hsaves : Saves consumer entries savelist)
      (hitem : Decodes consumer 1 value [item]) (hput : SaveList.canPut key item = true) :
      Saves consumer ((key, value) :: entries) (savelist.putOpt key item)

end

theorem Decodes.length {consumer : Consumer} {n : Nat} {slice : SliceData} {items : List StackItem}
    (h : Decodes consumer n slice items) : items.length = n := by
  induction n generalizing slice items with
  | zero =>
    cases h
    rfl
  | succ n ih =>
    cases h with
    | plain _ _ hitems => rw [List.length_cons, ih hitems]
    | nested _ _ _ hitems => rw [List.length_cons, ih hitems]

/-- What is put in a save list has a type of its register. -/
theorem SaveList.regs_of_put {savelist savelist' : SaveList} {index : Nat} {item : StackItem}
    (h : SaveList.put savelist index item = .ok savelist') :
    index ∈ SaveListOf.regs ∧ SaveList.canPut index item = true := by
  unfold SaveList.put at h
  split at h
  · rename_i hput
    refine ⟨?_, hput⟩
    unfold SaveList.canPut at hput
    split at hput
    all_goals first | decide | cases hput
  · cases h

/-! ### Turns of the loop -/

namespace DeserializeState

/-- What must hold when the loop takes a piece of work: the stacks that it pops are not empty, a tuple
has its length, and there is one item for a register. -/
def Sound (st : DeserializeState) : DeserializeItem → Prop
  | .items _ _ => True
  | .tuple length => st.items.length = length ∧ st.itemsStack ≠ []
  | .cont _ => st.savelistStack ≠ [] ∧ st.itemsStack ≠ []
  | .saveListItem index => st.itemsStack ≠ [] ∧ ∃ savelist rest item,
      st.savelistStack = savelist :: rest ∧ st.items = [item] ∧
      ∀ savelist', SaveList.put savelist index item = .ok savelist' →
        index ∈ SaveListOf.regs ∧ SaveList.canPut index item = true
  | .saveList => True

section Completes

variable (consumer : Consumer) (E : Failure → Prop) (Q : List StackItem → Prop)

/-- The part of a turn after the items are read. -/
def Pass (next : DeserializeState → Prop) (st : DeserializeState) : Prop :=
  match st.list with
  | [] => Q st.items
  | work :: list => { st with list }.Sound work ∧
    match { st with list }.step work with
    | .ok st' => next st'
    | .error failure => E failure

/-- Whatever the consumer answers, the loop ends within some turns, all of them sound. -/
def Completes : Nat → DeserializeState → Prop
  | 0, _ => False
  | n + 1, st => (st.readItems (st.length - st.items.length)).Meets consumer E (Pass E Q (Completes n))

variable {consumer E Q}

theorem Pass.mono {next next' : DeserializeState → Prop} (hnext : ∀ st, next st → next' st)
    {st : DeserializeState} (h : Pass E Q next st) : Pass E Q next' st := by
  unfold Pass at h ⊢
  split at h
  · exact h
  · refine ⟨h.1, ?_⟩
    have hstep := h.2
    split at hstep
    · exact hnext _ hstep
    · exact hstep

theorem Completes.mono {n m : Nat} (hle : n ≤ m) {st : DeserializeState}
    (h : Completes consumer E Q n st) : Completes consumer E Q m st := by
  induction n generalizing m st with
  | zero => exact h.elim
  | succ n ih =>
    obtain ⟨m, rfl⟩ : ∃ k, m = k + 1 := ⟨m - 1, by omega⟩
    exact GasMOf.Meets.mono h fun st' => Pass.mono fun st'' => ih (by omega)

theorem Completes.meets {n fuel : Nat} (hle : n ≤ fuel) {st : DeserializeState}
    (h : Completes consumer E Q n st) : (itemsDeserialize fuel st).Meets consumer E Q := by
  induction fuel generalizing n st with
  | zero =>
    obtain rfl : n = 0 := by omega
    exact h.elim
  | succ fuel ih =>
    cases n with
    | zero => exact h.elim
    | succ n =>
      refine GasMOf.Meets.bind h fun st' hpass => ?_
      unfold Pass at hpass
      cases hlist : st'.list with
      | nil =>
        rw [hlist] at hpass
        exact hpass
      | cons work list =>
        rw [hlist] at hpass
        have hstep := hpass.2
        refine GasMOf.Meets.bind (Q := Completes consumer E Q n) (.liftM ?_ ?_) fun st'' => ih (by omega)
        · intro failure hfailure
          rw [hfailure] at hstep
          exact hstep
        · intro st'' hok
          rw [hok] at hstep
          exact hstep

/-- Nothing is read when the level has its items. -/
theorem completes_of_pass {n : Nat} {st : DeserializeState} (hfull : st.length ≤ st.items.length)
    (h : Pass E Q (Completes consumer E Q n) st) : Completes consumer E Q (n + 1) st := by
  have hcount : st.length - st.items.length = 0 := by omega
  unfold Completes
  rw [hcount]
  exact h

/-! ### Levels -/

variable (consumer E Q)

/-- Reading a level of items costs at most some turns: where the loop completes with any items that can
be decoded there, it completes from the start of the level. -/
def Level (n : Nat) (slice : SliceData) (cost : Nat) : Prop :=
  ∀ (before after : Nat) (st : DeserializeState), after + cost ≤ before → st.slice = slice →
    st.items.length + n = st.length →
    (∀ items rest, Decodes consumer n slice items →
      Pass E Q (Completes consumer E Q after) { st with items := st.items ++ items, slice := rest }) →
    (st.readItems n).Meets consumer E (Pass E Q (Completes consumer E Q before))

/-- The entries of a save list can be decoded at some cost. -/
def EntriesReady : List (Nat × SliceData) → Nat → Prop
  | [], _ => True
  | (key, value) :: entries, cost => ∃ first rest, first + rest + 2 ≤ cost ∧
    Level consumer E Q 1 value first ∧ EntriesReady entries rest ∧
    ∀ item, Decodes consumer 1 value [item] →
      SaveList.canPut key item = true ∨ E (.code .typeCheckError)

/-- A job can be done at some cost. -/
def JobReady : Job → Nat → Prop
  | .tuple length slice, cost => ∃ level, level + 2 ≤ cost ∧ Level consumer E Q length slice level
  | .cont _ entries length slice, cost => ∃ level saves, level + saves + 3 ≤ cost ∧
    Level consumer E Q length slice level ∧ EntriesReady consumer E Q entries saves

variable {consumer E Q}

theorem level_zero (slice : SliceData) (cost : Nat) : Level consumer E Q 0 slice cost := by
  rintro before after st hcost rfl - hnext
  have hpass := hnext [] st.slice .done
  rw [List.append_nil] at hpass
  exact hpass.mono fun st' => Completes.mono (by omega)

/-- The loop takes a level from the stack of work, and comes back with its items. -/
theorem pass_items {n cost before : Nat} {slice : SliceData} (after : Nat) (st : DeserializeState)
    (hlevel : Level consumer E Q n slice cost) (hcost : after + cost + 1 ≤ before)
    (hnext : ∀ items rest, Decodes consumer n slice items →
      Pass E Q (Completes consumer E Q after) { st with
        items, length := n, slice := rest
        itemsStack := (st.items, st.length, st.slice) :: st.itemsStack }) :
    Pass E Q (Completes consumer E Q before) { st with list := .items n slice :: st.list } := by
  refine ⟨trivial, ?_⟩
  obtain ⟨before, rfl⟩ : ∃ k, before = k + 1 := ⟨before - 1, by omega⟩
  show (readItems (n - 0) _).Meets consumer E _
  rw [Nat.sub_zero]
  exact hlevel before after _ (by omega) rfl (Nat.zero_add n) hnext

/-- The item of an entry is put in the save list on top. -/
theorem pass_saveListItem {key after : Nat} (st : DeserializeState) {savelist : SaveList}
    {saved : List SaveList} {item : StackItem} {items : List StackItem} {length : Nat}
    {slice : SliceData} {levels : List (List StackItem × Nat × SliceData)}
    (hput : SaveList.canPut key item = true ∨ E (.code .typeCheckError))
    (hnext : SaveList.canPut key item = true → Completes consumer E Q after { st with
      items, length, slice, itemsStack := levels, savelistStack := savelist.putOpt key item :: saved }) :
    Pass E Q (Completes consumer E Q after) { st with
      list := .saveListItem key :: st.list, items := [item]
      itemsStack := (items, length, slice) :: levels, savelistStack := savelist :: saved } := by
  refine ⟨⟨List.cons_ne_nil _ _, savelist, saved, item, rfl, rfl, ?_⟩, ?_⟩
  · intro savelist' hok
    exact SaveList.regs_of_put hok
  · by_cases hcan : SaveList.canPut key item = true
    · have hok : SaveList.put savelist key item = .ok (savelist.putOpt key item) := if_pos hcan
      have hdone := hnext hcan
      rw [← List.append_nil items] at hdone
      simp only [step, putSavelist, hok]
      exact hdone
    · have herror : SaveList.put savelist key item = .error (.code .typeCheckError) := if_neg hcan
      simp only [step, putSavelist, herror]
      exact hput.resolve_left hcan

/-- The work for the entries of a save list fills the save list. -/
theorem pass_entries {entries : List (Nat × SliceData)} {cost before after : Nat}
    {list : List DeserializeItem} {st : DeserializeState} {saved : List SaveList}
    (hentries : EntriesReady consumer E Q entries cost) (hcost : after + cost ≤ before)
    (hfull : st.items.length = st.length)
    (hnext : ∀ savelist, Saves consumer entries savelist →
      Pass E Q (Completes consumer E Q after) { st with list, savelistStack := savelist :: saved }) :
    Pass E Q (Completes consumer E Q before)
      { st with list := (entryWork entries).reverse ++ list, savelistStack := {} :: saved } := by
  induction entries generalizing cost after list with
  | nil => exact (hnext {} .nil).mono fun st' => Completes.mono (by omega)
  | cons entry entries ih =>
    obtain ⟨key, value⟩ := entry
    obtain ⟨first, rest, hle, hlevel, hrest, hput⟩ := hentries
    have hwork : (entryWork ((key, value) :: entries)).reverse ++ list =
        (entryWork entries).reverse ++ (.items 1 value :: .saveListItem key :: list) := by
      simp [entryWork]
    rw [hwork]
    have hroom : after + first + 2 + rest ≤ before := by omega
    refine ih hrest hroom fun savelist hsaves => ?_
    refine pass_items (after + 1) { st with
      list := .saveListItem key :: list, savelistStack := savelist :: saved } hlevel (by omega)
      fun items slice hitems => ?_
    obtain ⟨item, rfl⟩ := List.length_eq_one_iff.1 hitems.length
    refine pass_saveListItem { st with list, length := 1, slice } (hput item hitems) fun hcan => ?_
    exact completes_of_pass hfull.ge (hnext _ (hsaves.cons hitems hcan))

/-- The work of a job makes its item. -/
theorem pass_job {job : Job} {cost before : Nat} (after : Nat) (st : DeserializeState)
    (hjob : JobReady consumer E Q job cost) (hcost : after + cost ≤ before + 1)
    (hnext : ∀ item, Makes consumer job item →
      Completes consumer E Q after { st with items := st.items ++ [item] }) :
    Pass E Q (Completes consumer E Q before) { st with list := job.work.reverse ++ st.list } := by
  cases job with
  | tuple length slice =>
    obtain ⟨level, hle, hlevel⟩ := hjob
    refine pass_items after { st with list := .tuple length :: st.list } hlevel (by omega)
      fun items rest hitems => ?_
    have hlength := hitems.length
    refine ⟨⟨hlength, List.cons_ne_nil _ _⟩, ?_⟩
    simp only [step, hlength, ne_eq, not_true_eq_false, if_false]
    exact hnext _ (.tuple hitems)
  | cont cont entries length slice =>
    obtain ⟨level, saves, hle, hlevel, hentries⟩ := hjob
    have hwork : (Job.cont cont entries length slice).work.reverse ++ st.list =
        .items length slice :: .saveList :: ((entryWork entries).reverse ++ .cont cont :: st.list) := by
      simp [Job.work]
    rw [hwork]
    refine pass_items (after + saves + 1) { st with
      list := .saveList :: ((entryWork entries).reverse ++ .cont cont :: st.list) } hlevel (by omega)
      fun items rest hitems => ⟨trivial, ?_⟩
    refine completes_of_pass hitems.length.ge ?_
    refine pass_entries hentries le_rfl hitems.length fun savelist hsaves => ?_
    exact ⟨⟨List.cons_ne_nil _ _, List.cons_ne_nil _ _⟩, hnext _ (.cont hitems hsaves)⟩

/-- A level is read item by item. -/
theorem level_succ {n cost : Nat} {slice : SliceData}
    (h : (StackItem.deserializeInternal slice).Meets consumer E fun r =>
      (advance r.2).Meets consumer E fun next => ∃ level, Level consumer E Q n next level ∧
        match r.1 with
        | .inl _ => level ≤ cost
        | .inr work => ∃ job spent, work = job.work ∧ JobReady consumer E Q job spent ∧
          spent + level ≤ cost) :
    Level consumer E Q (n + 1) slice cost := by
  rintro before after st hcost rfl hlength hnext
  refine GasMOf.Meets.bind h.yields fun r hr => ?_
  obtain ⟨hread, hadvance⟩ := hr
  refine GasMOf.Meets.bind hadvance.yields fun next hnext' => ?_
  obtain ⟨hmoved, level, hlevel, hrest⟩ := hnext'
  obtain ⟨item | work, rest⟩ := r
  · refine hlevel before after { st with items := st.items ++ [item], slice := next }
      (by dsimp only at hrest; omega) rfl ?_ fun items slice hitems => ?_
    · simp only [List.length_append, List.length_singleton]
      omega
    · have hdone := hnext (item :: items) slice (.plain hread hmoved hitems)
      simpa using hdone
  · obtain ⟨job, spent, rfl, hjob, hspent⟩ := hrest
    refine pass_job (after + level + 1) { st with slice := next } hjob (by omega) fun item hitem => ?_
    have hcount : st.length - (st.items ++ [item]).length = n := by
      rw [List.length_append, List.length_singleton]
      omega
    show (readItems (st.length - (st.items ++ [item]).length) _).Meets consumer E _
    rw [hcount]
    refine hlevel (after + level) after { st with items := st.items ++ [item], slice := next } le_rfl rfl
      ?_ fun items slice hitems => ?_
    · simp only [List.length_append, List.length_singleton]
      omega
    · have hdone := hnext (item :: items) slice (.nested hread hmoved hitem hitems)
      simpa using hdone

/-! ### Whole runs -/

/-- One item is decoded from a slice. -/
theorem completes_item {slice : SliceData} {cost : Nat} (h : Level consumer E Q 1 slice cost)
    (hdone : ∀ item, Decodes consumer 1 slice [item] → Q [item]) :
    Completes consumer E Q (cost + 2) { list := [.items 1 slice] } := by
  refine completes_of_pass le_rfl ?_
  refine pass_items 0 { list := [] } h (by omega) fun items rest hitems => ?_
  obtain ⟨item, rfl⟩ := List.length_eq_one_iff.1 hitems.length
  exact hdone item hitems

/-- One job is done. -/
theorem completes_job {job : Job} {cost : Nat} (h : JobReady consumer E Q job cost)
    (hdone : ∀ item, Makes consumer job item → Q [item]) :
    Completes consumer E Q (cost + 1) { list := job.work.reverse } := by
  have hlist : job.work.reverse = job.work.reverse ++ [] := (List.append_nil _).symm
  refine completes_of_pass le_rfl ?_
  rw [hlist]
  refine pass_job 1 { list := [] } h (by omega) fun item hitem => ?_
  exact completes_of_pass (Nat.zero_le _) (hdone item hitem)

variable (consumer) in
/-- The states at the head of the loop. -/
inductive Visits (start : DeserializeState) : DeserializeState → Prop
  | start : Visits start start
  | turn {st read st' : DeserializeState} {work : DeserializeItem} {list : List DeserializeItem}
      (h : Visits start st) (hread : (st.readItems (st.length - st.items.length)).Yields consumer read)
      (hlist : read.list = work :: list) (hstep : { read with list }.step work = .ok st') :
      Visits start st'

variable (consumer) in
/-- Every piece of work is taken soundly in a run. -/
def RunsSoundly (start : DeserializeState) : Prop :=
  ∀ (st read : DeserializeState) (work : DeserializeItem) (list : List DeserializeItem),
    Visits consumer start st → (st.readItems (st.length - st.items.length)).Yields consumer read →
    read.list = work :: list → { read with list }.Sound work

theorem Completes.pass {n : Nat} {st read : DeserializeState} (h : Completes consumer E Q n st)
    (hread : (st.readItems (st.length - st.items.length)).Yields consumer read) :
    ∃ m, Pass E Q (Completes consumer E Q m) read := by
  cases n with
  | zero => exact h.elim
  | succ n => exact ⟨n, GasMOf.Meets.of_yields h hread⟩

theorem Completes.visits {n : Nat} {start st : DeserializeState} (h : Completes consumer E Q n start)
    (hvisits : Visits consumer start st) : ∃ m, Completes consumer E Q m st := by
  induction hvisits with
  | start => exact ⟨n, h⟩
  | turn _ hread hlist hstep ih =>
    obtain ⟨m, hm⟩ := ih
    obtain ⟨k, hpass⟩ := hm.pass hread
    unfold Pass at hpass
    rw [hlist] at hpass
    have hnext := hpass.2
    rw [hstep] at hnext
    exact ⟨k, hnext⟩

theorem Completes.runsSoundly {n : Nat} {start : DeserializeState}
    (h : Completes consumer E Q n start) : RunsSoundly consumer start := by
  intro st read work list hvisits hread hlist
  obtain ⟨m, hm⟩ := h.visits hvisits
  obtain ⟨k, hpass⟩ := hm.pass hread
  unfold Pass at hpass
  rw [hlist] at hpass
  exact hpass.1

end Completes

end DeserializeState

/-! ### Sizes -/

/-- The sizes of cells with all that they lead to, and of slices. -/
class Sizes where
  cellSize : Cell → Nat
  sliceSize : SliceData → Nat

export Sizes (cellSize sliceSize)

/-- Cells are finite trees: what is read from a slice is a part of it. -/
class LawfulSizes [Sizes] : Prop where
  sliceDefault : sliceSize TonTypes.sliceDefault = 0
  getNextByte : ∀ slice r, TonTypes.getNextByte slice = .ok r → sliceSize r.2 < sliceSize slice
  getNextInt : ∀ slice n r, TonTypes.getNextInt slice n = .ok r → sliceSize r.2 ≤ sliceSize slice
  getNextBit : ∀ slice r, TonTypes.getNextBit slice = .ok r → sliceSize r.2 ≤ sliceSize slice
  getNextBits : ∀ slice n r, TonTypes.getNextBits slice n = .ok r → sliceSize r.2 ≤ sliceSize slice
  checkedDrainReference : ∀ slice r, TonTypes.checkedDrainReference slice = .ok r →
    cellSize r.1 + sliceSize r.2 ≤ sliceSize slice
  iterateSlices : ∀ root : Cell, ((TonTypes.iterateSlices ⟨4, some root⟩).1.map fun entry =>
    sliceSize entry.2 + 1).sum ≤ cellSize root

/-- The methods that the decoder uses do not panic. -/
class CalmReads : Prop where
  getNextByte : ∀ slice, Calm (TonTypes.getNextByte slice)
  getNextInt : ∀ slice n, Calm (TonTypes.getNextInt slice n)
  getNextBit : ∀ slice, Calm (TonTypes.getNextBit slice)
  getNextBits : ∀ slice n, Calm (TonTypes.getNextBits slice n)
  zeroPadded : ∀ slice n r, TonTypes.getNextBits slice n = .ok r → ZeroPadded n r.1
  checkedDrainReference : ∀ slice, Calm (TonTypes.checkedDrainReference slice)
  builderFromCell : ∀ cell, Calm (TonTypes.builderFromCell cell)
  loadCell : ∀ cell, Calm (TonTypes.loadCell cell)
  iterateSlices : ∀ dict, Calm (TonTypes.iterateSlices dict).2

attribute [instance] CalmReads.getNextByte CalmReads.getNextInt CalmReads.getNextBit
  CalmReads.getNextBits CalmReads.checkedDrainReference CalmReads.builderFromCell CalmReads.loadCell
  CalmReads.iterateSlices

section Sizes

variable [Sizes] [LawfulSizes] [CalmReads] {consumer : Consumer}

/-- A failure other than a panic. -/
def Ordinary (failure : Failure) : Prop := failure ≠ .panic

omit [Sizes] [LawfulSizes] [CalmReads] in
theorem meets_liftM {α : Type} {x : Except Failure α} {Q : α → Prop} (hcalm : Calm x)
    (hok : ∀ a, x = .ok a → Q a) : (liftM x : GasM α).Meets consumer Ordinary Q :=
  .liftM (fun _ hfailure hpanic => hcalm.out (hpanic ▸ hfailure)) hok

omit [Sizes] [LawfulSizes] in
theorem calm_sliceDeserialize (slice : SliceData) : Calm (sliceDeserialize slice) := by
  unfold sliceDeserialize
  infer_instance

omit [CalmReads] in
theorem size_sliceDeserialize (slice : SliceData) :
    Yields (fun r => sliceSize r.2 ≤ sliceSize slice) (sliceDeserialize slice) := by
  unfold sliceDeserialize
  refine .bind (LawfulSizes.checkedDrainReference slice) fun ⟨cell, slice₁⟩ h₁ => ?_
  refine .bind (LawfulSizes.getNextInt slice₁ 10) fun ⟨dataStart, slice₂⟩ h₂ => ?_
  refine .bind (LawfulSizes.getNextInt slice₂ 10) fun ⟨dataEnd, slice₃⟩ h₃ => ?_
  refine .ite (fun _ => .error _) fun _ => ?_
  refine .bind (LawfulSizes.getNextInt slice₃ 3) fun ⟨refStart, slice₄⟩ h₄ => ?_
  refine .bind (LawfulSizes.getNextInt slice₄ 3) fun ⟨refEnd, slice₅⟩ h₅ => ?_
  refine .ite (fun _ => .error _) fun _ => .bind_any fun res => .pure ?_
  dsimp only at *
  omega

/-- The slices that the consumer loads are not larger than their cells. -/
def Bounded (consumer : Consumer) : Prop :=
  ∀ cell slice, consumer.Loads cell slice → sliceSize slice ≤ cellSize cell

omit [LawfulSizes] [CalmReads] in
theorem meets_load (hloads : Bounded consumer) (cell : Cell) :
    (GasM.load cell).Meets consumer Ordinary fun slice => sliceSize slice ≤ cellSize cell :=
  fun slice hslice => hloads cell slice hslice

theorem meets_getNextInt (slice : SliceData) (n : Nat) :
    (liftM (TonTypes.getNextInt slice n) : GasM _).Meets consumer Ordinary fun r =>
      sliceSize r.2 ≤ sliceSize slice :=
  meets_liftM inferInstance (LawfulSizes.getNextInt slice n)

theorem meets_getNextBit (slice : SliceData) :
    (liftM (TonTypes.getNextBit slice) : GasM _).Meets consumer Ordinary fun r =>
      sliceSize r.2 ≤ sliceSize slice :=
  meets_liftM inferInstance (LawfulSizes.getNextBit slice)

theorem meets_drainReference (slice : SliceData) :
    (liftM (TonTypes.checkedDrainReference slice) : GasM _).Meets consumer Ordinary fun r =>
      cellSize r.1 + sliceSize r.2 ≤ sliceSize slice :=
  meets_liftM inferInstance (LawfulSizes.checkedDrainReference slice)

theorem meets_sliceDeserialize (slice : SliceData) :
    (liftM (sliceDeserialize slice) : GasM _).Meets consumer Ordinary fun r =>
      sliceSize r.2 ≤ sliceSize slice :=
  meets_liftM (calm_sliceDeserialize slice) (size_sliceDeserialize slice)

theorem meets_childSlice (hloads : Bounded consumer) (slice : SliceData) :
    (childSlice slice).Meets consumer Ordinary fun r => sliceSize r.2 ≤ sliceSize slice := by
  unfold childSlice
  refine .bind (meets_drainReference slice) fun ⟨cell, rest⟩ hcell => ?_
  refine .bind (meets_load hloads cell) fun child _ => ?_
  refine .bind (meets_sliceDeserialize child) fun _ _ => ?_
  exact le_trans (Nat.le_add_left _ _) hcell

theorem meets_typeDeserialize (hloads : Bounded consumer) (slice : SliceData) :
    (ContinuationType.deserialize slice).Meets consumer Ordinary fun r =>
      sliceSize r.2 ≤ sliceSize slice := by
  unfold ContinuationType.deserialize
  refine .bind (meets_getNextInt slice 2) fun ⟨typ, slice₁⟩ h₁ => .ite (fun _ => h₁) fun _ => ?_
  refine .bind (meets_getNextInt slice₁ 2) fun ⟨sub, slice₂⟩ h₂ => ?_
  have hle : sliceSize slice₂ ≤ sliceSize slice := le_trans h₂ h₁
  dsimp only
  split
  · exact .bind (meets_getNextInt slice₂ 32) fun r h₃ => le_trans h₃ hle
  · exact .bind (meets_getNextInt slice₂ 32) fun r h₃ => le_trans h₃ hle
  · exact hle
  · exact .bind (meets_childSlice hloads slice₂) fun r h₃ => le_trans h₃ hle
  · exact hle
  · refine .bind (meets_drainReference slice₂) fun ⟨cell, rest⟩ hcell => ?_
    refine .bind (meets_load hloads cell) fun child _ => ?_
    refine .bind (meets_sliceDeserialize child) fun r _ => ?_
    refine .bind (meets_sliceDeserialize r.2) fun _ _ => ?_
    exact le_trans (le_trans (Nat.le_add_left _ _) hcell) hle
  · exact .bind (meets_childSlice hloads slice₂) fun r h₃ => le_trans h₃ hle
  · exact .bind (meets_childSlice hloads slice₂) fun r h₃ =>
      .bind (meets_getNextInt r.2 32) fun r' h₄ => le_trans h₄ (le_trans h₃ hle)
  · exact .bind (meets_getNextInt slice₂ 32) fun r h₃ => le_trans h₃ hle
  · exact nofun

/-- The size of what a job reads. -/
def Job.size : Job → Nat
  | tuple _ slice => sliceSize slice
  | cont _ entries _ slice => sliceSize slice + (entries.map fun entry => sliceSize entry.2 + 1).sum

omit [Sizes] [LawfulSizes] in
theorem calm_savelistWork (entries : List (SliceData × SliceData)) : Calm (savelistWork entries) := by
  induction entries with
  | nil => exact ⟨nofun⟩
  | cons entry entries ih =>
    unfold savelistWork
    infer_instance

omit [LawfulSizes] [CalmReads] in
theorem savelistWork_eq_entryWork (entries : List (SliceData × SliceData)) :
    Yields (fun work => ∃ saves, work = entryWork saves ∧
      (saves.map fun entry => sliceSize entry.2 + 1).sum =
        (entries.map fun entry => sliceSize entry.2 + 1).sum) (savelistWork entries) := by
  induction entries with
  | nil => exact .pure ⟨[], rfl, rfl⟩
  | cons entry entries ih =>
    obtain ⟨key, value⟩ := entry
    refine .bind_any fun ⟨index, _⟩ => .bind ih fun work hwork => .pure ?_
    obtain ⟨saves, rfl, hsum⟩ := hwork
    refine ⟨(index, value) :: saves, rfl, ?_⟩
    rw [List.map_cons, List.map_cons, List.sum_cons, List.sum_cons, hsum]

/-- The end of a continuation: the code page and the code. -/
theorem meets_contEnd {entries : List (Nat × SliceData)} {n : Nat} {stack slice slice₀ : SliceData}
    {nargs : Int} {typeOf : ContinuationType}
    (hsize : sliceSize stack + (entries.map fun entry => sliceSize entry.2 + 1).sum + sliceSize slice ≤
      sliceSize slice₀) :
    GasMOf.Meets consumer Ordinary (fun r => ∃ cont entries n stack,
      r.1 = (Job.cont cont entries n stack).work ∧
      (Job.cont cont entries n stack).size + sliceSize r.2 ≤ sliceSize slice₀) 
        (contWork (.items n stack) typeOf nargs (entryWork entries) slice) := by
  refine .bind (meets_getNextInt slice 16) fun ⟨_, slice₁⟩ h₁ => ?_
  refine .bind (meets_sliceDeserialize slice₁) fun ⟨code, slice₂⟩ h₂ => ?_
  refine ⟨{ code, nargs, typeOf }, entries, n, stack, rfl, ?_⟩
  dsimp only [Job.size] at *
  omega

/-- The continuation after its stack: the save list and the end. -/
theorem meets_contSaves {n : Nat} {stack slice slice₀ : SliceData} {nargs : Int}
    {typeOf : ContinuationType} (hsize : sliceSize stack + sliceSize slice ≤ sliceSize slice₀) :
    GasMOf.Meets consumer Ordinary (fun r => ∃ cont entries n stack,
      r.1 = (Job.cont cont entries n stack).work ∧
      (Job.cont cont entries n stack).size + sliceSize r.2 ≤ sliceSize slice₀) 
        (contEnd (.items n stack) typeOf nargs slice) := by
  refine .bind (meets_getNextBit slice) fun ⟨hasSavelist, slice₁⟩ h₁ => ?_
  refine .ite (fun _ => ?_) fun _ => ?_
  · refine .bind (meets_drainReference slice₁) fun ⟨root, slice₂⟩ h₂ => ?_
    have hentries := LawfulSizes.iterateSlices root
    refine .bind (meets_liftM (calm_savelistWork _) (savelistWork_eq_entryWork _)) fun work hwork => ?_
    obtain ⟨saves, rfl, hsum⟩ := hwork
    refine .bind (meets_liftM inferInstance fun _ _ => trivial) fun _ _ => ?_
    refine meets_contEnd ?_
    dsimp only at *
    omega
  · have hnone : sliceSize stack + (([] : List (Nat × SliceData)).map fun entry =>
        sliceSize entry.2 + 1).sum + sliceSize slice₁ ≤ sliceSize slice₀ := by
      rw [List.map_nil, List.sum_nil]
      dsimp only at h₁
      omega
    exact meets_contEnd hnone

theorem meets_contDeserializeInternal (hloads : Bounded consumer) (slice : SliceData) :
    (ContinuationOf.deserializeInternal slice).Meets consumer Ordinary fun r => ∃ cont entries n stack,
      r.1 = (Job.cont cont entries n stack).work ∧
      (Job.cont cont entries n stack).size + sliceSize r.2 ≤ sliceSize slice := by
  unfold ContinuationOf.deserializeInternal
  refine .bind (meets_typeDeserialize hloads slice) fun ⟨typeOf, slice₁⟩ h₁ => ?_
  refine .bind (meets_getNextInt slice₁ 22) fun ⟨nargs, slice₂⟩ h₂ => ?_
  refine .bind (meets_getNextBit slice₂) fun ⟨hasStack, slice₃⟩ h₃ => ?_
  refine .ite (fun _ => ?_) fun _ => ?_
  · refine .bind (meets_getNextInt slice₃ 24) fun ⟨n, slice₄⟩ h₄ => ?_
    refine .bind (meets_drainReference slice₄) fun ⟨cell, slice₅⟩ h₅ => ?_
    refine .bind (meets_load hloads cell) fun stack hstack => meets_contSaves ?_
    dsimp only at *
    omega
  · refine meets_contSaves ?_
    rw [LawfulSizes.sliceDefault]
    dsimp only at *
    omega

omit [TonTypes] [Sizes] [LawfulSizes] [CalmReads] in
/-- Every string of 257 bits is an integer of the machine. -/
theorem calm_integer {data : List UInt8} (h : ZeroPadded 257 data) :
    Calm (Encoding.deserialize .signedBigEndian 257 data) := by
  have hwidth : Encoding.signedBigEndian.Width 257 := le_rfl
  have hfits := (Encoding.inverse_of_width hwidth (fun _ => by decide)).fits data h
  rw [Encoding.deserialize_of_inRange (Encoding.inRange_of_fits hwidth hfits)]
  infer_instance

theorem meets_deserializeInternal (hloads : Bounded consumer) (slice : SliceData) :
    (StackItem.deserializeInternal slice).Meets consumer Ordinary fun r =>
      sliceSize r.2 < sliceSize slice ∧ ∀ work, r.1 = .inr work → ∃ job : Job,
        work = job.work ∧ job.size + sliceSize r.2 < sliceSize slice := by
  unfold StackItem.deserializeInternal
  refine .bind (meets_liftM inferInstance (LawfulSizes.getNextByte slice)) fun ⟨tag, slice₁⟩ h₁ => ?_
  have hplain {item : StackItem} {rest : SliceData} (hrest : sliceSize rest ≤ sliceSize slice₁) :
      (sliceSize rest < sliceSize slice ∧
        ∀ work, (.inl item : StackItem ⊕ List DeserializeItem) = .inr work →
          ∃ job : Job, work = job.work ∧ job.size + sliceSize rest < sliceSize slice) :=
    ⟨lt_of_le_of_lt hrest h₁, nofun⟩
  have hnested {job : Job} {rest : SliceData} (hsize : job.size + sliceSize rest ≤ sliceSize slice₁) :
      (sliceSize rest < sliceSize slice ∧
        ∀ work, (.inr job.work : StackItem ⊕ List DeserializeItem) = .inr work →
          ∃ job : Job, work = job.work ∧ job.size + sliceSize rest < sliceSize slice) := by
    have hlt : job.size + sliceSize rest < sliceSize slice := lt_of_le_of_lt hsize h₁
    refine ⟨lt_of_le_of_lt (Nat.le_add_left _ _) hlt, ?_⟩
    rintro _ ⟨⟩
    exact ⟨job, rfl, hlt⟩
  refine .ite (fun _ => hplain le_rfl) fun _ => .ite (fun _ => ?_) fun _ => .ite (fun _ => ?_)
    fun _ => .ite (fun _ => ?_) fun _ => .ite (fun _ => ?_) fun _ => .ite (fun _ => ?_) fun _ =>
    .ite (fun _ => ?_) fun _ => nofun
  · refine .bind (meets_getNextInt slice₁ 7) fun ⟨mark, slice₂⟩ h₂ => ?_
    refine .ite (fun _ => ?_) fun _ => .ite (fun _ => ?_) fun _ => nofun
    · refine .bind (meets_liftM (Q := fun r => ZeroPadded 257 r.1 ∧ sliceSize r.2 ≤ sliceSize slice₂)
        inferInstance fun r hr => ?_) fun r h₃ => ?_
      · exact ⟨CalmReads.zeroPadded slice₂ 257 r hr, LawfulSizes.getNextBits slice₂ 257 r hr⟩
      · refine .bind (meets_liftM (calm_integer h₃.1) fun _ _ => trivial) fun _ _ => ?_
        exact hplain (le_trans h₃.2 h₂)
    · refine .bind (meets_getNextBit slice₂) fun r h₃ => ?_
      exact .ite (fun _ => hplain (le_trans h₃ h₂)) fun _ => nofun
  · refine .bind (meets_drainReference slice₁) fun r h₂ => ?_
    exact hplain (le_trans (Nat.le_add_left _ _) h₂)
  · refine .bind (meets_sliceDeserialize slice₁) fun r h₂ => ?_
    exact hplain h₂
  · refine .bind (meets_drainReference slice₁) fun r h₂ => ?_
    refine .bind (meets_liftM inferInstance fun _ _ => trivial) fun _ _ => ?_
    exact hplain (le_trans (Nat.le_add_left _ _) h₂)
  · refine .bind (meets_drainReference slice₁) fun ⟨cell, rest⟩ h₂ => ?_
    refine .bind (meets_load hloads cell) fun child hchild => ?_
    refine .bind (meets_contDeserializeInternal hloads child) fun ⟨work, _⟩ hwork => ?_
    obtain ⟨cont, entries, n, stack, rfl, hsize⟩ := hwork
    refine hnested ?_
    dsimp only at *
    omega
  · refine .bind (meets_getNextInt slice₁ 8) fun ⟨n, slice₂⟩ h₂ => ?_
    refine .bind (meets_drainReference slice₂) fun ⟨cell, rest⟩ h₃ => ?_
    refine .bind (meets_load hloads cell) fun child hchild => ?_
    have hsize : (Job.tuple n child).size + sliceSize rest ≤ sliceSize slice₁ := by
      dsimp only [Job.size] at *
      omega
    exact hnested hsize

omit [CalmReads] in
theorem meets_advance (hloads : Bounded consumer) (slice : SliceData) :
    (DeserializeState.advance slice).Meets consumer Ordinary fun next =>
      sliceSize next ≤ sliceSize slice := by
  unfold DeserializeState.advance
  split
  · rename_i cell rest hdrain
    have hcell := LawfulSizes.checkedDrainReference slice _ hdrain
    refine (meets_load hloads cell).mono fun next hnext => ?_
    dsimp only at hcell
    omega
  · exact le_rfl

/-! ### Any input -/

open DeserializeState

variable {Q : List StackItem → Prop}

omit [LawfulSizes] [CalmReads] in
theorem entriesReady_of_levels {entries : List (Nat × SliceData)}
    (h : ∀ entry ∈ entries, Level consumer Ordinary Q 1 entry.2 (4 * sliceSize entry.2)) :
    EntriesReady consumer Ordinary Q entries
      (4 * (entries.map fun entry => sliceSize entry.2 + 1).sum) := by
  induction entries with
  | nil => trivial
  | cons entry entries ih =>
    obtain ⟨key, value⟩ := entry
    refine ⟨_, _, ?_, h _ List.mem_cons_self, ih fun e he => h e (List.mem_cons_of_mem _ he),
      fun _ _ => .inr nofun⟩
    rw [List.map_cons, List.sum_cons]
    omega

omit [LawfulSizes] [CalmReads] in
/-- A job can be done when the levels of its size can be read. -/
theorem jobReady_of_levels {job : Job}
    (h : ∀ n slice, sliceSize slice ≤ job.size → Level consumer Ordinary Q n slice (4 * sliceSize slice)) :
    JobReady consumer Ordinary Q job (4 * job.size + 3) := by
  cases job with
  | tuple n slice => exact ⟨_, by dsimp only [Job.size]; omega, h n slice le_rfl⟩
  | cont cont entries n slice =>
    refine ⟨_, _, ?_, h n slice (Nat.le_add_right _ _), entriesReady_of_levels fun entry hentry => ?_⟩
    · dsimp only [Job.size]
      omega
    · refine h 1 entry.2 ?_
      have hmem := List.single_le_sum (fun _ _ => Nat.zero_le _) _
        (List.mem_map_of_mem (f := fun entry : Nat × SliceData => sliceSize entry.2 + 1) hentry)
      dsimp only [Job.size] at *
      omega

/-- Every slice can be read, at a cost in proportion to its size. -/
theorem level_any (hloads : Bounded consumer) (n : Nat) (slice : SliceData) :
    Level consumer Ordinary Q n slice (4 * sliceSize slice) := by
  induction hk : sliceSize slice using Nat.strong_induction_on generalizing n slice with
  | _ k ih =>
    subst hk
    cases n with
    | zero => exact level_zero slice _
    | succ n =>
      refine level_succ ((meets_deserializeInternal hloads slice).mono fun r hr => ?_)
      obtain ⟨hlt, hwork⟩ := hr
      refine (meets_advance hloads r.2).mono fun next hnext => ?_
      refine ⟨_, ih _ (lt_of_le_of_lt hnext hlt) n next rfl, ?_⟩
      split
      · omega
      · rename_i work hr
        obtain ⟨job, rfl, hsize⟩ := hwork work hr
        refine ⟨job, _, rfl, jobReady_of_levels fun n slice hle => ih _ ?_ n slice rfl, ?_⟩
        · omega
        · omega

theorem completes_any_item (hloads : Bounded consumer) (slice : SliceData) :
    Completes consumer Ordinary (fun items => ∃ item, items = [item] ∧ Decodes consumer 1 slice [item])
      (4 * sliceSize slice + 2) { list := [.items 1 slice] } :=
  completes_item (level_any hloads 1 slice) fun item hitem => ⟨item, rfl, hitem⟩

theorem meets_itemDeserialize (hloads : Bounded consumer) (slice : SliceData) {fuel : Nat}
    (hfuel : 4 * sliceSize slice + 2 ≤ fuel) :
    (StackItem.deserialize fuel slice).Meets consumer Ordinary fun item =>
      Decodes consumer 1 slice [item] := by
  refine .bind ((completes_any_item hloads slice).meets hfuel) fun items hitems => ?_
  obtain ⟨item, rfl, hitem⟩ := hitems
  exact hitem

theorem completes_any_cont (hloads : Bounded consumer) {slice rest : SliceData}
    {work : List DeserializeItem}
    (h : (ContinuationOf.deserializeInternal slice).Yields consumer (work, rest)) :
    ∃ job : Job, work = job.work ∧
      Completes consumer Ordinary (fun items => ∃ cont, items = [.continuation cont] ∧
        Makes consumer job (.continuation cont)) (4 * sliceSize slice + 4) { list := work.reverse } := by
  obtain ⟨cont, entries, n, stack, hwork, hsize⟩ :=
    (meets_contDeserializeInternal hloads slice).of_yields h
  dsimp only at hwork hsize
  subst hwork
  have hready : JobReady consumer Ordinary (fun items => ∃ c, items = [.continuation c] ∧
      Makes consumer (.cont cont entries n stack) (.continuation c)) (.cont cont entries n stack) _ :=
    jobReady_of_levels fun n slice _ => level_any hloads n slice
  refine ⟨_, rfl, (completes_job hready fun item hitem => ?_).mono (by omega)⟩
  cases hitem with
  | cont hstack hsaves => exact ⟨_, rfl, .cont hstack hsaves⟩

theorem meets_contDeserialize (hloads : Bounded consumer) (slice : SliceData) {fuel : Nat}
    (hfuel : 4 * sliceSize slice + 4 ≤ fuel) :
    (ContinuationOf.deserialize fuel slice).Meets consumer Ordinary fun r => ∃ job : Job,
      (ContinuationOf.deserializeInternal slice).Yields consumer (job.work, r.2) ∧
        Makes consumer job (.continuation r.1) := by
  refine .bind (meets_contDeserializeInternal hloads slice).yields fun ⟨work, rest⟩ h => ?_
  obtain ⟨job, rfl, hcompletes⟩ := completes_any_cont hloads h.1
  refine .bind (hcompletes.meets hfuel) fun items hitems => ?_
  obtain ⟨cont, rfl, hcont⟩ := hitems
  exact ⟨job, h.1, hcont⟩

/-- The decoder is safe on any finite tree of cells, well formed or not. It comes to an end, with an
error that is no panic or with exactly one item, which is what the slice holds level by level. In a run
it never pops an empty stack, a tuple always has its declared length, and an item is put in the save
list of its own continuation only at a register that may hold it. -/
theorem decoder_safety (hloads : Bounded consumer) (slice : SliceData) :
    (∃ n, ∀ fuel, n ≤ fuel →
      (itemsDeserialize fuel { list := [.items 1 slice] }).Meets consumer Ordinary (fun items =>
        ∃ item, items = [item] ∧ Decodes consumer 1 slice [item]) ∧
      (StackItem.deserialize fuel slice).Meets consumer Ordinary fun item =>
        Decodes consumer 1 slice [item]) ∧
    RunsSoundly consumer { list := [.items 1 slice] } ∧
    (∃ n, ∀ fuel, n ≤ fuel → (ContinuationOf.deserialize fuel slice).Meets consumer Ordinary fun r =>
      ∃ job : Job, (ContinuationOf.deserializeInternal slice).Yields consumer (job.work, r.2) ∧
        Makes consumer job (.continuation r.1)) ∧
    ∀ work rest, (ContinuationOf.deserializeInternal slice).Yields consumer (work, rest) →
      (∃ n, ∀ fuel, n ≤ fuel →
        (itemsDeserialize fuel { list := work.reverse }).Meets consumer Ordinary fun items =>
          ∃ cont, items = [.continuation cont]) ∧
      RunsSoundly consumer { list := work.reverse } := by
  have hitem := completes_any_item hloads slice
  refine ⟨⟨_, fun fuel hfuel => ⟨hitem.meets hfuel, meets_itemDeserialize hloads slice hfuel⟩⟩,
    hitem.runsSoundly, ⟨_, fun fuel => meets_contDeserialize hloads slice⟩, fun work rest hwork => ?_⟩
  obtain ⟨job, -, hcont⟩ := completes_any_cont hloads hwork
  refine ⟨⟨_, fun fuel hfuel => (hcont.meets hfuel).mono fun items hitems => ?_⟩, hcont.runsSoundly⟩
  obtain ⟨cont, rfl, -⟩ := hitems
  exact ⟨cont, rfl⟩

end Sizes

end Decoder

/-! ### The plain implementation -/

namespace Plain

open scoped TonVm.Plain

scoped instance sizes : Sizes where
  cellSize cell := Tree.count cell + Tree.countBits cell
  sliceSize slice := (Slice.bits slice).length + Tree.countRefs (Slice.refs slice) +
    Tree.countBitsRefs (Slice.refs slice)

/-- The next bits are no longer a part of the slice. -/
theorem size_next {α : Type} (f : List Bool → α) (slice : Slice) (n : Nat) (r : α × Slice)
    (h : (do
      let (bits, rest) ← slice.next n
      return (f bits, rest)) = .ok r) :
    sliceSize (r.2 : SliceData) + n = sliceSize (slice : SliceData) := by
  obtain ⟨⟨bits, rest⟩, hnext, hr⟩ := bind_eq_ok h
  cases hr
  unfold Slice.next at hnext
  split at hnext
  · rename_i hle
    cases hnext
    have hbits : (Slice.bits { slice with start := slice.start + n }).length + n =
        (Slice.bits slice).length := by
      show ((slice.cell.bits.take slice.stop).drop (slice.start + n)).length + n = _
      rw [← List.drop_drop, List.length_drop]
      exact Nat.sub_add_cancel hle
    show (Slice.bits { slice with start := slice.start + n }).length + Tree.countRefs (Slice.refs slice) +
      Tree.countBitsRefs (Slice.refs slice) + n = (Slice.bits slice).length +
        Tree.countRefs (Slice.refs slice) + Tree.countBitsRefs (Slice.refs slice)
    omega
  · cases hnext

instance calm_next (slice : Slice) (n : Nat) : Calm (slice.next n) := by
  unfold Slice.next
  infer_instance

theorem size_drainReference (slice : Slice) (r : Tree × Slice) (h : slice.drainReference = .ok r) :
    cellSize (r.1 : Cell) + sliceSize (r.2 : SliceData) = sliceSize (slice : SliceData) := by
  obtain ⟨cell, hcell, hr⟩ := bind_eq_ok h
  cases hr
  unfold Slice.reference at hcell
  cases hrefs : slice.refs with
  | nil =>
    rw [hrefs] at hcell
    cases hcell
  | cons ref refs =>
    rw [hrefs] at hcell
    obtain rfl : ref = cell := Except.ok.inj hcell
    have hrest : Slice.refs { slice with refStart := slice.refStart + 1 } = refs := by
      show (slice.cell.refs.take slice.refStop).drop (slice.refStart + 1) = refs
      rw [← List.drop_drop]
      have htail := congrArg List.tail hrefs
      rwa [← List.drop_one] at htail
    show Tree.count ref + Tree.countBits ref + ((Slice.bits slice).length +
      Tree.countRefs (Slice.refs { slice with refStart := slice.refStart + 1 }) +
      Tree.countBitsRefs (Slice.refs { slice with refStart := slice.refStart + 1 })) =
        (Slice.bits slice).length + Tree.countRefs (Slice.refs slice) +
          Tree.countBitsRefs (Slice.refs slice)
    rw [hrest, hrefs, Tree.countRefs, Tree.countBitsRefs]
    omega

theorem size_whole (cell : Tree) :
    sliceSize (Slice.whole cell : SliceData) + 1 = cellSize (cell : Cell) := by
  show (Slice.bits (Slice.whole cell)).length + Tree.countRefs (Slice.refs (Slice.whole cell)) +
    Tree.countBitsRefs (Slice.refs (Slice.whole cell)) + 1 = Tree.count cell + Tree.countBits cell
  rw [bits_whole, refs_whole]
  cases cell
  rw [Tree.count, Tree.countBits, Tree.bits, Tree.refs]
  omega

/-- The consumer that loads every cell as it is. -/
def consumer : Consumer where
  Finalizes builder cell := TonTypes.finalize builder 1024 = .ok cell
  Loads cell slice := TonTypes.loadCell cell = .ok slice

theorem bounded_consumer : Bounded consumer := by
  intro cell slice h
  have hload : (if Tree.type cell = .prunedBranch then .error .other else .ok (Slice.whole cell)) =
      (.ok slice : Except Failure Slice) := h
  split at hload
  · cases hload
  · cases hload
    exact (Nat.le_succ _).trans (size_whole cell).le

theorem size_unleaf (leaf : Tree) :
    sliceSize ((Entries.unleaf leaf).2 : SliceData) + 1 ≤ cellSize (leaf : Cell) := by
  have hwhole := size_whole leaf
  have hbits : (Slice.bits (Entries.unleaf leaf).2).length ≤ (Slice.bits (Slice.whole leaf)).length := by
    show ((leaf.bits.take leaf.bits.length).drop (10 + _)).length ≤
      ((leaf.bits.take leaf.bits.length).drop 0).length
    rw [List.length_drop, List.length_drop]
    exact Nat.sub_le_sub_left (Nat.zero_le _) _
  have hle : sliceSize ((Entries.unleaf leaf).2 : SliceData) ≤
      sliceSize (Slice.whole leaf : SliceData) := by
    show (Slice.bits (Entries.unleaf leaf).2).length + Tree.countRefs (Slice.refs (Slice.whole leaf)) +
      Tree.countBitsRefs (Slice.refs (Slice.whole leaf)) ≤ (Slice.bits (Slice.whole leaf)).length +
        Tree.countRefs (Slice.refs (Slice.whole leaf)) + Tree.countBitsRefs (Slice.refs (Slice.whole leaf))
    omega
  omega

theorem size_leaves (fuel : Nat) (node : Tree) :
    ((Entries.leaves fuel node).map fun entry => sliceSize (entry.2 : SliceData) + 1).sum ≤
      cellSize (node : Cell) := by
  induction fuel generalizing node with
  | zero => exact Nat.zero_le _
  | succ fuel ih =>
    have hnode : cellSize (node : Cell) = 1 + Tree.countRefs node.refs +
        (node.bits.length + Tree.countBitsRefs node.refs) := by
      cases node
      rfl
    have hcell (cell : Tree) : cellSize (cell : Cell) = cell.count + cell.countBits := rfl
    rw [hnode]
    unfold Entries.leaves
    split
    · rename_i leaf rest more hrefs
      have hleaf := size_unleaf leaf
      have hrest := ih rest
      rw [hcell] at hleaf hrest
      rw [List.map_cons, List.sum_cons, hrefs, Tree.countRefs, Tree.countRefs, Tree.countBitsRefs,
        Tree.countBitsRefs]
      omega
    · rename_i leaf hrefs
      have hleaf := size_unleaf leaf
      rw [hcell] at hleaf
      rw [List.map_singleton, List.sum_singleton, hrefs, Tree.countRefs, Tree.countBitsRefs]
      omega
    · exact Nat.zero_le _

scoped instance lawfulSizes : LawfulSizes where
  sliceDefault := rfl
  getNextByte slice r h := by
    have hsize := size_next byteOf slice 8 r h
    omega
  getNextInt slice n r h := by
    have hsize := size_next natOf slice n r h
    omega
  getNextBit slice r h := by
    have hsize := size_next (fun bits => decide (natOf bits = 1)) slice 1 r h
    omega
  getNextBits slice n r h := by
    have hsize := size_next bytesOf slice n r h
    omega
  checkedDrainReference slice r h := (size_drainReference slice r h).le
  iterateSlices root := by
    have hleaves := size_leaves (Tree.depth root + 1) root
    show (((Entries.leaves (Tree.depth root + 1) root).map fun entry =>
      (Slice.ofBits entry.1, entry.2)).map fun entry => sliceSize (entry.2 : SliceData) + 1).sum ≤ _
    rw [List.map_map]
    exact hleaves

scoped instance calmReads : CalmReads where
  getNextByte slice := inferInstanceAs (Calm (do
    let (bits, rest) ← Slice.next slice 8
    return (byteOf bits, rest)))
  getNextInt slice n := inferInstanceAs (Calm (do
    let (bits, rest) ← Slice.next slice n
    return (natOf bits, rest)))
  getNextBit slice := inferInstanceAs (Calm (do
    let (bits, rest) ← Slice.next slice 1
    return (decide (natOf bits = 1), rest)))
  getNextBits slice n := inferInstanceAs (Calm (do
    let (bits, rest) ← Slice.next slice n
    return (bytesOf bits, rest)))
  zeroPadded slice n r h := by
    obtain ⟨⟨bits, rest⟩, hnext, hr⟩ := bind_eq_ok h
    cases hr
    unfold Slice.next at hnext
    split at hnext
    · rename_i hle
      cases hnext
      have hpadded := zeroPadded_bytesOf ((Slice.bits slice).take n)
      have hlength : ((Slice.bits slice).take n).length = n := List.length_take_of_le hle
      rwa [hlength] at hpadded
    · cases hnext
  checkedDrainReference slice := by
    show Calm (do return (← Slice.reference slice 0, { slice with refStart := slice.refStart + 1 }))
    have hcalm : Calm (Slice.reference slice 0) := by
      unfold Slice.reference
      split <;> infer_instance
    infer_instance
  builderFromCell cell := ⟨nofun⟩
  loadCell cell := by
    show Calm (if Tree.type cell = .prunedBranch then .error .other else .ok (Slice.whole cell))
    infer_instance
  iterateSlices dict := ⟨nofun⟩

end Plain

open scoped Plain in
/-- The decoder reads a tuple with one element. -/
theorem decoder_safety_tuple :
    Bounded Plain.consumer ∧ DeserializeState.RunsSoundly Plain.consumer
      { list := [.items 1 (Plain.Slice.whole (.mk .ordinary (Plain.bitsOf 16 0x0701)
        [.mk .ordinary (Plain.bitsOf 8 0) []]))] } :=
  ⟨Plain.bounded_consumer, (decoder_safety Plain.bounded_consumer _).2.1⟩

end TonVm
