import TonVm.Plain
import TonVm.Proof.GasComputations
import TonVm.Proof.Transfer

/-!
# Loading cells

The first load of a cell costs 100 and every later one 25. An exotic cell is resolved hop by hop: each
hop costs 100, and a library cell is looked up in the dictionaries of the libraries, whose nodes are
loaded at the usual prices. The slice at the end is remembered for every cell on the way.
-/

namespace TonVm

open ExecLib

/-! ### Visits and their prices -/

/-- What a load does for gas. -/
inductive Visit where
  /-- An ordinary cell is loaded. -/
  | ordinary (hash : UInt256)
  /-- The slice of an exotic cell is known. -/
  | cached (hash : UInt256)
  /-- An exotic cell is resolved. -/
  | hop (hash : UInt256)
  /-- A lookup builds a cell. -/
  | finalize

namespace Visit

/-- The price, by the ordinary cells that were loaded before. -/
def price (visited : List UInt256) : Visit → Int
  | ordinary hash => if hash ∈ visited then 25 else 100
  | cached _ => 25
  | hop _ => 100
  | finalize => 500

/-- The ordinary cells that were loaded by then. -/
def note (visited : List UInt256) : Visit → List UInt256
  | ordinary hash => if hash ∈ visited then visited else hash :: visited
  | _ => visited

theorem mem_note {visited : List UInt256} {hash : UInt256} (h : hash ∈ visited) (visit : Visit) :
    hash ∈ visit.note visited := by
  cases visit with
  | ordinary hash' =>
    simp only [note]
    split
    · exact h
    · exact List.mem_cons_of_mem _ h
  | _ => exact h

end Visit

/-- What a sequence of visits costs. -/
def charges : List UInt256 → List Visit → Int
  | _, [] => 0
  | visited, visit :: visits => visit.price visited + charges (visit.note visited) visits

/-- The ordinary cells that were loaded after a sequence of visits. -/
def noted (visited : List UInt256) (visits : List Visit) : List UInt256 :=
  visits.foldl Visit.note visited

section Visits

variable (visited : List UInt256) (visits visits' : List Visit)

theorem noted_append : noted visited (visits ++ visits') = noted (noted visited visits) visits' :=
  List.foldl_append

theorem charges_append : charges visited (visits ++ visits') =
    charges visited visits + charges (noted visited visits) visits' := by
  induction visits generalizing visited with
  | nil => simp [charges, noted]
  | cons visit visits ih =>
    rw [List.cons_append, charges, charges, ih, noted, noted, List.foldl_cons, add_assoc]

theorem mem_noted {hash : UInt256} (h : hash ∈ visited) : hash ∈ noted visited visits := by
  induction visits generalizing visited with
  | nil => exact h
  | cons visit visits ih => exact ih _ (Visit.mem_note h visit)

end Visits

namespace Engine

variable [TonTypes] {α β : Type}

/-- The engine after a visit. -/
def visiting (e : Engine) (visit : Visit) : Engine :=
  { e with
    gas := e.gas.useGas (visit.price e.visitedCells)
    visitedCells := visit.note e.visitedCells }

/-! ### One hop -/

/-- `load_library_cell`: the first dictionary that holds the hash decides. -/
def lookUp (hash : SliceData) : List HashmapE → GasM Cell
  | [] => .fail (.code .cellUnderflow)
  | library :: libraries => do
    match ← TonTypes.getWithGas library hash with
    | some bucket =>
      let lib ← (TonTypes.sliceReference bucket 0 : Except Failure Cell)
      if TonTypes.hashEqSlice (TonTypes.reprHash lib) hash then
        return lib
      else
        .fail (.code .dictionaryError)
    | none => lookUp hash libraries

/-- The child of a Merkle proof, checked against the hash in the cell. -/
def proofChild (cell : Cell) : Except Failure Cell := do
  let slice ← TonTypes.loadCell cell
  let slice ← TonTypes.moveBy slice 8
  let (hash, _) ← TonTypes.getNextHash slice
  let child := TonTypes.virtualize (← TonTypes.cellReference cell 0) 1
  if TonTypes.reprHash child ≠ hash then
    .error (.code .cellUnderflow)
  else
    return child

/-- The second child of a Merkle update. Both children are checked against the hashes in the cell. -/
def updateChild (cell : Cell) : Except Failure Cell := do
  let slice ← TonTypes.loadCell cell
  let slice ← TonTypes.moveBy slice 8
  let (hash, slice) ← TonTypes.getNextHash slice
  let old := TonTypes.virtualize (← TonTypes.cellReference cell 0) 1
  if TonTypes.reprHash old ≠ hash then
    .error (.code .cellUnderflow)
  else
    let slice ← TonTypes.moveBy slice 16
    let (hash, _) ← TonTypes.getNextHash slice
    let child := TonTypes.virtualize (← TonTypes.cellReference cell 1) 1
    if TonTypes.reprHash child ≠ hash then
      .error (.code .cellUnderflow)
    else
      return child

/-- What an exotic cell leads to, for the types that are resolved. -/
def resolution (e : Engine) (cell : Cell) : Option (GasM Cell) :=
  match TonTypes.cellType cell with
  | .libraryReference => some do
    if e.checkCapabilities .capSetLibCode then
      let hash ← (TonTypes.loadCell cell : Except Failure SliceData)
      let hash ← (TonTypes.moveBy hash 8 : Except Failure SliceData)
      lookUp hash e.libraries
    else
      .fail (.code .invalidOpcode)
  | .merkleProof =>
    if e.checkCapabilities .capResolveMerkleCell then some (liftM (proofChild cell)) else none
  | .merkleUpdate =>
    if e.checkCapabilities .capResolveMerkleCell then some (liftM (updateChild cell)) else none
  | _ => none

theorem findLibrary_eq (load : Cell → M SliceData) (hash : SliceData) (libraries : List HashmapE) :
    findLibrary load hash libraries = runGasWith load (lookUp hash libraries) := by
  induction libraries with
  | nil => rfl
  | cons library libraries ih =>
    unfold findLibrary lookUp
    rw [runGasWith_bind]
    refine bind_congr fun found => ?_
    cases found with
    | none => exact ih
    | some bucket =>
      dsimp only
      rw [runGasWith_bind, runGasWith_liftM]
      refine bind_congr fun lib => ?_
      split <;> rfl

theorem lift_bind (x : Except Failure α) (f : α → Except Failure β) :
    (lift (x >>= f) : M β) = lift x >>= fun a => lift (f a) := by
  cases x <;> rfl

theorem lift_ite (c : Prop) [Decidable c] (x y : Except Failure α) :
    (lift (if c then x else y) : M α) = if c then lift x else lift y := by
  split <;> rfl

theorem exec_lift_bind_congr {x : Except Failure α} {f g : α → M β} {e : Engine}
    (h : ∀ a, exec (f a) e = exec (g a) e) : exec (lift x >>= f) e = exec (lift x >>= g) e := by
  cases x with
  | ok a => exact h a
  | error failure => rfl

/-- A hop: the price is paid before anything is looked up. -/
theorem exec_resolveExotic (load : Cell → M SliceData) (cell : Cell) (e : Engine) :
    exec (resolveExotic load cell) e =
      match resolution e cell with
      | some m => exec (do tryUseGas (Gas.loadCellPrice true); runGasWith load m) e
      | none => exec (err .cellUnderflow) e := by
  have hpaid (m : M Cell) (m' : M Cell)
      (h : ∀ amount, exec m (e.pay amount) = exec m' (e.pay amount)) :
      exec (do tryUseGas (Gas.loadCellPrice true); m) e =
        exec (do tryUseGas (Gas.loadCellPrice true); m') e := by
    rw [exec_bind, exec_bind]
    rcases hpay : exec (tryUseGas (Gas.loadCellPrice true)) e with ⟨_ | _, s⟩
    · rfl
    · obtain ⟨-, rfl⟩ := exec_tryUseGas_eq_ok hpay
      exact h _
  unfold resolveExotic resolution
  cases TonTypes.cellType cell with
  | libraryReference =>
    refine hpaid _ _ fun amount => ?_
    have hcheck : (e.pay amount).checkCapabilities .capSetLibCode =
      e.checkCapabilities .capSetLibCode := rfl
    have hlibraries : (e.pay amount).libraries = e.libraries := rfl
    unfold loadLibraryCell checkCapability
    rw [exec_bind, exec_bind_get, hcheck]
    by_cases hcap : e.checkCapabilities .capSetLibCode
    · simp only [hcap, if_true, runGasWith_bind, runGasWith_liftM]
      rw [exec_pure]
      refine exec_lift_bind_congr fun _ => exec_lift_bind_congr fun _ => ?_
      rw [exec_bind_get, hlibraries, findLibrary_eq]
    · simp only [hcap]
      rfl
  | merkleProof =>
    dsimp only
    rw [exec_bind_get]
    split
    · refine hpaid _ _ fun amount => congrArg (exec · _) ?_
      rw [runGasWith_liftM]
      unfold proofChild
      simp only [lift_bind]
      refine bind_congr fun _ => bind_congr fun _ => bind_congr fun _ => bind_congr fun _ => ?_
      rw [lift_ite]
      rfl
    · rfl
  | merkleUpdate =>
    dsimp only
    rw [exec_bind_get]
    split
    · refine hpaid _ _ fun amount => congrArg (exec · _) ?_
      rw [runGasWith_liftM]
      unfold updateChild
      simp only [lift_bind]
      refine bind_congr fun _ => bind_congr fun _ => bind_congr fun _ => bind_congr fun _ => ?_
      rw [lift_ite]
      split
      · rfl
      · simp only [lift_bind]
        refine bind_congr fun _ => bind_congr fun _ => bind_congr fun _ => ?_
        rw [lift_ite]
        rfl
    · rfl
  | _ => rfl

/-! ### Walks -/

/-- An exotic cell on the way, with what its lookup visits. -/
structure Hop where
  cell : Cell
  lookup : List Visit

/-- The visit at the cell where the way ends: an ordinary cell, or an exotic one that is known. -/
def stop (cell : Cell) : Visit :=
  if TonTypes.cellType cell = .ordinary then .ordinary (TonTypes.reprHash cell)
  else .cached (TonTypes.reprHash cell)

/-- The visits on a way over some hops to a cell. -/
def trace (hops : List Hop) (final : Cell) : List Visit :=
  hops.flatMap (fun hop => .hop (TonTypes.reprHash hop.cell) :: hop.lookup) ++ [stop final]

theorem trace_cons (hop : Hop) (hops : List Hop) (final : Cell) :
    trace (hop :: hops) final =
      [.hop (TonTypes.reprHash hop.cell)] ++ hop.lookup ++ trace hops final := by
  simp [trace]

/-- The slice is remembered for the cells on the way. -/
def remembering (e : Engine) (hops : List Hop) (slice : SliceData) : Engine :=
  { e with visitedExoticCells :=
    hops.reverse.map (fun hop => (TonTypes.reprHash hop.cell, slice)) ++ e.visitedExoticCells }

mutual

/-- The loop of `load_hashed_cell` goes from a cell over some hops to a cell whose slice it finds. -/
inductive Walks : Engine → Cell → List Hop → Cell → SliceData → Engine → Prop where
  | ordinary {e : Engine} {cell : Cell} {slice : SliceData}
      (htype : TonTypes.cellType cell = .ordinary)
      (hgas : (stop cell).price e.visitedCells ≤ e.gas.gasRemaining)
      (hload : TonTypes.loadCell cell = .ok slice) :
      Walks e cell [] cell slice (e.visiting (stop cell))
  | cached {e : Engine} {cell : Cell} {slice : SliceData}
      (htype : TonTypes.cellType cell ≠ .ordinary)
      (hgas : (stop cell).price e.visitedCells ≤ e.gas.gasRemaining)
      (hlookup : e.visitedExoticCells.lookup (TonTypes.reprHash cell) = some slice) :
      Walks e cell [] cell slice (e.visiting (stop cell))
  | hop {e s t : Engine} {cell child final : Cell} {m : GasM Cell} {lookup : List Visit}
      {hops : List Hop} {slice : SliceData}
      (htype : TonTypes.cellType cell ≠ .ordinary)
      (hlookup : e.visitedExoticCells.lookup (TonTypes.reprHash cell) = none)
      (hresolution : resolution e cell = some m) (hgas : 100 ≤ e.gas.gasRemaining)
      (hanswers : Answers (e.visiting (.hop (TonTypes.reprHash cell))) m lookup child s)
      (hwalks : Walks s child hops final slice t) :
      Walks e cell (⟨cell, lookup⟩ :: hops) final slice t

/-- A computation of the package returns a cell, with the loads it asks for. -/
inductive Answers : Engine → GasM Cell → List Visit → Cell → Engine → Prop where
  | pure {e : Engine} {cell : Cell} : Answers e (.pure cell) [] cell e
  | finalizeCell {e t : Engine} {builder : BuilderData} {cell child : Cell} {next : Cell → GasM Cell}
      {visits : List Visit} (hcell : TonTypes.finalize builder 1024 = .ok cell)
      (hanswers : Answers (e.visiting .finalize) (next cell) visits child t) :
      Answers e (.finalizeCell builder next) (.finalize :: visits) child t
  | loadCell {e s t : Engine} {cell final child : Cell} {next : SliceData → GasM Cell}
      {hops : List Hop} {slice : SliceData} {visits : List Visit}
      (hwalks : Walks e cell hops final slice s)
      (hanswers : Answers (s.remembering hops slice) (next slice) visits child t) :
      Answers e (.loadCell cell next) (trace hops final ++ visits) child t

end

/-- What a sequence of visits does to an engine, and what it leaves. -/
structure Accounts (e : Engine) (visits : List Visit) (t : Engine) : Prop where
  gas : t.gas = e.gas.useGas (charges e.visitedCells visits)
  visited : t.visitedCells = noted e.visitedCells visits
  keeps : ∀ hash slice, e.visitedExoticCells.lookup hash = some slice →
    t.visitedExoticCells.lookup hash = some slice

theorem Accounts.trans {e s t : Engine} {visits visits' : List Visit} (h : Accounts e visits s)
    (h' : Accounts s visits' t) : Accounts e (visits ++ visits') t where
  gas := by
    rw [h'.gas, h.gas, h.visited, charges_append]
    unfold Gas.useGas
    congr 1
    dsimp only
    omega
  visited := by rw [h'.visited, h.visited, noted_append]
  keeps hash slice hlookup := h'.keeps hash slice (h.keeps hash slice hlookup)

theorem accounts_visiting (e : Engine) (visit : Visit) : Accounts e [visit] (e.visiting visit) where
  gas := by
    unfold visiting charges charges
    rw [add_zero]
  visited := rfl
  keeps _ _ h := h

theorem lookup_remembering (e : Engine) (hops : List Hop) (hash : UInt256) (slice : SliceData) :
    (e.remembering hops slice).visitedExoticCells.lookup hash =
      if hash ∈ hops.map (TonTypes.reprHash ·.cell) then some slice
      else e.visitedExoticCells.lookup hash := by
  have hlookup (hashes : List UInt256) :
      (hashes.map (·, slice) ++ e.visitedExoticCells).lookup hash =
        if hash ∈ hashes then some slice else e.visitedExoticCells.lookup hash := by
    induction hashes with
    | nil => rfl
    | cons head hashes ih =>
      rw [List.map_cons, List.cons_append, List.lookup_cons, ih]
      by_cases heq : hash = head
      · simp [heq]
      · have hne : (hash == head) = false := beq_false_of_ne heq
        rw [hne]
        simp [heq]
  have hmap : hops.reverse.map (fun hop => (TonTypes.reprHash hop.cell, slice)) =
      (hops.map (TonTypes.reprHash ·.cell)).reverse.map (·, slice) := by
    rw [← List.map_reverse, List.map_map]
    rfl
  unfold remembering
  rw [hmap, hlookup]
  simp only [List.mem_reverse]

/-- What was known stays known, since no hop was. -/
theorem Accounts.remembering {e s : Engine} {visits : List Visit} (h : Accounts e visits s)
    {hops : List Hop}
    (hops_unknown : ∀ hop ∈ hops, e.visitedExoticCells.lookup (TonTypes.reprHash hop.cell) = none)
    (slice : SliceData) : Accounts e visits (s.remembering hops slice) where
  gas := h.gas
  visited := h.visited
  keeps hash slice' hlookup := by
    rw [lookup_remembering, if_neg, h.keeps hash slice' hlookup]
    intro hmem
    obtain ⟨hop, hhop, rfl⟩ := List.mem_map.1 hmem
    rw [hops_unknown hop hhop] at hlookup
    cases hlookup

theorem Accounts.lookup_eq_none {e t : Engine} {visits : List Visit} (h : Accounts e visits t)
    {hash : UInt256} (hlookup : t.visitedExoticCells.lookup hash = none) :
    e.visitedExoticCells.lookup hash = none := by
  rw [Option.eq_none_iff_forall_ne_some]
  intro slice hslice
  rw [h.keeps hash slice hslice] at hlookup
  cases hlookup

theorem accounts_nil (e : Engine) : Accounts e [] e :=
  ⟨by simp [charges, Gas.useGas], rfl, fun _ _ h => h⟩

mutual

/-- A walk costs what its visits cost, and none of its hops was known. -/
theorem Walks.accounts {e t : Engine} {cell final : Cell} {hops : List Hop} {slice : SliceData} :
    Walks e cell hops final slice t → Accounts e (trace hops final) t ∧
      ∀ hop ∈ hops, e.visitedExoticCells.lookup (TonTypes.reprHash hop.cell) = none
  | .ordinary _ _ _ => ⟨accounts_visiting _ _, List.forall_mem_nil _⟩
  | .cached _ _ _ => ⟨accounts_visiting _ _, List.forall_mem_nil _⟩
  | .hop _ hlookup _ _ hanswers hwalks => by
    have hfirst := (accounts_visiting e _).trans hanswers.accounts
    obtain ⟨hrest, hknown⟩ := hwalks.accounts
    refine ⟨?_, List.forall_mem_cons.2 ⟨hlookup, fun hop hhop => ?_⟩⟩
    · rw [trace_cons]
      exact hfirst.trans hrest
    · exact hfirst.lookup_eq_none (hknown hop hhop)

theorem Answers.accounts {e t : Engine} {m : GasM Cell} {visits : List Visit} {cell : Cell} :
    Answers e m visits cell t → Accounts e visits t
  | .pure => accounts_nil e
  | .finalizeCell _ hanswers => (accounts_visiting _ _).trans hanswers.accounts
  | .loadCell hwalks hanswers => by
    obtain ⟨hwalk, hknown⟩ := hwalks.accounts
    exact (hwalk.remembering hknown _).trans hanswers.accounts

end

/-! ### Loads are walks -/

theorem exec_finalizeCell_eq_ok {builder : BuilderData} {cell : Cell} {e t : Engine}
    (h : exec (finalizeCell builder) e = (.ok cell, t)) :
    TonTypes.finalize builder 1024 = .ok cell ∧ t = e.visiting .finalize := by
  unfold finalizeCell useGas at h
  rw [exec_bind_modify] at h
  split at h
  · cases h
    exact ⟨‹_›, rfl⟩
  · cases h

theorem answers_of_exec {load : Cell → M SliceData}
    (hload : ∀ cell e slice t, exec (load cell) e = (.ok slice, t) →
      ∃ hops final s, Walks e cell hops final slice s ∧ t = s.remembering hops slice)
    {m : GasM Cell} {e t : Engine} {cell : Cell} (h : exec (runGasWith load m) e = (.ok cell, t)) :
    ∃ visits, Answers e m visits cell t := by
  induction m generalizing e with
  | pure a =>
    cases h
    exact ⟨_, .pure⟩
  | fail failure => cases h
  | finalizeCell builder next ih =>
    obtain ⟨built, s, hfinalize, hnext⟩ := exec_bind_eq_ok h
    obtain ⟨hbuilt, rfl⟩ := exec_finalizeCell_eq_ok hfinalize
    obtain ⟨visits, hanswers⟩ := ih built hnext
    exact ⟨_, .finalizeCell hbuilt hanswers⟩
  | loadCell cell' next ih =>
    obtain ⟨slice, s, hslice, hnext⟩ := exec_bind_eq_ok h
    obtain ⟨hops, final, u, hwalks, rfl⟩ := hload _ _ _ _ hslice
    obtain ⟨visits, hanswers⟩ := ih slice hnext
    exact ⟨_, .loadCell hwalks hanswers⟩

theorem walks_of_exec {fuel : Nat} {cell : Cell} {previousHashes : List UInt256} {e t : Engine}
    {slice : SliceData}
    (h : exec (loadHashedCellLoop (throw .panic) fuel cell true previousHashes) e = (.ok slice, t)) :
    ∃ hops final s, Walks e cell hops final slice s ∧
      t = { s with visitedExoticCells :=
        ((hops.reverse.map (TonTypes.reprHash ·.cell)) ++ previousHashes).map (·, slice) ++
          s.visitedExoticCells } := by
  induction fuel generalizing cell previousHashes e slice t with
  | zero => cases h
  | succ fuel ih =>
    unfold loadHashedCellLoop at h
    dsimp only at h
    by_cases htype : TonTypes.cellType cell = .ordinary
    · rw [if_pos (by simp [htype]), exec_bind_get] at h
      have hstop : stop cell = .ordinary (TonTypes.reprHash cell) := if_pos htype
      -- both branches end in the visit, with the slice still to be read
      have hend (s : Engine) (hs : s = e.visiting (stop cell))
          (hgas : (stop cell).price e.visitedCells ≤ e.gas.gasRemaining)
          (hfinish : exec (do
            loadHashedCellLoop.finish (← lift (TonTypes.loadCell cell)) previousHashes) s =
              (.ok slice, t)) :
          ∃ hops final s, Walks e cell hops final slice s ∧
            t = { s with visitedExoticCells :=
              ((hops.reverse.map (TonTypes.reprHash ·.cell)) ++ previousHashes).map (·, slice) ++
                s.visitedExoticCells } := by
        obtain ⟨slice', u, hlift, hremember⟩ := exec_bind_eq_ok hfinish
        obtain ⟨hslice, rfl⟩ := exec_lift_eq_ok hlift
        cases hremember
        exact ⟨[], cell, _, .ordinary htype hgas hslice, by rw [hs]; rfl⟩
      split at h
      · rename_i hmem
        have hmem : TonTypes.reprHash cell ∈ e.visitedCells := List.contains_iff_mem.1 hmem
        obtain ⟨_, s, hpay, hfinish⟩ := exec_bind_eq_ok h
        obtain ⟨hgas, rfl⟩ := exec_tryUseGas_eq_ok hpay
        refine hend _ ?_ ?_ hfinish
        · simp [hstop, visiting, pay, Visit.price, Visit.note, hmem, Gas.loadCellPrice]
        · simpa [hstop, Visit.price, hmem, Gas.loadCellPrice] using hgas
      · rename_i hmem
        have hmem : TonTypes.reprHash cell ∉ e.visitedCells := fun h => hmem (List.contains_iff_mem.2 h)
        obtain ⟨_, s, hpay, hrest⟩ := exec_bind_eq_ok h
        obtain ⟨hgas, rfl⟩ := exec_tryUseGas_eq_ok hpay
        rw [exec_bind_modify] at hrest
        refine hend _ ?_ ?_ hrest
        · simp [hstop, visiting, pay, Visit.price, Visit.note, hmem, Gas.loadCellPrice]
        · simpa [hstop, Visit.price, hmem, Gas.loadCellPrice] using hgas
    · rw [if_neg (by simp [htype]), exec_bind_get] at h
      cases hlookup : e.visitedExoticCells.lookup (TonTypes.reprHash cell) with
      | some known =>
        rw [hlookup] at h
        obtain ⟨_, s, hpay, hfinish⟩ := exec_bind_eq_ok h
        obtain ⟨hgas, rfl⟩ := exec_tryUseGas_eq_ok hpay
        cases hfinish
        have hstop : stop cell = .cached (TonTypes.reprHash cell) := if_neg htype
        refine ⟨[], cell, e.visiting (stop cell), .cached htype ?_ hlookup, ?_⟩
        · rw [hstop]
          exact hgas
        · rw [hstop]
          rfl
      | none =>
        rw [hlookup] at h
        obtain ⟨child, s, hchild, hrest⟩ := exec_bind_eq_ok h
        obtain ⟨hops, final, u, hwalks, rfl⟩ := ih hrest
        rw [exec_resolveExotic] at hchild
        cases hresolution : resolution e cell with
        | none =>
          rw [hresolution] at hchild
          cases hchild
        | some m =>
          rw [hresolution] at hchild
          obtain ⟨_, v, hpay, hrun⟩ := exec_bind_eq_ok hchild
          obtain ⟨hgas, rfl⟩ := exec_tryUseGas_eq_ok hpay
          obtain ⟨lookup, hanswers⟩ := answers_of_exec (fun c e' slice' t' hc => by
            obtain ⟨hops', final', s', hwalks', rfl⟩ := ih hc
            exact ⟨hops', final', s', hwalks', by simp [remembering]⟩) hrun
          refine ⟨⟨cell, lookup⟩ :: hops, final, u,
            .hop htype hlookup hresolution hgas hanswers hwalks, ?_⟩
          simp

/-- A load: a walk, after which the slice is remembered. -/
def Loads (e : Engine) (cell : Cell) (hops : List Hop) (final : Cell) (slice : SliceData)
    (t : Engine) : Prop :=
  ∃ s, Walks e cell hops final slice s ∧ t = s.remembering hops slice

theorem loads_of_exec {cell : Cell} {e t : Engine} {slice : SliceData}
    (h : exec (loadCell cell) e = (.ok slice, t)) : ∃ hops final, Loads e cell hops final slice t := by
  unfold loadCell loadHashedCell at h
  rw [exec_bind_get] at h
  obtain ⟨hops, final, s, hwalks, rfl⟩ := walks_of_exec h
  exact ⟨hops, final, s, hwalks, by simp [remembering]⟩

theorem Loads.accounts {e t : Engine} {cell final : Cell} {hops : List Hop} {slice : SliceData}
    (h : Loads e cell hops final slice t) : Accounts e (trace hops final) t := by
  obtain ⟨s, hwalks, rfl⟩ := h
  exact hwalks.accounts.1.remembering hwalks.accounts.2 slice

/-- The load of an ordinary cell is one visit. -/
theorem Loads.of_ordinary {e t : Engine} {cell final : Cell} {hops : List Hop} {slice : SliceData}
    (h : Loads e cell hops final slice t) (htype : TonTypes.cellType cell = .ordinary) :
    hops = [] ∧ final = cell := by
  obtain ⟨s, hwalks, -⟩ := h
  cases hwalks with
  | ordinary => exact ⟨rfl, rfl⟩
  | cached hne => exact absurd htype hne
  | hop hne => exact absurd htype hne

/-! ### The price of a chain -/

theorem charges_trace (visited : List UInt256) (hops : List Hop) (final : Cell) :
    charges visited (trace hops final) =
      100 * hops.length + charges visited (hops.flatMap (·.lookup) ++ [stop final]) := by
  induction hops generalizing visited with
  | nil => simp [trace]
  | cons hop hops ih =>
    rw [trace_cons, List.append_assoc, charges_append, charges_append, ih, List.flatMap_cons,
      List.append_assoc, charges_append visited hop.lookup]
    have hhop : charges visited [.hop (TonTypes.reprHash hop.cell)] = 100 := rfl
    have hnoted : noted visited [.hop (TonTypes.reprHash hop.cell)] = visited := rfl
    rw [hhop, hnoted, List.length_cons]
    push_cast
    ring

theorem Answers.eq_nil_of_liftM {e t : Engine} {x : Except Failure Cell} {visits : List Visit}
    {child : Cell} (h : Answers e (liftM x) visits child t) : visits = [] := by
  cases x with
  | ok cell =>
    cases h
    rfl
  | error failure => cases h

/-- Only library cells are looked up. -/
theorem Walks.lookup_eq_nil {e t : Engine} {cell final : Cell} {hops : List Hop}
    {slice : SliceData} : Walks e cell hops final slice t →
    ∀ hop ∈ hops, TonTypes.cellType hop.cell ≠ .libraryReference → hop.lookup = []
  | .ordinary _ _ _ => List.forall_mem_nil _
  | .cached _ _ _ => List.forall_mem_nil _
  | .hop _ _ hresolution _ hanswers hwalks => by
    refine List.forall_mem_cons.2 ⟨fun hlibrary => ?_, hwalks.lookup_eq_nil⟩
    unfold resolution at hresolution
    cases htype : TonTypes.cellType cell with
    | libraryReference => exact absurd htype hlibrary
    | merkleProof =>
      rw [htype] at hresolution
      dsimp only at hresolution
      split at hresolution
      · cases hresolution
        exact hanswers.eq_nil_of_liftM
      · cases hresolution
    | merkleUpdate =>
      rw [htype] at hresolution
      dsimp only at hresolution
      split at hresolution
      · cases hresolution
        exact hanswers.eq_nil_of_liftM
      · cases hresolution
    | _ =>
      rw [htype] at hresolution
      cases hresolution

/-! ### Later loads -/

/-- The slice of a cell is known, so that the next load costs the lower price. -/
inductive Known (e : Engine) (cell : Cell) (slice : SliceData) : Prop where
  | ordinary (htype : TonTypes.cellType cell = .ordinary)
      (hvisited : TonTypes.reprHash cell ∈ e.visitedCells)
      (hload : TonTypes.loadCell cell = .ok slice)
  | exotic (htype : TonTypes.cellType cell ≠ .ordinary)
      (hlookup : e.visitedExoticCells.lookup (TonTypes.reprHash cell) = some slice)

theorem Known.mono {e t : Engine} {cell : Cell} {slice : SliceData} {visits : List Visit}
    (h : Known e cell slice) (haccounts : Accounts e visits t) : Known t cell slice := by
  cases h with
  | ordinary htype hvisited hload =>
    exact .ordinary htype (haccounts.visited ▸ mem_noted _ _ hvisited) hload
  | exotic htype hlookup => exact .exotic htype (haccounts.keeps _ _ hlookup)

theorem Known.remembering {e : Engine} {cell : Cell} {slice : SliceData} (h : Known e cell slice)
    (hops : List Hop) : Known (e.remembering hops slice) cell slice := by
  cases h with
  | ordinary htype hvisited hload => exact .ordinary htype hvisited hload
  | exotic htype hlookup =>
    refine .exotic htype ?_
    rw [lookup_remembering, hlookup, ite_self]

/-- A load of an ordinary cell, whether it has been visited or not. -/
theorem exec_loadHashedCell_ordinary {s : Engine} {cell : Cell} {slice : SliceData}
    (resolveSpecial : Bool) (htype : TonTypes.cellType cell = .ordinary)
    (hload : TonTypes.loadCell cell = .ok slice)
    (hgas : Gas.loadCellPrice true ≤ s.gas.gasRemaining) :
    ∃ t, exec (loadHashedCell cell resolveSpecial) s = (.ok slice, t) ∧ t.cc = s.cc ∧
      s.gas.gasRemaining ≤ t.gas.gasRemaining + Gas.loadCellPrice true := by
  unfold loadHashedCell
  rw [exec_bind_get]
  unfold loadHashedCellLoop
  dsimp only
  rw [if_pos (by simp [htype]), exec_bind_get]
  have hprice : Gas.loadCellPrice false ≤ Gas.loadCellPrice true := by decide
  by_cases hvisited : s.visitedCells.contains (TonTypes.reprHash cell) = true
  · rw [if_pos hvisited, exec_bind_ok (exec_tryUseGas (hprice.trans hgas)), hload]
    refine ⟨_, rfl, rfl, ?_⟩
    show s.gas.gasRemaining ≤ s.gas.gasRemaining - Gas.loadCellPrice false + _
    omega
  · rw [if_neg hvisited, exec_bind_ok (exec_tryUseGas hgas), exec_bind_modify, hload]
    refine ⟨_, rfl, rfl, ?_⟩
    show s.gas.gasRemaining ≤ s.gas.gasRemaining - Gas.loadCellPrice true + _
    omega

/-- A load of a cell whose slice is known. -/
theorem Known.exec_loadCell {e : Engine} {cell : Cell} {slice : SliceData} (h : Known e cell slice)
    (hgas : 25 ≤ e.gas.gasRemaining) : exec (loadCell cell) e = (.ok slice, e.pay 25) := by
  have hpay : exec (tryUseGas (Gas.loadCellPrice false)) e = (.ok (), e.pay 25) :=
    exec_tryUseGas hgas
  unfold loadCell loadHashedCell
  rw [exec_bind_get]
  unfold loadHashedCellLoop
  dsimp only
  cases h with
  | ordinary htype hvisited hload =>
    rw [if_pos (by simp [htype]), exec_bind_get, if_pos (List.contains_iff_mem.2 hvisited),
      exec_bind_ok hpay, hload]
    rfl
  | exotic htype hlookup =>
    rw [if_neg (by simp [htype]), exec_bind_get, hlookup]
    dsimp only
    rw [exec_bind_ok hpay]
    rfl

theorem Walks.known {e t : Engine} {cell final : Cell} {hops : List Hop} {slice : SliceData} :
    Walks e cell hops final slice t → Known t final slice
  | .ordinary htype _ hload => by
    have hstop : stop cell = .ordinary (TonTypes.reprHash cell) := if_pos htype
    refine .ordinary htype ?_ hload
    rw [hstop]
    simp only [visiting, Visit.note]
    split
    · assumption
    · exact List.mem_cons_self
  | .cached htype _ hlookup => .exotic htype hlookup
  | .hop _ _ _ _ _ hwalks => hwalks.known

theorem Walks.exotic {e t : Engine} {cell final : Cell} {hops : List Hop} {slice : SliceData} :
    Walks e cell hops final slice t → ∀ hop ∈ hops, TonTypes.cellType hop.cell ≠ .ordinary
  | .ordinary _ _ _ => List.forall_mem_nil _
  | .cached _ _ _ => List.forall_mem_nil _
  | .hop htype _ _ _ _ hwalks => List.forall_mem_cons.2 ⟨htype, hwalks.exotic⟩

/-- After a load the slice is known for every cell on the way. -/
theorem Loads.known {e t : Engine} {cell final : Cell} {hops : List Hop} {slice : SliceData}
    (h : Loads e cell hops final slice t) :
    Known t final slice ∧ ∀ hop ∈ hops, Known t hop.cell slice := by
  obtain ⟨s, hwalks, rfl⟩ := h
  refine ⟨hwalks.known.remembering hops, fun hop hhop => .exotic (hwalks.exotic hop hhop) ?_⟩
  rw [lookup_remembering, if_pos (List.mem_map_of_mem hhop)]

/-! ### Sequences of loads -/

/-- A sequence of successful loads, with the visits they make. -/
inductive Session (e : Engine) : List Visit → Engine → Prop where
  | start : Session e [] e
  | load {s t : Engine} {cell final : Cell} {hops : List Hop} {slice : SliceData}
      {visits : List Visit} (h : Session e visits s)
      (hload : exec (loadCell cell) s = (.ok slice, t)) (hloads : Loads s cell hops final slice t) :
      Session e (visits ++ trace hops final) t

theorem Session.accounts {e t : Engine} {visits : List Visit} (h : Session e visits t) :
    Accounts e visits t := by
  induction h with
  | start => exact accounts_nil e
  | load _ _ hloads ih => exact ih.trans hloads.accounts

/-! ### The loop ends -/

/-- From a state with less gas than a bound two programs do the same, and gain no gas. -/
def Agree (bound : Int) (m m' : M α) : Prop :=
  ∀ e, e.gas.gasRemaining < bound →
    exec m e = exec m' e ∧ (exec m e).2.gas.gasRemaining ≤ e.gas.gasRemaining

namespace Agree

variable {bound : Int} {m m' : M α} {f f' : α → M β}

theorem of_le (h : ∀ e, (exec m e).2.gas.gasRemaining ≤ e.gas.gasRemaining) : Agree bound m m :=
  fun e _ => ⟨rfl, h e⟩

protected theorem bind (hm : Agree bound m m') (hf : ∀ a, Agree bound (f a) (f' a)) :
    Agree bound (m >>= f) (m' >>= f') := by
  intro e he
  obtain ⟨heq, hle⟩ := hm e he
  rw [exec_bind, exec_bind, ← heq]
  rcases hexec : exec m e with ⟨_ | a, s⟩
  · rw [hexec] at hle
    exact ⟨rfl, hle⟩
  · rw [hexec] at hle
    obtain ⟨heq', hle'⟩ := hf a s (hle.trans_lt he)
    exact ⟨heq', hle'.trans hle⟩

protected theorem get {f f' : Engine → M β} (hf : ∀ e, Agree bound (f e) (f' e)) :
    Agree bound (get >>= f) (get >>= f') := by
  intro e he
  rw [exec_bind_get, exec_bind_get]
  exact hf e e he

theorem useGas {amount : Int} (h : 0 ≤ amount) : Agree bound (useGas amount) (useGas amount) := by
  refine of_le fun e => ?_
  show e.gas.gasRemaining - amount ≤ e.gas.gasRemaining
  omega

theorem checkGasRemaining :
    Agree bound Engine.checkGasRemaining Engine.checkGasRemaining := by
  refine of_le fun e => ?_
  unfold Engine.checkGasRemaining
  rw [exec_bind_get]
  split <;> exact le_rfl

theorem tryUseGas {amount : Int} (h : 0 ≤ amount) :
    Agree bound (tryUseGas amount) (tryUseGas amount) :=
  (useGas h).bind fun _ => checkGasRemaining

theorem lift (x : Except Failure α) : Agree bound (lift x) (lift x) := by
  refine of_le fun e => ?_
  cases x <;> exact le_rfl

/-- What comes after a payment of 100 starts with less than what is left of the bound, and with some
gas. -/
theorem pay (h : 0 < bound - 100 → Agree (bound - 100) m m') :
    Agree bound (do Engine.tryUseGas (Gas.loadCellPrice true); m)
      (do Engine.tryUseGas (Gas.loadCellPrice true); m') := by
  intro e he
  have hprice : (0 : Int) ≤ Gas.loadCellPrice true := by decide
  have hle := (tryUseGas hprice e he).2
  rw [exec_bind, exec_bind]
  rcases hpay : exec (Engine.tryUseGas (Gas.loadCellPrice true)) e with ⟨_ | _, s⟩
  · rw [hpay] at hle
    exact ⟨rfl, hle⟩
  · rw [hpay] at hle
    obtain ⟨hgas, rfl⟩ := exec_tryUseGas_eq_ok hpay
    have hrest : (e.pay (Gas.loadCellPrice true)).gas.gasRemaining < bound - 100 := by
      show e.gas.gasRemaining - 100 < bound - 100
      omega
    have hpos : 0 < bound - 100 := by
      have : (100 : Int) ≤ e.gas.gasRemaining := hgas
      omega
    obtain ⟨heq, hle'⟩ := h hpos _ hrest
    exact ⟨heq, hle'.trans hle⟩

theorem runGasWith {load load' : Cell → M SliceData} (h : ∀ c, Agree bound (load c) (load' c))
    (m : GasM α) : Agree bound (runGasWith load m) (runGasWith load' m) := by
  induction m with
  | pure a => exact of_le fun e => le_rfl
  | fail failure => exact of_le fun e => le_rfl
  | finalizeCell builder next ih =>
    refine .bind (.bind (useGas (by decide)) fun _ => of_le fun e => ?_) ih
    split <;> exact le_rfl
  | loadCell cell next ih => exact .bind (h cell) ih

/-- A hop, and what follows it, when the programs agree on what is left of the bound. -/
theorem resolveExotic {load load' : Cell → M SliceData} {f f' : Cell → M β}
    (hload : 0 < bound - 100 → ∀ c, Agree (bound - 100) (load c) (load' c))
    (hf : 0 < bound - 100 → ∀ c, Agree (bound - 100) (f c) (f' c)) (cell : Cell) :
    Agree bound (resolveExotic load cell >>= f) (resolveExotic load' cell >>= f') := by
  intro e he
  cases hresolution : resolution e cell with
  | none =>
    have hexec (load : Cell → M SliceData) (f : Cell → M β) :
        exec (Engine.resolveExotic load cell >>= f) e =
          (.error (.exception (.fromCode .cellUnderflow)), e) := by
      rw [exec_bind, exec_resolveExotic, hresolution]
      rfl
    rw [hexec, hexec]
    exact ⟨rfl, le_rfl⟩
  | some m =>
    have hexec (load : Cell → M SliceData) (f : Cell → M β) :
        exec (Engine.resolveExotic load cell >>= f) e = exec (do
          Engine.tryUseGas (Gas.loadCellPrice true)
          let child ← Engine.runGasWith load m
          f child) e := by
      rw [exec_bind, exec_resolveExotic, hresolution, ← exec_bind, bind_assoc]
    rw [hexec, hexec]
    exact pay (fun hpos => .bind (runGasWith (hload hpos) m) (hf hpos)) e he

end Agree

/-- One pass: what it calls starts after a payment. -/
theorem Agree.pass {bound : Int} {stuck stuck' : M SliceData} {fuel fuel' : Nat}
    (h : 0 < bound - 100 → ∀ cell resolveSpecial previousHashes,
      Agree (bound - 100) (loadHashedCellLoop stuck fuel cell resolveSpecial previousHashes)
        (loadHashedCellLoop stuck' fuel' cell resolveSpecial previousHashes))
    (cell : Cell) (resolveSpecial : Bool) (previousHashes : List UInt256) :
    Agree bound (loadHashedCellLoop stuck (fuel + 1) cell resolveSpecial previousHashes)
      (loadHashedCellLoop stuck' (fuel' + 1) cell resolveSpecial previousHashes) := by
  have hfinish (slice : SliceData) (hashes : List UInt256) :
      Agree bound (loadHashedCellLoop.finish slice hashes)
        (loadHashedCellLoop.finish slice hashes) := .of_le fun _ => le_rfl
  have hload : Agree bound
      (do loadHashedCellLoop.finish (← Engine.lift (TonTypes.loadCell cell)) previousHashes)
      (do loadHashedCellLoop.finish (← Engine.lift (TonTypes.loadCell cell)) previousHashes) :=
    .bind (.lift _) fun _ => hfinish _ _
  have hpay (first : Bool) : Agree bound (Engine.tryUseGas (Gas.loadCellPrice first))
      (Engine.tryUseGas (Gas.loadCellPrice first)) := .tryUseGas (by cases first <;> decide)
  unfold loadHashedCellLoop
  dsimp only
  by_cases hordinary : (!resolveSpecial || decide (TonTypes.cellType cell = .ordinary)) = true
  · rw [if_pos hordinary, if_pos hordinary]
    refine .get fun e => ?_
    split
    · exact .bind (hpay false) fun _ => hload
    · exact .bind (hpay true) fun _ => .bind (.of_le fun _ => le_rfl) fun _ => hload
  · rw [if_neg hordinary, if_neg hordinary]
    refine .get fun e => ?_
    split
    · exact .bind (hpay false) fun _ => hfinish _ _
    · exact .resolveExotic (fun hpos c => h hpos c true []) (fun hpos c => h hpos c _ _) cell

/-- With more passes than the gas can pay for, neither the number of passes nor what happens after
them makes a difference. -/
theorem agree_loadHashedCellLoop (stuck stuck' : M SliceData) {fuel fuel' : Nat} (hle : fuel ≤ fuel')
    (cell : Cell) (resolveSpecial : Bool) (previousHashes : List UInt256) :
    Agree (100 * (fuel + 1)) (loadHashedCellLoop stuck (fuel + 1) cell resolveSpecial previousHashes)
      (loadHashedCellLoop stuck' (fuel' + 1) cell resolveSpecial previousHashes) := by
  induction fuel generalizing fuel' cell resolveSpecial previousHashes with
  | zero => exact .pass (fun hpos => absurd hpos (by decide)) cell resolveSpecial previousHashes
  | succ fuel ih =>
    obtain ⟨k, rfl⟩ : ∃ k, fuel' = k + 1 := ⟨fuel' - 1, by omega⟩
    refine .pass (fun _ cell resolveSpecial previousHashes => ?_) cell resolveSpecial previousHashes
    have hbound : (100 * ((fuel + 1 : Nat) + 1) - 100 : Int) = 100 * (fuel + 1) := by
      push_cast
      ring
    rw [hbound]
    exact ih (by omega) cell resolveSpecial previousHashes

/-- The loop ends: the passes that `loadHashedCell` allows are never used up. -/
theorem exec_loadHashedCellLoop (stuck : M SliceData) {fuel : Nat} {e : Engine}
    (h : e.gas.gasRemaining.toNat / 100 + 2 ≤ fuel) (cell : Cell) (resolveSpecial : Bool) :
    exec (loadHashedCellLoop stuck fuel cell resolveSpecial []) e =
      exec (loadHashedCell cell resolveSpecial) e := by
  obtain ⟨k, rfl⟩ : ∃ k, fuel = k + 1 := ⟨fuel - 1, by omega⟩
  have hagree := agree_loadHashedCellLoop (throw .panic) stuck
    (show e.gas.gasRemaining.toNat / 100 + 1 ≤ k by omega) cell resolveSpecial []
  unfold loadHashedCell
  rw [exec_bind_get]
  exact (hagree e (by push_cast; omega)).1.symm

/-- Every successful load is a chain of hops, and no hop for an ordinary cell. A sequence of loads
costs what its visits cost. A chain costs 100 for each hop, what the lookups in the library
dictionaries visit, and the cell it stops at. Afterwards each cell of the chain costs 25. The loop
ends before its passes are used up. -/
theorem cell_load_pricing (e : Engine) :
    (∀ (s t : Engine) (cell : Cell) (slice : SliceData), exec (loadCell cell) s = (.ok slice, t) →
      ∃ hops final, Loads s cell hops final slice t ∧
        (TonTypes.cellType cell = .ordinary → hops = [] ∧ final = cell)) ∧
    (∀ (visits : List Visit) (t : Engine), Session e visits t →
      t.gas = e.gas.useGas (charges e.visitedCells visits)) ∧
    (∀ (t : Engine) (cell final : Cell) (hops : List Hop) (slice : SliceData),
      Loads e cell hops final slice t →
      t.gas = e.gas.useGas (100 * hops.length +
        charges e.visitedCells (hops.flatMap (·.lookup) ++ [stop final])) ∧
      (∀ hop ∈ hops, TonTypes.cellType hop.cell ≠ .libraryReference → hop.lookup = []) ∧
      ∀ (visits : List Visit) (u : Engine), Session t visits u → 25 ≤ u.gas.gasRemaining →
        ∀ known ∈ final :: hops.map (·.cell), exec (loadCell known) u = (.ok slice, u.pay 25)) ∧
    ∀ (stuck : M SliceData) (fuel : Nat) (cell : Cell),
      e.gas.gasRemaining.toNat / 100 + 2 ≤ fuel →
      exec (loadHashedCellLoop stuck fuel cell true []) e = exec (loadCell cell) e := by
  refine ⟨fun s t cell slice h => ?_, fun visits t h => h.accounts.gas,
    fun t cell final hops slice h => ⟨?_, ?_, fun visits u hsession hgas known hknown => ?_⟩,
    fun stuck fuel cell h => exec_loadHashedCellLoop stuck h cell true⟩
  · obtain ⟨hops, final, hloads⟩ := loads_of_exec h
    exact ⟨hops, final, hloads, hloads.of_ordinary⟩
  · rw [← charges_trace]
    exact h.accounts.gas
  · obtain ⟨s, hwalks, -⟩ := h
    exact hwalks.lookup_eq_nil
  · refine Known.exec_loadCell ?_ hgas
    rcases List.mem_cons.1 hknown with rfl | hmem
    · exact h.known.1.mono hsession.accounts
    · obtain ⟨hop, hhop, rfl⟩ := List.mem_map.1 hmem
      exact (h.known.2 hop hhop).mono hsession.accounts

end Engine

/-! ### A library on plain cells -/

namespace Engine

open scoped Plain

/-- The cell a library holds. -/
def published : Plain.Tree := .mk .ordinary [true] []

def publishedKey : List Bool := Plain.bitsOf 256 published.hash

/-- An engine with one library, that holds one cell. -/
def withLibrary : Engine :=
  { withCapabilities [.capSetLibCode] with
    gas := .test
    libraries := [⟨256, ((Plain.Entries.chain [(publishedKey, { refs := [published] })]).toOption).join⟩] }

/-- The library cell of `published`. -/
def libraryCell : Plain.Tree :=
  .mk .libraryReference (Plain.bitsOf 8 2 ++ publishedKey) []

def isPublished : Except Error Plain.Tree → Bool
  | .ok (.mk .ordinary [true] []) => true
  | _ => false

/-- The library cell leads to an ordinary cell in one hop, and neither was loaded before. The load
costs 300 and not 200, since the root of the dictionary is loaded too. -/
theorem library_lookup_is_charged :
    isPublished (exec (resolveExotic loadCell libraryCell) withLibrary).1 = true ∧
      withLibrary.visitedCells = [] ∧ withLibrary.visitedExoticCells.isEmpty = true ∧
      (exec (loadCell libraryCell) withLibrary).1.isOk = true ∧
      (exec (loadCell libraryCell) withLibrary).2.gas = withLibrary.gas.useGas 300 ∧
      withLibrary.gas.useGas 300 ≠ withLibrary.gas.useGas (100 * 1 + 100) := by
  decide +kernel

end Engine

end TonVm
