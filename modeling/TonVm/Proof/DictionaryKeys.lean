import TonVm.Proof.Calm
import TonVm.Proof.Instruction
import TonVm.Proof.IntegerCodec

/-!
# Integer keys of dictionaries

The instructions that search a dictionary by the order of its keys find an entry and push it, with the
key as an integer, which has to fit into 257 bits. The search does not panic, so the push decides.
-/

namespace TonVm

open ExecLib

namespace Engine

open DictMask

section Keys

variable [TonTypes]

/-! ### The part of an instruction that finds the entry -/

/-- `dictiter` up to the entry that is found, with its arguments. -/
def iterSearch (how : UInt8) (key dict nbits : StackItem) : M (Option (BuilderData × StackItem)) := do
  let x ← lift nbits.asInteger
  let nbits ← lift (x.intoUsize 0 1023)
  let root ← lift dict.asDict
  match ← lift (readKey key nbits how) with
  | (some key, _) => iterReader ⟨nbits, root⟩ key how
  | (none, neg) => if !neg ^^ UInt8.bit how MIN then finder ⟨nbits, root⟩ how else pure none

/-- What `find` does with the entry that it finds. -/
def findTaken (how : UInt8) (dict : HashmapE) :
    Option (BuilderData × StackItem) → M (Option (BuilderData × StackItem))
  | some (key, value) => do
    if UInt8.bit how DEL then
      let slice ← lift (TonTypes.loadBuilder key)
      let (_, dict) ← runGas (TonTypes.removeWithGas dict slice)
      push (dictItem dict)
    return some (key, value)
  | none => do
    if UInt8.bit how DEL then
      push (dictItem dict)
    return none

/-- `find` up to the entry that is found, with its arguments. -/
def findSearch (how : UInt8) (dict nbits : StackItem) : M (Option (BuilderData × StackItem)) := do
  let x ← lift nbits.asInteger
  let nbits ← lift (x.intoUsize 0 1023)
  let root ← lift dict.asDict
  findTaken how ⟨nbits, root⟩ (← finder ⟨nbits, root⟩ how)

/-- With too few values on the stack an instruction stops there. -/
theorem exec_load_fetchStack_short {α : Type} {e : Engine} {n : Nat} (h : e.cc.stack.length < n)
    (k : M α) : exec (do
      loadInstruction
      fetchStack n
      k) e = (.error (.exception (.fromCode .stackUnderflow)), e.afterLoad) := by
  rw [exec_bind_ok (exec_load _)]
  refine exec_bind_error ?_
  unfold fetchStack
  rw [exec_bind_get, if_pos (show e.afterLoad.cc.stack.length < n from h)]
  rfl

/-- The values on top of the stack are the arguments. -/
theorem exists_given {e : Engine} {n : Nat} (h : n ≤ e.cc.stack.length) :
    ∃ (e' : Engine) (items : Stack), items.length = n ∧ e = e'.given items := by
  refine ⟨{ e with cc.stack := e.cc.stack.take (e.cc.stack.length - n) },
    e.cc.stack.drop (e.cc.stack.length - n), ?_, ?_⟩
  · rw [List.length_drop]
    omega
  · unfold given
    rw [List.take_append_drop]

theorem exec_dictiter (how : UInt8) (e : Engine) (key dict nbits : StackItem) :
    exec (dictiter how) (e.given [key, dict, nbits]) =
      exec (iterSearch how key dict nbits >>= pushEntry how)
        (e.afterLoad.holding e.cc e.ctrls [nbits, dict, key]) := by
  unfold dictiter
  refine (exec_load_fetchStack e [key, dict, nbits] _).trans ?_
  unfold dictVar indexVar iterSearch
  simp only [bind_assoc, pure_bind]
  rw [exec_bind_ok (exec_var _ rfl)]
  refine exec_lift_bind_congr fun x => exec_lift_bind_congr fun n => ?_
  rw [exec_bind_ok (exec_var _ rfl)]
  refine exec_lift_bind_congr fun root => ?_
  rw [exec_bind_ok (exec_var _ rfl)]
  refine exec_lift_bind_congr fun found => ?_
  obtain ⟨_ | _, _⟩ := found
  · dsimp only
    split_ifs <;> rfl
  · rfl

theorem exec_find (how : UInt8) (e : Engine) (dict nbits : StackItem) :
    exec (find how) (e.given [dict, nbits]) =
      exec (findSearch how dict nbits >>= pushEntry how)
        (e.afterLoad.holding e.cc e.ctrls [nbits, dict]) := by
  unfold find
  refine (exec_load_fetchStack e [dict, nbits] _).trans ?_
  unfold dictVar indexVar findSearch
  simp only [bind_assoc, pure_bind]
  rw [exec_bind_ok (exec_var _ rfl)]
  refine exec_lift_bind_congr fun x => exec_lift_bind_congr fun n => ?_
  rw [exec_bind_ok (exec_var _ rfl)]
  refine exec_lift_bind_congr fun root => ?_
  refine congrArg (exec · _) (bind_congr fun found => ?_)
  unfold findTaken
  cases found with
  | none =>
    dsimp only
    split_ifs
    · rw [bind_assoc]
      rfl
    · rfl
  | some entry =>
    obtain ⟨key, value⟩ := entry
    dsimp only
    split_ifs
    · simp only [bind_assoc, pure_bind]
    · rfl

/-! ### The key that is found -/

/-- The integer that a found key is pushed as. -/
def keyInteger (how : UInt8) (key : BuilderData) : Int :=
  (if UInt8.bit how SIGN then Encoding.signedBigEndian else .unsignedBigEndian).decode
    (TonTypes.bitsUsed key) (TonTypes.builderBytes key)

theorem writeKey_eq {how : UInt8} (h : UInt8.bit how SLC = false) (key : BuilderData) :
    writeKey key how = do
      let x ← lift ((if UInt8.bit how SIGN then Encoding.signedBigEndian else .unsignedBigEndian).deserialize
        (TonTypes.bitsUsed key) (TonTypes.builderBytes key))
      return .integer x := by
  unfold writeKey
  rw [if_neg (by rw [h]; decide)]

theorem exec_pushEntry_of_inRange {how : UInt8} (h : UInt8.bit how SLC = false) {key : BuilderData}
    (hkey : InRange (keyInteger how key)) (value : StackItem) (s : Engine) :
    exec (pushEntry how (some (key, value))) s = (.ok (), { s with cc.stack :=
      s.cc.stack ++ [value] ++ [.int (keyInteger how key)] ++ [.boolean true] }) := by
  have hdecode := Encoding.deserialize_of_inRange hkey
  unfold pushEntry
  dsimp only
  rw [writeKey_eq h, hdecode]
  rfl

theorem exec_pushEntry_of_not_inRange {how : UInt8} (h : UInt8.bit how SLC = false)
    {key : BuilderData} (hkey : ¬InRange (keyInteger how key)) (value : StackItem) (s : Engine) :
    exec (pushEntry how (some (key, value))) s =
      (.error .panic, { s with cc.stack := s.cc.stack ++ [value] }) := by
  obtain ⟨failure, hfail⟩ := IntegerData.ofInt_of_not_inRange hkey
  have hdecode : (if UInt8.bit how SIGN then Encoding.signedBigEndian else .unsignedBigEndian).deserialize
      (TonTypes.bitsUsed key) (TonTypes.builderBytes key) = .error .panic := by
    have hbig : (if UInt8.bit how SIGN then Encoding.signedBigEndian else .unsignedBigEndian) ≠
        .unsignedLittleEndian := by
      split <;> decide
    unfold Encoding.deserialize
    unfold keyInteger at hfail
    rw [hfail]
    exact if_neg hbig
  unfold pushEntry
  dsimp only
  rw [writeKey_eq h, hdecode]
  rfl

/-- A search that does not panic, and the push of what it finds. -/
theorem pushEntry_panic_iff {how : UInt8} (h : UInt8.bit how SLC = false)
    {search : M (Option (BuilderData × StackItem))} (hsearch : Avoids Panics search) (e : Engine) :
    (∀ t, exec (search >>= pushEntry how) e ≠ (.error .panic, t)) ↔
      ∀ key value s, exec search e = (.ok (some (key, value)), s) → InRange (keyInteger how key) := by
  constructor
  · intro hcalm key value s hfound
    by_contra hkey
    exact hcalm _ ((exec_bind_ok hfound).trans (exec_pushEntry_of_not_inRange h hkey value s))
  · intro hkeys t hpanic
    rw [exec_bind] at hpanic
    rcases hfound : exec search e with ⟨r, s⟩
    rw [hfound] at hpanic
    cases r with
    | error err =>
      cases hpanic
      exact hsearch.out e _ _ hfound rfl
    | ok found =>
      cases found with
      | none => cases hpanic
      | some entry =>
        have hexec := exec_pushEntry_of_inRange h (hkeys entry.1 entry.2 s hfound) entry.2 s
        have : exec (pushEntry how (some entry)) s = (.error .panic, t) := hpanic
        rw [hexec] at this
        cases this

/-! ### The search does not panic -/

instance (item : StackItem) : Calm item.asInteger := ⟨by cases item <;> exact nofun⟩

instance (item : StackItem) : Calm item.asDict := ⟨by cases item <;> exact nofun⟩

instance (x : IntegerData) (lo hi : Nat) : Calm (x.intoUsize lo hi) := by
  refine ⟨?_⟩
  unfold IntegerData.intoUsize IntegerData.into
  cases x with
  | nan => exact nofun
  | value v =>
    dsimp only
    split_ifs <;> exact nofun

instance (item : StackItem) : Calm item.asSlice := ⟨by cases item <;> exact nofun⟩

instance (key : StackItem) (nbits : Nat) (how : UInt8) : Calm (readKey key nbits how) := by
  have (x : IntegerData) (encoding : Encoding) (neg neg' : Bool) :
      Calm (match intAsSlice x encoding nbits with
        | .ok slice => return (some slice, neg)
        | .error _ => return (none, neg') : Except Failure (Option SliceData × Bool)) := by
    split <;> infer_instance
  unfold readKey keyreaderFromSlice
  infer_instance

section Calm

variable [CalmTypes]

instance (slice : SliceData) : Calm (tryUnrefLeaf slice) := by
  unfold tryUnrefLeaf
  infer_instance

instance (dict : HashmapE) (key : SliceData) (how : UInt8) :
    Avoids Panics (iterReader dict key how) := by
  have := avoids_runGas (CalmTypes.findLeaf dict key (UInt8.bit how NEXT) (UInt8.bit how SAME)
    (UInt8.bit how SIGN))
  unfold iterReader
  infer_instance

instance (dict : HashmapE) (how : UInt8) : Avoids Panics (finder dict how) := by
  have hmin := avoids_runGas (CalmTypes.getMin dict (UInt8.bit how SIGN))
  have hmax := avoids_runGas (CalmTypes.getMax dict (UInt8.bit how SIGN))
  have (found : Option (BuilderData × SliceData)) : Avoids Panics (match found with
      | none => return none
      | some (key, value) =>
        if UInt8.bit how REF then
          return some (key, ← lift (tryUnrefLeaf value))
        else
          return some (key, .slice value) : M (Option (BuilderData × StackItem))) := by
    split <;> infer_instance
  unfold finder
  infer_instance

instance (how : UInt8) (key dict nbits : StackItem) : Avoids Panics (iterSearch how key dict nbits) := by
  have (dict : HashmapE) (found : Option SliceData × Bool) : Avoids Panics (match found with
      | (some key, _) => iterReader dict key how
      | (none, neg) => if !neg ^^ UInt8.bit how MIN then finder dict how else pure none :
        M (Option (BuilderData × StackItem))) := by
    split <;> infer_instance
  unfold iterSearch
  infer_instance

instance (how : UInt8) (dict : HashmapE) (found : Option (BuilderData × StackItem)) :
    Avoids Panics (findTaken how dict found) := by
  have hremove (dict : HashmapE) (key : SliceData) :=
    avoids_runGas (CalmTypes.removeWithGas dict key)
  unfold findTaken
  split <;> infer_instance

instance (how : UInt8) (dict nbits : StackItem) : Avoids Panics (findSearch how dict nbits) := by
  unfold findSearch
  infer_instance

end Calm

end Keys

end Engine

end TonVm
