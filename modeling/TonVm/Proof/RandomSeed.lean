import TonVm.Lib.Concludes
import TonVm.Proof.DictionaryOrder

/-!
# The random seed

The seed is the item with number 6 of the tuple that c7 starts with. `RANDU256`, `RAND` and `ADDRAND`
read it as an unsigned 256-bit integer before they write a hash in its place. `SETRAND` reads nothing:
it takes the tuple out of c7 before it looks for the place of the seed, and writes any integer.
-/

namespace TonVm

open ExecLib

namespace Engine

inductive RandInstruction where
  | randu256
  | rand
  | setrand
  | addrand
  deriving DecidableEq

section RandomSeed

variable [TonTypes]

def RandInstruction.handler : RandInstruction → M Unit
  | randu256 => executeRandu256
  | rand => executeRand
  | setrand => executeSetrand
  | addrand => executeAddrand

/-- The value has a place for the seed, with these items around it. -/
def SeedPlace (c7 : Option StackItem) (items rest : List StackItem) : Prop :=
  c7 = some (.tuple (.tuple items :: rest)) ∧ 6 < items.length

/-- The value with a seed. -/
def seeded (items rest : List StackItem) (seed : IntegerData) : Option StackItem :=
  some (.tuple (.tuple (items.set 6 (.integer seed)) :: rest))

/-- The seed is there, as `rand` finds it. -/
def HoldsSeed (c7 : Option StackItem) (seed : IntegerData) : Prop :=
  ∃ items rest, SeedPlace c7 items rest ∧ items[6]? = some (.integer seed)

/-! ### Reading and writing the seed -/

variable {s : Engine} {c7 : Option StackItem} {seed : IntegerData} {items rest : List StackItem}

theorem HoldsSeed.unique {seed' : IntegerData} (h : HoldsSeed c7 seed) (h' : HoldsSeed c7 seed') :
    seed = seed' := by
  obtain ⟨items, rest, ⟨rfl, -⟩, hseed⟩ := h
  obtain ⟨items', rest', ⟨heq, -⟩, hseed'⟩ := h'
  cases heq
  rw [hseed] at hseed'
  cases hseed'
  rfl

theorem exec_globals_error (h : ∀ tuple, s.ctrls.c7 ≠ some (.tuple tuple)) :
    ∃ err, exec globals s = (.error err, s) := by
  unfold globals ctrl
  rw [exec_bind, exec_bind_get]
  have hget : s.ctrls.get 7 = s.ctrls.c7 := rfl
  rw [hget]
  cases hc7 : s.ctrls.c7 with
  | none => exact ⟨_, rfl⟩
  | some item =>
    cases item with
    | tuple tuple => exact absurd hc7 (h tuple)
    | _ => exact ⟨_, rfl⟩

theorem exec_rand (h : HoldsSeed s.ctrls.c7 seed) : exec rand s = (.ok seed, s) := by
  obtain ⟨items, rest, ⟨hc7, -⟩, hseed⟩ := h
  unfold rand smciParam
  rw [exec_bind, exec_bind_ok (exec_globals hc7)]
  simp only [List.head?_cons, StackItem.asTuple, lift_ok, pure_bind, hseed]
  rfl

theorem exec_rand_error (h : ∀ seed, ¬HoldsSeed s.ctrls.c7 seed) :
    ∃ err, exec rand s = (.error err, s) := by
  unfold rand smciParam
  by_cases htuple : ∃ tuple, s.ctrls.c7 = some (.tuple tuple)
  · obtain ⟨tuple, hc7⟩ := htuple
    rw [exec_bind, exec_bind_ok (exec_globals hc7)]
    cases tuple with
    | nil => exact ⟨_, rfl⟩
    | cons first rest =>
      simp only [List.head?_cons]
      cases first with
      | tuple items =>
        simp only [StackItem.asTuple, lift_ok, pure_bind]
        cases hitem : items[6]? with
        | none => exact ⟨_, rfl⟩
        | some item =>
          cases item with
          | integer seed =>
            have hlen := (List.getElem?_eq_some_iff.1 hitem).1
            exact absurd ⟨items, rest, ⟨hc7, hlen⟩, hitem⟩ (h seed)
          | _ => exact ⟨_, rfl⟩
      | _ => exact ⟨_, rfl⟩
  · obtain ⟨err, herr⟩ := exec_globals_error fun tuple hc7 => htuple ⟨tuple, hc7⟩
    rw [exec_bind, exec_bind_error herr]
    exact ⟨err, rfl⟩

theorem exec_setRand (h : SeedPlace s.ctrls.c7 items rest) (seed : IntegerData) :
    ∃ t, exec (setRand seed) s = (.ok (), t) ∧ t.cc = s.cc ∧
      t.ctrls.c7 = seeded items rest seed := by
  obtain ⟨hc7, hlen⟩ := h
  unfold setRand
  rw [exec_bind_ok (exec_globals hc7)]
  unfold setCtrl
  rw [exec_bind_modify]
  simp only [StackItem.asTuple, lift_ok, pure_bind, if_neg (Nat.not_le.2 hlen)]
  exact ⟨_, rfl, rfl, rfl⟩

/-- Without a place for the seed a tuple in c7 is gone. -/
theorem exec_setRand_error {tuple : List StackItem} (hc7 : s.ctrls.c7 = some (.tuple tuple))
    (h : ¬∃ items rest, SeedPlace s.ctrls.c7 items rest) (seed : IntegerData) :
    ∃ err t, exec (setRand seed) s = (.error err, t) ∧ t.ctrls.c7 = some (.tuple []) := by
  unfold setRand
  rw [exec_bind_ok (exec_globals hc7)]
  unfold setCtrl
  rw [exec_bind_modify]
  cases tuple with
  | nil => exact ⟨_, _, rfl, rfl⟩
  | cons first rest =>
    cases first with
    | tuple items =>
      have hlen : items.length ≤ 6 := by
        by_contra hlong
        exact h ⟨items, rest, hc7, Nat.lt_of_not_le hlong⟩
      simp only [StackItem.asTuple, lift_ok, pure_bind, if_pos hlen]
      exact ⟨_, _, rfl, rfl⟩
    | _ => exact ⟨_, _, rfl, rfl⟩

theorem exec_setRand_no_tuple (h : ∀ tuple, s.ctrls.c7 ≠ some (.tuple tuple)) (seed : IntegerData) :
    ∃ err, exec (setRand seed) s = (.error err, s) := by
  obtain ⟨err, herr⟩ := exec_globals_error h
  unfold setRand
  exact ⟨err, exec_bind_error herr⟩

/-! ### The instructions -/

omit [TonTypes] in
/-- A hash is read back as the number it stands for. -/
theorem deserialize_hashBytes (hash : UInt256) :
    Encoding.deserialize .unsignedBigEndian 256 (hashBytes hash) = .ok (.value hash.toNat) := by
  have hdecode : Encoding.decode .unsignedBigEndian 256 (hashBytes hash) = hash.toNat := by
    have hshift : excessShift 256 = 0 := rfl
    have hbytes : fromBytesBe (hashBytes hash) = hash.toNat := by
      rw [hashBytes, fromBytesBe, List.reverse_reverse, fromBytesLe_bytesLe]
      exact Nat.mod_eq_of_lt hash.isLt
    simp only [Encoding.decode, hshift, hbytes, Int.shiftRight_zero]
  have hrange : InRange hash.toNat := by
    have := hash.isLt
    exact inRange_of_bounds (by omega) (by omega)
  rw [Encoding.deserialize, hdecode, IntegerData.ofInt_of_inRange hrange]

/-- A run that fails has left c7 alone. -/
abbrev Spares (c7 : Option StackItem) {α : Type} (Q : α → Engine → Prop) (m : M α) (s : Engine) : Prop :=
  Concludes (fun _ t => t.ctrls.c7 = c7) Q m s

theorem spares_lift {α : Type} (x : Except Failure α) (hs : s.ctrls.c7 = c7) :
    Spares c7 (fun _ t => t = s) (lift x) s := by
  cases x with
  | ok a => exact Concludes.pure rfl
  | error failure => exact Concludes.throw hs

/-- An instruction that takes one operand. -/
theorem spares_operand {Q : Unit → Engine → Prop} {k : M Unit} {e : Engine}
    (h : ∀ stack a s, e.cc.stack = stack ++ [a] → s.cmd.vars = [a] → s.ctrls.c7 = e.ctrls.c7 →
      Spares e.ctrls.c7 Q k s) :
    Spares e.ctrls.c7 Q (do
      loadInstruction
      fetchStack 1
      k) e := by
  rcases List.eq_nil_or_concat e.cc.stack with hnil | ⟨stack, a, hstack⟩
  · refine Concludes.of_error (exec_load_fetchStack_short ?_ k) rfl
    rw [hnil]
    exact Nat.zero_lt_one
  · rw [List.concat_eq_append] at hstack
    exact Concludes.bind_ok (exec_load e) (Concludes.bind_ok
      ((loaded_afterLoad e).exec_fetchStack_one hstack) (h stack a _ hstack rfl rfl))

theorem spares_randBytes (hs : s.ctrls.c7 = c7) :
    Spares c7 (fun _ t => t = s ∧ ∃ items rest, SeedPlace c7 items rest) randBytes s := by
  unfold randBytes
  by_cases h : ∃ seed, HoldsSeed c7 seed
  · obtain ⟨seed, hseed⟩ := h
    have hplace : ∃ items rest, SeedPlace c7 items rest := by
      obtain ⟨items, rest, hplace, -⟩ := hseed
      exact ⟨items, rest, hplace⟩
    rw [← hs] at hseed
    refine Concludes.bind_ok (exec_rand hseed) ?_
    refine Concludes.bind (spares_lift _ hs) ?_
    rintro builder _ rfl
    exact Concludes.pure ⟨rfl, hplace⟩
  · obtain ⟨err, herr⟩ := exec_rand_error (s := s) fun seed hseed => h ⟨seed, hs ▸ hseed⟩
    exact Concludes.of_error (exec_bind_error herr) hs

/-- c7 has a hash for the seed, and is as it was everywhere else. -/
def Rehashed (c7 c7' : Option StackItem) : Prop :=
  ∃ items rest, ∃ hash : UInt256, SeedPlace c7 items rest ∧
    c7' = seeded items rest (.value hash.toNat)

/-- A hash is written where a seed was read. -/
theorem spares_setRand (hs : s.ctrls.c7 = c7) (hplace : SeedPlace c7 items rest) (hash : UInt256) :
    Spares c7 (fun _ t => Rehashed c7 t.ctrls.c7) (setRand (.value hash.toNat)) s := by
  obtain ⟨t, ht, -, hc7⟩ := exec_setRand (hs ▸ hplace) (.value hash.toNat)
  exact Concludes.of_ok ht ⟨items, rest, hash, hplace, hc7⟩

theorem spares_addrand (e : Engine) :
    Spares e.ctrls.c7 (fun _ t => Rehashed e.ctrls.c7 t.ctrls.c7) executeAddrand e := by
  unfold executeAddrand
  refine spares_operand fun stack a s _ hvars hs => ?_
  refine Concludes.bind (spares_randBytes hs) ?_
  rintro bytes _ ⟨rfl, items, rest, hplace⟩
  refine Concludes.bind_ok (exec_var _ (by rw [hvars]; rfl)) ?_
  refine Concludes.bind (spares_lift _ hs) ?_
  rintro x _ rfl
  refine Concludes.bind (spares_lift _ hs) ?_
  rintro added _ rfl
  dsimp only
  rw [deserialize_hashBytes, lift_ok, pure_bind]
  exact spares_setRand hs hplace _

theorem spares_executeRand (e : Engine) :
    Spares e.ctrls.c7 (fun _ t => Rehashed e.ctrls.c7 t.ctrls.c7) executeRand e := by
  unfold executeRand
  refine spares_operand fun stack a s _ hvars hs => ?_
  refine Concludes.bind (spares_randBytes hs) ?_
  rintro bytes _ ⟨rfl, items, rest, hplace⟩
  refine Concludes.bind_ok (exec_var _ (by rw [hvars]; rfl)) ?_
  refine Concludes.bind (spares_lift _ hs) ?_
  rintro x _ rfl
  refine Concludes.bind (spares_lift _ hs) ?_
  rintro value s rfl
  have hpush : exec (push (.integer value)) s = (.ok (), s.given [.integer value]) := rfl
  refine Concludes.bind_ok hpush ?_
  rw [deserialize_hashBytes, lift_ok, pure_bind]
  have hgiven : (s.given [.integer value]).ctrls.c7 = e.ctrls.c7 := hs
  exact spares_setRand hgiven hplace _

theorem spares_randu256 (e : Engine) :
    Spares e.ctrls.c7 (fun _ t => Rehashed e.ctrls.c7 t.ctrls.c7) executeRandu256 e := by
  unfold executeRandu256
  refine Concludes.bind_ok (exec_load e) ?_
  refine Concludes.bind (spares_randBytes rfl) ?_
  rintro bytes _ ⟨rfl, items, rest, hplace⟩
  obtain ⟨low, high⟩ := TonTypes.sha512 bytes
  dsimp only
  rw [deserialize_hashBytes, lift_ok, pure_bind]
  refine Concludes.bind (spares_setRand (s := e.afterLoad) rfl hplace _) ?_
  intro _ t ht
  rw [deserialize_hashBytes, lift_ok, pure_bind]
  exact Concludes.of_ok (t := t.given [_]) rfl ht

theorem spares_reading {i : RandInstruction} (hi : i ≠ .setrand) (e : Engine) :
    Spares e.ctrls.c7 (fun _ t => Rehashed e.ctrls.c7 t.ctrls.c7) i.handler e := by
  cases i with
  | randu256 => exact spares_randu256 e
  | rand => exact spares_executeRand e
  | addrand => exact spares_addrand e
  | setrand => exact absurd rfl hi

theorem exec_setrand {e : Engine} {stack : Stack} {a : StackItem}
    (hstack : e.cc.stack = stack ++ [a]) :
    ∃ s, s.ctrls = e.ctrls ∧ exec executeSetrand e = exec (do setRand (← lift a.asInteger)) s := by
  unfold executeSetrand
  refine ⟨e.afterLoad.holding { e.cc with stack } e.ctrls [a], rfl, ?_⟩
  rw [exec_bind_ok (exec_load e),
    exec_bind_ok ((loaded_afterLoad e).exec_fetchStack_one hstack), exec_bind_ok (exec_var _ rfl)]
  rfl

/-! ### What becomes of c7 -/

/-- An instruction changes nothing of c7 but the seed, and nothing at all when it fails. -/
def KeepsGlobals (m : M Unit) (e : Engine) : Prop :=
  Spares e.ctrls.c7 (fun _ t => ∃ items rest seed, SeedPlace e.ctrls.c7 items rest ∧
    t.ctrls.c7 = seeded items rest seed) m e

/-- There is an integer to set the seed to, and c7 has items but no place for it. -/
def LosesGlobals (e : Engine) : Prop :=
  (∃ stack seed, e.cc.stack = stack ++ [.integer seed]) ∧
    (∃ first rest, e.ctrls.c7 = some (.tuple (first :: rest))) ∧
      ¬∃ items rest, SeedPlace e.ctrls.c7 items rest

theorem not_keepsGlobals_setrand {e : Engine} (h : LosesGlobals e) : ¬KeepsGlobals executeSetrand e := by
  obtain ⟨⟨stack, seed, hstack⟩, ⟨first, rest, hc7⟩, hplace⟩ := h
  intro hkeeps
  obtain ⟨s, hctrls, hexec⟩ := exec_setrand hstack
  rw [← hctrls] at hplace hc7
  obtain ⟨err, t, ht, hlost⟩ := exec_setRand_error hc7 hplace seed
  have hsame : t.ctrls.c7 = e.ctrls.c7 := hkeeps.error (hexec.trans ht)
  rw [← hctrls, hc7, hlost] at hsame
  cases hsame

theorem keepsGlobals_setrand {e : Engine} (h : ¬LosesGlobals e) : KeepsGlobals executeSetrand e := by
  unfold KeepsGlobals executeSetrand
  refine spares_operand fun stack a s hstack hvars hs => ?_
  refine Concludes.bind_ok (exec_var _ (by rw [hvars]; rfl)) ?_
  cases a with
  | integer seed =>
    by_cases hplace : ∃ items rest, SeedPlace e.ctrls.c7 items rest
    · obtain ⟨items, rest, hplace⟩ := hplace
      obtain ⟨t, ht, -, hc7⟩ := exec_setRand (hs ▸ hplace) seed
      exact Concludes.of_ok (t := t) ht ⟨items, rest, seed, hplace, hc7⟩
    by_cases htuple : ∃ tuple, e.ctrls.c7 = some (.tuple tuple)
    · obtain ⟨tuple, hc7⟩ := htuple
      obtain ⟨err, t, ht, hlost⟩ := exec_setRand_error (hs.trans hc7) (hs ▸ hplace) seed
      refine Concludes.of_error (t := t) ht ?_
      cases tuple with
      -- an empty tuple is emptied
      | nil => rw [hlost, hc7]
      | cons first rest => exact absurd ⟨⟨stack, seed, hstack⟩, ⟨first, rest, hc7⟩, hplace⟩ h
    · obtain ⟨err, herr⟩ := exec_setRand_no_tuple (s := s)
        (fun tuple hc7 => htuple ⟨tuple, hs ▸ hc7⟩) seed
      exact Concludes.of_error herr hs
  | _ => exact Concludes.of_error (t := s) rfl hs

/-- The instructions that read the seed never harm c7. `SETRAND` empties c7 when it holds a tuple that
does not start with a tuple of seven items. -/
theorem rand_keeps_globals_iff (i : RandInstruction) (e : Engine) :
    KeepsGlobals i.handler e ↔ ¬(i = .setrand ∧ LosesGlobals e) := by
  by_cases hi : i = .setrand
  · subst hi
    constructor
    · rintro hkeeps ⟨-, h⟩
      exact not_keepsGlobals_setrand h hkeeps
    · intro h
      exact keepsGlobals_setrand fun hloses => h ⟨rfl, hloses⟩
  · refine iff_of_true ?_ fun h => hi h.1
    refine (spares_reading hi e).mono (fun _ _ h => h) ?_
    rintro _ t ⟨items, rest, hash, hplace, hc7⟩
    exact ⟨items, rest, _, hplace, hc7⟩

/-! ### A usable seed -/

/-- An unsigned 256-bit integer. -/
def Usable (seed : IntegerData) : Prop := ∃ v, seed = .value v ∧ 0 ≤ v ∧ v < 2 ^ 256

def Seeded (c7 : Option StackItem) : Prop := ∃ seed, HoldsSeed c7 seed ∧ Usable seed

theorem holdsSeed_seeded (h : SeedPlace c7 items rest) (seed : IntegerData) :
    HoldsSeed (seeded items rest seed) seed := by
  refine ⟨_, rest, ⟨rfl, ?_⟩, ?_⟩
  · rw [List.length_set]
    exact h.2
  · exact List.getElem?_set_self h.2

omit [TonTypes] in
theorem usable_hash (hash : UInt256) : Usable (.value hash.toNat) := by
  have := hash.isLt
  exact ⟨_, rfl, by omega, by omega⟩

theorem seeded_of_rehashed {c7' : Option StackItem} (h : Rehashed c7 c7') : Seeded c7' := by
  obtain ⟨items, rest, hash, hplace, rfl⟩ := h
  exact ⟨_, holdsSeed_seeded hplace _, usable_hash hash⟩

/-- Only `SETRAND` has an operand to be careful with. -/
def SafeOperand (i : RandInstruction) (e : Engine) : Prop :=
  i = .setrand → ∀ stack seed, e.cc.stack = stack ++ [.integer seed] → Usable seed

theorem exec_setrand_seeded {e : Engine} (he : Seeded e.ctrls.c7) {stack : Stack} {seed : IntegerData}
    (hstack : e.cc.stack = stack ++ [.integer seed]) :
    HoldsSeed (exec executeSetrand e).2.ctrls.c7 seed := by
  obtain ⟨_, ⟨items, rest, hplace, -⟩, -⟩ := he
  obtain ⟨s, hctrls, hexec⟩ := exec_setrand hstack
  have hplace' : SeedPlace s.ctrls.c7 items rest := hctrls ▸ hplace
  obtain ⟨t, ht, -, hc7⟩ := exec_setRand hplace' seed
  have hend : exec executeSetrand e = (.ok (), t) := hexec.trans ht
  rw [hend, hc7]
  exact holdsSeed_seeded hplace seed

theorem seeded_of_spares {m : M Unit} {e : Engine} (he : Seeded e.ctrls.c7)
    (h : Spares e.ctrls.c7 (fun _ t => Seeded t.ctrls.c7) m e) : Seeded (exec m e).2.ctrls.c7 := by
  rcases hexec : exec m e with ⟨err | _, t⟩
  · have hsame : t.ctrls.c7 = e.ctrls.c7 := h.error hexec
    rwa [hsame]
  · exact h.ok hexec

/-- Without an integer to take `SETRAND` fails. -/
theorem spares_setrand {e : Engine} (h : ∀ stack seed, e.cc.stack ≠ stack ++ [.integer seed])
    {Q : Unit → Engine → Prop} : Spares e.ctrls.c7 Q executeSetrand e := by
  unfold executeSetrand
  refine spares_operand fun stack a s hstack hvars hs => ?_
  refine Concludes.bind_ok (exec_var _ (by rw [hvars]; rfl)) ?_
  cases a with
  | integer seed => exact absurd hstack (h stack seed)
  | _ => exact Concludes.of_error (t := s) rfl hs

/-- One instruction keeps the seed usable exactly when its operand is safe. -/
theorem seeded_step_iff {i : RandInstruction} {e : Engine} (he : Seeded e.ctrls.c7) :
    Seeded (exec i.handler e).2.ctrls.c7 ↔ SafeOperand i e := by
  by_cases hset : i = .setrand
  · subst hset
    by_cases htop : ∃ stack seed, e.cc.stack = stack ++ [.integer seed]
    · obtain ⟨stack, seed, hstack⟩ := htop
      have hseed := exec_setrand_seeded he hstack
      constructor
      · rintro ⟨seed', hseed', husable⟩ - stack' seed'' hstack'
        rw [hstack] at hstack'
        obtain ⟨-, hlast⟩ := List.append_inj' hstack' rfl
        cases hlast
        rwa [hseed.unique hseed']
      · intro hsafe
        exact ⟨seed, hseed, hsafe rfl stack seed hstack⟩
    · have hnone (stack : Stack) (seed : IntegerData) : e.cc.stack ≠ stack ++ [.integer seed] :=
        fun hstack => htop ⟨stack, seed, hstack⟩
      exact iff_of_true (seeded_of_spares he (spares_setrand hnone))
        fun _ stack seed hstack => absurd hstack (hnone stack seed)
  · refine iff_of_true (seeded_of_spares he ?_) fun hi => absurd hi hset
    exact (spares_reading hset e).mono (fun _ _ h => h) fun _ _ h => seeded_of_rehashed h

section Laws

variable [Views] [LawfulViews]

/-- What is written for a seed are its 32 bytes, so exactly the usable ones can be read. -/
theorem isOk_asBuilder_iff (seed : IntegerData) :
    (∃ builder, seed.asBuilder .unsignedBigEndian 256 = .ok builder) ↔ Usable seed := by
  cases seed with
  | nan =>
    constructor
    · rintro ⟨builder, hok⟩
      cases hok
    · rintro ⟨v, hv, -⟩
      cases hv
  | value v =>
    have hbuild : (IntegerData.value v).asBuilder .unsignedBigEndian 256 =
        Encoding.unsignedBigEndian.trySerialize 256 (.value v) := rfl
    rw [hbuild]
    constructor
    · rintro ⟨builder, hok⟩
      have hfits := Encoding.fits_of_trySerialize hok
      exact ⟨v, rfl, hfits⟩
    · rintro ⟨_, ⟨⟩, hrange⟩
      have hfits : (keyEncoding false).Fits 256 v := hrange
      obtain ⟨builder, hok, -⟩ := exists_asBuilder (by decide) hfits
      exact ⟨builder, hok⟩

theorem exec_randBytes (h : Seeded s.ctrls.c7) : ∃ bytes, exec randBytes s = (.ok bytes, s) := by
  obtain ⟨seed, hseed, husable⟩ := h
  obtain ⟨builder, hbuilder⟩ := (isOk_asBuilder_iff seed).2 husable
  refine ⟨TonTypes.builderBytes builder, ?_⟩
  unfold randBytes
  rw [exec_bind_ok (exec_rand hseed), hbuilder]
  rfl

theorem seeded_of_randBytes {bytes : List UInt8} {t : Engine} (h : exec randBytes s = (.ok bytes, t)) :
    Seeded s.ctrls.c7 := by
  unfold randBytes at h
  by_cases hholds : ∃ seed, HoldsSeed s.ctrls.c7 seed
  · obtain ⟨seed, hseed⟩ := hholds
    rw [exec_bind_ok (exec_rand hseed)] at h
    refine ⟨seed, hseed, (isOk_asBuilder_iff seed).1 ?_⟩
    cases hbuilder : seed.asBuilder .unsignedBigEndian 256 with
    | ok builder => exact ⟨builder, rfl⟩
    | error failure =>
      rw [hbuilder] at h
      cases h
  · obtain ⟨err, herr⟩ := exec_rand_error fun seed hseed => hholds ⟨seed, hseed⟩
    rw [exec_bind_error herr] at h
    cases h

theorem randu256_isOk_iff (e : Engine) :
    (exec executeRandu256 e).1 = .ok () ↔ Seeded e.ctrls.c7 := by
  unfold executeRandu256
  rw [exec_bind_ok (exec_load e)]
  constructor
  · intro hok
    rcases hread : exec randBytes e.afterLoad with ⟨err | bytes, t⟩
    · rw [exec_bind_error hread] at hok
      cases hok
    · have hseeded := seeded_of_randBytes hread
      exact hseeded
  · intro hseeded
    obtain ⟨bytes, hread⟩ := exec_randBytes (s := e.afterLoad) hseeded
    obtain ⟨_, ⟨items, rest, hplace, -⟩, -⟩ := hseeded
    rw [exec_bind_ok hread]
    obtain ⟨low, high⟩ := TonTypes.sha512 bytes
    have hplace' : SeedPlace e.afterLoad.ctrls.c7 items rest := hplace
    obtain ⟨t, ht, -⟩ := exec_setRand hplace' (.value low.toNat)
    dsimp only
    rw [deserialize_hashBytes, lift_ok, pure_bind, exec_bind_ok ht, deserialize_hashBytes, lift_ok,
      pure_bind]
    rfl

/-- Instructions that use the seed, one after the other. Whatever happens in between, the handling of
an exception too, leaves c7 alone. -/
inductive SeedRun (P : RandInstruction → Engine → Prop) (e : Engine) : Engine → Prop
  | start : SeedRun P e e
  | step {s s' : Engine} (i : RandInstruction) : SeedRun P e s → s'.ctrls.c7 = s.ctrls.c7 → P i s' →
      SeedRun P e (exec i.handler s').2

/-- The seed stays usable along every run in which `SETRAND` is given unsigned 256-bit integers, and
`RANDU256` then succeeds. Any other integer makes the seed unusable. -/
theorem seed_stays_usable :
    (∀ e t : Engine, Seeded e.ctrls.c7 → SeedRun SafeOperand e t →
      Seeded t.ctrls.c7 ∧ ∀ t' : Engine, t'.ctrls.c7 = t.ctrls.c7 →
        (exec executeRandu256 t').1 = .ok ()) ∧
    ∀ (i : RandInstruction) (e : Engine), Seeded e.ctrls.c7 →
      (Seeded (exec i.handler e).2.ctrls.c7 ↔ SafeOperand i e) := by
  refine ⟨?_, fun i e he => seeded_step_iff he⟩
  intro e t he hrun
  have hseeded : Seeded t.ctrls.c7 := by
    induction hrun with
    | start => exact he
    | step i _ hsame hsafe ih => exact (seeded_step_iff (hsame ▸ ih)).2 hsafe
  refine ⟨hseeded, fun t' hsame => ?_⟩
  rw [randu256_isOk_iff, hsame]
  exact hseeded

end Laws

end RandomSeed

section Concrete

open scoped Plain

/-- An engine with a tuple in c7, at a stack with one integer. -/
def seeding (code : List UInt8) (globals : List StackItem) (operand : Int) : Engine :=
  (withCapabilities []).setupWithLibraries (Plain.code code)
    (some { c7 := some (.tuple globals) }) (some [.int operand]) none []

/-- The length of the tuple in c7. -/
def globalsLength (e : Engine) : Option Nat :=
  match e.ctrls.c7 with
  | some (.tuple tuple) => some tuple.length
  | _ => none

/-- `SETRAND` with a short tuple in c7 fails and empties c7. -/
theorem setrand_empties_c7 :
    globalsLength (seeding [0xF8, 0x14] [.tuple [.int 1], .int 2] 5) = some 2 ∧
    endedBy (passes 1 (seeding [0xF8, 0x14] [.tuple [.int 1], .int 2] 5)).1 =
      some .rangeCheckError ∧
    globalsLength (passes 1 (seeding [0xF8, 0x14] [.tuple [.int 1], .int 2] 5)).2 = some 0 := by
  decide +kernel

/-- A tuple for c7 with a seed. -/
def globalsWithSeed (seed : Int) : List StackItem :=
  [.tuple [.int 0, .int 0, .int 0, .int 0, .int 0, .int 0, .int seed]]

theorem seeded_seeding (code : List UInt8) (operand : Int) :
    Seeded (seeding code (globalsWithSeed 3) operand).ctrls.c7 :=
  ⟨.value 3, ⟨_, _, ⟨rfl, by decide⟩, rfl⟩, 3, rfl, by decide, by decide⟩

/-- The state after `SETRAND` with 1, `RANDU256`, and `ADDRAND` with the random integer. -/
def reseeded : Engine :=
  [RandInstruction.setrand, .randu256, .addrand].foldl (fun s i => (exec i.handler s).2)
    (seeding [] (globalsWithSeed 3) 1)

theorem seed_stays_usable_reseeded :
    Seeded reseeded.ctrls.c7 ∧ (exec executeRandu256 reseeded).1 = .ok () := by
  have hsafe : SafeOperand .setrand (seeding [] (globalsWithSeed 3) 1) := by
    intro _ stack seed hstack
    have hstack' : [] ++ [StackItem.int 1] = stack ++ [.integer seed] := hstack
    obtain ⟨-, hlast⟩ := List.append_inj' hstack' rfl
    cases hlast
    exact ⟨1, rfl, by decide, by decide⟩
  have hother {s : Engine} (i : RandInstruction) (hi : i ≠ .setrand)
      (hs : SeedRun SafeOperand (seeding [] (globalsWithSeed 3) 1) s) :=
    SeedRun.step i hs rfl fun h => absurd h hi
  have hrun := hother .addrand (by decide) (hother .randu256 (by decide) (.step _ .start rfl hsafe))
  obtain ⟨hseeded, hnext⟩ := seed_stays_usable.1 _ _ (seeded_seeding [] 1) hrun
  simp only [reseeded, List.foldl_cons, List.foldl_nil]
  exact ⟨hseeded, hnext _ rfl⟩

/-- `SETRAND` accepts -1, and `RANDU256` then fails. -/
theorem randu256_after_negative_seed :
    Seeded (seeding [0xF8, 0x14, 0xF8, 0x10] (globalsWithSeed 3) (-1)).ctrls.c7 ∧
    endedBy (passes 1 (seeding [0xF8, 0x14, 0xF8, 0x10] (globalsWithSeed 3) (-1))).1 = none ∧
    endedBy (passes 2 (seeding [0xF8, 0x14, 0xF8, 0x10] (globalsWithSeed 3) (-1))).1 =
      some .rangeCheckError := by
  refine ⟨seeded_seeding _ _, ?_⟩
  decide +kernel

end Concrete

end Engine

end TonVm
