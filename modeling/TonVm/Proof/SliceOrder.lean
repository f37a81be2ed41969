import TonVm.Proof.Instruction
import TonVm.Proof.Views
import TonVm.Executor.Deserialization

/-!
# The order of slices

`common_prefix` cuts two slices after the bits they share. The comparisons look at what is left of
them: they are the lexicographic order of the data, with equality, the tests for a prefix and, after
cutting the longer slice to the length of the shorter one, the tests for a suffix.
-/

namespace TonVm

open ExecLib

section Laws

variable [TonTypes] [Views]

/-- What is left of a slice, which is none when nothing is. -/
def Remainder (rest : Option SliceData) (bits : List Bool) : Prop :=
  match rest with
  | none => bits = []
  | some slice => bits ≠ [] ∧ sliceBits slice = bits

/-- Two strings are cut after their longest common prefix: what is left of them, if anything is left of
both, begins with different bits. -/
inductive CutsCommon : List Bool → List Bool → Option SliceData × Option SliceData → Prop
  | intro {common left right : List Bool} {leftRest rightRest : Option SliceData}
      (longest : ∀ a ∈ left.head?, ∀ b ∈ right.head?, a ≠ b)
      (hleft : Remainder leftRest left) (hright : Remainder rightRest right) :
      CutsCommon (common ++ left) (common ++ right) (leftRest, rightRest)

/-- The laws of the methods that compare slices. -/
class LawfulPrefixes : Prop where
  remainingBits : ∀ slice, TonTypes.remainingBits slice = (sliceBits slice).length
  commonPrefix : ∀ a b : SliceData,
    CutsCommon (sliceBits a) (sliceBits b) (TonTypes.commonPrefix a b)
  getNextBit : ∀ slice bit bits, sliceBits slice = bit :: bits →
    ∃ rest, TonTypes.getNextBit slice = .ok (bit, rest)
  shrinkDataFrom : ∀ slice n, n ≤ (sliceBits slice).length →
    sliceBits (shrinkDataFrom slice n) = (sliceBits slice).drop n

end Laws

/-! ### The lexicographic order -/

section Order

/-- The sign that stands for the outcome of a comparison. -/
def orderingSign : Ordering → Int
  | .lt => -1
  | .eq => 0
  | .gt => 1

theorem orderingSign_swap (o : Ordering) : orderingSign o.swap = -orderingSign o := by
  cases o <;> rfl

theorem orderingSign_injective : Function.Injective orderingSign := by
  intro a b h
  cases a <;> cases b <;> first | rfl | cases h

theorem orderingSign_nonpos_iff (o : Ordering) : orderingSign o ≤ 0 ↔ o.isLE = true := by
  cases o <;> decide

theorem compare_append_left (common left right : List Bool) :
    compare (common ++ left) (common ++ right) = compare left right := by
  induction common with
  | nil => rfl
  | cons bit common ih =>
    rw [List.compare_eq_compareLex] at *
    rw [List.cons_append, List.cons_append, List.compareLex_cons_cons, ih]
    cases bit <;> rfl

/-- Where the first bits differ, the one of the left string decides. -/
theorem compare_cons_of_ne {a b : Bool} (h : a ≠ b) (left right : List Bool) :
    compare (a :: left) (b :: right) = if a then .gt else .lt := by
  rw [List.compare_eq_compareLex, List.compareLex_cons_cons]
  cases a <;> cases b <;> first | rfl | exact absurd rfl h

/-- A proper prefix comes before the string. -/
theorem compare_of_isPrefix {left right : List Bool} (h : left <+: right) (hne : left ≠ right) :
    compare left right = .lt := by
  obtain ⟨rest, rfl⟩ := h
  have hrest := compare_append_left left [] rest
  rw [List.append_nil] at hrest
  rw [hrest]
  cases rest with
  | nil => exact absurd (List.append_nil left).symm hne
  | cons bit rest => rfl

theorem isPrefix_iff_of_longest {left right : List Bool}
    (h : ∀ a ∈ left.head?, ∀ b ∈ right.head?, a ≠ b) : left <+: right ↔ left = [] := by
  constructor
  · rintro ⟨rest, rfl⟩
    cases left with
    | nil => rfl
    | cons a left => exact absurd rfl (h a rfl a rfl)
  · rintro rfl
    exact List.nil_prefix

end Order

section Comparing

variable [TonTypes] [Views]

/-! ### What the remainders tell -/

theorem Remainder.isNone_iff {rest : Option SliceData} {bits : List Bool} (h : Remainder rest bits) :
    rest.isNone = true ↔ bits = [] := by
  cases rest with
  | none => simp [show bits = [] from h]
  | some slice => simp [h.1]

namespace CutsCommon

variable {left right : List Bool} {rests : Option SliceData × Option SliceData}

theorem isNone_left_iff (h : CutsCommon left right rests) :
    rests.1.isNone = true ↔ left <+: right := by
  obtain ⟨longest, hleft, -⟩ := h
  rw [hleft.isNone_iff, List.prefix_append_right_inj, isPrefix_iff_of_longest longest]

theorem isNone_right_iff (h : CutsCommon left right rests) :
    rests.2.isNone = true ↔ right <+: left := by
  obtain ⟨longest, -, hright⟩ := h
  rw [hright.isNone_iff, List.prefix_append_right_inj,
    isPrefix_iff_of_longest fun b hb a ha => (longest a ha b hb).symm]

theorem isNone_both_iff (h : CutsCommon left right rests) :
    (rests.2.isNone && rests.1.isNone) = true ↔ left = right := by
  rw [Bool.and_eq_true, h.isNone_left_iff, h.isNone_right_iff]
  constructor
  · rintro ⟨hright, hleft⟩
    exact hleft.eq_of_length_le hright.length_le
  · rintro rfl
    exact ⟨List.prefix_rfl, List.prefix_rfl⟩

/-- A proper prefix. -/
theorem isSome_right_iff (h : CutsCommon left right rests) :
    (rests.2.isSome && rests.1.isNone) = true ↔ left <+: right ∧ left ≠ right := by
  have hboth := h.isNone_both_iff
  rw [Bool.and_eq_true, h.isNone_left_iff] at hboth ⊢
  rw [ne_eq, ← hboth]
  cases rests.2 <;> simp

theorem isSome_left_iff (h : CutsCommon left right rests) :
    (rests.2.isNone && rests.1.isSome) = true ↔ right <+: left ∧ right ≠ left := by
  have hboth := h.isNone_both_iff
  rw [Bool.and_eq_true, h.isNone_right_iff] at hboth ⊢
  rw [ne_comm, ne_eq, ← hboth]
  cases rests.1 <;> simp

variable [LawfulPrefixes]

/-- The sign that `SDLEXCMP` reads off the remainders. -/
theorem lexcmp_eq (h : CutsCommon left right rests) :
    Engine.lexcmp rests.1 rests.2 = .ok (.int (orderingSign (compare left right))) := by
  obtain ⟨longest, hleft, hright⟩ := h
  rename_i common left right leftRest rightRest
  rw [compare_append_left]
  cases leftRest with
  | none =>
    obtain rfl : left = [] := hleft
    cases rightRest with
    | none =>
      obtain rfl : right = [] := hright
      rfl
    | some slice =>
      obtain ⟨b, bs, rfl⟩ := List.exists_cons_of_ne_nil hright.1
      rfl
  | some slice =>
    obtain ⟨a, as, rfl⟩ := List.exists_cons_of_ne_nil hleft.1
    cases rightRest with
    | none =>
      obtain rfl : right = [] := hright
      rfl
    | some slice' =>
      obtain ⟨b, bs, rfl⟩ := List.exists_cons_of_ne_nil hright.1
      obtain ⟨rest, hbit⟩ := LawfulPrefixes.getNextBit slice a as hleft.2
      rw [compare_cons_of_ne (longest a rfl b rfl)]
      unfold Engine.lexcmp
      simp only [hbit]
      cases a <;> rfl

end CutsCommon

/-! ### The instructions -/

namespace Engine

/-- The instruction replaces the slices `s` and `t`, the second on top, by an item. -/
def Pushes (e : Engine) (m : M Unit) (s t : SliceData) (item : StackItem) : Prop :=
  exec m (e.given [.slice s, .slice t]) =
    (.ok (), (e.afterLoad.holding e.cc e.ctrls [.slice t, .slice s]).given [item])

/-- The instruction answers yes. -/
def Holds (e : Engine) (m : M Unit) (s t : SliceData) : Prop := e.Pushes m s t (.boolean true)

variable {e : Engine} {m m' : M Unit} {s t s' t' : SliceData} {item : StackItem}

omit [Views] in
theorem Pushes.iff_eq (h : e.Pushes m s t item) (other : StackItem) :
    e.Pushes m s t other ↔ other = item := by
  constructor
  · intro hother
    have hstack : e.cc.stack ++ [other] = e.cc.stack ++ [item] :=
      congrArg (·.2.cc.stack) (hother.symm.trans h)
    exact List.singleton_inj.1 (List.append_cancel_left hstack)
  · rintro rfl
    exact h

omit [Views] in
theorem Pushes.holds_iff {b : Bool} (h : e.Pushes m s t (.boolean b)) : e.Holds m s t ↔ b = true := by
  refine (h.iff_eq _).trans ?_
  cases b <;> simp [StackItem.boolean, StackItem.int]

omit [Views] in
theorem pushes_iff_pushes (h : e.Pushes m s t item) (h' : e.Pushes m' s' t' item)
    (other : StackItem) : e.Pushes m s t other ↔ e.Pushes m' s' t' other :=
  (h.iff_eq other).trans (h'.iff_eq other).symm

omit [Views] in
theorem pushes_commonPrefix
    {operation : Option SliceData → Option SliceData → Except Failure StackItem}
    (h : operation (TonTypes.commonPrefix s t).1 (TonTypes.commonPrefix s t).2 = .ok item) :
    e.Pushes (commonPrefix operation) s t item := by
  refine (exec_load_fetchStack e [.slice s, .slice t] _).trans ?_
  rw [exec_bind_ok (exec_var _ rfl)]
  show exec (var 1 >>= _) _ = _
  rw [exec_bind_ok (exec_var _ rfl)]
  show exec (do push (← lift (operation (TonTypes.commonPrefix s t).1
    (TonTypes.commonPrefix s t).2))) _ = _
  rw [h]
  rfl

omit [Views] in
theorem pushes_binarySlice (operation : SliceData → SliceData → Bool) :
    e.Pushes (binarySlice operation) s t (.boolean (operation s t)) := by
  refine (exec_load_fetchStack e [.slice s, .slice t] _).trans ?_
  rw [exec_bind_ok (exec_var _ rfl)]
  show exec (do
    let s1 ← lift (← var 1).asSlice
    push (.boolean (operation s1 t))) _ = _
  rw [exec_bind_ok (exec_var _ rfl)]
  rfl

section Comparisons

variable [LawfulPrefixes] (e s t)

theorem pushes_sdlexcmp : e.Pushes executeSdlexcmp s t
    (.int (orderingSign (compare (sliceBits s) (sliceBits t)))) :=
  pushes_commonPrefix (LawfulPrefixes.commonPrefix s t).lexcmp_eq

omit [LawfulPrefixes] [Views] in
variable {e s t} in
/-- A comparison that answers a question. -/
theorem pushes_flag {flag : Option SliceData → Option SliceData → Bool} {p : Prop} [Decidable p]
    (h : flag (TonTypes.commonPrefix s t).1 (TonTypes.commonPrefix s t).2 = true ↔ p) :
    e.Pushes (commonPrefix fun r1 r0 => .ok (.boolean (flag r1 r0))) s t (.boolean (decide p)) := by
  apply pushes_commonPrefix
  rw [Bool.eq_iff_iff.2 (h.trans decide_eq_true_iff.symm)]

theorem pushes_sdeq : e.Pushes executeSdeq s t (.boolean (decide (sliceBits s = sliceBits t))) :=
  pushes_flag (LawfulPrefixes.commonPrefix s t).isNone_both_iff

theorem pushes_sdpfx :
    e.Pushes executeSdpfx s t (.boolean (decide (sliceBits s <+: sliceBits t))) :=
  pushes_flag (LawfulPrefixes.commonPrefix s t).isNone_left_iff

theorem pushes_sdpfxrev :
    e.Pushes executeSdpfxrev s t (.boolean (decide (sliceBits t <+: sliceBits s))) :=
  pushes_flag (LawfulPrefixes.commonPrefix s t).isNone_right_iff

theorem pushes_sdppfx : e.Pushes executeSdppfx s t
    (.boolean (decide (sliceBits s <+: sliceBits t ∧ sliceBits s ≠ sliceBits t))) :=
  pushes_flag (LawfulPrefixes.commonPrefix s t).isSome_right_iff

theorem pushes_sdppfxrev : e.Pushes executeSdppfxrev s t
    (.boolean (decide (sliceBits t <+: sliceBits s ∧ sliceBits t ≠ sliceBits s))) :=
  pushes_flag (LawfulPrefixes.commonPrefix s t).isSome_left_iff

theorem endsWith_iff (whole tail : SliceData) (tailFirst : Bool) :
    endsWith whole tail tailFirst = true ↔ sliceBits tail <:+ sliceBits whole := by
  have hrest := LawfulPrefixes.shrinkDataFrom whole
    ((sliceBits whole).length - (sliceBits tail).length) (Nat.sub_le _ _)
  rw [List.suffix_iff_eq_drop, ← hrest]
  unfold endsWith
  rw [LawfulPrefixes.remainingBits, LawfulPrefixes.remainingBits]
  cases tailFirst with
  | false =>
    have hcut := (LawfulPrefixes.commonPrefix (shrinkDataFrom whole
      ((sliceBits whole).length - (sliceBits tail).length)) tail).isNone_both_iff
    rw [Bool.and_comm] at hcut
    exact hcut.trans eq_comm
  | true =>
    have hcut := (LawfulPrefixes.commonPrefix tail (shrinkDataFrom whole
      ((sliceBits whole).length - (sliceBits tail).length))).isNone_both_iff
    rw [Bool.and_comm] at hcut
    exact hcut

/-- The test for a suffix behind a test of the lengths. -/
theorem guarded_endsWith {whole tail : SliceData} (tailFirst : Bool) {short p : Prop}
    [Decidable short] [Decidable p] (h : short ∧ sliceBits tail <:+ sliceBits whole ↔ p) :
    (decide short && endsWith whole tail tailFirst) = decide p := by
  rw [Bool.eq_iff_iff, Bool.and_eq_true, decide_eq_true_iff, decide_eq_true_iff, endsWith_iff, h]

omit [LawfulPrefixes] in
variable {s t} in
theorem suffix_and_le_iff : (sliceBits s).length ≤ (sliceBits t).length ∧
    sliceBits s <:+ sliceBits t ↔ sliceBits s <:+ sliceBits t :=
  and_iff_right_of_imp List.IsSuffix.length_le

omit [LawfulPrefixes] in
variable {s t} in
theorem suffix_and_lt_iff : (sliceBits s).length < (sliceBits t).length ∧
    sliceBits s <:+ sliceBits t ↔ sliceBits s <:+ sliceBits t ∧ sliceBits s ≠ sliceBits t := by
  constructor
  · rintro ⟨hlt, hends⟩
    refine ⟨hends, fun heq => ?_⟩
    rw [heq] at hlt
    exact lt_irrefl _ hlt
  · rintro ⟨hends, hne⟩
    exact ⟨lt_of_le_of_ne hends.length_le fun hlen => hne (hends.eq_of_length hlen), hends⟩

theorem pushes_sdsfx :
    e.Pushes executeSdsfx s t (.boolean (decide (sliceBits s <:+ sliceBits t))) := by
  rw [← guarded_endsWith false suffix_and_le_iff, ← LawfulPrefixes.remainingBits,
    ← LawfulPrefixes.remainingBits]
  exact pushes_binarySlice _

theorem pushes_sdsfxrev :
    e.Pushes executeSdsfxrev s t (.boolean (decide (sliceBits t <:+ sliceBits s))) := by
  rw [← guarded_endsWith true suffix_and_le_iff, ← LawfulPrefixes.remainingBits,
    ← LawfulPrefixes.remainingBits]
  exact pushes_binarySlice _

theorem pushes_sdpsfx : e.Pushes executeSdpsfx s t
    (.boolean (decide (sliceBits s <:+ sliceBits t ∧ sliceBits s ≠ sliceBits t))) := by
  rw [← guarded_endsWith false suffix_and_lt_iff, ← LawfulPrefixes.remainingBits,
    ← LawfulPrefixes.remainingBits]
  exact pushes_binarySlice _

theorem pushes_sdpsfxrev : e.Pushes executeSdpsfxrev s t
    (.boolean (decide (sliceBits t <:+ sliceBits s ∧ sliceBits t ≠ sliceBits s))) := by
  rw [← guarded_endsWith true suffix_and_lt_iff, ← LawfulPrefixes.remainingBits,
    ← LawfulPrefixes.remainingBits]
  exact pushes_binarySlice _

/-! ### The order -/

theorem sdlexcmp_iff (c : Int) : e.Pushes executeSdlexcmp s t (.int c) ↔
    c = orderingSign (compare (sliceBits s) (sliceBits t)) := by
  rw [(pushes_sdlexcmp e s t).iff_eq]
  simp [StackItem.int]

theorem sdlexcmp_zero_iff :
    e.Pushes executeSdlexcmp s t (.int 0) ↔ sliceBits s = sliceBits t := by
  rw [sdlexcmp_iff, eq_comm]
  exact (orderingSign_injective.eq_iff (b := .eq)).trans Std.compare_eq_iff_eq

theorem holds_sdeq_iff : e.Holds executeSdeq s t ↔ sliceBits s = sliceBits t :=
  (pushes_sdeq e s t).holds_iff.trans decide_eq_true_iff

theorem holds_sdpfx_iff : e.Holds executeSdpfx s t ↔ sliceBits s <+: sliceBits t :=
  (pushes_sdpfx e s t).holds_iff.trans decide_eq_true_iff

theorem holds_sdppfx_iff : e.Holds executeSdppfx s t ↔
    sliceBits s <+: sliceBits t ∧ sliceBits s ≠ sliceBits t :=
  (pushes_sdppfx e s t).holds_iff.trans decide_eq_true_iff

theorem holds_sdsfx_iff : e.Holds executeSdsfx s t ↔ sliceBits s <:+ sliceBits t :=
  (pushes_sdsfx e s t).holds_iff.trans decide_eq_true_iff

theorem holds_sdpsfx_iff : e.Holds executeSdpsfx s t ↔
    sliceBits s <:+ sliceBits t ∧ sliceBits s ≠ sliceBits t :=
  (pushes_sdpsfx e s t).holds_iff.trans decide_eq_true_iff

theorem sdlexcmp_antisymm : ∃ c : Int, (c = -1 ∨ c = 0 ∨ c = 1) ∧
    e.Pushes executeSdlexcmp s t (.int c) ∧ e.Pushes executeSdlexcmp t s (.int (-c)) := by
  refine ⟨orderingSign (compare (sliceBits s) (sliceBits t)), ?_, pushes_sdlexcmp e s t, ?_⟩
  · cases compare (sliceBits s) (sliceBits t) <;> simp [orderingSign]
  · rw [sdlexcmp_iff, ← orderingSign_swap, ← Std.OrientedCmp.eq_swap]

variable {e s t} in
theorem sdlexcmp_trans {u : SliceData} {c d : Int} (hc : e.Pushes executeSdlexcmp s t (.int c))
    (hd : e.Pushes executeSdlexcmp t u (.int d)) (hc0 : c ≤ 0) (hd0 : d ≤ 0) :
    ∃ f : Int, e.Pushes executeSdlexcmp s u (.int f) ∧ f ≤ 0 ∧ (f = 0 ↔ c = 0 ∧ d = 0) := by
  obtain rfl := (sdlexcmp_iff ..).1 hc
  obtain rfl := (sdlexcmp_iff ..).1 hd
  have hzero (o : Ordering) : orderingSign o = 0 ↔ o = .eq := orderingSign_injective.eq_iff (b := .eq)
  rw [orderingSign_nonpos_iff] at hc0 hd0
  refine ⟨_, pushes_sdlexcmp e s u, ?_, ?_⟩
  · rw [orderingSign_nonpos_iff]
    exact Std.TransCmp.isLE_trans hc0 hd0
  · simp only [hzero, Std.compare_eq_iff_eq]
    constructor
    · intro heq
      -- two strings below each other are equal
      rw [heq] at hc0
      have hback : compare (sliceBits t) (sliceBits u) = .eq :=
        Std.OrientedCmp.isLE_antisymm hd0 hc0
      have hmiddle := Std.compare_eq_iff_eq.1 hback
      exact ⟨heq.trans hmiddle.symm, hmiddle⟩
    · rintro ⟨hst, htu⟩
      exact hst.trans htu

end Comparisons

/-- The comparisons of slices are one total order of their data and what follows from it. -/
theorem slice_comparisons [LawfulPrefixes] (e : Engine) :
    (∀ s t, ∃ c : Int, (c = -1 ∨ c = 0 ∨ c = 1) ∧
      e.Pushes executeSdlexcmp s t (.int c) ∧ e.Pushes executeSdlexcmp t s (.int (-c))) ∧
    (∀ s t u (c d : Int), e.Pushes executeSdlexcmp s t (.int c) →
      e.Pushes executeSdlexcmp t u (.int d) → c ≤ 0 → d ≤ 0 →
      ∃ f : Int, e.Pushes executeSdlexcmp s u (.int f) ∧ f ≤ 0 ∧ (f = 0 ↔ c = 0 ∧ d = 0)) ∧
    (∀ m ∈ [executeSdeq, executeSdpfx, executeSdppfx, executeSdsfx, executeSdpsfx],
      ∀ s t, ∃ b, e.Pushes m s t (.boolean b)) ∧
    (∀ s t, e.Pushes executeSdlexcmp s t (.int 0) ↔ e.Holds executeSdeq s t) ∧
    (∀ s t, e.Holds executeSdeq s t ↔ sliceBits s = sliceBits t) ∧
    (∀ s t, e.Holds executeSdpfx s t ↔ sliceBits s <+: sliceBits t) ∧
    (∀ s t, e.Holds executeSdpfx s t ∧ e.Holds executeSdpfx t s ↔ e.Holds executeSdeq s t) ∧
    (∀ s t, e.Holds executeSdppfx s t ↔ e.Holds executeSdpfx s t ∧ ¬e.Holds executeSdeq s t) ∧
    (∀ s t, e.Holds executeSdppfx s t → e.Pushes executeSdlexcmp s t (.int (-1))) ∧
    (∀ s t, e.Holds executeSdsfx s t ↔ sliceBits s <:+ sliceBits t) ∧
    (∀ s t, e.Holds executeSdpsfx s t ↔ e.Holds executeSdsfx s t ∧ ¬e.Holds executeSdeq s t) ∧
    ∀ s t item,
      (e.Pushes executeSdpfxrev s t item ↔ e.Pushes executeSdpfx t s item) ∧
      (e.Pushes executeSdppfxrev s t item ↔ e.Pushes executeSdppfx t s item) ∧
      (e.Pushes executeSdsfxrev s t item ↔ e.Pushes executeSdsfx t s item) ∧
      (e.Pushes executeSdpsfxrev s t item ↔ e.Pushes executeSdpsfx t s item) := by
  refine ⟨fun s t => sdlexcmp_antisymm e s t, fun s t u c d => sdlexcmp_trans, ?_, fun s t => ?_,
    fun s t => holds_sdeq_iff e s t, fun s t => holds_sdpfx_iff e s t, fun s t => ?_, fun s t => ?_,
    fun s t h => ?_, fun s t => holds_sdsfx_iff e s t, fun s t => ?_, fun s t item => ?_⟩
  · simp only [List.forall_mem_cons, List.not_mem_nil, false_imp_iff, implies_true, and_true]
    exact ⟨fun s t => ⟨_, pushes_sdeq e s t⟩, fun s t => ⟨_, pushes_sdpfx e s t⟩,
      fun s t => ⟨_, pushes_sdppfx e s t⟩, fun s t => ⟨_, pushes_sdsfx e s t⟩,
      fun s t => ⟨_, pushes_sdpsfx e s t⟩⟩
  · rw [sdlexcmp_zero_iff, holds_sdeq_iff]
  · rw [holds_sdpfx_iff, holds_sdpfx_iff, holds_sdeq_iff]
    constructor
    · rintro ⟨hst, hts⟩
      exact hst.eq_of_length_le hts.length_le
    · intro heq
      rw [heq]
      exact ⟨List.prefix_rfl, List.prefix_rfl⟩
  · rw [holds_sdppfx_iff, holds_sdpfx_iff, holds_sdeq_iff]
  · obtain ⟨hstarts, hne⟩ := (holds_sdppfx_iff e s t).1 h
    rw [sdlexcmp_iff, compare_of_isPrefix hstarts hne]
    rfl
  · rw [holds_sdpsfx_iff, holds_sdsfx_iff, holds_sdeq_iff]
  · exact ⟨pushes_iff_pushes (pushes_sdpfxrev e s t) (pushes_sdpfx e t s) item,
      pushes_iff_pushes (pushes_sdppfxrev e s t) (pushes_sdppfx e t s) item,
      pushes_iff_pushes (pushes_sdsfxrev e s t) (pushes_sdsfx e t s) item,
      pushes_iff_pushes (pushes_sdpsfxrev e s t) (pushes_sdpsfx e t s) item⟩

end Engine

end Comparing

/-! ### The plain implementation -/

namespace Plain

open scoped TonVm.Plain

/-- Strings agree up to the common length, and differ after it. -/
theorem take_commonPrefixLength (left right : List Bool) :
    left.take (Slice.commonPrefixLength left right) =
      right.take (Slice.commonPrefixLength left right) ∧
    ∀ a ∈ (left.drop (Slice.commonPrefixLength left right)).head?,
      ∀ b ∈ (right.drop (Slice.commonPrefixLength left right)).head?, a ≠ b := by
  induction left generalizing right with
  | nil => simp [Slice.commonPrefixLength]
  | cons a left ih =>
    cases right with
    | nil => simp [Slice.commonPrefixLength]
    | cons b right =>
      by_cases h : a = b
      · subst h
        have hcount : Slice.commonPrefixLength (a :: left) (a :: right) =
            Slice.commonPrefixLength left right + 1 := by
          rw [Slice.commonPrefixLength, if_pos rfl, Nat.add_comm]
        obtain ⟨htake, hheads⟩ := ih right
        rw [hcount, List.take_succ_cons, List.take_succ_cons, htake]
        exact ⟨rfl, hheads⟩
      · rw [Slice.commonPrefixLength, if_neg h]
        simpa using h

theorem remainder_rest (slice : Slice) (n : Nat) (hn : n ≤ slice.bits.length) :
    Remainder (if slice.remainingBits = n then none else
      some ({ slice with start := slice.start + n } : Slice)) (slice.bits.drop n) := by
  by_cases hall : slice.bits.length = n
  · rw [Slice.remainingBits, if_pos hall]
    exact List.drop_eq_nil_of_le hall.le
  · rw [Slice.remainingBits, if_neg hall]
    refine ⟨?_, (List.drop_drop ..).symm⟩
    rw [ne_eq, List.drop_eq_nil_iff]
    omega

theorem commonPrefixLength_le (left right : List Bool) :
    Slice.commonPrefixLength left right ≤ left.length ∧
      Slice.commonPrefixLength left right ≤ right.length := by
  induction left generalizing right with
  | nil => simp [Slice.commonPrefixLength]
  | cons a left ih =>
    cases right with
    | nil => simp [Slice.commonPrefixLength]
    | cons b right =>
      have hrest := ih right
      rw [Slice.commonPrefixLength, List.length_cons, List.length_cons]
      split <;> omega

scoped instance lawfulPrefixes : LawfulPrefixes where
  remainingBits _ := rfl
  commonPrefix left right := by
    obtain ⟨htake, hheads⟩ := take_commonPrefixLength (Slice.bits left) (Slice.bits right)
    obtain ⟨hleft, hright⟩ := commonPrefixLength_le (Slice.bits left) (Slice.bits right)
    have hbits : sliceBits left = (Slice.bits left).take _ ++ (Slice.bits left).drop _ :=
      (List.take_append_drop (Slice.commonPrefixLength (Slice.bits left) (Slice.bits right)) _).symm
    have hbits' : sliceBits right = (Slice.bits right).take _ ++ (Slice.bits right).drop _ :=
      (List.take_append_drop (Slice.commonPrefixLength (Slice.bits left) (Slice.bits right)) _).symm
    rw [hbits, hbits', ← htake]
    exact .intro hheads (remainder_rest left _ hleft) (remainder_rest right _ hright)
  getNextBit slice bit bits h := by
    have hbits : Slice.bits slice = bit :: bits := h
    obtain ⟨rest, hnext, -⟩ := takes_next slice 1 (by
      show 1 ≤ (Slice.bits slice).length
      rw [hbits]
      exact Nat.succ_pos _)
    refine ⟨rest, ?_⟩
    show (do
      let (bits, slice) ← Slice.next slice 1
      return (decide (natOf bits = 1), slice)) = _
    rw [hnext, show sliceBits slice = bit :: bits from h]
    cases bit <;> rfl
  shrinkDataFrom := bits_shrinkDataFrom

end Plain

open scoped Plain in
/-- The string `1` is a proper prefix of `10`, so it comes first. -/
theorem slice_comparisons_one :
    Plain.idle.Pushes Engine.executeSdlexcmp (Plain.Slice.ofBits [true])
      (Plain.Slice.ofBits [true, false]) (.int (-1)) := by
  obtain ⟨-, -, -, -, hequal, hstarts, -, hproper, hless, -⟩ := Engine.slice_comparisons Plain.idle
  apply hless
  rw [hproper, hstarts, hequal]
  decide

end TonVm
