import TonVm.Proof.Bytes
import TonVm.Proof.Division
import TonVm.Proof.EngineExec
import TonVm.Proof.Instruction

/-!
# The division instructions

One routine serves every mode: it takes its operands from the stack by an index that counts down, and
the product or the shifted dividend is kept in unbounded integers until the division. What it returns
is the rounded ratio and its remainder. The range is checked on the quotient first, whether the mode
asks for it or not, so a remainder that is asked for alone is refused when the quotient is too large.
-/

namespace TonVm

open ExecLib

namespace DivMode

/-- The rounding of a valid mode. -/
def rounding (mode : DivMode) : Round :=
  if mode.contains 0b00000001 then .nearest
  else if mode.contains 0b00000010 then .ceil
  else .floorToNegativeInfinity

/-- The integers that a mode takes from the stack, the deepest first: the multiplicand or the dividend,
a multiplier, a divisor, and a shift unless the instruction holds it. -/
def args (mode : DivMode) (immediate : Bool) (x y z : Int) (shift : Nat) : List Int :=
  [x] ++ (if mode.premultiply && !mode.mulByShift then [y] else []) ++
    (if !mode.divByShift then [z] else []) ++
    (if (mode.mulByShift || mode.divByShift) && !immediate then [(shift : Int)] else [])

def dividend (mode : DivMode) (x y : Int) (shift : Nat) : Int :=
  if mode.mulByShift then x * 2 ^ shift else if mode.premultiply then x * y else x

def divisor (mode : DivMode) (z : Int) (shift : Nat) : Int :=
  if mode.divByShift then 2 ^ shift else z

/-- The exact ratio, rounded as the mode says. -/
def quotient (mode : DivMode) (x y z : Int) (shift : Nat) : Int :=
  mode.rounding.apply ((mode.dividend x y shift : ℚ) / mode.divisor z shift)

def remainder (mode : DivMode) (x y z : Int) (shift : Nat) : Int :=
  mode.dividend x y shift - mode.quotient x y z shift * mode.divisor z shift

/-- What a mode asks for, the quotient first. -/
def requested (mode : DivMode) (x y z : Int) (shift : Nat) : List Int :=
  (if mode.needQuotient then [mode.quotient x y z shift] else []) ++
    if mode.needRemainder then [mode.remainder x y z shift] else []

variable {mode : DivMode}

theorem isValid_iff : mode.isValid = true ↔
    mode.contains 0b01100000 = false ∧ mode.contains 0b00000011 = false ∧
      (mode.needQuotient = true ∨ mode.needRemainder = true) ∧
      (mode.contains 0b01000000 = false ∨ mode.premultiply = true) ∧
      (mode.shiftParameter = false ∨ mode.mulByShift = true ∨ mode.divByShift = true) := by
  simp only [isValid, Bool.and_eq_true, Bool.or_eq_true, Bool.not_eq_true', and_assoc, or_assoc]

theorem roundingStrategy_of_isValid (h : mode.isValid = true) :
    mode.roundingStrategy = .ok mode.rounding := by
  have hboth := (isValid_iff.1 h).2.1
  rw [roundingStrategy, rounding, hboth, if_neg (by decide)]
  split
  · rfl
  · split <;> rfl

theorem commandName_of_isValid (h : mode.isValid = true) : mode.commandName = .ok () := by
  rw [commandName, h, if_neg (by decide), roundingStrategy_of_isValid h]
  rfl

/-- A valid mode replaces at most one of the operations by a shift, and the multiplication only where
there is one. -/
theorem shifts_of_isValid (h : mode.isValid = true) :
    (mode.mulByShift = true → mode.premultiply = true) ∧
      (mode.mulByShift = true → mode.divByShift = false) ∧
      (mode.shiftParameter = true → mode.mulByShift = true ∨ mode.divByShift = true) := by
  obtain ⟨flags⟩ := mode
  revert flags
  exact forall_byte (by decide +kernel)

section Results

variable {x y z : Int} {shift : Nat}

theorem divisor_ne_zero (mode : DivMode) (shift : Nat) (hz : z ≠ 0) : mode.divisor z shift ≠ 0 := by
  unfold divisor
  split
  · positivity
  · exact hz

theorem divmod_eq (mode : DivMode) (x y : Int) (shift : Nat) (hz : z ≠ 0) :
    divmod (mode.dividend x y shift) (mode.divisor z shift) mode.rounding =
      (mode.quotient x y z shift, mode.remainder x y z shift) := by
  have hrounds := rounds_divmod (mode.dividend x y shift) (divisor_ne_zero mode shift hz) mode.rounding
  have hquotient : (divmod (mode.dividend x y shift) (mode.divisor z shift) mode.rounding).1 =
      mode.quotient x y z shift := hrounds.quotient
  have heq := hrounds.eq
  rw [hquotient] at heq
  refine Prod.ext hquotient ?_
  change _ = mode.dividend x y shift - mode.quotient x y z shift * mode.divisor z shift
  omega

/-- A remainder is smaller than the divisor, so it always has its place in the range. -/
theorem inRange_remainder (hz : z ≠ 0) (hrange : InRange z) (hshift : shift ≤ 256) :
    InRange (mode.remainder x y z shift) := by
  have hdivisor : (mode.divisor z shift).natAbs ≤ 2 ^ 256 := by
    unfold divisor
    split
    · rw [Int.natAbs_pow]
      exact Nat.pow_le_pow_right (by decide) hshift
    · unfold InRange at hrange
      omega
  have hlt := (rounds_divmod (mode.dividend x y shift) (divisor_ne_zero mode shift hz) mode.rounding).lt
  rw [divmod_eq mode x y shift hz] at hlt
  dsimp only at hlt
  unfold InRange
  omega

end Results

end DivMode

namespace IntegerData

theorem processDoubleResult_of_inRange {T : OperationBehavior} {q r : Int} (hq : InRange q)
    (hr : InRange r) :
    processDoubleResult T (q, r) constructDoubleNan =
      .ok (.value q, .value r) := by
  have hq' : ofInt q = .ok (.value q) := if_pos ((checkOverflow_iff q).2 hq)
  have hr' : ofInt r = .ok (.value r) := if_pos ((checkOverflow_iff r).2 hr)
  rw [processDoubleResult, hq', hr']
  rfl

theorem processDoubleResult_of_overflow {q r : Int} (hq : ¬InRange q) :
    processDoubleResult .signaling (q, r) constructDoubleNan =
      .error (.code .integerOverflow) := by
  have hq' : ofInt q = .error (.code .integerOverflow) :=
    if_neg fun h => hq ((checkOverflow_iff q).1 h)
  rw [processDoubleResult, hq']
  rfl

theorem isZero_value {v : Int} (hv : v ≠ 0) : (value v).isZero = false := decide_eq_false hv

end IntegerData

namespace Engine

theorem length_args {mode : DivMode} {x y z : Int} {shift : Nat} {immediate : Option Nat}
    (hvalid : mode.isValid = true)
    (himm : immediate.isSome = true → mode.mulByShift = true ∨ mode.divByShift = true) :
    (mode.args immediate.isSome x y z shift).length = divmodArgs mode immediate.isSome := by
  obtain ⟨hpre, hnot, -⟩ := DivMode.shifts_of_isValid hvalid
  unfold DivMode.args divmodArgs
  revert himm hpre hnot
  generalize immediate.isSome = i
  cases mode.premultiply <;> cases mode.mulByShift <;> cases mode.divByShift <;> cases i <;> simp

variable [TonTypes]

/-! ### The mode in the code -/

/-- The code goes on with a mode byte and, where the mode says so, with a byte for the shift. -/
def ReadsMode (code : SliceData) (mode : DivMode) (immediate : Option Nat) : Prop :=
  ∃ rest, TonTypes.getNextByte code = .ok (mode.flags, rest) ∧
    if mode.shiftParameter then
      ∃ (byte : UInt8) (rest' : SliceData), TonTypes.getNextByte rest = .ok (byte, rest') ∧
        immediate = some (byte.toNat + 1)
    else immediate = none

theorem exec_nextCmd (e : Engine) {byte : UInt8} {rest : SliceData}
    (h : TonTypes.getNextByte e.cc.code = .ok (byte, rest)) :
    exec nextCmd e = (.ok byte, { e with cc.code := rest, lastCmd := byte }) := by
  unfold nextCmd
  rw [exec_bind_get, h]
  rfl

theorem exec_load_divisionMode {e : Engine} {mode : DivMode} {immediate : Option Nat}
    (hmode : mode.isValid = true) (h : ReadsMode e.cc.code mode immediate) :
    ∃ s, exec (loadInstruction (some .divisionMode)) e = (.ok (), s) ∧ Loaded e s ∧
      divisionModeRaw s.cmd = some mode ∧ lengthRaw s.cmd = immediate := by
  obtain ⟨rest, hbyte, hshift⟩ := h
  have hname := DivMode.commandName_of_isValid hmode
  unfold loadInstruction
  rw [exec_bind_modify]
  generalize hs : { e with cmd := {}, step := e.step + 1 } = s
  have hcode : TonTypes.getNextByte s.cc.code = .ok (mode.flags, rest) := by
    rw [← hs]
    exact hbyte
  dsimp only [extractInstruction]
  rw [exec_bind_ok (exec_nextCmd s hcode)]
  by_cases hparam : mode.shiftParameter = true
  · rw [if_pos hparam] at hshift
    obtain ⟨byte, rest', hnext, rfl⟩ := hshift
    have hlength := exec_nextCmd { s with cc.code := rest, lastCmd := mode.flags } hnext
    rw [if_pos hparam, exec_bind_ok hlength, hname]
    subst hs
    exact ⟨_, rfl, ⟨rfl, rfl⟩, rfl, rfl⟩
  · rw [if_neg hparam] at hshift
    rw [if_neg hparam, hshift, hname]
    subst hs
    exact ⟨_, rfl, ⟨rfl, rfl⟩, rfl, rfl⟩

/-! ### The operands -/

section Operands

variable {T : OperationBehavior} {s : Engine} {mode : DivMode} {x y z : Int} {shift : Nat}

def integerItems (values : List Int) : Stack := values.map fun v => .integer (.value v)

/-- The index counts down from the deepest operand. -/
theorem exec_getVar {values : List Int} {j : Nat} {v : Int}
    (hvars : s.cmd.vars = (integerItems values).reverse) (hj : values[j]? = some v) :
    exec (getVar (values.length - 1 - j)) s = (.ok (.value v), s) := by
  have hlt : j < values.length := (List.getElem?_eq_some_iff.1 hj).1
  have hindex : ((values.length : Int) - 1 - j).toNat = values.length - 1 - j := by omega
  have hitem : s.cmd.vars[values.length - 1 - j]? = some (.integer (.value v)) := by
    have hlen : (integerItems values).length = values.length := List.length_map _
    rw [hvars, List.getElem?_reverse (by omega), hlen, integerItems, List.getElem?_map]
    have hback : values.length - 1 - (values.length - 1 - j) = j := by omega
    rw [hback, hj]
    rfl
  have hvar : exec (var (values.length - 1 - j)) s = (.ok (.integer (.value v)), s) := by
    unfold var
    rw [exec_bind_get, hitem]
    rfl
  unfold getVar
  rw [if_neg (by omega), hindex]
  exact exec_bind_ok hvar

/-- The shift is in the instruction, or else it is an operand. -/
theorem exec_getShift {values : List Int} {j : Nat}
    (hvars : s.cmd.vars = (integerItems values).reverse) (hshift : shift ≤ 256)
    (h : lengthRaw s.cmd = some shift ∨ lengthRaw s.cmd = none ∧ values[j]? = some (shift : Int)) :
    ∃ index, exec (getShift (values.length - 1 - j)) s = (.ok (shift, index), s) := by
  unfold getShift
  rw [exec_bind_get]
  rcases h with h | ⟨h, hj⟩
  · rw [h]
    exact ⟨_, rfl⟩
  · have hinto : (IntegerData.value shift).intoUsize 0 256 = .ok shift :=
      IntegerData.intoUsize_natCast (by omega)
    rw [h, exec_bind_ok (exec_getVar hvars hj), hinto]
    exact ⟨_, rfl⟩

/-- The division of unbounded integers that an instruction ends in. -/
abbrev divides (T : OperationBehavior) (mode : DivMode) (dividend divisor : Int) :
    Except Failure (IntegerData × IntegerData) :=
  IntegerData.processDoubleResult T (divmod dividend divisor mode.rounding)
    IntegerData.constructDoubleNan

theorem exec_lshiftDiv {index : Int} (hvalid : mode.isValid = true) (hmul : mode.mulByShift = true)
    (hz : z ≠ 0) (hdivisor : exec (getVar index) s = (.ok (.value z), s))
    (hshift : ∃ j, exec (getShift (index - 1)) s = (.ok (shift, j), s)) :
    exec (premultipliedDivmod T mode (.value x) index) s =
      exec (lift (divides T mode (x * 2 ^ shift) z)) s := by
  obtain ⟨j, hshift⟩ := hshift
  have hdiv := (DivMode.shifts_of_isValid hvalid).2.1 hmul
  have hstrategy := DivMode.roundingStrategy_of_isValid hvalid
  unfold premultipliedDivmod divideProduct
  rw [exec_bind_ok hdivisor]
  dsimp only
  rw [hmul, if_pos rfl, exec_bind_ok hshift]
  simp only [IntegerData.unaryOp, lift_ok, pure_bind, hstrategy, hdiv, IntegerData.isZero_value hz,
    Bool.false_eq_true, Bool.not_true, if_false, divides]

theorem exec_mulDiv {index : Int} (hvalid : mode.isValid = true) (hmul : mode.mulByShift = false)
    (hdiv : mode.divByShift = false) (hz : z ≠ 0)
    (hmultiplier : exec (getVar index) s = (.ok (.value y), s))
    (hdivisor : exec (getVar (index - 1)) s = (.ok (.value z), s)) :
    exec (premultipliedDivmod T mode (.value x) index) s =
      exec (lift (divides T mode (x * y) z)) s := by
  have hstrategy := DivMode.roundingStrategy_of_isValid hvalid
  unfold premultipliedDivmod divideProduct
  rw [exec_bind_ok hmultiplier]
  dsimp only
  simp only [IntegerData.binaryOp, hmul, lift_ok, pure_bind, hstrategy, hdiv, Bool.false_eq_true,
    Bool.not_false, if_false, if_true]
  rw [exec_bind_ok hdivisor, IntegerData.isZero_value hz]
  rfl

theorem exec_mulRshift {index : Int} (hvalid : mode.isValid = true) (hmul : mode.mulByShift = false)
    (hdiv : mode.divByShift = true) (hmultiplier : exec (getVar index) s = (.ok (.value y), s))
    (hshift : ∃ j, exec (getShift (index - 1)) s = (.ok (shift, j), s)) :
    exec (premultipliedDivmod T mode (.value x) index) s =
      exec (lift (divides T mode (x * y) (2 ^ shift))) s := by
  obtain ⟨j, hshift⟩ := hshift
  have hstrategy := DivMode.roundingStrategy_of_isValid hvalid
  unfold premultipliedDivmod divideProduct
  rw [exec_bind_ok hmultiplier]
  dsimp only
  simp only [IntegerData.binaryOp, hmul, lift_ok, pure_bind, hstrategy, hdiv, Bool.false_eq_true,
    if_false, if_true]
  rw [exec_bind_ok hshift, divByShift_eq_divmod]

variable {immediate : Option Nat}

/-- The operands lie where the index finds them, and the ratio is that of the unbounded integers. -/
theorem exec_divmodPair (hvalid : mode.isValid = true) (hshift : shift ≤ 256) (hz : z ≠ 0)
    (hlength : lengthRaw s.cmd = immediate) (himm : immediate = none ∨ immediate = some shift)
    (hvars : s.cmd.vars = (integerItems (mode.args immediate.isSome x y z shift)).reverse) :
    exec (divmodPair T mode (.value x)
        ((mode.args immediate.isSome x y z shift).length - 1 - (1 : Nat))) s =
      exec (lift (divides T mode (mode.dividend x y shift) (mode.divisor z shift))) s := by
  obtain ⟨hpre, hnot, -⟩ := DivMode.shifts_of_isValid hvalid
  have hstrategy := DivMode.roundingStrategy_of_isValid hvalid
  -- the shift, where there is one, is the operand after `j` others
  have hsh (j : Nat) (hj : immediate = none →
      (mode.args false x y z shift)[j]? = some (shift : Int)) :
      ∃ index, exec (getShift ((mode.args immediate.isSome x y z shift).length - 1 - j)) s =
        (.ok (shift, index), s) := by
    refine exec_getShift hvars hshift ?_
    rcases himm with rfl | rfl
    · exact .inr ⟨hlength, hj rfl⟩
    · exact .inl hlength
  have hstep (n : Int) : n - 1 - (1 : Nat) - 1 = n - 1 - (2 : Nat) := by omega
  unfold divmodPair DivMode.dividend DivMode.divisor
  cases hp : mode.premultiply with
  | false =>
    have hmul : mode.mulByShift = false := by
      by_contra h
      exact absurd (hpre (by simpa using h)) (by simp [hp])
    cases hdiv : mode.divByShift with
    | false =>
      have hdivisor := exec_getVar (j := 1) (v := z) hvars (by simp [DivMode.args, hp, hmul, hdiv])
      simp only [Bool.false_eq_true, if_false, hmul]
      rw [exec_bind_ok hdivisor, hstrategy, lift_ok, pure_bind, IntegerData.div, if_neg hz]
      rfl
    | true =>
      obtain ⟨index, hget⟩ := hsh 1 fun _ => by simp [DivMode.args, hp, hmul, hdiv]
      simp only [Bool.false_eq_true, if_false, if_true, hmul]
      rw [exec_bind_ok hget, hstrategy, lift_ok, pure_bind, IntegerData.divByShift, divides,
        ← divByShift_eq_divmod]
      rfl
  | true =>
    rw [if_pos rfl]
    cases hmul : mode.mulByShift with
    | true =>
      have hdiv := hnot hmul
      have hdivisor := exec_getVar (j := 1) (v := z) hvars (by simp [DivMode.args, hp, hmul, hdiv])
      have hget := hsh 2 fun _ => by simp [DivMode.args, hp, hmul, hdiv]
      rw [← hstep] at hget
      rw [if_pos rfl, if_neg (by simp [hdiv]), exec_lshiftDiv hvalid hmul hz hdivisor hget]
    | false =>
      have hmultiplier := exec_getVar (j := 1) (v := y) hvars (by simp [DivMode.args, hp, hmul])
      rw [if_neg (by decide), if_pos rfl]
      cases hdiv : mode.divByShift with
      | false =>
        have hdivisor := exec_getVar (j := 2) (v := z) hvars
          (by simp [DivMode.args, hp, hmul, hdiv])
        rw [← hstep] at hdivisor
        rw [if_neg (by decide), exec_mulDiv hvalid hmul hdiv hz hmultiplier hdivisor]
      | true =>
        have hget := hsh 2 fun _ => by simp [DivMode.args, hp, hmul, hdiv]
        rw [← hstep] at hget
        rw [if_pos rfl, exec_mulRshift hvalid hmul hdiv hmultiplier hget]

end Operands

/-! ### The instruction -/

section Instruction

variable {T : OperationBehavior} {e : Engine} {mode : DivMode} {x y z : Int} {shift : Nat}
  {immediate : Option Nat} {rest : Stack}

theorem exec_checkIntegerVars {s : Engine} (h : ∀ item ∈ s.cmd.vars, ∃ v, item = .integer v)
    (i n : Nat) (hn : i + n ≤ s.cmd.vars.length) : exec (checkIntegerVars i n) s = (.ok (), s) := by
  induction n generalizing i with
  | zero => rfl
  | succ n ih =>
    have hlt : i < s.cmd.vars.length := by omega
    obtain ⟨v, hv⟩ := h _ (List.getElem_mem hlt)
    have hvar : exec (var i) s = (.ok (.integer v), s) := by
      unfold var
      rw [exec_bind_get, List.getElem?_eq_getElem hlt, hv]
      rfl
    rw [checkIntegerVars, exec_bind_ok hvar]
    exact ih (i + 1) (by omega)

/-- The operands of a division lie on the stack, in the range and with a divisor that is not zero. -/
structure Divides (e : Engine) (mode : DivMode) (immediate : Option Nat) (rest : Stack)
    (x y z : Int) (shift : Nat) : Prop where
  valid : mode.isValid = true
  reads : ReadsMode e.cc.code mode immediate
  agrees : immediate = none ∨ immediate = some shift
  stack : e.cc.stack = rest ++ integerItems (mode.args immediate.isSome x y z shift)
  shift : shift ≤ 256
  divisor : z ≠ 0
  inRange : InRange x ∧ InRange y ∧ InRange z

theorem exec_executeDivmod (h : Divides e mode immediate rest x y z shift) :
    ∃ s, s.cc.stack = rest ∧
      exec (executeDivmod T) e = exec (do
        let (q, r) ← lift (divides T mode (mode.dividend x y shift) (mode.divisor z shift))
        pushResults mode q r) s := by
  obtain ⟨s, hload, hs, hmode, hlength⟩ := exec_load_divisionMode h.valid h.reads
  have himm : immediate.isSome = true → mode.mulByShift = true ∨ mode.divByShift = true := by
    intro hsome
    obtain ⟨_, _, hparam⟩ := h.reads
    split at hparam
    · rename_i hp
      exact (DivMode.shifts_of_isValid h.valid).2.2 hp
    · rw [hparam] at hsome
      exact absurd hsome (by decide)
  have hargs : (integerItems (mode.args immediate.isSome x y z shift)).length =
      divmodArgs mode immediate.isSome := (List.length_map _).trans (length_args h.valid himm)
  have hfetch := hs.exec_fetchStack _ h.stack
  rw [hargs] at hfetch
  refine ⟨s.holding { s.cc with stack := rest } s.ctrls
    (integerItems (mode.args immediate.isSome x y z shift)).reverse, rfl, ?_⟩
  generalize hs' : s.holding { s.cc with stack := rest } s.ctrls
    (integerItems (mode.args immediate.isSome x y z shift)).reverse = s' at *
  have hvars : s'.cmd.vars = (integerItems (mode.args immediate.isSome x y z shift)).reverse := by
    rw [← hs']
    rfl
  have hlength' : lengthRaw s'.cmd = immediate := by
    rw [← hs']
    exact hlength
  have hparam : exec (param divisionModeRaw) s = (.ok mode, s) := by
    unfold param
    rw [exec_bind_get, hmode]
    rfl
  have hcheck : exec (checkIntegerVars 0 (divmodArgs mode immediate.isSome)) s' = (.ok (), s') := by
    apply exec_checkIntegerVars
    · intro item hitem
      rw [hvars, List.mem_reverse] at hitem
      obtain ⟨v, -, rfl⟩ := List.mem_map.1 hitem
      exact ⟨_, rfl⟩
    · rw [hvars, List.length_reverse, hargs, zero_add]
  unfold executeDivmod
  rw [exec_bind_ok hload, exec_bind_ok hparam]
  dsimp only
  refine (exec_ite _ _ _ _).trans ((if_neg (by simp [h.valid])).trans ?_)
  rw [exec_bind_get, hlength, exec_bind_ok hfetch, exec_bind_ok hcheck]
  have hvalues : ((mode.args immediate.isSome x y z shift).length : Int) =
      divmodArgs mode immediate.isSome := by exact_mod_cast length_args h.valid himm
  have hfirst := exec_getVar (j := 0) (v := x) hvars rfl
  have hpair := exec_divmodPair (T := T) h.valid h.shift h.divisor hlength' h.agrees hvars
  rw [hvalues] at hfirst hpair
  rw [Int.natCast_zero, sub_zero] at hfirst
  rw [exec_bind_ok hfirst]
  rw [Int.natCast_one] at hpair
  rw [exec_bind, hpair, ← exec_bind]

theorem exec_pushResults (mode : DivMode) (q r : Int) (s : Engine) :
    ∃ t, exec (pushResults mode (.value q) (.value r)) s = (.ok (), t) ∧
      t.cc.stack = s.cc.stack ++ integerItems ((if mode.needQuotient then [q] else []) ++
        if mode.needRemainder then [r] else []) := by
  unfold pushResults
  cases mode.needQuotient <;> cases mode.needRemainder
  · exact ⟨s, rfl, (List.append_nil _).symm⟩
  · exact ⟨_, rfl, rfl⟩
  · exact ⟨_, rfl, rfl⟩
  · exact ⟨_, rfl, List.append_assoc _ _ _⟩

/-- The signaling instruction pushes the results that it is asked for when they all lie in the range,
and raises an overflow when one does not. -/
structure Meets (e : Engine) (rest : Stack) (results : List Int) : Prop where
  pushes : (∀ v ∈ results, InRange v) →
    ∃ t, exec (executeDivmod .signaling) e = (.ok (), t) ∧ t.cc.stack = rest ++ integerItems results
  raises : (∃ v ∈ results, ¬InRange v) →
    ∃ t, exec (executeDivmod .signaling) e =
      (.error (.exception (.fromCode .integerOverflow)), t)

/-- A division does what its mode says exactly when the mode asks for the quotient or the quotient
lies in the range. -/
theorem divmod_meets_iff (h : Divides e mode immediate rest x y z shift) :
    Meets e rest (mode.requested x y z shift) ↔
      (mode.needQuotient = true ∨ InRange (mode.quotient x y z shift)) := by
  obtain ⟨s, hstack, hexec⟩ := exec_executeDivmod (T := .signaling) h
  have hremainder : InRange (mode.remainder x y z shift) :=
    DivMode.inRange_remainder h.divisor h.inRange.2.2 h.shift
  rw [divides, DivMode.divmod_eq mode x y shift h.divisor] at hexec
  have hmem (v : Int) (hv : v ∈ mode.requested x y z shift) :
      v = mode.quotient x y z shift ∧ mode.needQuotient = true ∨
        v = mode.remainder x y z shift := by
    unfold DivMode.requested at hv
    rcases List.mem_append.1 hv with hv | hv
    · split at hv
      · rename_i hneed
        exact .inl ⟨List.mem_singleton.1 hv, hneed⟩
      · exact absurd hv (List.not_mem_nil)
    · split at hv
      · exact .inr (List.mem_singleton.1 hv)
      · exact absurd hv (List.not_mem_nil)
  by_cases hquotient : InRange (mode.quotient x y z shift)
  · rw [IntegerData.processDoubleResult_of_inRange hquotient hremainder, lift_ok, pure_bind] at hexec
    refine iff_of_true ⟨fun _ => ?_, ?_⟩ (.inr hquotient)
    · obtain ⟨t, hpush, ht⟩ := exec_pushResults mode (mode.quotient x y z shift)
        (mode.remainder x y z shift) s
      rw [hstack] at ht
      exact ⟨t, hexec.trans hpush, ht⟩
    · rintro ⟨v, hv, hnot⟩
      rcases hmem v hv with ⟨rfl, -⟩ | rfl
      · exact absurd hquotient hnot
      · exact absurd hremainder hnot
  · rw [IntegerData.processDoubleResult_of_overflow hquotient, lift_error, exec_bind_throw] at hexec
    constructor
    · intro hmeets
      by_contra hneed
      have hneed' : mode.needQuotient = false := by
        by_contra hne
        exact hneed (.inl (by simpa using hne))
      obtain ⟨t, hok, -⟩ := hmeets.pushes fun v hv => by
        rcases hmem v hv with ⟨-, hne⟩ | rfl
        · exact absurd hne (by simp [hneed'])
        · exact hremainder
      rw [hexec] at hok
      exact absurd (congrArg Prod.fst hok) nofun
    · intro hneed
      have hneed' : mode.needQuotient = true := hneed.resolve_right hquotient
      have hasked : mode.quotient x y z shift ∈ mode.requested x y z shift := by
        simp [DivMode.requested, hneed']
      exact ⟨fun hall => absurd (hall _ hasked) hquotient, fun _ => ⟨s, hexec⟩⟩

end Instruction

end Engine

/-! ### Runs -/

namespace Engine

open scoped Plain

/-- An engine before the mode byte of a division, with its operands on the stack. -/
def dividing (flags : UInt8) (values : List Int) : Engine :=
  (withCapabilities []).setupWithLibraries (Plain.code [flags]) none
    (some (integerItems values)) none []

/-- `MULDIVMODR`, with a product of more than 257 bits. -/
theorem divmod_meets_iff_large :
    Meets (dividing 0x8D [2 ^ 200, -(2 ^ 200), 2 ^ 199]) []
      (DivMode.requested ⟨0x8D⟩ (2 ^ 200) (-(2 ^ 200)) (2 ^ 199) 0) :=
  have h : Divides (dividing 0x8D [2 ^ 200, -(2 ^ 200), 2 ^ 199]) ⟨0x8D⟩ none []
      (2 ^ 200) (-(2 ^ 200)) (2 ^ 199) 0 :=
    { valid := by decide
      reads := ⟨_, rfl, rfl⟩
      agrees := .inl rfl
      stack := rfl
      shift := by decide
      divisor := by decide
      inRange := by unfold InRange; decide }
  (divmod_meets_iff h).2 (.inl (by decide))

/-- `MULMOD` raises an overflow for a remainder of 2. -/
theorem mulmod_overflow :
    DivMode.requested ⟨0x88⟩ (2 ^ 200) (2 ^ 200) 7 0 = [2] ∧ InRange 2 ∧
      (exec (executeDivmod .signaling) (dividing 0x88 [2 ^ 200, 2 ^ 200, 7])).1 =
        .error (.exception (.fromCode .integerOverflow)) := by
  have h : Divides (dividing 0x88 [2 ^ 200, 2 ^ 200, 7]) ⟨0x88⟩ none [] (2 ^ 200) (2 ^ 200) 7 0 :=
    { valid := by decide
      reads := ⟨_, rfl, rfl⟩
      agrees := .inl rfl
      stack := rfl
      shift := by decide
      divisor := by decide
      inRange := by unfold InRange; decide }
  have hpair : divmod (2 ^ 200 * 2 ^ 200) 7 .floorToNegativeInfinity = (2 ^ 200 * 2 ^ 200 / 7, 2) := by
    decide +kernel
  have hremainder : DivMode.remainder ⟨0x88⟩ (2 ^ 200) (2 ^ 200) 7 0 = 2 :=
    congrArg Prod.snd
      ((DivMode.divmod_eq ⟨0x88⟩ (2 ^ 200) (2 ^ 200) 0 (by decide)).symm.trans hpair)
  have hquotient : ¬InRange (2 ^ 200 * 2 ^ 200 / 7) := by
    unfold InRange
    decide
  obtain ⟨s, -, hexec⟩ := exec_executeDivmod (T := .signaling) h
  have hdivides : divides .signaling ⟨0x88⟩ (2 ^ 200 * 2 ^ 200) 7 =
      .error (.code .integerOverflow) := by
    change IntegerData.processDoubleResult _ (divmod _ 7 .floorToNegativeInfinity) _ = _
    rw [hpair, IntegerData.processDoubleResult_of_overflow hquotient]
  refine ⟨congrArg (fun r => [r]) hremainder, by unfold InRange; decide, ?_⟩
  rw [hexec]
  change (exec (lift (divides .signaling ⟨0x88⟩ (2 ^ 200 * 2 ^ 200) 7) >>= _) s).1 = _
  rw [hdivides]
  rfl

end Engine

end TonVm
