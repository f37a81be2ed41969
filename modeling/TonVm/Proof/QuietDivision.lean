import TonVm.Proof.Quiet
import TonVm.Executor.Handlers

/-!
# Quiet division

The division routine reads its operands one after the other and stops at the first NaN, with whatever
is left of them unread. The quiet version then has its two results, so it reads no further than the
signaling one. A remainder is smaller than its divisor and a shift is at most 256, so the check on the
remainder, which no version recovers from, always passes.
-/

namespace TonVm

open ExecLib

namespace IntegerData

/-- The value, if there is one, is in the range. -/
def Ranged (x : IntegerData) : Prop := ∀ v, x = .value v → InRange v

theorem inRange_divmod_remainder (x : Int) {d : Int} (rounding : Round) (hd : d ≠ 0)
    (hrange : d.natAbs ≤ 2 ^ 256) : InRange (divmod x d rounding).2 := by
  have hlt := (rounds_divmod x hd rounding).lt
  unfold InRange
  omega

theorem natAbs_le_of_inRange {d : Int} (h : InRange d) : d.natAbs ≤ 2 ^ 256 := by
  unfold InRange at h
  omega

end IntegerData

theorem IntegerData.ufitsIn_ok (v : Int) (length : Nat) :
    ∃ b, (IntegerData.value v).ufitsIn length = .ok b := by
  unfold IntegerData.ufitsIn
  split
  · exact ⟨_, rfl⟩
  · exact ⟨_, rfl⟩

/-- The handler of an opcode. -/
def Handlers.find {α : Type} : Handlers α → List Nat → Option α
  | .setRange table start stop handler, code =>
    if code.length = 1 ∧ start ≤ code.headD 0 ∧ code.headD 0 < stop then some handler
    else table.find code
  | .addSubset table byte subset, code =>
    if code.head? = some byte then subset.find code.tail else table.find code
  | .new, _ => none

namespace IntegerData

variable [TonTypes]

theorem overflows_divmod (x : Int) {d : Int} (rounding : Round) (hd : d ≠ 0)
    (hrange : d.natAbs ≤ 2 ^ 256) :
    Overflows constructDoubleNan
      (processDoubleResult .signaling (divmod x d rounding) constructDoubleNan)
      (processDoubleResult .quiet (divmod x d rounding) constructDoubleNan) :=
  overflows_processDoubleResult (inRange_divmod_remainder x rounding hd hrange)

theorem overflows_rshift (x : Int) {shift : Nat} (rounding : Round) (h : shift ≤ 256) :
    Overflows constructDoubleNan
      (processDoubleResult .signaling (TonVm.divByShift x shift rounding) constructDoubleNan)
      (processDoubleResult .quiet (TonVm.divByShift x shift rounding) constructDoubleNan) := by
  rw [divByShift_eq_divmod]
  refine overflows_divmod x rounding (by positivity) ?_
  rw [Int.natAbs_pow]
  exact Nat.pow_le_pow_right (by decide) h

theorem overflows_unaryProduct (x : IntegerData) (f : Int → Int) :
    Overflows none (unaryOp .signaling x f none fun result _ => .ok (some result))
      (unaryOp .quiet x f none fun result _ => .ok (some result)) :=
  overflows_unaryOp x f none fun _ => .same _ _

theorem overflows_binaryProduct (x y : IntegerData) (f : Int → Int → Int) :
    Overflows none (binaryOp .signaling x y f none fun result _ => .ok (some result))
      (binaryOp .quiet x y f none fun result _ => .ok (some result)) :=
  overflows_binaryOp x y f none fun _ _ => .same _ _

theorem overflows_div (x y : IntegerData) (rounding : Round) (hy : y.Ranged) :
    Overflows constructDoubleNan (x.div .signaling y rounding) (x.div .quiet y rounding) := by
  cases y with
  | nan => exact overflows_hook _
  | value d =>
    unfold div
    dsimp only
    split
    · exact overflows_hook _
    · exact overflows_unaryOp x _ _ fun v =>
        overflows_divmod v rounding ‹_› (natAbs_le_of_inRange (hy d rfl))

end IntegerData

namespace Engine

open IntegerData

/-! ### The operands -/

variable [TonTypes] {s : Engine} {mode : DivMode}

theorem exec_getVar_eq_ok {index : Int} {x : IntegerData} {t : Engine}
    (h : exec (getVar index) s = (.ok x, t)) : .integer x ∈ s.cmd.vars ∧ t = s := by
  unfold getVar at h
  by_cases hneg : index < 0
  · rw [if_pos hneg] at h
    cases h
  · rw [if_neg hneg] at h
    obtain ⟨item, u, hvar, hlift⟩ := exec_bind_eq_ok h
    obtain ⟨hitem, rfl⟩ := exec_var_eq_ok hvar
    obtain ⟨hx, rfl⟩ := exec_lift_eq_ok hlift
    rw [eq_integer_of_asInteger hx] at hitem
    exact ⟨List.mem_of_getElem? hitem, rfl⟩

theorem exec_getShift_eq_ok {index : Int} {p : Nat × Int} {t : Engine}
    (hlength : ∀ length, lengthRaw s.cmd = some length → length ≤ 256)
    (h : exec (getShift index) s = (.ok p, t)) : p.1 ≤ 256 ∧ t = s := by
  unfold getShift at h
  rw [exec_bind_get] at h
  split at h
  · cases h
    exact ⟨hlength _ ‹_›, rfl⟩
  · obtain ⟨x, u, hvar, hx⟩ := exec_bind_eq_ok h
    obtain ⟨-, rfl⟩ := exec_getVar_eq_ok hvar
    obtain ⟨shift, v, hlift, hp⟩ := exec_bind_eq_ok hx
    obtain ⟨hshift, rfl⟩ := exec_lift_eq_ok hlift
    cases hp
    exact ⟨intoUsize_le hshift, rfl⟩

section Avoids

instance (index : Int) : Avoids (Signals [.integerOverflow]) (getVar index) := by
  unfold getVar
  infer_instance

instance (index : Int) : Avoids (Signals [.integerOverflow]) (getShift index) := by
  have (e : Engine) : Avoids (Signals [.integerOverflow]) (match lengthRaw e.cmd with
      | some length => return (length, index)
      | none => do
        let x ← getVar index
        return (← lift (x.intoUsize 0 256), index - 1) : M (Nat × Int)) := by
    split <;> infer_instance
  unfold getShift
  infer_instance

instance (mode : DivMode) : Avoids (Signals [.integerOverflow]) (lift mode.roundingStrategy) := by
  refine avoids_lift fun failure h => ?_
  have : failure = .code .invalidOpcode := by
    unfold DivMode.roundingStrategy at h
    split at h
    · cases h
      rfl
    · split at h
      · cases h
      · split at h <;> cases h
  rw [this]
  exact not_signals_of_ne nofun nofun

instance (i n : Nat) : Avoids (Signals [.integerOverflow]) (checkIntegerVars i n) := by
  induction n generalizing i with
  | zero => exact avoids_pure ()
  | succ n ih =>
    have := ih (i + 1)
    unfold checkIntegerVars
    infer_instance

end Avoids

theorem state_of_checkIntegerVars {i n : Nat} {t : Engine}
    (h : exec (checkIntegerVars i n) s = (.ok (), t)) : t = s := by
  induction n generalizing i with
  | zero =>
    cases h
    rfl
  | succ n ih =>
    unfold checkIntegerVars at h
    obtain ⟨item, u, hvar, hitem⟩ := exec_bind_eq_ok h
    obtain ⟨-, rfl⟩ := exec_var_eq_ok hvar
    obtain ⟨x, v, hlift, hrest⟩ := exec_bind_eq_ok hitem
    obtain ⟨-, rfl⟩ := exec_lift_eq_ok hlift
    exact ih hrest

/-! ### The routine -/

/-- What a division may rely on: the variables are in the range, and so is a shift in the code. -/
structure Bounded (s : Engine) : Prop where
  vars : ∀ x, .integer x ∈ s.cmd.vars → x.Ranged
  length : ∀ length, lengthRaw s.cmd = some length → length ≤ 256

/-- Both results are NaN and nothing else has changed. -/
abbrev DoubleNan (s : Engine) (p : IntegerData × IntegerData) (t : Engine) : Prop :=
  p = constructDoubleNan ∧ t = s

/-- The division by a variable. -/
theorem recovers_divideBy (x : Int) {y : IntegerData} (rounding : Round) (hy : y.Ranged) :
    Recovers (Signals [.integerOverflow]) (DoubleNan s)
      (if y.isZero then do
        lift OperationBehavior.signaling.onIntegerOverflow
        return constructDoubleNan
      else
        lift (unaryOp .signaling y (fun y => divmod x y rounding) constructDoubleNan
          (processDoubleResult .signaling)))
      (if y.isZero then do
        lift OperationBehavior.quiet.onIntegerOverflow
        return constructDoubleNan
      else
        lift (unaryOp .quiet y (fun y => divmod x y rounding) constructDoubleNan
          (processDoubleResult .quiet))) s := by
  cases y with
  | nan => exact recovers_lift (overflows_hook _) s
  | value d =>
    by_cases hd : d = 0
    · rw [hd]
      exact recovers_lift (overflows_hook constructDoubleNan) s
    · rw [isZero_value hd, if_neg (by decide), if_neg (by decide)]
      exact recovers_lift
        (overflows_divmod x rounding hd (natAbs_le_of_inRange (hy d rfl))) s

theorem recovers_divideProduct (mode : DivMode) {y : IntegerData} (h : Bounded s) (hy : y.Ranged)
    (index : Int) (product : Option Int) :
    Recovers (Signals [.integerOverflow]) (DoubleNan s)
      (divideProduct .signaling mode y index product) (divideProduct .quiet mode y index product)
      s := by
  cases product with
  | none => exact .same (pure constructDoubleNan) s
  | some x =>
    unfold divideProduct
    refine .reading fun rounding => ?_
    split
    · refine .after fun p u hu => ?_
      obtain ⟨hshift, rfl⟩ := exec_getShift_eq_ok h.length hu
      exact recovers_lift (overflows_rshift x rounding hshift) _
    · split
      · refine .after fun z u hu => ?_
        obtain ⟨hz, rfl⟩ := exec_getVar_eq_ok hu
        exact recovers_divideBy x rounding (h.vars z hz)
      · exact recovers_divideBy x rounding hy

theorem recovers_premultipliedDivmod (h : Bounded s) (x : IntegerData) (index : Int) :
    Recovers (Signals [.integerOverflow]) (DoubleNan s)
      (premultipliedDivmod .signaling mode x index) (premultipliedDivmod .quiet mode x index) s := by
  unfold premultipliedDivmod
  refine .after fun y t ht => ?_
  obtain ⟨hvar, rfl⟩ := exec_getVar_eq_ok ht
  have hdivide (index : Int) (product : Option Int) :=
    recovers_divideProduct mode h (h.vars y hvar) index product
  -- a product that is NaN leaves nothing to divide
  have hproduct {signaling quiet : Except Failure (Option Int)} (index : Int)
      (hquiet : Overflows none signaling quiet) :
      Recovers (Signals [.integerOverflow]) (DoubleNan t)
        (lift signaling >>= divideProduct .signaling mode y index)
        (lift quiet >>= divideProduct .quiet mode y index) t := by
    refine (recovers_lift hquiet t).bind (fun product u hu => ?_) ?_
    · obtain ⟨-, rfl⟩ := exec_lift_eq_ok hu
      exact hdivide index product
    · rintro _ _ ⟨rfl, rfl⟩
      exact ⟨_, _, rfl, rfl, rfl⟩
  dsimp only
  split
  · refine .after fun p u hu => ?_
    obtain ⟨-, rfl⟩ := exec_getShift_eq_ok h.length hu
    obtain ⟨shift, index'⟩ := p
    exact hproduct index' (overflows_unaryProduct x fun x => x * 2 ^ shift)
  · exact hproduct (index - 1) (overflows_binaryProduct x y fun x y => x * y)

theorem recovers_divmodPair (h : Bounded s) (x : IntegerData) (index : Int) :
    Recovers (Signals [.integerOverflow]) (DoubleNan s) (divmodPair .signaling mode x index)
      (divmodPair .quiet mode x index) s := by
  unfold divmodPair
  split
  · exact recovers_premultipliedDivmod h x index
  · split
    · refine .after fun p t ht => ?_
      obtain ⟨hshift, rfl⟩ := exec_getShift_eq_ok h.length ht
      exact .reading fun rounding => recovers_lift
        (overflows_unaryOp x _ _ fun v => overflows_rshift v rounding hshift) t
    · refine .after fun y t ht => ?_
      obtain ⟨hvar, rfl⟩ := exec_getVar_eq_ok ht
      exact .reading fun rounding => recovers_lift (overflows_div x y rounding (h.vars y hvar)) t

/-! ### The instruction -/

/-- A mode that was loaded came with a shift of one byte, if with any. -/
theorem load_divisionMode_eq_ok {e : Engine}
    (h : exec (loadInstruction (some .divisionMode)) e = (.ok (), s)) :
    Loaded e s ∧ ∀ length, lengthRaw s.cmd = some length → length ≤ 256 := by
  unfold loadInstruction at h
  rw [exec_bind_modify] at h
  dsimp only [extractInstruction] at h
  obtain ⟨byte, t, hbyte, h⟩ := exec_bind_eq_ok h
  obtain ⟨rest, -, rfl⟩ := exec_nextCmd_eq_ok hbyte
  split at h
  · obtain ⟨shift, u, hshift, h⟩ := exec_bind_eq_ok h
    obtain ⟨rest', -, rfl⟩ := exec_nextCmd_eq_ok hshift
    cases hname : DivMode.commandName ⟨byte⟩ with
    | error failure =>
      rw [hname] at h
      cases h
    | ok _ =>
      rw [hname] at h
      cases h
      refine ⟨⟨rfl, rfl⟩, fun length hlength => ?_⟩
      cases hlength
      have := shift.toNat_lt
      omega
  · cases hname : DivMode.commandName ⟨byte⟩ with
    | error failure =>
      rw [hname] at h
      cases h
    | ok _ =>
      rw [hname] at h
      cases h
      exact ⟨⟨rfl, rfl⟩, fun length hlength => by cases hlength⟩

instance (mode : DivMode) (q r : IntegerData) :
    Avoids (Signals [.integerOverflow]) (pushResults mode q r) := by
  unfold pushResults
  infer_instance

/-- The number of results that a mode asks for. -/
def divmodResults (mode : DivMode) : Nat :=
  (if mode.needQuotient then 1 else 0) + if mode.needRemainder then 1 else 0

theorem exec_pushResults_nan (mode : DivMode) (s : Engine) :
    ∃ t, exec (pushResults mode .nan .nan) s = (.ok (), t) ∧
      t.cc.stack = s.cc.stack ++ List.replicate (divmodResults mode) (.integer .nan) := by
  unfold pushResults divmodResults
  cases mode.needQuotient <;> cases mode.needRemainder
  · exact ⟨s, rfl, (List.append_nil _).symm⟩
  · exact ⟨_, rfl, rfl⟩
  · exact ⟨_, rfl, rfl⟩
  · exact ⟨_, rfl, List.append_assoc _ _ _⟩

/-- The mode in the code, after which the operands are counted. -/
def divisionShape (e : Engine) : Nat × Nat :=
  let s := (exec (loadInstruction (some .divisionMode)) e).2
  match divisionModeRaw s.cmd with
  | some mode => (divmodArgs mode (lengthRaw s.cmd).isSome, divmodResults mode)
  | none => (0, 0)

theorem simulates_divmod {e : Engine} (h : ∀ x, .integer x ∈ e.cc.stack → x.Ranged) :
    Simulates [.integerOverflow] (divisionShape e).1 (divisionShape e).2 executeDivmod e := by
  unfold Simulates
  unfold executeDivmod
  refine .after fun _ s hs => ?_
  have hshape : divisionShape e = match divisionModeRaw s.cmd with
      | some mode => (divmodArgs mode (lengthRaw s.cmd).isSome, divmodResults mode)
      | none => (0, 0) := by
    unfold divisionShape
    rw [hs]
  obtain ⟨hloaded, hlength⟩ := load_divisionMode_eq_ok hs
  refine .after fun mode t ht => ?_
  obtain ⟨hmode, rfl⟩ := exec_param_eq_ok ht
  rw [hmode] at hshape
  rw [hshape]
  dsimp only
  split
  · exact .after fun _ u hu => by cases hu
  refine .after fun t' t'' ht => ?_
  rw [exec_get] at ht
  cases ht
  refine .after fun _ u hu => ?_
  obtain ⟨rest, args, hstack, hargs, hfetch⟩ := exec_fetchStack_eq_ok hu
  have hbounded : Bounded u := by
    rw [hfetch]
    refine ⟨fun x hx => h x ?_, hlength⟩
    rw [holding_vars, hloaded.vars, List.nil_append, List.mem_reverse] at hx
    rw [← hloaded.stack, hstack]
    exact List.mem_append_right rest hx
  refine .after fun _ v hv => ?_
  obtain rfl := state_of_checkIntegerVars hv
  refine .after fun x w hw => ?_
  obtain ⟨-, rfl⟩ := exec_getVar_eq_ok hw
  refine (recovers_divmodPair hbounded x _).before ?_
  rintro _ _ ⟨rfl, rfl⟩
  obtain ⟨t', hexec, ht'⟩ := exec_pushResults_nan mode _
  refine ⟨(), t', hexec, rest, args, hloaded.stack.symm.trans hstack, hargs, ?_⟩
  rw [ht', hfetch]
  rfl

/-! ### The instructions -/

/-- The instructions that come in a signaling and in a quiet version. -/
inductive Arithmetic where
  | add | sub | subr | negate | inc | dec | addconst | mulconst | mul | divmod
  | lshift | rshift | pow2 | and | or | xor | not | fits | ufits | fitsx | ufitsx | bitsize | ubitsize
  | min | max | minmax | abs
  | sgn | less | equal | leq | greater | neq | geq | cmp | eqint | lessint | gtint | neqint

namespace Arithmetic

def execute : Arithmetic → OperationBehavior → M Unit
  | add => executeAdd
  | sub => executeSub
  | subr => executeSubr
  | negate => executeNegate
  | inc => executeInc
  | dec => executeDec
  | addconst => executeAddconst
  | mulconst => executeMulconst
  | mul => executeMul
  | divmod => executeDivmod
  | lshift => executeLshift
  | rshift => executeRshift
  | pow2 => executePow2
  | and => executeAnd
  | or => executeOr
  | xor => executeXor
  | not => executeNot
  | fits => executeFits
  | ufits => executeUfits
  | fitsx => executeFitsx
  | ufitsx => executeUfitsx
  | bitsize => executeBitsize
  | ubitsize => executeUbitsize
  | min => executeMin
  | max => executeMax
  | minmax => executeMinmax
  | abs => executeAbs
  | sgn => executeSgn
  | less => executeLess
  | equal => executeEqual
  | leq => executeLeq
  | greater => executeGreater
  | neq => executeNeq
  | geq => executeGeq
  | cmp => executeCmp
  | eqint => executeEqint
  | lessint => executeLessint
  | gtint => executeGtint
  | neqint => executeNeqint

/-- The codes that stop the signaling version only. -/
def codes : Arithmetic → List ExceptionCode
  | ubitsize => [.integerOverflow, .rangeCheckError]
  | _ => [.integerOverflow]

instance (i : Arithmetic) : Arithmetical i.codes := by
  by_cases hi : i = ubitsize
  · rw [hi]
    exact inferInstanceAs (Arithmetical [.integerOverflow, .rangeCheckError])
  · have : i.codes = [.integerOverflow] := by
      cases i <;> first | rfl | exact absurd rfl hi
    rw [this]
    infer_instance

/-- The number of items that the instruction takes from the stack. -/
def operands (i : Arithmetic) (e : Engine) : Nat :=
  match i with
  | divmod => (divisionShape e).1
  | lshift => if e.lastCmd = 0xAC then 2 else 1
  | rshift => if e.lastCmd = 0xAD then 2 else 1
  | negate | inc | dec | addconst | mulconst | pow2 | not | fits | ufits | bitsize | ubitsize | abs
  | sgn | eqint | lessint | gtint | neqint => 1
  | _ => 2

/-- The number of items that it pushes. -/
def results (i : Arithmetic) (e : Engine) : Nat :=
  match i with
  | divmod => (divisionShape e).2
  | minmax => 2
  | _ => 1

theorem simulates (i : Arithmetic) {e : Engine} (h : ∀ x, .integer x ∈ e.cc.stack → x.Ranged) :
    Simulates i.codes (i.operands e) (i.results e) i.execute e := by
  cases i with
  | add => exact simulates_add
  | sub => exact simulates_binary fun y x => overflows_binarySingle _ x y
  | subr => exact simulates_binary fun y x => overflows_binarySingle _ y x
  | negate => exact simulates_unary fun x => overflows_unarySingle _ x
  | inc => exact simulates_unary fun x => overflows_unarySingle _ x
  | dec => exact simulates_unary fun x => overflows_unarySingle _ x
  | addconst => exact simulates_binaryWithConst fun y x => overflows_unarySingle _ x
  | mulconst => exact simulates_binaryWithConst fun y x => overflows_unarySingle _ x
  | mul => exact simulates_binary fun y x => overflows_binarySingle _ x y
  | divmod => exact simulates_divmod h
  | lshift => exact simulates_shift (fun shift v => v * 2 ^ shift) 0xAC
  | rshift => exact simulates_shift (fun shift v => v >>> shift) 0xAD
  | pow2 => exact simulates_unary overflows_pow2
  | and => exact simulates_binary fun y x => overflows_binarySingle _ x y
  | or => exact simulates_binary fun y x => overflows_binarySingle _ x y
  | xor => exact simulates_binary fun y x => overflows_binarySingle _ x y
  | not => exact simulates_unary fun x => overflows_unarySingle _ x
  | fits => exact simulates_fits fun v length => ⟨_, rfl⟩
  | ufits => exact simulates_fits ufitsIn_ok
  | fitsx => exact simulates_fitsx fun v length => ⟨_, rfl⟩
  | ufitsx => exact simulates_fitsx ufitsIn_ok
  | bitsize => exact simulates_unary overflows_bitsizeOf
  | ubitsize => exact simulates_unary quiets_ubitsizeOf
  | min => exact simulates_minmax .min
  | max => exact simulates_minmax .max
  | minmax => exact simulates_minmax .minmax
  | abs => exact simulates_abs
  | sgn => exact simulates_unary overflows_signOf
  | less => exact simulates_binary fun y x => overflows_compareRule _ x y
  | equal => exact simulates_binary fun y x => overflows_compareRule _ x y
  | leq => exact simulates_binary fun y x => overflows_compareRule _ x y
  | greater => exact simulates_binary fun y x => overflows_compareRule _ x y
  | neq => exact simulates_binary fun y x => overflows_compareRule _ x y
  | geq => exact simulates_binary fun y x => overflows_compareRule _ x y
  | cmp => exact simulates_binary fun y x => overflows_compareSign x y
  | eqint => exact simulates_binaryWithConst fun y x => overflows_compareRule _ x (.value y)
  | lessint => exact simulates_binaryWithConst fun y x => overflows_compareRule _ x (.value y)
  | gtint => exact simulates_binaryWithConst fun y x => overflows_compareRule _ x (.value y)
  | neqint => exact simulates_binaryWithConst fun y x => overflows_compareRule _ x (.value y)

/-- The opcodes, without the byte that makes them quiet. -/
def opcodes : Arithmetic → List (List Nat)
  | add => [[0xA0]]
  | sub => [[0xA1]]
  | subr => [[0xA2]]
  | negate => [[0xA3]]
  | inc => [[0xA4]]
  | dec => [[0xA5]]
  | addconst => [[0xA6]]
  | mulconst => [[0xA7]]
  | mul => [[0xA8]]
  | divmod => [[0xA9]]
  | lshift => [[0xAA], [0xAC]]
  | rshift => [[0xAB], [0xAD]]
  | pow2 => [[0xAE]]
  | and => [[0xB0]]
  | or => [[0xB1]]
  | xor => [[0xB2]]
  | not => [[0xB3]]
  | fits => [[0xB4]]
  | ufits => [[0xB5]]
  | fitsx => [[0xB6, 0x00]]
  | ufitsx => [[0xB6, 0x01]]
  | bitsize => [[0xB6, 0x02]]
  | ubitsize => [[0xB6, 0x03]]
  | min => [[0xB6, 0x08]]
  | max => [[0xB6, 0x09]]
  | minmax => [[0xB6, 0x0A]]
  | abs => [[0xB6, 0x0B]]
  | sgn => [[0xB8]]
  | less => [[0xB9]]
  | equal => [[0xBA]]
  | leq => [[0xBB]]
  | greater => [[0xBC]]
  | neq => [[0xBD]]
  | geq => [[0xBE]]
  | cmp => [[0xBF]]
  | eqint => [[0xC0]]
  | lessint => [[0xC1]]
  | gtint => [[0xC2]]
  | neqint => [[0xC3]]

theorem registered [TonBlock] (i : Arithmetic) : ∀ code ∈ i.opcodes,
    Handlers.newCodePage0.find code = some (i.execute .signaling) ∧
      Handlers.newCodePage0.find (0xB7 :: code) = some (i.execute .quiet) := by
  cases i <;> refine List.forall_mem_cons.2 ⟨⟨rfl, rfl⟩, ?_⟩
  case lshift => exact List.forall_mem_singleton.2 ⟨rfl, rfl⟩
  case rshift => exact List.forall_mem_singleton.2 ⟨rfl, rfl⟩
  all_goals exact List.forall_mem_nil _

end Arithmetic

/-- Both versions of an instruction are registered under its opcodes. From any state with integers in
the range the quiet one does what the signaling one does, has NaN for every result where that stops with
an arithmetic code, and never stops with such a code itself. -/
theorem quiet_simulates_signaling [TonBlock] (i : Arithmetic) {e : Engine}
    (h : ∀ v, .integer (.value v) ∈ e.cc.stack → InRange v) :
    (∀ code ∈ i.opcodes,
      Handlers.newCodePage0.find code = some (i.execute .signaling) ∧
        Handlers.newCodePage0.find (0xB7 :: code) = some (i.execute .quiet)) ∧
      Simulates i.codes (i.operands e) (i.results e) i.execute e ∧
      ∀ err t, exec (i.execute .quiet) e = (.error err, t) → ¬Signals i.codes err := by
  have hsimulates := i.simulates (e := e) fun x hx v hv => h v (hv ▸ hx)
  exact ⟨i.registered, hsimulates, fun _ _ => hsimulates.avoids⟩

end Engine

/-! ### A run -/

namespace Engine

open scoped Plain

/-- `QDIV` by zero leaves NaN in the place of its operands. -/
theorem quiet_simulates_signaling_zero : ∃ a t,
    exec (executeDivmod .quiet) (dividing 0x04 [1, 0]) = (.ok a, t) ∧
      LeavesNan (dividing 0x04 [1, 0]) (Arithmetic.divmod.operands (dividing 0x04 [1, 0]))
        (Arithmetic.divmod.results (dividing 0x04 [1, 0])) t := by
  have hrange (v : Int) (hv : .integer (.value v) ∈ (dividing 0x04 [1, 0]).cc.stack) : InRange v := by
    have hv' : .integer (.value v) ∈ integerItems [1, 0] := hv
    obtain ⟨w, hw, heq⟩ := List.mem_map.1 hv'
    cases heq
    unfold InRange
    rcases List.mem_pair.1 hw with rfl | rfl <;> decide
  have hfails : (exec (executeDivmod .signaling) (dividing 0x04 [1, 0])).1 =
      .error (.exception (.fromCode .integerOverflow)) := rfl
  exact (quiet_simulates_signaling .divmod hrange).2.1.recovers _ _
    (Prod.ext hfails rfl) ⟨_, List.mem_singleton.2 rfl, rfl⟩

end Engine

end TonVm
