import TonVm.Plain
import TonVm.Proof.Dispatch
import TonVm.Proof.GasLedger

/-!
# Buying gas

`GRAMTOGAS` and `BUYGAS` divide an amount of nanograms by the price of gas. A quotient that is not an
`i64` is replaced with the greatest one, also where it lies below the range. `GRAMTOGAS` answers 0 for
a negative amount before it divides; `BUYGAS` does not look at the sign.
-/

namespace TonVm

open ExecLib

namespace Engine

/-! ### The amount of gas -/

/-- The gas for an amount of nanograms. -/
def gasFor (price nanograms : Int) : Int :=
  if price = 0 then i64Max else (i64FromInt (nanograms.tdiv price)).getD i64Max

theorem i64FromInt_getD (v : Int) :
    (i64FromInt v).getD i64Max = if i64Min ≤ v then min v i64Max else i64Max := by
  unfold i64FromInt
  by_cases hlo : i64Min ≤ v
  · by_cases hhi : v ≤ i64Max
    · rw [if_pos ⟨hlo, hhi⟩, if_pos hlo, min_eq_left hhi]
      rfl
    · rw [if_neg fun h => hhi h.2, if_pos hlo, min_eq_right (by omega)]
      rfl
  · rw [if_neg fun h => hlo h.1, if_neg hlo]
    rfl

section Price

variable {price : Int}

theorem inRange_gasFor (price nanograms : Int) : InRange (gasFor price nanograms) := by
  rw [gasFor, i64FromInt_getD]
  unfold InRange i64Min i64Max
  split_ifs <;> omega

/-- From the least `i64` on, a greater amount buys more. -/
theorem gasFor_mono (hprice : 0 ≤ price) {x y : Int} (hx : i64Min ≤ x.tdiv price) (h : x ≤ y) :
    gasFor price x ≤ gasFor price y := by
  rw [gasFor, gasFor]
  split_ifs with hzero
  · exact le_rfl
  · have hmono : x.tdiv price ≤ y.tdiv price := Int.tdiv_le_tdiv (by omega) h
    rw [i64FromInt_getD, i64FromInt_getD, if_pos hx, if_pos (hx.trans hmono)]
    exact min_le_min_right _ hmono

/-- Below the least `i64` the quotient is replaced with the greatest one. -/
theorem gasFor_of_lt {x : Int} (hx : x.tdiv price < i64Min) : gasFor price x = i64Max := by
  rw [gasFor, i64FromInt_getD, if_neg (not_le.2 hx), ite_self]

theorem gasFor_zero (hprice : price ≠ 0) : gasFor price 0 = 0 := by
  rw [gasFor, if_neg hprice, Int.zero_tdiv]
  rfl

theorem i64Min_le_tdiv (hprice : 0 ≤ price) {x : Int} (hx : 0 ≤ x) : i64Min ≤ x.tdiv price :=
  le_trans (by decide) (Int.tdiv_nonneg hx hprice)

theorem gasFor_nonneg (hprice : 0 ≤ price) {x : Int} (hx : 0 ≤ x) : 0 ≤ gasFor price x := by
  rw [gasFor, i64FromInt_getD]
  have hquot : 0 ≤ x.tdiv price := Int.tdiv_nonneg hx hprice
  split_ifs
  · decide
  · exact le_min hquot (by decide)
  · decide

theorem ne_zero_of_tdiv_lt {x : Int} (hx : x.tdiv price < i64Min) : price ≠ 0 := by
  rintro rfl
  rw [Int.tdiv_zero] at hx
  exact absurd hx (by decide)

end Price

theorem gasLimit_newGasLimit_mono (gas : Gas) {x y : Int} (h : x ≤ y) :
    (gas.newGasLimit x).gasLimit ≤ (gas.newGasLimit y).gasLimit :=
  max_le_max_left _ (min_le_min_right _ h)

/-- Gas that is not a 64-bit number is the greatest one. -/
def gasOrMax (gas : Except Failure Int) : Except Failure Int :=
  match gas with
  | .ok gas => .ok gas
  | .error _ => .ok i64Max

section Instructions

variable [TonTypes] {e : Engine}

theorem gramtogas_nan (e : Engine) : gramtogas e .nan = .ok i64Max := by
  unfold gramtogas IntegerData.div
  dsimp only
  split_ifs <;> rfl

theorem gramtogas_value (hprice : Gas.IsI64 e.gas.gasPrice) (v : Int) :
    gramtogas e (.value v) = .ok (gasFor e.gas.gasPrice v) := by
  unfold gramtogas IntegerData.div gasFor
  dsimp only
  by_cases hzero : e.gas.gasPrice = 0
  · rw [if_pos hzero, if_pos hzero]
    rfl
  have hremainder : InRange (v.tmod e.gas.gasPrice) := by
    have hlt : (v.tmod e.gas.gasPrice).natAbs < e.gas.gasPrice.natAbs := by
      rw [Int.natAbs_tmod]
      exact Nat.mod_lt _ (Int.natAbs_pos.2 hzero)
    obtain ⟨hlo, hhi⟩ := hprice
    constructor <;> omega
  rw [if_neg hzero, if_neg hzero]
  dsimp only [IntegerData.unaryOp, IntegerData.processDoubleResult, divmod]
  by_cases hquotient : InRange (v.tdiv e.gas.gasPrice)
  · rw [IntegerData.ofInt_of_inRange hquotient, IntegerData.ofInt_of_inRange hremainder]
    show gasOrMax (IntegerData.takeValueOf (.value (v.tdiv e.gas.gasPrice)) i64FromInt) = _
    unfold gasOrMax IntegerData.takeValueOf
    dsimp only
    cases i64FromInt (v.tdiv e.gas.gasPrice) <;> rfl
  · obtain ⟨failure, hfail⟩ := IntegerData.ofInt_of_not_inRange hquotient
    rw [hfail]
    have hnone : i64FromInt (v.tdiv e.gas.gasPrice) = none := by
      refine if_neg fun h => hquotient ?_
      simp only [i64Min, i64Max] at h
      constructor <;> omega
    rw [hnone]
    rfl

/-! ### The instructions -/

/-- An engine with an amount of nanograms on the stack. -/
def offering (e : Engine) (nanograms : IntegerData) : Engine :=
  e.given [.integer nanograms]

/-- The engine after an instruction has taken the amount. -/
theorem exec_takeAmount {α : Type} (e : Engine) (nanograms : IntegerData) (k : IntegerData → M α) :
    exec (do
      loadInstruction
      fetchStack 1
      let nanograms ← lift (← var 0).asInteger
      k nanograms) (e.offering nanograms) =
    exec (k nanograms) (e.afterLoad.holding e.cc e.ctrls [.integer nanograms]) :=
  exec_load_fetchStack e [.integer nanograms] _

theorem exec_pushInt {cc : ContinuationData} {ctrls : SaveList} {vars : List StackItem} {v : Int}
    (h : InRange v) : exec (pushInt v) (e.holding cc ctrls vars) =
      (.ok (), e.holding { cc with stack := cc.stack ++ [.int v] } ctrls vars) := by
  unfold pushInt
  rw [StackItem.checkedInt_of_inRange h]
  rfl

theorem exec_executeGramtogas (hprice : Gas.IsI64 e.gas.gasPrice) (v : Int) :
    exec executeGramtogas (e.offering (.value v)) = (.ok (), e.afterLoad.holding
      { e.cc with stack := e.cc.stack ++ [.int (if v < 0 then 0 else gasFor e.gas.gasPrice v)] }
      e.ctrls [.integer (.value v)]) := by
  unfold executeGramtogas
  rw [exec_takeAmount]
  by_cases hneg : v < 0
  · have hisNeg : (IntegerData.value v).isNeg = true := decide_eq_true hneg
    have hrange : InRange 0 := by constructor <;> decide
    rw [if_pos hisNeg, if_pos hneg]
    exact exec_pushInt hrange
  · have hgas : gramtogas (e.afterLoad.holding e.cc e.ctrls [.integer (.value v)]) (.value v) =
        .ok (gasFor e.gas.gasPrice v) := gramtogas_value hprice v
    have hisNeg : ¬(IntegerData.value v).isNeg = true := fun h => hneg (of_decide_eq_true h)
    rw [if_neg hisNeg, if_neg hneg, exec_bind_get, hgas]
    exact exec_pushInt (inRange_gasFor _ _)

theorem exec_executeGramtogas_nan (e : Engine) : exec executeGramtogas (e.offering .nan) = (.ok (),
    e.afterLoad.holding { e.cc with stack := e.cc.stack ++ [.int i64Max] } e.ctrls
      [.integer .nan]) := by
  unfold executeGramtogas
  rw [exec_takeAmount]
  have hgas : gramtogas (e.afterLoad.holding e.cc e.ctrls [.integer .nan]) .nan = .ok i64Max :=
    gramtogas_nan _
  have hisNeg : ¬IntegerData.nan.isNeg = true := Bool.false_ne_true
  have hrange : InRange i64Max := by constructor <;> decide
  rw [if_neg hisNeg, exec_bind_get, hgas]
  exact exec_pushInt hrange

/-- `BUYGAS` for an amount that the price turns into some gas. -/
theorem exec_executeBuygas {nanograms : IntegerData} {gas : Int}
    (h : gramtogas e nanograms = .ok gas) :
    exec executeBuygas (e.offering nanograms) =
      if gas < e.afterLoad.gasUsed then
        (.error (.exception (.fromCode .outOfGas)),
          e.afterLoad.holding e.cc e.ctrls [.integer nanograms])
      else
        (.ok (), { e.afterLoad.holding e.cc e.ctrls [.integer nanograms] with
          gas := e.afterLoad.gas.newGasLimit gas }) := by
  unfold executeBuygas
  rw [exec_takeAmount]
  have hgas : gramtogas (e.afterLoad.holding e.cc e.ctrls [.integer nanograms]) nanograms =
      .ok gas := h
  rw [exec_bind_get, hgas]
  show exec (setgaslimit gas) _ = _
  unfold setgaslimit
  rw [exec_bind_get]
  by_cases hlt : gas < e.afterLoad.gasUsed
  · rw [if_pos hlt]
    exact congrArg (exec · _) (if_pos hlt)
  · rw [if_neg hlt]
    exact congrArg (exec · _) (if_neg hlt)

/-- What `GRAMTOGAS` and `BUYGAS` give for an amount: it is a number, no greater amount gets less, and
a negative amount gets no more than nothing does. -/
def BuysFairly (e : Engine) (nanograms : IntegerData) : Prop :=
  (∀ t, exec executeGramtogas (e.offering nanograms) = (.ok (), t) →
    ∃ v gas, nanograms = .value v ∧ t.cc.stack = e.cc.stack ++ [.int gas] ∧
      ∀ w ≥ v, ∀ u, exec executeGramtogas (e.offering (.value w)) = (.ok (), u) →
        ∃ gas', u.cc.stack = e.cc.stack ++ [.int gas'] ∧ gas ≤ gas') ∧
  ∀ t, exec executeBuygas (e.offering nanograms) = (.ok (), t) → ∃ v, nanograms = .value v ∧
    (∀ w ≥ v, ∀ u, exec executeBuygas (e.offering (.value w)) = (.ok (), u) →
      t.gas.gasLimit ≤ u.gas.gasLimit) ∧
    (v < 0 → ∀ gas, gramtogas e (.value 0) = .ok gas →
      t.gas.gasLimit ≤ (e.gas.newGasLimit gas).gasLimit)

theorem not_buysFairly_nan (e : Engine) : ¬BuysFairly e .nan := by
  intro h
  obtain ⟨v, _, hv, _⟩ := h.1 _ (exec_executeGramtogas_nan e)
  cases hv

/-- The limit that `BUYGAS` leaves. -/
theorem gasLimit_of_executeBuygas {nanograms : IntegerData} {gas : Int} {t : Engine}
    (h : gramtogas e nanograms = .ok gas)
    (hexec : exec executeBuygas (e.offering nanograms) = (.ok (), t)) :
    t.gas.gasLimit = (e.gas.newGasLimit gas).gasLimit := by
  rw [exec_executeBuygas h] at hexec
  split_ifs at hexec
  · cases hexec
  · cases hexec
    rfl

/-- Buying gas is fair for numbers whose quotient by the price is not below the 64-bit range, and where
no gas can be bought at all. -/
theorem buysFairly_iff (e : Engine) (hprice : 0 ≤ e.gas.gasPrice) (hprice64 : Gas.IsI64 e.gas.gasPrice)
    (hused : Gas.IsI64 e.afterLoad.gasUsed) (nanograms : IntegerData) :
    BuysFairly e nanograms ↔ ∃ v, nanograms = .value v ∧
      (i64Min ≤ v.tdiv e.gas.gasPrice ∨ e.gas.gasLimitMax ≤ 0) := by
  constructor
  · intro h
    cases nanograms with
    | nan => exact absurd h (not_buysFairly_nan e)
    | value v =>
      refine ⟨v, rfl, or_iff_not_imp_left.2 fun hlow => ?_⟩
      have hgas := gramtogas_value hprice64 v
      rw [gasFor_of_lt (not_le.1 hlow)] at hgas
      have hbuy := exec_executeBuygas hgas
      rw [if_neg (by have := hused.2; simp only [i64Max]; omega)] at hbuy
      obtain ⟨v', heq, -, hzero⟩ := h.2 _ hbuy
      cases heq
      have hprice0 := ne_zero_of_tdiv_lt (not_le.1 hlow)
      have hneg : v < 0 := by
        by_contra hnonneg
        exact hlow (i64Min_le_tdiv hprice (not_lt.1 hnonneg))
      have hle := hzero hneg 0 (by rw [gramtogas_value hprice64, gasFor_zero hprice0])
      have hle' : max 0 (min i64Max e.gas.gasLimitMax) ≤ max 0 (min 0 e.gas.gasLimitMax) := hle
      simp only [i64Max] at hle'
      omega
  · rintro ⟨v, rfl, hv⟩
    have hmono (w : Int) (hw : v ≤ w) :
        (e.gas.newGasLimit (gasFor e.gas.gasPrice v)).gasLimit ≤
          (e.gas.newGasLimit (gasFor e.gas.gasPrice w)).gasLimit := by
      rcases hv with hv | hmax
      · exact gasLimit_newGasLimit_mono _ (gasFor_mono hprice hv hw)
      · have hlimit (gas : Int) : (e.gas.newGasLimit gas).gasLimit = 0 :=
          max_eq_left ((min_le_right _ _).trans hmax)
        rw [hlimit, hlimit]
    refine ⟨fun t ht => ?_, fun t ht => ⟨v, rfl, fun w hw u hu => ?_, fun hneg gas hgas => ?_⟩⟩
    · rw [exec_executeGramtogas hprice64] at ht
      cases ht
      refine ⟨v, _, rfl, rfl, fun w hw u hu => ?_⟩
      rw [exec_executeGramtogas hprice64] at hu
      cases hu
      refine ⟨_, rfl, ?_⟩
      split_ifs with hv0 hw0 hw0
      · exact le_rfl
      · exact gasFor_nonneg hprice (not_lt.1 hw0)
      · omega
      · exact gasFor_mono hprice (i64Min_le_tdiv hprice (not_lt.1 hv0)) hw
    · rw [gasLimit_of_executeBuygas (gramtogas_value hprice64 v) ht,
        gasLimit_of_executeBuygas (gramtogas_value hprice64 w) hu]
      exact hmono w hw
    · rw [gramtogas_value hprice64] at hgas
      cases hgas
      rw [gasLimit_of_executeBuygas (gramtogas_value hprice64 v) ht]
      exact hmono 0 hneg.le

end Instructions

/-! ### A purchase on plain cells -/

section Concrete

open scoped Plain

/-- An engine at the price of 10 nanograms for a unit of gas. -/
def buyer : Engine := (withCapabilities []).setupWithLibraries (Plain.code []) none none (some .test) []

/-- An amount far below zero and a NaN buy all the gas there is; nothing buys none. -/
theorem negative_amount_buys_gas :
    (exec executeBuygas (buyer.offering (.value (-2 ^ 200)))).2.gas.gasLimit = 1000000000 ∧
      (exec executeBuygas (buyer.offering .nan)).2.gas.gasLimit = 1000000000 ∧
      (exec executeBuygas (buyer.offering (.value 0))).1 =
        .error (.exception (.fromCode .outOfGas)) ∧
      ¬BuysFairly buyer (.value (-2 ^ 200)) ∧ ¬BuysFairly buyer .nan := by
  refine ⟨by decide +kernel, by decide +kernel, rfl, fun h => ?_, not_buysFairly_nan buyer⟩
  have hok : (exec executeBuygas (buyer.offering (.value (-2 ^ 200)))).1.isOk = true := by
    decide +kernel
  obtain ⟨v, heq, -, hzero⟩ := h.2 _ (exec_eq_of_isOk hok)
  cases heq
  exact absurd (hzero (by decide) 0 rfl) (by decide +kernel)

theorem buysFairly_million : BuysFairly buyer (.value 1000000) :=
  (buysFairly_iff buyer (by decide) (by constructor <;> decide) (by constructor <;> decide) _).2
    ⟨1000000, rfl, .inl (by decide)⟩

end Concrete

end Engine

end TonVm
