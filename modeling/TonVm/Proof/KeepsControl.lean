import TonVm.Proof.KeepsStorage
import TonVm.Executor.ControlFlow
import TonVm.Executor.Exceptions

/-!
# Control flow keeps the engine good

The transfer functions, the loops, the conditionals and the instructions that throw or catch.
-/

namespace TonVm

open ExecLib

variable [TonTypes] {α β : Type} {p : Policy}

namespace Engine

/-! ### Transfer functions -/

section Transfer

variable [Settles p]

set_option synthInstance.maxSize 1000000 in
instance (callee : Nat) : Keeps p (callcc callee) := by
  unfold callcc
  infer_instance

omit [Settles p] in
instance : Keeps p setReturnNargs := by
  unfold setReturnNargs
  refine ⟨.bind .get fun e he => .bind .get fun e' _ => ?_⟩
  split
  · rename_i _ _ nargs hnargs
    have : HasArity p nargs := ⟨goodArity_nargsRaw he hnargs⟩
    exact Keeps.out
  · exact Keeps.out
  · exact Keeps.out

/-- The continuation in a variable becomes the current one, with the old one as c0 unless it has its
own. -/
instance (callee : Nat) : Keeps p (enterCallee callee) := by
  unfold enterCallee
  refine ⟨fun e he => (Keeps.out e he).bind fun _ s hpop _ hs => ?_⟩
  have harity := arityAt_popAll hpop
  refine (Keeps.out (m := var callee) s hs).bind fun item t hvar hitem ht => ?_
  obtain ⟨-, rfl⟩ := exec_var_eq_ok hvar
  have : Good p item := ⟨hitem⟩
  refine (Keeps.out (m := lift item.asContinuation) t ht).bind fun cont u hcont _ hu => ?_
  obtain ⟨-, rfl⟩ := exec_lift_eq_ok hcont
  have hend : Keeps p (do applySavelist; setReturnNargs) := inferInstance
  unfold Ends
  dsimp only
  split
  · exact (ends_swap_cc hu harity).bind fun _ v _ _ hv => hend.out v hv
  · refine (Keeps.out (m := swap (Addr.ctrl 0) (Addr.savelist Addr.CC 0)) u hu).bind
      fun _ v hswap _ hv => (ends_swap_cc hv (arityAt_var_swap harity hswap)).bind fun _ w _ _ hw => ?_
    exact Maintains.after (fun _ _ => hend.out) w hw

instance (callee : Nat) (needConvert : Bool) : Keeps p (callx callee needConvert) := by
  unfold callx
  infer_instance

instance (index : Nat) (lo hi : Int) [h : HasArity p lo] : Keeps p (fetchNargs index lo hi) := by
  unfold fetchNargs
  refine ⟨.after fun item hitem => .bind (R := fun _ => True) ?_ fun x _ =>
    .bind (R := GoodArity p) ?_ fun nargs hnargs => ?_⟩
  · have : Good p item := ⟨hitem⟩
    exact (Keeps.out (p := p)).mono fun _ _ => trivial
  · cases hinto : x.into lo hi with
    | error err => exact .throw Good.out
    | ok nargs => exact .pure fun hcounted => (h.out hcounted).trans (IntegerData.into_eq_ok hinto).1
  · have : HasArity p nargs := ⟨hnargs⟩
    exact Keeps.out

instance (index : Nat) (lo hi : Int) : Keeps p (fetchPargs index lo hi) := by
  unfold fetchPargs
  infer_instance

instance (nlo nhi plo phi : Int) [HasArity p nlo] : Keeps p (fetchNargsPargs nlo nhi plo phi) := by
  unfold fetchNargsPargs
  infer_instance

instance : Keeps p jmpxdata := by
  unfold jmpxdata
  infer_instance

instance (address : Nat) [NotCc address] : Keeps p (switch address) := by
  unfold switch
  infer_instance

instance : Keeps p switchToC0 := by
  unfold switchToC0
  refine ⟨fun e he => (Keeps.out e he).bind fun _ s hpop _ hs => ?_⟩
  have harity := arityAt_popAll hpop
  unfold Ends
  rw [exec_bind_get]
  split
  · rename_i item hget
    have hitem : Good p item := ⟨good_get hs.ctrls hget⟩
    refine (Keeps.out (m := lift item.asContinuation) s hs).bind fun c0 t hc0 hgood ht => ?_
    obtain ⟨hcont, rfl⟩ := exec_lift_eq_ok hc0
    obtain rfl := asContinuation_eq_ok hcont
    have : Good p c0 := ⟨hgood⟩
    have := keeps_setCc hgood (harity c0 hget)
    exact Keeps.out t ht
  · exact Keeps.out s hs

instance : Keeps p ret := by
  unfold ret
  infer_instance

instance : Keeps p retalt := by
  unfold retalt
  infer_instance

instance (needConvert : Bool) : Keeps p (jmpx needConvert) := by
  unfold jmpx
  infer_instance

instance (index : Nat) : Keeps p (save index) := by
  unfold save
  refine ⟨.after fun creg _ => .bind .get fun e he => ?_⟩
  split
  · exact Keeps.out
  · rename_i item hitem
    have : Good p item := ⟨good_get he.ctrls hitem⟩
    exact Keeps.out

set_option synthInstance.maxSize 1000000 in
instance (v : Nat) (needToConvert : Bool) : Keeps p (setcont v needToConvert) := by
  unfold setcont
  refine ⟨.after fun _ _ => ?_⟩
  dsimp only
  split <;> exact Keeps.out

end Transfer

instance (cont : ContinuationData) [Good p cont] : Keeps p (pushContVar cont) := by
  unfold pushContVar
  infer_instance

instance (index : Nat) : Keeps p (varCode index) := by
  unfold varCode
  infer_instance

instance : Keeps p withdrawCode := by
  unfold withdrawCode
  infer_instance

instance (index : Nat) : Keeps p (repeatCounter index) := by
  unfold repeatCounter
  infer_instance

/-! ### Instructions -/

instance : Keeps p pushSelected := by
  unfold pushSelected
  infer_instance

instance (rargs : Nat) : Keeps p (returnRest rargs) := by
  unfold returnRest
  infer_instance

instance (number : Nat) (value : StackItem) [h : Good p value] :
    Good p (Error.exception (.fromNumberAndValue number value)) :=
  ⟨fun _ => h.out⟩

instance (numberIndex valueIndex : Option Nat) : Keeps p (doThrow numberIndex valueIndex) := by
  unfold doThrow
  cases numberIndex <;> cases valueIndex <;> infer_instance

instance (reverseCondition : Bool) (numberIndex valueIndex : Option Nat) :
    Keeps p (throwIf reverseCondition numberIndex valueIndex) := by
  unfold throwIf
  infer_instance

section Instructions

variable [Settles p]

instance (start stop : Int) (how : CallKind) : Keeps p (executeCall start stop how) := by
  unfold executeCall
  cases how <;> infer_instance

instance (how : UInt8) (flag other : Bool) : Keeps p (ifBranch how flag other) := by
  unfold ifBranch
  cases flag <;> cases other <;> infer_instance

section LongBodies

set_option synthInstance.maxSize 1000000

instance (how : UInt8) : Keeps p (executeIfMask how) := by
  unfold executeIfMask
  infer_instance

instance (keep : Bool) : Keeps p (initTryCatch keep) := by
  unfold initTryCatch
  infer_instance

end LongBodies

end Instructions

end Engine

end TonVm
