import TonVm.Executor.Blockchain

/-!
# Elections

`calculate_elections` finds how many of the largest stakes to accept and computes the new validator
set, the frozen stakes and the credits to be returned. Three things are left open that the source leaves
to its surroundings: what an overflow of its own `u128` and `u64` arithmetic does, which is a panic
unless the build wraps; the operators of `Grams`, a type of another package; and how an error that the
function reports is told from the others. `calculateElections` is the build that wraps.
-/

namespace TonVm

open ExecLib

/-! ### Arithmetic of amounts -/

def u128 (n : Nat) : Nat := n % 2 ^ 128

/-- Subtraction of `u128` values. -/
def u128Sub (a b : Nat) : Nat := (a + 2 ^ 128 - b) % 2 ^ 128

/-- The operators of `Grams` on the numbers that amounts hold. -/
structure GramsOps where
  add : Nat → Nat → Except Failure Nat
  sub : Nat → Nat → Except Failure Nat
  mul : Nat → Nat → Except Failure Nat
  shr : Nat → Nat → Except Failure Nat

/-- What an operation on machine integers does when its result does not fit. -/
inductive Overflow where
  | wrap
  | panic
  deriving DecidableEq

namespace Overflow

/-- A sum or a product of `u128` values. -/
def u128 : Overflow → Nat → Except Failure Nat
  | wrap, n => .ok (TonVm.u128 n)
  | panic, n => if n < 2 ^ 128 then .ok n else .error .panic

/-- A sum of `u64` values. -/
def u64 : Overflow → Nat → Except Failure Nat
  | wrap, n => .ok (n % 2 ^ 64)
  | panic, n => if n < 2 ^ 64 then .ok n else .error .panic

/-- A difference of `u128` values. -/
def sub : Overflow → Nat → Nat → Except Failure Nat
  | wrap, a, b => .ok (u128Sub a b)
  | panic, a, b => if b ≤ a then .ok (a - b) else .error .panic

/-- Operators of `Grams` that are those of `u128`. -/
def grams (mode : Overflow) : GramsOps where
  add a b := mode.u128 (a + b)
  sub a b := mode.sub a b
  mul a b := mode.u128 (a * b)
  shr a n := .ok (a >>> n)

end Overflow

/-- The errors that `calculate_elections` reports. -/
inductive ElectionError where
  /-- There are "not enough good validators". -/
  | notEnough
  /-- The "stake is not enough". -/
  | stake
  /-- The stakes "differ more than by 1_000_000_000". -/
  | differ
  /-- A weight "does not fit u64". -/
  | weight
  /-- The total stake is not the best stake. -/
  | total
  deriving DecidableEq

structure SimpleAddress where
  workchainId : Int
  address : UInt256
  deriving DecidableEq

/-- `ValidatorKey`, ordered by stake, then time, then public key. -/
structure ValidatorKey where
  stake : Nat
  time : UInt32
  pubKey : UInt256
  deriving DecidableEq

namespace ValidatorKey

def le (a b : ValidatorKey) : Bool :=
  if a.stake ≠ b.stake then a.stake < b.stake
  else if a.time ≠ b.time then a.time < b.time
  else a.pubKey.toNat ≤ b.pubKey.toNat

end ValidatorKey

structure Validator where
  key : ValidatorKey
  trueStake : Nat := 0
  /-- Fixed point with 16 fractional bits. -/
  maxFactor : UInt32
  addr : SimpleAddress
  adnlAddr : UInt256
  mcSeqNoSince : Nat := 0
  deriving DecidableEq

/-! ### The sorted list of stakes -/

/-- `StakeAndFactor`: a stake scaled by its factor, and the stake and factor of the validator. -/
structure StakeAndFactor where
  stake : Nat
  validatorStake : Nat
  maxFactor : UInt32
  deriving DecidableEq

/-- `SortedList::insert`; the list is kept with the greatest stake in front. -/
def sortedInsert (element : StakeAndFactor) : List StakeAndFactor → List StakeAndFactor
  | [] => [element]
  | a :: list =>
    if a.stake ≤ element.stake then element :: a :: list else a :: sortedInsert element list

/-- The running totals of the search for the best number of validators. -/
structure ElectionState where
  wholesStakes : List StakeAndFactor := []
  wholeStake : Nat := 0
  cutFactSum : Nat := 0
  bestStake : Nat := 0
  /-- Number of usable stakes. -/
  m : Nat := 0
  mStake : Nat := 0

namespace ElectionState

def precision : Nat := 10 ^ 18

/-- The inner loop: takes off the stakes that the factor limits at the current stake. -/
def cutWith (mode : Overflow) (grams : GramsOps) (stakeBig : Nat) :
    List StakeAndFactor → Nat → Nat → Except Failure (List StakeAndFactor × Nat × Nat)
  | [], wholeStake, cutFactSum => .ok ([], wholeStake, cutFactSum)
  | e :: list, wholeStake, cutFactSum =>
    if e.stake < stakeBig then
      .ok (e :: list, wholeStake, cutFactSum)
    else do
      let wholeStake ← grams.sub wholeStake e.validatorStake
      let cutFactSum ← mode.u128 (cutFactSum + e.maxFactor.toNat)
      cutWith mode grams stakeBig list wholeStake cutFactSum

/-- One turn of the search, at the validator with index `qty`. A zero factor divides by zero. -/
def nextWith (mode : Overflow) (grams : GramsOps) (st : ElectionState) (qty : Nat)
    (validator : Validator) : Except Failure ElectionState := do
  let wholeStake ← grams.add st.wholeStake validator.key.stake
  let stakeBig := validator.key.stake * precision
  if validator.maxFactor = 0 then
    .error .panic
  else
    let stake := stakeBig * 2 ^ 16 / validator.maxFactor.toNat
    let list := sortedInsert ⟨stake, validator.key.stake, validator.maxFactor⟩ st.wholesStakes
    let (wholesStakes, wholeStake, cutFactSum) ←
      cutWith mode grams stakeBig list wholeStake st.cutFactSum
    let stakeCut ← grams.shr (← grams.mul validator.key.stake cutFactSum) 16
    let totalStake ← grams.add wholeStake stakeCut
    let st := { st with wholesStakes, wholeStake, cutFactSum }
    if st.bestStake < totalStake then
      .ok { st with bestStake := totalStake, m := qty + 1, mStake := validator.key.stake }
    else
      .ok st

/-- The search over the first validators. -/
def searchWith (mode : Overflow) (grams : GramsOps) :
    Nat → List Validator → ElectionState → Except Failure ElectionState
  | _, [], st => .ok st
  | qty, validator :: validators, st => do
    searchWith mode grams (qty + 1) validators (← st.nextWith mode grams qty validator)

end ElectionState

/-- The true stakes of the first `m` validators, and their sum. -/
def limitStakesWith (mode : Overflow) (mStake : Nat) :
    Nat → List Validator → Nat → Except Failure (List Validator × Nat)
  | 0, validators, bestStake => .ok (validators, bestStake)
  | _ + 1, [], bestStake => .ok ([], bestStake)
  | m + 1, validator :: validators, bestStake => do
    let limit := (← mode.u128 (mStake * validator.maxFactor.toNat)) >>> 16
    let validator := { validator with trueStake := min validator.key.stake limit }
    let bestStake ← mode.u128 (bestStake + validator.trueStake)
    let (validators, bestStake) ← limitStakesWith mode mStake m validators bestStake
    return (validator :: validators, bestStake)

section Elections

variable [TonTypes]

structure ElectionResult where
  list : List ValidatorDescr := []
  totalWeight : Nat := 0
  totalStake : Nat := 0
  frozen : HashmapE := ⟨256, none⟩
  credits : HashmapE

namespace SimpleAddress

/-- `write_to_new_cell`. -/
def write (addr : SimpleAddress) : Except Failure BuilderData := do
  let builder ← TonTypes.appendBits TonTypes.builderDefault (asUsize addr.workchainId) 32
  TonTypes.appendRaw builder (hashBytes addr.address) 256

end SimpleAddress

namespace ElectionResult

/-- Credits the part of a stake that is not used. -/
def creditWith (mode : Overflow) (result : ElectionResult) (validator : Validator) :
    GasM ElectionResult := do
  let leftover ← mode.sub validator.key.stake validator.trueStake
  if leftover = 0 then
    return result
  let cell ← TonTypes.builderIntoCell (← validator.addr.write)
  let key ← TonTypes.loadCell cell
  let leftover ←
    match ← TonTypes.getWithGas result.credits key with
    | some data => do
      let (credit, _) ← TonTypes.getNextInt data 128
      mode.u128 (leftover + credit)
    | none => pure leftover
  let value ← TonTypes.appendBits TonTypes.builderDefault leftover 128
  let (_, credits) ← TonTypes.updateWithGas .set result.credits key (.builder value)
  return { result with credits }

/-- Adds an elected validator. The best stake is zero only if it divides by zero. -/
def electWith (mode : Overflow) (report : ElectionError → Failure) (result : ElectionResult)
    (bestStake : Nat) (validator : Validator) : GasM ElectionResult := do
  let totalStake ← mode.u128 (result.totalStake + validator.trueStake)
  if bestStake = 0 then
    .fail .panic
  else
    let weight := validator.trueStake * 2 ^ 60 / bestStake
    if 2 ^ 64 ≤ weight then
      .fail (report .weight)
    else
      let totalWeight ← mode.u64 (result.totalWeight + weight)
      let key := TonTypes.fromRaw (hashBytes validator.key.pubKey) 256
      let value ← validator.addr.write
      let value ← TonTypes.appendBits value weight 64
      let value ← TonTypes.appendBits value validator.trueStake 128
      let value ← TonTypes.appendBits value 0 8
      let (_, frozen) ← TonTypes.updateWithGas .set result.frozen key (.builder value)
      return { result with
        list := result.list ++ [⟨validator.key.pubKey, weight, validator.adnlAddr⟩]
        totalWeight
        totalStake
        frozen }

/-- The loop over all validators: credits, and the first `m` elected. -/
def settleWith (mode : Overflow) (report : ElectionError → Failure) (bestStake : Nat) :
    Nat → List Validator → ElectionResult → GasM ElectionResult
  | _, [], result => return result
  | m, validator :: validators, result => do
    let result ← result.creditWith mode validator
    match m with
    | 0 => settleWith mode report bestStake 0 validators result
    | m + 1 =>
      settleWith mode report bestStake m validators (← result.electWith mode report bestStake validator)

end ElectionResult

/-- The validators in decreasing order of their keys. -/
def sortValidators (validators : List Validator) : List Validator :=
  validators.mergeSort fun a b => b.key.le a.key

/-- The elections once the search is done. -/
def concludeWith (mode : Overflow) (report : ElectionError → Failure) (credits : Option Cell)
    (validators : List Validator) (cfg17 : ConfigParam17) (st : ElectionState) : GasM ElectionResult :=
  if st.m = 0 ∨ st.bestStake < cfg17.minTotalStake then
    .fail (report .stake)
  else do
    let (validators, bestStake) ← limitStakesWith mode st.mStake st.m validators 0
    if 1000000000 < max (st.bestStake - bestStake) (bestStake - st.bestStake) then
      .fail (report .differ)
    else
      let result ← ElectionResult.settleWith mode report bestStake st.m validators
        { credits := ⟨32 + 256, credits⟩ }
      if result.totalStake ≠ bestStake then
        .fail (report .total)
      else
        return result

def calculateElectionsWith (mode : Overflow) (grams : GramsOps) (report : ElectionError → Failure)
    (credits : Option Cell) (validators : List Validator) (cfg16 : ConfigParam16)
    (cfg17 : ConfigParam17) : GasM ElectionResult :=
  if validators.length < cfg16.minValidators.toNat then
    .fail (report .notEnough)
  else do
    let n := min cfg16.maxValidators.toNat validators.length
    let validators := sortValidators validators
    let st ← ElectionState.searchWith mode grams 0 (validators.take n) {}
    concludeWith mode report credits validators cfg17 st

/-- The build that wraps, with errors that look alike. -/
def calculateElections : Option Cell → List Validator → ConfigParam16 → ConfigParam17 →
    GasM ElectionResult :=
  calculateElectionsWith .wrap Overflow.wrap.grams fun _ => .code .fatalError

end Elections

end TonVm
