import TonVm.Stack.Item

/-!
# Gas state

Gas amounts are `i64` in the source. `new` wraps its sum as the release build does. The operations of a
running engine are on unbounded integers; `TonVm.Proof.GasLedger` has them with the results wrapped, and
shows that nothing wraps while the limit and the credit add up to an `i64`, the greatest limit is one
and the charges add up to one.
-/

namespace TonVm

@[ext]
structure Gas where
  gasLimitMax : Int
  gasLimit : Int
  gasCredit : Int
  gasRemaining : Int
  gasPrice : Int
  gasBase : Int
  deriving DecidableEq, Repr

namespace Gas

def empty : Gas := ⟨0, 0, 0, 0, 0, 0⟩

def test : Gas where
  gasPrice := 10
  gasLimit := 1000000000
  gasLimitMax := 1000000000
  gasRemaining := 1000000000
  gasCredit := 0
  gasBase := 1000000000

/-- A sum or a difference of `i64` values, in the build that wraps. -/
def i64 (v : Int) : Int := v.bmod (2 ^ 64)

def new (gasLimit gasCredit gasLimitMax gasPrice : Int) : Gas where
  gasPrice := gasPrice
  gasLimit := gasLimit
  gasLimitMax := gasLimitMax
  gasRemaining := i64 (gasLimit + gasCredit)
  gasCredit := gasCredit
  gasBase := i64 (gasLimit + gasCredit)

/-! ### Prices -/

def basicGasPrice (instructionLength : Nat) : Int := 10 + instructionLength

def exceptionPrice : Int := 50

def finalizePrice : Int := 500

def implicitJmpPrice : Int := 10

def implicitRetPrice : Int := 5

def loadCellPrice (first : Bool) : Int := if first then 100 else 25

/-- The first 32 stack entries are free. -/
def stackPrice (stackDepth : Nat) : Int := ((max stackDepth 32 - 32 : Nat) : Int)

def tupleGasPrice (tupleLength : Nat) : Int := tupleLength

/-! ### Operations -/

def newGasLimit (gas : Gas) (gasLimit : Int) : Gas :=
  let limit := max 0 (min gasLimit gas.gasLimitMax)
  { gas with
    gasLimit := limit
    gasCredit := 0
    gasRemaining := gas.gasRemaining + (limit - gas.gasBase)
    gasBase := limit }

def useGas (gas : Gas) (amount : Int) : Gas :=
  { gas with gasRemaining := gas.gasRemaining - amount }

def getGasUsedFull (gas : Gas) : Int := gas.gasBase - gas.gasRemaining

/-- `check_gas_remaining`: the exception value is the gas used. -/
def checkGasRemaining [TonTypes] (gas : Gas) : Except Error Unit :=
  if gas.gasRemaining ≥ 0 then
    .ok ()
  else
    .error (.exception (.fromCodeAndValue .outOfGas (.value (gas.gasBase - gas.gasRemaining))))

/-- `try_use_gas`: the charge is made whether or not the check succeeds. -/
def tryUseGas [TonTypes] (gas : Gas) (amount : Int) : Except Error Unit × Gas :=
  ((gas.useGas amount).checkGasRemaining, gas.useGas amount)

end Gas

end TonVm
