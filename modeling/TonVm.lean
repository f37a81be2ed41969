import TonVm.Lib.Exec
import TonVm.Lib.Invariant
import TonVm.Types
import TonVm.Stack.Integer
import TonVm.Stack.IntegerEncoding
import TonVm.Stack.Item
import TonVm.Stack.Codec
import TonVm.Stack.CodecOld
import TonVm.Stack.Ops
import TonVm.Executor.Gas
import TonVm.Executor.Engine
import TonVm.Executor.Storage
import TonVm.Executor.Decode
import TonVm.Executor.Continuation
import TonVm.Executor.ControlFlow
import TonVm.Executor.Exceptions
import TonVm.Executor.Core
import TonVm.Executor.Math
import TonVm.Executor.StackOps
import TonVm.Executor.Tuples
import TonVm.Executor.Environment
import TonVm.Executor.Serialization
import TonVm.Executor.Deserialization
import TonVm.Executor.Dictionary
import TonVm.Executor.Blockchain
import TonVm.Executor.Accounts
import TonVm.Executor.Elections
import TonVm.Executor.Handlers
import TonVm.Executor.Setup
import TonVm.Proof.Integer
import TonVm.Proof.Good
import TonVm.Proof.GoodValues
import TonVm.Proof.Keeps
import TonVm.Proof.GasComputations
import TonVm.Proof.KeepsStorage
import TonVm.Proof.KeepsControl
import TonVm.Plain
import TonVm.Proof.KeepsArithmetic
import TonVm.Proof.KeepsCodec
import TonVm.Proof.KeepsCells
import TonVm.Proof.KeepsDictionary
import TonVm.Proof.KeepsBlockchain
import TonVm.Proof.InstructionSet
import TonVm.Proof.EngineExec
import TonVm.Proof.MainLoop
import TonVm.Proof.Run
import TonVm.Proof.IntegerRange
import TonVm.Proof.GasLedger
import TonVm.Proof.Registers
import TonVm.Proof.Microcode
import TonVm.Proof.Transfer
import TonVm.Proof.Instruction
import TonVm.Proof.Composition
import TonVm.Proof.HandlerChain
import TonVm.Proof.Bits
import TonVm.Proof.Views
import TonVm.Proof.IntegerCodec
import TonVm.Proof.OctetStream
import TonVm.Proof.QuietDivision
import TonVm.Proof.TupleBound
import TonVm.Proof.Arity
import TonVm.Proof.CellLoads
import TonVm.Proof.GasPurchase
import TonVm.Proof.VarInteger
import TonVm.Proof.Calm
import TonVm.Proof.DictionaryKeys
import TonVm.Proof.KeyValue
import TonVm.Lib.OrderedMap
import TonVm.Proof.DictionaryOrder
import TonVm.Proof.DictionaryPanics
import TonVm.Lib.Apportionment
import TonVm.Proof.ElectionSearch
import TonVm.Proof.ElectionStake
import TonVm.Proof.ElectionWeights
import TonVm.Lib.FiniteMap
import TonVm.Proof.DictionaryStore
import TonVm.Proof.ElectionFrozen
import TonVm.Proof.ElectionCredits
import TonVm.Proof.ElectionPanics
import TonVm.Proof.SaveBoth
import TonVm.Lib.Concludes
import TonVm.Proof.RandomSeed
import TonVm.Proof.FailedReturns
import TonVm.Proof.QuietStores
import TonVm.Proof.CompoundStack
import TonVm.Proof.AddressRewriting
import TonVm.Proof.DictionaryLookups
import TonVm.Proof.StorageStat
import TonVm.Proof.StackBlocks
import TonVm.Proof.StackMoves
import TonVm.Proof.SliceOrder
import TonVm.Proof.InlineSlices
import TonVm.Utils
import TonVm.Proof.Consumers
import TonVm.Proof.PackedData
import TonVm.Proof.RegisterIndices
import TonVm.Proof.Globals
import TonVm.Proof.Actions
import TonVm.Proof.Decoding
import TonVm.Proof.Spending
import TonVm.Proof.Prices
import TonVm.Proof.Termination
import TonVm.Lib.Iteration
import TonVm.Proof.Loops
