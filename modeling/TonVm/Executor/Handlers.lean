import TonVm.Executor.Core
import TonVm.Executor.ControlFlow
import TonVm.Executor.Exceptions
import TonVm.Executor.Math
import TonVm.Executor.StackOps
import TonVm.Executor.Tuples
import TonVm.Executor.Environment
import TonVm.Executor.Serialization
import TonVm.Executor.Deserialization
import TonVm.Executor.Dictionary
import TonVm.Executor.Accounts

/-!
# The instruction table

Code page 0 as the source registers it, section by section: a slot of the table holds the handler of
an instruction or a table for the next byte of the opcode. Ranges exclude their end. The handlers of
the `gosh` feature, which is off by default, are left out.
-/

namespace TonVm

/-- A table under construction. A slot is registered once, so the order of lookup does not matter. -/
inductive Handlers (α : Type) where
  | new
  | setRange (table : Handlers α) (start stop : Nat) (handler : α)
  | addSubset (table : Handlers α) (code : Nat) (subset : Handlers α)

namespace Handlers

variable {α : Type}

def set (table : Handlers α) (code : Nat) (handler : α) : Handlers α :=
  table.setRange code (code + 1) handler

/-- Every registered handler has a property. -/
def Forall (p : α → Prop) : Handlers α → Prop
  | new => True
  | setRange table _ _ handler => table.Forall p ∧ p handler
  | addSubset table _ subset => table.Forall p ∧ subset.Forall p

end Handlers

namespace Engine

variable [TonTypes]

/-! ### Instructions without a module of their own -/

abbrev executeNop : M Unit := loadInstruction

abbrev executeSetcp : M Unit := do
  loadInstruction (some (.integer (-15) 240))
  let codePage ← param integerRaw
  modify fun e => { e with codePage := codePage }

abbrev executeSetcpx : M Unit := do
  loadInstruction
  fetchStack 1
  let x ← lift (← var 0).asInteger
  let codePage ← lift (x.into (-(2 ^ 15)) (2 ^ 14))
  modify fun e => { e with codePage := codePage }

abbrev executeUnknown : M Unit := err .invalidOpcode

/-! ### Lookup -/

/-- The lookup of `get_handler` for a byte that has been read. -/
def dispatch : Handlers (M Unit) → UInt8 → M (M Unit)
  | .new, _ => return executeUnknown
  | .setRange table start stop handler, cmd =>
    if start ≤ cmd.toNat ∧ cmd.toNat < stop then return handler else dispatch table cmd
  | .addSubset table code subset, cmd => do
    if cmd.toNat = code then
      dispatch subset (← nextCmd)
    else
      dispatch table cmd

def getHandler (table : Handlers (M Unit)) : M (M Unit) := do
  dispatch table (← nextCmd)

end Engine

namespace Handlers

open Engine

/-! ### Code page 0 -/

variable [TonTypes] [TonBlock]

def addCodePage0PartStack (self : Handlers (M Unit)) : Handlers (M Unit) :=
  self
    |>.set 0x00 executeNop
    |>.set 0x01 executeSwap
    |>.setRange 0x02 0x10 executeXchgSimple
    |>.set 0x10 executeXchgStd
    |>.set 0x11 executeXchgLong
    |>.setRange 0x12 0x20 executeXchgSimple
    |>.setRange 0x20 0x30 executePush
    |>.setRange 0x30 0x40 executePop
    |>.setRange 0x40 0x50 executeXchg3
    |>.set 0x50 executeXchg2
    |>.set 0x51 executeXcpu
    |>.set 0x52 executePuxc
    |>.set 0x53 executePush2
    |>.addSubset 0x54 (new
      |>.setRange 0x00 0x10 executeXchg3
      |>.setRange 0x10 0x20 executeXc2pu
      |>.setRange 0x20 0x30 executeXcpuxc
      |>.setRange 0x30 0x40 executeXcpu2
      |>.setRange 0x40 0x50 executePuxc2
      |>.setRange 0x50 0x60 executePuxcpu
      |>.setRange 0x60 0x70 executePu2xc
      |>.setRange 0x70 0x80 executePush3)
    |>.set 0x55 executeBlkswap
    |>.set 0x56 executePush
    |>.set 0x57 executePop
    |>.set 0x58 executeRot
    |>.set 0x59 executeRotrev
    |>.set 0x5A executeSwap2
    |>.set 0x5B executeDrop2
    |>.set 0x5C executeDup2
    |>.set 0x5D executeOver2
    |>.set 0x5E executeReverse
    |>.addSubset 0x5F (new
      |>.setRange 0x00 0x10 executeBlkdrop
      |>.setRange 0x10 0xFF executeBlkpush
      |>.set 0xFF executeBlkpush)
    |>.set 0x60 executePick
    |>.set 0x61 executeRoll
    |>.set 0x62 executeRollrev
    |>.set 0x63 executeBlkswx
    |>.set 0x64 executeRevx
    |>.set 0x65 executeDropx
    |>.set 0x66 executeTuck
    |>.set 0x67 executeXchgx
    |>.set 0x68 executeDepth
    |>.set 0x69 executeChkdepth
    |>.set 0x6A executeOnlytopx
    |>.set 0x6B executeOnlyx
    |>.addSubset 0x6C (new
      |>.setRange 0x10 0xFF executeBlkdrop2
      |>.set 0xFF executeBlkdrop2)

def addCodePage0Tuple (self : Handlers (M Unit)) : Handlers (M Unit) :=
  self
    |>.set 0x6D executeNull
    |>.set 0x6E executeIsnull
    |>.addSubset 0x6F (new
      |>.setRange 0x00 0x10 executeTupleCreate
      |>.setRange 0x10 0x20 executeTupleIndex
      |>.setRange 0x20 0x30 executeTupleUn
      |>.setRange 0x30 0x40 executeTupleUnpackfirst
      |>.setRange 0x40 0x50 executeTupleExplode
      |>.setRange 0x50 0x60 executeTupleSetindex
      |>.setRange 0x60 0x70 executeTupleIndexQuiet
      |>.setRange 0x70 0x80 executeTupleSetindexQuiet
      |>.set 0x80 executeTupleCreatevar
      |>.set 0x81 executeTupleIndexvar
      |>.set 0x82 executeTupleUntuplevar
      |>.set 0x83 executeTupleUnpackfirstvar
      |>.set 0x84 executeTupleExplodevar
      |>.set 0x85 executeTupleSetindexvar
      |>.set 0x86 executeTupleIndexvarQuiet
      |>.set 0x87 executeTupleSetindexvarQuiet
      |>.set 0x88 executeTupleLen
      |>.set 0x89 executeTupleLenQuiet
      |>.set 0x8A executeIstuple
      |>.set 0x8B executeTupleLast
      |>.set 0x8C executeTuplePush
      |>.set 0x8D executeTuplePop
      |>.set 0x90 executeZeroswapif
      |>.set 0x91 executeZeroswapifnot
      |>.set 0x92 executeZerorotrif
      |>.set 0x93 executeZerorotrifnot
      |>.set 0x94 executeZeroswapif2
      |>.set 0x95 executeZeroswapifnot2
      |>.set 0x96 executeZerorotrif2
      |>.set 0x97 executeZerorotrifnot2
      |>.set 0xA0 executeNullswapif
      |>.set 0xA1 executeNullswapifnot
      |>.set 0xA2 executeNullrotrif
      |>.set 0xA3 executeNullrotrifnot
      |>.set 0xA4 executeNullswapif2
      |>.set 0xA5 executeNullswapifnot2
      |>.set 0xA6 executeNullrotrif2
      |>.set 0xA7 executeNullrotrifnot2
      |>.setRange 0xB0 0xC0 executeTupleIndex2
      |>.setRange 0xC0 0xFF executeTupleIndex3
      |>.set 0xFF executeTupleIndex3)

def addCodePage0PartConstant (self : Handlers (M Unit)) : Handlers (M Unit) :=
  self
    |>.setRange 0x70 0x82 executePushint
    |>.set 0x82 executePushintBig
    |>.addSubset 0x83 (new
      |>.setRange 0x00 0xFF executePushpow2
      |>.set 0xFF executePushnan)
    |>.set 0x84 executePushpow2dec
    |>.set 0x85 executePushnegpow2
    |>.set 0x88 executePushref
    |>.set 0x89 executePushrefslice
    |>.set 0x8A executePushrefcont
    |>.set 0x8B executePushsliceShort
    |>.set 0x8C executePushsliceMid
    |>.set 0x8D executePushsliceLong
    |>.setRange 0x8E 0x90 executePushcontShort
    |>.setRange 0x90 0xA0 executePushcontLong

def addCodePage0Arithmetic (self : Handlers (M Unit)) : Handlers (M Unit) :=
  self
    |>.set 0xA0 (executeAdd .signaling)
    |>.set 0xA1 (executeSub .signaling)
    |>.set 0xA2 (executeSubr .signaling)
    |>.set 0xA3 (executeNegate .signaling)
    |>.set 0xA4 (executeInc .signaling)
    |>.set 0xA5 (executeDec .signaling)
    |>.set 0xA6 (executeAddconst .signaling)
    |>.set 0xA7 (executeMulconst .signaling)
    |>.set 0xA8 (executeMul .signaling)
    |>.set 0xA9 (executeDivmod .signaling)
    |>.set 0xAA (executeLshift .signaling)
    |>.set 0xAB (executeRshift .signaling)
    |>.set 0xAC (executeLshift .signaling)
    |>.set 0xAD (executeRshift .signaling)
    |>.set 0xAE (executePow2 .signaling)
    |>.set 0xB0 (executeAnd .signaling)
    |>.set 0xB1 (executeOr .signaling)
    |>.set 0xB2 (executeXor .signaling)
    |>.set 0xB3 (executeNot .signaling)
    |>.set 0xB4 (executeFits .signaling)
    |>.set 0xB5 (executeUfits .signaling)
    |>.addSubset 0xB6 (new
      |>.set 0x00 (executeFitsx .signaling)
      |>.set 0x01 (executeUfitsx .signaling)
      |>.set 0x02 (executeBitsize .signaling)
      |>.set 0x03 (executeUbitsize .signaling)
      |>.set 0x08 (executeMin .signaling)
      |>.set 0x09 (executeMax .signaling)
      |>.set 0x0A (executeMinmax .signaling)
      |>.set 0x0B (executeAbs .signaling))
    |>.addSubset 0xB7 (new
      |>.set 0xA0 (executeAdd .quiet)
      |>.set 0xA1 (executeSub .quiet)
      |>.set 0xA2 (executeSubr .quiet)
      |>.set 0xA3 (executeNegate .quiet)
      |>.set 0xA4 (executeInc .quiet)
      |>.set 0xA5 (executeDec .quiet)
      |>.set 0xA6 (executeAddconst .quiet)
      |>.set 0xA7 (executeMulconst .quiet)
      |>.set 0xA8 (executeMul .quiet)
      |>.set 0xA9 (executeDivmod .quiet)
      |>.set 0xAA (executeLshift .quiet)
      |>.set 0xAB (executeRshift .quiet)
      |>.set 0xAC (executeLshift .quiet)
      |>.set 0xAD (executeRshift .quiet)
      |>.set 0xAE (executePow2 .quiet)
      |>.set 0xB0 (executeAnd .quiet)
      |>.set 0xB1 (executeOr .quiet)
      |>.set 0xB2 (executeXor .quiet)
      |>.set 0xB3 (executeNot .quiet)
      |>.set 0xB4 (executeFits .quiet)
      |>.set 0xB5 (executeUfits .quiet)
      |>.addSubset 0xB6 (new
        |>.set 0x00 (executeFitsx .quiet)
        |>.set 0x01 (executeUfitsx .quiet)
        |>.set 0x02 (executeBitsize .quiet)
        |>.set 0x03 (executeUbitsize .quiet)
        |>.set 0x08 (executeMin .quiet)
        |>.set 0x09 (executeMax .quiet)
        |>.set 0x0A (executeMinmax .quiet)
        |>.set 0x0B (executeAbs .quiet))
      |>.set 0xB8 (executeSgn .quiet)
      |>.set 0xB9 (executeLess .quiet)
      |>.set 0xBA (executeEqual .quiet)
      |>.set 0xBB (executeLeq .quiet)
      |>.set 0xBC (executeGreater .quiet)
      |>.set 0xBD (executeNeq .quiet)
      |>.set 0xBE (executeGeq .quiet)
      |>.set 0xBF (executeCmp .quiet)
      |>.set 0xC0 (executeEqint .quiet)
      |>.set 0xC1 (executeLessint .quiet)
      |>.set 0xC2 (executeGtint .quiet)
      |>.set 0xC3 (executeNeqint .quiet))

def c7Handlers : Handlers (M Unit) :=
  new
    |>.set 0x00 executeSempty
    |>.set 0x01 executeSdempty
    |>.set 0x02 executeSrempty
    |>.set 0x03 executeSdfirst
    |>.set 0x04 executeSdlexcmp
    |>.set 0x05 executeSdeq
    |>.set 0x08 executeSdpfx
    |>.set 0x09 executeSdpfxrev
    |>.set 0x0A executeSdppfx
    |>.set 0x0B executeSdppfxrev
    |>.set 0x0C executeSdsfx
    |>.set 0x0D executeSdsfxrev
    |>.set 0x0E executeSdpsfx
    |>.set 0x0F executeSdpsfxrev
    |>.set 0x10 executeSdcntlead0
    |>.set 0x11 executeSdcntlead1
    |>.set 0x12 executeSdcnttrail0
    |>.set 0x13 executeSdcnttrail1

def addCodePage0Comparsion (self : Handlers (M Unit)) : Handlers (M Unit) :=
  self
    |>.set 0xB8 (executeSgn .signaling)
    |>.set 0xB9 (executeLess .signaling)
    |>.set 0xBA (executeEqual .signaling)
    |>.set 0xBB (executeLeq .signaling)
    |>.set 0xBC (executeGreater .signaling)
    |>.set 0xBD (executeNeq .signaling)
    |>.set 0xBE (executeGeq .signaling)
    |>.set 0xBF (executeCmp .signaling)
    |>.set 0xC0 (executeEqint .signaling)
    |>.set 0xC1 (executeLessint .signaling)
    |>.set 0xC2 (executeGtint .signaling)
    |>.set 0xC3 (executeNeqint .signaling)
    |>.set 0xC4 executeIsnan
    |>.set 0xC5 executeChknan
    |>.addSubset 0xC7 c7Handlers

def addCodePage0Cell (self : Handlers (M Unit)) : Handlers (M Unit) :=
  self
    |>.set 0xC8 executeNewc
    |>.set 0xC9 executeEndc
    |>.set 0xCA executeSti
    |>.set 0xCB executeStu
    |>.set 0xCC executeStref
    |>.set 0xCD executeEndcst
    |>.set 0xCE executeStslice
    |>.addSubset 0xCF (new
      |>.set 0x00 executeStix
      |>.set 0x01 executeStux
      |>.set 0x02 executeStixr
      |>.set 0x03 executeStuxr
      |>.set 0x04 executeStixq
      |>.set 0x05 executeStuxq
      |>.set 0x06 executeStixrq
      |>.set 0x07 executeStuxrq
      |>.set 0x08 executeSti
      |>.set 0x09 executeStu
      |>.set 0x0A executeStir
      |>.set 0x0B executeStur
      |>.set 0x0C executeStiq
      |>.set 0x0D executeStuq
      |>.set 0x0E executeStirq
      |>.set 0x0F executeSturq
      |>.set 0x10 executeStref
      |>.set 0x11 executeStbref
      |>.set 0x12 executeStslice
      |>.set 0x13 executeStb
      |>.set 0x14 executeStrefr
      |>.set 0x15 executeEndcst
      |>.set 0x16 executeStslicer
      |>.set 0x17 executeStbr
      |>.set 0x18 executeStrefq
      |>.set 0x19 executeStbrefq
      |>.set 0x1A executeStsliceq
      |>.set 0x1B executeStbq
      |>.set 0x1C executeStrefrq
      |>.set 0x1D executeStbrefrq
      |>.set 0x1E executeStslicerq
      |>.set 0x1F executeStbrq
      |>.set 0x20 executeStrefconst
      |>.set 0x21 executeStref2const
      |>.set 0x23 executeEndxc
      |>.set 0x28 executeStile4
      |>.set 0x29 executeStule4
      |>.set 0x2A executeStile8
      |>.set 0x2B executeStule8
      |>.set 0x30 executeBdepth
      |>.set 0x31 executeBbits
      |>.set 0x32 executeBrefs
      |>.set 0x33 executeBbitrefs
      |>.set 0x35 executeBrembits
      |>.set 0x36 executeBremrefs
      |>.set 0x37 executeBrembitrefs
      |>.set 0x38 executeBchkbitsShort
      |>.set 0x39 executeBchkbitsLong
      |>.set 0x3A executeBchkrefs
      |>.set 0x3B executeBchkbitrefs
      |>.set 0x3C executeBchkbitsqShort
      |>.set 0x3D executeBchkbitsqLong
      |>.set 0x3E executeBchkrefsq
      |>.set 0x3F executeBchkbitrefsq
      |>.set 0x40 executeStzeroes
      |>.set 0x41 executeStones
      |>.set 0x42 executeStsame
      |>.set 0x43 executeStcont
      |>.setRange 0x80 0xFF executeStsliceconst
      |>.set 0xFF executeStsliceconst)
    |>.set 0xD0 executeCtos
    |>.set 0xD1 executeEnds
    |>.set 0xD2 executeLdi
    |>.set 0xD3 executeLdu
    |>.set 0xD4 executeLdref
    |>.set 0xD5 executeLdrefrtos
    |>.set 0xD6 executeLdslice
    |>.addSubset 0xD7 (new
      |>.set 0x00 executeLdix
      |>.set 0x01 executeLdux
      |>.set 0x02 executePldix
      |>.set 0x03 executePldux
      |>.set 0x04 executeLdixq
      |>.set 0x05 executeLduxq
      |>.set 0x06 executePldixq
      |>.set 0x07 executePlduxq
      |>.set 0x08 executeLdi
      |>.set 0x09 executeLdu
      |>.set 0x0A executePldi
      |>.set 0x0B executePldu
      |>.set 0x0C executeLdiq
      |>.set 0x0D executeLduq
      |>.set 0x0E executePldiq
      |>.set 0x0F executePlduq
      |>.setRange 0x10 0x18 executePlduz
      |>.set 0x18 executeLdslicex
      |>.set 0x19 executePldslicex
      |>.set 0x1A executeLdslicexq
      |>.set 0x1B executePldslicexq
      |>.set 0x1C executeLdslice
      |>.set 0x1D executePldslice
      |>.set 0x1E executeLdsliceq
      |>.set 0x1F executePldsliceq
      |>.set 0x20 executePldslicex
      |>.set 0x21 executeSdskipfirst
      |>.set 0x22 executeSdcutlast
      |>.set 0x23 executeSdskiplast
      |>.set 0x24 executeSdsubstr
      |>.set 0x26 executeSdbeginsx
      |>.set 0x27 executeSdbeginsxq
      |>.setRange 0x28 0x2C executeSdbegins
      |>.setRange 0x2C 0x30 executeSdbeginsq
      |>.set 0x30 executeScutfirst
      |>.set 0x31 executeSskipfirst
      |>.set 0x32 executeScutlast
      |>.set 0x33 executeSskiplast
      |>.set 0x34 executeSubslice
      |>.set 0x36 executeSplit
      |>.set 0x37 executeSplitq
      |>.set 0x39 executeXctos
      |>.set 0x3A executeXload
      |>.set 0x3B executeXloadq
      |>.set 0x41 executeSchkbits
      |>.set 0x42 executeSchkrefs
      |>.set 0x43 executeSchkbitrefs
      |>.set 0x45 executeSchkbitsq
      |>.set 0x46 executeSchkrefsq
      |>.set 0x47 executeSchkbitrefsq
      |>.set 0x48 executePldrefvar
      |>.set 0x49 executeSbits
      |>.set 0x4A executeSrefs
      |>.set 0x4B executeSbitrefs
      |>.set 0x4C executePldref
      |>.setRange 0x4D 0x50 executePldrefidx
      |>.set 0x50 executeLdile4
      |>.set 0x51 executeLdule4
      |>.set 0x52 executeLdile8
      |>.set 0x53 executeLdule8
      |>.set 0x54 executePldile4
      |>.set 0x55 executePldule4
      |>.set 0x56 executePldile8
      |>.set 0x57 executePldule8
      |>.set 0x58 executeLdile4q
      |>.set 0x59 executeLdule4q
      |>.set 0x5A executeLdile8q
      |>.set 0x5B executeLdule8q
      |>.set 0x5C executePldile4q
      |>.set 0x5D executePldule4q
      |>.set 0x5E executePldile8q
      |>.set 0x5F executePldule8q
      |>.set 0x60 executeLdzeroes
      |>.set 0x61 executeLdones
      |>.set 0x62 executeLdsame
      |>.set 0x64 executeSdepth
      |>.set 0x65 executeCdepth
      |>.set 0x66 executeLdcont)

def addCodePage0ControlFlow (self : Handlers (M Unit)) : Handlers (M Unit) :=
  self
    |>.set 0xD8 executeCallx
    |>.set 0xD9 executeJmpx
    |>.set 0xDA executeCallxargs
    |>.addSubset 0xDB (new
      |>.setRange 0x00 0x10 executeCallxargs
      |>.setRange 0x10 0x20 executeJmpxargs
      |>.setRange 0x20 0x30 executeRetargs
      |>.set 0x30 executeRet
      |>.set 0x31 executeRetalt
      |>.set 0x32 executeRetbool
      |>.set 0x34 executeCallcc
      |>.set 0x35 executeJmpxdata
      |>.set 0x36 executeCallccargs
      |>.set 0x38 executeCallxva
      |>.set 0x39 executeRetva
      |>.set 0x3A executeJmpxva
      |>.set 0x3B executeCallccva
      |>.set 0x3C executeCallref
      |>.set 0x3D executeJmpref
      |>.set 0x3E executeJmprefdata
      |>.set 0x3F executeRetdata)
    |>.set 0xDE executeIf
    |>.set 0xDC executeIfret
    |>.set 0xDD executeIfnotret
    |>.set 0xDF executeIfnot
    |>.set 0xE0 executeIfjmp
    |>.set 0xE1 executeIfnotjmp
    |>.set 0xE2 executeIfelse
    |>.addSubset 0xE3 (new
      |>.set 0x00 executeIfref
      |>.set 0x01 executeIfnotref
      |>.set 0x02 executeIfjmpref
      |>.set 0x03 executeIfnotjmpref
      |>.set 0x04 executeCondsel
      |>.set 0x05 executeCondselchk
      |>.set 0x08 executeIfretalt
      |>.set 0x09 executeIfnotretalt
      |>.set 0x0D executeIfrefelse
      |>.set 0x0E executeIfelseref
      |>.set 0x0F executeIfrefelseref
      |>.set 0x14 executeRepeatBreak
      |>.set 0x15 executeRepeatendBreak
      |>.set 0x16 executeUntilBreak
      |>.set 0x17 executeUntilendBreak
      |>.set 0x18 executeWhileBreak
      |>.set 0x19 executeWhileendBreak
      |>.set 0x1A executeAgainBreak
      |>.set 0x1B executeAgainendBreak
      |>.setRange 0x80 0xA0 executeIfbitjmp
      |>.setRange 0xA0 0xC0 executeIfnbitjmp
      |>.setRange 0xC0 0xE0 executeIfbitjmpref
      |>.setRange 0xE0 0xFF executeIfnbitjmpref
      |>.set 0xFF executeIfnbitjmpref)
    |>.set 0xE4 executeRepeat
    |>.set 0xE5 executeRepeatend
    |>.set 0xE6 executeUntil
    |>.set 0xE7 executeUntilend
    |>.set 0xE8 executeWhile
    |>.set 0xE9 executeWhileend
    |>.set 0xEA executeAgain
    |>.set 0xEB executeAgainend
    |>.set 0xEC executeSetcontargs
    |>.addSubset 0xED (new
      |>.setRange 0x00 0x10 executeReturnargs
      |>.set 0x10 executeReturnva
      |>.set 0x11 executeSetcontva
      |>.set 0x12 executeSetnumvarargs
      |>.set 0x1E executeBless
      |>.set 0x1F executeBlessva
      |>.setRange 0x40 0x50 executePushctr
      |>.setRange 0x50 0x60 executePopctr
      |>.setRange 0x60 0x70 executeSetcontctr
      |>.setRange 0x70 0x80 executeSetretctr
      |>.setRange 0x80 0x90 executeSetaltctr
      |>.setRange 0x90 0xA0 executePopsave
      |>.setRange 0xA0 0xB0 executeSave
      |>.setRange 0xB0 0xC0 executeSavealt
      |>.setRange 0xC0 0xD0 executeSaveboth
      |>.set 0xE0 executePushctrx
      |>.set 0xE1 executePopctrx
      |>.set 0xE2 executeSetcontctrx
      |>.set 0xF0 executeCompos
      |>.set 0xF1 executeComposalt
      |>.set 0xF2 executeComposboth
      |>.set 0xF3 executeAtexit
      |>.set 0xF4 executeAtexitalt
      |>.set 0xF5 executeSetexitalt
      |>.set 0xF6 executeThenret
      |>.set 0xF7 executeThenretalt
      |>.set 0xF8 executeInvert
      |>.set 0xF9 executeBooleval
      |>.set 0xFA executeSamealt
      |>.set 0xFB executeSamealtSave)
    |>.set 0xEE executeBlessargs
    |>.set 0xF0 executeCallShort
    |>.addSubset 0xF1 (new
      |>.setRange 0x00 0x40 executeCallLong
      |>.setRange 0x40 0x80 executeJmp
      |>.setRange 0x80 0xC0 executePrepare)

def addCodePage0Exceptions (self : Handlers (M Unit)) : Handlers (M Unit) :=
  self
    |>.addSubset 0xF2 (new
      |>.setRange 0x00 0x40 executeThrowShort
      |>.setRange 0x40 0x80 executeThrowifShort
      |>.setRange 0x80 0xC0 executeThrowifnotShort
      |>.setRange 0xC0 0xC8 executeThrowLong
      |>.setRange 0xC8 0xD0 executeThrowarg
      |>.setRange 0xD0 0xD8 executeThrowifLong
      |>.setRange 0xD8 0xE0 executeThrowargif
      |>.setRange 0xE0 0xE8 executeThrowifnotLong
      |>.setRange 0xE8 0xF0 executeThrowargifnot
      |>.set 0xF0 executeThrowany
      |>.set 0xF1 executeThrowargany
      |>.set 0xF2 executeThrowanyif
      |>.set 0xF3 executeThrowarganyif
      |>.set 0xF4 executeThrowanyifnot
      |>.set 0xF5 executeThrowarganyifnot
      |>.set 0xFE executeTrykeep
      |>.set 0xFF executeTry)
    |>.set 0xF3 executeTryargs

def addCodePage0Blockchain (self : Handlers (M Unit)) : Handlers (M Unit) :=
  self
    |>.addSubset 0xFA (new
      |>.set 0x00 executeLdgrams
      |>.set 0x01 executeLdvarint16
      |>.set 0x02 executeStgrams
      |>.set 0x03 executeStvarint16
      |>.set 0x04 executeLdvaruint32
      |>.set 0x05 executeLdvarint32
      |>.set 0x06 executeStvaruint32
      |>.set 0x07 executeStvarint32
      |>.set 0x40 (executeLdmsgaddr .signaling)
      |>.set 0x41 (executeLdmsgaddr .quiet)
      |>.set 0x42 (executeParsemsgaddr .signaling)
      |>.set 0x43 (executeParsemsgaddr .quiet)
      |>.set 0x44 (executeRewriteStdAddr .signaling)
      |>.set 0x45 (executeRewriteStdAddr .quiet)
      |>.set 0x46 (executeRewriteVarAddr .signaling)
      |>.set 0x47 (executeRewriteVarAddr .quiet))
    |>.addSubset 0xFB (new
      |>.set 0x00 executeSendrawmsg
      |>.set 0x02 executeRawreserve
      |>.set 0x03 executeRawreservex
      |>.set 0x04 executeSetcode
      |>.set 0x06 executeSetlibcode
      |>.set 0x07 executeChangelib
      |>.set 0x0A executeCopyleft)

def addCodePage0Dictionaries (self : Handlers (M Unit)) : Handlers (M Unit) :=
  self
    |>.addSubset 0xF4 (new
      |>.set 0x00 executeStdict
      |>.set 0x01 executeSkipdict
      |>.set 0x02 executeLddicts
      |>.set 0x03 executePlddicts
      |>.set 0x04 executeLddict
      |>.set 0x05 executePlddict
      |>.set 0x06 executeLddictq
      |>.set 0x07 executePlddictq
      |>.set 0x0A executeDictget
      |>.set 0x0B executeDictgetref
      |>.set 0x0C executeDictiget
      |>.set 0x0D executeDictigetref
      |>.set 0x0E executeDictuget
      |>.set 0x0F executeDictugetref
      |>.set 0x12 executeDictset
      |>.set 0x13 executeDictsetref
      |>.set 0x14 executeDictiset
      |>.set 0x15 executeDictisetref
      |>.set 0x16 executeDictuset
      |>.set 0x17 executeDictusetref
      |>.set 0x1A executeDictsetget
      |>.set 0x1B executeDictsetgetref
      |>.set 0x1C executeDictisetget
      |>.set 0x1D executeDictisetgetref
      |>.set 0x1E executeDictusetget
      |>.set 0x1F executeDictusetgetref
      |>.set 0x22 executeDictreplace
      |>.set 0x23 executeDictreplaceref
      |>.set 0x24 executeDictireplace
      |>.set 0x25 executeDictireplaceref
      |>.set 0x26 executeDictureplace
      |>.set 0x27 executeDictureplaceref
      |>.set 0x2A executeDictreplaceget
      |>.set 0x2B executeDictreplacegetref
      |>.set 0x2C executeDictireplaceget
      |>.set 0x2D executeDictireplacegetref
      |>.set 0x2E executeDictureplaceget
      |>.set 0x2F executeDictureplacegetref
      |>.set 0x32 executeDictadd
      |>.set 0x33 executeDictaddref
      |>.set 0x34 executeDictiadd
      |>.set 0x35 executeDictiaddref
      |>.set 0x36 executeDictuadd
      |>.set 0x37 executeDictuaddref
      |>.set 0x3A executeDictaddget
      |>.set 0x3B executeDictaddgetref
      |>.set 0x3C executeDictiaddget
      |>.set 0x3D executeDictiaddgetref
      |>.set 0x3E executeDictuaddget
      |>.set 0x3F executeDictuaddgetref
      |>.set 0x41 executeDictsetb
      |>.set 0x42 executeDictisetb
      |>.set 0x43 executeDictusetb
      |>.set 0x45 executeDictsetgetb
      |>.set 0x46 executeDictisetgetb
      |>.set 0x47 executeDictusetgetb
      |>.set 0x49 executeDictreplaceb
      |>.set 0x4A executeDictireplaceb
      |>.set 0x4B executeDictureplaceb
      |>.set 0x4D executeDictreplacegetb
      |>.set 0x4E executeDictireplacegetb
      |>.set 0x4F executeDictureplacegetb
      |>.set 0x51 executeDictaddb
      |>.set 0x52 executeDictiaddb
      |>.set 0x53 executeDictuaddb
      |>.set 0x55 executeDictaddgetb
      |>.set 0x56 executeDictiaddgetb
      |>.set 0x57 executeDictuaddgetb
      |>.set 0x59 executeDictdel
      |>.set 0x5A executeDictidel
      |>.set 0x5B executeDictudel
      |>.set 0x62 executeDictdelget
      |>.set 0x63 executeDictdelgetref
      |>.set 0x64 executeDictidelget
      |>.set 0x65 executeDictidelgetref
      |>.set 0x66 executeDictudelget
      |>.set 0x67 executeDictudelgetref
      |>.set 0x69 executeDictgetoptref
      |>.set 0x6A executeDictigetoptref
      |>.set 0x6B executeDictugetoptref
      |>.set 0x6D executeDictsetgetoptref
      |>.set 0x6E executeDictisetgetoptref
      |>.set 0x6F executeDictusetgetoptref
      |>.set 0x70 executePfxdictset
      |>.set 0x71 executePfxdictreplace
      |>.set 0x72 executePfxdictadd
      |>.set 0x73 executePfxdictdel
      |>.set 0x74 executeDictgetnext
      |>.set 0x75 executeDictgetnexteq
      |>.set 0x76 executeDictgetprev
      |>.set 0x77 executeDictgetpreveq
      |>.set 0x78 executeDictigetnext
      |>.set 0x79 executeDictigetnexteq
      |>.set 0x7A executeDictigetprev
      |>.set 0x7B executeDictigetpreveq
      |>.set 0x7C executeDictugetnext
      |>.set 0x7D executeDictugetnexteq
      |>.set 0x7E executeDictugetprev
      |>.set 0x7F executeDictugetpreveq
      |>.set 0x82 executeDictmin
      |>.set 0x83 executeDictminref
      |>.set 0x84 executeDictimin
      |>.set 0x85 executeDictiminref
      |>.set 0x86 executeDictumin
      |>.set 0x87 executeDictuminref
      |>.set 0x8A executeDictmax
      |>.set 0x8B executeDictmaxref
      |>.set 0x8C executeDictimax
      |>.set 0x8D executeDictimaxref
      |>.set 0x8E executeDictumax
      |>.set 0x8F executeDictumaxref
      |>.set 0x92 executeDictremmin
      |>.set 0x93 executeDictremminref
      |>.set 0x94 executeDictiremmin
      |>.set 0x95 executeDictiremminref
      |>.set 0x96 executeDicturemmin
      |>.set 0x97 executeDicturemminref
      |>.set 0x9A executeDictremmax
      |>.set 0x9B executeDictremmaxref
      |>.set 0x9C executeDictiremmax
      |>.set 0x9D executeDictiremmaxref
      |>.set 0x9E executeDicturemmax
      |>.set 0x9F executeDicturemmaxref
      |>.set 0xA0 executeDictigetjmp
      |>.set 0xA1 executeDictugetjmp
      |>.set 0xA2 executeDictigetexec
      |>.set 0xA3 executeDictugetexec
      |>.setRange 0xA4 0xA8 executeDictpushconst
      |>.set 0xA8 executePfxdictgetq
      |>.set 0xA9 executePfxdictget
      |>.set 0xAA executePfxdictgetjmp
      |>.set 0xAB executePfxdictgetexec
      |>.setRange 0xAC 0xAF executePfxdictswitch
      |>.set 0xAF executePfxdictswitch
      |>.set 0xB1 executeSubdictget
      |>.set 0xB2 executeSubdictiget
      |>.set 0xB3 executeSubdictuget
      |>.set 0xB5 executeSubdictrpget
      |>.set 0xB6 executeSubdictirpget
      |>.set 0xB7 executeSubdicturpget
      |>.set 0xBC executeDictigetjmpz
      |>.set 0xBD executeDictugetjmpz
      |>.set 0xBE executeDictigetexecz
      |>.set 0xBF executeDictugetexecz)

def addCodePage0GasRandConfig (self : Handlers (M Unit)) : Handlers (M Unit) :=
  self
    |>.addSubset 0xF8 (new
      |>.set 0x00 executeAccept
      |>.set 0x01 executeSetgaslimit
      |>.set 0x02 executeBuygas
      |>.set 0x04 executeGramtogas
      |>.set 0x05 executeGastogram
      |>.set 0x06 executeGasRemaining
      |>.set 0x0F executeCommit
      |>.set 0x10 executeRandu256
      |>.set 0x11 executeRand
      |>.set 0x14 executeSetrand
      |>.set 0x15 executeAddrand
      |>.set 0x20 executeGetparam
      |>.set 0x21 executeGetparam
      |>.set 0x22 executeGetparam
      |>.set 0x23 executeNow
      |>.set 0x24 executeBlocklt
      |>.set 0x25 executeLtime
      |>.set 0x26 executeRandseed
      |>.set 0x27 executeBalance
      |>.set 0x28 executeMyAddr
      |>.set 0x29 executeConfigRoot
      |>.set 0x2A executeMyCode
      |>.set 0x2B executeInitCodeHash
      |>.set 0x2C executeStorageFeesCollected
      |>.set 0x2D executeSeqNo
      |>.set 0x30 executeConfigDict
      |>.set 0x32 executeConfigRefParam
      |>.set 0x33 executeConfigOptParam
      |>.set 0x40 executeGetglobvar
      |>.setRange 0x41 0x5F executeGetglob
      |>.set 0x5F executeGetglob
      |>.set 0x60 executeSetglobvar
      |>.setRange 0x61 0x7F executeSetglob
      |>.set 0x7F executeSetglob)

def addCodePage0Crypto (self : Handlers (M Unit)) : Handlers (M Unit) :=
  self
    |>.addSubset 0xF9 (new
      |>.set 0x00 executeHashcu
      |>.set 0x01 executeHashsu
      |>.set 0x02 executeSha256u
      |>.set 0x10 executeChksignu
      |>.set 0x11 executeChksigns
      |>.set 0x40 executeCdatasizeq
      |>.set 0x41 executeCdatasize
      |>.set 0x42 executeSdatasizeq
      |>.set 0x43 executeSdatasize
      |>.set 0x44 executeFindByInitCodeHash
      |>.set 0x45 executeFindByCodeHash
      |>.set 0x46 executeFindByDataHash
      |>.set 0x50 executeTryElect)

def addCodePage0Debug (self : Handlers (M Unit)) : Handlers (M Unit) :=
  self
    |>.addSubset 0xFE (new
      |>.set 0x00 executeDumpStack
      |>.setRange 0x01 0x0F executeDumpStackTop
      |>.set 0x10 executeDumpHex
      |>.set 0x11 executePrintHex
      |>.set 0x12 executeDumpBin
      |>.set 0x13 executePrintBin
      |>.set 0x14 executeDumpStr
      |>.set 0x15 executePrintStr
      |>.set 0x1E executeDebugOff
      |>.set 0x1F executeDebugOn
      |>.setRange 0x20 0x2F executeDumpVar
      |>.setRange 0x30 0x3F executePrintVar
      |>.setRange 0xF0 0xFF executeDumpString
      |>.set 0xFF executeDumpString)

def newCodePage0 : Handlers (M Unit) :=
  new
    |>.addCodePage0PartStack
    |>.addCodePage0Tuple
    |>.addCodePage0PartConstant
    |>.addCodePage0Arithmetic
    |>.addCodePage0Comparsion
    |>.addCodePage0Cell
    |>.addCodePage0ControlFlow
    |>.addCodePage0Exceptions
    |>.addCodePage0Dictionaries
    |>.addCodePage0GasRandConfig
    |>.addCodePage0Blockchain
    |>.addCodePage0Crypto
    |>.addCodePage0Debug
    |>.addSubset 0xFF (new
      |>.setRange 0x00 0xF0 executeSetcp
      |>.set 0xF0 executeSetcpx
      |>.setRange 0xF1 0xFF executeSetcp
      |>.set 0xFF executeSetcp)

end Handlers

end TonVm
