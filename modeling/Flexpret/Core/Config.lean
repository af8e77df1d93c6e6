import Flexpret.Lib.Numerals
import Mathlib.Data.Nat.Log

/-! # Configuration of the FlexPRET Core

    `FlexpretConfiguration` and the constants that several units share.
-/

namespace Flexpret.Core

/-! ## Section 1: The configuration -/

/-- The `features` string. -/
inductive Features where
  | min
  | ex
  | ti
  | all
  deriving DecidableEq

/-- `FlexpretConfiguration`.  The CSRs and the external interrupt lines hold
    up to eight hardware threads. -/
structure FlexpretConfiguration where
  threads : Nat
  flex : Bool
  iMemKB : Nat
  dMemKB : Nat
  mul : Bool
  features : Features
  threads_pos : 0 < threads
  threads_le : threads ≤ 8

/-- `Causes` of traps, 5 bits each. -/
abbrev Cause : Type := BitVec 5

namespace Causes

def misalignedFetch : Cause := 0
def faultFetch : Cause := 1
def illegalInstruction : Cause := 2
def privilegedInstruction : Cause := 3
def syscall : Cause := 6
def misalignedLoad : Cause := 8
def misalignedStore : Cause := 9
def faultLoad : Cause := 10
def faultStore : Cause := 11
def ee : Cause := 0xd
def fd : Cause := 0xf
def ie : Cause := 0x1d
def externalInt : Cause := 0x1e

end Causes

/-- `log2Up`: the bits that tell `n` values apart, at least one. -/
def log2Up (n : Nat) : Nat := max 1 (Nat.clog 2 n)

namespace FlexpretConfiguration

variable (conf : FlexpretConfiguration)

/-- A hardware thread. -/
abbrev Tid : Type := Fin conf.threads

instance : NeZero conf.threads := ⟨conf.threads_pos.ne'⟩

def mt : Bool := conf.threads > 1
def stats : Bool := conf.features = .all
def gpioProtection : Bool := conf.features ≠ .min && conf.mt
def memProtection : Bool := conf.features ≠ .min && conf.mt
def delayUntil : Bool := conf.features = .ti || conf.features = .all
def interruptExpire : Bool := conf.features = .ti || conf.features = .all
def externalInterrupt : Bool := conf.features ≠ .min

def supportedCauses : List Cause :=
  match conf.features with
  | .min => []
  | .ex | .ti => [0, 2, 3, 6, 8, 9]
  | .all => [0, 1, 2, 3, 6, 8, 9, 10, 11]

def regBrJmp : Bool := conf.mt && !conf.flex
def regEvec : Bool := true
def regSchedule : Bool := true
def dedicatedCsrData : Bool := true
def iMemCoreRW : Bool := true
def privilegedMode : Bool := false

/-- `log2Up(threads)`. -/
def threadBits : Nat := log2Up conf.threads

def bypassing : Bool := conf.threads < 4 || conf.flex
def roundRobin : Bool := !conf.flex
def getTime : Bool := conf.delayUntil || conf.interruptExpire

def exceptions : Bool :=
  !conf.supportedCauses.isEmpty || conf.interruptExpire || conf.externalInterrupt

def causes : List Cause :=
  conf.supportedCauses ++
    (if conf.interruptExpire then [Causes.ee, Causes.ie, Causes.fd] else []) ++
    (if conf.externalInterrupt then [Causes.externalInt] else [])

/-- Words of the instruction scratchpad. -/
def iMemDepth : Nat := 256 * conf.iMemKB
def iMemAddrBits : Nat := log2Up conf.iMemDepth
def iMemHighIndex : Nat := log2Up (4 * conf.iMemDepth) - 1

/-- Words of the data scratchpad, whose addresses count bytes. -/
def dMemDepth : Nat := 256 * conf.dMemKB
def dMemAddrBits : Nat := log2Up (4 * conf.dMemDepth)
def dMemHighIndex : Nat := log2Up (4 * conf.dMemDepth) - 1

/-- The bus address: the upper bits are the thread. -/
def busAddrBits : Nat := 10

def memRegions : Nat := 8
def iMemLowIndex : Nat := conf.iMemHighIndex - log2Up memRegions + 1
def dMemLowIndex : Nat := conf.dMemHighIndex - log2Up memRegions + 1

theorem tid_lt_two_pow (t : conf.Tid) : t.val < 2 ^ conf.threadBits := by
  have hclog : conf.threads ≤ 2 ^ Nat.clog 2 conf.threads := Nat.le_pow_clog Nat.one_lt_two _
  have hpow : 2 ^ Nat.clog 2 conf.threads ≤ 2 ^ conf.threadBits :=
    Nat.pow_le_pow_right Nat.two_pos (Nat.le_max_right _ _)
  exact t.isLt.trans_le (hclog.trans hpow)

end FlexpretConfiguration

/-- The configuration `4tf-16i-16d-ti`. -/
def conf4tf : FlexpretConfiguration where
  threads := 4
  flex := true
  iMemKB := 16
  dMemKB := 16
  mul := false
  features := .ti
  threads_pos := by decide
  threads_le := by decide

/-! ## Section 2: Thread modes and slots -/

def tmodeHA : BitVec 2 := 0
def tmodeHZ : BitVec 2 := 1
def tmodeSA : BitVec 2 := 2
def tmodeSZ : BitVec 2 := 3

def slotS : BitVec 4 := 14
def slotD : BitVec 4 := 15

end Flexpret.Core
