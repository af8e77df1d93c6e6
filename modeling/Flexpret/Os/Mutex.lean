import Flexpret.Lib.Numerals
import Mathlib.Logic.Function.Basic
import Mathlib.Tactic.Common

/-! # Mutexes of the FlexPRET OS

    The mutex control block, the eight mutex CSRs, and the bodies of
    `osMutexAcquire` and `osMutexRelease` cut into atomic steps: a step is one
    CSR swap or write, or one read or write of `owner` or `count`, with the
    local computation up to the next such access.

    A value of `Tid` is what `osThreadGetId` returns; `none` is `NULL`.
-/

namespace Flexpret.Os

/-! ## Section 1: Status codes and configuration -/

/-- `osStatus_t`, as far as the modelled functions return it. -/
inductive OsStatus where
  | osOK
  | osError
  | osErrorTimeout
  | osErrorResource
  | osErrorParameter
  deriving DecidableEq, Repr

/-- `FLEXPRET_MUTEX_MAX_NUM`. -/
abbrev flexpretMutexMaxNum : Nat := 8

/-- `FLEXPRET_WAIT_PERIOD`, in nanoseconds. -/
def flexpretWaitPeriod : BitVec 32 := 10000

/-- `osWaitForever`. -/
def osWaitForever : BitVec 32 := 0xFFFFFFFF

/-- `FLEXPRET_MUTEX_INACTIVE`: the CSR value of a taken mutex. -/
def flexpretMutexInactive : Int := 1

/-- `FLEXPRET_MUTEX_ACTIVE`: the CSR value of a free mutex. -/
def flexpretMutexActive : Int := 0

/-! ## Section 2: The mutex CSRs -/

/-- The hardware's eight 4-bit mutex registers. -/
abbrev MutexCsrs : Type := Fin 8 → BitVec 4

/-- The register `csr_addr` names, when it is one of `CSR_MUTEX_0..7`. -/
def mutexCsr? (i : Int) : Option (Fin 8) :=
  if h : i.toNat < 8 ∧ 0 ≤ i then some ⟨i.toNat, h.1⟩ else none

/-- `write_mutex_csr`: the `default` case of its switch writes nothing. -/
def writeMutexCsr (csrs : MutexCsrs) (i val : Int) : MutexCsrs :=
  match mutexCsr? i with
  | some k => Function.update csrs k (BitVec.ofInt 4 val)
  | none => csrs

/-- `swap_mutex_csr`: the old value, or `-1` in the `default` case. -/
def swapMutexCsr (csrs : MutexCsrs) (i val : Int) : MutexCsrs × Int :=
  match mutexCsr? i with
  | some k => (Function.update csrs k (BitVec.ofInt 4 val), (csrs k).toNat)
  | none => (csrs, -1)

@[simp] theorem mutexCsr?_natCast (k : Fin 8) : mutexCsr? (k.val : Int) = some k := by
  simp [mutexCsr?]

@[simp] theorem writeMutexCsr_natCast (csrs : MutexCsrs) (k : Fin 8) (val : Int) :
    writeMutexCsr csrs k.val val = Function.update csrs k (BitVec.ofInt 4 val) := by
  simp [writeMutexCsr]

@[simp] theorem swapMutexCsr_natCast (csrs : MutexCsrs) (k : Fin 8) (val : Int) :
    swapMutexCsr csrs k.val val =
      (Function.update csrs k (BitVec.ofInt 4 val), ((csrs k).toNat : Int)) := by
  simp [swapMutexCsr]

/-! ## Section 3: The control block -/

/-- `mutex_state`.  `count` is a C `int`, kept as its 32 bits. -/
structure MutexState (Tid : Type) where
  owner : Option Tid
  csrAddr : Int
  count : BitVec 32
  ifRecursive : Bool
  ifRobust : Bool
  active : Bool
  ifSpin : Bool

/-- `osMutexAttr_t`: the two attribute bits the code acts on. -/
structure OsMutexAttr where
  osMutexRecursive : Bool
  osMutexRobust : Bool

/-- What `osMutexNew` stores in entry `mid` of `startup_mutex_state`. -/
def osMutexNewEntry {Tid : Type} (attr : OsMutexAttr) (mid : Nat) : MutexState Tid where
  owner := none
  csrAddr := mid
  count := 0
  ifRecursive := attr.osMutexRecursive
  ifRobust := attr.osMutexRobust
  active := true
  ifSpin := false

/-! ## Section 4: Acquire and release, step by step -/

/-- Where a thread stands inside a call.  The arguments are the registers
    that are live there. -/
inductive Pc where
  /-- First `swap_mutex_csr` of `osMutexAcquire`. -/
  | acqSwap (timeout : BitVec 32)
  /-- The swap found the mutex free: `mutex->owner == NULL`. -/
  | acqCheckOwner
  /-- "Bad mutex status". -/
  | acqBadStatus
  | acqWriteOwner
  | acqWriteCount
  /-- The swap found it taken: `mutex->owner == osThreadGetId()`. -/
  | acqReadOwner (timeout : BitVec 32)
  | recReadCount
  | recWriteCount (c : BitVec 32)
  | foreverSwap
  | foreverDelay
  | spinTime (timeout : BitVec 32)
  | spinSwap (timeout ctime : BitVec 32)
  | spinCheck (timeout ctime : BitVec 32)
  | timedDelay (timeout timePeriod allTime : BitVec 32)
  | timedSwap (timeout timePeriod allTime : BitVec 32)
  /-- First read of `owner` in `osMutexRelease`. -/
  | relReadNull
  | relReadOwner
  | relReadCount
  | relWriteCount (c : BitVec 32)
  | relTestCount
  | relWriteOwner
  | relWriteCsr
  deriving DecidableEq

/-- After a step the call goes on at a program point or returns. -/
inductive Outcome where
  | next (pc : Pc)
  | ret (status : OsStatus)

/-- `osMutexAcquire` up to its first atomic step. -/
def startAcquire {Tid : Type} (m : MutexState Tid) (timeout : BitVec 32) : Outcome :=
  if m.active then .next (.acqSwap timeout) else .ret .osErrorParameter

/-- `osMutexRelease` up to its first atomic step. -/
def startRelease {Tid : Type} (m : MutexState Tid) : Outcome :=
  if m.active then .next .relReadNull else .ret .osErrorParameter

section steps

variable {Tid : Type} [DecidableEq Tid]

/-- The wait path a failed first attempt takes. -/
def waitPath (m : MutexState Tid) (timeout : BitVec 32) : Outcome :=
  if timeout = 0 then .ret .osErrorResource
  else if timeout = osWaitForever then .next .foreverSwap
  else if m.ifSpin then .next (.spinTime timeout)
  else
    let timePeriod := if timeout > flexpretWaitPeriod then flexpretWaitPeriod else timeout
    .next (.timedDelay timeout timePeriod 0)

/-- One `swap_mutex_csr(mutex->csr_addr, FLEXPRET_MUTEX_INACTIVE)`, which goes
    on at `won` when it returned `FLEXPRET_MUTEX_ACTIVE` and at `lost`
    otherwise. -/
def trySwap (m : MutexState Tid) (csrs : MutexCsrs) (won lost : Outcome) :
    MutexState Tid × MutexCsrs × Outcome :=
  let r := swapMutexCsr csrs m.csrAddr flexpretMutexInactive
  (m, r.1, if r.2 = flexpretMutexActive then won else lost)

/-- The atomic step of thread `me` at a program point.  `now` is the clock,
    used by the steps that read it. -/
def runStep (me : Tid) (now : BitVec 32) (m : MutexState Tid) (csrs : MutexCsrs) :
    Pc → MutexState Tid × MutexCsrs × Outcome
  | .acqSwap timeout =>
      trySwap m csrs (.next .acqCheckOwner) (.next (.acqReadOwner timeout))
  | .acqCheckOwner =>
      (m, csrs, .next (if m.owner = none then .acqWriteOwner else .acqBadStatus))
  | .acqBadStatus =>
      (m, writeMutexCsr csrs m.csrAddr flexpretMutexActive, .ret .osError)
  | .acqWriteOwner => ({ m with owner := some me }, csrs, .next .acqWriteCount)
  | .acqWriteCount => ({ m with count := 1 }, csrs, .ret .osOK)
  | .acqReadOwner timeout =>
      (m, csrs, if m.owner = some me ∧ m.ifRecursive then .next .recReadCount
                else waitPath m timeout)
  | .recReadCount => (m, csrs, .next (.recWriteCount m.count))
  | .recWriteCount c => ({ m with count := c + 1 }, csrs, .ret .osOK)
  | .foreverSwap =>
      trySwap m csrs (.next .acqWriteOwner)
        (.next (if m.ifSpin then .foreverSwap else .foreverDelay))
  | .foreverDelay => (m, csrs, .next .foreverSwap)
  | .spinTime timeout => (m, csrs, .next (.spinSwap timeout now))
  | .spinSwap timeout ctime =>
      trySwap m csrs (.next .acqWriteOwner) (.next (.spinCheck timeout ctime))
  | .spinCheck timeout ctime =>
      (m, csrs, if now < timeout + ctime then .next (.spinSwap timeout ctime)
                else .ret .osErrorTimeout)
  | .timedDelay timeout timePeriod allTime =>
      (m, csrs, .next (.timedSwap timeout timePeriod allTime))
  | .timedSwap timeout timePeriod allTime =>
      trySwap m csrs (.next .acqWriteOwner)
        (if allTime + timePeriod < timeout then
          .next (.timedDelay timeout timePeriod (allTime + timePeriod))
         else .ret .osErrorTimeout)
  | .relReadNull =>
      (m, csrs, if m.owner = none then .ret .osErrorResource else .next .relReadOwner)
  | .relReadOwner =>
      (m, csrs, if m.owner ≠ some me then .ret .osErrorResource else .next .relReadCount)
  | .relReadCount => (m, csrs, .next (.relWriteCount m.count))
  | .relWriteCount c => ({ m with count := c - 1 }, csrs, .next .relTestCount)
  | .relTestCount =>
      (m, csrs, if m.count = 0 then .next .relWriteOwner else .ret .osOK)
  | .relWriteOwner => ({ m with owner := none }, csrs, .next .relWriteCsr)
  | .relWriteCsr =>
      (m, writeMutexCsr csrs m.csrAddr flexpretMutexActive, .ret .osOK)

end steps

end Flexpret.Os
