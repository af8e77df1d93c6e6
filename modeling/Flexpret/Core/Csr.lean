import Flexpret.Core.Decode
import Flexpret.Core.Scheduler
import Mathlib.Logic.Function.Basic

/-! # The Control and Status Registers

    The `CSR` module: the registers software reads and writes, the clock, the
    timers, and the state that traps leave behind.  Every register is a
    function of the cycle's inputs; where several assignments of the source
    meet, the last one that is enabled wins.
-/

namespace Flexpret.Core

/-! ## Section 1: Constants -/

namespace CSRs

def clock : BitVec 12 := 0x001
def sup0 : BitVec 12 := 0x500
def epc : BitVec 12 := 0x502
def slots : BitVec 12 := 0x503
def tmodes : BitVec 12 := 0x504
def iMemProtection : BitVec 12 := 0x505
def compare : BitVec 12 := 0x507
def evec : BitVec 12 := 0x508
def cause : BitVec 12 := 0x509
def status : BitVec 12 := 0x50a
def hartid : BitVec 12 := 0x50b
def dMemProtection : BitVec 12 := 0x50c
def gpoProtection : BitVec 12 := 0x50d
def tohost : BitVec 12 := 0x51e
def cycle : BitVec 12 := 0xc00
def time : BitVec 12 := 0xc01
def instret : BitVec 12 := 0xc02
def cycleh : BitVec 12 := 0xc80
def timeh : BitVec 12 := 0xc81
def instreth : BitVec 12 := 0xc82
def gpiBase : BitVec 12 := 0xcc0
def gpoBase : BitVec 12 := 0xcc4

/-- `uarch8` .. `uarch15`: the hardware mutexes. -/
def uarch8 : BitVec 12 := 0xcc8

end CSRs

/-- What the comparator of a thread is used for. -/
inductive TimerMode where
  | off
  | duWu
  | ie
  | ee
  deriving DecidableEq

def tmodeAndA : BitVec 2 := 2
def tmodeOrZ : BitVec 2 := 1

def mempSH : BitVec 4 := 8
def mempRO : BitVec 4 := 12

/-- A protection mode lets thread `t` write: it is shared or names `t`, and is
    not read-only. -/
def permits (conf : FlexpretConfiguration) (mode : BitVec 4) (t : conf.Tid) : Bool :=
  (mode = mempSH || (mode.setWidth conf.threadBits).toNat = t.val) && mode ≠ mempRO

/-- `conf.timeInc`. -/
def timeInc : BitVec 64 := 10

/-! ## Section 2: Assignments -/

section assignments

variable {ι α : Type*} [DecidableEq ι]

/-- `when(c) { reg(t) := v }`, over what was assigned before. -/
def assign (c : Bool) (t : ι) (v : α) (reg : ι → α) : ι → α :=
  if c then Function.update reg t v else reg

@[simp] theorem assign_ne {c : Bool} {t u : ι} (h : u ≠ t) (v : α) (reg : ι → α) :
    assign c t v reg u = reg u := by
  simp only [assign]
  split
  · exact Function.update_of_ne h v reg
  · rfl

@[simp] theorem assign_self (c : Bool) (t : ι) (v : α) (reg : ι → α) :
    assign c t v reg t = if c then v else reg t := by
  simp only [assign]
  split
  · exact Function.update_self t v reg
  · rfl

theorem assign_apply (c : Bool) (t u : ι) (v : α) (reg : ι → α) :
    assign c t v reg u = if c && t = u then v else reg u := by
  by_cases h : t = u
  · subst h
    simp
  · simp [assign_ne (Ne.symm h), h]

/-- Two assignments agree at `u` when they assign there at the same time and
    the same value. -/
theorem assign_congr {c c' : Bool} {t t' u : ι} {v v' : α} {reg reg' : ι → α}
    (hc : (c && decide (t = u)) = (c' && decide (t' = u)))
    (hv : (c && decide (t = u)) = true → v = v') (hreg : reg u = reg' u) :
    assign c t v reg u = assign c' t' v' reg' u := by
  rw [assign_apply, assign_apply, ← hc, hreg]
  split
  · exact hv ‹_›
  · rfl

end assignments

/-- `toBits` of a vector: the first element in the low bits. -/
def toBits {n w : Nat} (v : Fin n → BitVec w) : BitVec 32 :=
  (List.finRange n).foldr (fun i acc => ((v i).setWidth 32 <<< (w * i.val)) ||| acc) 0

/-- The `w`-bit field `i` of a word. -/
def field (data : BitVec 32) (w i : Nat) : BitVec w := data.extractLsb' (w * i) w

theorem getLsbD_foldr_or {ι : Type*} {w : Nat} (f : ι → BitVec w) (l : List ι) (k : Nat) :
    (l.foldr (fun i acc => f i ||| acc) 0).getLsbD k = l.any fun i => (f i).getLsbD k := by
  induction l with
  | nil => simp
  | cons i l ih => rw [List.foldr_cons, BitVec.getLsbD_or, ih, List.any_cons]

/-- The elements of a vector of at most 32 bits do not overlap. -/
theorem field_toBits {n w : Nat} (hw : w * n ≤ 32) (v : Fin n → BitVec w) (i : Fin n) :
    field (toBits v) w i.val = v i := by
  apply BitVec.eq_of_getLsbD_eq
  intro j hj
  have hi : w * i.val + w ≤ w * n := by
    rw [← Nat.mul_succ]
    exact Nat.mul_le_mul_left w i.isLt
  rw [field, BitVec.getLsbD_extractLsb', toBits, getLsbD_foldr_or]
  simp only [hj, decide_true, Bool.true_and]
  rw [Bool.eq_iff_iff, List.any_eq_true]
  constructor
  · intro ⟨p, _, hp⟩
    simp only [BitVec.getLsbD_shiftLeft, BitVec.getLsbD_setWidth, Bool.and_eq_true,
      Bool.not_eq_true', decide_eq_true_eq, decide_eq_false_iff_not] at hp
    obtain ⟨⟨-, hle⟩, -, hbit⟩ := hp
    have hlt := BitVec.lt_of_getLsbD hbit
    -- the bit lies in the field of `p`, so that is the field of `i`
    have hpi : p = i := by
      rcases Nat.lt_trichotomy p.val i.val with hlt' | heq | hgt
      · have hbelow := Nat.mul_le_mul_left w hlt'
        rw [Nat.mul_succ] at hbelow
        omega
      · exact Fin.ext heq
      · have habove := Nat.mul_le_mul_left w hgt
        rw [Nat.mul_succ] at habove
        omega
    subst hpi
    simpa using hbit
  · intro hbit
    refine ⟨i, List.mem_finRange i, ?_⟩
    simp only [BitVec.getLsbD_shiftLeft, BitVec.getLsbD_setWidth, Nat.add_sub_cancel_left, hbit]
    simp
    omega

/-- `(now - deadline)(31) === 0`: the clock has come to the deadline. -/
def reached (now deadline : BitVec 32) : Bool := !(now - deadline).msb

/-! ## Section 3: State and inputs -/

variable (conf : FlexpretConfiguration)

/-- The registers.  `reg_prv`, `reg_prv1` and `reg_ie1` are not assigned
    without the privileged mode and keep their reset value. -/
structure CsrState where
  regSlots : Fin 8 → BitVec 4
  regTmodes : conf.Tid → BitVec 2
  regEvecs : conf.Tid → BitVec 32
  regEpcs : conf.Tid → BitVec 32
  regCauses : conf.Tid → Cause
  regSup0 : conf.Tid → BitVec 32
  regTime : BitVec 64
  regCompare : conf.Tid → BitVec 32
  regToHost : BitVec 32
  regGpis : Fin 4 → BitVec 1
  regGpos : Fin 4 → BitVec 2
  regGpoProtection : Fin 4 → BitVec 4
  regImemProtection : Fin 8 → BitVec 4
  regDmemProtection : Fin 8 → BitVec 4
  regCycle : conf.Tid → BitVec 64
  regInstret : conf.Tid → BitVec 64
  regMtie : conf.Tid → Bool
  regIe : conf.Tid → Bool
  regMsip : conf.Tid → Bool
  regMutex : Fin 8 → BitVec 4
  regMtfd : conf.Tid → BitVec 32
  regTimer : conf.Tid → TimerMode
  fdReg : Bool
  threadReg : conf.Tid
  mtfdExceptionReg : conf.Tid → Bool

/-- The inputs of a cycle.  `thread` is the thread in the execute stage. -/
structure CsrIn where
  addr : BitVec 12
  thread : conf.Tid
  csrType : BitVec 2
  write : Bool
  dataIn : BitVec 32
  valid : Bool
  kill : Bool
  exception : Bool
  epc : BitVec 32
  cause : Cause
  sleep : Bool
  ie : Bool
  ee : Bool
  gpioIn : Fin 4 → BitVec 1
  intExts : conf.Tid → Bool
  cycle : Bool
  instret : Bool
  mt : Bool
  fd : Bool
  mtfdVal : BitVec 32

/-- The registers that have a reset value; the others start with any. -/
structure CsrReset (s : CsrState conf) : Prop where
  slots : ∀ p, s.regSlots p = if p = 7 then 0 else slotD
  tmodes : ∀ t, s.regTmodes t = if t = 0 then tmodeHA else tmodeHZ
  time : s.regTime = 0
  toHost : s.regToHost = 0
  gpos : ∀ p, s.regGpos p = 0
  gpoProtection : ∀ p, s.regGpoProtection p = if p = 0 then 0 else mempSH
  imemProtection : ∀ p, s.regImemProtection p = if p = 0 then mempSH else mempRO
  dmemProtection : ∀ p, s.regDmemProtection p = mempSH
  mtie : ∀ t, s.regMtie t = false
  ie : ∀ t, s.regIe t = false
  msip : ∀ t, s.regMsip t = false
  timer : ∀ t, s.regTimer t = .off
  mtfdException : ∀ t, s.mtfdExceptionReg t = false

/-- The registers after reset, with zeros where reset leaves them open. -/
def csrZero : CsrState conf where
  regSlots := fun p => if p = 7 then 0 else slotD
  regTmodes := fun t => if t = 0 then tmodeHA else tmodeHZ
  regEvecs := fun _ => 0
  regEpcs := fun _ => 0
  regCauses := fun _ => 0
  regSup0 := fun _ => 0
  regTime := 0
  regCompare := fun _ => 0
  regToHost := 0
  regGpis := fun _ => 0
  regGpos := fun _ => 0
  regGpoProtection := fun p => if p = 0 then 0 else mempSH
  regImemProtection := fun p => if p = 0 then mempSH else mempRO
  regDmemProtection := fun _ => mempSH
  regCycle := fun _ => 0
  regInstret := fun _ => 0
  regMtie := fun _ => false
  regIe := fun _ => false
  regMsip := fun _ => false
  regMutex := fun _ => 0
  regMtfd := fun _ => 0
  regTimer := fun _ => .off
  fdReg := false
  threadReg := 0
  mtfdExceptionReg := fun _ => false

theorem csrZero_reset : CsrReset conf (csrZero conf) := by
  constructor <;> intros <;> rfl

variable {conf}

namespace CsrState

variable (s : CsrState conf)

/-! ## Section 4: Outputs -/

/-- `reg_time(31, 0)`. -/
def time32 : BitVec 32 := s.regTime.setWidth 32

/-- The low 32 bits of the status word: `mtie` is bit 30, then `prv1`, `ie1`
    and `prv`, and `ie` and `msip` are bits 4 and 3. -/
def status (t : conf.Tid) : BitVec 32 :=
  0#1 ++ BitVec.ofBool (s.regMtie t) ++ 0#20 ++ 0#2 ++ 0#1 ++ 3#2 ++
    BitVec.ofBool (s.regIe t) ++ BitVec.ofBool (s.regMsip t) ++ 0#3

/-- `Cat(cause(4), 0, cause(3, 0))`. -/
def causeWord (t : conf.Tid) : BitVec 32 :=
  (s.regCauses t).extractLsb' 4 1 ++ 0#27 ++ (s.regCauses t).extractLsb' 0 4

/-- `io.rw.data_out`. -/
def dataOut (addr : BitVec 12) (t : conf.Tid) : BitVec 32 :=
  if conf.threads > 1 && addr = CSRs.slots then toBits s.regSlots
  else if conf.threads > 1 && addr = CSRs.hartid then BitVec.ofNat 32 t.val
  else if addr = CSRs.tmodes then toBits s.regTmodes
  else if conf.exceptions && addr = CSRs.evec then s.regEvecs t
  else if conf.exceptions && addr = CSRs.epc then s.regEpcs t
  else if conf.exceptions && addr = CSRs.cause then s.causeWord t
  else if conf.exceptions && addr = CSRs.sup0 then s.regSup0 t
  else if conf.getTime && addr = CSRs.clock then s.time32
  else if addr = CSRs.tohost then s.regToHost
  else if h : (addr - CSRs.gpiBase).toNat < 4 then
    (s.regGpis ⟨(addr - CSRs.gpiBase).toNat, h⟩).setWidth 32
  else if h : (addr - CSRs.gpoBase).toNat < 4 then
    (s.regGpos ⟨(addr - CSRs.gpoBase).toNat, h⟩).setWidth 32
  else if conf.gpioProtection && addr = CSRs.gpoProtection then toBits s.regGpoProtection
  else if conf.memProtection && addr = CSRs.iMemProtection then toBits s.regImemProtection
  else if conf.memProtection && addr = CSRs.dMemProtection then toBits s.regDmemProtection
  else if conf.stats && addr = CSRs.time then s.time32
  else if conf.stats && addr = CSRs.cycle then (s.regCycle t).setWidth 32
  else if conf.stats && addr = CSRs.instret then (s.regInstret t).setWidth 32
  else if conf.stats && addr = CSRs.timeh then s.regTime.extractLsb' 32 32
  else if conf.stats && addr = CSRs.cycleh then (s.regCycle t).extractLsb' 32 32
  else if conf.stats && addr = CSRs.instreth then (s.regInstret t).extractLsb' 32 32
  else if addr = CSRs.status then s.status t
  else if h : (addr - CSRs.uarch8).toNat < 8 then
    (s.regMutex ⟨(addr - CSRs.uarch8).toNat, h⟩).setWidth 32
  else 0

/-- `expired(tid)`: with `roundRobin` there is one comparator, for the thread
    in execute. -/
def expired (t u : conf.Tid) : Bool :=
  (conf.delayUntil || conf.interruptExpire) &&
    !(conf.roundRobin && t ≠ u) && reached s.time32 (s.regCompare u)

/-- `exc_expire`: the timer exception of the thread in execute. -/
def excExpire (t : conf.Tid) (valid : Bool) : Bool :=
  conf.interruptExpire && valid && s.regTimer t = .ee && s.expired t t

/-- The timer interrupt of the thread in execute becomes pending. -/
def mtieSet (t : conf.Tid) (valid : Bool) : Bool :=
  conf.interruptExpire && valid && s.regTimer t = .ie && s.expired t t

/-- `int_expire`. -/
def intExpire (t : conf.Tid) (valid : Bool) : Bool :=
  conf.interruptExpire && s.regIe t && (s.regMtie t || s.mtieSet t valid)

/-- `int_ext`. -/
def intExt (t : conf.Tid) : Bool :=
  conf.causes.contains Causes.externalInt && s.regIe t && s.regMsip t

/-- The wire `mtfd_exception`: an `fd` came after its deadline. -/
def mtfdMissed : Bool :=
  s.fdReg && s.regMtfd s.threadReg ≠ 0 && reached s.time32 (s.regMtfd s.threadReg)

/-! ## Section 5: The registers after the cycle -/

variable (i : CsrIn conf)

/-- The word a CSR instruction writes. -/
def dataIn : BitVec 32 :=
  let dataOut := s.dataOut i.addr i.thread
  if i.csrType = csrS then dataOut ||| i.dataIn
  else if i.csrType = csrC then dataOut &&& ~~~i.dataIn
  else i.dataIn

end CsrState

/-- The instruction in execute writes the CSR.  There is no `priv_fault`
    without the privileged mode. -/
def CsrIn.writes (i : CsrIn conf) (csr : BitVec 12) : Bool :=
  i.write && !i.kill && i.addr = csr

namespace CsrState

variable (s : CsrState conf) (i : CsrIn conf)

/-- `reg_gpo_protection` lets thread `t` write the port. -/
def gpoWritable (t : conf.Tid) (p : Fin 4) : Bool :=
  !conf.gpioProtection || permits conf (s.regGpoProtection p) t

/-- The time of thread `u` has come while it is delayed. -/
def delayOver (u : conf.Tid) : Bool :=
  conf.delayUntil && s.regTimer u = .duWu && s.expired i.thread u

/-- `wake(tid)`: an expired delay or the thread's interrupt line. -/
def wake (u : conf.Tid) : Bool :=
  s.delayOver i u || (conf.causes.contains Causes.externalInt && i.intExts u)

def nextTmodes : conf.Tid → BitVec 2 :=
  let regs : conf.Tid → BitVec 2 :=
    if i.writes CSRs.tmodes then fun u => field (s.dataIn i) 2 u.val else s.regTmodes
  let regs := assign (conf.delayUntil && i.sleep) i.thread
    (s.regTmodes i.thread ||| tmodeOrZ) regs
  fun u => if s.wake i u then s.regTmodes u &&& tmodeAndA else regs u

def nextTimer : conf.Tid → TimerMode :=
  let regs := assign ((conf.delayUntil || conf.interruptExpire) && i.writes CSRs.compare)
    i.thread .off s.regTimer
  let regs := assign (conf.delayUntil && i.sleep) i.thread .duWu regs
  let regs : conf.Tid → TimerMode := fun u => if s.delayOver i u then .off else regs u
  let regs := assign (conf.interruptExpire && i.ee) i.thread .ee regs
  let regs := assign (s.excExpire i.thread i.valid) i.thread .off regs
  let regs := assign (conf.interruptExpire && i.ie) i.thread .ie regs
  assign (s.mtieSet i.thread i.valid) i.thread .off regs

/-- Trap entry clears the bits of all threads: `reg_ie := Bool(false)`. -/
def nextIe : conf.Tid → Bool :=
  let regs := assign (conf.exceptions && i.writes CSRs.status) i.thread
    ((s.dataIn i).getLsbD 4) s.regIe
  if i.exception then fun _ => false else regs

def nextMtie : conf.Tid → Bool :=
  let regs := assign (conf.interruptExpire && i.writes CSRs.status) i.thread
    ((s.dataIn i).getLsbD 26) s.regMtie
  assign (s.mtieSet i.thread i.valid) i.thread true regs

/-- Whichever line is asserted, the bit set is that of the thread in execute. -/
def nextMsip : conf.Tid → Bool :=
  let regs := assign (conf.externalInterrupt && i.writes CSRs.status) i.thread
    ((s.dataIn i).getLsbD 3) s.regMsip
  assign (conf.causes.contains Causes.externalInt && anyOf i.intExts) i.thread true regs

def nextEpcs : conf.Tid → BitVec 32 :=
  let regs := assign (i.writes CSRs.epc) i.thread (s.dataIn i) s.regEpcs
  assign (conf.exceptions && i.exception) i.thread i.epc regs

/-- The registers after the cycle. -/
def next : CsrState conf where
  regSlots := if i.writes CSRs.slots then fun p => field (s.dataIn i) 4 p.val else s.regSlots
  regTmodes := s.nextTmodes i
  regEvecs := assign (conf.exceptions && i.writes CSRs.evec) i.thread (s.dataIn i) s.regEvecs
  regEpcs := s.nextEpcs i
  regCauses := assign (conf.exceptions && i.exception) i.thread i.cause s.regCauses
  regSup0 := assign (conf.exceptions && i.writes CSRs.sup0) i.thread (s.dataIn i) s.regSup0
  regTime := if conf.getTime then s.regTime + timeInc else s.regTime
  regCompare := assign ((conf.delayUntil || conf.interruptExpire) && i.writes CSRs.compare)
    i.thread (s.dataIn i) s.regCompare
  regToHost := if i.writes CSRs.tohost then s.dataIn i else s.regToHost
  regGpis := i.gpioIn
  regGpos := fun p =>
    if i.writes (CSRs.gpoBase + BitVec.ofNat 12 p.val) && s.gpoWritable i.thread p then
      (s.dataIn i).setWidth 2
    else s.regGpos p
  regGpoProtection :=
    if conf.gpioProtection && i.writes CSRs.gpoProtection then
      fun p => field (s.dataIn i) 4 p.val
    else s.regGpoProtection
  regImemProtection :=
    if conf.memProtection && i.writes CSRs.iMemProtection then
      fun p => field (s.dataIn i) 4 p.val
    else s.regImemProtection
  regDmemProtection :=
    if conf.memProtection && i.writes CSRs.dMemProtection then
      fun p => field (s.dataIn i) 4 p.val
    else s.regDmemProtection
  regCycle := assign (conf.stats && i.cycle) i.thread (s.regCycle i.thread + 1) s.regCycle
  regInstret :=
    assign (conf.stats && i.instret) i.thread (s.regInstret i.thread + 1) s.regInstret
  regMtie := s.nextMtie i
  regIe := s.nextIe i
  regMsip := s.nextMsip i
  regMutex := fun p =>
    if i.writes (CSRs.uarch8 + BitVec.ofNat 12 p.val) then (s.dataIn i).setWidth 4
    else s.regMutex p
  regMtfd := assign i.mt i.thread (s.time32 + i.mtfdVal) s.regMtfd
  regTimer := s.nextTimer i
  fdReg := i.fd
  threadReg := i.thread
  mtfdExceptionReg := Function.update s.mtfdExceptionReg s.threadReg s.mtfdMissed

end CsrState

end Flexpret.Core
