import Flexpret.Core.InstructionStream
import Flexpret.Core.MissedDeadline
import Mathlib.Data.Fintype.Basic
import Mathlib.Tactic.FinCases

/-! # Reading a CSR

    A set or clear instruction with a zero mask writes back what it has read.
    Two registers do not come back: `compare`, which cannot be read and whose
    write turns the timer off, and the status register, which shows
    `reg_mtie` in another bit than it takes it from.
-/

namespace Flexpret.Core

variable {conf : FlexpretConfiguration}

/-! ## Section 1: What software and the timers see -/

/-- The registers that software can read and the state of the timers are the
    same.  Without other threads there are no slots, and without exceptions no
    `epc`. -/
structure CsrState.SameRegisters (s s' : CsrState conf) : Prop where
  slots : conf.threads > 1 → s.regSlots = s'.regSlots
  tmodes : s.regTmodes = s'.regTmodes
  evecs : s.regEvecs = s'.regEvecs
  epcs : conf.exceptions = true → s.regEpcs = s'.regEpcs
  causes : s.regCauses = s'.regCauses
  sup0 : s.regSup0 = s'.regSup0
  time : s.regTime = s'.regTime
  compare : s.regCompare = s'.regCompare
  toHost : s.regToHost = s'.regToHost
  gpis : s.regGpis = s'.regGpis
  gpos : s.regGpos = s'.regGpos
  gpoProtection : s.regGpoProtection = s'.regGpoProtection
  imemProtection : s.regImemProtection = s'.regImemProtection
  dmemProtection : s.regDmemProtection = s'.regDmemProtection
  cycle : s.regCycle = s'.regCycle
  instret : s.regInstret = s'.regInstret
  mtie : s.regMtie = s'.regMtie
  ie : s.regIe = s'.regIe
  msip : s.regMsip = s'.regMsip
  mutex : s.regMutex = s'.regMutex
  mtfd : s.regMtfd = s'.regMtfd
  timer : s.regTimer = s'.regTimer
  fd : s.fdReg = s'.fdReg
  thread : s.threadReg = s'.threadReg
  mtfdException : s.mtfdExceptionReg = s'.mtfdExceptionReg

/-- A set or clear with a zero mask that is not killed. -/
structure CsrIn.Reads (i : CsrIn conf) : Prop where
  write : i.write = true
  alive : i.kill = false
  csrType : i.csrType = csrS ∨ i.csrType = csrC
  mask : i.dataIn = 0
  /-- It is no DU or WU and arms no timer. -/
  sleep : i.sleep = false
  ie : i.ie = false
  ee : i.ee = false

/-- What the same instruction leaves to the unit without being a CSR
    instruction: the unit does not look at the other three inputs then. -/
def CsrIn.noOp (i : CsrIn conf) (addr : BitVec 12) (csrType : BitVec 2) (dataIn : BitVec 32) :
    CsrIn conf :=
  { i with write := false, addr := addr, csrType := csrType, dataIn := dataIn }

namespace CsrState

variable (s : CsrState conf) (i : CsrIn conf)

/-- The timer of the thread is off after the cycle whatever is written. -/
def TimerOffAnyway : Prop :=
  s.regTimer i.thread = .off ∨ s.delayOver i i.thread = true ∨
    s.excExpire i.thread i.valid = true ∨ s.mtieSet i.thread i.valid = true

/-- **The condition**: `compare` is zero and its timer is turned off anyway, or
    no timer interrupt of the thread is kept in the status register. -/
structure ReadsBack : Prop where
  compare : (conf.delayUntil || conf.interruptExpire) = true → i.addr = CSRs.compare →
    s.regCompare i.thread = 0 ∧ s.TimerOffAnyway i
  status : conf.interruptExpire = true → i.addr = CSRs.status →
    s.regMtie i.thread = false ∨ s.mtieSet i.thread i.valid = true

variable {s i}

/-! ## Section 2: The word that is written -/

theorem dataIn_of_reads (h : i.Reads) : s.dataIn i = s.dataOut i.addr i.thread := by
  have hmask := h.mask
  rcases h.csrType with htype | htype
  · simp [dataIn, htype, hmask]
  · have hall : ~~~(0 : BitVec 32) = BitVec.allOnes 32 := by decide
    rw [dataIn, htype, hmask, hall, if_neg (by decide), if_pos rfl, BitVec.and_allOnes]

theorem writes_of_reads (h : i.Reads) (csr : BitVec 12) :
    i.writes csr = decide (i.addr = csr) := by
  simp [CsrIn.writes, h.write, h.alive]

theorem noOp_writes (addr csr : BitVec 12) (csrType : BitVec 2) (dataIn : BitVec 32) :
    (i.noOp addr csrType dataIn).writes csr = false := rfl

/-! The image of each register that can be read. -/

section images

attribute [local simp] CSRs.slots CSRs.hartid CSRs.tmodes CSRs.evec CSRs.epc CSRs.cause
  CSRs.sup0 CSRs.clock CSRs.tohost CSRs.gpiBase CSRs.gpoBase CSRs.gpoProtection
  CSRs.iMemProtection CSRs.dMemProtection CSRs.time CSRs.cycle CSRs.instret CSRs.timeh
  CSRs.cycleh CSRs.instreth CSRs.status CSRs.uarch8 CSRs.compare

variable (t : conf.Tid)

theorem dataOut_slots (hmt : conf.threads > 1) : s.dataOut CSRs.slots t = toBits s.regSlots := by
  simp [dataOut, hmt]

theorem dataOut_tmodes : s.dataOut CSRs.tmodes t = toBits s.regTmodes := by
  simp [dataOut]

theorem dataOut_evec (hexc : conf.exceptions = true) :
    s.dataOut CSRs.evec t = s.regEvecs t := by
  simp [dataOut, hexc]

theorem dataOut_epc (hexc : conf.exceptions = true) : s.dataOut CSRs.epc t = s.regEpcs t := by
  simp [dataOut, hexc]

theorem dataOut_sup0 (hexc : conf.exceptions = true) : s.dataOut CSRs.sup0 t = s.regSup0 t := by
  simp [dataOut, hexc]

theorem dataOut_tohost : s.dataOut CSRs.tohost t = s.regToHost := by
  simp [dataOut]

theorem dataOut_gpo (p : Fin 4) :
    s.dataOut (CSRs.gpoBase + BitVec.ofNat 12 p.val) t = (s.regGpos p).setWidth 32 := by
  fin_cases p <;> simp [dataOut]

theorem dataOut_gpoProtection (hprot : conf.gpioProtection = true) :
    s.dataOut CSRs.gpoProtection t = toBits s.regGpoProtection := by
  simp [dataOut, hprot]

theorem dataOut_iMemProtection (hprot : conf.memProtection = true) :
    s.dataOut CSRs.iMemProtection t = toBits s.regImemProtection := by
  simp [dataOut, hprot]

theorem dataOut_dMemProtection (hprot : conf.memProtection = true) :
    s.dataOut CSRs.dMemProtection t = toBits s.regDmemProtection := by
  simp [dataOut, hprot]

theorem dataOut_status : s.dataOut CSRs.status t = s.status t := by
  simp [dataOut]

/-- `compare` cannot be read. -/
theorem dataOut_compare : s.dataOut CSRs.compare t = 0 := by
  simp [dataOut]

theorem dataOut_mutex (p : Fin 8) :
    s.dataOut (CSRs.uarch8 + BitVec.ofNat 12 p.val) t = (s.regMutex p).setWidth 32 := by
  fin_cases p <;> simp [dataOut]

/-- `ie` and `msip` come back, and in the place of `mtie` comes a zero. -/
theorem status_bits :
    (s.status t).getLsbD 4 = s.regIe t ∧ (s.status t).getLsbD 3 = s.regMsip t ∧
      (s.status t).getLsbD 26 = false := by
  unfold status
  cases s.regMtie t <;> cases s.regIe t <;> cases s.regMsip t <;> decide

end images

/-! ## Section 3: One register after the other -/

/-- A register that is written with what it holds. -/
theorem assign_back {ι α : Type*} [DecidableEq ι] {c : Bool} {t : ι} {v : α} {reg : ι → α}
    (h : c = true → v = reg t) : assign c t v reg = reg := by
  unfold assign
  split
  · next hc =>
    rw [h hc]
    exact Function.update_eq_self t reg
  · rfl

/-- A vector that is written with its own word. -/
theorem fields_back {c : Bool} {n w : Nat} (hw : w * n ≤ 32) {word : BitVec 32}
    {regs : Fin n → BitVec w} (h : c = true → word = toBits regs) :
    (if c then fun p => field word w p.val else regs) = regs := by
  split
  · next hc =>
    rw [h hc]
    exact funext (field_toBits hw regs)
  · rfl

/-- A write is not seen when it writes back or is written over. -/
theorem assign_over_iff {ι α : Type*} [DecidableEq ι] {c later : Bool} {t : ι} {v w : α}
    {reg : ι → α} :
    assign later t v (assign c t w reg) = assign later t v reg ↔
      (c = true → w = reg t ∨ later = true) := by
  cases later with
  | true =>
    refine iff_of_true ?_ fun _ => .inr rfl
    funext u
    simp only [assign_apply]
    split
    · rfl
    · next hne => rw [if_neg fun hcu => hne (by simp [(Bool.and_eq_true_iff.mp hcu).2])]
  | false =>
    show assign c t w reg = reg ↔ _
    constructor
    · intro heq hc
      have ht := congrFun heq t
      rw [assign_self, if_pos hc] at ht
      exact .inl ht
    · intro hback
      exact assign_back fun hc => (hback hc).resolve_right Bool.false_ne_true

section read

variable (h : i.Reads) {addr : BitVec 12} {csrType : BitVec 2} {dataIn : BitVec 32}

theorem assign_noOp {ι α : Type*} [DecidableEq ι] (c : Bool) (csr : BitVec 12) (t : ι) (v : α)
    (reg : ι → α) : assign (c && (i.noOp addr csrType dataIn).writes csr) t v reg = reg := by
  rw [noOp_writes, Bool.and_false]
  rfl

include h

theorem read_word {csr : BitVec 12} (hwrites : i.writes csr = true) :
    s.dataIn i = s.dataOut csr i.thread := by
  rw [writes_of_reads h, decide_eq_true_eq] at hwrites
  rw [dataIn_of_reads h, hwrites]

theorem nextTmodes_read : s.nextTmodes i = s.nextTmodes (i.noOp addr csrType dataIn) := by
  have hback : (if i.writes CSRs.tmodes then fun u : conf.Tid => field (s.dataIn i) 2 u.val
      else s.regTmodes) = s.regTmodes := by
    refine fields_back (by have := conf.threads_le; omega) fun hwrites => ?_
    rw [read_word h hwrites, dataOut_tmodes]
  unfold nextTmodes
  simp only [hback]
  rfl

theorem nextEpcs_read (hexc : conf.exceptions = true) :
    s.nextEpcs i = s.nextEpcs (i.noOp addr csrType dataIn) := by
  have hback : assign (i.writes CSRs.epc) i.thread (s.dataIn i) s.regEpcs = s.regEpcs := by
    refine assign_back fun hwrites => ?_
    rw [read_word h hwrites, dataOut_epc _ hexc]
  unfold nextEpcs
  simp only [hback]
  rfl

theorem nextIe_read : s.nextIe i = s.nextIe (i.noOp addr csrType dataIn) := by
  have hback : assign (conf.exceptions && i.writes CSRs.status) i.thread
      ((s.dataIn i).getLsbD 4) s.regIe = s.regIe := by
    refine assign_back fun hwrites => ?_
    rw [read_word h (Bool.and_eq_true_iff.mp hwrites).2, dataOut_status]
    exact (status_bits _).1
  unfold nextIe
  simp only [hback, assign_noOp]
  rfl

theorem nextMsip_read : s.nextMsip i = s.nextMsip (i.noOp addr csrType dataIn) := by
  have hback : assign (conf.externalInterrupt && i.writes CSRs.status) i.thread
      ((s.dataIn i).getLsbD 3) s.regMsip = s.regMsip := by
    refine assign_back fun hwrites => ?_
    rw [read_word h (Bool.and_eq_true_iff.mp hwrites).2, dataOut_status]
    exact (status_bits _).2.1
  unfold nextMsip
  simp only [hback, assign_noOp]
  rfl

/-- **The status register** loses a kept timer interrupt. -/
theorem nextMtie_read_iff :
    s.nextMtie i = s.nextMtie (i.noOp addr csrType dataIn) ↔
      (conf.interruptExpire = true → i.addr = CSRs.status →
        s.regMtie i.thread = false ∨ s.mtieSet i.thread i.valid = true) := by
  have hword : i.writes CSRs.status = true → (s.dataIn i).getLsbD 26 = false := by
    intro hwrites
    rw [read_word h hwrites, dataOut_status]
    exact (status_bits _).2.2
  unfold nextMtie
  simp only [assign_noOp]
  refine assign_over_iff.trans ?_
  constructor
  · intro hsame hexpire haddr
    have hwrites : i.writes CSRs.status = true := by
      rw [writes_of_reads h, haddr]
      exact decide_eq_true rfl
    refine (hsame (by rw [hexpire, hwrites]; rfl)).imp (fun hkept => ?_) id
    rw [← hkept, hword hwrites]
  · intro hsame hwrites
    obtain ⟨hexpire, hstatus⟩ := Bool.and_eq_true_iff.mp hwrites
    have haddr : i.addr = CSRs.status := by
      rw [writes_of_reads h] at hstatus
      exact of_decide_eq_true hstatus
    refine (hsame hexpire haddr).imp (fun hclear => ?_) id
    rw [hword hstatus, hclear]

omit h in
/-- The timers after an instruction that neither sleeps nor arms its timer. -/
theorem nextTimer_apply (hsleep : i.sleep = false) (hie : i.ie = false) (hee : i.ee = false)
    (u : conf.Tid) :
    s.nextTimer i u =
      if (s.mtieSet i.thread i.valid || s.excExpire i.thread i.valid) && i.thread = u then .off
      else if s.delayOver i u then .off
      else if ((conf.delayUntil || conf.interruptExpire) && i.writes CSRs.compare) && i.thread = u
        then .off
      else s.regTimer u := by
  simp only [nextTimer, assign_apply, hsleep, hie, hee, Bool.and_false, Bool.false_and,
    Bool.false_eq_true, if_false]
  by_cases hu : i.thread = u
  · cases s.mtieSet i.thread i.valid <;> cases s.excExpire i.thread i.valid <;> simp [hu]
  · simp [hu]

/-- **The compare register**: a read turns its timer off. -/
theorem nextTimer_read_iff :
    s.nextTimer i = s.nextTimer (i.noOp addr csrType dataIn) ↔
      ((conf.delayUntil || conf.interruptExpire) = true → i.addr = CSRs.compare →
        s.TimerOffAnyway i) := by
  have hread := fun u => nextTimer_apply (s := s) h.sleep h.ie h.ee u
  have hnoOp : ∀ u, s.nextTimer (i.noOp addr csrType dataIn) u =
      if (s.mtieSet i.thread i.valid || s.excExpire i.thread i.valid) && i.thread = u then .off
      else if s.delayOver i u then .off else s.regTimer u := by
    intro u
    have happly := nextTimer_apply (s := s) (i := i.noOp addr csrType dataIn) h.sleep h.ie h.ee u
    simp only [noOp_writes, Bool.and_false, Bool.false_and, Bool.false_eq_true, if_false]
      at happly
    exact happly
  constructor
  · intro heq hcomp haddr
    have hwrites : i.writes CSRs.compare = true := by
      rw [writes_of_reads h, haddr]
      exact decide_eq_true rfl
    have ht := congrFun heq i.thread
    rw [hread, hnoOp, hcomp, hwrites] at ht
    unfold TimerOffAnyway
    by_contra hnot
    simp only [not_or, Bool.not_eq_true] at hnot
    obtain ⟨hoff, hdelay, hexc, hmtie⟩ := hnot
    simp only [hmtie, hexc, hdelay, Bool.or_self, Bool.false_and, Bool.false_eq_true, if_false,
      Bool.and_self, decide_true, if_true] at ht
    exact hoff ht.symm
  · intro hoff
    funext u
    rw [hread, hnoOp]
    by_cases hcase : ((conf.delayUntil || conf.interruptExpire) && i.writes CSRs.compare) &&
        i.thread = u
    · rw [if_pos hcase]
      simp only [Bool.and_eq_true, decide_eq_true_eq] at hcase
      obtain ⟨⟨hcomp, hwrites⟩, rfl⟩ := hcase
      have haddr : i.addr = CSRs.compare := by
        rw [writes_of_reads h] at hwrites
        exact of_decide_eq_true hwrites
      rcases hoff hcomp haddr with hregs | hdelay | hexc | hmtie
      · rw [hregs]
      · rw [hdelay, if_pos rfl, if_pos rfl]
      · simp [hexc]
      · simp [hmtie]
    · rw [if_neg hcase]

/-- **A read** has no effect exactly when the register comes back. -/
theorem sameRegisters_iff :
    SameRegisters (s.next i) (s.next (i.noOp addr csrType dataIn)) ↔ s.ReadsBack i := by
  constructor
  · intro hsame
    constructor
    case compare =>
      intro hcomp haddr
      refine ⟨?_, (nextTimer_read_iff h).mp hsame.timer hcomp haddr⟩
      have hwrites : i.writes CSRs.compare = true := by
        rw [writes_of_reads h, haddr]
        exact decide_eq_true rfl
      have hkept : (s.next (i.noOp addr csrType dataIn)).regCompare = s.regCompare :=
        assign_noOp _ _ _ _ _
      have hread : (s.next i).regCompare i.thread = s.dataIn i := by
        show assign ((conf.delayUntil || conf.interruptExpire) && i.writes CSRs.compare) i.thread
          (s.dataIn i) s.regCompare i.thread = _
        rw [hcomp, hwrites, assign_self]
        rfl
      rw [← congrFun hkept i.thread, ← hsame.compare, hread, read_word h hwrites,
        dataOut_compare]
    case status => exact (nextMtie_read_iff h).mp hsame.mtie
  · intro hback
    constructor
    case slots =>
      intro hmt
      refine fields_back (by decide) fun hwrites => ?_
      rw [read_word h hwrites, dataOut_slots _ hmt]
    case tmodes => exact nextTmodes_read h
    case evecs =>
      refine Eq.trans (assign_back fun hwrites => ?_) (assign_noOp _ _ _ _ _).symm
      obtain ⟨hconf, hwrites⟩ := Bool.and_eq_true_iff.mp hwrites
      rw [read_word h hwrites, dataOut_evec _ hconf]
    case epcs => exact nextEpcs_read h
    case mtie => exact (nextMtie_read_iff h).mpr hback.status
    case ie => exact nextIe_read h
    case msip => exact nextMsip_read h
    case timer => exact (nextTimer_read_iff h).mpr fun hcomp haddr => (hback.compare hcomp haddr).2
    case compare =>
      refine Eq.trans (assign_back fun hwrites => ?_) (assign_noOp _ _ _ _ _).symm
      obtain ⟨hcomp, hwrites⟩ := Bool.and_eq_true_iff.mp hwrites
      have haddr : i.addr = CSRs.compare := by
        rw [writes_of_reads h] at hwrites
        exact of_decide_eq_true hwrites
      rw [read_word h hwrites, dataOut_compare, (hback.compare hcomp haddr).1]
    case sup0 =>
      refine Eq.trans (assign_back fun hwrites => ?_) (assign_noOp _ _ _ _ _).symm
      obtain ⟨hconf, hwrites⟩ := Bool.and_eq_true_iff.mp hwrites
      rw [read_word h hwrites, dataOut_sup0 _ hconf]
    case toHost =>
      show (if i.writes CSRs.tohost then s.dataIn i else s.regToHost) = s.regToHost
      split
      · next hwrites => rw [read_word h hwrites, dataOut_tohost]
      · rfl
    case gpos =>
      funext p
      show (if i.writes (CSRs.gpoBase + BitVec.ofNat 12 p.val) && s.gpoWritable i.thread p then
        (s.dataIn i).setWidth 2 else s.regGpos p) = s.regGpos p
      split
      · next hwrites =>
        rw [read_word h (Bool.and_eq_true_iff.mp hwrites).1, dataOut_gpo,
          BitVec.setWidth_setWidth_of_le _ (by decide), BitVec.setWidth_eq]
      · rfl
    case gpoProtection =>
      refine Eq.trans (fields_back (by decide) fun hwrites => ?_)
        (if_neg (by rw [noOp_writes, Bool.and_false]; exact Bool.false_ne_true)).symm
      obtain ⟨hconf, hwrites⟩ := Bool.and_eq_true_iff.mp hwrites
      rw [read_word h hwrites, dataOut_gpoProtection _ hconf]
    case imemProtection =>
      refine Eq.trans (fields_back (by decide) fun hwrites => ?_)
        (if_neg (by rw [noOp_writes, Bool.and_false]; exact Bool.false_ne_true)).symm
      obtain ⟨hconf, hwrites⟩ := Bool.and_eq_true_iff.mp hwrites
      rw [read_word h hwrites, dataOut_iMemProtection _ hconf]
    case dmemProtection =>
      refine Eq.trans (fields_back (by decide) fun hwrites => ?_)
        (if_neg (by rw [noOp_writes, Bool.and_false]; exact Bool.false_ne_true)).symm
      obtain ⟨hconf, hwrites⟩ := Bool.and_eq_true_iff.mp hwrites
      rw [read_word h hwrites, dataOut_dMemProtection _ hconf]
    case mutex =>
      funext p
      show (if i.writes (CSRs.uarch8 + BitVec.ofNat 12 p.val) then (s.dataIn i).setWidth 4
        else s.regMutex p) = s.regMutex p
      split
      · next hwrites =>
        rw [read_word h hwrites, dataOut_mutex, BitVec.setWidth_setWidth_of_le _ (by decide),
          BitVec.setWidth_eq]
      · rfl
    all_goals rfl

end read

/-- A killed instruction writes nothing. -/
theorem next_of_kill (hkill : i.kill = true) (addr : BitVec 12) (csrType : BitVec 2)
    (dataIn : BitVec 32) : s.next (i.noOp addr csrType dataIn) = s.next i := by
  have hnone : ∀ csr, i.writes csr = false := fun csr => by simp [CsrIn.writes, hkill]
  unfold next nextTmodes nextTimer nextIe nextMtie nextMsip nextEpcs
  simp only [hnone, noOp_writes, Bool.and_false, Bool.false_and]
  rfl

theorem SameRegisters.refl (s : CsrState conf) : SameRegisters s s := by
  constructor
  all_goals
    intros
    rfl

end CsrState

/-! ## Section 4: A read in execute -/

/-- `addi x0, x0, 0`. -/
def nopWord : BitVec 32 := 0x13

namespace CoreState

variable (D : DecodeLogic conf) (s : CoreState conf)

/-- A set or clear with a zero mask is in execute. -/
structure ReadsCsr : Prop where
  valid : s.exeReg.valid = true
  csr : s.exeReg.sig.csr = true
  csrType : s.exeReg.sig.csrType = csrS ∨ s.exeReg.sig.csrType = csrC
  mask : s.exeReg.csrData = 0

/-- A no-op of the same thread at the same place is in execute instead. -/
def withNop : CoreState conf :=
  { s with
    exeReg :=
      { s.exeReg with
        sig := D.decode nopWord, ie := false, ee := false, mtImm := false, rdWrite := false
        rdAddr := 0, op1 := 0, op2 := 0, rs1Data := 0, rs2Data := 0, csrAddr := 0, csrData := 0
        inst := nopWord } }

variable {D s} {i : CoreIn conf}

/-- What is neither a load nor a store causes no exception in execute. -/
theorem instExc_of_not_memory (hload : s.exeReg.sig.load = false)
    (hstore : s.exeReg.sig.store = false) : s.exeInstExc.1 = false := by
  rw [Bool.eq_false_iff]
  intro hinst
  rcases instExc_cases hinst with hl | ⟨hs, -⟩
  · exact Bool.noConfusion (hload.symm.trans hl)
  · exact Bool.noConfusion (hstore.symm.trans hs)

/-- A no-op does nothing but write its register. -/
theorem nop_flags (D : DecodeLogic conf) :
    (D.decode nopWord).toFlags = { legal := true, rdEn := true } := by
  have hrow : decodeRow conf nopWord = aluImmRow aluADD := by
    have hinstr : instrOf nopWord = some .addi := by decide
    rw [decodeRow, hinstr]
    rfl
  rw [D.flags, hrow]
  rfl

/-- **The inputs of the unit** are those of the no-op but for the write. -/
theorem csrIn_withNop
    (hflags : s.exeReg.sig.toFlags = { legal := true, rdEn := true, csr := true })
    (harms : s.exeReg.ie = false ∧ s.exeReg.ee = false) (hmt : s.exeReg.mtImm = false) :
    (s.withNop D).csrIn i = (s.csrIn i).noOp 0 (D.decode nopWord).csrType 0 := by
  have hnop := nop_flags D
  have hinst : s.exeInstExc.1 = false :=
    instExc_of_not_memory (congrArg Flags.load hflags) (congrArg Flags.store hflags)
  have hinst' : (s.withNop D).exeInstExc.1 = false :=
    instExc_of_not_memory (congrArg Flags.load hnop) (congrArg Flags.store hnop)
  have hany : (s.withNop D).exeAnyExc = s.exeAnyExc := rfl
  have hexception : (s.withNop D).exeException = s.exeException := by
    rw [exeException, exeException, hinst, hinst', hany]
    rfl
  have hcause : (s.withNop D).exeCause = s.exeCause := by
    rw [exeCause, exeCause, hinst, hinst', hany]
    rfl
  have hvalid : (s.withNop D).exeValid = s.exeValid := by
    rw [exeValid, exeValid, hexception]
    rfl
  have hdu : s.exeSleep = false ∧ (s.withNop D).exeSleep = false := by
    have hoff : s.exeReg.sig.du = false := congrArg Flags.du hflags
    have hoff' : (D.decode nopWord).du = false := congrArg Flags.du hnop
    constructor
    · rw [exeSleep, exeDu, hoff, Bool.and_false, Bool.false_and, Bool.false_and]
    · show (conf.delayUntil && _ && (D.decode nopWord).du && _ && _) = false
      rw [hoff', Bool.and_false, Bool.false_and, Bool.false_and]
  have hmtReg : s.exeReg.sig.mtReg = false ∧ (D.decode nopWord).mtReg = false :=
    ⟨congrArg Flags.mtReg hflags, congrArg Flags.mtReg hnop⟩
  have hfd : s.exeReg.sig.fd = false ∧ (D.decode nopWord).fd = false :=
    ⟨congrArg Flags.fd hflags, congrArg Flags.fd hnop⟩
  have hcsr : (D.decode nopWord).csr = false := congrArg Flags.csr hnop
  rw [csrIn, csrIn, hexception, hcause, hvalid, hdu.1, hdu.2, harms.1, harms.2, hmt, hmtReg.1,
    hfd.1, CsrIn.noOp]
  simp only [withNop, hmtReg.2, hfd.2, hcsr, Bool.and_false, Bool.false_and]
  rfl

end CoreState

/-- What arms a timer is an `IE` or `EE`. -/
theorem CoreRun.exeReg_arms {D : DecodeLogic conf} {st : Nat → CoreState conf}
    {inp : Nat → CoreIn conf} (h : CoreRun D st inp) {c : Nat}
    (hvalid : (st c).exeReg.valid = true)
    (harms : (st c).exeReg.ie = true ∨ (st c).exeReg.ee = true) :
    (st c).exeReg.sig.ie = true := by
  cases c with
  | zero =>
    rw [h.reset.exeValid] at hvalid
    exact absurd hvalid Bool.false_ne_true
  | succ c =>
    rw [h.next] at harms ⊢
    rcases harms with harms | harms
    · exact (Bool.and_eq_true_iff.mp harms).1
    · exact (Bool.and_eq_true_iff.mp harms).1

/-- **Reading a CSR** has the effect of a no-op on the registers exactly when
    it is killed or the register comes back. -/
theorem csrRead_iff (D : DecodeLogic conf) (st : Nat → CoreState conf) (inp : Nat → CoreIn conf)
    (h : CoreRun D st inp) (c : Nat) (hread : (st c).ReadsCsr) :
    ((st c).next D (inp c)).csr.SameRegisters (((st c).withNop D).next D (inp c)).csr ↔
      (st c).exeKill = true ∨ (st c).csr.ReadsBack ((st c).csrIn (inp c)) := by
  have hflags := ((h.exeDecoded c).exclusive hread.valid).csr hread.csr
  have harms : (st c).exeReg.ie = false ∧ (st c).exeReg.ee = false := by
    have hsig : (st c).exeReg.sig.ie = false := congrArg Flags.ie hflags
    constructor
    · rw [Bool.eq_false_iff]
      intro hie
      exact Bool.noConfusion (hsig.symm.trans (h.exeReg_arms hread.valid (.inl hie)))
    · rw [Bool.eq_false_iff]
      intro hee
      exact Bool.noConfusion (hsig.symm.trans (h.exeReg_arms hread.valid (.inr hee)))
  have hmt : (st c).exeReg.mtImm = false := by
    have hsig : (st c).exeReg.sig.mtImm = false := congrArg Flags.mtImm hflags
    rw [Bool.eq_false_iff]
    intro hmt
    exact Bool.noConfusion (hsig.symm.trans (h.exeReg_mtImm hread.valid hmt))
  show ((st c).csr.next ((st c).csrIn (inp c))).SameRegisters
    ((st c).csr.next (((st c).withNop D).csrIn (inp c))) ↔ _
  rw [CoreState.csrIn_withNop hflags harms hmt]
  cases hkill : (st c).exeKill with
  | true =>
    rw [CsrState.next_of_kill (i := (st c).csrIn (inp c)) hkill]
    exact iff_of_true (CsrState.SameRegisters.refl _) (.inl rfl)
  | false =>
    have hreads : ((st c).csrIn (inp c)).Reads := by
      constructor
      case write =>
        show ((st c).exeReg.sig.csr && (st c).exeReg.valid) = true
        rw [hread.csr, hread.valid]
        rfl
      case alive => exact hkill
      case csrType => exact hread.csrType
      case mask => exact hread.mask
      case sleep =>
        have hdu : (st c).exeReg.sig.du = false := congrArg Flags.du hflags
        show (st c).exeSleep = false
        rw [CoreState.exeSleep, CoreState.exeDu, hdu, Bool.and_false, Bool.false_and,
          Bool.false_and]
      case ie =>
        show (conf.interruptExpire && (st c).exeValid && (st c).exeReg.ie) = false
        rw [harms.1, Bool.and_false]
      case ee =>
        show (conf.interruptExpire && (st c).exeValid && (st c).exeReg.ee) = false
        rw [harms.2, Bool.and_false]
    rw [CsrState.sameRegisters_iff hreads]
    exact ⟨.inr, fun hcase => hcase.resolve_left Bool.false_ne_true⟩

/-- `compare` is 90; then a CSR is read. -/
def readAfterCompare (word : BitVec 32) (a : Nat) : BitVec 32 :=
  if a = 0 then 0x05a00093 else if a = 1 then 0x50709073 else if a = 2 then word else 0x13

/-- Thread 0 alone runs it. -/
def readAfterCompareRun (word : BitVec 32) : Nat → CoreState conf4tf :=
  Transition.Machine.trace (CoreState.next (DecodeLogic.zeros conf4tf))
    (coreZero conf4tf (readAfterCompare word)) fun _ => issue conf4tf 0

theorem readAfterCompareRun_coreRun (word : BitVec 32) :
    CoreRun (DecodeLogic.zeros conf4tf) (readAfterCompareRun word) fun _ => issue conf4tf 0 :=
  coreRun_trace _ (coreZero_reset conf4tf (readAfterCompare word)) _

/-- `csrr x5, slots` in cycle 6. -/
theorem readSlots_sameRegisters :
    ((readAfterCompareRun 0x503022f3 6).next (DecodeLogic.zeros conf4tf)
        (issue conf4tf 0)).csr.SameRegisters
      (((readAfterCompareRun 0x503022f3 6).withNop (DecodeLogic.zeros conf4tf)).next
        (DecodeLogic.zeros conf4tf) (issue conf4tf 0)).csr := by
  refine (csrRead_iff _ _ _ (readAfterCompareRun_coreRun 0x503022f3) 6 ?_).mpr (.inr ?_)
  · constructor
    case csrType => exact .inl (by decide +kernel)
    all_goals decide +kernel
  · have haddr : (readAfterCompareRun 0x503022f3 6).exeReg.csrAddr = CSRs.slots := by
      decide +kernel
    constructor
    case compare =>
      intro _ heq
      exact absurd (haddr.symm.trans heq) (by decide)
    case status =>
      intro _ heq
      exact absurd (haddr.symm.trans heq) (by decide)

/-- `csrr x5, compare` in cycle 6 clears the register. -/
theorem readCompare_cleared :
    CoreRun (DecodeLogic.zeros conf4tf) (readAfterCompareRun 0x507022f3)
        (fun _ => issue conf4tf 0) ∧
      (readAfterCompareRun 0x507022f3 6).ReadsCsr ∧
      (readAfterCompareRun 0x507022f3 6).csr.regCompare (0 : Fin 4) = 90 ∧
      ¬ ((readAfterCompareRun 0x507022f3 6).next (DecodeLogic.zeros conf4tf)
          (issue conf4tf 0)).csr.SameRegisters
        (((readAfterCompareRun 0x507022f3 6).withNop (DecodeLogic.zeros conf4tf)).next
          (DecodeLogic.zeros conf4tf) (issue conf4tf 0)).csr := by
  refine ⟨readAfterCompareRun_coreRun _, ?_, by decide +kernel, fun hsame => ?_⟩
  · constructor
    case csrType => exact .inl (by decide +kernel)
    all_goals decide +kernel
  · have hcompare := congrFun hsame.compare (0 : Fin 4)
    revert hcompare
    decide +kernel

end Flexpret.Core
