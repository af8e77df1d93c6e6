import Mathlib.Tactic.IntervalCases
import Flexpret.Core.PipelineThread

/-! # Timing Isolation

    Two runs of the flexible core with one schedule, in which a thread reads
    the same words: what the other threads execute does not show in the
    timing of the thread, but for the FENCE.I instructions they decode while
    the thread is in execute.
-/

open Transition

namespace Flexpret.Core

variable {conf : FlexpretConfiguration}

/-! ## Section 1: What is compared -/

namespace CoreState

variable (s : CoreState conf) (t : conf.Tid) (D : DecodeLogic conf)

/-- The stall, flush and valid signals of the instructions of `t`. -/
structure TimingStatus where
  inFetch : Bool
  fetches : Bool
  inDec : Bool
  decStalls : Bool
  inExe : Bool
  flushes : Bool
  traps : Bool
  redirects : Bool
  stallCount : BitVec 2
  deriving DecidableEq

def timingStatus : TimingStatus where
  inFetch := s.inFetch t
  fetches := s.fetches t D
  inDec := s.inDec t
  decStalls := s.inDec t && s.decStall D
  inExe := s.inExe t
  flushes := s.flushes t
  traps := s.traps t
  redirects := s.redirects t
  stallCount := s.stallCount t

/-- An instruction of `t` in the memory stage writes its register. -/
def writesBack : Bool := s.memRdWrite && s.memReg.tid = t

/-- A FENCE.I of another thread is in decode while `t` is in execute. -/
def foreignFence : Bool :=
  s.decReg.valid && (s.dec D).fenceI && s.decReg.tid ≠ t && s.exeReg.tid = t

/-- What the memory stage writes back without a load. -/
def memHeld : BitVec 32 :=
  if s.memReg.rdDataSel = memRdMUL then s.memMulResult else s.memReg.rdData

end CoreState

/-- The stages hold the same threads. -/
structure SameSchedule (s s' : CoreState conf) : Prop where
  next : s.nextReg = s'.nextReg
  ifTid : s.ifReg.tid = s'.ifReg.tid
  ifValid : s.ifReg.valid = s'.ifReg.valid
  decTid : s.decReg.tid = s'.decReg.tid
  decIssued : s.decReg.issued = s'.decReg.issued
  exeTid : s.exeReg.tid = s'.exeReg.tid
  exeIssued : s.exeReg.issued = s'.exeReg.issued
  memTid : s.memReg.tid = s'.memReg.tid
  wbTid : s.wbReg.tid = s'.wbReg.tid
  csrTid : s.csr.threadReg = s'.csr.threadReg

/-- The CSRs of `t` that decide traps and sleeps agree. -/
structure SameCsr (t : conf.Tid) (c c' : CsrState conf) : Prop where
  time : c.regTime = c'.regTime
  evec : c.regEvecs t = c'.regEvecs t
  compare : c.regCompare t = c'.regCompare t
  timer : c.regTimer t = c'.regTimer t
  mtfd : c.regMtfd t = c'.regMtfd t
  mtfdException : c.mtfdExceptionReg t = c'.mtfdExceptionReg t
  fd : c.threadReg = t → c.fdReg = c'.fdReg

theorem SameCsr.time32_eq {c c' : CsrState conf} (hc : SameCsr t c c') :
    c.time32 = c'.time32 := by
  simp only [CsrState.time32, hc.time]

/-- The comparator of `t`: without `roundRobin` it does not matter who is in
    execute. -/
theorem SameCsr.expired_eq {c c' : CsrState conf} (hc : SameCsr t c c')
    (hflex : conf.flex = true) (x x' : conf.Tid) : c.expired x t = c'.expired x' t := by
  simp only [CsrState.expired, roundRobin_of_flex hflex, Bool.false_and, Bool.not_false,
    hc.time32_eq, hc.compare]

/-- **The same thread `t`** in two cores: its instructions in the pipeline, its
    registers, its PC and its CSRs agree. -/
structure SameThread (t : conf.Tid) (s s' : CoreState conf) : Prop where
  schedule : SameSchedule s s'
  pcs : s.ifRegPcs t = s'.ifRegPcs t
  ifPc : s.ifReg.tid = t → s.ifPc = s'.ifPc
  stallCount : s.stallCount t = s'.stallCount t
  inDec : s.inDec t = s'.inDec t
  decReg : s.inDec t = true → s.decReg = s'.decReg
  dout : s.inDec t = true →
    s.regfile.dout1 = s'.regfile.dout1 ∧ s.regfile.dout2 = s'.regfile.dout2
  inExe : s.inExe t = s'.inExe t
  exeReg : s.inExe t = true → s.exeReg = s'.exeReg
  trapPending : s.trapPending t = s'.trapPending t
  writesBack : s.writesBack t = s'.writesBack t
  memReg : s.writesBack t = true →
    s.memReg.rdAddr = s'.memReg.rdAddr ∧ s.memReg.rdDataSel = s'.memReg.rdDataSel ∧
      (s.memReg.rdDataSel ≠ memRdMEM → s.memHeld = s'.memHeld)
  wbWrite : s.wbReg.tid = t → s.wbReg.rdWrite = s'.wbReg.rdWrite
  wbReg : s.wbReg.tid = t → s.wbReg.rdWrite = true → s.wbReg = s'.wbReg
  regs : ∀ a, s.regfile.regfile a t = s'.regfile.regfile a t
  csr : SameCsr t s.csr s'.csr

/-- `t` is scheduled and interrupted in the same way and reads the same words
    in the cycle: instructions, loads and CSRs. -/
structure SameView (t : conf.Tid) (s : CoreState conf) (i : CoreIn conf) (s' : CoreState conf)
    (i' : CoreIn conf) : Prop where
  schedule : i.thread = i'.thread ∧ i.valid = i'.valid
  fetch : s.inFetch t = true → s.ifInst = s'.ifInst
  load : s.writesBack t = true → s.memReg.rdDataSel = memRdMEM →
    s.loadDataOut i.busDataOut = s'.loadDataOut i'.busDataOut
  csrRead : s.inExe t = true → s.exeReg.sig.csr = true →
    s.csr.dataOut s.exeReg.csrAddr t = s'.csr.dataOut s.exeReg.csrAddr t
  interrupt : s.inExe t = true →
    s.csr.intExt t = s'.csr.intExt t ∧ s.csr.intExpire t true = s'.csr.intExpire t true

/-- The other threads do not disturb `t` in the cycle: a FENCE.I of theirs
    meets `t` in both cores or in neither, and a store of `t` is allowed in
    both or in neither. -/
structure Undisturbed (t : conf.Tid) (D : DecodeLogic conf) (s s' : CoreState conf) : Prop where
  fence : s.foreignFence t D = s'.foreignFence t D
  store : s.inExe t = true → s.loadStoreIn.storeFault = s'.loadStoreIn.storeFault

/-! ## Section 2: Forwarding -/

namespace CoreState

/-- Where an instruction of `t` is in decode, the older ones of `t` that write
    a register have not been killed, and the one in execute has its result. -/
structure Forwarding (t : conf.Tid) (s : CoreState conf) : Prop where
  exe : s.inDec t = true → s.exeReg.tid = t → s.exeReg.rdWrite = true → s.exeReg.valid = true
  mem : s.inDec t = true → s.memReg.tid = t → s.memReg.rdWrite = true → s.memReg.valid = true
  ready : s.inDec t = true → s.inExe t = true →
    s.exeReg.sig.load = false ∧ ¬ (conf.mul = true ∧ s.exeReg.sig.memRdDataSel = memRdMUL)

variable {s s' : CoreState conf} {t : conf.Tid} {D : DecodeLogic conf} {i i' : CoreIn conf}

theorem forwarding_reset (h : CoreReset conf s) : Forwarding t s := by
  have hdec : ¬ (s.inDec t = true) := by simp [inDec, h.decValid]
  exact ⟨fun hd => absurd hd hdec, fun hd => absurd hd hdec, fun hd => absurd hd hdec⟩

theorem forwarding_next (hflex : conf.flex = true) : Forwarding t (s.next D i) := by
  -- the instruction now in decode was fetched, so nothing was flushed
  have hfetched : (s.next D i).inDec t = true → s.fetches t D = true ∧ s.flushes t = false := by
    intro hd
    simpa [next_inDec] using hd
  constructor
  · intro hd htid hrd
    have hvalid : s.decReg.valid = true := (Bool.and_eq_true_iff.mp hrd).2
    have hexe : (s.next D i).inExe t = true := by
      rw [next_inExe, (hfetched hd).2, inDec_iff.mpr ⟨hvalid, htid⟩]
      rfl
    exact (inExe_iff.mp hexe).1
  · intro hd htid hrd
    have hvalid : s.exeReg.valid = true := (Bool.and_eq_true_iff.mp hrd).2
    have hflush := (hfetched hd).2
    rw [flushes_eq hflex, Bool.or_eq_false_iff] at hflush
    have hexc : s.exeException = false := by
      simpa [traps, show s.exeReg.tid = t from htid] using hflush.1
    show (s.exeReg.valid && !s.exeException) = true
    rw [hvalid, hexc]
    rfl
  · intro hd he
    have hdec : s.inDec t = true := by
      rw [next_inExe, Bool.and_eq_true] at he
      exact he.1
    have hstall := decStall_of_fetches D (hfetched hd).1 hdec
    simp only [decStall, bypassing_of_flex hflex, (inDec_iff.mp hdec).1, Bool.true_and,
      Bool.or_eq_false_iff, Bool.and_eq_false_iff, decide_eq_false_iff_not] at hstall
    refine ⟨hstall.1.1, ?_⟩
    rintro ⟨hmul, hsel⟩
    rcases hstall.1.2 with hno | hno
    · rw [hmul] at hno
      exact Bool.noConfusion hno
    · exact hno hsel

/-! ## Section 3: The execute stage -/

section execute

variable (h : SameThread t s s') (v : SameView t s i s' i') (u : Undisturbed t D s s')

include h in
theorem same_exe (hexe : s.inExe t = true) :
    s.exeReg = s'.exeReg ∧ s.exeReg.tid = t ∧ s.exeReg.valid = true := by
  have hiff := inExe_iff.mp hexe
  exact ⟨h.exeReg hexe, hiff.2, hiff.1⟩

include h in
theorem exeAddress_same (hexe : s.inExe t = true) : s.exeAddress = s'.exeAddress := by
  simp only [exeAddress, h.exeReg hexe]

include h v in
theorem exeAnyExc_same (hflex : conf.flex = true) (hexe : s.inExe t = true) :
    s.exeAnyExc = s'.exeAnyExc := by
  obtain ⟨hreg, htid, hvalid⟩ := same_exe h hexe
  obtain ⟨hext, hexpire⟩ := v.interrupt hexe
  have hee : s.csr.excExpire t true = s'.csr.excExpire t true := by
    simp only [CsrState.excExpire, h.csr.timer, h.csr.expired_eq hflex t t]
  simp only [exeAnyExc, ← hreg, htid, hvalid, h.csr.mtfdException, hee, hext, hexpire]

include h v in
theorem exeKill_same (hflex : conf.flex = true) (hexe : s.inExe t = true) :
    s.exeKill = s'.exeKill := by
  simp only [exeKill, h.exeReg hexe, exeAnyExc_same h v hflex hexe]

include h u in
theorem exeInstExc_same (hexe : s.inExe t = true) : s.exeInstExc = s'.exeInstExc := by
  have hreg := h.exeReg hexe
  have haddr : s.loadStoreIn.addr = s'.loadStoreIn.addr := exeAddress_same h hexe
  have hload : s.loadStoreIn.load = s'.loadStoreIn.load := by simp only [loadStoreIn, hreg]
  have hstore : s.loadStoreIn.store = s'.loadStoreIn.store := by simp only [loadStoreIn, hreg]
  have htype : s.loadStoreIn.memType = s'.loadStoreIn.memType := by
    simp only [loadStoreIn, hreg]
  have hlm : s.loadStoreIn.loadMisaligned = s'.loadStoreIn.loadMisaligned := by
    unfold LoadStoreIn.loadMisaligned
    rw [hload, htype, haddr]
  have hlf : s.loadStoreIn.loadFault = s'.loadStoreIn.loadFault := by
    unfold LoadStoreIn.loadFault LoadStoreIn.badAddress
    rw [hload, haddr]
  have hsm : s.loadStoreIn.storeMisaligned = s'.loadStoreIn.storeMisaligned := by
    unfold LoadStoreIn.storeMisaligned
    rw [hstore, htype, haddr]
  simp only [exeInstExc, hlm, hlf, hsm, u.store hexe]

include h v u in
theorem exeException_same (hflex : conf.flex = true) (hexe : s.inExe t = true) :
    s.exeException = s'.exeException := by
  simp only [exeException, h.exeReg hexe, exeInstExc_same h u hexe,
    exeAnyExc_same h v hflex hexe]

include h v u in
theorem exeValid_same (hflex : conf.flex = true) (hexe : s.inExe t = true) :
    s.exeValid = s'.exeValid := by
  simp only [exeValid, h.exeReg hexe, exeException_same h v u hflex hexe]

include h in
theorem exeBrjmp_same (hexe : s.inExe t = true) : s.exeBrjmp = s'.exeBrjmp := by
  simp only [exeBrjmp, exeBrCond, h.exeReg hexe]

include h in
theorem exeDu_same (hflex : conf.flex = true) (hexe : s.inExe t = true) :
    s.exeDu = s'.exeDu := by
  obtain ⟨hreg, htid, -⟩ := same_exe h hexe
  simp only [exeDu, ← hreg, htid, h.csr.expired_eq hflex t t]

include h v u in
theorem exeSleep_same (hflex : conf.flex = true) (hexe : s.inExe t = true) :
    s.exeSleep = s'.exeSleep := by
  simp only [exeSleep, exeDu_same h hflex hexe, exeValid_same h v u hflex hexe]

/-- A signal that only an instruction of `t` in execute raises for `t`. -/
theorem same_of_inExe {f f' : Bool} (hsame : s.inExe t = s'.inExe t)
    (hf : f = true → s.inExe t = true) (hf' : f' = true → s'.inExe t = true)
    (heq : s.inExe t = true → f = f') : f = f' := by
  cases hexe : s.inExe t with
  | true => exact heq hexe
  | false =>
    have hno : f = false := by
      rw [Bool.eq_false_iff]
      intro hft
      rw [hf hft] at hexe
      exact Bool.noConfusion hexe
    have hno' : f' = false := by
      rw [Bool.eq_false_iff]
      intro hft
      rw [hsame, hf' hft] at hexe
      exact Bool.noConfusion hexe
    rw [hno, hno']

include h v u in
theorem traps_same (hflex : conf.flex = true) : s.traps t = s'.traps t := by
  apply same_of_inExe h.inExe inExe_of_traps inExe_of_traps
  intro hexe
  simp only [traps, exeException_same h v u hflex hexe, h.schedule.exeTid]

include h in
theorem redirects_same (hflex : conf.flex = true) : s.redirects t = s'.redirects t := by
  apply same_of_inExe h.inExe inExe_of_redirects inExe_of_redirects
  intro hexe
  simp only [redirects, exeBrjmp_same h hexe, exeDu_same h hflex hexe, h.schedule.exeTid]

include h v u in
theorem flushes_same (hflex : conf.flex = true) : s.flushes t = s'.flushes t := by
  rw [flushes_eq hflex, flushes_eq hflex, traps_same h v u hflex, redirects_same h hflex]

end execute

/-! ## Section 4: Fetch and decode -/

section frontend

variable (h : SameThread t s s') (v : SameView t s i s' i') (u : Undisturbed t D s s')

include h in
theorem decStall_same (hdec : s.inDec t = true) : s.decStall D = s'.decStall D := by
  unfold decStall dec
  rw [h.decReg hdec]

include h in
theorem inFetch_same : s.inFetch t = s'.inFetch t := by
  unfold inFetch
  rw [h.schedule.ifTid, h.schedule.ifValid]

/-- A fetch of `t` is stalled by an instruction of `t` in decode only. -/
theorem fetches_eq :
    s.fetches t D = (s.inFetch t && !(s.inDec t && s.decStall D) && s.stallCount t = 0) := by
  by_cases hif : s.ifReg.tid = t
  · have hstall : (s.decStall D && decide (t = s.decReg.tid)) = (s.inDec t && s.decStall D) := by
      by_cases htid : s.decReg.tid = t
      · simp [inDec, htid, decStall]
        cases s.decReg.valid <;> simp
      · have htid' : ¬ t = s.decReg.tid := fun heq => htid heq.symm
        simp [inDec, htid, htid']
    simp only [fetches, ifPreValid, hif, hstall, inFetch, decide_true, Bool.and_true]
  · simp [fetches, inFetch, hif]

include h in
theorem fetches_same : s.fetches t D = s'.fetches t D := by
  rw [fetches_eq, fetches_eq, ← inFetch_same h, ← h.stallCount, ← h.inDec]
  cases hdec : s.inDec t with
  | true => rw [decStall_same h hdec]
  | false => rfl

include h v u in
/-- **Same timing** of the thread in the cycle. -/
theorem timingStatus_same (hflex : conf.flex = true) :
    s.timingStatus t D = s'.timingStatus t D := by
  have hstall : (s.inDec t && s.decStall D) = (s'.inDec t && s'.decStall D) := by
    rw [← h.inDec]
    cases hdec : s.inDec t with
    | true => rw [decStall_same h hdec]
    | false => rfl
  unfold timingStatus
  rw [hstall, inFetch_same h, fetches_same h, h.inDec, h.inExe, flushes_same h v u hflex,
    traps_same h v u hflex, redirects_same h hflex, h.stallCount]

include h v u in
theorem nextStallCount_same (hflex : conf.flex = true) :
    s.nextStallCount D t = s'.nextStallCount D t := by
  have hsleep : (s.exeSleep && decide (s.exeReg.tid = t)) =
      (s'.exeSleep && decide (s'.exeReg.tid = t)) := by
    have hin : ∀ x : CoreState conf, (x.exeSleep && decide (x.exeReg.tid = t)) = true →
        x.inExe t = true := by
      intro x hx
      simp only [exeSleep, Bool.and_eq_true, decide_eq_true_eq] at hx
      exact inExe_iff.mpr ⟨exeReg_valid_of_du hx.1.1, hx.2⟩
    apply same_of_inExe h.inExe (hin s) (hin s')
    intro hexe
    rw [exeSleep_same h v u hflex hexe, h.schedule.exeTid]
  -- a FENCE.I in decode is of `t`, or it is a foreign one
  have hfence : (s.decReg.valid && (s.dec D).fenceI && decide (s.exeReg.tid = t)) =
      (s'.decReg.valid && (s'.dec D).fenceI && decide (s'.exeReg.tid = t)) := by
    by_cases htid : s.decReg.tid = t
    · have htid' : s'.decReg.tid = t := h.schedule.decTid ▸ htid
      have hvalid : s.decReg.valid = s'.decReg.valid := by
        simpa [inDec, htid, htid'] using h.inDec
      rw [← hvalid, ← h.schedule.exeTid]
      cases hv : s.decReg.valid with
      | true =>
        have hdec : s.inDec t = true := inDec_iff.mpr ⟨hv, htid⟩
        simp only [dec, h.decReg hdec]
      | false => rfl
    · have htid' : ¬ s'.decReg.tid = t := h.schedule.decTid ▸ htid
      simpa [foreignFence, htid, htid'] using u.fence
  rw [nextStallCount_eq D hflex, nextStallCount_eq D hflex, hsleep, hfence,
    traps_same h v u hflex, h.stallCount]

include h in
theorem nextPcs_same (hflex : conf.flex = true) : s.nextPcs D t = s'.nextPcs D t := by
  rw [nextPcs_eq D hflex, nextPcs_eq D hflex, h.trapPending, h.csr.evec, h.pcs,
    fetches_same h, redirects_same h hflex]
  have haddr : s'.redirects t = true → s.exeAddress = s'.exeAddress := by
    intro hred
    rw [← redirects_same h hflex] at hred
    exact exeAddress_same h (inExe_of_redirects hred)
  have hplus : s'.fetches t D = true → s.ifPcPlus4 = s'.ifPcPlus4 := by
    intro hf
    have htid' := (inFetch_iff.mp (inFetch_of_fetches D hf)).2
    rw [ifPcPlus4, ifPcPlus4, h.ifPc (h.schedule.ifTid.trans htid')]
  split
  · rfl
  · split
    · exact haddr ‹_›
    · split
      · exact hplus ‹_›
      · rfl

end frontend

/-! ## Section 5: Values -/

section values

/-- The result of the instruction in execute, where it has one. -/
theorem exeRdData_same (h : SameThread t s s') (v : SameView t s i s' i')
    (hexe : s.inExe t = true)
    (hsel : s.exeReg.sig.exeRdDataSel = exeRdALU ∨ s.exeReg.sig.exeRdDataSel = exeRdPC4 ∨
      (s.exeReg.sig.exeRdDataSel = exeRdCSR ∧ s.exeReg.sig.csr = true)) :
    s.exeRdData = s'.exeRdData := by
  obtain ⟨hreg, htid, -⟩ := same_exe h hexe
  have haddr := exeAddress_same h hexe
  unfold exeRdData
  rw [← hreg, ← haddr, htid]
  rcases hsel with halu | hpc4 | ⟨-, hcsr⟩
  · have hne : exeRdALU ≠ exeRdCSR := by decide
    rw [halu, if_neg hne, if_neg hne]
  · have hne : exeRdPC4 ≠ exeRdCSR := by decide
    rw [hpc4, if_neg hne, if_neg hne]
  · rw [v.csrRead hexe hcsr]

theorem memRdData_eq (bus : BitVec 32) :
    s.memRdData bus =
      if s.memReg.rdDataSel = memRdMEM then s.loadDataOut bus else s.memHeld := by
  simp only [memRdData, memHeld]

theorem memRdData_same (h : SameThread t s s') (v : SameView t s i s' i')
    (hwb : s.writesBack t = true) :
    s.memRdData i.busDataOut = s'.memRdData i'.busDataOut := by
  obtain ⟨-, hsel, hheld⟩ := h.memReg hwb
  rw [memRdData_eq, memRdData_eq, ← hsel]
  split
  · exact v.load hwb ‹_›
  · exact hheld ‹_›

/-- The forwarded value for an instruction of `t`, by the instructions of `t`
    before it. -/
theorem decRsData_eq (hflex : conf.flex = true) (hw : Forwarding t s)
    (hdec : s.inDec t = true) (bus : BitVec 32) (addr : BitVec 5) (data : BitVec 32) :
    s.decRsData bus addr data =
      if s.inExe t && s.exeReg.rdWrite && addr = s.exeReg.rdAddr then s.exeRdData
      else if s.writesBack t && addr = s.memReg.rdAddr then s.memRdData bus
      else if s.wbReg.rdWrite && s.wbReg.tid = t && addr = s.wbReg.rdAddr then s.wbReg.rdData
      else data := by
  have htid := (inDec_iff.mp hdec).2
  have hexe : (decide (s.decReg.tid = s.exeReg.tid) && s.exeReg.rdWrite) =
      (s.inExe t && s.exeReg.rdWrite) := by
    rw [htid, inExe]
    by_cases heq : s.exeReg.tid = t
    · cases hrd : s.exeReg.rdWrite with
      | true => simp [heq, hw.exe hdec heq hrd]
      | false => simp
    · have heq' : ¬ t = s.exeReg.tid := fun hh => heq hh.symm
      simp [heq, heq']
  have hmem : (decide (s.decReg.tid = s.memReg.tid) && s.memReg.rdWrite) = s.writesBack t := by
    rw [htid, writesBack, memRdWrite]
    by_cases heq : s.memReg.tid = t
    · cases hrd : s.memReg.rdWrite with
      | true => simp [heq, hw.mem hdec heq hrd]
      | false => simp
    · have heq' : ¬ t = s.memReg.tid := fun hh => heq hh.symm
      simp [heq, heq']
  have hwb : (decide (s.decReg.tid = s.wbReg.tid) && s.wbReg.rdWrite) =
      (s.wbReg.rdWrite && decide (s.wbReg.tid = t)) := by
    rw [htid, Bool.and_comm]
    simp only [eq_comm]
  simp only [decRsData, bypassing_of_flex hflex, if_true, hexe, hmem, hwb]

theorem decRsData_same (h : SameThread t s s') (v : SameView t s i s' i')
    (hflex : conf.flex = true) (hexed : ExeDecoded D s) (hw : Forwarding t s)
    (hw' : Forwarding t s') (hdec : s.inDec t = true) (addr : BitVec 5) (data : BitVec 32) :
    s.decRsData i.busDataOut addr data = s'.decRsData i'.busDataOut addr data := by
  rw [decRsData_eq hflex hw hdec, decRsData_eq hflex hw' (h.inDec ▸ hdec), ← h.inExe,
    ← h.writesBack]
  -- writeback, when neither execute nor memory has the value
  have hwb : (if s.wbReg.rdWrite && decide (s.wbReg.tid = t) && decide (addr = s.wbReg.rdAddr)
        then s.wbReg.rdData else data) =
      if s'.wbReg.rdWrite && decide (s'.wbReg.tid = t) && decide (addr = s'.wbReg.rdAddr)
        then s'.wbReg.rdData else data := by
    by_cases htid : s.wbReg.tid = t
    · have hwrite := h.wbWrite htid
      cases hrd : s.wbReg.rdWrite with
      | true => rw [← h.wbReg htid hrd, hrd]
      | false => simp [← hwrite, hrd]
    · have htid' : ¬ s'.wbReg.tid = t := h.schedule.wbTid ▸ htid
      simp [htid, htid']
  have hmem : (if s.writesBack t && decide (addr = s.memReg.rdAddr)
        then s.memRdData i.busDataOut
        else if s.wbReg.rdWrite && decide (s.wbReg.tid = t) && decide (addr = s.wbReg.rdAddr)
          then s.wbReg.rdData else data) =
      if s.writesBack t && decide (addr = s'.memReg.rdAddr)
        then s'.memRdData i'.busDataOut
        else if s'.wbReg.rdWrite && decide (s'.wbReg.tid = t) && decide (addr = s'.wbReg.rdAddr)
          then s'.wbReg.rdData else data := by
    cases hm : s.writesBack t with
    | true => rw [(h.memReg hm).1, memRdData_same h v hm, hwb]
    | false => simpa using hwb
  cases he : s.inExe t with
  | true =>
    rw [← h.exeReg he]
    cases hrd : s.exeReg.rdWrite with
    | true =>
      obtain ⟨hload, hmul⟩ := hw.ready hdec he
      have hdata : s.exeRdData = s'.exeRdData := by
        rcases hexed.rdSource (inExe_iff.mp he).1 hrd with ⟨-, hl⟩ | ⟨hsel, hm⟩ | ⟨-, hsel⟩
        · rw [hload] at hl
          exact Bool.noConfusion hl
        · exact absurd ⟨hm, hsel⟩ hmul
        · exact exeRdData_same h v he hsel
      rw [hdata, hmem]
    | false => simpa using hmem
  | false => simpa using hmem

end values

/-! ## Section 6: The CSRs of the thread -/

section csr

/-- A condition on the execute stage of `t`, as a signal for `t`. -/
theorem and_tid_same {f : CoreState conf → Bool} (h : SameThread t s s')
    (hin : ∀ x : CoreState conf, f x = true → x.exeReg.valid = true)
    (heq : s.inExe t = true → f s = f s') :
    (f s && decide (s.exeReg.tid = t)) = (f s' && decide (s'.exeReg.tid = t)) := by
  have hexe : ∀ x : CoreState conf, (f x && decide (x.exeReg.tid = t)) = true →
      x.inExe t = true := by
    intro x hx
    simp only [Bool.and_eq_true, decide_eq_true_eq] at hx
    exact inExe_iff.mpr ⟨hin x hx.1, hx.2⟩
  apply same_of_inExe h.inExe (hexe s) (hexe s')
  intro he
  rw [heq he, h.schedule.exeTid]

variable (h : SameThread t s s') (v : SameView t s i s' i') (u : Undisturbed t D s s')

include h v in
theorem csrWrites_same (hflex : conf.flex = true) (hexe : s.inExe t = true)
    (addr : BitVec 12) : (s.csrIn i).writes addr = (s'.csrIn i').writes addr := by
  unfold CsrIn.writes csrIn
  rw [h.exeReg hexe, exeKill_same h v hflex hexe]

theorem exeReg_valid_of_writes {addr : BitVec 12} (hw : (s.csrIn i).writes addr = true) :
    s.exeReg.valid = true := by
  simp only [CsrIn.writes, csrIn, Bool.and_eq_true] at hw
  exact hw.1.1.2

theorem csr_of_writes {addr : BitVec 12} (hw : (s.csrIn i).writes addr = true) :
    s.exeReg.sig.csr = true := by
  simp only [CsrIn.writes, csrIn, Bool.and_eq_true] at hw
  exact hw.1.1.1

include h v in
theorem csrDataIn_same (hexe : s.inExe t = true) (hcsr : s.exeReg.sig.csr = true) :
    s.csr.dataIn (s.csrIn i) = s'.csr.dataIn (s'.csrIn i') := by
  obtain ⟨hreg, htid, -⟩ := same_exe h hexe
  have hread := v.csrRead hexe hcsr
  unfold CsrState.dataIn
  simp only [csrIn, htid, ← hreg, hread]

include h v in
theorem csrWrites_tid_same (hflex : conf.flex = true) (b : Bool) (addr : BitVec 12) :
    ((b && (s.csrIn i).writes addr) && decide (s.exeReg.tid = t)) =
      ((b && (s'.csrIn i').writes addr) && decide (s'.exeReg.tid = t)) := by
  have hin : ∀ (x : CoreState conf) (j : CoreIn conf),
      ((b && (x.csrIn j).writes addr) && decide (x.exeReg.tid = t)) = true →
        x.inExe t = true := by
    intro x j hx
    simp only [Bool.and_eq_true, decide_eq_true_eq] at hx
    exact inExe_iff.mpr ⟨exeReg_valid_of_writes hx.1.2, hx.2⟩
  apply same_of_inExe h.inExe (hin s i) (hin s' i')
  intro hexe
  rw [csrWrites_same h v hflex hexe, h.schedule.exeTid]

include h v in
/-- A CSR of `t` that only a CSR write changes. -/
theorem csrRegister_same (hflex : conf.flex = true) (b : Bool) (addr : BitVec 12)
    {reg reg' : conf.Tid → BitVec 32} (hreg : reg t = reg' t) :
    assign (b && (s.csrIn i).writes addr) s.exeReg.tid (s.csr.dataIn (s.csrIn i)) reg t =
      assign (b && (s'.csrIn i').writes addr) s'.exeReg.tid (s'.csr.dataIn (s'.csrIn i')) reg'
        t := by
  apply assign_congr (csrWrites_tid_same h v hflex b addr) ?_ hreg
  intro hc
  simp only [Bool.and_eq_true, decide_eq_true_eq] at hc
  exact csrDataIn_same h v (inExe_iff.mpr ⟨exeReg_valid_of_writes hc.1.2, hc.2⟩)
    (csr_of_writes hc.1.2)

include h v u in
theorem nextTimer_same (hflex : conf.flex = true) :
    s.csr.nextTimer (s.csrIn i) t = s'.csr.nextTimer (s'.csrIn i') t := by
  have hexpired := h.csr.expired_eq hflex t t
  have hmtie := and_tid_same (f := fun x => x.csr.mtieSet x.exeReg.tid x.exeReg.valid) h
    (fun x hx => by
      simp only [CsrState.mtieSet, Bool.and_eq_true] at hx
      exact hx.1.1.2)
    (fun he => by
      obtain ⟨hreg, htid, -⟩ := same_exe h he
      simp only [CsrState.mtieSet, ← hreg, htid, h.csr.timer, hexpired])
  have hee := and_tid_same (f := fun x => x.csr.excExpire x.exeReg.tid x.exeReg.valid) h
    (fun x hx => by
      simp only [CsrState.excExpire, Bool.and_eq_true] at hx
      exact hx.1.1.2)
    (fun he => by
      obtain ⟨hreg, htid, -⟩ := same_exe h he
      simp only [CsrState.excExpire, ← hreg, htid, h.csr.timer, hexpired])
  have hvalid : ∀ x : CoreState conf, x.exeValid = true → x.exeReg.valid = true :=
    fun x hx => exeReg_valid_of_valid hx
  have hie := and_tid_same (f := fun x => conf.interruptExpire &&
      (conf.interruptExpire && x.exeValid && x.exeReg.ie)) h
    (fun x hx => by
      simp only [Bool.and_eq_true] at hx
      exact hvalid x hx.2.1.2)
    (fun he => by
      simp only [h.exeReg he, exeValid_same h v u hflex he])
  have harm := and_tid_same (f := fun x => conf.interruptExpire &&
      (conf.interruptExpire && x.exeValid && x.exeReg.ee)) h
    (fun x hx => by
      simp only [Bool.and_eq_true] at hx
      exact hvalid x hx.2.1.2)
    (fun he => by
      simp only [h.exeReg he, exeValid_same h v u hflex he])
  have hsleep := and_tid_same (f := fun x => conf.delayUntil && x.exeSleep) h
    (fun x hx => by
      simp only [exeSleep, Bool.and_eq_true] at hx
      exact hvalid x hx.2.2)
    (fun he => by
      simp only [exeSleep_same h v u hflex he])
  have hover : s.csr.delayOver (s.csrIn i) t = s'.csr.delayOver (s'.csrIn i') t := by
    unfold CsrState.delayOver
    rw [h.csr.timer, h.csr.expired_eq hflex (s.csrIn i).thread (s'.csrIn i').thread]
  have hrfl : ∀ {m : TimerMode} {b : Bool}, b = true → m = m := fun _ => rfl
  unfold CsrState.nextTimer
  apply assign_congr hmtie hrfl
  apply assign_congr hie hrfl
  apply assign_congr hee hrfl
  apply assign_congr harm hrfl
  simp only [hover]
  split
  · rfl
  · apply assign_congr hsleep hrfl
    exact assign_congr (csrWrites_tid_same h v hflex _ _) hrfl h.csr.timer

include h v u in
theorem nextCsr_same (hflex : conf.flex = true) :
    SameCsr t (s.next D i).csr (s'.next D i').csr := by
  have hvalid : ∀ x : CoreState conf, x.exeValid = true → x.exeReg.valid = true :=
    fun x hx => exeReg_valid_of_valid hx
  constructor
  · show (if conf.getTime then s.csr.regTime + timeInc else s.csr.regTime) =
      if conf.getTime then s'.csr.regTime + timeInc else s'.csr.regTime
    rw [h.csr.time]
  · exact csrRegister_same h v hflex _ _ h.csr.evec
  · exact csrRegister_same h v hflex _ _ h.csr.compare
  · exact nextTimer_same h v u hflex
  · have hmt := and_tid_same (f := fun x => (x.exeValid && x.exeReg.sig.mtReg) ||
        (x.exeValid && x.exeReg.mtImm)) h
      (fun x hx => by
        simp only [Bool.or_eq_true, Bool.and_eq_true] at hx
        exact hx.elim (fun hx => hvalid x hx.1) fun hx => hvalid x hx.1)
      (fun he => by
        simp only [h.exeReg he, exeValid_same h v u hflex he])
    apply assign_congr hmt ?_ h.csr.mtfd
    intro hc
    simp only [Bool.and_eq_true, Bool.or_eq_true, decide_eq_true_eq] at hc
    have he : s.inExe t = true :=
      inExe_iff.mpr ⟨hc.1.elim (fun hx => hvalid s hx.1) fun hx => hvalid s hx.1, hc.2⟩
    simp only [h.csr.time32_eq, csrIn, h.exeReg he, exeValid_same h v u hflex he]
  · show Function.update s.csr.mtfdExceptionReg s.csr.threadReg s.csr.mtfdMissed t =
      Function.update s'.csr.mtfdExceptionReg s'.csr.threadReg s'.csr.mtfdMissed t
    rw [← h.schedule.csrTid]
    by_cases htid : s.csr.threadReg = t
    · have hmissed : s.csr.mtfdMissed = s'.csr.mtfdMissed := by
        unfold CsrState.mtfdMissed
        rw [← h.schedule.csrTid, htid, h.csr.fd htid, h.csr.mtfd, h.csr.time32_eq]
      rw [htid, Function.update_self, Function.update_self, hmissed]
    · rw [Function.update_of_ne (Ne.symm htid), Function.update_of_ne (Ne.symm htid),
        h.csr.mtfdException]
  · intro htid
    have hfd := and_tid_same (f := fun x => x.exeValid && x.exeReg.sig.fd) h
      (fun x hx => hvalid x (Bool.and_eq_true_iff.mp hx).1)
      (fun he => by
        simp only [h.exeReg he, exeValid_same h v u hflex he])
    have htid' : s.exeReg.tid = t := htid
    have htid'' : s'.exeReg.tid = t := h.schedule.exeTid ▸ htid'
    show (s.exeValid && s.exeReg.sig.fd) = (s'.exeValid && s'.exeReg.sig.fd)
    simpa [htid', htid''] using hfd

end csr

/-! ## Section 7: One cycle -/

section cycle

variable (h : SameThread t s s') (v : SameView t s i s' i') (u : Undisturbed t D s s')

include h v in
theorem schedule_next : SameSchedule (s.next D i) (s'.next D i') where
  next := by
    show NextReg.mk i.thread i.valid = NextReg.mk i'.thread i'.valid
    rw [v.schedule.1, v.schedule.2]
  ifTid := congrArg NextReg.tid h.schedule.next
  ifValid := congrArg NextReg.valid h.schedule.next
  decTid := h.schedule.ifTid
  decIssued := h.schedule.ifValid
  exeTid := h.schedule.decTid
  exeIssued := h.schedule.decIssued
  memTid := h.schedule.exeTid
  wbTid := h.schedule.memTid
  csrTid := h.schedule.exeTid

include h v in
/-- The instruction of `t` fetched in the cycle. -/
theorem nextDecReg_same (hf : s.fetches t D = true) (hvalid : s.ifValid D = s'.ifValid D) :
    s.nextDecReg D = s'.nextDecReg D := by
  have hfetch := inFetch_of_fetches D hf
  have hpc := h.ifPc (inFetch_iff.mp hfetch).2
  unfold nextDecReg ifExc ifPcPlus4
  rw [h.schedule.ifTid, h.schedule.ifValid, hvalid, hpc, v.fetch hfetch]

include h v in
/-- The registers read for it. -/
theorem nextDout_same (hf : s.fetches t D = true) :
    (s.next D i).regfile.dout1 = (s'.next D i').regfile.dout1 ∧
      (s.next D i).regfile.dout2 = (s'.next D i').regfile.dout2 := by
  have hfetch := inFetch_of_fetches D hf
  obtain ⟨-, htid⟩ := inFetch_iff.mp hfetch
  have hread : ∀ addr, s.regfile.read addr s.ifReg.tid = s'.regfile.read addr s'.ifReg.tid := by
    intro addr
    rw [← h.schedule.ifTid, htid]
    unfold RegFile.read
    rw [h.regs addr]
  constructor
  · show s.regfile.read (s.ifInst.extractLsb' 15 5) s.ifReg.tid =
      s'.regfile.read (s'.ifInst.extractLsb' 15 5) s'.ifReg.tid
    rw [v.fetch hfetch, hread]
  · show s.regfile.read (s.ifInst.extractLsb' 20 5) s.ifReg.tid =
      s'.regfile.read (s'.ifInst.extractLsb' 20 5) s'.ifReg.tid
    rw [v.fetch hfetch, hread]

/-- The instruction of `t` that moves to execute. -/
theorem nextExeReg_same (h : SameThread t s s') (v : SameView t s i s' i')
    (hflex : conf.flex = true) (hexed : ExeDecoded D s) (hw : Forwarding t s)
    (hw' : Forwarding t s') (hdec : s.inDec t = true) (hvalid : s.decValid = s'.decValid) :
    s.nextExeReg D i.busDataOut = s'.nextExeReg D i'.busDataOut := by
  have hreg := h.decReg hdec
  obtain ⟨hdout1, hdout2⟩ := h.dout hdec
  have hrs1 : s.decRs1Data i.busDataOut = s'.decRs1Data i'.busDataOut := by
    rw [decRs1Data, decRs1Data, ← hreg, ← hdout1]
    exact decRsData_same h v hflex hexed hw hw' hdec _ _
  have hrs2 : s.decRs2Data i.busDataOut = s'.decRs2Data i'.busDataOut := by
    rw [decRs2Data, decRs2Data, ← hreg, ← hdout2]
    exact decRsData_same h v hflex hexed hw hw' hdec _ _
  unfold nextExeReg decRdWrite decExc dec
  rw [hreg, hrs1, hrs2, hvalid]

include h in
theorem memRdWrite_tid_same (hwb : s.writesBack t = true) (addr : BitVec 5) :
    (s.memRdWrite && decide (addr = s.memReg.rdAddr) && decide (t = s.memReg.tid)) =
      (s'.memRdWrite && decide (addr = s'.memReg.rdAddr) && decide (t = s'.memReg.tid)) := by
  have hwb' : s'.writesBack t = true := h.writesBack ▸ hwb
  simp only [writesBack, Bool.and_eq_true, decide_eq_true_eq] at hwb hwb'
  simp [hwb.1, hwb'.1, hwb.2, hwb'.2, (h.memReg (by simp [writesBack, hwb])).1]

theorem not_memRdWrite_tid (hwb : s.writesBack t = false) (addr : BitVec 5) :
    (s.memRdWrite && decide (addr = s.memReg.rdAddr) && decide (t = s.memReg.tid)) = false := by
  rw [Bool.eq_false_iff]
  intro hc
  simp only [Bool.and_eq_true, decide_eq_true_eq] at hc
  have hwb' : s.writesBack t = true := by simp [writesBack, hc.1.1, hc.2]
  rw [hwb] at hwb'
  exact Bool.noConfusion hwb'

include h v in
theorem nextRegs_same (addr : BitVec 5) :
    (s.next D i).regfile.regfile addr t = (s'.next D i').regfile.regfile addr t := by
  show (if s.memRdWrite && decide (addr = s.memReg.rdAddr) && decide (t = s.memReg.tid)
      then s.memRdData i.busDataOut else s.regfile.regfile addr t) =
    if s'.memRdWrite && decide (addr = s'.memReg.rdAddr) && decide (t = s'.memReg.tid)
      then s'.memRdData i'.busDataOut else s'.regfile.regfile addr t
  cases hwb : s.writesBack t with
  | true => rw [memRdWrite_tid_same h hwb, memRdData_same h v hwb, h.regs addr]
  | false =>
    have hwb' : s'.writesBack t = false := h.writesBack ▸ hwb
    rw [not_memRdWrite_tid hwb, not_memRdWrite_tid hwb', h.regs addr]
    rfl

/-- What the instruction of `t` in execute writes back later. -/
theorem nextMemReg_same (h : SameThread t s s') (v : SameView t s i s' i')
    (hexed : ExeDecoded D s) (hexe : s.inExe t = true) (hrd : s.exeReg.rdWrite = true) :
    s.nextMemReg.rdAddr = s'.nextMemReg.rdAddr ∧
      s.nextMemReg.rdDataSel = s'.nextMemReg.rdDataSel ∧
      (s.nextMemReg.rdDataSel ≠ memRdMEM →
        (s.next D i).memHeld = (s'.next D i').memHeld) := by
  have hreg := h.exeReg hexe
  refine ⟨by simp only [nextMemReg, hreg], by simp only [nextMemReg, hreg], fun hne => ?_⟩
  show (if s.exeReg.sig.memRdDataSel = memRdMUL then
      if conf.mul then mulResult s.exeReg.sig.mulType s.exeReg.op1 s.exeReg.op2
      else s.exeRdData
    else s.exeRdData) =
    if s'.exeReg.sig.memRdDataSel = memRdMUL then
      if conf.mul then mulResult s'.exeReg.sig.mulType s'.exeReg.op1 s'.exeReg.op2
      else s'.exeRdData
    else s'.exeRdData
  rw [← hreg]
  rcases hexed.rdSource (inExe_iff.mp hexe).1 hrd with ⟨hmem, -⟩ | ⟨hsel, hm⟩ | ⟨hsel, hdata⟩
  · exact absurd hmem hne
  · rw [if_pos hsel, if_pos hsel, if_pos hm, if_pos hm]
  · have hnot : memRdREG ≠ memRdMUL := by decide
    rw [hsel, if_neg hnot, if_neg hnot]
    exact exeRdData_same h v hexe hdata

/-- **One cycle** keeps the thread the same. -/
theorem sameThread_next (h : SameThread t s s') (v : SameView t s i s' i')
    (u : Undisturbed t D s s') (hflex : conf.flex = true) (hexed : ExeDecoded D s)
    (hw : Forwarding t s) (hw' : Forwarding t s') :
    SameThread t (s.next D i) (s'.next D i') := by
  have hflush := flushes_same h v u hflex
  have hinDec : (s.next D i).inDec t = (s'.next D i').inDec t := by
    rw [next_inDec, next_inDec, fetches_same h, hflush]
  have hinExe : (s.next D i).inExe t = (s'.next D i').inExe t := by
    rw [next_inExe, next_inExe, h.inDec, hflush]
  have hfetched : (s.next D i).inDec t = true → s.fetches t D = true := by
    intro hd
    rw [next_inDec, Bool.and_eq_true] at hd
    exact hd.1
  have hwb : (s.next D i).writesBack t = (s.inExe t && s.exeReg.rdWrite && s.exeValid) := by
    show (s.exeReg.rdWrite && s.exeReg.valid && s.exeValid && decide (s.exeReg.tid = t)) = _
    simp only [inExe]
    cases s.exeReg.rdWrite <;> cases s.exeReg.valid <;> cases s.exeValid <;> simp
  have hwb' : (s'.next D i').writesBack t =
      (s'.inExe t && s'.exeReg.rdWrite && s'.exeValid) := by
    show (s'.exeReg.rdWrite && s'.exeReg.valid && s'.exeValid && decide (s'.exeReg.tid = t)) = _
    simp only [inExe]
    cases s'.exeReg.rdWrite <;> cases s'.exeReg.valid <;> cases s'.exeValid <;> simp
  exact
    { schedule := schedule_next h v
      pcs := nextPcs_same h hflex
      ifPc := fun htid => by
        have htid' : s'.nextReg.tid = t := (congrArg NextReg.tid h.schedule.next) ▸ htid
        rw [next_ifPc D i htid, next_ifPc D i' htid', nextPcs_same h hflex]
      stallCount := nextStallCount_same h v u hflex
      inDec := hinDec
      decReg := fun hd => by
        have hvalid : (s.next D i).decReg.valid = (s'.next D i').decReg.valid := by
          have hd' : (s'.next D i').inDec t = true := hinDec ▸ hd
          rw [(inDec_iff.mp hd).1, (inDec_iff.mp hd').1]
        exact nextDecReg_same h v (hfetched hd) hvalid
      dout := fun hd => nextDout_same h v (hfetched hd)
      inExe := hinExe
      exeReg := fun he => by
        have hvalid : (s.next D i).exeReg.valid = (s'.next D i').exeReg.valid := by
          have he' : (s'.next D i').inExe t = true := hinExe ▸ he
          rw [(inExe_iff.mp he).1, (inExe_iff.mp he').1]
        have hdec : s.inDec t = true := by
          rw [next_inExe, Bool.and_eq_true] at he
          exact he.1
        exact nextExeReg_same h v hflex hexed hw hw' hdec hvalid
      trapPending := by
        rw [next_trapPending, next_trapPending, traps_same h v u hflex]
      writesBack := by
        rw [hwb, hwb', ← h.inExe]
        cases he : s.inExe t with
        | true => rw [h.exeReg he, exeValid_same h v u hflex he]
        | false => rfl
      memReg := fun hmem => by
        rw [hwb] at hmem
        simp only [Bool.and_eq_true] at hmem
        exact nextMemReg_same h v hexed hmem.1.1 hmem.1.2
      wbWrite := fun htid => by
        have htid1 : s.memReg.tid = t := htid
        have htid2 : s'.memReg.tid = t := h.schedule.memTid ▸ htid1
        show s.memRdWrite = s'.memRdWrite
        simpa [CoreState.writesBack, htid1, htid2] using h.writesBack
      wbReg := fun htid hrd => by
        have hback : s.writesBack t = true := by
          have htid1 : s.memReg.tid = t := htid
          have hrd1 : s.memRdWrite = true := hrd
          simp [CoreState.writesBack, hrd1, htid1]
        have hback' : s'.writesBack t = true := h.writesBack ▸ hback
        simp only [CoreState.writesBack, Bool.and_eq_true] at hback'
        show s.nextWbReg i.busDataOut = s'.nextWbReg i'.busDataOut
        unfold nextWbReg
        rw [h.schedule.memTid, (h.memReg hback).1, memRdData_same h v hback, hback'.1,
          show s.memRdWrite = true from hrd]
      regs := nextRegs_same h v
      csr := nextCsr_same h v u hflex }

end cycle

end CoreState

/-! ## Section 8: Every run -/

/-- What the two runs keep: the same thread, with its forwarding in order. -/
structure IsolationInv (t : conf.Tid) (D : DecodeLogic conf) (s s' : CoreState conf) :
    Prop where
  same : SameThread t s s'
  decoded : s.ExeDecoded D
  forwarding : s.Forwarding t
  forwarding' : s'.Forwarding t

theorem isolationInv_run (hflex : conf.flex = true) (D : DecodeLogic conf) (t : conf.Tid)
    {s₀ s₀' : CoreState conf} (hreset : CoreReset conf s₀) (hreset' : CoreReset conf s₀')
    (hsame : SameThread t s₀ s₀') (inp inp' : Nat → CoreIn conf) (n : Nat)
    (hok : ∀ c, c < n →
      SameView t (Machine.trace (CoreState.next D) s₀ inp c) (inp c)
        (Machine.trace (CoreState.next D) s₀' inp' c) (inp' c) ∧
      Undisturbed t D (Machine.trace (CoreState.next D) s₀ inp c)
        (Machine.trace (CoreState.next D) s₀' inp' c)) :
    IsolationInv t D (Machine.trace (CoreState.next D) s₀ inp n)
      (Machine.trace (CoreState.next D) s₀' inp' n) := by
  refine Machine.trace_relate (IsolationInv t D)
    (fun s i s' i' => SameView t s i s' i' ∧ Undisturbed t D s s') ?_ hok ?_
  · exact ⟨hsame, CoreState.exeDecoded_reset hreset, CoreState.forwarding_reset hreset,
      CoreState.forwarding_reset hreset'⟩
  · intro s i s' i' hview h
    exact ⟨CoreState.sameThread_next h.same hview.1 hview.2 hflex h.decoded h.forwarding
        h.forwarding', CoreState.exeDecoded_next, CoreState.forwarding_next hflex,
      CoreState.forwarding_next hflex⟩

/-- **Timing isolation**: in two runs in which `t` starts the same, is
    scheduled the same and reads the same, and is not disturbed by a FENCE.I
    or a protection change of another thread, its instructions are stalled,
    flushed, valid and executed in the same cycles. -/
theorem timingIsolation (hflex : conf.flex = true) (D : DecodeLogic conf) (t : conf.Tid)
    {s₀ s₀' : CoreState conf} (hreset : CoreReset conf s₀) (hreset' : CoreReset conf s₀')
    (hsame : SameThread t s₀ s₀') (inp inp' : Nat → CoreIn conf) (n : Nat)
    (hview : ∀ c, c ≤ n → SameView t (Machine.trace (CoreState.next D) s₀ inp c) (inp c)
      (Machine.trace (CoreState.next D) s₀' inp' c) (inp' c))
    (hund : ∀ c, c ≤ n → Undisturbed t D (Machine.trace (CoreState.next D) s₀ inp c)
      (Machine.trace (CoreState.next D) s₀' inp' c)) :
    (Machine.trace (CoreState.next D) s₀ inp n).timingStatus t D =
        (Machine.trace (CoreState.next D) s₀' inp' n).timingStatus t D ∧
      ((Machine.trace (CoreState.next D) s₀ inp n).inExe t = true →
        (Machine.trace (CoreState.next D) s₀ inp n).exeReg =
          (Machine.trace (CoreState.next D) s₀' inp' n).exeReg) := by
  have hinv := isolationInv_run hflex D t hreset hreset' hsame inp inp' n
    fun c hc => ⟨hview c (by omega), hund c (by omega)⟩
  exact ⟨CoreState.timingStatus_same hinv.same (hview n (Nat.le_refl n))
    (hund n (Nat.le_refl n)) hflex, hinv.same.exeReg⟩

/-! ## Section 9: A FENCE.I that stalls another thread -/

/-- `bne x1, x0, 8`, then the word that `x1` selects, then no-ops. -/
def branchAround (word : BitVec 32) (a : Nat) : BitVec 32 :=
  if a = 0 then 0x00009463 else if a = 1 then word else 0x13

/-- Three threads in turn; `x1` is zero in thread 1 only if `falls`. -/
def branchStart (word : BitVec 32) (falls : Bool) : CoreState conf4tf :=
  { coreZero conf4tf (branchAround word) with
    regfile :=
      { regfile := fun a u => if a = 1 then if falls && u.val = 1 then 0 else 1 else 0
        dout1 := 0
        dout2 := 0 } }

def threeTurns (c : Nat) : CoreIn conf4tf := issue conf4tf (⟨c % 3, by omega⟩ : Fin 4)

def branchRun (word : BitVec 32) (falls : Bool) (c : Nat) : CoreState conf4tf :=
  Machine.trace (CoreState.next (DecodeLogic.zeros conf4tf)) (branchStart word falls) threeTurns
    c

theorem branchStart_reset (word : BitVec 32) (falls : Bool) :
    CoreReset conf4tf (branchStart word falls) := by
  have hzero := coreZero_reset conf4tf (branchAround word)
  constructor
  case csr => exact hzero.csr
  all_goals
    intros
    rfl

/-- Only thread 1 can tell the two starts apart. -/
theorem branchStart_same (word : BitVec 32) :
    SameThread (0 : Fin 4) (branchStart word true) (branchStart word false) := by
  constructor
  case schedule => constructor <;> rfl
  case csr => constructor <;> intros <;> rfl
  case regs =>
    intro a
    simp [branchStart]
  all_goals
    intros
    first | rfl | exact ⟨rfl, rfl⟩ | exact ⟨rfl, rfl, fun _ => rfl⟩

/-- **A FENCE.I of another thread**: the two runs differ in `x1` of thread 1
    only, and whether its FENCE.I is reached decides if thread 0 fetches. -/
theorem foreignFence_not_isolated :
    CoreReset conf4tf (branchStart 0x0000100f true) ∧
    CoreReset conf4tf (branchStart 0x0000100f false) ∧
    SameThread (0 : Fin 4) (branchStart 0x0000100f true) (branchStart 0x0000100f false) ∧
    (∀ c, c ≤ 8 → SameView (0 : Fin 4) (branchRun 0x0000100f true c) (threeTurns c)
      (branchRun 0x0000100f false c) (threeTurns c)) ∧
    (branchRun 0x0000100f true 8).timingStatus (0 : Fin 4) (DecodeLogic.zeros conf4tf) ≠
      (branchRun 0x0000100f false 8).timingStatus (0 : Fin 4) (DecodeLogic.zeros conf4tf) := by
  refine ⟨branchStart_reset _ _, branchStart_reset _ _, branchStart_same _, ?_, ?_⟩
  · intro c hc
    interval_cases c <;> constructor <;> decide +kernel
  · decide +kernel

/-- With a no-op in its place thread 0 does not see which way thread 1 goes. -/
theorem branchAround_isolated :
    (branchRun 0x13 true 8).timingStatus (0 : Fin 4) (DecodeLogic.zeros conf4tf) =
        (branchRun 0x13 false 8).timingStatus (0 : Fin 4) (DecodeLogic.zeros conf4tf) ∧
      ((branchRun 0x13 true 8).inExe (0 : Fin 4) = true →
        (branchRun 0x13 true 8).exeReg = (branchRun 0x13 false 8).exeReg) := by
  refine timingIsolation rfl (DecodeLogic.zeros conf4tf) (0 : Fin 4) (branchStart_reset _ _)
    (branchStart_reset _ _) (branchStart_same _) threeTurns threeTurns 8 ?_ ?_
  · intro c hc
    interval_cases c <;> constructor <;> decide +kernel
  · intro c hc
    interval_cases c <;> constructor <;> decide +kernel

end Flexpret.Core
