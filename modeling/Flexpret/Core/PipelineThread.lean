import Flexpret.Core.Pipeline
import Flexpret.Lib.Transition

/-! # One Thread of the Pipeline

    What a clock cycle of the flexible core does to one thread: where its
    instructions are, which of them are killed, its stall count and its PC.
    Everything later is derived from these facts, not from the cycle itself.
-/

namespace Flexpret.Core

variable {conf : FlexpretConfiguration}

/-! ## Section 1: The flexible configuration -/

theorem bypassing_of_flex (hflex : conf.flex = true) : conf.bypassing = true := by
  simp [FlexpretConfiguration.bypassing, hflex]

theorem regBrJmp_of_flex (hflex : conf.flex = true) : conf.regBrJmp = false := by
  simp [FlexpretConfiguration.regBrJmp, hflex]

theorem roundRobin_of_flex (hflex : conf.flex = true) : conf.roundRobin = false := by
  simp [FlexpretConfiguration.roundRobin, hflex]

/-! ## Section 2: Where a thread is -/

namespace CoreState

variable (s : CoreState conf) (t : conf.Tid)

/-- An instruction of `t` is valid in the execute stage. -/
def inExe : Bool := s.exeReg.valid && s.exeReg.tid = t

/-- An instruction of `t` is valid in the decode stage. -/
def inDec : Bool := s.decReg.valid && s.decReg.tid = t

/-- `t` is in the fetch stage. -/
def inFetch : Bool := s.ifReg.valid && s.ifReg.tid = t

/-- The trap vector of `t` is about to be loaded into its PC. -/
def trapPending : Bool := conf.exceptions && s.memReg.exception && s.memReg.tid = t

/-- The stage in execute kills the younger instructions of `t`. -/
def flushes : Bool := s.exeFlush && s.exeReg.tid = t

/-- The instruction of `t` in execute goes on at the address of the ALU. -/
def redirects : Bool := (s.exeBrjmp || s.exeDu) && s.exeReg.tid = t

/-- The instruction of `t` in execute traps. -/
def traps : Bool := s.exeException && s.exeReg.tid = t

/-- A fetch of `t` is neither killed by its instruction in decode nor by its
    stall count. -/
def fetches (D : DecodeLogic conf) : Bool := s.ifPreValid D && s.ifReg.tid = t

variable {s t}

@[simp] theorem inExe_iff : s.inExe t = true ↔ s.exeReg.valid = true ∧ s.exeReg.tid = t := by
  simp [inExe]

@[simp] theorem inDec_iff : s.inDec t = true ↔ s.decReg.valid = true ∧ s.decReg.tid = t := by
  simp [inDec]

@[simp] theorem inFetch_iff :
    s.inFetch t = true ↔ s.ifReg.valid = true ∧ s.ifReg.tid = t := by
  simp [inFetch]

/-! ## Section 3: What comes from the execute stage -/

theorem exeReg_valid_of_exception (h : s.exeException = true) : s.exeReg.valid = true := by
  simp only [exeException, Bool.and_eq_true] at h
  exact h.1.2

theorem exceptions_of_exception (h : s.exeException = true) : conf.exceptions = true := by
  simp only [exeException, Bool.and_eq_true] at h
  exact h.1.1

theorem exeReg_valid_of_brjmp (h : s.exeBrjmp = true) : s.exeReg.valid = true := by
  simp only [exeBrjmp, Bool.and_eq_true] at h
  exact h.1

theorem exeReg_valid_of_du (h : s.exeDu = true) : s.exeReg.valid = true := by
  simp only [exeDu, Bool.and_eq_true] at h
  exact h.1.1.2

theorem exeReg_valid_of_valid (h : s.exeValid = true) : s.exeReg.valid = true := by
  simp only [exeValid, Bool.and_eq_true] at h
  exact h.1

/-- Only a valid instruction flushes. -/
theorem exeReg_valid_of_flush (h : s.exeFlush = true) : s.exeReg.valid = true := by
  simp only [exeFlush, Bool.and_eq_true, Bool.or_eq_true] at h
  obtain ⟨-, (hexc | hbrjmp) | hsleep⟩ := h
  · exact exeReg_valid_of_exception hexc
  · exact exeReg_valid_of_brjmp hbrjmp
  · simp only [exeSleep, Bool.and_eq_true] at hsleep
    exact exeReg_valid_of_du hsleep.1

theorem inExe_of_flushes (h : s.flushes t = true) : s.inExe t = true := by
  simp only [flushes, Bool.and_eq_true, decide_eq_true_eq] at h
  exact inExe_iff.mpr ⟨exeReg_valid_of_flush h.1, h.2⟩

theorem inExe_of_traps (h : s.traps t = true) : s.inExe t = true := by
  simp only [traps, Bool.and_eq_true, decide_eq_true_eq] at h
  exact inExe_iff.mpr ⟨exeReg_valid_of_exception h.1, h.2⟩

theorem inExe_of_redirects (h : s.redirects t = true) : s.inExe t = true := by
  simp only [redirects, Bool.and_eq_true, Bool.or_eq_true, decide_eq_true_eq] at h
  obtain ⟨hbrjmp | hdu, htid⟩ := h
  · exact inExe_iff.mpr ⟨exeReg_valid_of_brjmp hbrjmp, htid⟩
  · exact inExe_iff.mpr ⟨exeReg_valid_of_du hdu, htid⟩

theorem memReg_tid_of_trapPending (h : s.trapPending t = true) : s.memReg.tid = t := by
  simp only [trapPending, Bool.and_eq_true, decide_eq_true_eq] at h
  exact h.2

/-- **Who flushes**: a trap, a jump or taken branch, or a DU or WU that goes
    to sleep. -/
theorem flushes_eq (hflex : conf.flex = true) :
    s.flushes t = (s.traps t || s.redirects t) := by
  simp only [flushes, traps, redirects, exeFlush, exeSleep, exeValid, bypassing_of_flex hflex]
  cases hdu : s.exeDu with
  | false => cases s.exeException <;> cases s.exeBrjmp <;> simp
  | true =>
    rw [exeReg_valid_of_du hdu]
    cases s.exeException <;> cases s.exeBrjmp <;> simp

/-- An instruction that neither traps nor redirects kills nothing. -/
theorem flushes_of_plain (hflex : conf.flex = true) (htrap : s.traps t = false)
    (hred : s.redirects t = false) : s.flushes t = false := by
  rw [flushes_eq hflex, htrap, hred]
  rfl

/-! ## Section 4: The stages after the cycle -/

variable (D : DecodeLogic conf) (i : CoreIn conf)

@[simp] theorem next_exeReg_tid : (s.next D i).exeReg.tid = s.decReg.tid := rfl
@[simp] theorem next_exeReg_valid : (s.next D i).exeReg.valid = s.decValid := rfl
@[simp] theorem next_exeReg_sig : (s.next D i).exeReg.sig = D.decode s.decReg.inst := rfl
@[simp] theorem next_exeReg_inst : (s.next D i).exeReg.inst = s.decReg.inst := rfl
@[simp] theorem next_exeReg_pc : (s.next D i).exeReg.pc = s.decReg.pc := rfl
@[simp] theorem next_decReg_tid : (s.next D i).decReg.tid = s.ifReg.tid := rfl
@[simp] theorem next_decReg_valid : (s.next D i).decReg.valid = s.ifValid D := rfl
@[simp] theorem next_decReg_inst : (s.next D i).decReg.inst = s.imem.doutR := rfl
@[simp] theorem next_decReg_pc : (s.next D i).decReg.pc = s.ifPc := rfl
@[simp] theorem next_ifReg_tid : (s.next D i).ifReg.tid = s.nextReg.tid := rfl
@[simp] theorem next_ifReg_valid : (s.next D i).ifReg.valid = s.nextReg.valid := rfl
@[simp] theorem next_nextReg_tid : (s.next D i).nextReg.tid = i.thread := rfl
@[simp] theorem next_nextReg_valid : (s.next D i).nextReg.valid = i.valid := rfl
@[simp] theorem next_ifRegPcs : (s.next D i).ifRegPcs = s.nextPcs D := rfl
@[simp] theorem next_stallCount : (s.next D i).stallCount = s.nextStallCount D := rfl
@[simp] theorem next_csr : (s.next D i).csr = s.csr.next (s.csrIn i) := rfl
@[simp] theorem next_memReg_valid : (s.next D i).memReg.valid = s.exeValid := rfl
@[simp] theorem next_memReg_exception : (s.next D i).memReg.exception = s.exeException := rfl
@[simp] theorem next_memReg_tid : (s.next D i).memReg.tid = s.exeReg.tid := rfl

/-- A stage of `t` is killed by the thread in execute only when that is `t`. -/
theorem flush_tid {u : conf.Tid} (hu : u = t) :
    (s.exeFlush && decide (u = s.exeReg.tid)) = s.flushes t := by
  subst hu
  simp only [flushes, eq_comm]

/-- What is in decode moves to execute unless it is flushed. -/
theorem next_inExe : (s.next D i).inExe t = (s.inDec t && !s.flushes t) := by
  by_cases htid : s.decReg.tid = t
  · simp only [inExe, next_exeReg_tid, next_exeReg_valid, decValid, inDec, flush_tid htid]
    simp [htid]
  · simp [inExe, inDec, htid]

theorem inFetch_of_fetches (h : s.fetches t D = true) : s.inFetch t = true := by
  simp only [fetches, ifPreValid, Bool.and_eq_true, decide_eq_true_eq] at h
  exact inFetch_iff.mpr ⟨h.1.1.1, h.2⟩

theorem stallCount_of_fetches (h : s.fetches t D = true) :
    s.stallCount t = 0 := by
  simp only [fetches, ifPreValid, Bool.and_eq_true, decide_eq_true_eq] at h
  exact h.2 ▸ h.1.2

/-- A fetch behind an instruction of the same thread in decode is stalled by
    it if that loads or multiplies. -/
theorem decStall_of_fetches (h : s.fetches t D = true) (hdec : s.inDec t = true) :
    s.decStall D = false := by
  obtain ⟨-, htid⟩ := inDec_iff.mp hdec
  simp only [fetches, ifPreValid, Bool.and_eq_true, Bool.not_eq_true', decide_eq_true_eq] at h
  obtain ⟨⟨⟨-, hstall⟩, -⟩, hif⟩ := h
  simpa [hif, htid] using hstall

/-- What is fetched moves to decode unless it is flushed. -/
theorem next_inDec :
    (s.next D i).inDec t = (s.fetches t D && !s.flushes t) := by
  by_cases htid : s.ifReg.tid = t
  · simp only [inDec, next_decReg_tid, next_decReg_valid, ifValid, fetches, flush_tid htid]
    simp [htid]
  · simp [inDec, fetches, htid]

theorem next_trapPending : (s.next D i).trapPending t = s.traps t := by
  show (conf.exceptions && s.exeException && decide (s.exeReg.tid = t)) = _
  cases hexc : s.exeException with
  | false => simp [traps, hexc]
  | true => simp [traps, hexc, exceptions_of_exception hexc]

/-- The PC in fetch is that of the PC register of its thread. -/
theorem next_ifPc (htid : s.nextReg.tid = t) : (s.next D i).ifPc = s.nextPcs D t := by
  show (if conf.threads > 1 then s.nextPcs D s.nextReg.tid else s.nextPcs D 0) = _
  split
  · rw [htid]
  · -- with one thread there is one PC
    have hzero : (0 : conf.Tid) = t := by
      apply Fin.ext
      have hlt := t.isLt
      have hpos := conf.threads_pos
      show 0 % conf.threads = t.val
      rw [Nat.zero_mod]
      omega
    rw [hzero]

/-! ## Section 5: What the execute stage holds -/

section decoded

variable {D : DecodeLogic conf} {i : CoreIn conf}

/-- The signals in execute are those of its word, and the operands of a DU or
    WU are its PC and zero. -/
structure ExeDecoded (D : DecodeLogic conf) (s : CoreState conf) : Prop where
  sig : s.exeReg.valid = true → s.exeReg.sig = D.decode s.exeReg.inst
  du : s.exeReg.valid = true → s.exeReg.sig.du = true →
    s.exeReg.sig.aluType = aluADD ∧ s.exeReg.op1 = s.exeReg.pc ∧ s.exeReg.op2 = 0
  rd : s.exeReg.valid = true → s.exeReg.rdWrite = true → s.exeReg.sig.rdEn = true

theorem exeDecoded_reset (h : CoreReset conf s) : ExeDecoded D s := by
  have hinvalid : ¬ (s.exeReg.valid = true) := by simp [h.exeValid]
  exact ⟨fun hv => absurd hv hinvalid, fun hv => absurd hv hinvalid,
    fun hv => absurd hv hinvalid⟩

theorem exeDecoded_next : ExeDecoded D (s.next D i) := by
  constructor
  · intro _
    rfl
  · intro _ hdu
    have hflags := D.flags s.decReg.inst
    have hrow : (decodeRow conf s.decReg.inst).du = true :=
      (congrArg Flags.du hflags).symm.trans hdu
    obtain ⟨hop1, hop2, halu⟩ := (decodeRow_sound s.decReg.inst).du hrow
    have hagrees := D.agrees s.decReg.inst
    refine ⟨hagrees.aluType _ halu, ?_, ?_⟩
    · show decOp1 (D.decode s.decReg.inst).op1Sel _ s.decReg.pc = s.decReg.pc
      rw [hagrees.op1Sel _ hop1]
      rfl
    · show decOp2 (D.decode s.decReg.inst).op2Sel _ _ = 0
      obtain hzero | hfour := hop2
      · rw [hagrees.op2Sel _ hzero]
        rfl
      · rw [hagrees.op2Sel _ hfour]
        rfl
  · intro _ hrd
    have hwrite : (s.decRdWrite D && s.decReg.valid) = true := hrd
    simp only [decRdWrite, Bool.and_eq_true] at hwrite
    exact hwrite.1.2

theorem ExeDecoded.flags (h : ExeDecoded D s) (hvalid : s.exeReg.valid = true) :
    s.exeReg.sig.toFlags = (decodeRow conf s.exeReg.inst).toFlags := by
  rw [h.sig hvalid]
  exact D.flags s.exeReg.inst

theorem ExeDecoded.exclusive (h : ExeDecoded D s) (hvalid : s.exeReg.valid = true) :
    s.exeReg.sig.toFlags.Exclusive := by
  rw [h.sig hvalid]
  exact D.exclusive s.exeReg.inst

/-- Where the value comes from that the instruction in execute writes. -/
theorem ExeDecoded.rdSource (h : ExeDecoded D s) (hvalid : s.exeReg.valid = true)
    (hrd : s.exeReg.rdWrite = true) :
    (s.exeReg.sig.memRdDataSel = memRdMEM ∧ s.exeReg.sig.load = true) ∨
    (s.exeReg.sig.memRdDataSel = memRdMUL ∧ conf.mul = true) ∨
    (s.exeReg.sig.memRdDataSel = memRdREG ∧
      (s.exeReg.sig.exeRdDataSel = exeRdALU ∨ s.exeReg.sig.exeRdDataSel = exeRdPC4 ∨
        (s.exeReg.sig.exeRdDataSel = exeRdCSR ∧ s.exeReg.sig.csr = true))) := by
  have hflags := h.flags hvalid
  have hen : (decodeRow conf s.exeReg.inst).rdEn = true :=
    (congrArg Flags.rdEn hflags).symm.trans (h.rd hvalid hrd)
  have hload := congrArg Flags.load hflags
  have hcsr := congrArg Flags.csr hflags
  have hagrees := D.agrees s.exeReg.inst
  rw [← h.sig hvalid] at hagrees
  rcases (decodeRow_sound s.exeReg.inst).rd hen with ⟨hsel, hl⟩ | ⟨hsel, hm⟩ | ⟨hsel, hexe⟩
  · exact .inl ⟨hagrees.memRdDataSel _ hsel, hload.trans hl⟩
  · exact .inr (.inl ⟨hagrees.memRdDataSel _ hsel, hm⟩)
  · refine .inr (.inr ⟨hagrees.memRdDataSel _ hsel, ?_⟩)
    rcases hexe with halu | hpc4 | ⟨hrdcsr, hc⟩
    · exact .inl (hagrees.exeRdDataSel _ halu)
    · exact .inr (.inl (hagrees.exeRdDataSel _ hpc4))
    · exact .inr (.inr ⟨hagrees.exeRdDataSel _ hrdcsr, hcsr.trans hc⟩)

end decoded

/-! ## Section 6: Stall count and PC after the cycle -/

/-- **Stall count** of a thread: a trap sets it, a FENCE.I in decode sets that
    of the thread in execute, a sleep sets it, and otherwise it counts down. -/
theorem nextStallCount_eq (hflex : conf.flex = true) :
    s.nextStallCount D t =
      if s.traps t then 1
      else if s.decReg.valid && (s.dec D).fenceI && s.exeReg.tid = t then 1
      else if s.exeSleep && s.exeReg.tid = t then 2
      else if s.stallCount t ≠ 0 then s.stallCount t - 1
      else 0 := by
  simp only [nextStallCount, bypassing_of_flex hflex, regBrJmp_of_flex hflex, Bool.and_false,
    if_true]
  by_cases htid : s.exeReg.tid = t
  · subst htid
    simp only [assign_self, traps, decide_true, Bool.and_true, Bool.false_eq_true, if_false]
  · have htid' : t ≠ s.exeReg.tid := fun h => htid h.symm
    simp only [assign_ne htid', traps, htid, decide_false, Bool.and_false, Bool.false_eq_true,
      if_false]

/-- Where the next PC of a thread comes from: a pending trap before a branch,
    a branch before the next instruction. -/
theorem nextPcSel_eq (hreg : conf.regBrJmp = false) :
    s.nextPcSel D t =
      if s.trapPending t then .evec
      else if s.redirects t then .brjmp
      else if s.fetches t D then .plus4
      else .pcreg := by
  simp only [nextPcSel, hreg, Bool.false_eq_true, if_false, assign_apply,
    trapPending, redirects, fetches]
  rfl

theorem nextPcSel_evec (hreg : conf.regBrJmp = false) :
    decide (s.nextPcSel D t = .evec) = s.trapPending t := by
  rw [nextPcSel_eq D hreg]
  cases s.trapPending t <;> cases s.redirects t <;> cases s.fetches t D <;> rfl

theorem nextPcSel_brjmp (hreg : conf.regBrJmp = false) :
    decide (s.nextPcSel D t = .brjmp) =
      (!s.trapPending t && s.redirects t) := by
  rw [nextPcSel_eq D hreg]
  cases s.trapPending t <;> cases s.redirects t <;> cases s.fetches t D <;> rfl

theorem nextPcSel_plus4 (hreg : conf.regBrJmp = false) :
    decide (s.nextPcSel D t = .plus4) =
      (!s.trapPending t && !s.redirects t &&
        s.fetches t D) := by
  rw [nextPcSel_eq D hreg]
  cases s.trapPending t <;> cases s.redirects t <;> cases s.fetches t D <;> rfl

/-- The next PC of a thread, when jumps are taken from the execute stage. -/
theorem nextPcs_eq_exe (hreg : conf.regBrJmp = false) :
    s.nextPcs D t =
      if s.trapPending t then s.csr.regEvecs t
      else if s.redirects t then s.exeAddress
      else if s.fetches t D then s.ifPcPlus4
      else s.ifRegPcs t := by
  -- the select of each stage's thread is that of `t` where the stage assigns `t`
  have htrap : (conf.exceptions && decide (s.nextPcSel D s.memReg.tid = .evec) &&
      decide (s.memReg.tid = t)) = s.trapPending t := by
    by_cases htid : s.memReg.tid = t
    · rw [htid, nextPcSel_evec D hreg]
      simp only [trapPending, htid, decide_true, Bool.and_true]
      cases conf.exceptions <;> rfl
    · simp [trapPending, htid]
  have hbrjmp : (decide (s.nextPcSel D s.exeReg.tid = .brjmp) && decide (s.exeReg.tid = t)) =
      (!s.trapPending t && s.redirects t) := by
    by_cases htid : s.exeReg.tid = t
    · simp [htid, nextPcSel_brjmp D hreg]
    · simp [htid, redirects]
  have hplus4 : (decide (s.nextPcSel D s.ifReg.tid = .plus4) && decide (s.ifReg.tid = t)) =
      (!s.trapPending t && !s.redirects t &&
        s.fetches t D) := by
    by_cases htid : s.ifReg.tid = t
    · simp [htid, nextPcSel_plus4 D hreg]
    · simp [htid, fetches]
  simp only [nextPcs, hreg, Bool.false_eq_true, if_false, assign_apply]
  rw [htrap, hbrjmp, hplus4]
  cases htp : s.trapPending t with
  | true =>
    rw [memReg_tid_of_trapPending htp]
    rfl
  | false => cases s.redirects t <;> cases s.fetches t D <;> rfl

/-- **The next PC** of a thread. -/
theorem nextPcs_eq (hflex : conf.flex = true) :
    s.nextPcs D t =
      if s.trapPending t then s.csr.regEvecs t
      else if s.redirects t then s.exeAddress
      else if s.fetches t D then s.ifPcPlus4
      else s.ifRegPcs t :=
  nextPcs_eq_exe D (regBrJmp_of_flex hflex)

end CoreState

/-! ## Section 7: Runs -/

/-- **A run** of the core: the state of every cycle, from reset, for the inputs
    of every cycle. -/
structure CoreRun (D : DecodeLogic conf) (st : Nat → CoreState conf)
    (inp : Nat → CoreIn conf) : Prop where
  reset : CoreReset conf (st 0)
  next : ∀ c, st (c + 1) = (st c).next D (inp c)

/-- Every reset state has a run for every stream of inputs. -/
theorem coreRun_trace (D : DecodeLogic conf) {s₀ : CoreState conf} (hreset : CoreReset conf s₀)
    (inp : Nat → CoreIn conf) :
    CoreRun D (Transition.Machine.trace (CoreState.next D) s₀ inp) inp :=
  ⟨hreset, fun _ => rfl⟩

/-- A run is the trace from its first state. -/
theorem CoreRun.eq_trace {D : DecodeLogic conf} {st : Nat → CoreState conf}
    {inp : Nat → CoreIn conf} (h : CoreRun D st inp) (c : Nat) :
    st c = Transition.Machine.trace (CoreState.next D) (st 0) inp c := by
  induction c with
  | zero => rfl
  | succ c ih => rw [h.next, Transition.Machine.trace_succ, ← ih]

theorem CoreRun.exeDecoded {D : DecodeLogic conf} {st : Nat → CoreState conf}
    {inp : Nat → CoreIn conf} (h : CoreRun D st inp) (c : Nat) :
    CoreState.ExeDecoded D (st c) := by
  cases c with
  | zero => exact CoreState.exeDecoded_reset h.reset
  | succ c =>
    rw [h.next]
    exact CoreState.exeDecoded_next

end Flexpret.Core
