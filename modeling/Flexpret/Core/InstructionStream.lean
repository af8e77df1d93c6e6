import Flexpret.Core.PipelineThread

/-! # The Instruction Stream of a Thread

    The instructions of a thread that become valid in the execute stage are
    the thread's architectural path: each goes on where the one before it
    says, whatever the other threads and the scheduler do in between.
-/

open Transition

namespace Flexpret.Core

variable {conf : FlexpretConfiguration}

/-! ## Section 1: The architectural path -/

namespace CoreState

variable (s : CoreState conf)

/-- Where the thread goes on after the instruction in execute: at its trap
    vector, at the ALU's target, at the same instruction for a DU or WU that
    has not expired, or at the next one. -/
def archNext : BitVec 32 :=
  if s.exeException then s.csr.regEvecs s.exeReg.tid
  else if s.exeBrjmp then s.exeAddress
  else if s.exeDu then s.exeReg.pc
  else s.exeReg.pc + 4

/-- The architectural PC of `t` after the cycle, from the one before. -/
def archStep (t : conf.Tid) (pc : BitVec 32) : BitVec 32 :=
  if s.inExe t then s.archNext else pc

/-- Nothing of the instruction in execute is committed. -/
structure CommitSuppressed (D : DecodeLogic conf) (i : CoreIn conf) : Prop where
  rd : (s.next D i).memRdWrite = false
  csr : ∀ addr, (s.csrIn i).writes addr = false
  store : s.loadStoreIn.write = false
  sleep : s.exeSleep = false
  timer : (s.csrIn i).ie = false ∧ (s.csrIn i).ee = false
  mtfd : (s.csrIn i).mt = false ∧ (s.csrIn i).fd = false

end CoreState

/-- The PC of `t` on its architectural path at every cycle: it starts at the
    reset PC and is moved by the instructions of `t` valid in execute. -/
def archPc (D : DecodeLogic conf) (s₀ : CoreState conf) (inp : Nat → CoreIn conf)
    (t : conf.Tid) : Nat → BitVec 32
  | 0 => 0
  | c + 1 =>
    (Machine.trace (CoreState.next D) s₀ inp c).archStep t (archPc D s₀ inp t c)

/-! ## Section 2: A sleeping instruction redirects to itself -/

namespace CoreState

variable {s : CoreState conf} {t : conf.Tid} {D : DecodeLogic conf} {i : CoreIn conf}

/-- A DU or WU redirects to itself. -/
theorem exeAddress_of_du (h : ExeDecoded D s) (hdu : s.exeDu = true) :
    s.exeAddress = s.exeReg.pc := by
  have hvalid := exeReg_valid_of_du hdu
  simp only [exeDu, Bool.and_eq_true] at hdu
  obtain ⟨halu, hop1, hop2⟩ := h.du hvalid hdu.1.2
  simp [exeAddress, halu, hop1, hop2, aluResult, aluADD, aluSLL, aluXOR, aluSRL, aluOR, aluAND,
    aluSUB, aluSLT, aluSLTU, aluSRA]

/-! ## Section 3: A trap commits nothing -/

theorem exception_cases (h : s.exeException = true) :
    s.exeKill = true ∨ s.exeInstExc.1 = true := by
  simp only [exeException, Bool.and_eq_true, Bool.or_eq_true] at h
  obtain ⟨-, (hexc | hinst) | hany⟩ := h
  · exact .inl (by simp [exeKill, hexc])
  · exact .inr hinst
  · exact .inl (by simp [exeKill, hany])

/-- An exception of the instruction itself is one of a load or a store. -/
theorem instExc_cases (h : s.exeInstExc.1 = true) :
    s.exeReg.sig.load = true ∨
      (s.exeReg.sig.store = true ∧
        (s.loadStoreIn.storeMisaligned = true ∨ s.loadStoreIn.storeFault = true)) := by
  simp only [exeInstExc, checkExceptions, List.any_eq_true, List.mem_filter] at h
  obtain ⟨e, ⟨hmem, -⟩, he⟩ := h
  have hload : s.loadStoreIn.load = true → s.exeReg.sig.load = true :=
    fun hl => (Bool.and_eq_true_iff.mp hl).1
  have hstore : s.loadStoreIn.store = true → s.exeReg.sig.store = true :=
    fun hs => (Bool.and_eq_true_iff.mp hs).1
  simp only [List.mem_cons, List.not_mem_nil, or_false] at hmem
  rcases hmem with rfl | rfl | rfl | rfl | rfl
  · exact Bool.noConfusion he
  · simp only [LoadStoreIn.loadMisaligned, Bool.and_eq_true] at he
    exact .inl (hload he.1.2)
  · simp only [LoadStoreIn.loadFault, Bool.and_eq_true] at he
    exact .inl (hload he.1.2)
  · have hmis := he
    simp only [LoadStoreIn.storeMisaligned, Bool.and_eq_true] at he
    exact .inr ⟨hstore he.1.2, .inl hmis⟩
  · have hfault := he
    simp only [LoadStoreIn.storeFault, Bool.and_eq_true] at he
    exact .inr ⟨hstore he.1.2, .inr hfault⟩

theorem ExeDecoded.csr_exclusive (h : ExeDecoded D s) (hvalid : s.exeReg.valid = true)
    (hcsr : s.exeReg.sig.csr = true) :
    s.exeReg.sig.load = false ∧ s.exeReg.sig.store = false := by
  have hflags := h.flags hvalid
  have hsound : (decodeRow conf s.exeReg.inst).Sound conf := decodeRow_sound s.exeReg.inst
  have hrow := hsound.csr ((congrArg Flags.csr hflags).symm.trans hcsr)
  exact ⟨(congrArg Flags.load hflags).trans hrow.1, (congrArg Flags.store hflags).trans hrow.2⟩

theorem ExeDecoded.load_exclusive (h : ExeDecoded D s) (hvalid : s.exeReg.valid = true)
    (hload : s.exeReg.sig.load = true) : s.exeReg.sig.store = false := by
  have hflags := h.flags hvalid
  have hsound : (decodeRow conf s.exeReg.inst).Sound conf := decodeRow_sound s.exeReg.inst
  have hrow := hsound.load ((congrArg Flags.load hflags).symm.trans hload)
  exact (congrArg Flags.store hflags).trans hrow

/-- A trapping instruction writes no CSR. -/
theorem csr_not_written (h : ExeDecoded D s) (htrap : s.exeException = true)
    (addr : BitVec 12) : (s.csrIn i).writes addr = false := by
  have hvalid := exeReg_valid_of_exception htrap
  rw [Bool.eq_false_iff]
  intro hwrite
  simp only [CsrIn.writes, csrIn, Bool.and_eq_true, Bool.not_eq_true'] at hwrite
  obtain ⟨⟨⟨hcsr, -⟩, hkill⟩, -⟩ := hwrite
  obtain ⟨hload, hstore⟩ := h.csr_exclusive hvalid hcsr
  rcases exception_cases htrap with hk | hinst
  · rw [hk] at hkill
    exact Bool.noConfusion hkill
  · rcases instExc_cases hinst with hl | ⟨hs, -⟩
    · rw [hload] at hl
      exact Bool.noConfusion hl
    · rw [hstore] at hs
      exact Bool.noConfusion hs

/-- A trapping instruction stores nothing. -/
theorem store_not_written (h : ExeDecoded D s) (htrap : s.exeException = true) :
    s.loadStoreIn.write = false := by
  have hvalid := exeReg_valid_of_exception htrap
  rw [Bool.eq_false_iff]
  intro hwrite
  simp only [LoadStoreIn.write, Bool.and_eq_true, Bool.not_eq_true'] at hwrite
  obtain ⟨⟨⟨⟨hstore, -⟩, hmis⟩, hfault⟩, hkill⟩ := hwrite
  rcases exception_cases htrap with hk | hinst
  · have hk' : s.loadStoreIn.kill = true := hk
    rw [hk'] at hkill
    exact Bool.noConfusion hkill
  · rcases instExc_cases hinst with hl | ⟨-, hm | hf⟩
    · have hs : s.exeReg.sig.store = true := (Bool.and_eq_true_iff.mp hstore).1
      rw [h.load_exclusive hvalid hl] at hs
      exact Bool.noConfusion hs
    · rw [hm] at hmis
      exact Bool.noConfusion hmis
    · rw [hf] at hfault
      exact Bool.noConfusion hfault

theorem exeValid_of_exception (htrap : s.exeException = true) : s.exeValid = false := by
  simp [exeValid, htrap]

theorem commitSuppressed (h : ExeDecoded D s) (htrap : s.exeException = true) :
    CommitSuppressed s D i := by
  have hvalid := exeValid_of_exception htrap
  constructor
  · show (s.exeReg.rdWrite && s.exeReg.valid && s.exeValid) = false
    rw [hvalid, Bool.and_false]
  · exact csr_not_written h htrap
  · exact store_not_written h htrap
  · simp [exeSleep, hvalid]
  · simp [csrIn, hvalid]
  · simp [csrIn, hvalid]

/-! ## Section 4: The trap vector -/

/-- The trap vector of `t` is written by a CSR instruction of `t` only. -/
theorem next_regEvecs (h : s.inExe t = false ∨ (s.csrIn i).writes CSRs.evec = false) :
    (s.next D i).csr.regEvecs t = s.csr.regEvecs t := by
  show assign (conf.exceptions && (s.csrIn i).writes CSRs.evec) s.exeReg.tid _ _ t = _
  rw [assign_apply]
  rcases h with hexe | hwrite
  · by_cases htid : s.exeReg.tid = t
    · have hvalid : s.exeReg.valid = false := by simpa [inExe, htid] using hexe
      simp [CsrIn.writes, csrIn, hvalid]
    · simp [htid]
  · simp [hwrite]

/-! ## Section 5: The invariant -/

/-- How far the PC register of `t` is ahead because of an instruction. -/
def ahead (b : Bool) : BitVec 32 := if b then 4 else 0

/-- **Stream invariant** of thread `t` whose architectural PC is `pc`: the
    instructions of `t` in execute and decode are the next ones of its path,
    and its PC register is behind them; or its trap vector is on the way and
    none of its instructions is left in the pipeline. -/
structure StreamInv (t : conf.Tid) (pc : BitVec 32) (s : CoreState conf) : Prop where
  fetch : s.inFetch t = true → s.ifPc = s.ifRegPcs t
  exe : s.inExe t = true → s.exeReg.pc = pc
  dec : s.inDec t = true → s.decReg.pc = pc + ahead (s.inExe t)
  pcs : s.trapPending t = false →
    s.ifRegPcs t = pc + ahead (s.inExe t) + ahead (s.inDec t)
  pending : s.trapPending t = true →
    s.inExe t = false ∧ s.inDec t = false ∧ s.stallCount t ≠ 0 ∧ s.csr.regEvecs t = pc

theorem streamInv_reset (h : CoreReset conf s) : StreamInv t 0 s := by
  have hfetch : s.inFetch t = false := by simp [inFetch, h.ifValid]
  have hexe : s.inExe t = false := by simp [inExe, h.exeValid]
  have hdec : s.inDec t = false := by simp [inDec, h.decValid]
  have hpending : s.trapPending t = false := by simp [trapPending, h.memException]
  constructor
  · intro hf
    rw [hfetch] at hf
    exact Bool.noConfusion hf
  · intro he
    rw [hexe] at he
    exact Bool.noConfusion he
  · intro hd
    rw [hdec] at hd
    exact Bool.noConfusion hd
  · intro _
    rw [hexe, hdec, h.pcs]
    rfl
  · intro hp
    rw [hpending] at hp
    exact Bool.noConfusion hp

theorem archNext_of_plain (hexe : s.inExe t = true) (htrap : s.traps t = false)
    (hred : s.redirects t = false) : s.archNext = s.exeReg.pc + 4 := by
  obtain ⟨-, htid⟩ := inExe_iff.mp hexe
  simp only [traps, htid, decide_true, Bool.and_true] at htrap
  simp only [redirects, htid, decide_true, Bool.and_true, Bool.or_eq_false_iff] at hred
  simp [archNext, htrap, hred.1, hred.2]

theorem archNext_of_redirects (hdec : ExeDecoded D s) (htrap : s.traps t = false)
    (hred : s.redirects t = true) : s.archNext = s.exeAddress := by
  obtain ⟨-, htid⟩ := inExe_iff.mp (inExe_of_redirects hred)
  simp only [traps, htid, decide_true, Bool.and_true] at htrap
  simp only [redirects, htid, decide_true, Bool.and_true, Bool.or_eq_true] at hred
  cases hbrjmp : s.exeBrjmp with
  | true => simp [archNext, htrap, hbrjmp]
  | false =>
    have hdu : s.exeDu = true := by simpa [hbrjmp] using hred
    simp [archNext, htrap, hbrjmp, hdu, exeAddress_of_du hdec hdu]

theorem archNext_of_traps (htrap : s.traps t = true) : s.archNext = s.csr.regEvecs t := by
  simp only [traps, Bool.and_eq_true, decide_eq_true_eq] at htrap
  rw [archNext, if_pos htrap.1, htrap.2]

/-- The instruction of `t` in execute goes on to the next one. -/
theorem archStep_of_plain {pc : BitVec 32} (h : StreamInv t pc s) (htrap : s.traps t = false)
    (hred : s.redirects t = false) : s.archStep t pc = pc + ahead (s.inExe t) := by
  unfold archStep
  cases hexe : s.inExe t with
  | true =>
    rw [if_pos rfl, archNext_of_plain hexe htrap hred, h.exe hexe]
    rfl
  | false => simp [ahead]

/-- **One cycle** keeps the stream invariant. -/
theorem streamInv_next (hflex : conf.flex = true) (hdec : ExeDecoded D s) {pc : BitVec 32}
    (h : StreamInv t pc s) : StreamInv t (s.archStep t pc) (s.next D i) := by
  have hfetch : (s.next D i).inFetch t = true → (s.next D i).ifPc = (s.next D i).ifRegPcs t :=
    fun hf => next_ifPc D i (inFetch_iff.mp hf).2
  cases htrap : s.traps t with
  | true =>
    have hexe := inExe_of_traps htrap
    have hflush : s.flushes t = true := by rw [flushes_eq hflex, htrap, Bool.true_or]
    have hstep : s.archStep t pc = s.csr.regEvecs t := by
      rw [archStep, if_pos hexe, archNext_of_traps htrap]
    have hexe' : (s.next D i).inExe t = false := by simp [next_inExe, hflush]
    have hdec' : (s.next D i).inDec t = false := by simp [next_inDec, hflush]
    refine ⟨hfetch, fun he => ?_, fun hd => ?_, fun hp => ?_, fun _ => ⟨hexe', hdec', ?_, ?_⟩⟩
    · rw [hexe'] at he
      exact Bool.noConfusion he
    · rw [hdec'] at hd
      exact Bool.noConfusion hd
    · rw [next_trapPending, htrap] at hp
      exact Bool.noConfusion hp
    · rw [next_stallCount, nextStallCount_eq D hflex, if_pos htrap]
      decide
    · have htrap' : s.exeException = true := by
        simp only [traps, Bool.and_eq_true] at htrap
        exact htrap.1
      rw [hstep, next_regEvecs (.inr (csr_not_written hdec htrap' _))]
  | false =>
    have hpending' : (s.next D i).trapPending t = false := by rw [next_trapPending, htrap]
    cases hred : s.redirects t with
    | true =>
      have hexe := inExe_of_redirects hred
      have hflush : s.flushes t = true := by rw [flushes_eq hflex, hred, Bool.or_true]
      have hexe' : (s.next D i).inExe t = false := by simp [next_inExe, hflush]
      have hdec' : (s.next D i).inDec t = false := by simp [next_inDec, hflush]
      have hpending : s.trapPending t = false := by
        rw [Bool.eq_false_iff]
        intro hp
        rw [(h.pending hp).1] at hexe
        exact Bool.noConfusion hexe
      refine ⟨hfetch, fun he => ?_, fun hd => ?_, fun _ => ?_, fun hp => ?_⟩
      · rw [hexe'] at he
        exact Bool.noConfusion he
      · rw [hdec'] at hd
        exact Bool.noConfusion hd
      · rw [next_ifRegPcs, nextPcs_eq D hflex, if_neg (by simp [hpending]), if_pos hred, hexe',
          hdec', archStep, if_pos hexe, archNext_of_redirects hdec htrap hred]
        simp [ahead]
      · rw [hpending'] at hp
        exact Bool.noConfusion hp
    | false =>
      have hflush := flushes_of_plain hflex htrap hred
      have hexe' : (s.next D i).inExe t = s.inDec t := by simp [next_inExe, hflush]
      have hdec' : (s.next D i).inDec t = s.fetches t D := by simp [next_inDec, hflush]
      have hstep := archStep_of_plain h htrap hred
      -- a pending trap has set the stall count, so nothing is fetched
      have hnot : s.fetches t D = true → s.trapPending t = false := by
        intro hf
        rw [Bool.eq_false_iff]
        intro hp
        exact (h.pending hp).2.2.1 (stallCount_of_fetches D hf)
      refine ⟨hfetch, fun he => ?_, fun hd => ?_, fun _ => ?_, fun hp => ?_⟩
      · rw [hexe'] at he
        rw [next_exeReg_pc, hstep, h.dec he]
      · rw [hdec'] at hd
        rw [next_decReg_pc, hexe', hstep, h.fetch (inFetch_of_fetches D hd), h.pcs (hnot hd)]
      · rw [next_ifRegPcs, nextPcs_eq D hflex, hexe', hdec', hstep]
        cases hp : s.trapPending t with
        | true =>
          obtain ⟨hexe, hdec, -, hevec⟩ := h.pending hp
          have hf : s.fetches t D = false := by
            rw [Bool.eq_false_iff]
            intro hf
            rw [hnot hf] at hp
            exact Bool.noConfusion hp
          rw [if_pos rfl, hexe, hdec, hf, hevec]
          simp [ahead]
        | false =>
          rw [if_neg (by simp), if_neg (by simp [hred])]
          cases hf : s.fetches t D with
          | true =>
            rw [if_pos rfl, ifPcPlus4, h.fetch (inFetch_of_fetches D hf), h.pcs hp]
            rfl
          | false =>
            rw [if_neg (by simp), h.pcs hp]
            simp [ahead]
      · rw [hpending'] at hp
        exact Bool.noConfusion hp

end CoreState

/-! ## Section 6: Every run -/

section runs

variable (D : DecodeLogic conf) {s₀ : CoreState conf} (inp : Nat → CoreIn conf)

theorem exeDecoded_run (hreset : CoreReset conf s₀) (c : Nat) :
    CoreState.ExeDecoded D (Machine.trace (CoreState.next D) s₀ inp c) := by
  cases c with
  | zero => exact CoreState.exeDecoded_reset hreset
  | succ c => exact CoreState.exeDecoded_next

theorem streamInv_run (hflex : conf.flex = true) (hreset : CoreReset conf s₀) (t : conf.Tid)
    (c : Nat) :
    CoreState.StreamInv t (archPc D s₀ inp t c)
      (Machine.trace (CoreState.next D) s₀ inp c) := by
  induction c with
  | zero => exact CoreState.streamInv_reset hreset
  | succ c ih => exact CoreState.streamInv_next hflex (exeDecoded_run D inp hreset c) ih

/-- Every thread has an architectural PC in every cycle of a run. -/
theorem CoreRun.streamInv {st : Nat → CoreState conf} {inp : Nat → CoreIn conf}
    (hflex : conf.flex = true) (h : CoreRun D st inp) (t : conf.Tid) (c : Nat) :
    ∃ pc, CoreState.StreamInv t pc (st c) := by
  induction c with
  | zero => exact ⟨0, CoreState.streamInv_reset h.reset⟩
  | succ c ih =>
    obtain ⟨pc, hpc⟩ := ih
    rw [h.next]
    exact ⟨_, CoreState.streamInv_next hflex (h.exeDecoded c) hpc⟩

/-- While no instruction of `t` is in execute its architectural PC stays. -/
theorem archPc_constant {t : conf.Tid} {c c' : Nat} (hle : c ≤ c')
    (hnone : ∀ k, c ≤ k → k < c' →
      (Machine.trace (CoreState.next D) s₀ inp k).inExe t = false) :
    archPc D s₀ inp t c' = archPc D s₀ inp t c := by
  induction c' with
  | zero =>
    obtain rfl : c = 0 := by omega
    rfl
  | succ c' ih =>
    by_cases heq : c = c' + 1
    · rw [heq]
    · have hlast := hnone c' (by omega) (by omega)
      have hih := ih (by omega) fun k hk hk' => hnone k hk (by omega)
      rw [archPc, CoreState.archStep, hlast, if_neg (by simp), hih]

/-- An instruction of `t` is followed by the one its execution asks for. -/
theorem exePc_follows (hflex : conf.flex = true) (hreset : CoreReset conf s₀) {t : conf.Tid}
    {c c' : Nat} (hlt : c < c')
    (hexe : (Machine.trace (CoreState.next D) s₀ inp c).inExe t = true)
    (hexe' : (Machine.trace (CoreState.next D) s₀ inp c').inExe t = true)
    (hnone : ∀ k, c < k → k < c' →
      (Machine.trace (CoreState.next D) s₀ inp k).inExe t = false) :
    (Machine.trace (CoreState.next D) s₀ inp c').exeReg.pc =
      (Machine.trace (CoreState.next D) s₀ inp c).archNext := by
  have hstay := archPc_constant D inp (Nat.succ_le_of_lt hlt)
    fun k hk hk' => hnone k (by omega) hk'
  rw [(streamInv_run D inp hflex hreset t c').exe hexe', hstay, archPc, CoreState.archStep,
    if_pos hexe]

/-- The word in execute is what the instruction scratchpad held at its PC when
    it was fetched, three cycles before. -/
theorem fetched_word (hreset : CoreReset conf s₀) {c : Nat}
    (hvalid : (Machine.trace (CoreState.next D) s₀ inp c).exeReg.valid = true) :
    3 ≤ c ∧ (Machine.trace (CoreState.next D) s₀ inp c).exeReg.inst =
      (Machine.trace (CoreState.next D) s₀ inp (c - 3)).imem.ispm
        (fetchAddr conf (Machine.trace (CoreState.next D) s₀ inp c).exeReg.pc) := by
  -- validity is handed on from the scheduler's register, which reset clears
  have hdec : ∀ s : CoreState conf, ∀ i, (s.next D i).exeReg.valid = true →
      s.decReg.valid = true := fun s i h => (Bool.and_eq_true_iff.mp h).1
  have hif : ∀ s : CoreState conf, ∀ i, (s.next D i).decReg.valid = true →
      s.ifReg.valid = true := by
    intro s i h
    have hpre := (Bool.and_eq_true_iff.mp h).1
    simp only [CoreState.ifPreValid, Bool.and_eq_true] at hpre
    exact hpre.1.1
  rcases c with _ | _ | _ | c
  · rw [Machine.trace_zero, hreset.exeValid] at hvalid
    exact Bool.noConfusion hvalid
  · have h := hdec _ _ hvalid
    rw [Machine.trace_zero, hreset.decValid] at h
    exact Bool.noConfusion h
  · have h := hif _ _ (hdec _ _ hvalid)
    rw [Machine.trace_zero, hreset.ifValid] at h
    exact Bool.noConfusion h
  · refine ⟨by omega, ?_⟩
    have hnext := hif _ _ (hdec _ _ hvalid)
    rw [Machine.trace_succ, CoreState.next_ifReg_valid] at hnext
    have hpc : (Machine.trace (CoreState.next D) s₀ inp (c + 3)).exeReg.pc =
        (Machine.trace (CoreState.next D) s₀ inp c).nextPc D :=
      CoreState.next_ifPc D (inp c) rfl
    rw [hpc, show c + 1 + 1 + 1 - 3 = c from rfl]
    show (if (Machine.trace (CoreState.next D) s₀ inp c).nextReg.valid then _ else _) = _
    rw [if_pos hnext]

variable (s₀) in
/-- **The instruction stream** of `t`: its instructions valid in execute, in
    time order, are its architectural path from the reset PC. -/
structure ArchStream (t : conf.Tid) : Prop where
  first : ∀ c, (Machine.trace (CoreState.next D) s₀ inp c).inExe t = true →
    (∀ k, k < c → (Machine.trace (CoreState.next D) s₀ inp k).inExe t = false) →
    (Machine.trace (CoreState.next D) s₀ inp c).exeReg.pc = 0
  /-- An instruction is followed by the one its execution asks for. -/
  follows : ∀ c c', c < c' →
    (Machine.trace (CoreState.next D) s₀ inp c).inExe t = true →
    (Machine.trace (CoreState.next D) s₀ inp c').inExe t = true →
    (∀ k, c < k → k < c' → (Machine.trace (CoreState.next D) s₀ inp k).inExe t = false) →
    (Machine.trace (CoreState.next D) s₀ inp c').exeReg.pc =
      (Machine.trace (CoreState.next D) s₀ inp c).archNext
  /-- The word is the one at the PC, and it is executed as it decodes. -/
  word : ∀ c, (Machine.trace (CoreState.next D) s₀ inp c).inExe t = true →
    3 ≤ c ∧
    (Machine.trace (CoreState.next D) s₀ inp c).exeReg.inst =
      (Machine.trace (CoreState.next D) s₀ inp (c - 3)).imem.ispm
        (fetchAddr conf (Machine.trace (CoreState.next D) s₀ inp c).exeReg.pc) ∧
    (Machine.trace (CoreState.next D) s₀ inp c).exeReg.sig =
      D.decode (Machine.trace (CoreState.next D) s₀ inp c).exeReg.inst
  /-- An instruction that traps commits nothing. -/
  trap : ∀ c, (Machine.trace (CoreState.next D) s₀ inp c).inExe t = true →
    (Machine.trace (CoreState.next D) s₀ inp c).exeException = true →
    (Machine.trace (CoreState.next D) s₀ inp c).CommitSuppressed D (inp c)

end runs

/-- **Every thread's instruction stream is its architectural path**, for every
    program and every sequence of scheduler decisions. -/
theorem archStream (hflex : conf.flex = true) (D : DecodeLogic conf) {s₀ : CoreState conf}
    (hreset : CoreReset conf s₀) (inp : Nat → CoreIn conf) (t : conf.Tid) :
    ArchStream D s₀ inp t := by
  have hpc := fun c => streamInv_run D inp hflex hreset t c
  have hdec := exeDecoded_run D inp hreset
  constructor
  · intro c hexe hnone
    rw [(hpc c).exe hexe, archPc_constant D inp (Nat.zero_le c) fun k _ hk => hnone k hk]
    rfl
  · intro c c' hlt hexe hexe' hnone
    exact exePc_follows D inp hflex hreset hlt hexe hexe' hnone
  · intro c hexe
    have hvalid := (CoreState.inExe_iff.mp hexe).1
    obtain ⟨hle, hword⟩ := fetched_word D inp hreset hvalid
    exact ⟨hle, hword, (hdec c).sig hvalid⟩
  · intro c _ htrap
    exact CoreState.commitSuppressed (hdec c) htrap

/-- `jal x0, 8` over an illegal word. -/
def jumpOver (a : Nat) : BitVec 32 := if a = 0 then 0x0080006f else if a = 1 then 0 else 0x13

/-- Thread 0 alone: after the jump in cycle 4 it goes on at address 8. -/
theorem jumpOver_stream :
    (Machine.trace (CoreState.next (DecodeLogic.zeros conf4tf)) (coreZero conf4tf jumpOver)
      (fun _ => issue conf4tf 0) 7).exeReg.pc =
    (Machine.trace (CoreState.next (DecodeLogic.zeros conf4tf)) (coreZero conf4tf jumpOver)
      (fun _ => issue conf4tf 0) 4).archNext := by
  refine (archStream rfl (DecodeLogic.zeros conf4tf) (coreZero_reset conf4tf jumpOver)
    (fun _ => issue conf4tf 0) 0).follows 4 7 (by omega) ?_ ?_ ?_
  · decide +kernel
  · decide +kernel
  · intro k hk hk'
    obtain rfl | rfl : k = 5 ∨ k = 6 := by omega
    · decide +kernel
    · decide +kernel

end Flexpret.Core
