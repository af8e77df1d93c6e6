import Flexpret.Core.PipelineThread

/-! # Operand Forwarding

    The instruction in decode takes its source registers from the execute,
    memory or writeback stage or from the register file.  Whichever it is, an
    instruction that gets valid into execute holds what the instructions of its
    thread before it have written.
-/

open Transition

namespace Flexpret.Core

variable {conf : FlexpretConfiguration}

/-! ## Section 1: Writes to registers -/

namespace CoreState

/-- The instruction of `t` in execute commits a write to register `r`. -/
def commitsRd (s : CoreState conf) (t : conf.Tid) (r : BitVec 5) : Bool :=
  s.exeValid && s.exeReg.rdWrite && s.exeReg.tid = t && s.exeReg.rdAddr = r

variable {s : CoreState conf} {t : conf.Tid} {r : BitVec 5} {D : DecodeLogic conf}
  {i : CoreIn conf}

theorem commitsRd_iff :
    s.commitsRd t r = true ↔ s.exeValid = true ∧ s.exeReg.rdWrite = true ∧
      s.exeReg.tid = t ∧ s.exeReg.rdAddr = r := by
  simp [commitsRd, and_assoc]

/-- The write reaches the register file from the memory stage. -/
theorem commitsRd_eq_memRdWrite :
    s.commitsRd t r =
      ((s.next D i).memRdWrite && (s.next D i).memReg.tid = t &&
        (s.next D i).memReg.rdAddr = r) := by
  show _ = (s.exeReg.rdWrite && s.exeReg.valid && s.exeValid && decide (s.exeReg.tid = t) &&
    decide (s.exeReg.rdAddr = r))
  rw [commitsRd]
  cases hvalid : s.exeValid with
  | true => rw [exeReg_valid_of_valid hvalid, Bool.and_true, Bool.and_true, Bool.true_and]
  | false => simp

/-! ## Section 2: Where the instruction in decode looks -/

/-- In decode behind an instruction of its thread: that one has not been killed
    in decode, and is no load and no multiplication. -/
theorem exe_of_inDec (hbypass : conf.bypassing = true) (hdec : (s.next D i).inDec t = true)
    (htid : s.decReg.tid = t) (hwrite : (s.next D i).exeReg.rdWrite = true) :
    (s.next D i).inExe t = true ∧ (s.next D i).exeReg.sig.load = false ∧
      ¬ (conf.mul = true ∧ (s.next D i).exeReg.sig.memRdDataSel = memRdMUL) := by
  rw [next_inDec, Bool.and_eq_true, Bool.not_eq_true'] at hdec
  have hvalid : s.decReg.valid = true := (Bool.and_eq_true_iff.mp hwrite).2
  have hin : s.inDec t = true := inDec_iff.mpr ⟨hvalid, htid⟩
  have hstall := decStall_of_fetches D hdec.1 hin
  constructor
  · rw [next_inExe, hin, hdec.2]
    rfl
  · simp only [decStall, hbypass, hvalid, Bool.true_and,
      Bool.or_eq_false_iff, Bool.and_eq_false_imp] at hstall
    refine ⟨hstall.1.1, fun ⟨hmul, hsel⟩ => ?_⟩
    have hnot := hstall.1.2 hmul
    rw [decide_eq_false_iff_not] at hnot
    exact hnot hsel

/-- What is no load and no multiplication has its result in execute. -/
theorem ExeDecoded.sel_of_ready (h : ExeDecoded D s) (hvalid : s.exeReg.valid = true)
    (hwrite : s.exeReg.rdWrite = true) (hload : s.exeReg.sig.load = false)
    (hmul : ¬ (conf.mul = true ∧ s.exeReg.sig.memRdDataSel = memRdMUL)) :
    s.exeReg.sig.memRdDataSel = memRdREG := by
  rcases h.rdSource hvalid hwrite with ⟨-, hl⟩ | ⟨hsel, hm⟩ | ⟨hsel, -⟩
  · rw [hload] at hl
    exact Bool.noConfusion hl
  · exact absurd ⟨hm, hsel⟩ hmul
  · exact hsel

/-- What the execute stage forwards is what the instruction there writes. -/
theorem exeRdData_eq_memRdData (hdecoded : ExeDecoded D s) (hvalid : s.exeReg.valid = true)
    (hwrite : s.exeReg.rdWrite = true) (hload : s.exeReg.sig.load = false)
    (hmul : ¬ (conf.mul = true ∧ s.exeReg.sig.memRdDataSel = memRdMUL)) (bus : BitVec 32) :
    (s.next D i).memRdData bus = s.exeRdData := by
  have hsel := hdecoded.sel_of_ready hvalid hwrite hload hmul
  show (if s.exeReg.sig.memRdDataSel = memRdMEM then _
    else if s.exeReg.sig.memRdDataSel = memRdMUL then _ else s.exeRdData) = _
  rw [hsel, if_neg (by decide), if_neg (by decide)]

/-- An instruction that gets valid from decode to execute is not behind one of
    its thread that traps. -/
theorem exeValid_of_not_flushes (hflex : conf.flex = true) (hexe : s.inExe t = true)
    (hflush : s.flushes t = false) : s.exeValid = true := by
  rw [flushes_eq hflex, Bool.or_eq_false_iff] at hflush
  obtain ⟨hvalid, htid⟩ := inExe_iff.mp hexe
  have htrap : s.exeException = false := by simpa [traps, htid] using hflush.1
  rw [exeValid, hvalid, htrap]
  rfl

end CoreState

/-! ## Section 3: The registers of a thread over a run -/

section runs

variable {D : DecodeLogic conf} {st : Nat → CoreState conf} {inp : Nat → CoreIn conf}
  {t : conf.Tid} {r : BitVec 5}

/-- What the instruction in execute in cycle `w` writes to its register: the
    result it has in the memory stage. -/
def rdWritten (st : Nat → CoreState conf) (inp : Nat → CoreIn conf) (w : Nat) : BitVec 32 :=
  (st (w + 1)).memRdData (inp (w + 1)).busDataOut

/-- Register `r` of `t` after the instructions that were in execute before
    cycle `c`, one after the other. -/
def archReg (st : Nat → CoreState conf) (inp : Nat → CoreIn conf) (t : conf.Tid)
    (r : BitVec 5) : Nat → BitVec 32
  | 0 => (st 0).regfile.read r t
  | c + 1 => if (st c).commitsRd t r then rdWritten st inp c else archReg st inp t r c

/-- The write to `r` in cycle `w` is the last one by `t` before cycle `c`. -/
structure LastWrite (st : Nat → CoreState conf) (t : conf.Tid) (r : BitVec 5) (w c : Nat) :
    Prop where
  order : w < c
  commits : (st w).commitsRd t r = true
  last : ∀ j, w < j → j < c → (st j).commitsRd t r = false

theorem archReg_constant {a c : Nat} (hac : a ≤ c)
    (hnone : ∀ j, a ≤ j → j < c → (st j).commitsRd t r = false) :
    archReg st inp t r c = archReg st inp t r a := by
  induction c, hac using Nat.le_induction with
  | base => rfl
  | succ c hac ih =>
    rw [archReg, hnone c hac (Nat.lt_succ_self c), if_neg Bool.false_ne_true]
    exact ih fun j hj hj' => hnone j hj (Nat.lt_succ_of_lt hj')

theorem LastWrite.archReg_eq {w c : Nat} (h : LastWrite st t r w c) :
    archReg st inp t r c = rdWritten st inp w := by
  rw [archReg_constant (Nat.succ_le_of_lt h.order) fun j hj hj' => h.last j hj hj', archReg,
    if_pos h.commits]

/-- Register 0 is not written. -/
theorem CoreRun.commitsRd_zero (h : CoreRun D st inp) (c : Nat) :
    (st c).commitsRd t 0 = false := by
  rw [Bool.eq_false_iff]
  intro hcommits
  obtain ⟨hvalid, hwrite, -, haddr⟩ := CoreState.commitsRd_iff.mp hcommits
  cases c with
  | zero =>
    have hexe := CoreState.exeReg_valid_of_valid hvalid
    rw [h.reset.exeValid] at hexe
    exact Bool.noConfusion hexe
  | succ c =>
    rw [h.next] at hwrite haddr
    have hrd : (st c).decRdWrite D = true := (Bool.and_eq_true_iff.mp hwrite).1
    simp only [CoreState.decRdWrite, Bool.and_eq_true, decide_eq_true_eq] at hrd
    exact hrd.1 haddr

theorem CoreRun.archReg_zero (h : CoreRun D st inp) (c : Nat) : archReg st inp t 0 c = 0 := by
  rw [archReg_constant (Nat.zero_le c) fun j _ _ => h.commitsRd_zero j]
  rfl

/-- **The register file** is two stages behind the execute stage. -/
theorem CoreRun.regfile_eq (h : CoreRun D st inp) (hr : r ≠ 0) (c : Nat) :
    (st c).regfile.regfile r t = archReg st inp t r (c - 1) := by
  induction c with
  | zero => rw [Nat.zero_sub, archReg, RegFile.read, if_neg hr]
  | succ c ih =>
    rw [h.next]
    show (if (st c).memRdWrite && r = (st c).memReg.rdAddr && t = (st c).memReg.tid then
      (st c).memRdData (inp c).busDataOut else (st c).regfile.regfile r t) = _
    rw [ih, Nat.add_sub_cancel]
    cases c with
    | zero =>
      have hmem : (st 0).memRdWrite = false := by
        simp [CoreState.memRdWrite, h.reset.memValid]
      rw [hmem, Bool.false_and, Bool.false_and, if_neg Bool.false_ne_true]
    | succ c =>
      rw [Nat.add_sub_cancel, archReg, CoreState.commitsRd_eq_memRdWrite (i := inp c), ← h.next]
      simp only [eq_comm (a := r), eq_comm (a := t), Bool.and_right_comm]
      rfl

/-- What the register file has read for the instruction in decode. -/
theorem CoreRun.regfile_read (h : CoreRun D st inp) (c : Nat) (t : conf.Tid) (r : BitVec 5) :
    (st c).regfile.read r t = archReg st inp t r (c - 1) := by
  by_cases hr : r = 0
  · rw [hr, h.archReg_zero]
    rfl
  · rw [RegFile.read, if_neg hr, h.regfile_eq hr]

/-! ## Section 4: The operands -/

section stages

variable {c : Nat}

/-- The execute stage is looked at for the write it commits. -/
theorem CoreRun.checkExe_eq (h : CoreRun D st inp) (hflex : conf.flex = true)
    (hdec : (st (c + 1)).inDec t = true) (hflush : (st (c + 1)).flushes t = false) :
    ((st (c + 1)).decReg.tid = (st (c + 1)).exeReg.tid && (st (c + 1)).exeReg.rdWrite &&
      r = (st (c + 1)).exeReg.rdAddr) = (st (c + 1)).commitsRd t r := by
  obtain ⟨-, htid⟩ := CoreState.inDec_iff.mp hdec
  rw [Bool.eq_iff_iff, CoreState.commitsRd_iff, htid]
  simp only [Bool.and_eq_true, decide_eq_true_eq]
  constructor
  · intro ⟨⟨hexe, hwrite⟩, haddr⟩
    have hin : (st (c + 1)).inExe t = true := by
      rw [h.next] at hdec hwrite hexe ⊢
      exact (CoreState.exe_of_inDec (bypassing_of_flex hflex) hdec hexe.symm hwrite).1
    exact ⟨CoreState.exeValid_of_not_flushes hflex hin hflush, hwrite, hexe.symm, haddr.symm⟩
  · intro ⟨_, hwrite, hexe, haddr⟩
    exact ⟨⟨hexe.symm, hwrite⟩, haddr.symm⟩

/-- The memory stage is looked at for the write committed a cycle before. -/
theorem CoreRun.checkMem_eq (h : CoreRun D st inp) (hflex : conf.flex = true)
    (hdec : (st (c + 1)).inDec t = true) :
    ((st (c + 1)).decReg.tid = (st (c + 1)).memReg.tid && (st (c + 1)).memReg.rdWrite &&
      r = (st (c + 1)).memReg.rdAddr) = (st c).commitsRd t r := by
  obtain ⟨-, htid⟩ := CoreState.inDec_iff.mp hdec
  rw [Bool.eq_iff_iff, CoreState.commitsRd_iff, htid]
  rw [h.next, CoreState.next_inDec, Bool.and_eq_true, Bool.not_eq_true'] at hdec
  rw [h.next]
  show (decide (t = (st c).exeReg.tid) && ((st c).exeReg.rdWrite && (st c).exeReg.valid) &&
    decide (r = (st c).exeReg.rdAddr)) = true ↔ _
  simp only [Bool.and_eq_true, decide_eq_true_eq]
  constructor
  · intro ⟨⟨hexe, hwrite, hvalid⟩, haddr⟩
    have hin : (st c).inExe t = true := CoreState.inExe_iff.mpr ⟨hvalid, hexe.symm⟩
    exact ⟨CoreState.exeValid_of_not_flushes hflex hin hdec.2, hwrite, hexe.symm, haddr.symm⟩
  · intro ⟨hvalid, hwrite, hexe, haddr⟩
    exact ⟨⟨hexe.symm, hwrite, CoreState.exeReg_valid_of_valid hvalid⟩, haddr.symm⟩

/-- The writeback stage is looked at for the write committed two cycles
    before. -/
theorem CoreRun.checkWb_eq (h : CoreRun D st inp) (htid : (st (c + 2)).decReg.tid = t) :
    ((st (c + 2)).decReg.tid = (st (c + 2)).wbReg.tid && (st (c + 2)).wbReg.rdWrite &&
      r = (st (c + 2)).wbReg.rdAddr) = (st c).commitsRd t r := by
  rw [htid, h.next (c + 1), CoreState.commitsRd_eq_memRdWrite (D := D) (i := inp c), ← h.next c]
  show (decide (t = (st (c + 1)).memReg.tid) && (st (c + 1)).memRdWrite &&
    decide (r = (st (c + 1)).memReg.rdAddr)) = _
  simp only [eq_comm (a := t), eq_comm (a := r), Bool.and_comm (CoreState.memRdWrite _)]

/-- **Forwarding**: the value that the instruction of `t` in decode gets for a
    source register is that of the register after the instruction in execute. -/
theorem CoreRun.decRsData_eq (h : CoreRun D st inp) (hflex : conf.flex = true)
    (hdec : (st (c + 2)).inDec t = true) (hflush : (st (c + 2)).flushes t = false)
    {regfileData : BitVec 32} (hread : regfileData = archReg st inp t r c) :
    (st (c + 2)).decRsData (inp (c + 2)).busDataOut r regfileData =
      archReg st inp t r (c + 3) := by
  obtain ⟨-, htid⟩ := CoreState.inDec_iff.mp hdec
  simp only [CoreState.decRsData, bypassing_of_flex hflex, if_true]
  rw [h.checkExe_eq hflex hdec hflush, h.checkMem_eq hflex hdec, h.checkWb_eq htid, hread]
  have hwb : (st (c + 2)).wbReg.rdData = rdWritten st inp c := by
    rw [h.next (c + 1)]
    rfl
  rw [hwb]
  simp only [archReg]
  -- the stages differ from the registers only in what the execute stage gives
  cases hcommits : (st (c + 2)).commitsRd t r with
  | false =>
    rw [if_neg Bool.false_ne_true, if_neg Bool.false_ne_true]
    rfl
  | true =>
    rw [if_pos rfl, if_pos rfl]
    obtain ⟨hvalid, hwrite, hexe, -⟩ := CoreState.commitsRd_iff.mp hcommits
    have hnot : (st (c + 2)).exeReg.sig.load = false ∧
        ¬ (conf.mul = true ∧ (st (c + 2)).exeReg.sig.memRdDataSel = memRdMUL) := by
      rw [h.next (c + 1)] at hdec hwrite hexe ⊢
      exact (CoreState.exe_of_inDec (bypassing_of_flex hflex) hdec hexe hwrite).2
    rw [rdWritten, h.next (c + 2)]
    exact (CoreState.exeRdData_eq_memRdData (h.exeDecoded (c + 2))
      (CoreState.exeReg_valid_of_valid hvalid) hwrite hnot.1 hnot.2 _).symm

/-- What is valid in execute has been fetched two cycles before decode. -/
theorem CoreRun.inDec_of_inExe (h : CoreRun D st inp) {c' : Nat}
    (hexe : (st c').inExe t = true) :
    ∃ c, c' = c + 3 ∧ (st (c + 2)).inDec t = true ∧ (st (c + 2)).flushes t = false := by
  match c' with
  | 0 =>
    rw [CoreState.inExe, h.reset.exeValid] at hexe
    exact Bool.noConfusion hexe
  | 1 =>
    rw [h.next, CoreState.next_inExe, CoreState.inDec, h.reset.decValid] at hexe
    exact Bool.noConfusion hexe
  | 2 =>
    rw [h.next, CoreState.next_inExe, Bool.and_eq_true, h.next, CoreState.next_inDec,
      Bool.and_eq_true] at hexe
    have hfetch := CoreState.inFetch_of_fetches D hexe.1.1
    rw [CoreState.inFetch, h.reset.ifValid] at hfetch
    exact Bool.noConfusion hfetch
  | c + 3 =>
    rw [h.next, CoreState.next_inExe, Bool.and_eq_true, Bool.not_eq_true'] at hexe
    exact ⟨c, rfl, hexe.1, hexe.2⟩

end stages

/-- A value of register `r` that an instruction of `t` in execute in cycle `c`
    may use: zero for register 0, otherwise what the last instruction of `t`
    before it has written there, or what was there from the start. -/
structure LatestValue (st : Nat → CoreState conf) (inp : Nat → CoreIn conf) (t : conf.Tid)
    (c : Nat) (r : BitVec 5) (v : BitVec 32) : Prop where
  zero : r = 0 → v = 0
  written : ∀ w, LastWrite st t r w c → v = rdWritten st inp w
  initial : r ≠ 0 → (∀ w, w < c → (st w).commitsRd t r = false) →
    v = (st 0).regfile.regfile r t

/-- **Correct operands** of the instruction of `t` in execute in cycle `c`. -/
structure OperandsLatest (st : Nat → CoreState conf) (inp : Nat → CoreIn conf) (t : conf.Tid)
    (c : Nat) : Prop where
  rs1 : LatestValue st inp t c ((st c).exeReg.inst.extractLsb' 15 5) (st c).exeReg.rs1Data
  rs2 : LatestValue st inp t c ((st c).exeReg.inst.extractLsb' 20 5) (st c).exeReg.rs2Data
  op1 : (st c).exeReg.sig.op1Sel = op1RS1 → (st c).exeReg.op1 = (st c).exeReg.rs1Data
  op2 : (st c).exeReg.sig.op2Sel = op2RS2 → (st c).exeReg.op2 = (st c).exeReg.rs2Data
  csr : (st c).exeReg.sig.op2Sel ≠ op2IMM → (st c).exeReg.csrData = (st c).exeReg.rs1Data

theorem CoreRun.latestValue (h : CoreRun D st inp) (c : Nat) :
    LatestValue st inp t c r (archReg st inp t r c) := by
  constructor
  · intro hr
    rw [hr, h.archReg_zero]
  · intro w hlast
    exact hlast.archReg_eq
  · intro hr hnone
    rw [archReg_constant (Nat.zero_le c) fun j _ hj => hnone j hj, archReg, RegFile.read,
      if_neg hr]

end runs

/-- **Operand forwarding is correct**: in every run of the flexible core, the
    operands of every instruction valid in execute are the latest values of its
    source registers. -/
theorem operands_latest (hflex : conf.flex = true) (D : DecodeLogic conf)
    (st : Nat → CoreState conf) (inp : Nat → CoreIn conf) (h : CoreRun D st inp) (t : conf.Tid)
    (c : Nat) (hexe : (st c).inExe t = true) : OperandsLatest st inp t c := by
  obtain ⟨c, rfl, hdec, hflush⟩ := h.inDec_of_inExe hexe
  obtain ⟨-, htid⟩ := CoreState.inDec_iff.mp hdec
  -- the register file has read while the instruction was fetched
  have hread : ∀ r, (st (c + 1)).regfile.read r (st (c + 1)).ifReg.tid = archReg st inp t r c := by
    intro r
    have hif : (st (c + 1)).ifReg.tid = t := by
      rw [h.next (c + 1)] at htid
      exact htid
    rw [hif, h.regfile_read]
    rfl
  have hrs1 : (st (c + 3)).exeReg.rs1Data =
      archReg st inp t ((st (c + 3)).exeReg.inst.extractLsb' 15 5) (c + 3) := by
    rw [h.next (c + 2)]
    refine h.decRsData_eq hflex hdec hflush ?_
    rw [h.next (c + 1)]
    exact hread _
  have hrs2 : (st (c + 3)).exeReg.rs2Data =
      archReg st inp t ((st (c + 3)).exeReg.inst.extractLsb' 20 5) (c + 3) := by
    rw [h.next (c + 2)]
    refine h.decRsData_eq hflex hdec hflush ?_
    rw [h.next (c + 1)]
    exact hread _
  constructor
  case rs1 =>
    rw [hrs1]
    exact h.latestValue (c + 3)
  case rs2 =>
    rw [hrs2]
    exact h.latestValue (c + 3)
  case op1 =>
    rw [h.next (c + 2)]
    intro hsel
    exact if_pos hsel
  case op2 =>
    rw [h.next (c + 2)]
    intro hsel
    exact if_pos hsel
  case csr =>
    rw [h.next (c + 2)]
    intro hsel
    exact if_neg hsel

/-- `addi x1, x0, 7`, `jal x2, 4`, `lb x3, 0(x0)` and then `sub x4, x3, x1`
    and `add x5, x2, x4`. -/
def forwardChain (a : Nat) : BitVec 32 :=
  if a = 0 then 0x00700093 else if a = 1 then 0x0040016f else if a = 2 then 0x00000183
  else if a = 3 then 0x40118233 else if a = 4 then 0x004102b3 else 0x13

/-- Thread 0 alone: the `sub` is in execute in cycle 10. -/
theorem forwardChain_latest :
    OperandsLatest (Machine.trace (CoreState.next (DecodeLogic.zeros conf4tf))
      (coreZero conf4tf forwardChain) fun _ => issue conf4tf 0) (fun _ => issue conf4tf 0)
      (0 : Fin 4) 10 :=
  operands_latest rfl _ _ _ (coreRun_trace _ (coreZero_reset conf4tf forwardChain) _) _ _
    (by decide +kernel)

end Flexpret.Core
