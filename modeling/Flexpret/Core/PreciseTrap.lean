import Flexpret.Core.System
import Flexpret.Core.TrapEntry

/-! # Precise Traps

    A trap lets the instruction in execute and the younger ones of its thread
    commit nothing.  Its only effect on the other threads is that it clears
    their interrupt enables.
-/

open Transition

namespace Flexpret.Core

variable {conf : FlexpretConfiguration}

/-! ## Section 1: Every run -/

namespace CoreState

/-- The cycle as it would be without the trap: the instruction in execute is
    killed just so, but no trap is entered. -/
def nextWithoutTrap (s : CoreState conf) (D : DecodeLogic conf) (i : CoreIn conf) :
    CoreState conf :=
  { s.next D i with
    csr := s.csr.next { s.csrIn i with exception := false }
    memReg := { s.nextMemReg with exception := false } }

end CoreState

section runs

variable {D : DecodeLogic conf} {sys : Nat → SystemState conf} {pins : Nat → Pins conf}
  {t : conf.Tid} {c : Nat}

/-- The core after cycle `c` as it would be without the trap of that cycle. -/
def withoutTrap (D : DecodeLogic conf) (sys : Nat → SystemState conf)
    (pins : Nat → Pins conf) (c : Nat) : Nat → CoreState conf :=
  Machine.trace (CoreState.next D)
    ((sys c).core.nextWithoutTrap D ((sys c).coreIn (pins c)))
    fun k => (sys (c + 1 + k)).coreIn (pins (c + 1 + k))

/-- **A precise trap** of `t` in cycle `c`, as far as `t` goes: its instruction
    in execute and those in decode and fetch commit nothing, a register write
    of the memory stage is made, and `epc` is the PC of the instruction. -/
structure TrapStops (D : DecodeLogic conf) (sys : Nat → SystemState conf)
    (pins : Nat → Pins conf) (t : conf.Tid) (c : Nat) : Prop where
  own : (sys c).core.CommitsNothing D ((sys c).coreIn (pins c))
  /-- The instruction now in decode is then in execute. -/
  dec : (sys c).core.decReg.tid = t →
    (sys (c + 1)).core.CommitsNothing D ((sys (c + 1)).coreIn (pins (c + 1)))
  fetch : (sys c).core.ifReg.tid = t →
    (sys (c + 2)).core.CommitsNothing D ((sys (c + 2)).coreIn (pins (c + 2)))
  older : (sys c).core.memRdWrite = true →
    (sys (c + 1)).core.regfile.regfile (sys c).core.memReg.rdAddr (sys c).core.memReg.tid =
      (sys c).core.memRdData (pins c).busDataOut
  epc : (sys (c + 1)).core.csr.regEpcs t = (sys c).core.exeReg.pc

/-- The instructions in decode (`k = 0`) and in fetch (`k = 1`) commit, when
    they are in execute, as they would without the trap. -/
def OthersCommit (D : DecodeLogic conf) (sys : Nat → SystemState conf)
    (pins : Nat → Pins conf) (c : Nat) : Prop :=
  ∀ k, k < 2 →
    (sys (c + 1 + k)).core.commit D ((sys (c + 1 + k)).coreIn (pins (c + 1 + k)))
        (pins (c + 2 + k)).busDataOut =
      (withoutTrap D sys pins c k).commit D ((sys (c + 1 + k)).coreIn (pins (c + 1 + k)))
        (pins (c + 2 + k)).busDataOut

/-- **The condition**: no instruction that is in decode or fetch while a trap is
    taken depends on an interrupt enable that the trap clears. -/
def EnablesUnused (sys : Nat → SystemState conf) (c : Nat) : Prop :=
  ∀ k, k < 2 → (sys (c + 1 + k)).core.IgnoresIe (sys c).core.csr.regIe

/-- A trap kills what its thread has in decode and fetch. -/
theorem SystemRun.younger_killed (h : SystemRun D sys pins)
    (htrap : (sys c).core.traps t = true) :
    ((sys c).core.decReg.tid = t → (sys (c + 1)).core.exeReg.valid = false) ∧
      ((sys c).core.ifReg.tid = t → (sys (c + 1)).core.decReg.valid = false) := by
  obtain ⟨hvalid, htid⟩ := CoreState.inExe_iff.mp (CoreState.inExe_of_traps htrap)
  have hexc : (sys c).core.exeException = true := (Bool.and_eq_true_iff.mp htrap).1
  cases hbypass : conf.bypassing with
  | true =>
    have hflush : (sys c).core.exeFlush = true := by
      simp [CoreState.exeFlush, hbypass, hexc]
    rw [h.next]
    constructor
    · intro hdec
      show ((sys c).core.decReg.valid && !((sys c).core.exeFlush &&
        (sys c).core.decReg.tid = (sys c).core.exeReg.tid)) = false
      simp [hflush, hdec, htid]
    · intro hif
      show ((sys c).core.ifPreValid D && !((sys c).core.exeFlush &&
        (sys c).core.ifReg.tid = (sys c).core.exeReg.tid)) = false
      simp [hflush, hif, htid]
  | false =>
    -- the round robin has no other instruction of the thread there
    obtain ⟨hdec, hif⟩ := h.stages_apart hbypass hvalid
    rw [htid] at hdec hif
    exact ⟨fun heq => absurd heq hdec, fun heq => absurd heq hif⟩

theorem SystemRun.trapStops (h : SystemRun D sys pins) (htrap : (sys c).core.traps t = true) :
    TrapStops D sys pins t c := by
  obtain ⟨hvalid, htid⟩ := CoreState.inExe_iff.mp (CoreState.inExe_of_traps htrap)
  have hexc : (sys c).core.exeException = true := (Bool.and_eq_true_iff.mp htrap).1
  obtain ⟨hdec, hif⟩ := h.younger_killed htrap
  constructor
  case own => exact CoreState.commitsNothing_of_trap (h.core.exeDecoded c) hexc
  case dec => exact fun heq => CoreState.commitsNothing_of_invalid (hdec heq)
  case fetch =>
    intro heq
    refine CoreState.commitsNothing_of_invalid ?_
    rw [h.next]
    show ((sys (c + 1)).core.decReg.valid && _) = false
    rw [hif heq, Bool.false_and]
  case older =>
    intro hwrite
    rw [h.next]
    show (if (sys c).core.memRdWrite && (sys c).core.memReg.rdAddr = (sys c).core.memReg.rdAddr &&
      (sys c).core.memReg.tid = (sys c).core.memReg.tid then
      (sys c).core.memRdData (pins c).busDataOut else _) = _
    simp [hwrite]
  case epc =>
    rw [h.next]
    show assign (conf.exceptions && (sys c).core.exeException) (sys c).core.exeReg.tid
      (sys c).core.exeReg.pc _ t = _
    rw [assign_apply, hexc, CoreState.exceptions_of_exception hexc, htid]
    simp

/-- The trap itself makes no other difference. -/
theorem SystemRun.butTrap (h : SystemRun D sys pins) (htrap : (sys c).core.traps t = true) :
    CoreState.ButTrap t (sys c).core.csr.regIe (sys (c + 1)).core (withoutTrap D sys pins c 0) := by
  obtain ⟨hvalid, htid⟩ := CoreState.inExe_iff.mp (CoreState.inExe_of_traps htrap)
  have hexc : (sys c).core.exeException = true := (Bool.and_eq_true_iff.mp htrap).1
  obtain ⟨hdec, hif⟩ := h.younger_killed htrap
  have hstatus := (CoreState.commitSuppressed (i := (sys c).coreIn (pins c))
    (h.core.exeDecoded c) hexc).csr CSRs.status
  constructor
  case eq =>
    rw [h.next]
    rfl
  case csr =>
    rw [h.next]
    constructor
    case eq => rfl
    case epcs =>
      intro u hu
      show assign (conf.exceptions && false) (sys c).core.exeReg.tid _ _ u =
        assign (conf.exceptions && (sys c).core.exeException) (sys c).core.exeReg.tid _ _ u
      rw [htid, assign_ne hu, assign_ne hu]
      rfl
    case causes =>
      intro u hu
      show assign (conf.exceptions && false) (sys c).core.exeReg.tid _ _ u =
        assign (conf.exceptions && (sys c).core.exeException) (sys c).core.exeReg.tid _ _ u
      rw [htid, assign_ne hu, assign_ne hu]
    case ie =>
      intro u hen
      -- the trap clears all enables, and without it none is written
      have hset : (sys c).core.csr.nextIe ((sys c).core.csrIn ((sys c).coreIn (pins c))) u =
          false := by
        have hin : ((sys c).core.csrIn ((sys c).coreIn (pins c))).exception = true := hexc
        simp only [CsrState.nextIe]
        rw [if_pos hin]
      have hkept : (sys c).core.csr.nextIe
          { (sys c).core.csrIn ((sys c).coreIn (pins c)) with exception := false } u =
          (sys c).core.csr.regIe u := by
        simp only [CsrState.nextIe, Bool.false_eq_true, if_false]
        show assign (conf.exceptions && (((sys c).core.csrIn ((sys c).coreIn (pins c))).writes
          CSRs.status)) _ _ _ u = _
        rw [hstatus, Bool.and_false]
        rfl
      show (sys c).core.csr.nextIe
          { (sys c).core.csrIn ((sys c).coreIn (pins c)) with exception := false } u =
        (sys c).core.csr.nextIe ((sys c).core.csrIn ((sys c).coreIn (pins c))) u
      rw [hset, hkept, hen]
  case dec =>
    intro hv heq
    have hif' : (sys c).core.ifReg.tid = t := by
      rw [h.next] at heq
      exact heq
    rw [hif hif'] at hv
    exact Bool.noConfusion hv
  case exe =>
    intro hv heq
    have hdec' : (sys c).core.decReg.tid = t := by
      rw [h.next] at heq
      exact heq
    rw [hdec hdec'] at hv
    exact Bool.noConfusion hv

theorem SystemRun.othersCommit (h : SystemRun D sys pins) (htrap : (sys c).core.traps t = true)
    (hunused : EnablesUnused sys c) : OthersCommit D sys pins c := by
  have hbut := h.butTrap htrap
  have hdecoded := h.core.exeDecoded
  have hign : (sys (c + 1)).core.IgnoresIe (sys c).core.csr.regIe := hunused 0 (by omega)
  have hready : (sys (c + 1)).core.decReg.valid = true → conf.bypassing = true →
      (sys (c + 1)).core.decReg.tid = (sys (c + 1)).core.exeReg.tid →
      (sys (c + 1)).core.exeReg.rdWrite = true →
      (sys (c + 1)).core.exeReg.valid = true ∧ (sys (c + 1)).core.exeReg.sig.load = false ∧
        ¬ (conf.mul = true ∧ (sys (c + 1)).core.exeReg.sig.memRdDataSel = memRdMUL) := by
    intro hvalid hbypass htid hwrite
    have hin : (sys (c + 1)).core.inDec (sys (c + 1)).core.exeReg.tid = true :=
      CoreState.inDec_iff.mpr ⟨hvalid, htid⟩
    have hexe : (sys (c + 1)).core.exeReg.tid = (sys c).core.decReg.tid := by
      rw [h.next]
      rfl
    rw [hexe] at hin
    rw [h.next] at hin hwrite ⊢
    have hinExe := CoreState.exe_of_inDec hbypass hin rfl hwrite
    exact ⟨(CoreState.inExe_iff.mp hinExe.1).1, hinExe.2⟩
  intro k hk
  obtain rfl | rfl : k = 0 ∨ k = 1 := by omega
  · exact (hbut.sameExecute.commit_eq hign (hdecoded (c + 1)) _).symm
  · have hsame : CoreState.SameExecute t (sys c).core.csr.regIe (sys (c + 2)).core
        (withoutTrap D sys pins c 1) := by
      rw [h.next (c + 1)]
      exact hbut.next hign (hdecoded (c + 1)) hready
    exact (hsame.commit_eq (hunused 1 (by omega)) (hdecoded (c + 2)) _).symm

end runs

/-- **Traps are precise**: in every run, a trap stops the instruction and the
    younger ones of its thread, and while no other instruction depends on the
    interrupt enables it clears, those commit as they would without it. -/
theorem traps_precise (D : DecodeLogic conf) (sys : Nat → SystemState conf)
    (pins : Nat → Pins conf) (h : SystemRun D sys pins) (t : conf.Tid) (c : Nat)
    (htrap : (sys c).core.traps t = true) :
    TrapStops D sys pins t c ∧ (EnablesUnused sys c → OthersCommit D sys pins c) :=
  ⟨h.trapStops htrap, h.othersCommit htrap⟩

/-! ## Section 2: A trap beside an instruction of another thread -/

/-- The configuration `2t-16i-16d-all`. -/
def conf2tAll : FlexpretConfiguration where
  threads := 2
  flex := false
  iMemKB := 16
  dMemKB := 16
  mul := false
  features := .all
  threads_pos := by decide
  threads_le := by decide

/-- Both threads are made active and enable their interrupts; then comes a word
    twice, and a system call. -/
def callAfter (word : BitVec 32) (a : Nat) : BitVec 32 :=
  if a = 0 then 0x50405073 else if a = 1 then 0x50a86073 else if a = 2 ∨ a = 3 then word
  else if a = 4 then 0x00000073 else 0x13

def callAfterRun (word : BitVec 32) : Nat → SystemState conf2tAll :=
  Machine.trace (fun s p => SystemState.next s (DecodeLogic.zeros conf2tAll) p)
    (systemZero conf2tAll (callAfter word)) fun _ => noPins conf2tAll

/-- Thread 0 makes the call in cycle 12, and thread 1 executes no-ops. -/
theorem callAfter_nops_precise :
    TrapStops (DecodeLogic.zeros conf2tAll) (callAfterRun 0x13) (fun _ => noPins conf2tAll)
        (0 : Fin 2) 12 ∧
      OthersCommit (DecodeLogic.zeros conf2tAll) (callAfterRun 0x13)
        (fun _ => noPins conf2tAll) 12 := by
  have hprecise := traps_precise (DecodeLogic.zeros conf2tAll) (callAfterRun 0x13)
    (fun _ => noPins conf2tAll) (systemRun_trace _ _ _) (0 : Fin 2) 12 (by decide +kernel)
  refine ⟨hprecise.1, hprecise.2 fun k hk => ?_⟩
  obtain rfl | rfl : k = 0 ∨ k = 1 := by omega
  · intro _ _
    decide +kernel
  · intro _ _
    decide +kernel

/-- Thread 1 reads the status in the next cycle: it finds its interrupts
    disabled. -/
theorem callAfter_status_differs :
    SystemRun (DecodeLogic.zeros conf2tAll) (callAfterRun 0x50a022f3)
        (fun _ => noPins conf2tAll) ∧
      (callAfterRun 0x50a022f3 12).core.traps (0 : Fin 2) = true ∧
      (callAfterRun 0x50a022f3 13).core.inExe (1 : Fin 2) = true ∧
      (callAfterRun 0x50a022f3 13).core.intPending = false ∧
      ¬ OthersCommit (DecodeLogic.zeros conf2tAll) (callAfterRun 0x50a022f3)
        (fun _ => noPins conf2tAll) 12 := by
  refine ⟨systemRun_trace _ _ _, by decide +kernel, by decide +kernel, by decide +kernel, ?_⟩
  intro hothers
  have hrd := congrArg Commit.rd (hothers 0 (by decide))
  revert hrd
  decide +kernel

end Flexpret.Core
