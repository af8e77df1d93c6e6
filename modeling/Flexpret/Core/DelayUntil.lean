import Flexpret.Core.InstructionStream
import Flexpret.Core.ModeUpdate
import Flexpret.Core.System
import Flexpret.Core.TimerDelivery

/-! # Delay Until

    A DU or WU whose time has not come puts its thread to sleep and redirects to
    itself.  The stall count hides the two fetches of the thread that are still
    in flight.  A FENCE.I in decode sets the stall count of the thread in
    execute, and then one of the two comes through: the thread executes once
    more while it sleeps, what it finds at the address of its DU or WU.
-/

open Transition

namespace Flexpret.Core

variable {conf : FlexpretConfiguration}

/-! ## Section 1: The instruction -/

theorem delayUntil_of_decodeRow (inst : BitVec 32) :
    (decodeRow conf inst).du = true → conf.delayUntil = true := by
  refine decodeRow_cases (P := fun row => row.du = true → conf.delayUntil = true) ?_ ?_ inst
  · intro h
    exact absurd h Bool.false_ne_true
  · intro k
    cases k <;> simp only [Instr.row, mulRow]
    -- the rows that depend on the configuration
    case mul | mulh | mulhsu | mulhu | sret | du | wu | ie =>
      split
      · simp [*]
      · simp [defaultRow]
    all_goals simp [branchRow, loadRow, storeRow, aluImmRow, aluRegRow, csrRegRow, csrImmRow]

namespace CoreState

variable (s : CoreState conf) (t : conf.Tid)

/-- `t` commits a DU or WU. -/
def commitsDu : Bool := s.exeValid && s.exeReg.sig.du && s.exeReg.tid = t

/-- A FENCE.I is valid in decode. -/
def fenceIInDec (D : DecodeLogic conf) : Bool := s.decReg.valid && (s.dec D).fenceI

/-- The instructions of `t` in decode and execute are DUs or WUs. -/
structure DuOnly (D : DecodeLogic conf) : Prop where
  exe : s.inExe t = true → s.exeReg.sig.du = true
  dec : s.inDec t = true → (s.dec D).du = true

variable {s t} {D : DecodeLogic conf} {i : CoreIn conf}

theorem inExe_of_commitsDu (h : s.commitsDu t = true) : s.inExe t = true := by
  simp only [commitsDu, Bool.and_eq_true, decide_eq_true_eq] at h
  exact inExe_iff.mpr ⟨exeReg_valid_of_valid h.1.1, h.2⟩

theorem du_of_commitsDu (h : s.commitsDu t = true) : s.exeReg.sig.du = true := by
  simp only [commitsDu, Bool.and_eq_true] at h
  exact h.1.2

theorem ExeDecoded.delayUntil_of_du (h : ExeDecoded D s) (hvalid : s.exeReg.valid = true)
    (hdu : s.exeReg.sig.du = true) : conf.delayUntil = true :=
  delayUntil_of_decodeRow s.exeReg.inst
    ((congrArg Flags.du (h.flags hvalid)).symm.trans hdu)

/-- A DU or WU whose time has not come redirects to itself. -/
theorem exeDu_of_du (h : ExeDecoded D s) (hexe : s.inExe t = true)
    (hdu : s.exeReg.sig.du = true) (hearly : s.timeReached t = false) : s.exeDu = true := by
  obtain ⟨hvalid, htid⟩ := inExe_iff.mp hexe
  have hconf := h.delayUntil_of_du hvalid hdu
  have hexp : s.csr.expired t t = false := (expired_self hconf).trans hearly
  rw [exeDu, hconf, hvalid, hdu, htid, hexp]
  rfl

theorem redirects_of_du (h : ExeDecoded D s) (hexe : s.inExe t = true)
    (hdu : s.exeReg.sig.du = true) (hearly : s.timeReached t = false) : s.redirects t = true := by
  rw [redirects, exeDu_of_du h hexe hdu hearly, (inExe_iff.mp hexe).2]
  simp

/-- A DU or WU that commits before its time puts its thread to sleep. -/
theorem exeSleep_of_commitsDu (h : ExeDecoded D s) (hdu : s.commitsDu t = true)
    (hearly : s.timeReached t = false) : s.exeSleep = true := by
  have hsleeps := exeDu_of_du h (inExe_of_commitsDu hdu) (du_of_commitsDu hdu) hearly
  simp only [commitsDu, Bool.and_eq_true] at hdu
  rw [exeSleep, hsleeps, hdu.1.1]
  rfl

/-- A DU or WU does nothing else. -/
theorem ExeDecoded.du_only (h : ExeDecoded D s) (hvalid : s.exeReg.valid = true)
    (hdu : s.exeReg.sig.du = true) :
    s.exeReg.sig.csr = false ∧ s.exeReg.sig.jump = false ∧ s.exeReg.sig.branch = false ∧
      s.exeReg.sig.ie = false := by
  have hflags := (h.exclusive hvalid).du hdu
  exact ⟨congrArg Flags.csr hflags, congrArg Flags.jump hflags, congrArg Flags.branch hflags,
    congrArg Flags.ie hflags⟩

/-! ## Section 2: What a cycle does to a sleeping thread -/

/-- The compare value of `t` stays unless an instruction of `t` writes it. -/
theorem next_regCompare_of_duOnly (hdecoded : ExeDecoded D s)
    (hdu : s.inExe t = true → s.exeReg.sig.du = true) :
    (s.next D i).csr.regCompare t = s.csr.regCompare t := by
  have hwrites : ((conf.delayUntil || conf.interruptExpire) &&
      (s.csrIn i).writes CSRs.compare && decide (s.exeReg.tid = t)) = false := by
    cases hexe : s.inExe t with
    | false => exact not_here hexe fun h => valid_of_writesCsr (Bool.and_eq_true_iff.mp h).2
    | true =>
      have hcsr := (hdecoded.du_only (inExe_iff.mp hexe).1 (hdu hexe)).1
      simp [csrIn_writes, writesCsr, hcsr]
  show assign ((conf.delayUntil || conf.interruptExpire) && (s.csrIn i).writes CSRs.compare)
    s.exeReg.tid _ s.csr.regCompare t = _
  rw [assign_apply, hwrites, if_neg Bool.false_ne_true]

theorem delayOver_of_reached (hflex : conf.flex = true) (hconf : conf.delayUntil = true)
    (htimer : s.csr.regTimer t = .duWu) :
    s.csr.delayOver (s.csrIn i) t = s.timeReached t := by
  simp [CsrState.delayOver, CsrState.expired, hconf, htimer, roundRobin_of_flex hflex,
    timeReached]

theorem delayOver_of_early (hearly : s.timeReached t = false) :
    s.csr.delayOver (s.csrIn i) t = false := by
  have hreached : reached s.csr.time32 (s.csr.regCompare t) = false := hearly
  simp [CsrState.delayOver, CsrState.expired, hreached]

/-- **Wake up**: when the delay is over the thread is active. -/
theorem active_of_delayOver (h : s.csr.delayOver (s.csrIn i) t = true) :
    (s.next D i).active t = true := by
  have hmode : (s.next D i).csr.regTmodes t = s.csr.regTmodes t &&& tmodeAndA := by
    show (if s.csr.wake (s.csrIn i) t then _ else _) = _
    rw [CsrState.wake, h, Bool.true_or, if_pos rfl]
  rw [active, hmode]
  simpa using wake_active (s.csr.regTmodes t)

/-- **The timer** of `t` is used for the delay after a cycle in which `t`
    executes nothing but DUs and WUs and its time has not come, when it was so
    before or `t` goes to sleep. -/
theorem next_regTimer_duWu (hconf : conf.delayUntil = true) (hearly : s.timeReached t = false)
    (hidle : s.inExe t = true → s.exeIe = false ∧ s.exeEe = false ∧
      s.writesCsr CSRs.compare = false)
    (hduWu : s.csr.regTimer t = .duWu ∨ s.inExe t = true ∧ s.exeSleep = true) :
    (s.next D i).csr.regTimer t = .duWu := by
  cases hexe : s.inExe t with
  | false =>
    rw [next_regTimer_of_not_inExe hexe, delayOver_of_early hearly, if_neg Bool.false_ne_true]
    rcases hduWu with htimer | ⟨hin, -⟩
    · exact htimer
    · rw [hexe] at hin
      exact Bool.noConfusion hin
  | true =>
    obtain ⟨hie, hee, hwrites⟩ := hidle hexe
    have hexpires : ∀ m, s.expires t m = false := by
      intro m
      simp [expires, hearly]
    rw [next_regTimer_of_inExe hconf hexe, hexpires, hexpires, hie, hee,
      delayOver_of_early hearly, hwrites]
    simp only [Bool.false_eq_true, if_false]
    rcases hduWu with htimer | ⟨-, hsleep⟩
    · rw [htimer, ite_self]
    · rw [hsleep, if_pos rfl]

/-- What is fetched for `t` is a DU or WU, so it is one in decode, and then in
    execute. -/
theorem duOnly_next (h : s.DuOnly t D)
    (hfetch : s.fetches t D = true → (D.decode s.ifInst).du = true) :
    (s.next D i).DuOnly t D := by
  constructor
  case exe =>
    intro hexe
    rw [next_inExe, Bool.and_eq_true] at hexe
    exact h.dec hexe.1
  case dec =>
    intro hdec
    rw [next_inDec, Bool.and_eq_true] at hdec
    exact hfetch hdec.1

/-- What goes to sleep leaves no instruction of its thread behind it. -/
theorem duOnly_of_flushes (hflush : s.flushes t = true) : (s.next D i).DuOnly t D := by
  constructor
  case exe =>
    intro hexe
    simp [next_inExe, hflush] at hexe
  case dec =>
    intro hdec
    simp [next_inDec, hflush] at hdec

/-- While a thread executes only DUs and WUs, and its time has not come, its PC
    stays. -/
theorem streamInv_du (hflex : conf.flex = true) (hdecoded : ExeDecoded D s)
    (hdu : s.inExe t = true → s.exeReg.sig.du = true) (hearly : s.timeReached t = false)
    (htrap : s.traps t = false) {pc : BitVec 32} (h : StreamInv t pc s) :
    StreamInv t pc (s.next D i) := by
  have hstep : s.archStep t pc = pc := by
    unfold archStep
    cases hexe : s.inExe t with
    | false => rw [if_neg Bool.false_ne_true]
    | true =>
      obtain ⟨hvalid, htid⟩ := inExe_iff.mp hexe
      obtain ⟨-, hjump, hbranch, -⟩ := hdecoded.du_only hvalid (hdu hexe)
      have hexc : s.exeException = false := by simpa [traps, htid] using htrap
      have hbrjmp : s.exeBrjmp = false := by simp [exeBrjmp, hjump, hbranch]
      have hdu' := exeDu_of_du hdecoded hexe (hdu hexe) hearly
      rw [if_pos rfl, archNext, hexc, hbrjmp, hdu', if_neg Bool.false_ne_true,
        if_neg Bool.false_ne_true, if_pos rfl, h.exe hexe]
  have hnext := streamInv_next (D := D) (i := i) hflex hdecoded h
  rw [hstep] at hnext
  exact hnext

/-! ## Section 3: The zombie bit -/

theorem active_eq (s : CoreState conf) (t : conf.Tid) :
    s.active t = !(s.csr.regTmodes t).getLsbD 0 := by
  unfold active
  generalize s.csr.regTmodes t = mode
  revert mode
  decide

/-- What a CSR instruction on the modes writes. -/
theorem csrWord_tmodes (h : s.writesCsr CSRs.tmodes = true) :
    s.csrWord =
      if s.exeReg.sig.csrType = csrS then toBits s.csr.regTmodes ||| s.exeReg.csrData
      else if s.exeReg.sig.csrType = csrC then toBits s.csr.regTmodes &&& ~~~s.exeReg.csrData
      else s.exeReg.csrData := by
  have haddr : s.exeReg.csrAddr = CSRs.tmodes := by
    simp only [writesCsr, Bool.and_eq_true, decide_eq_true_eq] at h
    exact h.2
  have hout : s.csr.dataOut s.exeReg.csrAddr s.exeReg.tid = toBits s.csr.regTmodes := by
    simp [CsrState.dataOut, haddr, CSRs.tmodes, CSRs.slots, CSRs.hartid]
  unfold csrWord
  rw [hout]

theorem toBits_tmodes_getLsbD (modes : conf.Tid → BitVec 2) (t : conf.Tid) :
    (toBits modes).getLsbD (2 * t.val) = (modes t).getLsbD 0 := by
  rw [← field_toBits (tmodes_fit conf) modes t]
  simp [field]

/-- **The zombie bit**: a wake-up comes before a sleep, and a sleep before a
    write. -/
theorem next_active :
    (s.next D i).active t =
      if s.csr.wake (s.csrIn i) t then true
      else if conf.delayUntil && s.exeSleep && decide (s.exeReg.tid = t) then false
      else if s.writesCsr CSRs.tmodes then !s.csrWord.getLsbD (2 * t.val)
      else s.active t := by
  have hnext : (s.next D i).csr.regTmodes t =
      if s.csr.wake (s.csrIn i) t then s.csr.regTmodes t &&& tmodeAndA
      else if conf.delayUntil && s.exeSleep && decide (s.exeReg.tid = t) then
        s.csr.regTmodes s.exeReg.tid ||| tmodeOrZ
      else if s.writesCsr CSRs.tmodes then field s.csrWord 2 t.val
      else s.csr.regTmodes t := by
    show s.csr.nextTmodes (s.csrIn i) t = _
    simp only [CsrState.nextTmodes, assign_apply, csrIn_writes, csrIn_dataIn]
    split
    · rfl
    · show (if conf.delayUntil && s.exeSleep && decide (s.exeReg.tid = t) then _ else _) = _
      split
      · rfl
      · show (if s.writesCsr CSRs.tmodes then fun u : conf.Tid => field s.csrWord 2 u.val
          else s.csr.regTmodes) t = _
        split
        · rfl
        · rfl
  have hand : ∀ mode : BitVec 2, (mode &&& tmodeAndA).getLsbD 0 = false := by decide
  have hor : ∀ mode : BitVec 2, (mode ||| tmodeOrZ).getLsbD 0 = true := by decide
  rw [active_eq, hnext]
  split
  · rw [hand]
    rfl
  · split
    · rw [hor]
      rfl
    · split
      · simp [field]
      · rw [active_eq]

/-- **Falling asleep**: when no thread writes the modes, only a DU or WU before
    its time makes an active thread inactive. -/
theorem commitsDu_of_falls_asleep (hwrites : s.writesCsr CSRs.tmodes = false)
    (hactive : s.active t = true) (hasleep : (s.next D i).active t = false) :
    s.commitsDu t = true ∧ s.timeReached t = false := by
  rw [next_active, hwrites, if_neg Bool.false_ne_true] at hasleep
  split at hasleep
  · exact Bool.noConfusion hasleep
  · split at hasleep
    · next hsleep =>
      simp only [exeSleep, exeDu, Bool.and_eq_true, Bool.not_eq_true',
        decide_eq_true_eq] at hsleep
      obtain ⟨⟨hconf, ⟨⟨⟨-, hvalid⟩, hdu⟩, hexp⟩, hcommits⟩, htid⟩ := hsleep
      rw [htid] at hexp
      refine ⟨?_, (expired_self hconf).symm.trans hexp⟩
      rw [commitsDu, hcommits, hdu, htid]
      simp
    · rw [hactive] at hasleep
      exact Bool.noConfusion hasleep

end CoreState

/-! ## Section 4: Waiting -/

section runs

variable {D : DecodeLogic conf} {sys : Nat → SystemState conf} {pins : Nat → Pins conf}
  {t : conf.Tid} {c k : Nat}

/-- Time has come to the compare value that `t` had in cycle `c`. -/
def ReachedSince (sys : Nat → SystemState conf) (t : conf.Tid) (c k : Nat) : Prop :=
  reached (sys k).core.csr.time32 ((sys c).core.csr.regCompare t) = true

/-- In cycle `k` thread `t` waits for the time of the DU or WU that it has
    committed in cycle `c`: it has not come, and `t` has taken no trap since. -/
structure Waits (sys : Nat → SystemState conf) (t : conf.Tid) (c k : Nat) : Prop where
  order : c < k
  commits : (sys c).core.commitsDu t = true
  early : ∀ j, c ≤ j → j ≤ k → ¬ ReachedSince sys t c j
  untrapped : ∀ j, c < j → j < k → (sys j).core.traps t = false

/-- `t` has been asleep since it committed a DU or WU, before its time, in
    cycle `c`. -/
structure AsleepSince (sys : Nat → SystemState conf) (t : conf.Tid) (c k : Nat) : Prop where
  order : c < k
  commits : (sys c).core.commitsDu t = true
  early : ¬ ReachedSince sys t c c
  asleep : ∀ j, c < j → j ≤ k → (sys j).core.active t = false

/-- **The condition** on a cycle `k` in which `t` waits: a fetch of `t` that
    comes through because a FENCE.I was in decode beside the DU or WU, or
    because `t` was active again, still finds a DU or WU. -/
def DuIntact (D : DecodeLogic conf) (sys : Nat → SystemState conf) (t : conf.Tid) (c k : Nat) :
    Prop :=
  (k = c + 2 ∧ (sys c).core.fenceIInDec D = true ∨
    c + 3 ≤ k ∧ (sys (k - 2)).core.active t = true) →
  (sys k).core.fetches t D = true → (D.decode (sys k).core.ifInst).du = true

/-- **Exact delay**: before its time a thread executes nothing but its DU or WU
    again. -/
def DelayExact (sys : Nat → SystemState conf) : Prop :=
  ∀ t c k, Waits sys t c k → (sys k).core.inExe t = true →
    (sys k).core.exeReg.sig.du = true ∧ (sys k).core.exeReg.pc = (sys c).core.exeReg.pc

/-- **No lost wake-up** of a thread asleep since cycle `c`. -/
structure WakeUpPending (sys : Nat → SystemState conf) (t : conf.Tid) (c k : Nat) : Prop where
  timer : (sys k).core.csr.regTimer t = .duWu
  compare : (sys k).core.csr.regCompare t = (sys c).core.csr.regCompare t
  /-- Its time has not come in an earlier cycle. -/
  first : ∀ j, c ≤ j → j < k → ¬ ReachedSince sys t c j
  /-- When it comes the thread is active in the next cycle. -/
  wakes : ReachedSince sys t c k → (sys (k + 1)).core.active t = true

/-- No thread writes the modes. -/
def ModesUnwritten (sys : Nat → SystemState conf) : Prop :=
  ∀ j, (sys j).core.writesCsr CSRs.tmodes = false

/-- Every thread that has been active and is not is asleep because of a DU or
    WU, and its wake-up is not lost. -/
def WakeUpKept (sys : Nat → SystemState conf) : Prop :=
  ∀ t a k, a ≤ k → (sys a).core.active t = true → (sys k).core.active t = false →
    ∃ c, AsleepSince sys t c k ∧ WakeUpPending sys t c k

/-- What holds after every cycle of a wait. -/
structure WaitInv (D : DecodeLogic conf) (sys : Nat → SystemState conf) (t : conf.Tid)
    (c k : Nat) : Prop where
  duOnly : (sys k).core.DuOnly t D
  compare : (sys k).core.csr.regCompare t = (sys c).core.csr.regCompare t

/-! ## Section 5: Which fetches come through -/

namespace SystemRun

variable (h : SystemRun D sys pins)

include h

/-- A thread that goes to sleep is flushed and stalled. -/
theorem stalled_of_commitsDu (hflex : conf.flex = true)
    (hdu : (sys c).core.commitsDu t = true) (hearly : ¬ ReachedSince sys t c c) :
    (sys c).core.flushes t = true ∧ (sys c).core.exeSleep = true ∧
      (sys (c + 1)).core.stallCount t =
        if (sys c).core.fenceIInDec D then 1 else 2 := by
  have hdecoded := h.core.exeDecoded c
  have hexe := CoreState.inExe_of_commitsDu hdu
  have hnot : (sys c).core.timeReached t = false := Bool.eq_false_iff.mpr hearly
  have hsleep := CoreState.exeSleep_of_commitsDu hdecoded hdu hnot
  have hred := CoreState.redirects_of_du hdecoded hexe (CoreState.du_of_commitsDu hdu) hnot
  obtain ⟨hvalid, htid⟩ := CoreState.inExe_iff.mp hexe
  have htrap : (sys c).core.traps t = false := by
    simp only [CoreState.commitsDu, CoreState.exeValid, Bool.and_eq_true,
      Bool.not_eq_true'] at hdu
    simp [CoreState.traps, hdu.1.1.2]
  refine ⟨?_, hsleep, ?_⟩
  · rw [CoreState.flushes_eq hflex, hred, Bool.or_true]
  · rw [h.next]
    show (sys c).core.nextStallCount D t = _
    rw [CoreState.nextStallCount_eq D hflex, htrap, hsleep, htid]
    simp [CoreState.fenceIInDec]

/-- **The fetches of a waiting thread** that come through: one that a FENCE.I in
    decode has uncovered, and those issued after the thread was active again. -/
theorem fetch_cases (hflex : conf.flex = true) (hdu : (sys c).core.commitsDu t = true)
    (hearly : ¬ ReachedSince sys t c c) (hlt : c < k)
    (hfetch : (sys k).core.fetches t D = true) :
    (k = c + 2 ∧ (sys c).core.fenceIInDec D = true) ∨
      (c + 3 ≤ k ∧ (sys (k - 2)).core.active t = true) := by
  obtain ⟨hflush, -, hstall⟩ := h.stalled_of_commitsDu hflex hdu hearly
  obtain ⟨d, rfl, hactive⟩ := h.issued_of_inFetch (CoreState.inFetch_of_fetches D hfetch)
  have hzero := CoreState.stallCount_of_fetches D hfetch
  rcases Nat.lt_trichotomy d c with hlt' | heq | hgt
  · -- issued before the DU or WU was in execute
    obtain rfl : c = d + 1 := by omega
    rw [hzero] at hstall
    split at hstall
    · exact absurd hstall (by decide)
    · exact absurd hstall (by decide)
  · -- issued in the same cycle
    subst heq
    refine .inl ⟨rfl, ?_⟩
    cases hfence : (sys d).core.fenceIInDec D with
    | true => rfl
    | false =>
      rw [hfence, if_neg Bool.false_ne_true] at hstall
      have htrap : (sys (d + 1)).core.traps t = false := by
        rw [Bool.eq_false_iff]
        intro htrap
        have hexe := CoreState.inExe_of_traps htrap
        simp [h.core_next, CoreState.next_inExe, hflush] at hexe
      have hstall' : (sys (d + 2)).core.stallCount t ≠ 0 := by
        rw [h.next (d + 1)]
        show (sys (d + 1)).core.nextStallCount D t ≠ 0
        rw [CoreState.nextStallCount_eq D hflex, htrap, hstall, if_neg Bool.false_ne_true]
        split
        · decide
        · split
          · decide
          · decide
      exact absurd hzero hstall'
  · exact .inr ⟨by omega, hactive⟩

/-! ## Section 6: The delay is exact -/

theorem waitInv_start (hflex : conf.flex = true) (hdu : (sys c).core.commitsDu t = true)
    (hearly : ¬ ReachedSince sys t c c) : WaitInv D sys t c (c + 1) := by
  have hflush := (h.stalled_of_commitsDu hflex hdu hearly).1
  constructor
  case duOnly =>
    rw [h.core_next]
    exact CoreState.duOnly_of_flushes hflush
  case compare =>
    rw [h.core_next]
    exact CoreState.next_regCompare_of_duOnly (h.core.exeDecoded c)
      fun _ => CoreState.du_of_commitsDu hdu

/-- **One cycle** of a wait. -/
theorem waitInv_next (hinv : WaitInv D sys t c k)
    (hfetch : (sys k).core.fetches t D = true → (D.decode (sys k).core.ifInst).du = true) :
    WaitInv D sys t c (k + 1) := by
  constructor
  case duOnly =>
    rw [h.core_next]
    exact CoreState.duOnly_next hinv.duOnly hfetch
  case compare =>
    rw [h.core_next, CoreState.next_regCompare_of_duOnly (h.core.exeDecoded k) hinv.duOnly.exe]
    exact hinv.compare

/-- **Every cycle** of a wait. -/
theorem waitInv (hflex : conf.flex = true)
    (hintact : ∀ k, Waits sys t c k → DuIntact D sys t c k) (hwait : Waits sys t c k) :
    WaitInv D sys t c k ∧ (sys k).core.StreamInv t (sys c).core.exeReg.pc := by
  obtain ⟨hlt, hdu, hearly, huntrapped⟩ := hwait
  have hfirst := hearly c (Nat.le_refl c) (Nat.le_of_lt hlt)
  induction k, hlt using Nat.le_induction with
  | base =>
    refine ⟨h.waitInv_start hflex hdu hfirst, ?_⟩
    have hexe := CoreState.inExe_of_commitsDu hdu
    obtain ⟨pc, hpc⟩ := CoreRun.streamInv D hflex h.core t c
    have htrap : (sys c).core.traps t = false := by
      simp only [CoreState.commitsDu, CoreState.exeValid, Bool.and_eq_true,
        Bool.not_eq_true'] at hdu
      simp [CoreState.traps, hdu.1.1.2]
    rw [h.core_next, hpc.exe hexe]
    exact CoreState.streamInv_du hflex (h.core.exeDecoded c)
      (fun _ => CoreState.du_of_commitsDu hdu) (Bool.eq_false_iff.mpr hfirst) htrap hpc
  | succ k hlt ih =>
    have hbefore := fun j hj hj' => hearly j hj (Nat.le_succ_of_le hj')
    have huntrapped' := fun j hj hj' => huntrapped j hj (Nat.lt_succ_of_lt hj')
    obtain ⟨hinv, hpc⟩ := ih hbefore huntrapped'
    have hnot : (sys k).core.timeReached t = false := by
      rw [CoreState.timeReached, hinv.compare]
      exact Bool.eq_false_iff.mpr (hearly k (by omega) (Nat.le_succ k))
    constructor
    · refine h.waitInv_next hinv fun hfetch => ?_
      exact hintact k ⟨hlt, hdu, hbefore, huntrapped'⟩
        (h.fetch_cases hflex hdu hfirst hlt hfetch) hfetch
    · rw [h.core_next]
      exact CoreState.streamInv_du hflex (h.core.exeDecoded k) hinv.duOnly.exe hnot
        (huntrapped k hlt (Nat.lt_succ_self k)) hpc

/-- **The delay is exact**. -/
theorem delayExact (hflex : conf.flex = true)
    (hintact : ∀ t c k, Waits sys t c k → DuIntact D sys t c k) : DelayExact sys := by
  intro t c k hwait hexe
  obtain ⟨hinv, hpc⟩ := h.waitInv hflex (hintact t c) hwait
  exact ⟨hinv.duOnly.exe hexe, hpc.exe hexe⟩

/-! ## Section 7: No wake-up is lost -/

/-- `IE` and `EE` are decoded as such. -/
theorem not_armed_of_ie (hvalid : (sys c).core.exeReg.valid = true)
    (hie : (sys c).core.exeReg.sig.ie = false) :
    (sys c).core.exeIe = false ∧ (sys c).core.exeEe = false := by
  cases c with
  | zero =>
    rw [h.reset.exeValid] at hvalid
    exact Bool.noConfusion hvalid
  | succ c =>
    rw [h.core_next] at hie ⊢
    have hdec : ((sys c).core.dec D).ie = false := hie
    constructor
    · show (_ && _ && (((sys c).core.dec D).ie && _)) = false
      rw [hdec, Bool.false_and, Bool.and_false]
    · show (_ && _ && (((sys c).core.dec D).ie && _)) = false
      rw [hdec, Bool.false_and, Bool.and_false]

/-- A DU or WU leaves the comparator to the delay. -/
theorem timer_kept_of_du (hdu : (sys k).core.inExe t = true → (sys k).core.exeReg.sig.du = true)
    (hexe : (sys k).core.inExe t = true) :
    (sys k).core.exeIe = false ∧ (sys k).core.exeEe = false ∧
      (sys k).core.writesCsr CSRs.compare = false := by
  have hvalid := (CoreState.inExe_iff.mp hexe).1
  obtain ⟨hcsr, -, -, hie⟩ := (h.core.exeDecoded k).du_only hvalid (hdu hexe)
  obtain ⟨hnoIe, hnoEe⟩ := h.not_armed_of_ie hvalid hie
  exact ⟨hnoIe, hnoEe, by simp [CoreState.writesCsr, hcsr]⟩

/-- What holds in every cycle in which a thread sleeps. -/
structure SleepInv (D : DecodeLogic conf) (sys : Nat → SystemState conf) (t : conf.Tid)
    (c k : Nat) : Prop where
  wait : WaitInv D sys t c k
  timer : (sys k).core.csr.regTimer t = .duWu
  early : ∀ j, c ≤ j → j < k → ¬ ReachedSince sys t c j

/-- **When the time comes** the thread wakes up. -/
theorem wakes_of_sleepInv (hflex : conf.flex = true) (hconf : conf.delayUntil = true)
    (hinv : SleepInv D sys t c k) (hreached : ReachedSince sys t c k) :
    (sys (k + 1)).core.active t = true := by
  have htime : (sys k).core.timeReached t = true := by
    rw [CoreState.timeReached, hinv.wait.compare]
    exact hreached
  rw [h.core_next]
  apply CoreState.active_of_delayOver
  rw [CoreState.delayOver_of_reached hflex hconf hinv.timer]
  exact htime

theorem sleepInv_start (hflex : conf.flex = true) (hconf : conf.delayUntil = true)
    (hdu : (sys c).core.commitsDu t = true) (hearly : ¬ ReachedSince sys t c c) :
    SleepInv D sys t c (c + 1) := by
  constructor
  case wait => exact h.waitInv_start hflex hdu hearly
  case timer =>
    have hexe := CoreState.inExe_of_commitsDu hdu
    have hsleep := (h.stalled_of_commitsDu hflex hdu hearly).2.1
    rw [h.core_next]
    exact CoreState.next_regTimer_duWu hconf (Bool.eq_false_iff.mpr hearly)
      (h.timer_kept_of_du fun _ => CoreState.du_of_commitsDu hdu) (.inr ⟨hexe, hsleep⟩)
  case early =>
    intro j hj hj'
    obtain rfl : j = c := by omega
    exact hearly

/-- **One cycle** of the sleep. -/
theorem sleepInv_next (hflex : conf.flex = true) (hconf : conf.delayUntil = true)
    (hintact : ∀ k, Waits sys t c k → DuIntact D sys t c k)
    (hasleep : AsleepSince sys t c (k + 1)) (hlt : c < k) (hinv : SleepInv D sys t c k) :
    SleepInv D sys t c (k + 1) := by
  have hnot : ¬ ReachedSince sys t c k := by
    intro hreached
    have hactive := h.wakes_of_sleepInv hflex hconf hinv hreached
    rw [hasleep.asleep (k + 1) hasleep.order (Nat.le_refl _)] at hactive
    exact Bool.noConfusion hactive
  have hearly : ∀ j, c ≤ j → j < k + 1 → ¬ ReachedSince sys t c j := by
    intro j hj hj'
    by_cases heq : j = k
    · rw [heq]
      exact hnot
    · exact hinv.early j hj (by omega)
  constructor
  case wait =>
    refine h.waitInv_next hinv.wait fun hfetch => ?_
    have hcases := h.fetch_cases hflex hasleep.commits hasleep.early hlt hfetch
    refine hintact k ⟨hlt, hasleep.commits, fun j hj hj' => hearly j hj (by omega), ?_⟩ hcases
      hfetch
    intro j hj hj'
    rcases hcases with ⟨rfl, -⟩ | ⟨hle, hactive⟩
    · -- nothing of the thread is left in execute
      obtain rfl : j = c + 1 := by omega
      have hflush := (h.stalled_of_commitsDu hflex hasleep.commits hasleep.early).1
      rw [Bool.eq_false_iff]
      intro htrap
      have hexe := CoreState.inExe_of_traps htrap
      simp [h.core_next, CoreState.next_inExe, hflush] at hexe
    · rw [hasleep.asleep (k - 2) (by omega) (by omega)] at hactive
      exact Bool.noConfusion hactive
  case timer =>
    have hearly' : (sys k).core.timeReached t = false := by
      rw [CoreState.timeReached, hinv.wait.compare]
      exact Bool.eq_false_iff.mpr hnot
    rw [h.core_next]
    exact CoreState.next_regTimer_duWu hconf hearly'
      (h.timer_kept_of_du hinv.wait.duOnly.exe) (.inl hinv.timer)
  case early => exact hearly

/-- **Every cycle** of the sleep. -/
theorem sleepInv (hflex : conf.flex = true) (hconf : conf.delayUntil = true)
    (hintact : ∀ k, Waits sys t c k → DuIntact D sys t c k) (hasleep : AsleepSince sys t c k) :
    SleepInv D sys t c k := by
  obtain ⟨hlt, hdu, hearly, hinactive⟩ := hasleep
  induction k, hlt using Nat.le_induction with
  | base => exact h.sleepInv_start hflex hconf hdu hearly
  | succ k hlt ih =>
    have hbefore := ih fun j hj hj' => hinactive j hj (Nat.le_succ_of_le hj')
    exact h.sleepInv_next hflex hconf hintact
      ⟨Nat.lt_succ_of_lt hlt, hdu, hearly, hinactive⟩ hlt hbefore

theorem wakeUpPending (hflex : conf.flex = true)
    (hintact : ∀ k, Waits sys t c k → DuIntact D sys t c k) (hasleep : AsleepSince sys t c k) :
    WakeUpPending sys t c k := by
  have hvalid := (CoreState.inExe_iff.mp (CoreState.inExe_of_commitsDu hasleep.commits)).1
  have hconf := (h.core.exeDecoded c).delayUntil_of_du hvalid
    (CoreState.du_of_commitsDu hasleep.commits)
  have hinv := h.sleepInv hflex hconf hintact hasleep
  constructor
  case timer => exact hinv.timer
  case compare => exact hinv.wait.compare
  case first => exact hinv.early
  case wakes => exact h.wakes_of_sleepInv hflex hconf hinv

/-- An inactive thread has been asleep since it was active last. -/
theorem asleepSince (hmodes : ModesUnwritten sys) {a : Nat} (hle : a ≤ k)
    (hactive : (sys a).core.active t = true) (hasleep : (sys k).core.active t = false) :
    ∃ c, AsleepSince sys t c k := by
  induction k, hle using Nat.le_induction with
  | base =>
    rw [hactive] at hasleep
    exact Bool.noConfusion hasleep
  | succ k hle ih =>
    cases hbefore : (sys k).core.active t with
    | true =>
      have hnext := hasleep
      rw [h.core_next] at hnext
      obtain ⟨hdu, hearly⟩ := CoreState.commitsDu_of_falls_asleep (hmodes k) hbefore hnext
      refine ⟨k, Nat.lt_succ_self k, hdu, Bool.eq_false_iff.mp hearly, ?_⟩
      intro j hj hj'
      obtain rfl : j = k + 1 := by omega
      exact hasleep
    | false =>
      obtain ⟨c, hlt, hdu, hearly, hinactive⟩ := ih hbefore
      refine ⟨c, Nat.lt_succ_of_lt hlt, hdu, hearly, ?_⟩
      intro j hj hj'
      by_cases heq : j = k + 1
      · rw [heq]
        exact hasleep
      · exact hinactive j hj (by omega)

end SystemRun

end runs

/-- **Delay-until** is exact and loses no wake-up in every run of the flexible
    core in which a waiting thread fetches its DU or WU unchanged. -/
theorem delayUntil_exact (hflex : conf.flex = true) (D : DecodeLogic conf)
    (sys : Nat → SystemState conf) (pins : Nat → Pins conf) (h : SystemRun D sys pins)
    (hintact : ∀ t c k, Waits sys t c k → DuIntact D sys t c k) :
    DelayExact sys ∧ (ModesUnwritten sys → WakeUpKept sys) := by
  constructor
  · exact h.delayExact hflex hintact
  · intro hmodes t a k hle hactive hasleep
    obtain ⟨c, hsince⟩ := h.asleepSince hmodes hle hactive hasleep
    exact ⟨c, hsince, h.wakeUpPending hflex (hintact t c) hsince⟩

/-! ## Section 8: A program of DUs -/

/-- The DU. -/
def duWord : BitVec 32 := 0x700b

/-- Every word of the instruction scratchpad is a DU, and so is every word that
    has been fetched. -/
structure AllDu (s : CoreState conf4tf) : Prop where
  imem : ∀ a, s.imem.ispm a = duWord
  fetch : s.ifReg.valid = true → s.imem.doutR = duWord
  dec : s.decReg.valid = true → s.decReg.inst = duWord
  exe : s.exeReg.valid = true → s.exeReg.sig.store = false

theorem allDu_next {s : CoreState conf4tf} {i : CoreIn conf4tf} (h : AllDu s) :
    AllDu (s.next (DecodeLogic.zeros conf4tf) i) := by
  have hwrite : s.loadStoreIn.write = false := by
    have hstore : s.loadStoreIn.store = false := by
      show (s.exeReg.sig.store && s.exeReg.valid) = false
      cases hvalid : s.exeReg.valid with
      | false => rw [Bool.and_false]
      | true => rw [h.exe hvalid, Bool.false_and]
    simp [LoadStoreIn.write, hstore]
  constructor
  case imem =>
    intro a
    show (if _ && s.loadStoreIn.write then _ else s.imem.ispm) a = duWord
    rw [hwrite, Bool.and_false, if_neg Bool.false_ne_true]
    exact h.imem a
  case fetch =>
    intro hvalid
    have hnext : s.nextReg.valid = true := hvalid
    show (if s.nextReg.valid then s.imem.ispm _ else _) = duWord
    rw [hnext, if_pos rfl]
    exact h.imem _
  case dec =>
    intro hvalid
    have hpre : s.ifPreValid (DecodeLogic.zeros conf4tf) = true :=
      (Bool.and_eq_true_iff.mp hvalid).1
    simp only [CoreState.ifPreValid, Bool.and_eq_true] at hpre
    exact h.fetch hpre.1.1
  case exe =>
    intro hvalid
    have hdec : s.decReg.valid = true := (Bool.and_eq_true_iff.mp hvalid).1
    show ((DecodeLogic.zeros conf4tf).decode s.decReg.inst).store = false
    rw [h.dec hdec]
    decide

/-- The compare values start at 300. -/
def allDuZero : SystemState conf4tf where
  core :=
    { coreZero conf4tf fun _ => duWord with
      csr := { csrZero conf4tf with regCompare := fun _ => 300 } }
  sched := schedulerReset conf4tf

def allDuRun : Nat → SystemState conf4tf :=
  Machine.trace (fun s p => SystemState.next s (DecodeLogic.zeros conf4tf) p) allDuZero
    fun _ => noPins conf4tf

theorem allDuRun_systemRun :
    SystemRun (DecodeLogic.zeros conf4tf) allDuRun fun _ => noPins conf4tf := by
  have hreset := coreZero_reset conf4tf fun _ => duWord
  have hcsr := csrZero_reset conf4tf
  constructor
  case reset =>
    constructor
    case csr => exact { hcsr with }
    all_goals
      intros
      rfl
  case sched => rfl
  case next =>
    intro c
    rfl

theorem allDuRun_allDu (c : Nat) : AllDu (allDuRun c).core := by
  induction c with
  | zero =>
    constructor
    case imem =>
      intro a
      rfl
    all_goals
      intro hvalid
      exact Bool.noConfusion hvalid
  | succ c ih =>
    rw [allDuRun_systemRun.core_next]
    exact allDu_next ih

/-- Thread 0 alone, asleep after cycle `n`. -/
def soloRun (s₀ : CoreState conf4tf) (n : Nat) : Nat → CoreState conf4tf :=
  SystemRun.issueRun (DecodeLogic.zeros conf4tf) s₀ (fun _ => (0 : Fin 4)) (fun c => c ≤ n)
    fun _ => noPins conf4tf

/-- Thread 0 in every cycle. -/
def soloThread (_ : Nat) : conf4tf.Tid := (0 : Fin 4)

/-- The DU of cycle 4, and what thread 0 does until cycle 10. -/
theorem allDuIssues_facts :
    (∀ c, c < 10 →
      SystemRun.Issues (soloRun allDuZero.core 4 c) 7 7 (soloThread c) (c ≤ 4)) ∧
    (soloRun allDuZero.core 4 4).commitsDu (0 : Fin 4) = true ∧
    (∀ j, j ≤ 10 → ¬ reached (soloRun allDuZero.core 4 j).csr.time32
      ((soloRun allDuZero.core 4 4).csr.regCompare (0 : Fin 4)) = true) ∧
    ∀ j, j < 10 → (soloRun allDuZero.core 4 j).traps (0 : Fin 4) = false := by
  decide +kernel

theorem allDuRun_core (c : Nat) (hc : c ≤ 10) :
    (allDuRun c).core = soloRun allDuZero.core 4 c :=
  (allDuRun_systemRun.issue_run (by decide) rfl (fun _ => 7) (fun _ => (0 : Fin 4))
    (fun c => c ≤ 4) allDuIssues_facts.1 c hc).1

/-- Thread 0 sleeps from cycle 4 on, until its time comes in cycle 30. -/
theorem allDuRun_exact :
    Waits allDuRun (0 : Fin 4) 4 10 ∧ DelayExact allDuRun ∧
      (ModesUnwritten allDuRun → WakeUpKept allDuRun) := by
  have hcore := allDuRun_core
  obtain ⟨-, hdu, hearly, huntrapped⟩ := allDuIssues_facts
  constructor
  · constructor
    case order => decide
    case commits =>
      rw [hcore 4 (by decide)]
      exact hdu
    case early =>
      intro j _ hj
      unfold ReachedSince
      rw [hcore j hj, hcore 4 (by decide)]
      exact hearly j hj
    case untrapped =>
      intro j _ hj
      rw [hcore j (Nat.le_of_lt hj)]
      exact huntrapped j hj
  · refine delayUntil_exact rfl (DecodeLogic.zeros conf4tf) allDuRun
      (fun _ => noPins conf4tf) allDuRun_systemRun ?_
    intro t c k _ _ hfetch
    have hfetched := CoreState.inFetch_of_fetches _ hfetch
    rw [CoreState.ifInst, (allDuRun_allDu k).fetch (CoreState.inFetch_iff.mp hfetched).1]
    decide

/-! ## Section 9: A DU that is overwritten -/

/-- The compare value becomes 300, a write of the compare value is stored over
    the DU, and a FENCE.I follows the DU. -/
def duOverwritten (a : Nat) : BitVec 32 :=
  if a = 0 then 0x12c00093 else if a = 1 then 0x50709073 else if a = 2 then 0x50709137
  else if a = 3 then 0x07310113 else if a = 4 then 0x00202a23 else if a = 5 then duWord
  else if a = 6 then 0x0000100f else 0x13

def duOverwrittenRun : Nat → SystemState conf4tf :=
  Machine.trace (fun s p => SystemState.next s (DecodeLogic.zeros conf4tf) p)
    (systemZero conf4tf duOverwritten) fun _ => noPins conf4tf

theorem duOverwrittenRun_systemRun :
    SystemRun (DecodeLogic.zeros conf4tf) duOverwrittenRun fun _ => noPins conf4tf :=
  systemRun_trace _ _ _

/-- The DU of cycle 9, and what thread 0 does until cycle 14. -/
theorem duOverwrittenIssues_facts :
    (∀ c, c < 14 → SystemRun.Issues (soloRun (coreZero conf4tf duOverwritten) 9 c) 7 7
      (soloThread c) (c ≤ 9)) ∧
    (soloRun (coreZero conf4tf duOverwritten) 9 9).commitsDu (0 : Fin 4) = true ∧
    (∀ j, j ≤ 13 → ¬ reached (soloRun (coreZero conf4tf duOverwritten) 9 j).csr.time32
      ((soloRun (coreZero conf4tf duOverwritten) 9 9).csr.regCompare (0 : Fin 4)) = true) ∧
    (∀ c, c ≤ 14 → (soloRun (coreZero conf4tf duOverwritten) 9 c).traps (0 : Fin 4) = false ∧
      (soloRun (coreZero conf4tf duOverwritten) 9 c).writesCsr CSRs.tmodes = false ∧
      (9 < c → (soloRun (coreZero conf4tf duOverwritten) 9 c).active (0 : Fin 4) = false)) ∧
    (soloRun (coreZero conf4tf duOverwritten) 9 13).inExe (0 : Fin 4) = true ∧
    (soloRun (coreZero conf4tf duOverwritten) 9 13).exeReg.sig.du = false ∧
    (soloRun (coreZero conf4tf duOverwritten) 9 14).csr.regTimer (0 : Fin 4) = .off := by
  decide +kernel

theorem duOverwrittenRun_core (c : Nat) (hc : c ≤ 14) :
    (duOverwrittenRun c).core = soloRun (coreZero conf4tf duOverwritten) 9 c :=
  (duOverwrittenRun_systemRun.issue_run (by decide) rfl (fun _ => 7) (fun _ => (0 : Fin 4))
    (fun c => c ≤ 9) duOverwrittenIssues_facts.1 c hc).1

/-- Thread 0 commits the DU in cycle 9, with the FENCE.I in decode.  In cycle 13
    it executes the word that was stored, asleep and before its time, and its
    timer is off from then on. -/
theorem duOverwritten_lost :
    SystemRun (DecodeLogic.zeros conf4tf) duOverwrittenRun (fun _ => noPins conf4tf) ∧
      ¬ DelayExact duOverwrittenRun ∧
      (∀ c, c ≤ 14 → (duOverwrittenRun c).core.writesCsr CSRs.tmodes = false) ∧
      AsleepSince duOverwrittenRun (0 : Fin 4) 9 14 ∧
      (duOverwrittenRun 14).core.csr.regTimer (0 : Fin 4) = .off := by
  have hcore := duOverwrittenRun_core
  obtain ⟨-, hdu, hearly, hkept, hexe, hword, htimer⟩ := duOverwrittenIssues_facts
  rw [← hcore 9 (by decide)] at hdu
  have hbefore : ∀ j, j ≤ 13 → ¬ ReachedSince duOverwrittenRun (0 : Fin 4) 9 j := by
    intro j hj
    unfold ReachedSince
    rw [hcore j (Nat.le_succ_of_le hj), hcore 9 (by decide)]
    exact hearly j hj
  refine ⟨duOverwrittenRun_systemRun, ?_, ?_, ?_, ?_⟩
  · intro hexact
    have hwait : Waits duOverwrittenRun (0 : Fin 4) 9 13 := by
      constructor
      case order => decide
      case commits => exact hdu
      case early =>
        intro j _ hj
        exact hbefore j hj
      case untrapped =>
        intro j _ hj
        rw [hcore j (by omega)]
        exact (hkept j (by omega)).1
    rw [← hcore 13 (by decide)] at hexe hword
    have hagain := (hexact (0 : Fin 4) 9 13 hwait hexe).1
    exact Bool.noConfusion (hagain.symm.trans hword)
  · intro c hc
    rw [hcore c hc]
    exact (hkept c hc).2.1
  · constructor
    case order => decide
    case commits => exact hdu
    case early => exact hbefore 9 (by decide)
    case asleep =>
      intro j hj hj'
      rw [hcore j hj']
      exact (hkept j hj').2.2 hj
  · rw [hcore 14 (by decide)]
    exact htimer

end Flexpret.Core
