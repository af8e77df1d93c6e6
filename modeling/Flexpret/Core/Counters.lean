import Flexpret.Core.ServiceRate
import Flexpret.Lib.SplitCounter

/-! # The Counters of Cycles and Instructions

    Each thread has a counter of the cycles it was scheduled in and one of the
    instructions it completed.  They have no reset value, count one at a time, and are
    read by two CSRs each.
-/

open Transition

namespace Flexpret.Core

variable {conf : FlexpretConfiguration}

/-! ## Section 1: What is counted -/

/-- A cycle of `t` has reached execute, with or without a valid instruction. -/
def CoreState.slotInExe (s : CoreState conf) (t : conf.Tid) : Bool :=
  s.exeReg.issued && decide (s.exeReg.tid = t)

/-- An instruction of `t` is completed in execute. -/
def CoreState.completes (s : CoreState conf) (t : conf.Tid) : Bool :=
  s.exeValid && decide (s.exeReg.tid = t)

/-- The count of scheduled cycles, not wrapped, from the value it had at reset. -/
def cyclesCounted (tr : Nat → CoreState conf) (t : conf.Tid) (c : Nat) : Nat :=
  ((tr 0).csr.regCycle t).toNat + Nat.count (fun d => (tr d).slotInExe t = true) c

/-- The count of completed instructions. -/
def instrsCounted (tr : Nat → CoreState conf) (t : conf.Tid) (c : Nat) : Nat :=
  ((tr 0).csr.regInstret t).toNat + Nat.count (fun d => (tr d).completes t = true) c

/-- The instructions that `t` completes from cycle `a` until cycle `b`. -/
def completedCount (tr : Nat → CoreState conf) (t : conf.Tid) (a b : Nat) : Nat :=
  ((Finset.Ico a b).filter fun c => (tr c).completes t = true).card

/-! ## Section 2: The registers -/

section registers

variable {D : DecodeLogic conf} {tr : Nat → CoreState conf} {inp : Nat → CoreIn conf}

/-- A register that counts the cycles of `turn` holds how many there were. -/
theorem counter_eq (reg : Nat → BitVec 64) {turn : Nat → Prop} [DecidablePred turn]
    (hstep : ∀ c, reg (c + 1) = if turn c then reg c + 1 else reg c) (c : Nat) :
    reg c = BitVec.ofNat 64 ((reg 0).toNat + Nat.count turn c) := by
  induction c with
  | zero =>
    rw [Nat.count_zero, Nat.add_zero]
    exact (BitVec.ofNat_toNat 64 _ ▸ BitVec.setWidth_eq _).symm
  | succ c ih =>
    rw [hstep, Nat.count_succ]
    split
    · rw [← Nat.add_assoc, BitVec.ofNat_add, ← ih]
      rfl
    · exact ih

/-- A thread's counter is incremented. -/
theorem assign_count (counts : Bool) (u t : conf.Tid) (reg : conf.Tid → BitVec 64) :
    assign counts u (reg u + 1) reg t =
      if (counts && decide (u = t)) = true then reg t + 1 else reg t := by
  by_cases hut : u = t
  · subst hut
    simp
  · rw [assign_ne (Ne.symm hut)]
    simp [hut]

/-- **The cycle counter** of a thread, in any run. -/
theorem CoreRun.regCycle_eq (h : CoreRun D tr inp) (hstats : conf.stats = true) (t : conf.Tid)
    (c : Nat) : (tr c).csr.regCycle t = BitVec.ofNat 64 (cyclesCounted tr t c) := by
  refine counter_eq (fun c => (tr c).csr.regCycle t) (fun c => ?_) c
  have hnext : (tr (c + 1)).csr.regCycle =
      assign (conf.stats && (conf.stats && (tr c).exeReg.issued)) (tr c).exeReg.tid
        ((tr c).csr.regCycle (tr c).exeReg.tid + 1) (tr c).csr.regCycle := by
    rw [h.next, CoreState.next_csr]
    rfl
  show (tr (c + 1)).csr.regCycle t = _
  rw [hnext, hstats, Bool.true_and, Bool.true_and]
  exact assign_count _ _ _ _

/-- **The instruction counter** of a thread, in any run. -/
theorem CoreRun.regInstret_eq (h : CoreRun D tr inp) (hstats : conf.stats = true) (t : conf.Tid)
    (c : Nat) : (tr c).csr.regInstret t = BitVec.ofNat 64 (instrsCounted tr t c) := by
  refine counter_eq (fun c => (tr c).csr.regInstret t) (fun c => ?_) c
  have hnext : (tr (c + 1)).csr.regInstret =
      assign (conf.stats && (conf.stats && (tr c).exeValid)) (tr c).exeReg.tid
        ((tr c).csr.regInstret (tr c).exeReg.tid + 1) (tr c).csr.regInstret := by
    rw [h.next, CoreState.next_csr]
    rfl
  show (tr (c + 1)).csr.regInstret t = _
  rw [hnext, hstats, Bool.true_and, Bool.true_and]
  exact assign_count _ _ _ _

end registers

/-! ## Section 3: The counts -/

section counts

theorem count_le_add (turn : Nat → Prop) [DecidablePred turn] (a n : Nat) :
    Nat.count turn (a + n) ≤ Nat.count turn a + n := by
  rw [Nat.count_add]
  exact Nat.add_le_add_left (Nat.count_le _) _

variable (tr : Nat → CoreState conf) (t : conf.Tid)

theorem cyclesCounted_mono {a b : Nat} (h : a ≤ b) :
    cyclesCounted tr t a ≤ cyclesCounted tr t b :=
  Nat.add_le_add_left (Nat.count_monotone _ h) _

theorem instrsCounted_mono {a b : Nat} (h : a ≤ b) :
    instrsCounted tr t a ≤ instrsCounted tr t b :=
  Nat.add_le_add_left (Nat.count_monotone _ h) _

/-- No more is counted than there are cycles. -/
theorem cyclesCounted_le (a n : Nat) : cyclesCounted tr t (a + n) ≤ cyclesCounted tr t a + n := by
  have hcount := count_le_add (fun d => (tr d).slotInExe t = true) a n
  unfold cyclesCounted
  omega

theorem instrsCounted_le (a n : Nat) : instrsCounted tr t (a + n) ≤ instrsCounted tr t a + n := by
  have hcount := count_le_add (fun d => (tr d).completes t = true) a n
  unfold instrsCounted
  omega

/-- What the instruction counter counts in a stretch of the run. -/
theorem instrsCounted_sub {a b : Nat} (h : a ≤ b) :
    instrsCounted tr t b = instrsCounted tr t a + completedCount tr t a b := by
  unfold instrsCounted completedCount
  rw [count_Ico _ h, Nat.add_assoc]

end counts

section scheduled

variable {D : DecodeLogic conf} {sys : Nat → SystemState conf} {pins : Nat → Pins conf}

/-- What the core gets is what is issued. -/
theorem SystemRun.issues_iff (h : SystemRun D sys pins) (t : conf.Tid) (c : Nat) :
    (sys c).issues t = true ↔
      ((sys c).coreIn (pins c)).valid = true ∧ ((sys c).coreIn (pins c)).thread = t := by
  constructor
  · exact fun hissues => SystemState.coreIn_of_issues hissues (pins c)
  · rintro ⟨hvalid, hthread⟩
    have hactive := threadActive_of_valid (h.schedulerInv c) hvalid
    have hthread : tidOf (schedulerOut (sys c).sched (sys c).schedIn).thread = t := hthread
    unfold SchedulerIn.threadActive at hactive
    split at hactive
    · next hlt =>
      rw [tidOf, dif_pos hlt] at hthread
      refine SystemState.issues_iff.mpr ⟨hvalid, BitVec.eq_of_toNat_eq ?_⟩
      rw [threadId_toNat, ← hthread]
    · exact absurd hactive Bool.false_ne_true

/-- A cycle of the scheduler reaches execute four cycles later. -/
theorem SystemRun.slotInExe_eq (h : SystemRun D sys pins) (t : conf.Tid) (c : Nat) :
    (sys (c + 4)).core.slotInExe t = (sys c).issues t := by
  have hissued : (sys (c + 4)).core.exeReg.issued = ((sys c).coreIn (pins c)).valid := by
    rw [h.next (c + 3), h.next (c + 2), h.next (c + 1), h.next c]
    rfl
  have htid : (sys (c + 4)).core.exeReg.tid = ((sys c).coreIn (pins c)).thread := by
    rw [h.next (c + 3), h.next (c + 2), h.next (c + 1), h.next c]
    rfl
  rw [CoreState.slotInExe, hissued, htid, Bool.eq_iff_iff, h.issues_iff, Bool.and_eq_true,
    decide_eq_true_eq]

/-- **The cycle counter counts the issues** of a stretch of the run, four cycles late. -/
theorem SystemRun.cyclesCounted_sub (h : SystemRun D sys pins) (t : conf.Tid) {a b : Nat}
    (hab : a ≤ b) : cyclesCounted (fun c => (sys c).core) t (b + 4) =
      cyclesCounted (fun c => (sys c).core) t (a + 4) + issueCount sys t a b := by
  have hcount : ((Finset.Ico (a + 4) (b + 4)).filter
      fun c => (sys c).core.slotInExe t = true).card = issueCount sys t a b := by
    rw [issueCount, ← Finset.image_add_right_Ico, Finset.filter_image,
      Finset.card_image_of_injective _ (add_left_injective 4)]
    exact congrArg Finset.card (Finset.filter_congr fun c _ => by rw [h.slotInExe_eq])
  unfold cyclesCounted
  rw [count_Ico _ (Nat.add_le_add_right hab 4), hcount, Nat.add_assoc]

end scheduled

/-! ## Section 4: The words -/

/-- The two words of a counter. -/
theorem toNat_words (n : Nat) :
    ((BitVec.ofNat 64 n).extractLsb' 32 32).toNat = SplitCounter.high 32 n ∧
      ((BitVec.ofNat 64 n).setWidth 32).toNat = SplitCounter.low 32 n := by
  constructor
  · rw [BitVec.extractLsb'_toNat, BitVec.toNat_ofNat, Nat.shiftRight_eq_div_pow, SplitCounter.high]
    omega
  · rw [BitVec.toNat_setWidth, BitVec.toNat_ofNat, SplitCounter.low]
    omega

/-- The four CSRs of a thread's counters. -/
structure CounterWords (s : CsrState conf) (t : conf.Tid) : Prop where
  cycle : s.dataOut CSRs.cycle t = (s.regCycle t).setWidth 32
  cycleh : s.dataOut CSRs.cycleh t = (s.regCycle t).extractLsb' 32 32
  instret : s.dataOut CSRs.instret t = (s.regInstret t).setWidth 32
  instreth : s.dataOut CSRs.instreth t = (s.regInstret t).extractLsb' 32 32

theorem counterWords (s : CsrState conf) (t : conf.Tid) (hstats : conf.stats = true) :
    CounterWords s t := by
  constructor
  all_goals
    simp [CsrState.dataOut, hstats, CSRs.instreth, CSRs.cycleh, CSRs.instret, CSRs.cycle,
      CSRs.slots, CSRs.hartid, CSRs.tmodes, CSRs.evec, CSRs.epc, CSRs.cause, CSRs.sup0,
      CSRs.clock, CSRs.tohost, CSRs.gpiBase, CSRs.gpoBase, CSRs.gpoProtection,
      CSRs.iMemProtection, CSRs.dMemProtection, CSRs.time, CSRs.timeh]

end Flexpret.Core
