import Flexpret.Core.ArchPath
import Flexpret.Core.IssuePeriod
import Flexpret.Core.MissedDeadline
import Flexpret.Core.ServiceRate

/-! # Issues That Come Through

    In every configuration an issue of a thread is in execute four cycles later, unless
    an instruction of the thread flushes it or a FENCE.I in decode holds it back; and in
    the round robin every thread has its turn in execute.
-/

open Transition

namespace Flexpret.Core

variable {conf : FlexpretConfiguration}

/-! ## Section 1: The stall count -/

namespace CoreState

variable {s : CoreState conf} {t : conf.Tid} {D : DecodeLogic conf} {i : CoreIn conf}

/-- A FENCE.I in decode sets the stall count of `t`. -/
def fenceHolds (s : CoreState conf) (t : conf.Tid) (D : DecodeLogic conf) : Bool :=
  conf.bypassing && (s.decReg.valid && (s.dec D).fenceI) && decide (s.exeReg.tid = t)

theorem next_stallCount_bypassing (hbypass : conf.bypassing = true) :
    (s.next D i).stallCount t =
      if s.traps t then 1
      else if s.fenceHolds t D then 1
      else if s.exeSleep && decide (s.exeReg.tid = t) then 2
      else if s.exeBrjmp && conf.regBrJmp && decide (s.exeReg.tid = t) then 1
      else if s.stallCount t ≠ 0 then s.stallCount t - 1
      else 0 := by
  rw [next_stallCount]
  simp only [nextStallCount, hbypass, if_true, fenceHolds, Bool.true_and, assign_apply, traps]

theorem next_stallCount_apart (hbypass : conf.bypassing = false) :
    (s.next D i).stallCount t = 0 := by
  rw [next_stallCount]
  simp [nextStallCount, hbypass]

/-- The count is never more than a sleep sets. -/
theorem next_stallCount_le_two (h : s.stallCount t ≤ 2) : (s.next D i).stallCount t ≤ 2 := by
  cases hbypass : conf.bypassing with
  | false =>
    rw [next_stallCount_apart hbypass]
    decide
  | true =>
    rw [next_stallCount_bypassing hbypass]
    generalize s.stallCount t = count at h
    split
    · decide
    · split
      · decide
      · split
        · decide
        · split
          · decide
          · revert count
            decide

/-- While nothing of its thread is flushed the count goes down, but for a FENCE.I. -/
theorem next_stallCount_le_one (h : s.stallCount t ≤ 2) (hflush : s.flushes t = false) :
    (s.next D i).stallCount t ≤ 1 := by
  cases hbypass : conf.bypassing with
  | false =>
    rw [next_stallCount_apart hbypass]
    decide
  | true =>
    have hsleep : (s.exeSleep && decide (s.exeReg.tid = t)) = false := by
      simp only [flushes, exeFlush, hbypass, Bool.true_and] at hflush
      cases hsleep : s.exeSleep with
      | false => rfl
      | true => simpa [hsleep] using hflush
    rw [next_stallCount_bypassing hbypass, hsleep, if_neg Bool.false_ne_true]
    generalize s.stallCount t = count at h
    split
    · decide
    · split
      · decide
      · split
        · decide
        · revert count
          decide

/-- From one it runs out. -/
theorem next_stallCount_zero (h : s.stallCount t ≤ 1) (hflush : s.flushes t = false)
    (hfence : s.fenceHolds t D = false) : (s.next D i).stallCount t = 0 := by
  cases hbypass : conf.bypassing with
  | false => exact next_stallCount_apart hbypass
  | true =>
    have hparts : s.traps t = false ∧ (s.exeSleep && decide (s.exeReg.tid = t)) = false ∧
        (s.exeBrjmp && conf.regBrJmp && decide (s.exeReg.tid = t)) = false := by
      simp only [flushes, exeFlush, hbypass, Bool.true_and] at hflush
      rw [traps]
      by_cases htid : s.exeReg.tid = t
      · simp only [htid, decide_true, Bool.and_true, Bool.or_eq_false_iff] at hflush ⊢
        rw [hflush.1.1, hflush.1.2, hflush.2, Bool.false_and]
        exact ⟨rfl, rfl, rfl⟩
      · simp [htid]
    rw [next_stallCount_bypassing hbypass, hparts.1, hfence, hparts.2.1, hparts.2.2]
    generalize s.stallCount t = count at h
    revert count
    decide

end CoreState

namespace SystemRun

variable {D : DecodeLogic conf} {sys : Nat → SystemState conf} {pins : Nat → Pins conf}
  {t : conf.Tid} {x y k : Nat}

theorem stallCount_le_two (h : SystemRun D sys pins) (c : Nat) :
    (sys c).core.stallCount t ≤ 2 := by
  induction c with
  | zero =>
    rw [h.reset.stallCount]
    decide
  | succ c ih =>
    rw [h.core_next]
    exact CoreState.next_stallCount_le_two ih

/-! ## Section 2: From the scheduler to the execute stage -/

/-- The scheduler issues `t` in cycle `x`, and the fetch that comes of it is not held back
    by a FENCE.I in decode. -/
structure IssuedFreely (D : DecodeLogic conf) (sys : Nat → SystemState conf) (t : conf.Tid)
    (x : Nat) : Prop where
  issues : (sys x).issues t = true
  free : (sys (x + 1)).core.fenceHolds t D = false

theorem follows (h : SystemRun D sys pins) :
    Follows D (fun c => (sys c).coreIn (pins c)) fun c => (sys c).core :=
  h.core_next

/-- **An issue comes through** if its thread flushes nothing until then and the instruction
    in decode before it stalls no fetch. -/
theorem inExe_of_issues (h : SystemRun D sys pins) (hissue : IssuedFreely D sys t x)
    (hcount : (sys (x + 1)).core.stallCount t ≤ 1)
    (hflush : ∀ j, x + 1 ≤ j → j ≤ x + 3 → (sys j).core.flushes t = false)
    (hdec : (sys (x + 2)).core.inDec t = true → (sys (x + 2)).core.decStall D = false) :
    (sys (x + 4)).core.inExe t = true := by
  obtain ⟨hvalid, htid⟩ := CoreState.inFetch_iff.mp
    ((h.follows.inFetch x).mpr (SystemState.coreIn_of_issues hissue.issues (pins x)))
  have hzero : (sys (x + 2)).core.stallCount t = 0 := by
    rw [h.core_next (x + 1)]
    exact CoreState.next_stallCount_zero hcount (hflush (x + 1) (by omega) (by omega))
      hissue.free
  have hstall : ((sys (x + 2)).core.decStall D &&
      decide ((sys (x + 2)).core.ifReg.tid = (sys (x + 2)).core.decReg.tid)) = false := by
    rw [Bool.eq_false_iff]
    intro hs
    simp only [Bool.and_eq_true, decide_eq_true_eq, htid] at hs
    have hdecValid : (sys (x + 2)).core.decReg.valid = true := by
      have hs' := hs.1
      simp only [CoreState.decStall, Bool.and_eq_true] at hs'
      exact hs'.1.2
    rw [hdec (CoreState.inDec_iff.mpr ⟨hdecValid, hs.2.symm⟩)] at hs
    exact Bool.noConfusion hs.1
  refine h.follows.inExe ?_ (hflush (x + 2) (by omega) (by omega))
    (hflush (x + 3) (by omega) (by omega))
  rw [CoreState.fetches, CoreState.ifPreValid, hvalid, hstall, htid, hzero]
  simp

/-- A thread that has nothing in execute flushes nothing. -/
theorem not_flushes_of_not_inExe {s : CoreState conf} (h : s.inExe t = false) :
    s.flushes t = false := by
  rw [Bool.eq_false_iff]
  intro hflush
  rw [CoreState.inExe_of_flushes hflush] at h
  exact Bool.noConfusion h

/-- **The first issue**: with nothing of its thread in execute before, it comes through. -/
theorem exists_inExe_of_issues (h : SystemRun D sys pins) (hissue : IssuedFreely D sys t x) :
    ∃ k, x ≤ k ∧ k < x + 5 ∧ (sys k).core.inExe t = true := by
  by_contra hnone
  push Not at hnone
  have hclear : ∀ j, x ≤ j → j ≤ x + 4 → (sys j).core.inExe t = false :=
    fun j hj hj' => Bool.eq_false_iff.mpr (hnone j hj (Nat.lt_succ_of_le hj'))
  have hflush : ∀ j, x ≤ j → j ≤ x + 3 → (sys j).core.flushes t = false :=
    fun j hj hj' => not_flushes_of_not_inExe (hclear j hj (by omega))
  have hexe := h.inExe_of_issues hissue ?_ (fun j hj hj' => hflush j (by omega) hj') ?_
  · rw [hclear (x + 4) (by omega) le_rfl] at hexe
    exact Bool.noConfusion hexe
  · rw [h.core_next]
    exact CoreState.next_stallCount_le_one (h.stallCount_le_two x) (hflush x le_rfl (by omega))
  · -- what is in decode would be in execute next
    intro hdec
    have hexe : (sys (x + 3)).core.inExe t = true := by
      rw [h.core_next (x + 2), CoreState.next_inExe, hdec, hflush (x + 2) (by omega) (by omega)]
      rfl
    rw [hclear (x + 3) (by omega) (by omega)] at hexe
    exact Bool.noConfusion hexe

/-- **The next issue** behind an instruction that does not flush comes through, if nothing
    of the thread does before.  One right behind it may be stalled in fetch. -/
theorem exists_next_of_issues (h : SystemRun D sys pins) (hexe : (sys k).core.inExe t = true)
    (hflush : (sys k).core.flushes t = false) (hky : k < y + 3)
    (hissue : IssuedFreely D sys t y) :
    ∃ n, k + 1 ≤ n ∧ n < y + 5 ∧ (sys n).core.inExe t = true := by
  obtain ⟨x, rfl, -, hfetch, hdec, hback⟩ := h.follows.issued h.reset hexe
  by_contra hnone
  push Not at hnone
  have hclear : ∀ j, x + 4 < j → j ≤ y + 4 → (sys j).core.inExe t = false :=
    fun j hj hj' => Bool.eq_false_iff.mpr (hnone j hj (Nat.lt_succ_of_le hj'))
  have hfirst : (sys (x + 2)).core.flushes t = false := by
    rw [h.core_next (x + 2), CoreState.next_inDec, Bool.and_eq_true, Bool.not_eq_true'] at hdec
    exact hdec.2
  have hkept : ∀ j, x + 2 ≤ j → j ≤ y + 3 → (sys j).core.flushes t = false := by
    intro j hj hj'
    obtain rfl | rfl | rfl | hlt : j = x + 2 ∨ j = x + 3 ∨ j = x + 4 ∨ x + 4 < j := by omega
    · exact hfirst
    · exact hback
    · exact hflush
    · exact not_flushes_of_not_inExe (hclear j hlt (by omega))
  have hcount : ∀ j, x + 2 ≤ j → j ≤ y + 1 → (sys j).core.stallCount t ≤ 1 := by
    intro j hj hj'
    induction j, hj using Nat.le_induction with
    | base =>
      rw [CoreState.stallCount_of_fetches D hfetch]
      decide
    | succ j hj _ =>
      rw [h.core_next]
      exact CoreState.next_stallCount_le_one (h.stallCount_le_two j)
        (hkept j hj (by omega))
  have hthrough := h.inExe_of_issues hissue (hcount (y + 1) (by omega) le_rfl)
    (fun j hj hj' => hkept j (by omega) hj') ?_
  · rw [hclear (y + 4) (by omega) le_rfl] at hthrough
    exact Bool.noConfusion hthrough
  · -- what is in decode would be in execute next
    intro hin
    have hnext : (sys (y + 3)).core.inExe t = true := by
      rw [h.core_next (y + 2), CoreState.next_inExe, hin, hkept (y + 2) (by omega) (by omega)]
      rfl
    rw [hclear (y + 3) hky (by omega)] at hnext
    exact Bool.noConfusion hnext

/-! ## Section 3: Turns of the round robin -/

/-- Cycles until a thread is the one in execute at the latest, for what only its own turn
    does in the round robin. -/
def turnCycles (conf : FlexpretConfiguration) : Nat := if conf.flex then 1 else conf.threads

/-- **The turn** of a thread: in the round robin execute holds it, with a valid instruction
    or not, once in as many cycles as there are threads. -/
theorem exists_turn (h : SystemRun D sys pins) (t : conf.Tid) {k : Nat} (hk : 4 ≤ k) :
    ∃ n, k ≤ n ∧ n < k + turnCycles conf ∧ (conf.flex = true ∨ (sys n).core.exeReg.tid = t) := by
  unfold turnCycles
  cases hflex : conf.flex with
  | true => exact ⟨k, le_rfl, Nat.lt_succ_self k, Or.inl rfl⟩
  | false =>
    obtain ⟨x, rfl⟩ : ∃ x, k = x + 4 := ⟨k - 4, by omega⟩
    have hpos := conf.threads_pos
    have hlt := t.isLt
    -- the cycles that are left until the turn
    obtain ⟨d, hd, hturn⟩ : ∃ d, d < conf.threads ∧ (x + d) % conf.threads = t.val := by
      have hmod := Nat.mod_lt x hpos
      rcases Nat.lt_or_ge t.val (x % conf.threads) with hbefore | hafter
      · refine ⟨conf.threads + t.val - x % conf.threads, by omega, ?_⟩
        rw [Nat.add_mod, Nat.mod_eq_of_lt (a := conf.threads + t.val - x % conf.threads) (by omega),
          show x % conf.threads + (conf.threads + t.val - x % conf.threads) =
            t.val + conf.threads by omega, Nat.add_mod_right, Nat.mod_eq_of_lt hlt]
      · refine ⟨t.val - x % conf.threads, by omega, ?_⟩
        rw [Nat.add_mod, Nat.mod_eq_of_lt (a := t.val - x % conf.threads) (by omega),
          show x % conf.threads + (t.val - x % conf.threads) = t.val by omega,
          Nat.mod_eq_of_lt hlt]
    refine ⟨x + d + 4, by omega, ?_, Or.inr ?_⟩
    · show x + d + 4 < x + 4 + conf.threads
      omega
    · have htid : (sys (x + d + 4)).core.exeReg.tid =
          ((sys (x + d)).coreIn (pins (x + d))).thread := by
        rw [h.next (x + d + 3), h.next (x + d + 2), h.next (x + d + 1), h.next (x + d)]
        rfl
      rw [htid]
      apply Fin.ext
      by_cases hone : conf.threads = 1
      · have hlt' := ((sys (x + d)).coreIn (pins (x + d))).thread.isLt
        omega
      · rw [h.thread_eq hflex hone, hturn]

end SystemRun

end Flexpret.Core
