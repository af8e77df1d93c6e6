import Flexpret.Core.DelayUntil
import Flexpret.Core.IssueThrough

/-! # Wait Until and Delay Until

    A WU is decoded to add 4 to the PC, but the datapath has no such operand, so
    that it redirects to itself as a DU does.  A thread that is interrupted
    while it waits goes on at the same instruction in both cases.
-/

open Transition

namespace Flexpret.Core

variable {conf : FlexpretConfiguration}

/-! ## Section 1: Waiting and being interrupted -/

/-- Since `t` has committed a DU or WU in cycle `c`, none of its instructions
    has found that the time has come, and none has trapped. -/
structure StillWaits (sys : Nat → SystemState conf) (t : conf.Tid) (c k : Nat) : Prop where
  order : c < k
  commits : (sys c).core.commitsDu t = true
  early : ∀ j, c ≤ j → j < k → (sys j).core.inExe t = true →
    (sys j).core.timeReached t = false
  untrapped : ∀ j, c < j → j < k → (sys j).core.traps t = false

/-- The instruction of `t` in cycle `n` is the next one after cycle `k`. -/
structure NextInExe (sys : Nat → SystemState conf) (t : conf.Tid) (k n : Nat) : Prop where
  order : k < n
  exe : (sys n).core.inExe t = true
  none : ∀ j, k < j → j < n → (sys j).core.inExe t = false

/-- The wait is interrupted in cycle `e`; in cycle `r` an instruction of the
    handler goes on at the `epc` of the trap, with the instruction of cycle `n`. -/
structure InterruptedAt (sys : Nat → SystemState conf) (t : conf.Tid) (c e r n : Nat) :
    Prop where
  waits : StillWaits sys t c e
  trap : (sys e).core.traps t = true
  order : e < r
  handler : (sys r).core.inExe t = true
  returns : (sys r).core.archNext = (sys (e + 1)).core.csr.regEpcs t
  next : NextInExe sys t r n

/-- The trap is an external interrupt that comes before the time. -/
def EarlyInterrupt (sys : Nat → SystemState conf) (t : conf.Tid) (e : Nat) : Prop :=
  (sys e).core.takes Causes.externalInt t = true ∧ (sys e).core.timeReached t = false

/-- The wait since cycle `c` is over in cycle `k`: the waiting instruction is
    executed again and finds that the time has come. -/
structure Completes (sys : Nat → SystemState conf) (t : conf.Tid) (c k : Nat) : Prop where
  waits : StillWaits sys t c k
  exe : (sys k).core.inExe t = true
  reached : (sys k).core.timeReached t = true
  untrapped : (sys k).core.traps t = false

/-- The instruction behind the one of cycle `c` is committed in cycle `n` and in
    no other cycle before `m`, in which the thread is past it. -/
structure CommittedOnce (sys : Nat → SystemState conf) (t : conf.Tid) (c n m : Nat) : Prop where
  pc : (sys n).core.exeReg.pc = (sys c).core.exeReg.pc + 4
  commits : (sys n).core.exeValid = true
  once : ∀ j, c ≤ j → j < m → (sys j).core.inExe t = true →
    (sys j).core.exeReg.pc = (sys c).core.exeReg.pc + 4 → j = n
  onward : (sys m).core.exeReg.pc = (sys n).core.archNext

/-- **A wait** of `t` since cycle `c`, that goes on at `skip` after an early
    interrupt. -/
structure WaitSpec (D : DecodeLogic conf) (sys : Nat → SystemState conf) (t : conf.Tid)
    (skip : BitVec 32) (c : Nat) : Prop where
  /-- The thread is put to sleep. -/
  sleeps : (sys c).core.exeSleep = true
  /-- Until the time comes it executes nothing but the waiting instruction. -/
  waits : ∀ k, StillWaits sys t c k → (sys k).core.inExe t = true →
    (sys k).core.exeReg.pc = (sys c).core.exeReg.pc ∧ (sys k).core.exeReg.sig.du = true ∧
      (sys k).core.csr.regCompare t = (sys c).core.csr.regCompare t
  /-- When the time comes it is woken, in the round robin in its next turn. -/
  wakes : ∀ k, StillWaits sys t c k → (∀ j, c ≤ j → j < k → ¬ ReachedSince sys t c j) →
    ReachedSince sys t c k →
    ∃ n, k < n ∧ n ≤ k + SystemRun.turnCycles conf ∧ (sys n).core.active t = true
  /-- Issued then, it executes the waiting instruction, which finds the time come. -/
  again : ∀ x, StillWaits sys t c x → (∀ j, x ≤ j → j ≤ x + 4 → ReachedSince sys t c j) →
    SystemRun.IssuedFreely D sys t x → ∃ k, x ≤ k ∧ k ≤ x + 4 ∧ StillWaits sys t c k ∧
      (sys k).core.inExe t = true ∧ (sys k).core.timeReached t = true
  /-- Issued behind that, it executes the next instruction, -/
  behind : ∀ k y, Completes sys t c k → k < y + 3 → SystemRun.IssuedFreely D sys t y →
    ∃ n, n ≤ y + 4 ∧ NextInExe sys t k n
  /-- which is the one after the waiting instruction, -/
  completes : ∀ k n, Completes sys t c k → NextInExe sys t k n →
    (sys n).core.exeReg.pc = (sys c).core.exeReg.pc + 4
  /-- and is committed once. -/
  once : ∀ k n m, Completes sys t c k → NextInExe sys t k n → (sys n).core.traps t = false →
    NextInExe sys t n m → CommittedOnce sys t c n m
  interrupted : ∀ e r n, InterruptedAt sys t c e r n → EarlyInterrupt sys t e →
    (sys n).core.exeReg.pc = skip
  /-- After another trap the thread waits on. -/
  resumes : ∀ e r n, InterruptedAt sys t c e r n → ¬ EarlyInterrupt sys t e →
    (sys n).core.exeReg.pc = (sys c).core.exeReg.pc

/-- **The condition** on a wait: whenever its place is fetched again it still
    holds a DU or WU. -/
def PlaceIntact (D : DecodeLogic conf) (sys : Nat → SystemState conf) (t : conf.Tid) (c : Nat) :
    Prop :=
  ∀ k, StillWaits sys t c k → (sys k).core.fetches t D = true →
    (sys k).core.ifPc = (sys c).core.exeReg.pc → (D.decode (sys k).core.ifInst).du = true

/-! ## Section 2: The place of a wait -/

/-- What holds in every cycle of a wait at `pc`: the path of the thread stays
    there, and what is decoded and executed of it there is a DU or WU. -/
structure WaitsAt (D : DecodeLogic conf) (t : conf.Tid) (pc compare : BitVec 32)
    (s : CoreState conf) : Prop where
  path : CoreState.PathInv D t pc s
  exe : s.inExe t = true → s.exeReg.sig.du = true
  dec : s.inDec t = true → s.decReg.pc = pc → (s.dec D).du = true
  compare : s.csr.regCompare t = compare

namespace CoreState

variable {s : CoreState conf} {t : conf.Tid} {D : DecodeLogic conf} {i : CoreIn conf}
  {pc compare : BitVec 32}

/-- A DU or WU before its time goes on at its own address. -/
theorem archNext_of_early (h : ExeDecoded D s) (hexe : s.inExe t = true)
    (hdu : s.exeReg.sig.du = true) (hearly : s.timeReached t = false)
    (htrap : s.traps t = false) : s.archNext = s.exeReg.pc := by
  have hsleeps := exeDu_of_du h hexe hdu hearly
  rw [archNext_of_redirects h htrap (redirects_of_du h hexe hdu hearly),
    exeAddress_of_du h hsleeps]

/-- When the time has come it redirects nothing, -/
theorem not_redirects_of_reached (h : ExeDecoded D s) (hexe : s.inExe t = true)
    (hdu : s.exeReg.sig.du = true) (hreached : s.timeReached t = true) :
    s.redirects t = false := by
  obtain ⟨hvalid, htid⟩ := inExe_iff.mp hexe
  obtain ⟨-, hjump, hbranch, -⟩ := h.du_only hvalid hdu
  have hconf := h.delayUntil_of_du hvalid hdu
  have hexp : s.csr.expired t t = true := (expired_self hconf).trans hreached
  rw [redirects, exeBrjmp, exeDu, hjump, hbranch, htid, hexp]
  simp

/-- and goes on behind itself. -/
theorem archNext_of_reached (h : ExeDecoded D s) (hexe : s.inExe t = true)
    (hdu : s.exeReg.sig.du = true) (hreached : s.timeReached t = true)
    (htrap : s.traps t = false) : s.archNext = s.exeReg.pc + 4 :=
  archNext_of_plain hexe htrap (not_redirects_of_reached h hexe hdu hreached)

theorem traps_of_commitsDu (h : s.commitsDu t = true) : s.traps t = false := by
  simp only [commitsDu, exeValid, Bool.and_eq_true, Bool.not_eq_true'] at h
  rw [traps, h.1.1.2, Bool.false_and]

/-- **The wait goes on** in a cycle in which an instruction of the thread, if
    there is one, is early and does not trap. -/
theorem waitsAt_next (hdec : ExeDecoded D s) (hapart : Apart s) (h : WaitsAt D t pc compare s)
    (hearly : s.inExe t = true → s.timeReached t = false) (htrap : s.traps t = false)
    (hfetch : s.fetches t D = true → s.ifPc = pc → (D.decode s.ifInst).du = true) :
    WaitsAt D t pc compare (s.next D i) := by
  have hcompare : (s.next D i).csr.regCompare t = compare := by
    rw [next_regCompare_of_duOnly hdec h.exe, h.compare]
  have hpath := pathInv_next (i := i) hdec hapart h.path
  cases hexe : s.inExe t with
  | true =>
    have hdu := h.exe hexe
    have hstep : s.archStep t pc = pc := by
      rw [archStep, if_pos hexe, archNext_of_early hdec hexe hdu (hearly hexe) htrap,
        h.path.exe hexe]
    rw [hstep] at hpath
    -- the redirect leaves no younger instruction of the thread
    obtain ⟨hexe', hdec'⟩ := younger_gone (D := D) (i := i) hapart
      (.inr (redirects_of_du hdec hexe hdu (hearly hexe)))
    refine ⟨hpath, fun he => ?_, fun hd => ?_, hcompare⟩
    · rw [hexe'] at he
      exact Bool.noConfusion he
    · rw [hdec'] at hd
      exact Bool.noConfusion hd
  | false =>
    rw [archStep, hexe, if_neg Bool.false_ne_true] at hpath
    refine ⟨hpath, fun he => ?_, fun hd => ?_, hcompare⟩
    · -- what comes from decode with nothing of the thread ahead of it is at the place
      rw [next_inExe, Bool.and_eq_true] at he
      have hplace : s.decReg.pc = pc := by
        rw [h.path.dec he.1, hexe]
        simp [ahead]
      exact h.dec he.1 hplace
    · rw [next_inDec, Bool.and_eq_true] at hd
      exact hfetch hd.1

end CoreState

theorem ne_add_four (pc : BitVec 32) : pc ≠ pc + 4 := by
  intro heq
  have hnat := congrArg BitVec.toNat heq
  rw [BitVec.toNat_add] at hnat
  have hlt := pc.isLt
  change pc.toNat = (pc.toNat + 4) % 2 ^ 32 at hnat
  omega

/-- A time that has come within the last cycle is not over for the next eight. -/
theorem reached_add {now compare : BitVec 32} (hbefore : ¬ reached now compare = true)
    (hreached : reached (now + BitVec.ofNat 32 (10 * 1)) compare = true) {d : Nat} (hd : d ≤ 8) :
    reached (now + BitVec.ofNat 32 (10 * 1) + BitVec.ofNat 32 (10 * d)) compare = true := by
  have hone : now + BitVec.ofNat 32 (10 * 1) - compare = (now - compare) + 10#32 := by grind
  have hmore : now + BitVec.ofNat 32 (10 * 1) + BitVec.ofNat 32 (10 * d) - compare =
      (now - compare) + 10#32 + BitVec.ofNat 32 (10 * d) := by grind
  unfold reached at hbefore hreached ⊢
  rw [hone] at hreached
  rw [hmore]
  generalize now - compare = past at hbefore hreached ⊢
  simp only [Bool.not_eq_true', BitVec.msb_eq_decide, decide_eq_false_iff_not,
    BitVec.toNat_add, BitVec.toNat_ofNat] at hbefore hreached ⊢
  have hnear : (past.toNat + 10 % 2 ^ 32) % 2 ^ 32 < 10 := by
    have hlt := past.isLt
    omega
  rw [Nat.mod_eq_of_lt (a := 10 * d) (by omega), Nat.mod_eq_of_lt (by omega)]
  omega

namespace SystemRun

variable {D : DecodeLogic conf} {sys : Nat → SystemState conf} {pins : Nat → Pins conf}
  {t : conf.Tid} {c k e r n : Nat}

/-- The cycle after the DU or WU is committed. -/
theorem waitsAt_start (h : SystemRun D sys pins) (hdu : (sys c).core.commitsDu t = true)
    (hearly : (sys c).core.timeReached t = false) :
    WaitsAt D t (sys c).core.exeReg.pc ((sys c).core.csr.regCompare t) (sys (c + 1)).core := by
  have hdec := h.core.exeDecoded c
  have hexe := CoreState.inExe_of_commitsDu hdu
  have hsig := CoreState.du_of_commitsDu hdu
  have htrap := CoreState.traps_of_commitsDu hdu
  obtain ⟨pc, hpc⟩ := h.pathInv t c
  have hpath := CoreState.pathInv_next (i := (sys c).coreIn (pins c)) hdec (h.apart c) hpc
  rw [CoreState.archStep, if_pos hexe,
    CoreState.archNext_of_early hdec hexe hsig hearly htrap] at hpath
  obtain ⟨hexe', hdec'⟩ := CoreState.younger_gone (D := D) (i := (sys c).coreIn (pins c))
    (h.apart c) (.inr (CoreState.redirects_of_du hdec hexe hsig hearly))
  rw [h.core_next]
  refine ⟨hpath, fun he => ?_, fun hd => ?_, ?_⟩
  · rw [hexe'] at he
    exact Bool.noConfusion he
  · rw [hdec'] at hd
    exact Bool.noConfusion hd
  · exact CoreState.next_regCompare_of_duOnly hdec fun _ => hsig

/-- **Every cycle** of a wait. -/
theorem waitsAt (h : SystemRun D sys pins) (hintact : PlaceIntact D sys t c)
    (hwait : StillWaits sys t c k) :
    WaitsAt D t (sys c).core.exeReg.pc ((sys c).core.csr.regCompare t) (sys k).core := by
  obtain ⟨hlt, hdu, hearly, huntrapped⟩ := hwait
  induction k, hlt using Nat.le_induction with
  | base =>
    exact h.waitsAt_start hdu
      (hearly c (Nat.le_refl c) (Nat.lt_succ_self c) (CoreState.inExe_of_commitsDu hdu))
  | succ k hlt ih =>
    have hearly' := fun j hj hj' => hearly j hj (Nat.lt_succ_of_lt hj')
    have huntrapped' := fun j hj hj' => huntrapped j hj (Nat.lt_succ_of_lt hj')
    rw [h.core_next]
    exact CoreState.waitsAt_next (h.core.exeDecoded k) (h.apart k) (ih hearly' huntrapped')
      (hearly k (Nat.le_of_lt hlt) (Nat.lt_succ_self k))
      (huntrapped k hlt (Nat.lt_succ_self k)) (hintact k ⟨hlt, hdu, hearly', huntrapped'⟩)

/-- **After an interruption** the thread goes on at the waiting instruction. -/
theorem pc_of_interruptedAt (h : SystemRun D sys pins) (hintact : PlaceIntact D sys t c)
    (hint : InterruptedAt sys t c e r n) :
    (sys n).core.exeReg.pc = (sys c).core.exeReg.pc := by
  have hexe := CoreState.inExe_of_traps hint.trap
  have hplace := (h.waitsAt hintact hint.waits).path.exe hexe
  -- the trap saves the address of the waiting instruction
  have hepc : (sys (e + 1)).core.csr.regEpcs t = (sys e).core.exeReg.pc := by
    have htrap := hint.trap
    simp only [CoreState.traps, Bool.and_eq_true, decide_eq_true_eq] at htrap
    rw [h.core_next]
    show assign (conf.exceptions && (sys e).core.exeException) (sys e).core.exeReg.tid
      (sys e).core.exeReg.pc _ t = _
    rw [htrap.1, CoreState.exceptions_of_exception htrap.1, htrap.2, assign_self]
    rfl
  rw [h.nextInstr hint.next.order hint.handler hint.next.exe hint.next.none, hint.returns, hepc,
    hplace]

/-- The wait goes on while nothing of the thread is in execute. -/
theorem stillWaits_extend {x : Nat} (hwait : StillWaits sys t c x) (hxk : x ≤ k)
    (hnone : ∀ j, x ≤ j → j < k → (sys j).core.inExe t = false) : StillWaits sys t c k := by
  constructor
  case order => exact hwait.order.trans_le hxk
  case commits => exact hwait.commits
  case early =>
    intro j hj hj' hexe
    rcases Nat.lt_or_ge j x with hlt | hge
    · exact hwait.early j hj hlt hexe
    · rw [hnone j hge hj'] at hexe
      exact Bool.noConfusion hexe
  case untrapped =>
    intro j hj hj'
    rcases Nat.lt_or_ge j x with hlt | hge
    · exact hwait.untrapped j hj hlt
    · rw [Bool.eq_false_iff]
      intro htrap
      have hexe := CoreState.inExe_of_traps htrap
      rw [hnone j hge hj'] at hexe
      exact Bool.noConfusion hexe

/-- A wait has gone on since it began. -/
theorem stillWaits_earlier {x : Nat} (hwait : StillWaits sys t c k) (hcx : c < x) (hxk : x ≤ k) :
    StillWaits sys t c x where
  order := hcx
  commits := hwait.commits
  early := fun j hj hj' => hwait.early j hj (hj'.trans_le hxk)
  untrapped := fun j hj hj' => hwait.untrapped j hj (hj'.trans_le hxk)

theorem delayUntil_of_commitsDu (h : SystemRun D sys pins)
    (hdu : (sys c).core.commitsDu t = true) : conf.delayUntil = true :=
  (h.core.exeDecoded c).delayUntil_of_du
    (CoreState.inExe_iff.mp (CoreState.inExe_of_commitsDu hdu)).1 (CoreState.du_of_commitsDu hdu)

/-! ## Section 3: The time comes -/

/-- **The comparator** is used for the wait until its time comes. -/
theorem timer_of_stillWaits (h : SystemRun D sys pins) (hintact : PlaceIntact D sys t c)
    (hwait : StillWaits sys t c k) (hbefore : ∀ j, c ≤ j → j < k → ¬ ReachedSince sys t c j) :
    (sys k).core.csr.regTimer t = .duWu := by
  have hconf := h.delayUntil_of_commitsDu hwait.commits
  obtain ⟨hlt, hdu, -, -⟩ := id hwait
  induction k, hlt using Nat.le_induction with
  | base =>
    have hexe := CoreState.inExe_of_commitsDu hdu
    have hearly : (sys c).core.timeReached t = false :=
      Bool.eq_false_iff.mpr (hbefore c le_rfl (Nat.lt_succ_self c))
    rw [h.core_next]
    exact CoreState.next_regTimer_duWu hconf hearly
      (h.timer_kept_of_du fun _ => CoreState.du_of_commitsDu hdu)
      (.inr ⟨hexe, CoreState.exeSleep_of_commitsDu (h.core.exeDecoded c) hdu hearly⟩)
  | succ k hlt ih =>
    have hwait' := stillWaits_earlier hwait hlt (Nat.le_succ k)
    have hinv := h.waitsAt hintact hwait'
    have hearly : (sys k).core.timeReached t = false := by
      rw [CoreState.timeReached, hinv.compare]
      exact Bool.eq_false_iff.mpr (hbefore k (Nat.le_of_lt hlt) (Nat.lt_succ_self k))
    rw [h.core_next]
    exact CoreState.next_regTimer_duWu hconf hearly (h.timer_kept_of_du hinv.exe)
      (.inl (ih hwait' fun j hj hj' => hbefore j hj (Nat.lt_succ_of_lt hj')))

/-- In the round robin the comparator stays as it is while it is another thread's turn. -/
theorem timer_of_others (h : SystemRun D sys pins) (hflex : conf.flex = false) {n : Nat}
    (hkn : k ≤ n) (hothers : ∀ j, k ≤ j → j < n → (sys j).core.exeReg.tid ≠ t) :
    (sys n).core.csr.regTimer t = (sys k).core.csr.regTimer t := by
  induction n, hkn using Nat.le_induction with
  | base => rfl
  | succ n hkn ih =>
    have hother := hothers n hkn (Nat.lt_succ_self n)
    have hexe : (sys n).core.inExe t = false := by
      rw [CoreState.inExe, decide_eq_false hother, Bool.and_false]
    have hover : (sys n).core.csr.delayOver
        ((sys n).core.csrIn ((sys n).coreIn (pins n))) t = false := by
      have hexpired : (sys n).core.csr.expired (sys n).core.exeReg.tid t = false := by
        simp [CsrState.expired, FlexpretConfiguration.roundRobin, hflex, hother]
      show (_ && _ && (sys n).core.csr.expired (sys n).core.exeReg.tid t) = false
      rw [hexpired, Bool.and_false]
    rw [h.core_next, CoreState.next_regTimer_of_not_inExe hexe, hover,
      if_neg Bool.false_ne_true]
    exact ih fun j hj hj' => hothers j hj (Nat.lt_succ_of_lt hj')

/-- A time that has just come stays for the next turns. -/
theorem reachedSince_soon (h : SystemRun D sys pins) (hget : conf.getTime = true) (hck : c < k)
    (hbefore : ¬ ReachedSince sys t c (k - 1)) (hreached : ReachedSince sys t c k) {d : Nat}
    (hd : d ≤ 8) : ReachedSince sys t c (k + d) := by
  have hlast := time32_add h.core hget (k - 1) 1
  have hlater := time32_add h.core hget k d
  rw [show k - 1 + 1 = k by omega] at hlast
  unfold ReachedSince at hbefore hreached ⊢
  rw [hlater]
  rw [hlast] at hreached ⊢
  generalize (sys (k - 1)).core.csr.time32 = now at hbefore hreached ⊢
  generalize (sys c).core.csr.regCompare t = compare at hbefore hreached ⊢
  exact reached_add hbefore hreached hd

/-- In a turn of the thread the comparator wakes it when the time has come. -/
theorem active_of_turn (h : SystemRun D sys pins) (hconf : conf.delayUntil = true) {n : Nat}
    (hturn : conf.flex = true ∨ (sys n).core.exeReg.tid = t)
    (htimer : (sys n).core.csr.regTimer t = .duWu) (htime : (sys n).core.timeReached t = true) :
    (sys (n + 1)).core.active t = true := by
  rw [h.core_next]
  apply CoreState.active_of_delayOver
  have hexpired : (sys n).core.csr.expired (sys n).core.exeReg.tid t = true := by
    have hreach : reached (sys n).core.csr.time32 ((sys n).core.csr.regCompare t) = true := htime
    rcases hturn with hflex | htid
    · simp [CsrState.expired, FlexpretConfiguration.roundRobin, hflex, hconf, hreach]
    · simp [CsrState.expired, htid, hconf, hreach]
  show (conf.delayUntil && decide ((sys n).core.csr.regTimer t = .duWu) &&
    (sys n).core.csr.expired (sys n).core.exeReg.tid t) = true
  rw [hconf, htimer, hexpired]
  rfl

/-- **When the time comes** the thread is woken. -/
theorem wakes_of_stillWaits (h : SystemRun D sys pins) (hintact : PlaceIntact D sys t c)
    (hwait : StillWaits sys t c k) (hbefore : ∀ j, c ≤ j → j < k → ¬ ReachedSince sys t c j)
    (hreached : ReachedSince sys t c k) :
    ∃ n, k < n ∧ n ≤ k + turnCycles conf ∧ (sys n).core.active t = true := by
  have hconf := h.delayUntil_of_commitsDu hwait.commits
  have hget : conf.getTime = true := by rw [FlexpretConfiguration.getTime, hconf, Bool.true_or]
  have hc : 4 ≤ c := h.issued_of_exe
    (CoreState.inExe_iff.mp (CoreState.inExe_of_commitsDu hwait.commits)).1
  have hck := hwait.order
  -- the first turn of the thread
  obtain ⟨n, hkn, hn, hturn, hfirst⟩ :=
    Machine.exists_firstCycle (h.exists_turn t (k := k) (hc.trans hck.le))
  have hothers : ∀ j, k ≤ j → j < n → conf.flex = false ∧ (sys j).core.exeReg.tid ≠ t := by
    intro j hj hj'
    have hno := hfirst j hj hj'
    simpa only [not_or, Bool.not_eq_true] using hno
  -- until then the thread has nothing in execute, and the comparator stays
  have hwait' := stillWaits_extend hwait hkn fun j hj hj' => by
    rw [CoreState.inExe, decide_eq_false (hothers j hj hj').2, Bool.and_false]
  have htimer : (sys n).core.csr.regTimer t = .duWu := by
    rw [← h.timer_of_stillWaits hintact hwait hbefore]
    rcases Nat.lt_or_ge k n with hlt | hge
    · exact h.timer_of_others (hothers k le_rfl hlt).1 hkn fun j hj hj' => (hothers j hj hj').2
    · rw [Nat.le_antisymm hge hkn]
  have htime : (sys n).core.timeReached t = true := by
    have hsmall : turnCycles conf ≤ 8 := by
      have hle := conf.threads_le
      unfold turnCycles
      split <;> omega
    have hlater := h.reachedSince_soon hget hck (hbefore (k - 1) (by omega) (by omega)) hreached
      (d := n - k) (by omega)
    rw [Nat.add_sub_cancel' hkn] at hlater
    rw [CoreState.timeReached, (h.waitsAt hintact hwait').compare]
    exact hlater
  exact ⟨n + 1, Nat.lt_succ_of_le hkn, hn, h.active_of_turn hconf hturn htimer htime⟩

/-- **Issued** when the time has come, the thread executes the waiting instruction again. -/
theorem again_of_issues (h : SystemRun D sys pins) (hintact : PlaceIntact D sys t c) {x : Nat}
    (hwait : StillWaits sys t c x) (hreached : ∀ j, x ≤ j → j ≤ x + 4 → ReachedSince sys t c j)
    (hissue : IssuedFreely D sys t x) :
    ∃ k, x ≤ k ∧ k ≤ x + 4 ∧ StillWaits sys t c k ∧ (sys k).core.inExe t = true ∧
      (sys k).core.timeReached t = true := by
  obtain ⟨k, hxk, hk, hexe, hfirst⟩ := Machine.exists_firstCycle (h.exists_inExe_of_issues hissue)
  have hwait' := stillWaits_extend hwait hxk fun j hj hj' =>
    Bool.eq_false_iff.mpr (hfirst j hj hj')
  have hk := Nat.le_of_lt_succ hk
  refine ⟨k, hxk, hk, hwait', hexe, ?_⟩
  rw [CoreState.timeReached, (h.waitsAt hintact hwait').compare]
  exact hreached k hxk hk

/-- **Issued** behind the wait that is over, it executes another instruction. -/
theorem behind_of_issues (h : SystemRun D sys pins) (hintact : PlaceIntact D sys t c) {y : Nat}
    (hover : Completes sys t c k) (hky : k < y + 3) (hissue : IssuedFreely D sys t y) :
    ∃ n, n ≤ y + 4 ∧ NextInExe sys t k n := by
  have hdu := (h.waitsAt hintact hover.waits).exe hover.exe
  have hstays : (sys k).core.flushes t = false := by
    rw [CoreState.flushes_eq_bypassing, hover.untrapped,
      CoreState.not_redirects_of_reached (h.core.exeDecoded k) hover.exe hdu hover.reached,
      Bool.or_self, Bool.and_false]
  obtain ⟨n, hkn, hn, hexe, hfirst⟩ :=
    Machine.exists_firstCycle (h.exists_next_of_issues hover.exe hstays hky hissue)
  refine ⟨n, Nat.le_of_lt_succ hn, hkn, hexe, fun j hj hj' => ?_⟩
  exact Bool.eq_false_iff.mpr (hfirst j hj hj')

/-- **Once**: what is executed from the wait on is the waiting instruction, then the one
    behind it, and then what that goes on to. -/
theorem committedOnce_of_completes (h : SystemRun D sys pins) (hintact : PlaceIntact D sys t c)
    {m : Nat} (hover : Completes sys t c k) (hnext : NextInExe sys t k n)
    (hpc : (sys n).core.exeReg.pc = (sys c).core.exeReg.pc + 4)
    (htrap : (sys n).core.traps t = false) (honward : NextInExe sys t n m) :
    CommittedOnce sys t c n m := by
  constructor
  case pc => exact hpc
  case commits =>
    obtain ⟨hvalid, htid⟩ := CoreState.inExe_iff.mp hnext.exe
    simp only [CoreState.traps, htid, decide_true, Bool.and_true] at htrap
    rw [CoreState.exeValid, hvalid, htrap]
    rfl
  case once =>
    intro j hj hj' hexe hbehind
    -- before the end of the wait, at its end, or behind it
    rcases Nat.lt_trichotomy j k with hlt | rfl | hgt
    · exfalso
      rcases Nat.lt_or_eq_of_le hj with hcj | rfl
      · have hwait := stillWaits_earlier hover.waits hcj hlt.le
        rw [(h.waitsAt hintact hwait).path.exe hexe] at hbehind
        exact ne_add_four _ hbehind
      · exact ne_add_four _ hbehind
    · rw [(h.waitsAt hintact hover.waits).path.exe hexe] at hbehind
      exact absurd hbehind (ne_add_four _)
    · rcases Nat.lt_trichotomy j n with hbefore | rfl | hafter
      · rw [hnext.none j hgt hbefore] at hexe
        exact Bool.noConfusion hexe
      · rfl
      · rw [honward.none j hafter hj'] at hexe
        exact Bool.noConfusion hexe
  case onward => exact h.nextInstr honward.order hnext.exe honward.exe honward.none

/-- A wait that goes on at its own place after an early interrupt. -/
theorem waitSpec_same (h : SystemRun D sys pins) (hdu : (sys c).core.commitsDu t = true)
    (hearly : (sys c).core.timeReached t = false) (hintact : PlaceIntact D sys t c)
    {skip : BitVec 32}
    (hskip : (∃ e r n, InterruptedAt sys t c e r n ∧ EarlyInterrupt sys t e) →
      skip = (sys c).core.exeReg.pc) : WaitSpec D sys t skip c := by
  have hcompletes : ∀ k n, Completes sys t c k → NextInExe sys t k n →
      (sys n).core.exeReg.pc = (sys c).core.exeReg.pc + 4 := by
    intro k n hover hnext
    have hinv := h.waitsAt hintact hover.waits
    rw [h.nextInstr hnext.order hover.exe hnext.exe hnext.none,
      CoreState.archNext_of_reached (h.core.exeDecoded k) hover.exe (hinv.exe hover.exe)
        hover.reached hover.untrapped, hinv.path.exe hover.exe]
  constructor
  case sleeps => exact CoreState.exeSleep_of_commitsDu (h.core.exeDecoded c) hdu hearly
  case waits =>
    intro k hwait hexe
    have hinv := h.waitsAt hintact hwait
    exact ⟨hinv.path.exe hexe, hinv.exe hexe, hinv.compare⟩
  case wakes => exact fun k hwait hbefore hreached =>
    h.wakes_of_stillWaits hintact hwait hbefore hreached
  case again => exact fun x hwait hreached hissue =>
    h.again_of_issues hintact hwait hreached hissue
  case behind => exact fun k y hover hky hissue => h.behind_of_issues hintact hover hky hissue
  case completes => exact hcompletes
  case once => exact fun k n m hover hnext htrap honward =>
    h.committedOnce_of_completes hintact hover hnext (hcompletes k n hover hnext) htrap honward
  case interrupted =>
    intro e r n hint hext
    rw [hskip ⟨e, r, n, hint, hext⟩]
    exact h.pc_of_interruptedAt hintact hint
  case resumes => exact fun e r n hint _ => h.pc_of_interruptedAt hintact hint

end SystemRun

/-- **Wait-until** goes on behind itself after an early interrupt in no run, so
    that it does what it should exactly when there is none; and **delay-until**
    always waits again. -/
theorem waitUntil_iff (D : DecodeLogic conf) (sys : Nat → SystemState conf)
    (pins : Nat → Pins conf) (h : SystemRun D sys pins) (t : conf.Tid) (c : Nat)
    (hdu : (sys c).core.commitsDu t = true) (hearly : (sys c).core.timeReached t = false)
    (hintact : PlaceIntact D sys t c) :
    (instrOf (sys c).core.exeReg.inst = some .wu →
      (WaitSpec D sys t ((sys c).core.exeReg.pc + 4) c ↔
        ¬ ∃ e r n, InterruptedAt sys t c e r n ∧ EarlyInterrupt sys t e)) ∧
    (instrOf (sys c).core.exeReg.inst = some .du →
      WaitSpec D sys t (sys c).core.exeReg.pc c) := by
  constructor
  · intro _
    constructor
    · rintro hspec ⟨e, r, n, hint, hext⟩
      have hbehind := hspec.interrupted e r n hint hext
      rw [h.pc_of_interruptedAt hintact hint] at hbehind
      exact ne_add_four _ hbehind
    · exact fun hnone => h.waitSpec_same hdu hearly hintact fun hsome => absurd hsome hnone
  · exact fun _ => h.waitSpec_same hdu hearly hintact fun _ => rfl

/-! ## Section 4: A WU until time 110 -/

/-- `compare` is 110, and the WU is executed at time 60. -/
def waitFor110 (a : Nat) : BitVec 32 :=
  if a = 0 then 0x06e00093 else if a = 1 then 0x50709073 else if a = 2 then 0x702b else 0x13

def waitFor110Run : Nat → SystemState conf4tf :=
  Machine.trace (fun s p => SystemState.next s (DecodeLogic.zeros conf4tf) p)
    (systemZero conf4tf waitFor110) fun _ => noPins conf4tf

/-- Thread 0 sleeps from cycle 7 to cycle 11. -/
def waitFor110Issues : Nat → CoreState conf4tf :=
  SystemRun.issueRun (DecodeLogic.zeros conf4tf) (coreZero conf4tf waitFor110)
    (fun _ => (0 : Fin 4)) (fun c => c ≤ 6 || 12 ≤ c) fun _ => noPins conf4tf

/-- The WU of cycle 6 is executed again in cycle 16, when the time has come. -/
theorem waitFor110Issues_facts :
    (∀ c, c < 16 → SystemRun.Issues (waitFor110Issues c) 7 7 (soloThread c) (c ≤ 6 || 12 ≤ c)) ∧
    ((waitFor110Issues 6).commitsDu (0 : Fin 4) = true ∧
      (waitFor110Issues 6).timeReached (0 : Fin 4) = false ∧
      instrOf (waitFor110Issues 6).exeReg.inst = some .wu) ∧
    ((waitFor110Issues 16).inExe (0 : Fin 4) = true ∧
      (waitFor110Issues 16).timeReached (0 : Fin 4) = true) ∧
    ∀ k, k ≤ 16 → (waitFor110Issues k).traps (0 : Fin 4) = false ∧
      ((waitFor110Issues k).fetches (0 : Fin 4) (DecodeLogic.zeros conf4tf) = true →
        (waitFor110Issues k).ifPc = (waitFor110Issues 6).exeReg.pc →
        ((DecodeLogic.zeros conf4tf).decode (waitFor110Issues k).ifInst).du = true) := by
  decide +kernel

theorem waitFor110Run_core (c : Nat) (hc : c ≤ 16) :
    (waitFor110Run c).core = waitFor110Issues c := by
  have hrun : SystemRun (DecodeLogic.zeros conf4tf) waitFor110Run fun _ => noPins conf4tf :=
    systemRun_trace _ _ _
  exact (hrun.issue_run (by decide) rfl (fun _ => 7) (fun _ => (0 : Fin 4))
    (fun c => c ≤ 6 || 12 ≤ c) waitFor110Issues_facts.1 c hc).1

theorem waitFor110Run_over {k : Nat} (h : StillWaits waitFor110Run (0 : Fin 4) 6 k) : k ≤ 16 := by
  by_contra hlt
  obtain ⟨-, -, ⟨hexe, hreached⟩, -⟩ := waitFor110Issues_facts
  have hlast := waitFor110Run_core 16 (Nat.le_refl 16)
  rw [← hlast] at hexe hreached
  rw [h.early 16 (by decide) (Nat.not_le.mp hlt) hexe] at hreached
  exact Bool.noConfusion hreached

theorem waitFor110Run_waits :
    WaitSpec (DecodeLogic.zeros conf4tf) waitFor110Run (0 : Fin 4)
      ((waitFor110Run 6).core.exeReg.pc + 4) 6 := by
  have hcore := waitFor110Run_core
  obtain ⟨-, ⟨hdu, hearly, hwu⟩, -, hall⟩ := waitFor110Issues_facts
  rw [← hcore 6 (by decide)] at hdu hearly hwu
  refine ((waitUntil_iff (DecodeLogic.zeros conf4tf) waitFor110Run (fun _ => noPins conf4tf)
    (systemRun_trace _ _ _) (0 : Fin 4) 6 hdu hearly ?_).1 hwu).mpr ?_
  · intro k hwait
    have hk := waitFor110Run_over hwait
    rw [hcore k hk, hcore 6 (by decide)]
    exact (hall k hk).2
  · rintro ⟨e, r, n, hint, -⟩
    have he := waitFor110Run_over hint.waits
    have htrap := hint.trap
    rw [hcore e he, (hall e he).1] at htrap
    exact Bool.noConfusion htrap

/-! ## Section 5: A WU that is interrupted -/

/-- `compare` is 1792 and the trap vector 32; interrupts are enabled before the
    WU, and the handler goes back to `epc`. -/
def waitInterrupted (a : Nat) : BitVec 32 :=
  if a = 0 then 0x70000093 else if a = 1 then 0x50709073 else if a = 2 then 0x02000113
  else if a = 3 then 0x50811073 else if a = 4 then 0x50a86073 else if a = 5 then 0x702b
  else if a = 8 then 0x502021f3 else if a = 9 then 0x00018067 else 0x13

/-- The interrupt line of thread 0 is asserted in cycle 12. -/
def interruptIn12 (c : Nat) : Pins conf4tf :=
  { noPins conf4tf with intExts := fun u => c = 12 && u.val = 0 }

def waitInterruptedRun : Nat → SystemState conf4tf :=
  Machine.trace (fun s p => SystemState.next s (DecodeLogic.zeros conf4tf) p)
    (systemZero conf4tf waitInterrupted) interruptIn12

def waitInterruptedIssues : Nat → CoreState conf4tf :=
  SystemRun.issueRun (DecodeLogic.zeros conf4tf) (coreZero conf4tf waitInterrupted)
    (fun _ => (0 : Fin 4)) (fun c => c ≤ 9 || 13 ≤ c) interruptIn12

theorem waitInterruptedRun_systemRun :
    SystemRun (DecodeLogic.zeros conf4tf) waitInterruptedRun interruptIn12 :=
  systemRun_trace _ _ _

/-- The WU, the trap and the return of its handler, and what thread 0 executes else. -/
theorem waitInterruptedIssues_facts :
    (∀ c, c < 25 →
      SystemRun.Issues (waitInterruptedIssues c) 7 7 (soloThread c) (c ≤ 9 || 13 ≤ c)) ∧
    ((waitInterruptedIssues 9).commitsDu (0 : Fin 4) = true ∧
      (waitInterruptedIssues 9).timeReached (0 : Fin 4) = false ∧
      instrOf (waitInterruptedIssues 9).exeReg.inst = some .wu) ∧
    (∀ k, k ≤ 25 → 9 < k → ((waitInterruptedIssues k).inExe (0 : Fin 4) = true ↔
      k = 17 ∨ k = 21 ∨ k = 22 ∨ k = 25)) ∧
    ((waitInterruptedIssues 17).traps (0 : Fin 4) = true ∧
      (waitInterruptedIssues 17).takes Causes.externalInt (0 : Fin 4) = true ∧
      (waitInterruptedIssues 17).timeReached (0 : Fin 4) = false) ∧
    (waitInterruptedIssues 22).archNext =
      (waitInterruptedIssues 18).csr.regEpcs (0 : Fin 4) ∧
    (waitInterruptedIssues 25).exeReg.pc = (waitInterruptedIssues 9).exeReg.pc := by
  decide +kernel

theorem waitInterruptedRun_core (c : Nat) (hc : c ≤ 25) :
    (waitInterruptedRun c).core = waitInterruptedIssues c :=
  (waitInterruptedRun_systemRun.issue_run (by decide) rfl (fun _ => 7) (fun _ => (0 : Fin 4))
    (fun c => c ≤ 9 || 13 ≤ c) waitInterruptedIssues_facts.1 c hc).1

theorem waitInterruptedRun_interruptedAt :
    InterruptedAt waitInterruptedRun (0 : Fin 4) 9 17 22 25 := by
  have hcore := waitInterruptedRun_core
  obtain ⟨-, ⟨hdu, hearly, -⟩, hexe, ⟨htrap, -⟩, hreturns, -⟩ :=
    waitInterruptedIssues_facts
  constructor
  case waits =>
    constructor
    case order => decide
    case commits =>
      rw [hcore 9 (by decide)]
      exact hdu
    case early =>
      intro j hj hj' hin
      rw [hcore j (by omega)] at hin ⊢
      rcases Nat.lt_or_eq_of_le hj with hlt | rfl
      · have hcases := (hexe j (by omega) hlt).mp hin
        omega
      · exact hearly
    case untrapped =>
      intro j hj hj'
      rw [Bool.eq_false_iff]
      intro hother
      have hin := CoreState.inExe_of_traps hother
      rw [hcore j (by omega)] at hin
      have hcases := (hexe j (by omega) hj).mp hin
      omega
  case trap =>
    rw [hcore 17 (by decide)]
    exact htrap
  case order => decide
  case handler =>
    rw [hcore 22 (by decide)]
    exact (hexe 22 (by decide) (by decide)).mpr (by decide)
  case returns =>
    rw [hcore 22 (by decide), hcore 18 (by decide)]
    exact hreturns
  case next =>
    constructor
    case order => decide
    case exe =>
      rw [hcore 25 (by decide)]
      exact (hexe 25 (by decide) (by decide)).mpr (by decide)
    case none =>
      intro j hj hj'
      rw [Bool.eq_false_iff]
      intro hin
      rw [hcore j (by omega)] at hin
      have hcases := (hexe j (by omega) (by omega)).mp hin
      omega

/-- The WU of cycle 9 is interrupted in cycle 17, and in cycle 25 thread 0
    executes it again. -/
theorem waitInterruptedRun_waits_again :
    SystemRun (DecodeLogic.zeros conf4tf) waitInterruptedRun interruptIn12 ∧
      instrOf (waitInterruptedRun 9).core.exeReg.inst = some .wu ∧
      InterruptedAt waitInterruptedRun (0 : Fin 4) 9 17 22 25 ∧
      EarlyInterrupt waitInterruptedRun (0 : Fin 4) 17 ∧
      ¬ WaitSpec (DecodeLogic.zeros conf4tf) waitInterruptedRun (0 : Fin 4)
        ((waitInterruptedRun 9).core.exeReg.pc + 4) 9 := by
  have hcore := waitInterruptedRun_core
  have hint := waitInterruptedRun_interruptedAt
  obtain ⟨-, ⟨-, -, hwu⟩, -, ⟨-, htakes, hearly⟩, -, hagain⟩ :=
    waitInterruptedIssues_facts
  have hext : EarlyInterrupt waitInterruptedRun (0 : Fin 4) 17 := by
    unfold EarlyInterrupt
    rw [hcore 17 (by decide)]
    exact ⟨htakes, hearly⟩
  refine ⟨waitInterruptedRun_systemRun, ?_, hint, hext, fun hspec => ?_⟩
  · rw [hcore 9 (by decide)]
    exact hwu
  · have hbehind := hspec.interrupted 17 22 25 hint hext
    rw [hcore 25 (by decide), hcore 9 (by decide), hagain] at hbehind
    exact ne_add_four _ hbehind

end Flexpret.Core
