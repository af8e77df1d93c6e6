import Flexpret.Core.PipelineThread
import Flexpret.Core.SchedulerRate

/-! # The Core with its Scheduler

    In every cycle the scheduler takes the slots and the thread modes from the
    CSR unit and decides which thread the core fetches next.
-/

open Transition

namespace Flexpret.Core

/-! ## Section 1: State -/

variable (conf : FlexpretConfiguration)

/-- What comes from outside of the core: the bus, the pins and the interrupt
    lines. -/
structure Pins where
  busDataOut : BitVec 32
  gpioIn : Fin 4 → BitVec 1
  intExts : conf.Tid → Bool

/-- A cycle in which nothing comes from outside. -/
def noPins : Pins conf where
  busDataOut := 0
  gpioIn := fun _ => 0
  intExts := fun _ => false

structure SystemState where
  core : CoreState conf
  sched : SchedulerState conf

/-- The system after reset with a program in the instruction scratchpad. -/
def systemZero (program : Nat → BitVec 32) : SystemState conf where
  core := coreZero conf program
  sched := schedulerReset conf

variable {conf}

/-- The scheduler may issue `t`: its mode is `HA` or `SA`. -/
def CoreState.active (s : CoreState conf) (t : conf.Tid) : Bool :=
  s.csr.regTmodes t = tmodeHA || s.csr.regTmodes t = tmodeSA

/-- The thread of an id.  A slot may give an id that no thread has; the cycle
    is not valid then. -/
def tidOf (id : BitVec conf.threadBits) : conf.Tid :=
  if h : id.toNat < conf.threads then ⟨id.toNat, h⟩ else 0

namespace SystemState

variable (s : SystemState conf)

/-- What the scheduler sees. -/
def schedIn : SchedulerIn conf where
  slots := s.core.csr.regSlots
  threadModes := s.core.csr.regTmodes

/-- What the core sees. -/
def coreIn (p : Pins conf) : CoreIn conf where
  thread := tidOf (schedulerOut s.sched s.schedIn).thread
  valid := (schedulerOut s.sched s.schedIn).valid
  busDataOut := p.busDataOut
  gpioIn := p.gpioIn
  intExts := p.intExts

/-- **One clock cycle** of the system. -/
def next (D : DecodeLogic conf) (p : Pins conf) : SystemState conf where
  core := s.core.next D (s.coreIn p)
  sched := schedulerNext s.sched s.schedIn

end SystemState

/-- **A run** of the system from reset. -/
structure SystemRun (D : DecodeLogic conf) (sys : Nat → SystemState conf)
    (pins : Nat → Pins conf) : Prop where
  reset : CoreReset conf (sys 0).core
  sched : (sys 0).sched = schedulerReset conf
  next : ∀ c, sys (c + 1) = (sys c).next D (pins c)

theorem systemRun_trace (D : DecodeLogic conf) (program : Nat → BitVec 32)
    (pins : Nat → Pins conf) :
    SystemRun D (Machine.trace (fun s p => SystemState.next s D p) (systemZero conf program) pins)
      pins :=
  ⟨coreZero_reset conf program, rfl, fun _ => rfl⟩

/-! ## Section 2: The core of a run -/

namespace SystemRun

variable {D : DecodeLogic conf} {sys : Nat → SystemState conf} {pins : Nat → Pins conf}

theorem schedulerInv (h : SystemRun D sys pins) (c : Nat) : SchedulerInv (sys c).sched := by
  induction c with
  | zero =>
    rw [h.sched]
    exact schedulerInv_reset
  | succ c ih =>
    rw [h.next]
    exact schedulerInv_next ih _

theorem core (h : SystemRun D sys pins) :
    CoreRun D (fun c => (sys c).core) fun c => (sys c).coreIn (pins c) := by
  constructor
  case reset => exact h.reset
  case next =>
    intro c
    show (sys (c + 1)).core = _
    rw [h.next]
    rfl

theorem core_next (h : SystemRun D sys pins) (c : Nat) :
    (sys (c + 1)).core = (sys c).core.next D ((sys c).coreIn (pins c)) := by
  rw [h.next]
  rfl

/-- What is valid in execute has been issued four cycles before. -/
theorem issued_of_exe (h : SystemRun D sys pins) {c : Nat}
    (hvalid : (sys c).core.exeReg.valid = true) : 4 ≤ c := by
  have hcore := h.core
  have hexe : ∀ c, (sys (c + 1)).core.exeReg.valid = true → (sys c).core.decReg.valid = true := by
    intro c hv
    rw [h.next] at hv
    exact (Bool.and_eq_true_iff.mp hv).1
  have hdec : ∀ c, (sys (c + 1)).core.decReg.valid = true → (sys c).core.ifReg.valid = true := by
    intro c hv
    rw [h.next] at hv
    have hpre : (sys c).core.ifPreValid D = true := (Bool.and_eq_true_iff.mp hv).1
    simp only [CoreState.ifPreValid, Bool.and_eq_true] at hpre
    exact hpre.1.1
  have hif : ∀ c, (sys (c + 1)).core.ifReg.valid = true → (sys c).core.nextReg.valid = true := by
    intro c hv
    rw [h.next] at hv
    exact hv
  have hreset := h.reset
  rcases c with _ | _ | _ | _ | c
  · rw [hreset.exeValid] at hvalid
    exact Bool.noConfusion hvalid
  · have hv := hexe 0 hvalid
    rw [hreset.decValid] at hv
    exact Bool.noConfusion hv
  · have hv := hdec 0 (hexe 1 hvalid)
    rw [hreset.ifValid] at hv
    exact Bool.noConfusion hv
  · have hv := hif 0 (hdec 1 (hexe 2 hvalid))
    rw [hreset.nextValid] at hv
    exact Bool.noConfusion hv
  · omega

/-- **Only active threads are issued**. -/
theorem active_of_issued (h : SystemRun D sys pins) {t : conf.Tid} {c : Nat}
    (hvalid : ((sys c).coreIn (pins c)).valid = true)
    (htid : ((sys c).coreIn (pins c)).thread = t) : (sys c).core.active t = true := by
  have hactive := threadActive_of_valid (h.schedulerInv c) hvalid
  simp only [SystemState.coreIn, tidOf] at htid
  unfold SchedulerIn.threadActive at hactive
  split at hactive
  · next hlt =>
    rw [dif_pos hlt] at htid
    rw [htid] at hactive
    exact hactive
  · exact absurd hactive Bool.false_ne_true

/-- A fetch of `t` has been issued two cycles before. -/
theorem issued_of_inFetch (h : SystemRun D sys pins) {t : conf.Tid} {c : Nat}
    (hfetch : (sys c).core.inFetch t = true) :
    ∃ d, c = d + 2 ∧ (sys d).core.active t = true := by
  obtain ⟨hvalid, htid⟩ := CoreState.inFetch_iff.mp hfetch
  match c with
  | 0 =>
    rw [h.reset.ifValid] at hvalid
    exact Bool.noConfusion hvalid
  | 1 =>
    rw [h.next] at hvalid
    change (sys 0).core.nextReg.valid = true at hvalid
    rw [h.reset.nextValid] at hvalid
    exact Bool.noConfusion hvalid
  | d + 2 =>
    rw [h.next (d + 1), h.next d] at hvalid htid
    exact ⟨d, rfl, h.active_of_issued hvalid htid⟩

/-! ## Section 3: The round robin of the inflexible core -/

theorem currentThread_eq (h : SystemRun D sys pins) (c : Nat) :
    (sys c).sched.currentThread.toNat = c % conf.threads := by
  have hpos := conf.threads_pos
  induction c with
  | zero =>
    rw [h.sched, Nat.zero_mod]
    rfl
  | succ c ih =>
    rw [h.next]
    show (if (sys c).sched.currentThread.toNat < conf.threads - 1 then
      (sys c).sched.currentThread + 1 else 0).toNat = _
    rw [ih, ← Nat.mod_add_mod]
    have hmod := Nat.mod_lt c hpos
    split
    · next hlt =>
      have hlt' : c % conf.threads + 1 < conf.threads := by omega
      have hwidth : c % conf.threads + 1 < 2 ^ conf.threadBits :=
        conf.tid_lt_two_pow ⟨c % conf.threads + 1, hlt'⟩
      have hbits : 0 < conf.threadBits := Nat.lt_of_lt_of_le Nat.one_pos (Nat.le_max_left _ _)
      have hone : (1 : BitVec conf.threadBits).toNat = 1 := BitVec.toNat_one hbits
      rw [BitVec.toNat_add, ih, hone, Nat.mod_eq_of_lt hwidth, Nat.mod_eq_of_lt hlt']
    · next hge =>
      have hlast : c % conf.threads + 1 = conf.threads := by omega
      rw [hlast, Nat.mod_self]
      rfl

/-- The inflexible core issues its threads in turn. -/
theorem thread_eq (h : SystemRun D sys pins) (hflex : conf.flex = false)
    (hmt : conf.threads ≠ 1) (c : Nat) :
    ((sys c).coreIn (pins c)).thread.val = c % conf.threads := by
  have hrr : conf.roundRobin = true := by simp [FlexpretConfiguration.roundRobin, hflex]
  have hlt := Nat.mod_lt c conf.threads_pos
  have hout : (schedulerOut (sys c).sched (sys c).schedIn).thread =
      (sys c).sched.currentThread := by
    rw [schedulerOut, if_neg hmt, if_pos hrr]
  show (tidOf (schedulerOut (sys c).sched (sys c).schedIn).thread).val = _
  rw [hout, tidOf, dif_pos (by rw [h.currentThread_eq]; exact hlt)]
  exact h.currentThread_eq c

/-- Without bypassing the stages from fetch to execute hold different threads. -/
theorem stages_apart (h : SystemRun D sys pins) (hbypass : conf.bypassing = false) {c : Nat}
    (hvalid : (sys c).core.exeReg.valid = true) :
    (sys c).core.decReg.tid ≠ (sys c).core.exeReg.tid ∧
      (sys c).core.ifReg.tid ≠ (sys c).core.exeReg.tid := by
  obtain ⟨k, rfl⟩ : ∃ k, c = k + 4 := ⟨c - 4, by have := h.issued_of_exe hvalid; omega⟩
  have hconf : 4 ≤ conf.threads ∧ conf.flex = false := by
    simpa [FlexpretConfiguration.bypassing] using hbypass
  have hthread := h.thread_eq hconf.2 (by omega)
  have hexe : (sys (k + 4)).core.exeReg.tid = ((sys k).coreIn (pins k)).thread := by
    rw [h.next (k + 3), h.next (k + 2), h.next (k + 1), h.next k]
    rfl
  have hdec : (sys (k + 4)).core.decReg.tid = ((sys (k + 1)).coreIn (pins (k + 1))).thread := by
    rw [h.next (k + 3), h.next (k + 2), h.next (k + 1)]
    rfl
  have hif : (sys (k + 4)).core.ifReg.tid = ((sys (k + 2)).coreIn (pins (k + 2))).thread := by
    rw [h.next (k + 3), h.next (k + 2)]
    rfl
  -- the threads issued one and two cycles later are others
  have hne : ∀ d, 0 < d → d < conf.threads → (k + d) % conf.threads ≠ k % conf.threads := by
    intro d hd hlt heq
    have hzero := Nat.sub_mod_eq_zero_of_mod_eq heq
    rw [Nat.add_sub_cancel_left, Nat.mod_eq_of_lt hlt] at hzero
    omega
  rw [hexe, hdec, hif]
  constructor
  · intro heq
    exact hne 1 (by omega) (by omega) (by rw [← hthread, ← hthread, heq])
  · intro heq
    exact hne 2 (by omega) (by omega) (by rw [← hthread, ← hthread, heq])

/-! ## Section 4: Runs that follow the slots -/

/-- After slot `last` slot `p` is granted.  It is that of thread `t`, which is active or
    not while no soft thread is, or a soft slot while `t` is the only one of them. -/
structure Issues (s : CoreState conf) (last p : Fin 8) (t : conf.Tid) (valid : Bool) : Prop where
  next : RoundRobin.IsNext (requestSet fun q => s.csr.regSlots q ≠ slotD) last p
  turn : (s.csr.regSlots p = slotOf t ∧ s.active t = valid ∧
      (valid = true ∨ ∀ u, s.csr.regTmodes u ≠ tmodeSA)) ∨
    (s.csr.regSlots p = slotS ∧ valid = true ∧
      ∀ u, s.csr.regTmodes u = tmodeSA ↔ u.val = t.val)

theorem issues_iff_turn {s : CoreState conf} {last p : Fin 8} {t : conf.Tid} {valid : Bool} :
    Issues s last p t valid ↔
      RoundRobin.IsNext (requestSet fun q => s.csr.regSlots q ≠ slotD) last p ∧
      ((s.csr.regSlots p = slotOf t ∧ s.active t = valid ∧
          (valid = true ∨ ∀ u, s.csr.regTmodes u ≠ tmodeSA)) ∨
        (s.csr.regSlots p = slotS ∧ valid = true ∧
          ∀ u, s.csr.regTmodes u = tmodeSA ↔ u.val = t.val)) := by
  constructor
  · intro h
    exact ⟨h.next, h.turn⟩
  · rintro ⟨hnext, hturn⟩
    exact ⟨hnext, hturn⟩

instance (s : CoreState conf) (last p : Fin 8) (t : conf.Tid) (valid : Bool) :
    Decidable (Issues s last p t valid) :=
  decidable_of_iff _ issues_iff_turn.symm

/-- The scheduler issues `t`, or would if it were active. -/
def issueIn (t : conf.Tid) (valid : Bool) (p : Pins conf) : CoreIn conf where
  thread := t
  valid := valid
  busDataOut := p.busDataOut
  gpioIn := p.gpioIn
  intExts := p.intExts

theorem coreIn_of_issues (hmt : conf.threads ≠ 1) (hflex : conf.flex = true)
    {s : SystemState conf} {last p : Fin 8} {t : conf.Tid} {valid : Bool}
    (hinv : SchedulerInv s.sched) (hp : OneHot (slotGrantOH s.sched s.schedIn) p)
    (h : Issues s.core last p t valid) (i : Pins conf) : s.coreIn i = issueIn t valid i := by
  -- the thread id that the scheduler puts out is wide enough
  have htid : tidOf (BitVec.ofNat conf.threadBits t) = t := by
    rw [tidOf, dif_pos (by rw [threadId_toNat]; exact t.isLt)]
    exact Fin.ext (threadId_toNat t)
  have hactive : s.schedIn.threadActive (BitVec.ofNat conf.threadBits t) = s.core.active t := by
    rw [Bool.eq_iff_iff, threadActive_tid]
    simp [CoreState.active, SystemState.schedIn]
  have hout : schedulerOut s.sched s.schedIn =
      { thread := BitVec.ofNat conf.threadBits t, valid := valid } := by
    rcases h.turn with ⟨hslot, hvalid, rfl | hhard⟩ | ⟨hslot, rfl, hsoft⟩
    · exact schedulerOut_own hmt hflex hp hslot (hactive.trans hvalid)
    · have hown : s.schedIn.slots p = slotOf t := hslot
      rw [schedulerOut_hard hmt hflex hinv hp hhard, hown, slotOf_setWidth, hactive, hvalid,
        decide_eq_true (slotOf_ne_slotS t), Bool.true_and]
    · exact schedulerOut_soft hmt hflex hinv hp hslot fun u => (hsoft u).trans Fin.val_inj
  rw [SystemState.coreIn, hout, htid]
  rfl

/-- The register of a granted slot holds that slot. -/
theorem slotOH_next {s : SchedulerState conf} {inp : SchedulerIn conf} {p : Fin 8}
    (hp : OneHot (slotGrantOH s inp) p) : OneHot (schedulerNext s inp).slotOH p := by
  have hvalid : slotGrantValid s inp = true := anyOf_eq_true_iff.mpr ⟨p, (hp p).mpr rfl⟩
  show OneHot (if slotGrantValid s inp then slotGrantOH s inp else s.slotOH) p
  rw [if_pos hvalid]
  exact hp

/-- The core of a run, with the schedule given. -/
def issueRun (D : DecodeLogic conf) (s₀ : CoreState conf) (thread : Nat → conf.Tid)
    (valid : Nat → Bool) (pins : Nat → Pins conf) : Nat → CoreState conf :=
  Machine.trace (CoreState.next D) s₀ fun c => issueIn (thread c) (valid c) (pins c)

/-- **A run with the schedule given** is a run of the core when the schedule follows the
    slots. -/
theorem issue_run (h : SystemRun D sys pins) (hmt : conf.threads ≠ 1) (hflex : conf.flex = true)
    (grant : Nat → Fin 8) (thread : Nat → conf.Tid) (valid : Nat → Bool) {n : Nat}
    (hissues : ∀ c, c < n → Issues (issueRun D (sys 0).core thread valid pins c) (grant c)
      (grant (c + 1)) (thread c) (valid c))
    (c : Nat) (hc : c ≤ n) :
    (sys c).core = issueRun D (sys 0).core thread valid pins c ∧
      (0 < c → OneHot (sys c).sched.slotOH (grant c)) := by
  induction c with
  | zero => exact ⟨rfl, fun hlt => absurd hlt (Nat.lt_irrefl 0)⟩
  | succ c ih =>
    obtain ⟨hcore, hlast⟩ := ih (Nat.le_of_succ_le hc)
    have hissue : Issues (sys c).core (grant c) (grant (c + 1)) (thread c) (valid c) :=
      hcore ▸ hissues c hc
    have hmem := mem_requestSet.mp hissue.next.mem
    have hrequest : ∃ q, decide ((sys c).core.csr.regSlots q ≠ slotD) = true :=
      ⟨grant (c + 1), hmem⟩
    have honehot : OneHot (slotGrantOH (sys c).sched (sys c).schedIn) (grant (c + 1)) := by
      cases c with
      | zero =>
        -- after reset slot 7 is the only one in use
        have honly : ∀ q, (sys 0).core.csr.regSlots q ≠ slotD → q = 7 := by
          intro q hq
          by_contra hne
          rw [h.reset.csr.slots q, if_neg hne] at hq
          exact hq rfl
        obtain ⟨g, hg⟩ := (h.schedulerInv 0).slotOH.exists_grant hrequest
        have hg7 := honly g (of_decide_eq_true (rrArbiter_le ((hg g).mpr rfl)))
        have hp7 := honly (grant (0 + 1)) (of_decide_eq_true hmem)
        rw [hp7, ← hg7]
        exact hg
      | succ c =>
        -- the arbiter grants the request that follows the last, which is unique
        obtain ⟨g, hg, hisNext⟩ := rrArbiter_isNext (hlast (Nat.succ_pos c)) hrequest
        rw [hissue.next.unique hisNext]
        exact hg
    constructor
    · rw [h.core_next, coreIn_of_issues hmt hflex (h.schedulerInv c) honehot hissue, hcore]
      rfl
    · intro _
      rw [h.next]
      exact slotOH_next honehot

end SystemRun

end Flexpret.Core
