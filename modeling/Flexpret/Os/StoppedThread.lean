import Flexpret.Core.DelayUntil
import Flexpret.Os.KernelStart

/-! # A Stopped Thread

    `osThreadSuspend`, `osThreadTerminate` and `osThreadJoin` stop a thread by
    setting its zombie bit.  The core clears the same bit when the thread's
    delay is over or its interrupt line is asserted, and then the scheduler
    issues the thread unless it is hard and has no slot.
-/

namespace Flexpret.Os

open Flexpret.Core (FlexpretConfiguration DecodeLogic CoreState SystemState SystemRun Pins csrS
  csrC)

/-! ## Section 1: The OS on the core -/

variable {b : OsBuild} {conf : FlexpretConfiguration}

/-- An instruction of the OS that writes the modes: one of an API call made in
    state `os`, one of another call of `osSchedulerSetTmodes`, and the writes of
    all modes by `osKernelStart` and `osKernelReset`. -/
inductive ModeWrite (b : OsBuild) where
  | call (os : OsState b) (call : OsCall b) (tid : Tid b) (request : TmodeRequest)
      (access : ModeAccess)
  | setTmodes (tid : Tid b) (request : TmodeRequest) (access : ModeAccess)
  | kernelStart (os : OsState b)
  | kernelReset

/-- `set_csr` or `clear_csr` on the modes is in execute. -/
def ModeAccess.InExe (s : CoreState conf) : ModeAccess → Prop
  | .setCsr bit => s.exeReg.sig.csrType = csrS ∧ s.exeReg.csrData = bit
  | .clearCsr bit => s.exeReg.sig.csrType = csrC ∧ s.exeReg.csrData = bit

/-- `write_csr` on the modes is in execute, with this word. -/
def WriteInExe (s : CoreState conf) (word : BitVec 32) : Prop :=
  s.exeReg.sig.csrType ≠ csrS ∧ s.exeReg.sig.csrType ≠ csrC ∧ s.exeReg.csrData = word

/-- The write is the one in execute. -/
def ModeWrite.InExe (s : CoreState conf) : ModeWrite b → Prop
  | .call os osCall tid request access =>
      (tid, request) ∈ osCall.modeRequests os ∧ access ∈ setThreadModeAccesses tid request ∧
        access.InExe s
  | .setTmodes tid request access =>
      access ∈ setThreadModeAccesses tid request ∧ access.InExe s
  | .kernelStart os =>
      ∃ word, WriteInExe s word ∧
        ∀ tid : Tid b, wordTmode word tid = (osKernelStart os).1.tmodes tid
  | .kernelReset => WriteInExe s 0x55555554

/-- **A run of the OS on the core**, until cycle `k`: whatever the threads
    execute, what writes the modes is the OS. -/
structure OsRun (b : OsBuild) (D : DecodeLogic conf) (sys : Nat → SystemState conf)
    (pins : Nat → Pins conf) (write : Nat → Option (ModeWrite b)) (k : Nat) : Prop where
  run : SystemRun D sys pins
  threads : conf.threads = b.hwThreadsNums
  written : ∀ i, i < k → (sys i).core.writesCsr Core.CSRs.tmodes = true →
    ∃ w, write i = some w ∧ w.InExe (sys i).core

section runs

variable (sys : Nat → SystemState conf) (pins : Nat → Pins conf)
  (write : Nat → Option (ModeWrite b)) (t : Tid b) (u : conf.Tid)

/-- In cycle `c` another thread commits the instruction that sets the zombie bit
    of `t`, in a call that stops `t` and returns `osOK`. -/
structure StoppedAt (c : Nat) : Prop where
  commits : (sys c).core.writesCsr Core.CSRs.tmodes = true
  caller : (sys c).core.exeReg.tid ≠ u
  access : ModeAccess.InExe (sys c).core (.setCsr (lbit t))
  call : ∃ os os' call, write c = some (.call os call t .zombie (.setCsr (lbit t))) ∧
    call.Stops t ∧ call.exec os = some (os', .status .osOK)

/-- In cycle `c` an instruction of `osThreadResume(t)` is committed, or one of
    an `osThreadNew` that gives `t` a function. -/
def GivenBackAt (c : Nat) : Prop :=
  ∃ os call tid request access,
    write c = some (.call os call tid request access) ∧ call.GivesBack os t

/-- In cycle `c` the OS makes `t` active in another way: `osKernelStart`,
    `osKernelReset`, or `osSchedulerSetTmodes` called by the application. -/
def RestartedAt (c : Nat) : Prop :=
  (sys c).core.writesCsr Core.CSRs.tmodes = true ∧
    (sys c).core.csrWord.getLsbD (2 * u.val) = false ∧
    ∀ os call tid request access, write c ≠ some (.call os call tid request access)

/-- In cycle `c` the core clears the zombie bit of `u`: its delay is over or its
    interrupt line is asserted. -/
def WokenAt (c : Nat) : Prop :=
  (sys c).core.csr.wake ((sys c).core.csrIn ((sys c).coreIn (pins c))) u = true

/-- Thread `u` is hard and no slot names it. -/
structure NoSlotAt (c : Nat) : Prop where
  flex : conf.flex = true
  multi : conf.threads ≠ 1
  hard : ((sys c).core.csr.regTmodes u).getLsbD 1 = false
  slots : ∀ p, (sys c).core.csr.regSlots p = Core.slotS ∨
    (sys c).core.csr.regSlots p = Core.slotD ∨
    ((sys c).core.csr.regSlots p).setWidth conf.threadBits ≠ BitVec.ofNat conf.threadBits u

/-- An instruction of `u` is issued. -/
def IssuedAt (c : Nat) : Prop :=
  ((sys c).coreIn (pins c)).valid = true ∧ ((sys c).coreIn (pins c)).thread = u

/-- **A stopped thread does not run**: nothing of `t` is issued from the stop in
    cycle `c` until cycle `k`, while it is not given back. -/
def DoesNotRun (c k : Nat) : Prop :=
  (∀ i, c < i → i < k → ¬ GivenBackAt write t i) →
    ∀ j, c < j → j ≤ k → ¬ IssuedAt sys pins u j

/-- **The condition** on the cycles from `c` until `j`: the core does not wake
    the thread, and the OS does not restart it. -/
def LeftAsleep (c j : Nat) : Prop :=
  ∀ i, c ≤ i → i < j → ¬ WokenAt sys pins u i ∧ ¬ RestartedAt sys write u i

end runs

/-! ## Section 2: The instructions of set_thread_mode -/

/-- Only a request that `t` is active clears its zombie bit. -/
theorem wakes_of_clears {t tid : Nat} {request : TmodeRequest} {bit : BitVec 32} (ht : t < 16)
    (hmem : .clearCsr bit ∈ setThreadModeAccesses tid request)
    (hclears : bit.getLsbD (2 * t) = true) : tid = t ∧ request.wakes = true := by
  have hlt : 2 * t < 32 := by omega
  have hhbit : bit ≠ hbit tid := by
    rintro rfl
    rw [hbit_getLsbD _ _ hlt, decide_eq_true_eq] at hclears
    omega
  have hlbit : bit = lbit tid → tid = t := by
    rintro rfl
    rw [lbit_getLsbD _ _ hlt, decide_eq_true_eq] at hclears
    omega
  cases request <;> simp [setThreadModeAccesses, hhbit] at hmem
  -- what is left clears the zombie bit of `tid`
  all_goals exact ⟨hlbit hmem, rfl⟩

section access

variable {s : CoreState conf} {u : conf.Tid} {access : ModeAccess}

/-- The zombie bit in the word that the instruction writes. -/
theorem csrWord_zombie_setCsr {bit : BitVec 32} (hwrites : s.writesCsr Core.CSRs.tmodes = true)
    (h : ModeAccess.InExe s (.setCsr bit)) :
    s.csrWord.getLsbD (2 * u.val) = (!s.active u || bit.getLsbD (2 * u.val)) := by
  rw [CoreState.csrWord_tmodes hwrites, if_pos h.1, BitVec.getLsbD_or,
    CoreState.toBits_tmodes_getLsbD, CoreState.active_eq, Bool.not_not, h.2]

theorem csrWord_zombie_clearCsr {bit : BitVec 32} (hwrites : s.writesCsr Core.CSRs.tmodes = true)
    (h : ModeAccess.InExe s (.clearCsr bit)) :
    s.csrWord.getLsbD (2 * u.val) = (!s.active u && !bit.getLsbD (2 * u.val)) := by
  have hlt : 2 * u.val < 32 := by
    have hu := u.isLt
    have hle := conf.threads_le
    omega
  have hne : ¬ s.exeReg.sig.csrType = csrS := by
    rw [h.1]
    decide
  rw [CoreState.csrWord_tmodes hwrites, if_neg hne, if_pos h.1, BitVec.getLsbD_and,
    BitVec.getLsbD_not, decide_eq_true hlt, Bool.true_and, CoreState.toBits_tmodes_getLsbD,
    CoreState.active_eq, Bool.not_not, h.2]

/-- An instruction of `set_thread_mode` that makes a sleeping thread active
    belongs to a request that it is active. -/
theorem wakes_of_access {t : Tid b} {tid : Nat} {request : TmodeRequest} (hu : u.val = t.val)
    (hwrites : s.writesCsr Core.CSRs.tmodes = true)
    (hmem : access ∈ setThreadModeAccesses tid request) (hexe : access.InExe s)
    (hasleep : s.active u = false) (hword : s.csrWord.getLsbD (2 * u.val) = false) :
    tid = t.val ∧ request.wakes = true := by
  cases access with
  | setCsr bit =>
    rw [csrWord_zombie_setCsr hwrites hexe, hasleep] at hword
    exact Bool.noConfusion hword
  | clearCsr bit =>
    rw [csrWord_zombie_clearCsr hwrites hexe, hasleep] at hword
    have hbit : bit.getLsbD (2 * t.val) = true := by simpa [hu] using hword
    have ht := t.isLt
    have hle := b.hwThreadsNums_le
    exact wakes_of_clears (by omega) hmem hbit

end access

/-! ## Section 3: The zombie bit of a stopped thread -/

section runs

variable {D : DecodeLogic conf} {sys : Nat → SystemState conf} {pins : Nat → Pins conf}
  {write : Nat → Option (ModeWrite b)} {t : Tid b} {u : conf.Tid} {c i k : Nat}

/-- **The stop**: the zombie bit is set, unless the core wakes the thread in the
    same cycle. -/
theorem StoppedAt.asleep (h : OsRun b D sys pins write k) (hstop : StoppedAt sys write t u c)
    (hu : u.val = t.val) :
    (sys (c + 1)).core.active u = false ↔ ¬ WokenAt sys pins u c := by
  have hlt : 2 * u.val < 32 := by
    have ht := u.isLt
    have hle := conf.threads_le
    omega
  have hbit : (lbit t).getLsbD (2 * u.val) = true := by
    rw [lbit_getLsbD _ _ hlt, hu]
    exact decide_eq_true rfl
  have hword := csrWord_zombie_setCsr (u := u) hstop.commits hstop.access
  rw [hbit, Bool.or_true] at hword
  have hcaller : decide ((sys c).core.exeReg.tid = u) = false := decide_eq_false hstop.caller
  rw [h.run.core_next, CoreState.next_active, hcaller, Bool.and_false, if_neg Bool.false_ne_true,
    if_pos hstop.commits, hword, WokenAt]
  split
  · next hwake => simp [hwake]
  · next hwake => simp [hwake]

/-- A DU or WU before its time puts its thread to sleep and writes nothing, so
    a write of the modes never meets a sleep in the same cycle. -/
theorem exeSleep_of_writesCsr (h : SystemRun D sys pins)
    (hwrites : (sys i).core.writesCsr Core.CSRs.tmodes = true) :
    (sys i).core.exeSleep = false := by
  rw [Bool.eq_false_iff]
  intro hsleep
  have hvalid := CoreState.valid_of_exeSleep hsleep
  have hdu : (sys i).core.exeReg.sig.du = true := by
    simp only [CoreState.exeSleep, CoreState.exeDu, Bool.and_eq_true] at hsleep
    exact hsleep.1.1.2
  have hcsr := ((h.core.exeDecoded i).du_only hvalid hdu).1
  simp only [CoreState.writesCsr, hcsr, Bool.false_and, Bool.false_eq_true] at hwrites

/-- **One cycle** of a stopped thread: it sleeps on unless it is woken,
    restarted or given back. -/
theorem asleep_next (h : OsRun b D sys pins write k) (hu : u.val = t.val) (hi : i < k)
    (hback : ¬ GivenBackAt write t i) (hasleep : (sys i).core.active u = false) :
    (sys (i + 1)).core.active u = false ↔
      ¬ WokenAt sys pins u i ∧ ¬ RestartedAt sys write u i := by
  rw [h.run.core_next, CoreState.next_active, WokenAt, hasleep]
  split
  · next hwake => simp [hwake]
  · next hwake =>
    cases hwrites : (sys i).core.writesCsr Core.CSRs.tmodes with
    | false =>
      simp [RestartedAt, hwrites, hwake]
    | true =>
      rw [exeSleep_of_writesCsr h.run hwrites, Bool.and_false, Bool.false_and,
        if_neg Bool.false_ne_true, if_pos rfl]
      cases hword : (sys i).core.csrWord.getLsbD (2 * u.val) with
      | true => simp [RestartedAt, hword, hwake]
      | false =>
        have hrestarted : RestartedAt sys write u i := by
          refine ⟨hwrites, hword, fun os osCall tid request access hcall => hback ?_⟩
          obtain ⟨w, hw, hrequest, hmem, hexe⟩ : ∃ w, write i = some w ∧
              (tid, request) ∈ osCall.modeRequests os ∧
                access ∈ setThreadModeAccesses tid request ∧ access.InExe (sys i).core := by
            obtain ⟨w, hw, hin⟩ := h.written i hi hwrites
            obtain rfl := Option.some.inj (hw.symm.trans hcall)
            exact ⟨_, hw, hin⟩
          obtain ⟨htid, hwakes⟩ := wakes_of_access hu hwrites hmem hexe hasleep hword
          obtain rfl : tid = t := Fin.ext htid
          exact ⟨os, osCall, tid, request, access, hcall, givesBack_of_wakes hrequest hwakes⟩
        simp [hrestarted]

/-- **Every cycle**: the thread is asleep until some cycle wakes it. -/
theorem asleep_iff (h : OsRun b D sys pins write k) (hstop : StoppedAt sys write t u c)
    (hu : u.val = t.val) (hback : ∀ i, c < i → i < k → ¬ GivenBackAt write t i) {j : Nat}
    (hcj : c < j) (hjk : j ≤ k) :
    (∀ m, c < m → m ≤ j → (sys m).core.active u = false) ↔ LeftAsleep sys pins write u c j := by
  induction j, hcj using Nat.le_induction with
  | base =>
    -- the stop itself is a call, so it restarts nobody
    have hnot : ¬ RestartedAt sys write u c := by
      intro hrestarted
      obtain ⟨os, os', osCall, hcall, -, -⟩ := hstop.call
      exact hrestarted.2.2 _ _ _ _ _ hcall
    have hasleep := hstop.asleep h hu
    constructor
    · intro hm i hci hi
      obtain rfl : i = c := by omega
      exact ⟨hasleep.mp (hm (i + 1) (Nat.lt_succ_self i) (Nat.le_refl _)), hnot⟩
    · intro hleft m hcm hm
      obtain rfl : m = c + 1 := by omega
      exact hasleep.mpr (hleft c (Nat.le_refl c) (Nat.lt_succ_self c)).1
  | succ j hcj ih =>
    have ih := ih (Nat.le_of_succ_le hjk)
    have hstep : (sys j).core.active u = false → ((sys (j + 1)).core.active u = false ↔ _) :=
      asleep_next h hu hjk (hback j hcj hjk)
    constructor
    · intro hm i hci hi
      by_cases hij : i = j
      · subst hij
        exact (hstep (hm i hcj (Nat.le_succ i))).mp (hm (i + 1) (by omega) (Nat.le_refl _))
      · exact ih.mp (fun m hcm hmj => hm m hcm (Nat.le_succ_of_le hmj)) i hci (by omega)
    · intro hleft m hcm hm
      have hbefore := ih.mpr fun i hci hi => hleft i hci (Nat.lt_succ_of_lt hi)
      by_cases hmj : m = j + 1
      · subst hmj
        exact (hstep (hbefore j hcj (Nat.le_refl j))).mpr (hleft j (Nat.le_of_succ_le hcj)
          (Nat.lt_succ_self j))
      · exact hbefore m hcm (by omega)

/-! ## Section 4: What is issued -/

/-- **No slot**: a hard thread that no slot names is not issued. -/
theorem NoSlotAt.not_issued (h : SystemRun D sys pins) {j : Nat} (hslot : NoSlotAt sys u j) :
    ¬ IssuedAt sys pins u j := by
  obtain ⟨hflex, hmt, hhard, hslots⟩ := hslot
  have hinv := h.schedulerInv j
  intro ⟨hvalid, hthread⟩
  have hid : (Core.schedulerOut (sys j).sched (sys j).schedIn).thread =
      BitVec.ofNat conf.threadBits u := by
    have hactive := Core.threadActive_of_valid hinv hvalid
    simp only [SystemState.coreIn, Core.tidOf] at hthread
    unfold Core.SchedulerIn.threadActive at hactive
    split at hactive
    · next hlt =>
      rw [dif_pos hlt] at hthread
      have hval : (Core.schedulerOut (sys j).sched (sys j).schedIn).thread.toNat = u.val :=
        congrArg Fin.val hthread
      exact BitVec.eq_of_toNat_eq (hval.trans (Core.threadId_toNat u).symm)
    · exact absurd hactive Bool.false_ne_true
  rcases Core.valid_cases hmt hflex hvalid with ⟨hgrant, hissues, hslot⟩ | ⟨hsoft, hsoftid⟩
  · -- the granted slot names `u`
    obtain ⟨p, hp⟩ := hinv.slotOH.oneHot_of_anyOf hgrant
    have hsel : Core.slotSelected (sys j).sched (sys j).schedIn = (sys j).core.csr.regSlots p :=
      Core.mux1H_oneHot hp _
    have hused : (sys j).core.csr.regSlots p ≠ Core.slotD := by
      have hrequest := Core.rrArbiter_le ((hp p).mpr rfl)
      exact of_decide_eq_true hrequest
    have hown : (sys j).core.csr.regSlots p ≠ Core.slotS := by
      rw [← hsel]
      simpa using (Bool.and_eq_true_iff.mp hissues).1
    rcases hslots p with hs | hs | hne
    · exact hown hs
    · exact hused hs
    · refine hne ?_
      rw [← hid, hslot, Core.slotThread, hsel]
  · -- the soft thread that is granted is soft
    obtain ⟨v, hv, hmode⟩ := Core.softGrant_mode hinv hsoft
    rw [hv] at hsoftid
    obtain rfl : u = v := Core.threadId_injective (hid.symm.trans hsoftid)
    have hmode' : (sys j).core.csr.regTmodes u = Core.tmodeSA := hmode
    rw [hmode'] at hhard
    exact absurd hhard (by decide)

end runs

/-- **A stopped thread** that is not given back is asleep exactly as long as
    neither the core wakes it nor the OS restarts it.  In a run in which it is
    left asleep, or is hard and without a slot, in every cycle, it does not
    run. -/
theorem stoppedThread_asleep_iff (D : DecodeLogic conf) (sys : Nat → SystemState conf)
    (pins : Nat → Pins conf) (write : Nat → Option (ModeWrite b)) (k : Nat)
    (h : OsRun b D sys pins write k) (t : Tid b) (u : conf.Tid) (hu : u.val = t.val) (c : Nat)
    (hstop : StoppedAt sys write t u c) (hck : c < k) :
    ((∀ i, c < i → i < k → ¬ GivenBackAt write t i) →
      ((∀ j, c < j → j ≤ k → (sys j).core.active u = false) ↔ LeftAsleep sys pins write u c k)) ∧
    ((∀ j, c < j → j ≤ k → LeftAsleep sys pins write u c j ∨ NoSlotAt sys u j) →
      DoesNotRun sys pins write t u c k) := by
  constructor
  · intro hback
    exact asleep_iff h hstop hu hback hck (Nat.le_refl k)
  · intro hcondition hback j hcj hjk hissued
    rcases hcondition j hcj hjk with hleft | hslot
    · have hasleep := (asleep_iff h hstop hu hback hcj hjk).mpr hleft j hcj (Nat.le_refl j)
      rw [h.run.active_of_issued hissued.1 hissued.2] at hasleep
      exact Bool.noConfusion hasleep
    · exact hslot.not_issued h.run hissued

/-! ## Section 5: A suspended thread and its interrupt line -/

/-- Thread 1 is created as a hard thread. -/
def hardThreadCreated : OsState .threads4Dspm12 :=
  (osThreadNew (initialized .threads4Dspm12) 0x800 NULL
    (some ⟨osThreadJoinable, NULL, 0, osPriorityRealtime⟩)).1

/-- What thread 0 does then: `osKernelStart` writes the slots and the modes, and
    `osThreadSuspend` sets the zombie bit of thread 1. -/
def startAndSuspend (a : Nat) : BitVec 32 :=
  if a = 0 then 0xf1000093 else if a = 1 then 0x50309073 else if a = 2 then 0x0f000113
  else if a = 3 then 0x50411073 else if a = 4 then 0x50426073 else 0x13

def startAndSuspendWrites (c : Nat) : Option (ModeWrite .threads4Dspm12) :=
  if c = 7 then some (.kernelStart hardThreadCreated)
  else if c = 8 then
    some (.call (osKernelStart hardThreadCreated).1 (.threadSuspend 1) 1 .zombie (.setCsr (lbit 1)))
  else none

/-- The interrupt line of thread 1 is asserted in cycle 10, or never. -/
def suspendPins (interrupt : Bool) (c : Nat) : Pins Core.conf4tf :=
  { Core.noPins Core.conf4tf with intExts := fun u => interrupt && c = 10 && u.val = 1 }

def suspendRun (interrupt : Bool) : Nat → SystemState Core.conf4tf :=
  Transition.Machine.trace (fun s p => SystemState.next s (DecodeLogic.zeros Core.conf4tf) p)
    (Core.systemZero Core.conf4tf startAndSuspend) (suspendPins interrupt)

/-- After the two words are written the slots of the threads 0 and 1 take turns. -/
def suspendGrant (c : Nat) : Fin 8 := if c ≤ 6 then 7 else if c % 2 = 1 then 0 else 1

def suspendThread (c : Nat) : Core.conf4tf.Tid :=
  if c ≤ 6 ∨ c % 2 = 0 then (0 : Fin 4) else (1 : Fin 4)

def suspendValid (interrupt : Bool) (c : Nat) : Bool :=
  c ≤ 6 || c % 2 = 0 || interrupt && c = 11

def suspendIssues (interrupt : Bool) : Nat → CoreState Core.conf4tf :=
  SystemRun.issueRun (DecodeLogic.zeros Core.conf4tf) (Core.coreZero Core.conf4tf startAndSuspend)
    suspendThread (suspendValid interrupt) (suspendPins interrupt)

theorem suspendRun_systemRun (interrupt : Bool) :
    SystemRun (DecodeLogic.zeros Core.conf4tf) (suspendRun interrupt) (suspendPins interrupt) :=
  Core.systemRun_trace _ _ _

/-- The schedule, and the two instructions that write the modes. -/
theorem suspendIssues_facts (interrupt : Bool) :
    (∀ c, c < 12 → SystemRun.Issues (suspendIssues interrupt c) (suspendGrant c)
      (suspendGrant (c + 1)) (suspendThread c) (suspendValid interrupt c)) ∧
    (∀ i, i < 11 → (suspendIssues interrupt i).writesCsr Core.CSRs.tmodes = true →
      i = 7 ∨ i = 8) ∧
    WriteInExe (suspendIssues interrupt 7) 0xf0 ∧
    (suspendIssues interrupt 8).writesCsr Core.CSRs.tmodes = true ∧
    (suspendIssues interrupt 8).exeReg.sig.csrType = csrS ∧
    (suspendIssues interrupt 8).exeReg.csrData = lbit 1 ∧
    (suspendIssues interrupt 8).exeReg.tid.val = 0 ∧
    (interrupt = false →
      ∀ i, i < 11 → (suspendIssues interrupt i).csr.regTimer (1 : Fin 4) = .off) := by
  unfold WriteInExe
  revert interrupt
  decide +kernel

theorem suspendRun_core (interrupt : Bool) (c : Nat) (hc : c ≤ 12) :
    (suspendRun interrupt c).core = suspendIssues interrupt c :=
  ((suspendRun_systemRun interrupt).issue_run (by decide) rfl suspendGrant suspendThread
    (suspendValid interrupt) (suspendIssues_facts interrupt).1 c hc).1

theorem suspendRun_osRun (interrupt : Bool) :
    OsRun .threads4Dspm12 (DecodeLogic.zeros Core.conf4tf) (suspendRun interrupt)
      (suspendPins interrupt) startAndSuspendWrites 11 := by
  obtain ⟨-, hcycles, hstart, -, htype, hdata, -⟩ := suspendIssues_facts interrupt
  constructor
  case run => exact suspendRun_systemRun interrupt
  case threads => rfl
  case written =>
    intro i hi hwrites
    rw [suspendRun_core interrupt i (by omega)] at hwrites ⊢
    rcases hcycles i hi hwrites with rfl | rfl
    · exact ⟨_, rfl, 0xf0, hstart, by decide +kernel⟩
    · exact ⟨_, rfl, List.mem_singleton.mpr rfl, List.mem_singleton.mpr rfl, htype, hdata⟩

/-- Thread 0 suspends thread 1 in cycle 8. -/
theorem suspendRun_stoppedAt (interrupt : Bool) :
    StoppedAt (suspendRun interrupt) startAndSuspendWrites (1 : Tid .threads4Dspm12)
      (1 : Fin 4) 8 := by
  obtain ⟨-, -, -, hwrites, htype, hdata, hcaller, -⟩ := suspendIssues_facts interrupt
  have hcore := suspendRun_core interrupt 8 (by decide)
  constructor
  case commits => rw [hcore, hwrites]
  case caller =>
    rw [hcore]
    intro heq
    exact absurd (hcaller.symm.trans (congrArg Fin.val heq)) (by decide)
  case access =>
    rw [hcore]
    exact ⟨htype, hdata⟩
  case call => exact ⟨_, _, _, rfl, .suspend, rfl⟩

/-- What is issued in a cycle is in the first register of the pipeline after it. -/
theorem suspendRun_issued (interrupt : Bool) (c : Nat) (hc : c < 12) :
    IssuedAt (suspendRun interrupt) (suspendPins interrupt) (1 : Fin 4) c ↔
      suspendValid interrupt c = true ∧ suspendThread c = (1 : Fin 4) := by
  have hnext := (suspendRun_systemRun interrupt).core_next c
  rw [suspendRun_core interrupt (c + 1) hc] at hnext
  have hvalid : suspendValid interrupt c =
      ((suspendRun interrupt c).coreIn (suspendPins interrupt c)).valid :=
    congrArg (fun s : CoreState Core.conf4tf => s.nextReg.valid) hnext
  have hthread : suspendThread c =
      ((suspendRun interrupt c).coreIn (suspendPins interrupt c)).thread :=
    congrArg (fun s : CoreState Core.conf4tf => s.nextReg.tid) hnext
  rw [hvalid, hthread]
  exact Iff.rfl

/-- Without the interrupt line nothing wakes thread 1. -/
theorem suspendRun_leftAsleep (j : Nat) (hj : j ≤ 11) :
    LeftAsleep (suspendRun false) (suspendPins false) startAndSuspendWrites (1 : Fin 4) 8 j := by
  obtain ⟨-, hcycles, -, -, -, -, -, htimer⟩ := suspendIssues_facts false
  intro i hi hi'
  have hcore := suspendRun_core false i (by omega)
  constructor
  · have hno : (suspendPins false i).intExts (1 : Fin 4) = false := rfl
    have hoff := htimer rfl i (by omega)
    rw [← hcore] at hoff
    intro hwoken
    simp only [WokenAt, Core.CsrState.wake, Core.CsrState.delayOver, hoff] at hwoken
    simp [CoreState.csrIn, SystemState.coreIn, hno] at hwoken
  · rintro ⟨hwrites, _, hnocall⟩
    rw [hcore] at hwrites
    obtain rfl : i = 8 := by
      have hcycle := hcycles i (by omega) hwrites
      omega
    exact hnocall _ _ _ _ _ rfl

theorem suspendRun_doesNotRun :
    DoesNotRun (suspendRun false) (suspendPins false) startAndSuspendWrites
      (1 : Tid .threads4Dspm12) (1 : Fin 4) 8 11 :=
  (stoppedThread_asleep_iff (DecodeLogic.zeros Core.conf4tf) (suspendRun false)
    (suspendPins false) startAndSuspendWrites 11 (suspendRun_osRun false) 1 (1 : Fin 4) rfl 8
    (suspendRun_stoppedAt false) (by decide)).2 fun j _ hj => .inl (suspendRun_leftAsleep j hj)

/-- Its interrupt line alone makes a suspended thread run. -/
theorem suspendRun_interrupt_runs :
    OsRun .threads4Dspm12 (DecodeLogic.zeros Core.conf4tf) (suspendRun true) (suspendPins true)
      startAndSuspendWrites 11 ∧
    StoppedAt (suspendRun true) startAndSuspendWrites (1 : Tid .threads4Dspm12) (1 : Fin 4) 8 ∧
    ¬ DoesNotRun (suspendRun true) (suspendPins true) startAndSuspendWrites
      (1 : Tid .threads4Dspm12) (1 : Fin 4) 8 11 := by
  refine ⟨suspendRun_osRun true, suspendRun_stoppedAt true, fun hnot => ?_⟩
  refine hnot ?_ 11 (by decide) (Nat.le_refl 11) ?_
  · rintro i hi hi' ⟨os, osCall, tid, request, access, hcall, -⟩
    have hnone : startAndSuspendWrites i = none := by
      simp only [startAndSuspendWrites]
      rw [if_neg (by omega), if_neg (by omega)]
    rw [hnone] at hcall
    exact nomatch hcall
  · exact (suspendRun_issued true 11 (by decide)).mpr ⟨rfl, rfl⟩

end Flexpret.Os
