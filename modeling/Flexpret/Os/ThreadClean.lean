import Flexpret.Os.Threads

/-! # Robust Mutexes at the End of a Thread

    What `thread_clean` does to the mutex table and the mutex CSRs.  Its loop
    assigns `owner` and `count` of a copy of the entry, so only the CSR is
    released; the next acquire then finds an owner behind a free CSR.
-/

namespace Flexpret.Os

variable {b : OsBuild}

/-! ## Section 1: A call that runs alone -/

/-- Run a call of thread `me` until it returns, while no other thread takes a
    step.  `clock n` is the time when `n` units of fuel are left. -/
def runCall {Tid : Type} [DecidableEq Tid] (me : Tid) (clock : Nat → BitVec 32) :
    Nat → MutexState Tid → MutexCsrs → Outcome → Option (MutexState Tid × MutexCsrs × OsStatus)
  | _, m, csrs, .ret status => some (m, csrs, status)
  | 0, _, _, .next _ => none
  | fuel + 1, m, csrs, .next p =>
      let r := runStep me (clock fuel) m csrs p
      runCall me clock fuel r.1 r.2.1 r.2.2

/-- The value of the CSR a mutex is tied to. -/
def csrOf (csrs : MutexCsrs) (addr : Int) : Option (BitVec 4) := (mutexCsr? addr).map csrs

/-! ## Section 2: What the end of a thread should leave -/

/-- Entry `i` is an active robust mutex that thread `t` owns. -/
def OwnsRobust (s : OsState b) (t : Tid b) (i : Fin flexpretMutexMaxNum) : Prop :=
  (s.mutex i).ifRobust = true ∧ (s.mutex i).active = true ∧ (s.mutex i).owner = some t

instance (s : OsState b) (t : Tid b) (i : Fin flexpretMutexMaxNum) :
    Decidable (OwnsRobust s t i) :=
  inferInstanceAs (Decidable (_ ∧ _ ∧ _))

/-- The next acquire of entry `i`, by any live thread other than `t` and with
    any timeout, succeeds. -/
def NextAcquireSucceeds (s : OsState b) (t : Tid b) (i : Fin flexpretMutexMaxNum) : Prop :=
  ∀ u, u ≠ t → s.live u = true → ∀ timeout clock, ∃ fuel m' csrs',
    runCall u clock fuel (s.mutex i) s.csrs (startAcquire (s.mutex i) timeout) =
      some (m', csrs', .osOK) ∧ m'.owner = some u

/-- The robust mutexes of thread `t` in `s` are released in `s'`, and no other
    mutex is touched. -/
structure RobustReleased (t : Tid b) (s s' : OsState b) : Prop where
  noOwner : ∀ i, (s'.mutex i).active = true → (s'.mutex i).ifRobust = true →
    (s'.mutex i).owner ≠ some t
  released : ∀ i, OwnsRobust s t i →
    (s'.mutex i).owner = none ∧ (s'.mutex i).count = 0 ∧
    csrOf s'.csrs (s'.mutex i).csrAddr = some 0 ∧ NextAcquireSucceeds s' t i
  others : ∀ i, ¬ OwnsRobust s t i →
    s'.mutex i = s.mutex i ∧
    csrOf s'.csrs (s'.mutex i).csrAddr = csrOf s.csrs (s.mutex i).csrAddr

/-! ## Section 3: What thread_clean leaves -/

@[simp] theorem resetThread_mutex (me t : Tid b) (s : OsState b) :
    (resetThread me t s).mutex = s.mutex := by
  simp only [resetThread]
  split <;> rfl

@[simp] theorem resetThread_csrs (me t : Tid b) (s : OsState b) :
    (resetThread me t s).csrs = s.csrs := by
  simp only [resetThread]
  split <;> rfl

@[simp] theorem releaseRobust_mutex (t : Tid b) (s : OsState b) (i : Fin flexpretMutexMaxNum) :
    (releaseRobust t s i).mutex = s.mutex := by
  simp only [releaseRobust]
  split <;> rfl

@[simp] theorem foldl_releaseRobust_mutex (t : Tid b) (l : List (Fin flexpretMutexMaxNum))
    (s : OsState b) : (l.foldl (releaseRobust t) s).mutex = s.mutex := by
  induction l generalizing s with
  | nil => rfl
  | cons i l ih => rw [List.foldl_cons, ih, releaseRobust_mutex]

/-- The table is as it was: the loop never writes to it. -/
@[simp] theorem threadClean_mutex (me t : Tid b) (s : OsState b) :
    (threadClean me t s).mutex = s.mutex := by
  simp [threadClean]

/-- Ownership reads the table only. -/
theorem ownsRobust_congr {s s' : OsState b} (h : s'.mutex = s.mutex) {t : Tid b}
    {i : Fin flexpretMutexMaxNum} : OwnsRobust s' t i ↔ OwnsRobust s t i := by
  rw [OwnsRobust, OwnsRobust, h]

theorem releaseRobust_of_not_owns {t : Tid b} {s : OsState b} {i : Fin flexpretMutexMaxNum}
    (h : ¬ OwnsRobust s t i) : releaseRobust t s i = s :=
  if_neg h

theorem releaseRobust_of_owns {t : Tid b} {s : OsState b} {i : Fin flexpretMutexMaxNum}
    (h : OwnsRobust s t i) :
    (releaseRobust t s i).csrs =
      writeMutexCsr s.csrs (s.mutex i).csrAddr flexpretMutexActive :=
  congrArg OsState.csrs (if_pos h)

/-- A thread that owns no robust mutex leaves the CSRs alone. -/
theorem threadClean_csrs_of_not_owns {t : Tid b} {s : OsState b} (h : ∀ i, ¬ OwnsRobust s t i)
    (me : Tid b) : (threadClean me t s).csrs = s.csrs := by
  have hloop : ∀ l : List (Fin flexpretMutexMaxNum),
      l.foldl (releaseRobust t) (resetThread me t s) = resetThread me t s := by
    intro l
    induction l with
    | nil => rfl
    | cons i l ih =>
      have hi := mt (ownsRobust_congr (resetThread_mutex me t s)).mp (h i)
      rw [List.foldl_cons, releaseRobust_of_not_owns hi, ih]
  simp [threadClean, hloop]

/-- The loop writes no CSR but to free it. -/
theorem releaseRobust_csr_free {t : Tid b} {s : OsState b} {k : Fin 8} (h : s.csrs k = 0)
    (i : Fin flexpretMutexMaxNum) : (releaseRobust t s i).csrs k = 0 := by
  by_cases hi : OwnsRobust s t i
  · rw [releaseRobust_of_owns hi, writeMutexCsr]
    cases mutexCsr? (s.mutex i).csrAddr with
    | none => exact h
    | some k' =>
      by_cases hk : k = k'
      · subst hk
        simp [flexpretMutexActive]
      · simpa [hk] using h
  · rw [releaseRobust_of_not_owns hi, h]

theorem foldl_releaseRobust_csr_free {t : Tid b} {k : Fin 8} {i : Fin flexpretMutexMaxNum}
    (l : List (Fin flexpretMutexMaxNum)) {s : OsState b}
    (h : s.csrs k = 0 ∨ i ∈ l ∧ OwnsRobust s t i ∧ (s.mutex i).csrAddr = k.val) :
    (l.foldl (releaseRobust t) s).csrs k = 0 := by
  induction l generalizing s with
  | nil => simpa using h
  | cons j l ih =>
    rw [List.foldl_cons]
    apply ih
    obtain h | ⟨hmem, howns, haddr⟩ := h
    · exact .inl (releaseRobust_csr_free h j)
    · obtain rfl | hmem := List.mem_cons.mp hmem
      · refine .inl ?_
        rw [releaseRobust_of_owns howns, haddr, writeMutexCsr_natCast]
        simp [flexpretMutexActive]
      · refine .inr ⟨hmem, (ownsRobust_congr (releaseRobust_mutex t s j)).mpr howns, ?_⟩
        rw [releaseRobust_mutex, haddr]

/-- The CSR of a robust mutex the thread owned is free. -/
theorem threadClean_csr_free {t : Tid b} {s : OsState b} {i : Fin flexpretMutexMaxNum}
    {k : Fin 8} (howns : OwnsRobust s t i) (haddr : (s.mutex i).csrAddr = k.val) (me : Tid b) :
    (threadClean me t s).csrs k = 0 := by
  refine foldl_releaseRobust_csr_free (s := resetThread me t s) (i := i) _
    (.inr ⟨List.mem_finRange i, ?_, ?_⟩)
  · exact (ownsRobust_congr (resetThread_mutex me t s)).mpr howns
  · rw [resetThread_mutex, haddr]

/-! ## Section 4: Robust mutexes are not released -/

/-- Behind the free CSR the old owner still stands, and the next acquire, by
    whichever thread and with whatever timeout, is an error that leaves it
    there. -/
theorem acquire_after_threadClean {t u : Tid b} {s : OsState b} {i : Fin flexpretMutexMaxNum}
    {k : Fin 8} (howns : OwnsRobust s t i) (haddr : (s.mutex i).csrAddr = k.val) (me : Tid b)
    (timeout : BitVec 32) (clock : Nat → BitVec 32) :
    runCall u clock 3 ((threadClean me t s).mutex i) (threadClean me t s).csrs
        (startAcquire ((threadClean me t s).mutex i) timeout) =
      some (s.mutex i, (threadClean me t s).csrs, .osError) := by
  have hfree := threadClean_csr_free howns haddr me
  rw [threadClean_mutex]
  simp [startAcquire, howns.2.1, howns.2.2, runCall, runStep, trySwap, haddr, hfree,
    flexpretMutexActive, flexpretMutexInactive]

/-- **Robust mutexes**: the end of a thread releases its robust mutexes, and
    touches no other, exactly when it owns none. -/
theorem threadClean_releases_iff (me t : Tid b) (s : OsState b) :
    RobustReleased t s (threadClean me t s) ↔ ∀ i, ¬ OwnsRobust s t i := by
  constructor
  · rintro h i ⟨hrobust, hactive, howner⟩
    refine h.noOwner i ?_ ?_ ?_
    · rw [threadClean_mutex, hactive]
    · rw [threadClean_mutex, hrobust]
    · rw [threadClean_mutex, howner]
  · intro h
    refine ⟨fun i hactive hrobust howner => ?_, fun i howns => absurd howns (h i),
      fun i _ => ?_⟩
    · rw [threadClean_mutex] at hactive hrobust howner
      exact h i ⟨hrobust, hactive, howner⟩
    · rw [threadClean_mutex, threadClean_csrs_of_not_owns h]
      exact ⟨rfl, rfl⟩

/-- Thread 1 of three holds a robust mutex, in entry 0. -/
def robustHeld : OsState .threads8 where
  slots := #v[0, 1, 2, slotD, slotD, slotD, slotD, slotD]
  tmodes := fun t => if t.val < 3 then tmodeHA else tmodeSZ
  thread := fun t =>
    { func := if t.val < 3 then 0x400 else NULL
      state := if t.val < 3 then .active else .inactive
      arg := NULL
      stackAddress := OsBuild.threads8.flexpretThreadInitStackAddr t }
  attr := fun _ => { flexpretThreadInitAttr with priority := osPriorityRealtime }
  flexpretThreadNum := 3
  defaultSoftSlotId := -1
  kernelState := .osKernelRunning
  timer := fun _ => ⟨0, NULL, NULL⟩
  timerActive := fun _ => false
  compare := fun _ => 0
  mutex := fun i =>
    { (osMutexNewEntry ⟨false, true⟩ i : MutexState (Tid .threads8)) with
      owner := if i = 0 then some 1 else none
      count := if i = 0 then 1 else 0
      active := i = 0 }
  flexpretMutexNum := 1
  csrs := fun _ => 1

/-- Thread 0 terminates thread 1, and thread 2's acquire of the mutex fails. -/
theorem robustHeld_not_released :
    ¬ RobustReleased 1 robustHeld (threadClean 0 1 robustHeld) ∧
    runCall (2 : Tid .threads8) (fun _ => 0) 3 ((threadClean 0 1 robustHeld).mutex 0)
        (threadClean 0 1 robustHeld).csrs
        (startAcquire ((threadClean 0 1 robustHeld).mutex 0) osWaitForever) =
      some (robustHeld.mutex 0, (threadClean 0 1 robustHeld).csrs, .osError) := by
  have howns : OwnsRobust robustHeld 1 0 := ⟨rfl, rfl, rfl⟩
  refine ⟨fun h => ?_, acquire_after_threadClean (k := 0) howns rfl 0 osWaitForever _⟩
  refine h.noOwner 0 ?_ ?_ ?_
  · rw [threadClean_mutex, howns.2.1]
  · rw [threadClean_mutex, howns.1]
  · rw [threadClean_mutex, howns.2.2]

end Flexpret.Os
