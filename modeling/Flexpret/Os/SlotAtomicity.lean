import Flexpret.Os.MutexSafety
import Flexpret.Os.Schedulability
import Flexpret.Os.SlotCalls

/-! # Slot Calls of Many Threads

    Any number of threads make the calls that change the slots, and their
    atomic steps interleave freely: those of `osMutexAcquire` and
    `osMutexRelease` on `slot_mutex`, whose results the calls ignore, and the
    accesses in between.  Mutual exclusion makes every call a critical section,
    so slots and results are those of the calls made one after the other.
-/

open Transition CriticalSection

namespace Flexpret.Os

variable {b : OsBuild}

/-! ## Section 1: The calls -/

variable (b) in
/-- The calls that change the slots. -/
inductive SlotCall where
  | osSchedulerSetSlotNum (tid : Tid b) (count : Int)
  | osSchedulerSetSoftSlotNum (count : Int)
  | changeSrttToHrtt (tid : Tid b)
  | changeHrttToSrtt (tid : Tid b)
  | srttTerminate (tid : Tid b)
  | threadAfterCreate (tid : Tid b)

/-- What the call does and returns when it is alone; `none` for `void`. -/
def SlotCall.execute (s : OsState b) : SlotCall b → OsState b × Option OsStatus
  | .osSchedulerSetSlotNum tid count =>
      let r := Os.osSchedulerSetSlotNum s tid count
      (r.1, some r.2)
  | .osSchedulerSetSoftSlotNum count =>
      let r := Os.osSchedulerSetSoftSlotNum s count
      (r.1, some r.2)
  | .changeSrttToHrtt tid => (Os.changeSrttToHrtt s tid, none)
  | .changeHrttToSrtt tid => (Os.changeHrttToSrtt s tid, none)
  | .srttTerminate tid => (Os.srttTerminate s tid, none)
  | .threadAfterCreate tid => (Os.threadAfterCreate s tid, none)

/-- A bad count is turned down before the mutex is asked for. -/
def SlotCall.refuse : SlotCall b → Option (Option OsStatus)
  | .osSchedulerSetSlotNum _ count | .osSchedulerSetSoftSlotNum count =>
      if count < 0 ∨ count ≥ flexpretMaxHwThreadsNums - 1 then some (some .osErrorParameter)
      else none
  | _ => none

/-- The accesses between `osMutexAcquire` and `osMutexRelease`. -/
def SlotCall.body : SlotCall b → Prog (OsState b) (Option OsStatus)
  | .osSchedulerSetSlotNum tid count => do
      let ret ← setSlotNumSteps (slotT tid) count.toNat
      return some ret
  | .osSchedulerSetSoftSlotNum count => do
      let ret ← setSlotNumSteps slotS count.toNat
      return some ret
  | .changeSrttToHrtt tid => do
      changeSrttToHrttSteps tid
      return none
  | .changeHrttToSrtt tid => do
      changeHrttToSrttSteps tid
      return none
  | .srttTerminate tid => do
      srttTerminateSteps tid
      return none
  | .threadAfterCreate tid => do
      threadAfterCreateSteps tid
      return none

/-- The slots behind `slot_mutex`. -/
def slotObject : LockedObject (SlotCall b) (OsState b) (Option OsStatus) where
  refuse := SlotCall.refuse
  body := SlotCall.body

/-- Alone, the accesses are the call. -/
theorem slotObject_exec : (slotObject (b := b)).exec = SlotCall.execute := by
  funext s call
  cases call with
  | osSchedulerSetSlotNum tid count =>
    by_cases hcount : count < 0 ∨ count ≥ flexpretMaxHwThreadsNums - 1
    · have hrefuse : slotObject.refuse (.osSchedulerSetSlotNum tid count) =
          some (some .osErrorParameter) := if_pos hcount
      rw [LockedObject.exec_of_refuse hrefuse, SlotCall.execute, Os.osSchedulerSetSlotNum,
        if_pos hcount]
    · have haccept : slotObject.refuse (.osSchedulerSetSlotNum tid count) = none := if_neg hcount
      rw [LockedObject.exec_of_accept haccept, SlotCall.execute, Os.osSchedulerSetSlotNum,
        if_neg hcount]
      simp [slotObject, SlotCall.body]
  | osSchedulerSetSoftSlotNum count =>
    by_cases hcount : count < 0 ∨ count ≥ flexpretMaxHwThreadsNums - 1
    · have hrefuse : (slotObject (b := b)).refuse (.osSchedulerSetSoftSlotNum count) =
          some (some .osErrorParameter) := if_pos hcount
      rw [LockedObject.exec_of_refuse hrefuse, SlotCall.execute, Os.osSchedulerSetSoftSlotNum,
        if_pos hcount]
    · have haccept : (slotObject (b := b)).refuse (.osSchedulerSetSoftSlotNum count) = none :=
        if_neg hcount
      rw [LockedObject.exec_of_accept haccept, SlotCall.execute, Os.osSchedulerSetSoftSlotNum,
        if_neg hcount]
      simp [slotObject, SlotCall.body]
  | changeSrttToHrtt tid =>
    rw [LockedObject.exec_of_accept rfl]
    simp [slotObject, SlotCall.body, SlotCall.execute, run_changeSrttToHrttSteps]
  | changeHrttToSrtt tid =>
    rw [LockedObject.exec_of_accept rfl]
    simp [slotObject, SlotCall.body, SlotCall.execute, run_changeHrttToSrttSteps]
  | srttTerminate tid =>
    rw [LockedObject.exec_of_accept rfl]
    simp [slotObject, SlotCall.body, SlotCall.execute, run_srttTerminateSteps]
  | threadAfterCreate tid =>
    rw [LockedObject.exec_of_accept rfl]
    simp [slotObject, SlotCall.body, SlotCall.execute, run_threadAfterCreateSteps]

/-! ## Section 2: The interleaved system -/

section system

variable {Thread : Type} [DecidableEq Thread]

variable (b Thread) in
/-- `slot_mutex` with every thread's program point in its functions, and the
    slots with every thread's place in its call. -/
structure SlotSys where
  lock : MutexSys Thread
  calls : Sections Thread (SlotCall b) (OsState b) (Option OsStatus)

/-- Steps of the system. -/
inductive SlotAction (b : OsBuild) (Thread : Type) where
  /-- Thread `t` makes a call. -/
  | call (t : Thread) (c : SlotCall b)
  /-- The next step of its `osMutexAcquire` or `osMutexRelease`. -/
  | mutex (t : Thread) (now : BitVec 32)
  /-- The next access in between, or the call of `osMutexRelease`. -/
  | access (t : Thread)

/-- After a step of `osMutexAcquire`: when it has returned, whatever it has
    returned, the call goes on. -/
def SlotSys.acquiring (s : SlotSys b Thread) (t : Thread) (c : SlotCall b)
    (lock : MutexSys Thread) : SlotSys b Thread where
  lock := lock
  calls := s.calls.moveTo t (if (lock.pc t).isNone then .inside c c.body else .waiting c)

/-- After a step of `osMutexRelease`: when it has returned, so does the call. -/
def SlotSys.releasing (s : SlotSys b Thread) (t : Thread) (c : SlotCall b)
    (r : Option OsStatus) (lock : MutexSys Thread) : SlotSys b Thread where
  lock := lock
  calls :=
    if (lock.pc t).isNone then (s.calls.deliver t r).moveTo t .outside
    else s.calls.moveTo t (.leaving c r)

/-- One step of the system, when the thread's place allows it. -/
def slotStep (s : SlotSys b Thread) : SlotAction b Thread → Option (SlotSys b Thread)
  | .call t c =>
      match s.calls.place t with
      | .outside =>
          match c.refuse with
          | some r => some { s with calls := (s.calls.record t c).deliver t r }
          | none =>
              (mutexStep s.lock (.acquire t osWaitForever)).map
                ({ s with calls := s.calls.record t c }.acquiring t c)
      | _ => none
  | .mutex t now =>
      match s.calls.place t with
      | .waiting c => (mutexStep s.lock (.run t now)).map (s.acquiring t c)
      | .leaving c r => (mutexStep s.lock (.run t now)).map (s.releasing t c r)
      | _ => none
  | .access t =>
      match s.calls.place t with
      | .inside c (.access write next) =>
          some { s with
            calls := { s.calls with shared := write s.calls.shared }.moveTo t
              (.inside c (next s.calls.shared)) }
      | .inside c (.ret r) => (mutexStep s.lock (.release t)).map (s.releasing t c r)
      | _ => none

/-- Nobody has called anything since `osKernelInitialize` made `slot_mutex`,
    entry 0. -/
structure SlotInit (s : SlotSys b Thread) : Prop where
  lock : mutexInit 0 s.lock
  calls : Fresh s.calls

variable (b Thread) in
/-- The interleavings of all threads' calls. -/
def slotSystem : System (SlotSys b Thread) (SlotAction b Thread) :=
  System.ofStep SlotInit slotStep

/-! ## Section 3: The mutex functions as the calls use them -/

/-- Program points of `osMutexAcquire(slot_mutex, osWaitForever)` by a thread
    that does not have the mutex. -/
def Pc.forever : Pc → Bool
  | .acqSwap timeout | .acqReadOwner timeout => timeout = osWaitForever
  | .acqCheckOwner | .acqWriteOwner | .acqWriteCount | .foreverSwap | .foreverDelay => true
  | _ => false

/-- What thread `t` has of the mutex while its call stands at a place. -/
def Place.LockAt (lock : MutexSys Thread) (t : Thread) :
    Place (SlotCall b) (OsState b) (Option OsStatus) → Prop
  | .outside => lock.pc t = none ∧ lock.depth t = 0
  | .waiting _ => (∃ p, lock.pc t = some p ∧ p.forever = true) ∧ lock.depth t = 0
  | .inside .. => lock.pc t = none ∧ lock.depth t = 1
  | .leaving .. => (∃ p, lock.pc t = some p ∧ p.inRelease = true) ∧ lock.depth t = 1

/-- A thread with the mutex is the only one. -/
theorem MutexInv.depth_others {mid : Fin 8} {s : MutexSys Thread} (h : MutexInv mid s)
    {t : Thread} (ht : s.depth t ≠ 0) {u : Thread} (hu : u ≠ t) : s.depth u = 0 := by
  obtain ⟨-, -, hothers⟩ | ⟨holder, -, -, hothers⟩ := h.holder
  · exact (hothers u).depth
  · have hholder : t = holder := by
      by_contra hne
      exact ht (hothers t hne).2.depth
    exact (hothers u (hholder ▸ hu)).2.depth

/-- What the mutex is like for the thread that has it. -/
theorem MutexInv.holderInv_of_depth {mid : Fin 8} {s : MutexSys Thread} (h : MutexInv mid s)
    {t : Thread} (ht : s.depth t ≠ 0) : holderInv s.mutex t (s.depth t) (s.pc t) := by
  obtain ⟨-, -, hothers⟩ | ⟨holder, -, hinv, hothers⟩ := h.holder
  · exact absurd (hothers t).depth ht
  · have hholder : t = holder := by
      by_contra hne
      exact ht (hothers t hne).2.depth
    rw [hholder]
    exact hinv

/-- A thread at a program point with nothing of the mutex does not own it. -/
theorem MutexInv.owner_ne {mid : Fin 8} {s : MutexSys Thread} (h : MutexInv mid s) {t : Thread}
    (ht : s.depth t = 0) {timeout : BitVec 32} (hpc : s.pc t = some (.acqReadOwner timeout)) :
    s.mutex.owner ≠ some t := by
  obtain ⟨-, hclear, -⟩ | ⟨holder, -, hinv, hothers⟩ := h.holder
  · rw [hclear.owner]
    nofun
  · by_cases hholder : t = holder
    · subst hholder
      rw [hpc, ht] at hinv
      exact absurd hinv.1.pos (Nat.lt_irrefl 0)
    · exact (hothers t hholder).1

/-- A thread that the swap has let in finds no owner. -/
theorem MutexInv.owner_none {mid : Fin 8} {s : MutexSys Thread} (h : MutexInv mid s) {t : Thread}
    (hpc : s.pc t = some .acqCheckOwner) : s.mutex.owner = none := by
  have hinside : ¬ s.Apart t := by
    intro hapart
    have hout := hapart.outside
    rw [hpc] at hout
    exact hout
  obtain ⟨-, -, hothers⟩ | ⟨holder, -, hinv, hothers⟩ := h.holder
  · exact absurd (hothers t) hinside
  · by_cases hholder : t = holder
    · subst hholder
      rw [hpc] at hinv
      exact hinv.1.owner
    · exact absurd (hothers t hholder).2 hinside

/-- **osMutexAcquire** goes on or has the mutex: no bad status, no time-out and
    no recursion. -/
theorem runStep_forever {mid : Fin 8} {s : MutexSys Thread} (h : MutexInv mid s) {t : Thread}
    {p : Pc} (hpc : s.pc t = some p) (hp : p.forever = true) (ht : s.depth t = 0)
    (now : BitVec 32) :
    (∃ p', (runStep t now s.mutex s.csrs p).2.2 = .next p' ∧ p'.forever = true) ∨
    (runStep t now s.mutex s.csrs p).2.2 = .ret .osOK := by
  cases p with
  | acqSwap timeout =>
    have htimeout : timeout = osWaitForever := of_decide_eq_true hp
    refine .inl ?_
    simp only [runStep, trySwap]
    split
    · exact ⟨.acqCheckOwner, rfl, rfl⟩
    · exact ⟨.acqReadOwner timeout, rfl, decide_eq_true htimeout⟩
  | acqCheckOwner =>
    refine .inl ⟨.acqWriteOwner, ?_, rfl⟩
    simp only [runStep, h.owner_none hpc, if_true]
  | acqWriteOwner => exact .inl ⟨.acqWriteCount, rfl, rfl⟩
  | acqWriteCount => exact .inr rfl
  | acqReadOwner timeout =>
    have htimeout : timeout = osWaitForever := of_decide_eq_true hp
    have hnot : ¬ (s.mutex.owner = some t ∧ s.mutex.ifRecursive = true) :=
      fun hown => h.owner_ne ht hpc hown.1
    refine .inl ⟨.foreverSwap, ?_, rfl⟩
    simp only [runStep, if_neg hnot, waitPath, htimeout]
    rfl
  | foreverSwap =>
    refine .inl ?_
    simp only [runStep, trySwap]
    split
    · exact ⟨.acqWriteOwner, rfl, rfl⟩
    · cases s.mutex.ifSpin with
      | true => exact ⟨.foreverSwap, rfl, rfl⟩
      | false => exact ⟨.foreverDelay, rfl, rfl⟩
  | foreverDelay => exact .inl ⟨.foreverSwap, rfl, rfl⟩
  | _ => exact Bool.noConfusion hp

/-- **osMutexRelease** goes on or has given the mutex back. -/
theorem runStep_inRelease {mid : Fin 8} {s : MutexSys Thread} (h : MutexInv mid s) {t : Thread}
    {p : Pc} (hpc : s.pc t = some p) (hp : p.inRelease = true) (ht : s.depth t = 1)
    (now : BitVec 32) :
    (∃ p', (runStep t now s.mutex s.csrs p).2.2 = .next p' ∧ p'.inRelease = true) ∨
    (runStep t now s.mutex s.csrs p).2.2 = .ret .osOK := by
  have hinv := h.holderInv_of_depth (t := t) (by rw [ht]; decide)
  rw [hpc, ht] at hinv
  cases p with
  | relReadNull =>
    have hown : s.mutex.owner ≠ none := by
      rw [Held.owner hinv]
      nofun
    refine .inl ⟨.relReadOwner, ?_, rfl⟩
    simp only [runStep, if_neg hown]
  | relReadOwner =>
    have hown : ¬ s.mutex.owner ≠ some t := not_not_intro (Held.owner hinv)
    refine .inl ⟨.relReadCount, ?_, rfl⟩
    simp only [runStep, if_neg hown]
  | relReadCount => exact .inl ⟨.relWriteCount s.mutex.count, rfl, rfl⟩
  | relWriteCount c => exact .inl ⟨.relTestCount, rfl, rfl⟩
  | relTestCount =>
    -- the mutex was taken once, so the count is down to zero
    have hcount : s.mutex.count = 0 := hinv.2.1
    refine .inl ⟨.relWriteOwner, ?_, rfl⟩
    simp only [runStep, if_pos hcount]
  | relWriteOwner => exact .inl ⟨.relWriteCsr, rfl, rfl⟩
  | relWriteCsr => exact .inr rfl
  | _ => exact Bool.noConfusion hp

theorem Pc.inRelease_of_forever {p : Pc} (h : p.forever = true) : p.inRelease = false := by
  cases p with
  | acqSwap | acqReadOwner | acqCheckOwner | acqWriteOwner | acqWriteCount | foreverSwap
  | foreverDelay => rfl
  | _ => exact Bool.noConfusion h

/-! ## Section 4: The invariant -/

/-- **The invariant**: the mutex is safe, and every thread has of it what its
    place says. -/
structure SlotSysInv (s : SlotSys b Thread) : Prop where
  mutex : MutexInv 0 s.lock
  place : ∀ t, Place.LockAt s.lock t (s.calls.place t)

/-- A step of the system, seen from the calls: a step of the critical sections,
    or none. -/
structure SlotSysInv.Simulates (s s' : SlotSys b Thread) : Prop where
  inv : SlotSysInv s'
  calls : s'.calls = s.calls ∨ ∃ t, Step slotObject s.calls t s'.calls

omit [DecidableEq Thread] in
theorem Place.LockAt.depth_of_holds {lock : MutexSys Thread} {t : Thread}
    {p : Place (SlotCall b) (OsState b) (Option OsStatus)} (h : Place.LockAt lock t p) :
    lock.depth t = if p.holds then 1 else 0 := by
  cases p with
  | outside => exact h.2
  | waiting c => exact h.2
  | inside c rest => exact h.2
  | leaving c r => exact h.2

/-- A step of thread `t` in a mutex function leaves what the others have. -/
theorem Place.LockAt.settle {lock : MutexSys Thread} {t u : Thread}
    {p : Place (SlotCall b) (OsState b) (Option OsStatus)} (h : Place.LockAt lock u p)
    (hu : u ≠ t) (isRelease : Bool) (r : MutexState Thread × MutexCsrs × Outcome) :
    Place.LockAt (lock.settle t isRelease r) u p := by
  have hpc := settle_pc_ne (s := lock) hu isRelease r
  have hdepth := settle_depth_ne (s := lock) hu isRelease r
  cases p with
  | outside => exact ⟨hpc.trans h.1, hdepth.trans h.2⟩
  | waiting c =>
    obtain ⟨⟨p, hp, hforever⟩, hd⟩ := h
    exact ⟨⟨p, hpc.trans hp, hforever⟩, hdepth.trans hd⟩
  | inside c rest => exact ⟨hpc.trans h.1, hdepth.trans h.2⟩
  | leaving c r =>
    obtain ⟨⟨p, hp, hrel⟩, hd⟩ := h
    exact ⟨⟨p, hpc.trans hp, hrel⟩, hdepth.trans hd⟩

/-- The invariant after a step of `t` in a mutex function. -/
theorem SlotSysInv.settle {s : SlotSys b Thread} (h : SlotSysInv s) {t : Thread} {isRelease : Bool}
    {r : MutexState Thread × MutexCsrs × Outcome}
    (hmutex : MutexInv 0 (s.lock.settle t isRelease r))
    {calls : Sections Thread (SlotCall b) (OsState b) (Option OsStatus)}
    (hothers : ∀ u, u ≠ t → calls.place u = s.calls.place u)
    (ht : Place.LockAt (s.lock.settle t isRelease r) t (calls.place t)) :
    SlotSysInv { lock := s.lock.settle t isRelease r, calls := calls } where
  mutex := hmutex
  place := by
    intro u
    by_cases hut : u = t
    · subst hut
      exact ht
    · rw [hothers u hut]
      exact (h.place u).settle hut isRelease r

omit [DecidableEq Thread] in
theorem slotSysInv_initial {s : SlotSys b Thread} (h : SlotInit s) : SlotSysInv s where
  mutex := mutexInv_initial h.lock
  place := by
    intro t
    obtain ⟨-, -, hpc, hacquired, hreleased⟩ := h.lock
    rw [h.calls.place t]
    refine ⟨hpc t, ?_⟩
    rw [MutexSys.depth, hacquired t, hreleased t]

section steps

variable {s : SlotSys b Thread} {t : Thread} (h : SlotSysInv s)

include h

/-- The outcome of a step of `t` in a mutex function decides what it has. -/
theorem SlotSysInv.pc_depth (isRelease : Bool) (r : MutexState Thread × MutexCsrs × Outcome) :
    (s.lock.settle t isRelease r).pc t = r.2.2.pc ∧
      (s.lock.settle t isRelease r).depth t = r.2.2.depth (s.lock.depth t) isRelease :=
  ⟨settle_pc_self .., settle_depth_self (h.mutex.released_le t) ..⟩

/-- While a thread has the mutex no other is in its section. -/
theorem SlotSysInv.others_outside {isRelease : Bool} {r : MutexState Thread × MutexCsrs × Outcome}
    (hmutex : MutexInv 0 (s.lock.settle t isRelease r))
    (ht : (s.lock.settle t isRelease r).depth t ≠ 0) {u : Thread} (hu : u ≠ t) :
    (s.calls.place u).holds = false := by
  have hdepth := hmutex.depth_others ht hu
  rw [settle_depth_ne hu, (h.place u).depth_of_holds] at hdepth
  cases hholds : (s.calls.place u).holds with
  | false => rfl
  | true =>
    rw [hholds] at hdepth
    exact absurd hdepth (by decide)

theorem SlotSysInv.call_refused {c : SlotCall b} {r : Option OsStatus}
    (hplace : s.calls.place t = .outside) (hrefuse : c.refuse = some r) :
    SlotSysInv.Simulates s { s with calls := (s.calls.record t c).deliver t r } where
  inv := ⟨h.mutex, h.place⟩
  calls := .inr ⟨t, Step.refuse hplace hrefuse⟩

theorem SlotSysInv.call_accepted {c : SlotCall b} {lock : MutexSys Thread}
    (hplace : s.calls.place t = .outside) (haccept : c.refuse = none)
    (hstep : mutexStep s.lock (.acquire t osWaitForever) = some lock) :
    SlotSysInv.Simulates s ({ s with calls := s.calls.record t c }.acquiring t c lock) := by
  have hat := h.place t
  rw [hplace] at hat
  obtain ⟨hpc, ⟨⟩⟩ := Option.ite_none_right_eq_some.mp hstep
  have hnest : s.lock.depth t + 1 < countLimit := by
    rw [hat.2, countLimit_eq]
    decide
  have hmutex := mutexInv_acquire h.mutex hpc hnest osWaitForever
  have hstart : startAcquire s.lock.mutex osWaitForever = .next (.acqSwap osWaitForever) :=
    if_pos h.mutex.shape.active
  obtain ⟨hpc', hdepth⟩ := h.pc_depth (t := t) false
    (s.lock.mutex, s.lock.csrs, startAcquire s.lock.mutex osWaitForever)
  rw [hstart] at hpc' hdepth hmutex ⊢
  rw [SlotSys.acquiring, hpc']
  constructor
  case inv =>
    refine h.settle hmutex ?_ ?_
    · intro u hu
      exact Sections.moveTo_place_ne _ hu _
    · rw [Sections.moveTo_place]
      exact ⟨⟨.acqSwap osWaitForever, hpc', rfl⟩, hdepth.trans hat.2⟩
  case calls => exact .inr ⟨t, Step.call hplace haccept⟩

theorem SlotSysInv.acquire_step {c : SlotCall b} {lock : MutexSys Thread} {now : BitVec 32}
    (hplace : s.calls.place t = .waiting c)
    (hstep : mutexStep s.lock (.run t now) = some lock) :
    SlotSysInv.Simulates s (s.acquiring t c lock) := by
  have hat := h.place t
  rw [hplace] at hat
  obtain ⟨⟨p, hpc, hforever⟩, hzero⟩ := hat
  obtain ⟨q, hq, rfl⟩ := Option.map_eq_some_iff.mp hstep
  obtain rfl : p = q := Option.some.inj (hpc.symm.trans hq)
  have hmutex := mutexInv_run h.mutex hpc now
  obtain ⟨hpc', hdepth⟩ := h.pc_depth (t := t) p.inRelease
    (runStep t now s.lock.mutex s.lock.csrs p)
  obtain ⟨p', hnext, hp'⟩ | hret := runStep_forever h.mutex hpc hforever hzero now
  · -- the thread still waits
    rw [hnext] at hpc' hdepth
    rw [SlotSys.acquiring, hpc']
    constructor
    case inv =>
      refine h.settle hmutex ?_ ?_
      · intro u hu
        exact Sections.moveTo_place_ne _ hu _
      · rw [Sections.moveTo_place]
        exact ⟨⟨p', hpc', hp'⟩, hdepth.trans hzero⟩
    case calls => exact .inl (Sections.moveTo_self hplace)
  · -- it has the mutex, and with it the section
    rw [hret, hzero, Pc.inRelease_of_forever hforever] at hdepth
    rw [hret] at hpc'
    rw [SlotSys.acquiring, hpc']
    have hone : (s.lock.settle t p.inRelease (runStep t now s.lock.mutex s.lock.csrs p)).depth t
        = 1 := by
      rw [Pc.inRelease_of_forever hforever]
      exact hdepth
    constructor
    case inv =>
      refine h.settle hmutex ?_ ?_
      · intro u hu
        exact Sections.moveTo_place_ne _ hu _
      · rw [Sections.moveTo_place]
        exact ⟨hpc', hone⟩
    case calls =>
      refine .inr ⟨t, Step.enter hplace ?_⟩
      intro u
      by_cases hu : u = t
      · rw [hu, hplace]
        rfl
      · exact h.others_outside hmutex (by rw [hone]; decide) hu

theorem SlotSysInv.access_step {c : SlotCall b} {write : OsState b → OsState b}
    {next : OsState b → Prog (OsState b) (Option OsStatus)}
    (hplace : s.calls.place t = .inside c (.access write next)) :
    SlotSysInv.Simulates s { s with
      calls := { s.calls with shared := write s.calls.shared }.moveTo t
        (.inside c (next s.calls.shared)) } := by
  have hat := h.place t
  rw [hplace] at hat
  constructor
  case inv =>
    refine ⟨h.mutex, ?_⟩
    intro u
    by_cases hu : u = t
    · subst hu
      rw [Sections.moveTo_place]
      exact hat
    · rw [Sections.moveTo_place_ne _ hu]
      exact h.place u
  case calls => exact .inr ⟨t, Step.access hplace⟩

theorem SlotSysInv.release_call {c : SlotCall b} {r : Option OsStatus} {lock : MutexSys Thread}
    (hplace : s.calls.place t = .inside c (.ret r))
    (hstep : mutexStep s.lock (.release t) = some lock) :
    SlotSysInv.Simulates s (s.releasing t c r lock) := by
  have hat := h.place t
  rw [hplace] at hat
  obtain ⟨hpc, ⟨⟩⟩ := Option.ite_none_right_eq_some.mp hstep
  have hmutex := mutexInv_release h.mutex hpc
  have hstart : startRelease s.lock.mutex = .next .relReadNull := if_pos h.mutex.shape.active
  obtain ⟨hpc', hdepth⟩ := h.pc_depth (t := t) true
    (s.lock.mutex, s.lock.csrs, startRelease s.lock.mutex)
  rw [hstart] at hpc' hdepth hmutex ⊢
  rw [SlotSys.releasing, hpc']
  constructor
  case inv =>
    refine h.settle hmutex ?_ ?_
    · intro u hu
      exact Sections.moveTo_place_ne _ hu _
    · show Place.LockAt _ t ((s.calls.moveTo t (.leaving c r)).place t)
      rw [Sections.moveTo_place]
      exact ⟨⟨.relReadNull, hpc', rfl⟩, hdepth.trans hat.2⟩
  case calls => exact .inr ⟨t, Step.finish hplace⟩

theorem SlotSysInv.release_step {c : SlotCall b} {r : Option OsStatus} {lock : MutexSys Thread}
    {now : BitVec 32} (hplace : s.calls.place t = .leaving c r)
    (hstep : mutexStep s.lock (.run t now) = some lock) :
    SlotSysInv.Simulates s (s.releasing t c r lock) := by
  have hat := h.place t
  rw [hplace] at hat
  obtain ⟨⟨p, hpc, hrel⟩, hone⟩ := hat
  obtain ⟨q, hq, rfl⟩ := Option.map_eq_some_iff.mp hstep
  obtain rfl : p = q := Option.some.inj (hpc.symm.trans hq)
  have hmutex := mutexInv_run h.mutex hpc now
  obtain ⟨hpc', hdepth⟩ := h.pc_depth (t := t) p.inRelease
    (runStep t now s.lock.mutex s.lock.csrs p)
  obtain ⟨p', hnext, hp'⟩ | hret := runStep_inRelease h.mutex hpc hrel hone now
  · -- the thread still has the mutex
    rw [hnext] at hpc' hdepth
    rw [SlotSys.releasing, hpc']
    constructor
    case inv =>
      refine h.settle hmutex ?_ ?_
      · intro u hu
        exact Sections.moveTo_place_ne _ hu _
      · show Place.LockAt _ t ((s.calls.moveTo t (.leaving c r)).place t)
        rw [Sections.moveTo_place]
        exact ⟨⟨p', hpc', hp'⟩, hdepth.trans hone⟩
    case calls => exact .inl (Sections.moveTo_self hplace)
  · -- the mutex is free and the call returns
    rw [hret, hone, hrel] at hdepth
    rw [hret] at hpc'
    rw [SlotSys.releasing, hpc']
    have hzero : (s.lock.settle t p.inRelease (runStep t now s.lock.mutex s.lock.csrs p)).depth t
        = 0 := by
      rw [hrel]
      exact hdepth
    constructor
    case inv =>
      refine h.settle hmutex ?_ ?_
      · intro u hu
        exact Sections.moveTo_place_ne _ hu _
      · show Place.LockAt _ t (((s.calls.deliver t r).moveTo t .outside).place t)
        rw [Sections.moveTo_place]
        exact ⟨hpc', hzero⟩
    case calls => exact .inr ⟨t, Step.leave hplace⟩

end steps

/-- **Simulation**: every atomic step is a step of the critical sections, or
    none. -/
theorem slotStep_simulates {s s' : SlotSys b Thread} {a : SlotAction b Thread} (h : SlotSysInv s)
    (hstep : slotStep s a = some s') : SlotSysInv.Simulates s s' := by
  cases a with
  | call t c =>
    simp only [slotStep] at hstep
    split at hstep
    · next hplace =>
      split at hstep
      · next r hrefuse =>
        obtain rfl := Option.some.inj hstep
        exact h.call_refused hplace hrefuse
      · next haccept =>
        obtain ⟨lock, hlock, rfl⟩ := Option.map_eq_some_iff.mp hstep
        exact h.call_accepted hplace haccept hlock
    · exact absurd hstep nofun
  | mutex t now =>
    simp only [slotStep] at hstep
    split at hstep
    · next c hplace =>
      obtain ⟨lock, hlock, rfl⟩ := Option.map_eq_some_iff.mp hstep
      exact h.acquire_step hplace hlock
    · next c r hplace =>
      obtain ⟨lock, hlock, rfl⟩ := Option.map_eq_some_iff.mp hstep
      exact h.release_step hplace hlock
    · exact absurd hstep nofun
  | access t =>
    simp only [slotStep] at hstep
    split at hstep
    · next c write next hplace =>
      obtain rfl := Option.some.inj hstep
      exact h.access_step hplace
    · next c r hplace =>
      obtain ⟨lock, hlock, rfl⟩ := Option.map_eq_some_iff.mp hstep
      exact h.release_call hplace hlock
    · exact absurd hstep nofun

/-! ## Section 5: Every run -/

/-- The call that thread `t` makes with an action. -/
def SlotAction.callOf (t : Thread) : SlotAction b Thread → Option (SlotCall b)
  | .call u c => if u = t then some c else none
  | _ => none

/-- The calls of thread `t`, in its own order. -/
def callsOf (t : Thread) (actions : List (SlotAction b Thread)) : List (SlotCall b) :=
  actions.filterMap (SlotAction.callOf t)

theorem releasing_called (s : SlotSys b Thread) (t : Thread) (c : SlotCall b)
    (r : Option OsStatus) (lock : MutexSys Thread) :
    (s.releasing t c r lock).calls.called = s.calls.called := by
  show Sections.called (if _ then _ else _) = _
  split
  · rfl
  · rfl

theorem record_called (s : SlotSys b Thread) (t u : Thread) (c : SlotCall b) :
    (s.calls.record u c).called t = s.calls.called t ++ callsOf t [.call u c] := by
  show Function.update s.calls.called u (s.calls.called u ++ [c]) t = _
  by_cases hut : u = t
  · subst hut
    simp [callsOf, SlotAction.callOf]
  · simp [callsOf, SlotAction.callOf, hut, Ne.symm hut]

/-- The history has the calls of the run. -/
theorem slotStep_called {s s' : SlotSys b Thread} {a : SlotAction b Thread}
    (hstep : slotStep s a = some s') (t : Thread) :
    s'.calls.called t = s.calls.called t ++ callsOf t [a] := by
  cases a with
  | call u c =>
    rw [← record_called]
    simp only [slotStep] at hstep
    split at hstep
    · split at hstep
      · obtain rfl := Option.some.inj hstep
        rfl
      · obtain ⟨lock, -, rfl⟩ := Option.map_eq_some_iff.mp hstep
        rfl
    · exact absurd hstep nofun
  | mutex u now =>
    refine Eq.trans ?_ (List.append_nil _).symm
    simp only [slotStep] at hstep
    split at hstep
    · obtain ⟨lock, -, rfl⟩ := Option.map_eq_some_iff.mp hstep
      rfl
    · obtain ⟨lock, -, rfl⟩ := Option.map_eq_some_iff.mp hstep
      rw [releasing_called]
    · exact absurd hstep nofun
  | access u =>
    refine Eq.trans ?_ (List.append_nil _).symm
    simp only [slotStep] at hstep
    split at hstep
    · obtain rfl := Option.some.inj hstep
      rfl
    · obtain ⟨lock, -, rfl⟩ := Option.map_eq_some_iff.mp hstep
      rw [releasing_called]
    · exact absurd hstep nofun

/-- What holds along a run: the invariant, calls serialized in some order, and a
    history that has the calls of the run. -/
structure SlotRunInv (os : OsState b) (done : List (SlotAction b Thread))
    (s : SlotSys b Thread) : Prop where
  inv : SlotSysInv s
  serialized : ∃ order, Serialized slotObject os order s.calls
  called : ∀ t, s.calls.called t = callsOf t done

theorem slotRunInv_initial {s : SlotSys b Thread} (h : SlotInit s) :
    SlotRunInv s.calls.shared [] s where
  inv := slotSysInv_initial h
  serialized := ⟨[], serialized_fresh h.calls⟩
  called := h.calls.called

theorem slotRunInv_step {os : OsState b} {done : List (SlotAction b Thread)}
    {s s' : SlotSys b Thread} {a : SlotAction b Thread} (h : SlotRunInv os done s)
    (hstep : slotStep s a = some s') : SlotRunInv os (done ++ [a]) s' := by
  obtain ⟨hinv, hcalls⟩ := slotStep_simulates h.inv hstep
  constructor
  case inv => exact hinv
  case serialized =>
    obtain ⟨order, horder⟩ := h.serialized
    obtain hsame | ⟨t, ht⟩ := hcalls
    · rw [hsame]
      exact ⟨order, horder⟩
    · exact horder.step ht
  case called =>
    intro t
    rw [slotStep_called hstep, h.called t]
    exact (List.filterMap_append ..).symm

/-- **Atomicity of the slot calls**: once all calls of a run have returned,
    there is an order of them, which keeps each thread's own, such that slots,
    modes and results are those of the calls made one after the other. -/
theorem slotCalls_atomic {s₀ s : SlotSys b Thread} {actions : List (SlotAction b Thread)}
    (hinit : SlotInit s₀) (hrun : (slotSystem b Thread).Run s₀ actions s)
    (hreturned : ∀ t, s.calls.place t = .outside) :
    ∃ order : List (Thread × SlotCall b),
      (∀ t, ofThread t order = callsOf t actions) ∧
      (∀ t, ofThread t (serial SlotCall.execute s₀.calls.shared order).2 = s.calls.returned t) ∧
      (serial SlotCall.execute s₀.calls.shared order).1 = s.calls.shared := by
  have hend := hrun.history (SlotRunInv s₀.calls.shared) (slotRunInv_initial hinit)
    fun _ _ _ _ h hstep => slotRunInv_step h hstep
  rw [List.nil_append] at hend
  obtain ⟨order, horder⟩ := hend.serialized
  obtain ⟨hcalls, hresults, hshared⟩ := horder.serializable hreturned
  rw [slotObject_exec] at hresults hshared
  refine ⟨order, ?_, hresults, hshared⟩
  intro t
  rw [hcalls t, hend.called t]

end system

/-! ## Section 6: After osKernelInitialize -/

/-- The hardware threads, none of them in a call. -/
def SlotSys.ofOs (os : OsState b) : SlotSys b (Tid b) where
  lock :=
    { mutex := os.mutex 0
      csrs := os.csrs
      pc := fun _ => none
      acquired := fun _ => 0
      released := fun _ => 0 }
  calls :=
    { shared := os
      place := fun _ => .outside
      called := fun _ => []
      returned := fun _ => [] }

/-- `osKernelInitialize` makes `slot_mutex` as the calls need it. -/
theorem osKernelInitialize_slotInit {s : OsState b} (h : AtReset s) (bssEnd : Ptr)
    (flexpretThreadAttr : Tid b → OsThreadAttr) :
    SlotInit (SlotSys.ofOs (osKernelInitialize bssEnd flexpretThreadAttr s)) where
  lock := by
    refine ⟨⟨slotMutexAttr, true, ?_⟩, ?_, fun _ => rfl, fun _ => rfl, fun _ => rfl⟩
    · simp [SlotSys.ofOs, osKernelInitialize, newSlotMutex, osMutexNew, osMutexSetSpin, h.mutexNum,
        flexpretMutexMaxNum, osMutexNewEntry]
    · simp [SlotSys.ofOs, osKernelInitialize, newSlotMutex, osMutexNew, osMutexSetSpin, h.mutexNum,
        flexpretMutexMaxNum, osMutexNewEntry]
      rfl
  calls := ⟨fun _ => rfl, fun _ => rfl, fun _ => rfl⟩

/-- Threads 0 and 1 make a call each, and thread 1 spins while thread 0 has
    the mutex. -/
def twoCalls : List (SlotAction .threads4Dspm12 (Fin 4)) :=
  [.call 0 (.osSchedulerSetSlotNum 1 2), .call 1 (.osSchedulerSetSoftSlotNum 1)] ++
  [.mutex 0 0, .mutex 1 0, .mutex 0 0, .mutex 1 0, .mutex 0 0, .mutex 0 0] ++
  [.access 0, .mutex 1 0, .access 0, .access 0] ++
  List.replicate 5 (.mutex 0 0) ++ [.mutex 1 0] ++ List.replicate 2 (.mutex 0 0) ++
  List.replicate 3 (.mutex 1 0) ++ List.replicate 3 (.access 1) ++ List.replicate 7 (.mutex 1 0)

/-- Has the thread no call pending? -/
def Place.isOutside {Call State Result : Type} : Place Call State Result → Bool
  | .outside => true
  | _ => false

theorem Place.eq_outside {Call State Result : Type} {p : Place Call State Result}
    (h : Place.isOutside p = true) : p = .outside := by
  cases p with
  | outside => rfl
  | _ => exact Bool.noConfusion h

theorem twoCalls_atomic :
    ∃ s order, (slotSystem .threads4Dspm12 (Fin 4)).Run
        (SlotSys.ofOs (initialized .threads4Dspm12)) twoCalls s ∧
      (∀ t, ofThread t order = callsOf t twoCalls) ∧
      (serial SlotCall.execute (initialized .threads4Dspm12) order).1 = s.calls.shared := by
  have hreturns : ((System.execute slotStep (SlotSys.ofOs (initialized .threads4Dspm12))
      twoCalls).any fun s => ∀ t, Place.isOutside (s.calls.place t) = true) = true := by
    decide +kernel
  obtain ⟨s, hs, hout⟩ := (Option.any_eq_true _ _).mp hreturns
  have hrun : (slotSystem .threads4Dspm12 (Fin 4)).Run
      (SlotSys.ofOs (initialized .threads4Dspm12)) twoCalls s := System.run_of_execute hs
  obtain ⟨order, hcalls, -, hshared⟩ := slotCalls_atomic
    (osKernelInitialize_slotInit (resetState_atReset .threads4Dspm12) 0x20000800
      (resetState .threads4Dspm12).attr) hrun
    fun t => Place.eq_outside (of_decide_eq_true hout t)
  exact ⟨s, order, hrun, hcalls, hshared⟩

end Flexpret.Os
