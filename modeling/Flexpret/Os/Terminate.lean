import Flexpret.Os.Enumerate
import Flexpret.Os.SlotWord
import Flexpret.Os.ThreadClean

/-! # What osThreadTerminate Leaves

    A thread that terminates another one cleans it up, takes its slots away
    under `slot_mutex`, and sets its zombie bit.  Whether the soft slots go too
    is decided by the priority recorded for the thread; its mode counts only
    when that is none of the supported ones.
-/

namespace Flexpret.Os

variable {b : OsBuild}

/-! ## Section 1: thread_terminate with its mutex -/

/-- A mutex call of `me` on entry `mid`, alone. -/
def runMutex (me : Tid b) (mid : Fin flexpretMutexMaxNum) (clock : Nat → BitVec 32) (fuel : Nat)
    (start : MutexState (Tid b) → Outcome) (s : OsState b) : Option (OsState b × OsStatus) :=
  (runCall me clock fuel (s.mutex mid) s.csrs (start (s.mutex mid))).map fun r =>
    ({ s with mutex := Function.update s.mutex mid r.1, csrs := r.2.1 }, r.2.2)

/-- `body` between `osMutexAcquire(slot_mutex, osWaitForever)` and
    `osMutexRelease(slot_mutex)`.  What they return changes nothing. -/
def withSlotMutex (me : Tid b) (slotMutex : Fin flexpretMutexMaxNum) (clock : Nat → BitVec 32)
    (fuel : Nat) (body : OsState b → OsState b) (s : OsState b) : Option (OsState b) := do
  let (s, _) ← runMutex me slotMutex clock fuel (startAcquire · osWaitForever) s
  let (s, _) ← runMutex me slotMutex clock fuel startRelease (body s)
  return s

/-- `set_slot_num(tid, 0)` in `osSchedulerSetSlotNum(thread_id, 0)`. -/
def removeSlots (tid : Tid b) (s : OsState b) : OsState b :=
  { s with slots := (setSlotNum s.slots (slotT tid) 0).1 }

/-- `thread_terminate(thread_id, 1)`. -/
def threadTerminateLocked (me tid : Tid b) (slotMutex : Fin flexpretMutexMaxNum)
    (clock : Nat → BitVec 32) (fuel : Nat) (s : OsState b) : Option (OsState b) := do
  let s := threadClean me tid s
  let prior := (s.attr tid).priority
  let tmode := s.tmodes tid
  let srtt := withSlotMutex me slotMutex clock fuel (srttTerminate · tid)
  let hrtt := withSlotMutex me slotMutex clock fuel (removeSlots tid)
  let s ←
    if prior = osPriorityNormal then srtt s
    else if prior = osPriorityRealtime then hrtt s
    -- the loop goes round once more
    else if tmode = tmodeHA ∨ tmode = tmodeHZ then hrtt s
    else srtt s
  return setThreadMode s tid .zombie

/-- `osThreadTerminate`. -/
def osThreadTerminateLocked (me : Tid b) (threadId : Option (Tid b))
    (slotMutex : Fin flexpretMutexMaxNum) (clock : Nat → BitVec 32) (fuel : Nat) (s : OsState b) :
    Option (OsState b × OsStatus) :=
  match threadId with
  | none => some (s, .osErrorParameter)
  | some tid =>
      if tid = me then some (osThreadExit s me, .osOK)
      else (threadTerminateLocked me tid slotMutex clock fuel s).map (·, .osOK)

/-- `slot_mutex` is free: nobody owns it and its CSR is clear. -/
structure SlotMutexFree (s : OsState b) (slotMutex : Fin flexpretMutexMaxNum) : Prop where
  active : (s.mutex slotMutex).active = true
  owner : (s.mutex slotMutex).owner = none
  csr : ∃ k : Fin 8, (s.mutex slotMutex).csrAddr = k.val ∧ s.csrs k = 0

/-! ## Section 2: The property -/

/-- Thread `t` is soft and no other live thread is. -/
def LastSoft (s : OsState b) (t : Tid b) : Prop :=
  (s.tmodes t).soft = true ∧ ∀ u, u ≠ t → s.live u = true → (s.tmodes u).soft = false

/-- The recorded priority of `t` is that of its mode. -/
def PriorityAgrees (s : OsState b) (t : Tid b) : Prop :=
  (s.attr t).priority = osPriorityNormal ∧ (s.tmodes t).soft = true ∨
    (s.attr t).priority = osPriorityRealtime ∧ (s.tmodes t).soft = false

/-- **What the end of `t` leaves**: its slots are given back, and the soft slots
    with those of the last soft thread; nothing else changes. -/
structure SlotsReleased (s s' : OsState b) (slotMutex : Fin flexpretMutexMaxNum) (t : Tid b) :
    Prop where
  own : slotT t ∉ s'.slots
  softRemoved : LastSoft s t → slotS ∉ s'.slots
  softKept : ¬ LastSoft s t → ∀ i : Fin 8, s.slots.get i = slotS → s'.slots.get i = slotS
  others : ∀ i : Fin 8, ∀ u, u ≠ t → s.slots.get i = slotT u → s'.slots.get i = slotT u
  mode : s'.tmodes t = ⟨(s.tmodes t).hbit, true⟩
  otherModes : ∀ u, u ≠ t → s'.tmodes u = s.tmodes u
  mutex : SlotMutexFree s' slotMutex
  live : s'.liveThreads = s.liveThreads.filter (· ≠ t)
  count : osThreadGetCount s' = (s.liveThreads.filter (· ≠ t)).length

/-! ## Section 3: The mutex -/

/-- The entry of a mutex that has been acquired and released. -/
def MutexState.released {Tid : Type} (m : MutexState Tid) : MutexState Tid :=
  { m with owner := none, count := 0 }

theorem acquire_alone {me : Tid b} {mid : Fin flexpretMutexMaxNum} {clock : Nat → BitVec 32}
    {s : OsState b} {k : Fin 8} (hactive : (s.mutex mid).active = true)
    (howner : (s.mutex mid).owner = none) (haddr : (s.mutex mid).csrAddr = k.val)
    (hfree : s.csrs k = 0) (fuel : Nat) :
    runMutex me mid clock (fuel + 4) (startAcquire · osWaitForever) s =
      some ({ s with
        mutex := Function.update s.mutex mid { s.mutex mid with owner := some me, count := 1 }
        csrs := Function.update s.csrs k 1 }, .osOK) := by
  simp [runMutex, startAcquire, hactive, runCall, runStep, trySwap, haddr, hfree, howner,
    flexpretMutexActive, flexpretMutexInactive]

theorem release_alone {me : Tid b} {mid : Fin flexpretMutexMaxNum} {clock : Nat → BitVec 32}
    {s : OsState b} {k : Fin 8} (hactive : (s.mutex mid).active = true)
    (howner : (s.mutex mid).owner = some me) (hcount : (s.mutex mid).count = 1)
    (haddr : (s.mutex mid).csrAddr = k.val) (fuel : Nat) :
    runMutex me mid clock (fuel + 7) startRelease s =
      some ({ s with
        mutex := Function.update s.mutex mid (s.mutex mid).released
        csrs := Function.update s.csrs k 0 }, .osOK) := by
  simp [runMutex, startRelease, hactive, runCall, runStep, haddr, howner, hcount,
    flexpretMutexActive, MutexState.released]

/-- **Under the free mutex** a body that leaves the mutexes alone does what it
    does by itself, and the mutex is free again. -/
theorem withSlotMutex_eq (me : Tid b) {mid : Fin flexpretMutexMaxNum} (clock : Nat → BitVec 32)
    (body : OsState b → OsState b) {s : OsState b} (h : SlotMutexFree s mid)
    (hbody : ∀ s m c, body { s with mutex := m, csrs := c } =
      { body s with mutex := m, csrs := c }) (fuel : Nat) :
    withSlotMutex me mid clock (fuel + 7) body s =
      some { body s with
        mutex := Function.update s.mutex mid (s.mutex mid).released, csrs := s.csrs } := by
  obtain ⟨hactive, howner, k, haddr, hfree⟩ := h
  rw [withSlotMutex, acquire_alone hactive howner haddr hfree (fuel + 3)]
  simp only [Option.bind_eq_bind, Option.bind_some]
  rw [hbody, release_alone (k := k) (by simpa using hactive) (by simp) (by simp)
    (by simpa using haddr) fuel]
  simpa [MutexState.released] using hfree.symm

theorem slotMutexFree_released {s : OsState b} {mid : Fin flexpretMutexMaxNum}
    (h : SlotMutexFree s mid) (s' : OsState b)
    (hmutex : s'.mutex = Function.update s.mutex mid (s.mutex mid).released)
    (hcsrs : s'.csrs = s.csrs) : SlotMutexFree s' mid := by
  obtain ⟨hactive, howner, k, haddr, hfree⟩ := h
  constructor
  case active => simpa [hmutex, MutexState.released] using hactive
  case owner => simp [hmutex, MutexState.released]
  case csr => exact ⟨k, by simpa [hmutex, MutexState.released] using haddr, by rw [hcsrs, hfree]⟩

/-- Nobody owns `slot_mutex`, so cleaning a thread up leaves it free. -/
theorem slotMutexFree_threadClean {s : OsState b} {mid : Fin flexpretMutexMaxNum}
    (h : SlotMutexFree s mid) (me t : Tid b) : SlotMutexFree (threadClean me t s) mid := by
  obtain ⟨hactive, howner, k, haddr, hfree⟩ := h
  have hreset : (resetThread me t s).csrs k = 0 := by rw [resetThread_csrs, hfree]
  constructor
  case active => rw [threadClean_mutex, hactive]
  case owner => rw [threadClean_mutex, howner]
  case csr =>
    refine ⟨k, by rw [threadClean_mutex, haddr], ?_⟩
    exact foldl_releaseRobust_csr_free (i := mid) (List.finRange flexpretMutexMaxNum) (.inl hreset)

/-! ## Section 4: The slots -/

/-- Taking all slots of an id away changes no other field. -/
theorem slotNumSet_zero (slots : Slots) {tid : BitVec 4} (hd : tid ≠ slotD) :
    SlotNumSet slots (setSlotNum slots tid 0).1 tid 0 := by
  simp only [setSlotNum]
  split
  · next hzero => exact ⟨hzero.symm, fun _ _ _ => rfl, fun _ _ hi => hi, fun _ _ => .inl rfl⟩
  · next hne =>
    rw [if_neg (Nat.not_lt_zero _)]
    exact slotNumSet_shrink hd (Nat.pos_of_ne_zero (Ne.symm hne))

theorem getElem_setSlotNum_zero (slots : Slots) {tid : BitVec 4} (hd : tid ≠ slotD) (i : Fin 8)
    (hi : slots.get i ≠ tid) : (setSlotNum slots tid 0).1.get i = slots.get i :=
  ((slotNumSet_zero slots hd).shrinks (Nat.zero_le _) i).resolve_right fun h => hi h.1

/-- What the two branches of `thread_terminate` leave of the slots. -/
structure SlotsTaken (slots slots' : Slots) (tid : BitVec 4) (soft : Prop) : Prop where
  own : tid ∉ slots'
  softRemoved : soft → slotS ∉ slots'
  softKept : ¬ soft → ∀ i : Fin 8, slots.get i = slotS → slots'.get i = slotS
  others : ∀ i : Fin 8, slots.get i ≠ tid → slots.get i ≠ slotS → slots'.get i = slots.get i

theorem removeSlots_taken (s : OsState b) (t : Tid b) {soft : Prop} (hsoft : ¬ soft) :
    SlotsTaken s.slots (removeSlots t s).slots (slotT t) soft := by
  have hd := slotT_ne_slotD t
  constructor
  case own => exact not_mem_setSlotNum_zero hd
  case softRemoved => exact fun h => absurd h hsoft
  case softKept =>
    intro _ i hi
    have hne : s.slots.get i ≠ slotT t := by
      rw [hi]
      exact (slotT_ne_slotS t).symm
    exact (getElem_setSlotNum_zero s.slots hd i hne).trans hi
  case others => exact fun i hi _ => getElem_setSlotNum_zero s.slots hd i hi

theorem srttTerminate_taken (s : OsState b) (t : Tid b) :
    SlotsTaken s.slots (srttTerminate s t).slots (slotT t) (otherSrttNum s t = 0) := by
  have hd := slotT_ne_slotD t
  by_cases hres : otherSrttNum s t = 0
  · have hslots : (srttTerminate s t).slots =
        (setSlotNum (setSlotNum s.slots (slotT t) 0).1 slotS 0).1 := if_pos hres
    rw [hslots]
    constructor
    case own =>
      rw [mem_setSlotNum_of_ne (slotT_ne_slotS t) hd]
      exact not_mem_setSlotNum_zero hd
    case softRemoved => exact fun _ => not_mem_setSlotNum_zero slotS_ne_slotD
    case softKept => exact fun h => absurd hres h
    case others =>
      intro i hown hs
      have hfirst := getElem_setSlotNum_zero s.slots hd i hown
      rw [getElem_setSlotNum_zero _ slotS_ne_slotD i (by rwa [hfirst]), hfirst]
  · have hslots : (srttTerminate s t).slots = (removeSlots t s).slots := if_neg hres
    rw [hslots]
    exact removeSlots_taken s t hres

/-! ## Section 5: osThreadTerminate -/

/-- What `thread_terminate` does to the slots between the mutex calls. -/
def takeSlots (t : Tid b) (soft : Bool) (s : OsState b) : OsState b :=
  if soft then srttTerminate s t else removeSlots t s

theorem takeSlots_taken (s : OsState b) (t : Tid b) :
    SlotsTaken s.slots (takeSlots t (s.tmodes t).soft s).slots (slotT t) (LastSoft s t) := by
  cases hsoft : (s.tmodes t).soft with
  | false => exact removeSlots_taken s t fun h => absurd (hsoft.symm.trans h.1) (by decide)
  | true =>
    have hlast : otherSrttNum s t = 0 ↔ LastSoft s t := by
      rw [otherSrttNum_eq_zero_iff, LastSoft, hsoft]
      simp
    have htaken := srttTerminate_taken s t
    rwa [propext hlast] at htaken

theorem threadClean_attr (me t : Tid b) (s : OsState b) : (threadClean me t s).attr = s.attr := by
  obtain ⟨csrs, hcsrs⟩ :=
    foldl_releaseRobust_eq t (List.finRange flexpretMutexMaxNum) (resetThread me t s)
  simp only [threadClean, hcsrs]
  simp only [resetThread]
  split
  · rfl
  · rfl

/-- The priority of `t`, where it is a supported one, is that of its mode. -/
def TargetAgrees (s : OsState b) (t : Tid b) : Prop :=
  (s.attr t).priority = osPriorityNormal ∨ (s.attr t).priority = osPriorityRealtime →
    PriorityAgrees s t

theorem soft_of_normal {s : OsState b} {t : Tid b} (h : TargetAgrees s t)
    (hprior : (s.attr t).priority = osPriorityNormal) : (s.tmodes t).soft = true := by
  rcases h (.inl hprior) with ⟨-, hsoft⟩ | ⟨hreal, -⟩
  · exact hsoft
  · exact absurd (hprior.symm.trans hreal) (by decide)

theorem hard_of_realtime {s : OsState b} {t : Tid b} (h : TargetAgrees s t)
    (hprior : (s.attr t).priority = osPriorityRealtime) : (s.tmodes t).soft = false := by
  rcases h (.inr hprior) with ⟨hnormal, -⟩ | ⟨-, hhard⟩
  · exact absurd (hnormal.symm.trans hprior) (by decide)
  · exact hhard

/-- With an agreeing priority the slots are taken as the mode says. -/
theorem threadTerminateLocked_eq {me t : Tid b} {mid : Fin flexpretMutexMaxNum}
    {clock : Nat → BitVec 32} {s : OsState b} (hmutex : SlotMutexFree s mid)
    (hagrees : TargetAgrees s t) (fuel : Nat) :
    threadTerminateLocked me t mid clock (fuel + 7) s =
      some (setThreadMode { takeSlots t (s.tmodes t).soft (threadClean me t s) with
        mutex := Function.update s.mutex mid (s.mutex mid).released
        csrs := (threadClean me t s).csrs } t .zombie) := by
  have hfree := slotMutexFree_threadClean hmutex me t
  have hsrtt := withSlotMutex_eq me clock (srttTerminate · t) hfree (fun _ _ _ => rfl) fuel
  have hhrtt := withSlotMutex_eq me clock (removeSlots t) hfree (fun _ _ _ => rfl) fuel
  rw [threadClean_mutex] at hsrtt hhrtt
  simp only [threadTerminateLocked, threadClean_attr, (threadClean_ended me t s).tmodes]
  by_cases hnormal : (s.attr t).priority = osPriorityNormal
  · rw [if_pos hnormal, hsrtt, soft_of_normal hagrees hnormal]
    rfl
  · rw [if_neg hnormal]
    by_cases hreal : (s.attr t).priority = osPriorityRealtime
    · rw [if_pos hreal, hhrtt, hard_of_realtime hagrees hreal]
      rfl
    · -- the mode decides
      rw [if_neg hreal]
      have hmode : (s.tmodes t = tmodeHA ∨ s.tmodes t = tmodeHZ) ↔ (s.tmodes t).soft = false := by
        generalize s.tmodes t = m
        obtain ⟨_ | _, _ | _⟩ := m <;> decide
      cases hsoft : (s.tmodes t).soft with
      | false =>
        rw [if_pos (hmode.mpr hsoft), hhrtt]
        rfl
      | true =>
        rw [if_neg (by rw [hmode, hsoft]; decide), hsrtt]
        rfl

theorem takeSlots_tmodes (t : Tid b) (soft : Bool) (s : OsState b) :
    (takeSlots t soft s).tmodes = s.tmodes := by
  cases soft <;> rfl

theorem takeSlots_live (t : Tid b) (soft : Bool) (s : OsState b) :
    (takeSlots t soft s).live = s.live := by
  cases soft <;> rfl

/-- **osThreadTerminate** of another thread, with `slot_mutex` free and nobody
    in between, gives back exactly the slots of the thread, when the priority
    recorded for it is that of its mode. -/
theorem threadTerminate_releases (s : OsState b) (slotMutex : Fin flexpretMutexMaxNum)
    (hmutex : SlotMutexFree s slotMutex) (me t : Tid b) (hme : t ≠ me)
    (hagrees : TargetAgrees s t) (clock : Nat → BitVec 32) (fuel : Nat) :
    ∃ s', osThreadTerminateLocked me (some t) slotMutex clock (fuel + 7) s = some (s', .osOK) ∧
      SlotsReleased s s' slotMutex t := by
  have hended := threadClean_ended me t s
  refine ⟨_, by rw [osThreadTerminateLocked, if_neg hme,
    threadTerminateLocked_eq hmutex hagrees fuel]; rfl, ?_⟩
  generalize hclean : threadClean me t s = s₁ at hended
  have hsoft : (s₁.tmodes t).soft = (s.tmodes t).soft := by rw [hended.tmodes]
  have hlast : LastSoft s₁ t ↔ LastSoft s t := by
    rw [LastSoft, LastSoft, hended.tmodes]
    refine and_congr_right fun _ => forall_congr' fun u => forall_congr' fun hu => ?_
    rw [hended.live u hu]
  have htaken := takeSlots_taken s₁ t
  rw [hsoft, hended.slots, propext hlast] at htaken
  have hother : ∀ u, u ≠ t → slotT u ≠ slotT t := fun u hu heq => hu (slotT_injective heq)
  have hlive : ∀ u, s₁.live u = (s.live u && u ≠ t) := by
    intro u
    by_cases hu : u = t
    · subst hu
      simp [hended.dead]
    · simp [hended.live u hu, hu]
  have hthreads : ∀ s' : OsState b, s'.live = s₁.live →
      s'.liveThreads = s.liveThreads.filter (· ≠ t) := by
    intro s' hs'
    rw [OsState.liveThreads, OsState.liveThreads, List.filter_filter, hs']
    exact List.filter_congr fun u _ => by rw [hlive, Bool.and_comm]
  have hthreads := hthreads _ (takeSlots_live t (s.tmodes t).soft s₁)
  constructor
  case own => exact htaken.own
  case softRemoved => exact htaken.softRemoved
  case softKept => exact htaken.softKept
  case others =>
    intro i u hu hi
    exact (htaken.others i (by rw [hi]; exact hother u hu)
      (by rw [hi]; exact slotT_ne_slotS u)).trans hi
  case mode =>
    show Function.update (takeSlots t _ s₁).tmodes t _ t = _
    rw [Function.update_self, takeSlots_tmodes, hended.tmodes]
    rfl
  case otherModes =>
    intro u hu
    show Function.update (takeSlots t _ s₁).tmodes t _ u = _
    rw [Function.update_of_ne hu, takeSlots_tmodes, hended.tmodes]
  case mutex =>
    have hfree := slotMutexFree_threadClean hmutex me t
    rw [hclean] at hfree
    have hmutex₁ : s₁.mutex = s.mutex := by rw [← hclean, threadClean_mutex]
    exact slotMutexFree_released hfree _ (by rw [hmutex₁]; rfl) rfl
  case live => exact hthreads
  case count =>
    rw [osThreadGetCount_eq]
    exact congrArg List.length hthreads

/-! ## Section 6: A finished thread whose mode is not that of its priority -/

/-- Thread 1 has ended.  Its mode is soft, as a second `osKernelStart` leaves
    it, and there is a soft slot. -/
def finishedState (priority : OsPriority) : OsState .threads4Dspm12 :=
  let s := initialized .threads4Dspm12
  { s with
    slots := #v[0, slotS, slotD, slotD, slotD, slotD, slotD, slotD]
    tmodes := fun t => if t = 0 then tmodeHA else tmodeSZ
    attr := fun t =>
      if t = 0 then s.attr 0 else { flexpretThreadInitAttr with priority := priority } }

theorem finishedState_mutexFree (priority : OsPriority) :
    SlotMutexFree (finishedState priority) 0 :=
  ⟨rfl, rfl, 0, rfl, rfl⟩

theorem finishedState_live (priority : OsPriority) (u : Tid .threads4Dspm12)
    (h : (finishedState priority).live u = true) : u = 0 := by
  have hmain : ∀ u, (initialized .threads4Dspm12).live u = true → u = 0 := by decide
  exact hmain u h

/-- The last soft thread is terminated and its soft slot stays. -/
theorem finishedState_not_released :
    SlotMutexFree (finishedState osPriorityRealtime) 0 ∧
      (∀ u, (finishedState osPriorityRealtime).live u = true →
        PriorityAgrees (finishedState osPriorityRealtime) u) ∧
      ∃ s', osThreadTerminateLocked 0 (some 1) 0 (fun _ => 0) 7
          (finishedState osPriorityRealtime) = some (s', .osOK) ∧
        ¬ SlotsReleased (finishedState osPriorityRealtime) s' 0 1 := by
  refine ⟨finishedState_mutexFree _, fun u hu => ?_, _, rfl, fun h => ?_⟩
  · obtain rfl := finishedState_live _ u hu
    exact .inr ⟨rfl, rfl⟩
  · have hlast : LastSoft (finishedState osPriorityRealtime) 1 := by
      refine ⟨rfl, fun u _ hu => ?_⟩
      obtain rfl := finishedState_live _ u hu
      rfl
    exact absurd (h.softRemoved hlast) (by decide +kernel)

theorem finishedState_released :
    ∃ s', osThreadTerminateLocked 0 (some 1) 0 (fun _ => 0) 7
        (finishedState osPriorityNormal) = some (s', .osOK) ∧
      SlotsReleased (finishedState osPriorityNormal) s' 0 1 :=
  threadTerminate_releases (finishedState osPriorityNormal) 0 (finishedState_mutexFree _) 0 1
    (by decide) (fun _ => .inl ⟨rfl, rfl⟩) (fun _ => 0) 0

end Flexpret.Os
