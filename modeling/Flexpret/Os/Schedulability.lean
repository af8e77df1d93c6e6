import Flexpret.Os.Kernel

/-! # Every Live Thread Has a Slot

    A live hard thread runs in slots of its own, a live soft thread in those
    of `SLOT_S`.  The calls keep it so through `set_slot_num`, which refuses
    to go past seven slots in use; no caller looks at its result.  The
    invariant therefore holds along runs whose calls never need a new slot
    when seven are taken.
-/

open Transition

namespace Flexpret.Os

variable {b : OsBuild}

/-! ## Section 1: Schedulability -/

/-- Thread `t` has a slot in which it could run. -/
def OsState.HasSlot (s : OsState b) (t : Tid b) : Prop :=
  slotT t ∈ s.slots ∨ ((s.tmodes t).soft = true ∧ slotS ∈ s.slots)

/-- Every live hard thread owns a slot, and every live soft thread has a soft
    slot or one of its own. -/
structure Schedulable (s : OsState b) : Prop where
  hard : ∀ t, s.live t = true → (s.tmodes t).soft = false → slotT t ∈ s.slots
  soft : ∀ t, s.live t = true → (s.tmodes t).soft = true → slotS ∈ s.slots ∨ slotT t ∈ s.slots

theorem Schedulable.hasSlot {s : OsState b} (h : Schedulable s) {t : Tid b}
    (hlive : s.live t = true) : s.HasSlot t := by
  cases hsoft : (s.tmodes t).soft with
  | false => exact .inl (h.hard t hlive hsoft)
  | true => exact (h.soft t hlive hsoft).symm.imp_right fun hslot => ⟨hsoft, hslot⟩

/-- The call has to add a slot: a hard thread that owns none yet, or the first
    soft slot. -/
def OsCall.NeedsSlot (s : OsState b) : OsCall b → Prop
  | .threadNew func _ attr =>
      func ≠ NULL ∧ s.kernelState = .osKernelRunning ∧
      ∃ h : s.flexpretThreadNum < b.hwThreadsNums,
        let priority := (attr.map OsThreadAttr.priority).getD osPriorityNormal
        priority = osPriorityRealtime ∧ slotT (⟨s.flexpretThreadNum, h⟩ : Tid b) ∉ s.slots ∨
        priority = osPriorityNormal ∧ slotS ∉ s.slots
  | .threadSetPriority (some tid) priority =>
      (s.attr tid).priority ≠ priority ∧
      (priority = osPriorityRealtime ∧ slotT tid ∉ s.slots ∨
       priority = osPriorityNormal ∧ otherSrttNum s tid = 0 ∧ slotS ∉ s.slots)
  | _ => False

/-- The condition on the calls: one that has to add a slot finds at most six
    slots in use. -/
def AddsBelowCap (s : OsState b) (call : OsCall b) : Prop :=
  call.NeedsSlot s → s.slots.activeCount < flexpretMaxHwThreadsNums - 1

/-! ## Section 2: The invariant -/

/-- **The invariant**: before the kernel runs, what `osKernelStart` relies on;
    then, that a soft thread never lives without a soft slot. -/
structure SchedInv (s : OsState b) : Prop where
  noSoftSlot : s.kernelState ≠ .osKernelRunning → s.defaultSoftSlotId = -1
  priority : s.kernelState ≠ .osKernelRunning → ∀ t, t ≠ 0 → s.live t = true →
    (s.attr t).priority = osPriorityRealtime ∨ (s.attr t).priority = osPriorityNormal
  hard : s.kernelState = .osKernelRunning → ∀ t, s.live t = true →
    (s.tmodes t).soft = false → slotT t ∈ s.slots
  soft : s.kernelState = .osKernelRunning → ∀ t, s.live t = true →
    (s.tmodes t).soft = true → slotS ∈ s.slots

theorem SchedInv.schedulable {s : OsState b} (h : SchedInv s)
    (hrun : s.kernelState = .osKernelRunning) : Schedulable s :=
  ⟨h.hard hrun, fun t hlive hsoft => .inl (h.soft hrun t hlive hsoft)⟩

/-- The invariant of a running kernel, about the three pieces of state it
    relates. -/
structure SlotInv (slots : Slots) (tmodes : Tid b → Tmode) (live : Tid b → Bool) : Prop where
  hard : ∀ t, live t = true → (tmodes t).soft = false → slotT t ∈ slots
  soft : ∀ t, live t = true → (tmodes t).soft = true → slotS ∈ slots

theorem SchedInv.of_running {s : OsState b} (hrun : s.kernelState = .osKernelRunning)
    (h : SlotInv s.slots s.tmodes s.live) : SchedInv s :=
  ⟨fun hne => absurd hrun hne, fun hne => absurd hrun hne, fun _ => h.hard, fun _ => h.soft⟩

theorem SchedInv.slotInv {s : OsState b} (h : SchedInv s)
    (hrun : s.kernelState = .osKernelRunning) : SlotInv s.slots s.tmodes s.live :=
  ⟨h.hard hrun, h.soft hrun⟩

/-! ## Section 3: The scheduler functions -/

@[simp] theorem setThreadMode_slots (s : OsState b) (t : Tid b) (m : TmodeRequest) :
    (setThreadMode s t m).slots = s.slots := rfl

@[simp] theorem setThreadMode_live (s : OsState b) (t : Tid b) (m : TmodeRequest) :
    (setThreadMode s t m).live = s.live := rfl

theorem setThreadMode_soft_ne {s : OsState b} {t u : Tid b} (h : u ≠ t) (m : TmodeRequest) :
    ((setThreadMode s t m).tmodes u).soft = (s.tmodes u).soft := by
  simp [setThreadMode, h]

theorem setThreadMode_soft_self (s : OsState b) (t : Tid b) (m : TmodeRequest) :
    ((setThreadMode s t m).tmodes t).soft = ((s.tmodes t).request m).hbit := by
  simp [setThreadMode, Tmode.soft_eq_hbit]

/-- `TMODE_ZOMBIE` and `TMODE_ACTIVE` leave hard and soft as they are. -/
theorem setThreadMode_soft_lbit {s : OsState b} {t : Tid b} {m : TmodeRequest}
    (hm : ((s.tmodes t).request m).hbit = (s.tmodes t).hbit) (u : Tid b) :
    ((setThreadMode s t m).tmodes u).soft = (s.tmodes u).soft := by
  by_cases hut : u = t
  · subst hut
    rw [setThreadMode_soft_self, hm, Tmode.soft_eq_hbit]
  · exact setThreadMode_soft_ne hut m

/-- Slots taken from a dead thread are nobody's loss. -/
theorem SlotInv.drop {slots : Slots} {tmodes : Tid b → Tmode} {live : Tid b → Bool} {t : Tid b}
    (h : SlotInv slots tmodes live) (hdead : live t = false) :
    SlotInv (setSlotNum slots (slotT t) 0).1 tmodes live := by
  refine ⟨fun u hu hhard => ?_, fun u hu hsoft => ?_⟩
  · have hne : u ≠ t := by
      rintro rfl
      rw [hdead] at hu
      exact absurd hu Bool.false_ne_true
    rw [mem_setSlotNum_of_ne (mt slotT_injective hne) (slotT_ne_slotD u)]
    exact h.hard u hu hhard
  · rw [mem_setSlotNum_of_ne (slotT_ne_slotS t).symm slotS_ne_slotD]
    exact h.soft u hu hsoft

/-- The soft slots can go when no live thread is soft. -/
theorem SlotInv.dropSoft {slots : Slots} {tmodes : Tid b → Tmode} {live : Tid b → Bool}
    (h : SlotInv slots tmodes live) (hnone : ∀ u, live u = true → (tmodes u).soft = false) :
    SlotInv (setSlotNum slots slotS 0).1 tmodes live := by
  refine ⟨fun u hu hhard => ?_, fun u hu hsoft => ?_⟩
  · rw [mem_setSlotNum_of_ne (slotT_ne_slotS u) (slotT_ne_slotD u)]
    exact h.hard u hu hhard
  · rw [hnone u hu] at hsoft
    exact absurd hsoft Bool.false_ne_true

theorem slotInv_srttTerminate {s : OsState b} {t : Tid b}
    (h : SlotInv s.slots s.tmodes s.live) (hdead : s.live t = false) :
    SlotInv (srttTerminate s t).slots s.tmodes s.live := by
  have hdrop := h.drop hdead
  simp only [srttTerminate]
  split
  · next hzero =>
    refine hdrop.dropSoft fun u hu => ?_
    refine otherSrttNum_eq_zero_iff.mp hzero u ?_ hu
    rintro rfl
    rw [hdead] at hu
    exact absurd hu Bool.false_ne_true
  · exact hdrop

/-- Making a thread hard once it owns a slot. -/
theorem SlotInv.makeHard {s : OsState b} {t : Tid b} {slots : Slots} {m : TmodeRequest}
    {live live' : Tid b → Bool} (h : SlotInv s.slots s.tmodes live)
    (hlive : ∀ u, u ≠ t → live' u = true → live u = true)
    (hm : ((s.tmodes t).request m).hbit = false) (hown : slotT t ∈ slots)
    (hrest : ∀ x, x ≠ slotT t → x ≠ slotD → (x ∈ slots ↔ x ∈ s.slots)) :
    SlotInv slots (setThreadMode s t m).tmodes live' := by
  refine ⟨fun u hu hhard => ?_, fun u hu hsoft => ?_⟩
  · by_cases hut : u = t
    · exact hut ▸ hown
    · rw [setThreadMode_soft_ne hut] at hhard
      rw [hrest _ (mt slotT_injective hut) (slotT_ne_slotD u)]
      exact h.hard u (hlive u hut hu) hhard
  · have hut : u ≠ t := by
      rintro rfl
      rw [setThreadMode_soft_self, hm] at hsoft
      exact absurd hsoft Bool.false_ne_true
    rw [setThreadMode_soft_ne hut] at hsoft
    rw [hrest _ (slotT_ne_slotS t).symm slotS_ne_slotD]
    exact h.soft u (hlive u hut hu) hsoft

/-- Making a thread soft once there is a soft slot. -/
theorem SlotInv.makeSoft {s : OsState b} {t : Tid b} {slots : Slots} {m : TmodeRequest}
    {live live' : Tid b → Bool} (h : SlotInv s.slots s.tmodes live)
    (hlive : ∀ u, u ≠ t → live' u = true → live u = true)
    (hm : ((s.tmodes t).request m).hbit = true) (hsoft : slotS ∈ slots)
    (hrest : ∀ u : Tid b, u ≠ t → slotT u ∈ s.slots → slotT u ∈ slots) :
    SlotInv slots (setThreadMode s t m).tmodes live' := by
  refine ⟨fun u hu hhard => ?_, fun _ _ _ => hsoft⟩
  have hut : u ≠ t := by
    rintro rfl
    rw [setThreadMode_soft_self, hm] at hhard
    exact absurd hhard.symm Bool.false_ne_true
  rw [setThreadMode_soft_ne hut] at hhard
  exact hrest u hut (h.hard u (hlive u hut hu) hhard)

theorem slotInv_changeSrttToHrtt {s : OsState b} {t : Tid b}
    (h : SlotInv s.slots s.tmodes s.live)
    (hcap : slotT t ∉ s.slots → s.slots.activeCount < flexpretMaxHwThreadsNums - 1) :
    SlotInv (changeSrttToHrtt s t).slots (changeSrttToHrtt s t).tmodes s.live := by
  have hadded : SlotInv
      (if s.slots.count (slotT t) = 0 then (setSlotNum s.slots (slotT t) 1).1 else s.slots)
      (setThreadMode s t .hard).tmodes s.live := by
    refine h.makeHard (fun _ _ hu => hu) rfl ?_ fun x hx hd => ?_
    · split
      · next hzero => exact mem_setSlotNum_one (.inr (hcap (Vector.count_eq_zero.mp hzero)))
      · next hpos => exact Vector.count_pos_iff.mp (Nat.pos_of_ne_zero hpos)
    · split
      · exact mem_setSlotNum_of_ne hx hd 1
      · rfl
  simp only [changeSrttToHrtt]
  split
  · next hlast =>
    refine hadded.dropSoft fun u hu => ?_
    by_cases hut : u = t
    · subst hut
      rw [setThreadMode_soft_self]
      rfl
    · rw [setThreadMode_soft_ne hut]
      exact otherSrttNum_eq_zero_iff.mp hlast.1 u hut hu
  · exact hadded

/-- A live soft thread that the count of the others leaves out is there when
    the count is not zero. -/
theorem exists_soft_of_otherSrttNum_ne_zero {s : OsState b} {t : Tid b}
    (h : otherSrttNum s t ≠ 0) :
    ∃ u, s.live u = true ∧ (s.tmodes u).soft = true := by
  by_contra hnone
  refine h (otherSrttNum_eq_zero_iff.mpr fun u _ hu => ?_)
  by_contra hsoft
  exact hnone ⟨u, hu, Bool.eq_true_of_not_eq_false hsoft⟩

theorem slotInv_changeHrttToSrtt {s : OsState b} {t : Tid b}
    (h : SlotInv s.slots s.tmodes s.live)
    (hcap : otherSrttNum s t = 0 → slotS ∉ s.slots →
      s.slots.activeCount < flexpretMaxHwThreadsNums - 1) :
    SlotInv (changeHrttToSrtt s t).slots (changeHrttToSrtt s t).tmodes s.live := by
  have hadded : slotS ∈
      (if otherSrttNum s t = 0 ∧ s.slots.count slotS = 0 then (setSlotNum s.slots slotS 1).1
       else s.slots) := by
    split
    · next hnone =>
      exact mem_setSlotNum_one (.inr (hcap hnone.1 (Vector.count_eq_zero.mp hnone.2)))
    · next hsome =>
      by_cases hzero : otherSrttNum s t = 0
      · exact Vector.count_pos_iff.mp (Nat.pos_of_ne_zero fun hc => hsome ⟨hzero, hc⟩)
      · obtain ⟨u, hu, hsoft⟩ := exists_soft_of_otherSrttNum_ne_zero hzero
        exact h.soft u hu hsoft
  have hrest : ∀ u : Tid b, slotT u ∈ s.slots → slotT u ∈
      (if otherSrttNum s t = 0 ∧ s.slots.count slotS = 0 then (setSlotNum s.slots slotS 1).1
       else s.slots) := by
    intro u hu
    split
    · rwa [mem_setSlotNum_of_ne (slotT_ne_slotS u) (slotT_ne_slotD u)]
    · exact hu
  have hmodes : (changeHrttToSrtt s t).tmodes = (setThreadMode s t .soft).tmodes := rfl
  rw [hmodes]
  simp only [changeHrttToSrtt]
  refine h.makeSoft (fun _ _ hu => hu) rfl ?_ fun u hut hu => ?_
  · split
    · rwa [mem_setSlotNum_of_ne (slotT_ne_slotS t).symm slotS_ne_slotD]
    · exact hadded
  · split
    · rw [mem_setSlotNum_of_ne (mt slotT_injective hut) (slotT_ne_slotD u)]
      exact hrest u hu
    · exact hrest u hu

/-- A new thread `t`, live among others that keep the invariant. -/
theorem slotInv_threadAfterCreate {s : OsState b} {t : Tid b} {live : Tid b → Bool}
    (h : SlotInv s.slots s.tmodes live) (hself : s.live t = true)
    (hlive : ∀ u, u ≠ t → s.live u = true → live u = true)
    (hprio : (s.attr t).priority = osPriorityRealtime ∨ (s.attr t).priority = osPriorityNormal)
    (hcap : (s.attr t).priority = osPriorityRealtime ∧ slotT t ∉ s.slots ∨
      (s.attr t).priority = osPriorityNormal ∧ slotS ∉ s.slots →
      s.slots.activeCount < flexpretMaxHwThreadsNums - 1) :
    SlotInv (threadAfterCreate s t).slots (threadAfterCreate s t).tmodes s.live := by
  obtain hrt | hnormal := hprio
  · rw [threadAfterCreate, if_pos hrt]
    refine h.makeHard hlive rfl ?_ fun x hx hd => mem_setSlotNum_of_ne hx hd 1
    by_cases hown : slotT t ∈ s.slots
    · exact mem_setSlotNum_one (.inl hown)
    · exact mem_setSlotNum_one (.inr (hcap (.inl ⟨hrt, hown⟩)))
  · have hne : (s.attr t).priority ≠ osPriorityRealtime := by
      rw [hnormal]
      decide
    rw [threadAfterCreate, if_neg hne, if_pos hnormal]
    simp only [hself, if_true, setThreadMode_slots]
    refine h.makeSoft hlive rfl ?_ fun u _ hu => ?_
    · split
      · next hzero =>
        exact mem_setSlotNum_one
          (.inr (hcap (.inr ⟨hnormal, Vector.count_eq_zero.mp hzero⟩)))
      · next hpos => exact Vector.count_pos_iff.mp (Nat.pos_of_ne_zero hpos)
    · split
      · rwa [mem_setSlotNum_of_ne (slotT_ne_slotS u) (slotT_ne_slotD u)]
      · exact hu

/-! ## Section 4: Ending a thread -/

/-- Everything the scheduler looks at is as it was, but for the end of thread
    `t`. -/
structure Ended (t : Tid b) (s s' : OsState b) : Prop where
  slots : s'.slots = s.slots
  tmodes : s'.tmodes = s.tmodes
  kernelState : s'.kernelState = s.kernelState
  dead : s'.live t = false
  live : ∀ u, u ≠ t → s'.live u = s.live u

/-- The robust-mutex loop touches the CSRs only. -/
theorem foldl_releaseRobust_eq (t : Tid b) (l : List (Fin flexpretMutexMaxNum)) (s : OsState b) :
    ∃ csrs, l.foldl (releaseRobust t) s = { s with csrs := csrs } := by
  induction l generalizing s with
  | nil => exact ⟨s.csrs, rfl⟩
  | cons i l ih =>
    obtain ⟨csrs, hcsrs⟩ := ih (releaseRobust t s i)
    refine ⟨csrs, ?_⟩
    rw [List.foldl_cons, hcsrs]
    simp only [releaseRobust]
    split <;> rfl

theorem threadClean_ended (me t : Tid b) (s : OsState b) : Ended t s (threadClean me t s) := by
  obtain ⟨csrs, hcsrs⟩ :=
    foldl_releaseRobust_eq t (List.finRange flexpretMutexMaxNum) (resetThread me t s)
  simp only [threadClean, hcsrs]
  refine ⟨?_, ?_, ?_, by simp [OsState.live], fun u hu => ?_⟩
  · simp only [resetThread]
    split <;> rfl
  · simp only [resetThread]
    split <;> rfl
  · simp only [resetThread]
    split <;> rfl
  · simp only [OsState.live, resetThread]
    split <;> simp [osTimerDelete, hu]

theorem SlotInv.ended {t : Tid b} {s s' : OsState b} (h : SlotInv s.slots s.tmodes s.live)
    (hended : Ended t s s') : SlotInv s'.slots s'.tmodes s'.live := by
  have hlive : ∀ u, s'.live u = true → s.live u = true := by
    intro u hu
    by_cases hut : u = t
    · rw [hut, hended.dead] at hu
      exact absurd hu Bool.false_ne_true
    · rwa [← hended.live u hut]
  rw [hended.slots, hended.tmodes]
  exact ⟨fun u hu => h.hard u (hlive u hu), fun u hu => h.soft u (hlive u hu)⟩

theorem SlotInv.of_soft_eq {slots : Slots} {tmodes tmodes' : Tid b → Tmode}
    {live : Tid b → Bool} (h : SlotInv slots tmodes live)
    (hsoft : ∀ u, (tmodes' u).soft = (tmodes u).soft) : SlotInv slots tmodes' live :=
  ⟨fun u hu hu' => h.hard u hu (hsoft u ▸ hu'), fun u hu hu' => h.soft u hu (hsoft u ▸ hu')⟩

theorem osSchedulerSetSlotNum_zero (s : OsState b) (t : Tid b) :
    (osSchedulerSetSlotNum s t 0).1 =
      { s with slots := (setSlotNum s.slots (slotT t) 0).1 } := rfl

/-- Terminating a thread that `thread_clean` has just ended, or that had ended
    before. -/
theorem slotInv_threadTerminate {me t : Tid b} {clean : Bool} {s : OsState b}
    (h : SlotInv s.slots s.tmodes s.live) (hdead : clean = true ∨ s.live t = false) :
    SlotInv (threadTerminate me t clean s).slots (threadTerminate me t clean s).tmodes
      (threadTerminate me t clean s).live := by
  obtain ⟨s₁, hs₁, hinv, hdead₁⟩ : ∃ s₁, (if clean then threadClean me t s else s) = s₁ ∧
      SlotInv s₁.slots s₁.tmodes s₁.live ∧ s₁.live t = false := by
    cases clean with
    | true =>
      have hended := threadClean_ended me t s
      exact ⟨_, rfl, h.ended hended, hended.dead⟩
    | false => exact ⟨_, rfl, h, hdead.resolve_left Bool.false_ne_true⟩
  simp only [threadTerminate, hs₁, osSchedulerSetSlotNum_zero]
  have hsrtt : SlotInv (srttTerminate s₁ t).slots
      (setThreadMode (srttTerminate s₁ t) t .zombie).tmodes (srttTerminate s₁ t).live :=
    (slotInv_srttTerminate hinv hdead₁).of_soft_eq (setThreadMode_soft_lbit rfl)
  split
  · exact hsrtt
  · split
    · exact (hinv.drop hdead₁).of_soft_eq (setThreadMode_soft_lbit rfl)
    · split
      · exact (hinv.drop hdead₁).of_soft_eq (setThreadMode_soft_lbit rfl)
      · exact hsrtt

theorem threadTerminate_kernelState (me t : Tid b) (clean : Bool) (s : OsState b) :
    (threadTerminate me t clean s).kernelState = s.kernelState := by
  obtain ⟨s₁, hs₁, hclean⟩ : ∃ s₁, (if clean then threadClean me t s else s) = s₁ ∧
      s₁.kernelState = s.kernelState := by
    cases clean with
    | true => exact ⟨_, rfl, (threadClean_ended me t s).kernelState⟩
    | false => exact ⟨_, rfl, rfl⟩
  simp only [threadTerminate, hs₁, osSchedulerSetSlotNum_zero, setThreadMode]
  split
  · exact hclean
  · split
    · exact hclean
    · split <;> exact hclean

/-! ## Section 5: Creating a thread -/

theorem osThreadNewAttr_priority (t : Tid b) (attr : Option OsThreadAttr) :
    (osThreadNewAttr t attr).priority =
      (attr.map OsThreadAttr.priority).getD osPriorityNormal := by
  cases attr <;> rfl

theorem createThread_live_self {s : OsState b} {t : Tid b} {func : Ptr} (h : func ≠ NULL)
    (argument : Ptr) (attr : Option OsThreadAttr) :
    (createThread s t func argument attr).live t = true := by
  simpa [createThread, OsState.live] using h

theorem createThread_live_ne {s : OsState b} {t u : Tid b} (h : u ≠ t) (func argument : Ptr)
    (attr : Option OsThreadAttr) :
    (createThread s t func argument attr).live u = s.live u := by
  simp [createThread, OsState.live, h]

/-- What `osThreadNew` can do: nothing, or create the next thread. -/
theorem osThreadNew_cases (s : OsState b) (func argument : Ptr) (attr : Option OsThreadAttr) :
    osThreadNew s func argument attr = (s, none) ∨
    ∃ h : s.flexpretThreadNum < b.hwThreadsNums, func ≠ NULL ∧
      ((attr.map OsThreadAttr.priority).getD osPriorityNormal = osPriorityRealtime ∨
       (attr.map OsThreadAttr.priority).getD osPriorityNormal = osPriorityNormal) ∧
      let tid : Tid b := ⟨s.flexpretThreadNum, h⟩
      let s' := createThread s tid func argument attr
      osThreadNew s func argument attr =
        (if s.kernelState = .osKernelRunning then threadAfterCreate s' tid else s', some tid) := by
  by_cases hfunc : func = NULL
  · exact .inl (by rw [osThreadNew, if_pos hfunc])
  by_cases hnum : s.flexpretThreadNum < b.hwThreadsNums
  · by_cases hprio : ∃ a ∈ attr, a.priority ≠ osPriorityRealtime ∧ a.priority ≠ osPriorityNormal
    · exact .inl (by rw [osThreadNew, if_neg hfunc, dif_pos hnum, if_pos hprio])
    · refine .inr ⟨hnum, hfunc, ?_, ?_⟩
      · cases attr with
        | none => exact .inr rfl
        | some a =>
          by_contra hnot
          exact hprio ⟨a, rfl, not_or.mp hnot⟩
      · rw [osThreadNew, if_neg hfunc, dif_pos hnum, if_neg hprio]
        rfl
  · exact .inl (by rw [osThreadNew, if_neg hfunc, dif_neg hnum])

theorem threadAfterCreate_kernelState (s : OsState b) (t : Tid b) :
    (threadAfterCreate s t).kernelState = s.kernelState := by
  simp only [threadAfterCreate]
  split
  · rfl
  · split <;> rfl

theorem threadAfterCreate_live (s : OsState b) (t : Tid b) :
    (threadAfterCreate s t).live = s.live := by
  simp only [threadAfterCreate]
  split
  · rfl
  · split <;> rfl

theorem schedInv_threadNew {s : OsState b} (h : SchedInv s) {func argument : Ptr}
    {attr : Option OsThreadAttr} (hcap : AddsBelowCap s (.threadNew func argument attr)) :
    SchedInv (osThreadNew s func argument attr).1 := by
  obtain hnone | ⟨hnum, hfunc, hprio, hnew⟩ := osThreadNew_cases s func argument attr
  · rw [hnone]
    exact h
  · rw [hnew]
    have hprio' := osThreadNewAttr_priority (⟨s.flexpretThreadNum, hnum⟩ : Tid b) attr
    by_cases hrun : s.kernelState = .osKernelRunning
    · simp only [if_pos hrun]
      refine SchedInv.of_running ?_ ?_
      · rw [threadAfterCreate_kernelState]
        exact hrun
      · rw [threadAfterCreate_live]
        refine slotInv_threadAfterCreate (h.slotInv hrun)
          (createThread_live_self hfunc argument attr)
          (fun u hu hlive => ?_) ?_ (fun hneed => hcap ⟨hfunc, hrun, hnum, ?_⟩)
        · rwa [createThread_live_ne hu] at hlive
        · simpa [createThread, hprio'] using hprio
        · simpa [createThread, hprio'] using hneed
    · simp only [if_neg hrun]
      refine ⟨h.noSoftSlot, fun _ t ht hlive => ?_, fun h' => absurd h' hrun,
        fun h' => absurd h' hrun⟩
      by_cases htid : t = ⟨s.flexpretThreadNum, hnum⟩
      · subst htid
        simpa [createThread, hprio'] using hprio
      · rw [createThread_live_ne htid] at hlive
        simpa [createThread, htid] using h.priority hrun t ht hlive

/-! ## Section 6: osKernelStart -/

theorem live_congr {s s' : OsState b} {t : Tid b}
    (h : (s'.thread t).func = (s.thread t).func) : s'.live t = s.live t := by
  simp only [OsState.live, h]

/-- The field of the slot CSR at the index of thread `t`. -/
def Slots.field (slots : Slots) (t : Tid b) : BitVec 4 :=
  slots[t.castLE b.hwThreadsNums_le]

theorem Slots.field_mem (slots : Slots) (t : Tid b) : slots.field t ∈ slots := by
  simp [Slots.field]

@[simp] theorem KernelStart.assign_field_self (k : KernelStart b) (t : Tid b) (slot : BitVec 4)
    (mode : Tmode) : (k.assign t slot mode).slots.field t = slot := by
  simp [KernelStart.assign, Slots.field]

theorem KernelStart.assign_field_ne {k : KernelStart b} {t u : Tid b} (h : u ≠ t)
    (slot : BitVec 4) (mode : Tmode) :
    (k.assign t slot mode).slots.field u = k.slots.field u := by
  have hval : t.val ≠ u.val := fun heq => h (Fin.ext heq.symm)
  simp [KernelStart.assign, Slots.field, Vector.getElem_set_ne, hval]

@[simp] theorem KernelStart.assign_modes_self (k : KernelStart b) (t : Tid b)
    (slot : BitVec 4) (mode : Tmode) : (k.assign t slot mode).modes t = mode := by
  simp [KernelStart.assign]

theorem KernelStart.assign_modes_ne {k : KernelStart b} {t u : Tid b} (h : u ≠ t)
    (slot : BitVec 4) (mode : Tmode) : (k.assign t slot mode).modes u = k.modes u := by
  simp [KernelStart.assign, h]

/-- The loop has seen the threads in `done`: the live hard ones have their
    slot, and the first live soft one took a soft slot. -/
structure KernelStartInv (s : OsState b) (done : List (Tid b)) (k : KernelStart b) : Prop where
  func : ∀ t, (k.thread t).func = (s.thread t).func
  hard : ∀ t ∈ done, s.live t = true → (k.modes t).soft = false → k.slots.field t = slotT t
  soft : ∀ t ∈ done, s.live t = true → (k.modes t).soft = true → k.defaultSoftSlotId ≠ -1
  softSlot : k.defaultSoftSlotId ≠ -1 → ∃ t ∈ done, k.slots.field t = slotS

/-- A turn writes field `i` and mode `i`; what it writes keeps the invariant
    when it does for `i`. -/
theorem KernelStartInv.assign {s : OsState b} {done : List (Tid b)} {k k' : KernelStart b}
    {i : Tid b} {slot : BitVec 4} {mode : Tmode} (h : KernelStartInv s done k) (hi : i ∉ done)
    (hslots : k'.slots = (k.assign i slot mode).slots)
    (hmodes : k'.modes = (k.assign i slot mode).modes)
    (hfunc : ∀ t, (k'.thread t).func = (k.thread t).func)
    (hhard : s.live i = true → mode.soft = false → slot = slotT i)
    (hsoft : s.live i = true → mode.soft = true → k'.defaultSoftSlotId ≠ -1)
    (hid : k'.defaultSoftSlotId = k.defaultSoftSlotId ∨
      k'.defaultSoftSlotId ≠ -1 ∧ slot = slotS) :
    KernelStartInv s (i :: done) k' := by
  have hne : ∀ t ∈ done, t ≠ i := fun t ht heq => hi (heq ▸ ht)
  refine ⟨fun t => (hfunc t).trans (h.func t), fun t ht hlive hmode => ?_,
    fun t ht hlive hmode => ?_, fun hset => ?_⟩
  · rw [hmodes] at hmode
    rw [hslots]
    obtain rfl | ht := List.mem_cons.mp ht
    · rw [KernelStart.assign_modes_self] at hmode
      rw [KernelStart.assign_field_self]
      exact hhard hlive hmode
    · rw [KernelStart.assign_modes_ne (hne t ht)] at hmode
      rw [KernelStart.assign_field_ne (hne t ht)]
      exact h.hard t ht hlive hmode
  · rw [hmodes] at hmode
    obtain rfl | ht := List.mem_cons.mp ht
    · rw [KernelStart.assign_modes_self] at hmode
      exact hsoft hlive hmode
    · rw [KernelStart.assign_modes_ne (hne t ht)] at hmode
      obtain hsame | hnew := hid
      · rw [hsame]
        exact h.soft t ht hlive hmode
      · exact hnew.1
  · rw [hslots]
    obtain hsame | hnew := hid
    · obtain ⟨t, ht, hfield⟩ := h.softSlot (hsame ▸ hset)
      exact ⟨t, List.mem_cons_of_mem _ ht, by rw [KernelStart.assign_field_ne (hne t ht), hfield]⟩
    · exact ⟨i, List.mem_cons_self, by rw [KernelStart.assign_field_self, hnew.2]⟩

theorem kernelStartInv_turn {s : OsState b} {done : List (Tid b)} {k : KernelStart b}
    {i : Tid b} (h : KernelStartInv s done k) (hi : i ∉ done)
    (hprio : s.live i = true → (s.attr i).priority = osPriorityRealtime ∨
      (s.attr i).priority = osPriorityNormal) :
    KernelStartInv s (i :: done) (kernelStartTurn s.attr k i) := by
  have hlive : (k.thread i).func ≠ NULL ↔ s.live i = true := by
    rw [h.func i, OsState.live, decide_eq_true_eq]
  have hfunc : ∀ t, (Function.update k.thread i { k.thread i with state := .active } t).func =
      (k.thread t).func := by
    intro t
    by_cases hti : t = i
    · subst hti
      rw [Function.update_self]
    · rw [Function.update_of_ne hti]
  simp only [kernelStartTurn]
  split
  · next hfuncNe =>
    have hi' := hprio (hlive.mp hfuncNe)
    split
    · refine h.assign hi rfl rfl hfunc (fun _ _ => rfl) (fun _ hsoft => ?_) (.inl rfl)
      exact absurd hsoft (by decide)
    · next hne =>
      rw [if_pos (hi'.resolve_left hne)]
      split
      · have hset : ((i.val : Int)) ≠ -1 := by omega
        refine h.assign hi rfl rfl hfunc (fun _ hhard => ?_) (fun _ _ => hset)
          (.inr ⟨hset, rfl⟩)
        exact absurd hhard (by decide)
      · next hset =>
        refine h.assign hi rfl rfl hfunc (fun _ hhard => ?_) (fun _ _ => hset) (.inl rfl)
        exact absurd hhard (by decide)
  · next hdead =>
    have hdead' : s.live i ≠ true := mt hlive.mpr hdead
    exact h.assign hi rfl rfl (fun _ => rfl) (fun hl => absurd hl hdead')
      (fun hl => absurd hl hdead') (.inl rfl)

/-- The locals when the loop of `osKernelStart` begins. -/
def kernelStartInit (s : OsState b) : KernelStart b where
  slots := (Vector.replicate 8 slotD).set 0 (slotT (0 : Tid b)) slots_pos
  modes := fun _ => tmodeHA
  thread := s.thread
  defaultSoftSlotId := s.defaultSoftSlotId

/-- The locals when it ends. -/
def kernelStartEnd (s : OsState b) : KernelStart b :=
  ((List.finRange b.hwThreadsNums).filter (· ≠ 0)).foldl (kernelStartTurn s.attr)
    (kernelStartInit s)

theorem osKernelStart_eq (s : OsState b) :
    (osKernelStart s).1 =
      { s with
        slots := (kernelStartEnd s).slots
        tmodes := (kernelStartEnd s).modes
        thread := (kernelStartEnd s).thread
        defaultSoftSlotId := (kernelStartEnd s).defaultSoftSlotId
        kernelState := .osKernelRunning } := rfl

/-- **The loop of osKernelStart** has visited every thread when it ends. -/
theorem kernelStart_loop {s : OsState b} {inv : List (Tid b) → KernelStart b → Prop}
    (hstart : inv [0] (kernelStartInit s))
    (hturn : ∀ done k i, inv done k → i ∉ done → i ≠ 0 →
      inv (i :: done) (kernelStartTurn s.attr k i)) :
    ∃ done, (∀ t, t ∈ done) ∧ inv done (kernelStartEnd s) := by
  refine ⟨_, fun t => ?_, foldl_visited _ [0] _ hstart ((List.nodup_finRange _).filter _) ?_ ?_⟩
  · by_cases ht : t = 0
    · simp [ht]
    · simp [ht]
  · intro t ht
    simpa using ht
  · intro done k i hi hinv hnew
    exact hturn done k i hinv hnew (by simpa using hi)

theorem schedInv_kernelStart {s : OsState b} (h : SchedInv s)
    (hrun : s.kernelState ≠ .osKernelRunning) : SchedInv (osKernelStart s).1 := by
  have hstart : KernelStartInv s [0] (kernelStartInit s) := by
    refine ⟨fun _ => rfl, fun t ht _ _ => ?_, fun t _ _ hsoft => ?_, fun hset => ?_⟩
    · obtain rfl := List.mem_singleton.mp ht
      simp [kernelStartInit, Slots.field]
    · exact absurd hsoft (show ¬ tmodeHA.soft = true by decide)
    · exact absurd (h.noSoftSlot hrun) hset
  obtain ⟨done, hall, hend⟩ := kernelStart_loop hstart
    fun done k i hinv hi hne => kernelStartInv_turn hinv hi (h.priority hrun i hne)
  have hlive : (osKernelStart s).1.live = s.live := by
    funext t
    exact live_congr (hend.func t)
  refine SchedInv.of_running rfl ?_
  rw [hlive]
  refine ⟨fun t ht hhard => ?_, fun t ht hsoft => ?_⟩
  · have hfield := hend.hard t (hall t) ht hhard
    rw [← hfield]
    exact Slots.field_mem _ _
  · obtain ⟨u, _, hu⟩ := hend.softSlot (hend.soft t (hall t) ht hsoft)
    rw [← hu]
    exact Slots.field_mem _ _

/-! ## Section 7: The invariant along runs -/

theorem setState_live (s : OsState b) (t : Tid b) (state : HwthreadStateType) :
    (setState s t state).live = s.live := by
  funext u
  by_cases hut : u = t
  · subst hut
    simp [setState, OsState.live]
  · simp [setState, OsState.live, hut]

theorem schedInv_setPriority {s : OsState b} (h : SchedInv s)
    (hrun : s.kernelState = .osKernelRunning) {threadId : Option (Tid b)}
    {priority : OsPriority} (hcap : AddsBelowCap s (.threadSetPriority threadId priority)) :
    SchedInv (osThreadSetPriority s threadId priority).1 := by
  cases threadId with
  | none => exact h
  | some t =>
    simp only [osThreadSetPriority]
    split
    · exact h
    · next hne =>
      split
      · next hrt =>
        refine SchedInv.of_running hrun ?_
        exact slotInv_changeSrttToHrtt (h.slotInv hrun)
          fun hown => hcap ⟨hne, .inl ⟨hrt, hown⟩⟩
      · split
        · next hnormal =>
          refine SchedInv.of_running hrun ?_
          exact slotInv_changeHrttToSrtt (h.slotInv hrun)
            fun hzero hsoft => hcap ⟨hne, .inr ⟨hnormal, hzero, hsoft⟩⟩
        · exact h

theorem schedInv_threadTerminate {s : OsState b} (h : SchedInv s)
    (hrun : s.kernelState = .osKernelRunning) {me t : Tid b} {clean : Bool}
    (hdead : clean = true ∨ s.live t = false) : SchedInv (threadTerminate me t clean s) := by
  refine SchedInv.of_running ?_ (slotInv_threadTerminate (h.slotInv hrun) hdead)
  rw [threadTerminate_kernelState, hrun]

theorem schedInv_threadClean {s : OsState b} (h : SchedInv s)
    (hrun : s.kernelState = .osKernelRunning) (me t : Tid b) :
    SchedInv (threadClean me t s) := by
  have hended := threadClean_ended me t s
  refine SchedInv.of_running ?_ ((h.slotInv hrun).ended hended)
  rw [hended.kernelState, hrun]

/-- Every call keeps the invariant. -/
theorem schedInv_exec {s s' : OsState b} {call : OsCall b} {result : OsResult b}
    (h : SchedInv s) (horder : call.inOrder s = true) (hcap : AddsBelowCap s call)
    (hexec : call.exec s = some (s', result)) : SchedInv s' := by
  cases call with
  | threadNew func argument attr =>
    obtain ⟨rfl, _⟩ := Prod.mk.inj (Option.some.inj hexec)
    exact schedInv_threadNew h hcap
  | kernelStart =>
    obtain ⟨rfl, _⟩ := Prod.mk.inj (Option.some.inj hexec)
    exact schedInv_kernelStart h (of_decide_eq_true horder)
  | threadSetPriority threadId priority =>
    obtain ⟨rfl, _⟩ := Prod.mk.inj (Option.some.inj hexec)
    exact schedInv_setPriority h (of_decide_eq_true horder) hcap
  | threadSuspend t =>
    obtain ⟨rfl, _⟩ := Prod.mk.inj (Option.some.inj hexec)
    have hrun := of_decide_eq_true horder
    refine SchedInv.of_running hrun ?_
    have hinv := (h.slotInv hrun).of_soft_eq
      (setThreadMode_soft_lbit (s := s) (t := t) (m := .zombie) rfl)
    have hlive : (osThreadSuspend s t).1.live = s.live := setState_live s t .blocked
    rw [hlive]
    exact hinv
  | threadResume t =>
    obtain ⟨rfl, _⟩ := Prod.mk.inj (Option.some.inj hexec)
    have hrun := of_decide_eq_true horder
    refine SchedInv.of_running hrun ?_
    have hinv := (h.slotInv hrun).of_soft_eq
      (setThreadMode_soft_lbit (s := s) (t := t) (m := .active) rfl)
    have hlive : (osThreadResume s t).1.live = s.live :=
      setState_live (setThreadMode s t .active) t .active
    rw [hlive]
    exact hinv
  | threadTerminate me threadId =>
    obtain ⟨rfl, _⟩ := Prod.mk.inj (Option.some.inj hexec)
    have hrun := of_decide_eq_true horder
    cases threadId with
    | none => exact h
    | some t =>
      simp only [osThreadTerminate]
      split
      · exact schedInv_threadClean h hrun me t
      · exact schedInv_threadTerminate h hrun (.inl rfl)
  | threadJoin me threadId =>
    obtain ⟨r, hjoin, hr⟩ := Option.map_eq_some_iff.mp hexec
    obtain ⟨rfl, _⟩ := Prod.mk.inj hr
    have hrun := of_decide_eq_true horder
    cases threadId with
    | none =>
      obtain rfl := Option.some.inj hjoin
      exact h
    | some t =>
      simp only [osThreadJoin] at hjoin
      split at hjoin
      · obtain rfl := Option.some.inj hjoin
        exact h
      · split at hjoin
        · obtain rfl := Option.some.inj hjoin
          exact h
        · split at hjoin
          · exact absurd hjoin nofun
          · next hfunc =>
            obtain rfl := Option.some.inj hjoin
            exact schedInv_threadTerminate h hrun (.inr (by simpa [OsState.live] using hfunc))
  | threadExit me =>
    obtain ⟨rfl, _⟩ := Prod.mk.inj (Option.some.inj hexec)
    exact schedInv_threadClean h (of_decide_eq_true horder) me me

theorem schedInv_preserved {s s' : OsState b} {call : OsCall b} (h : SchedInv s)
    (hcap : AddsBelowCap s call) (hstep : osStep s call = some s') : SchedInv s' := by
  simp only [osStep] at hstep
  split at hstep
  · next horder =>
    obtain ⟨r, hexec, rfl⟩ := Option.map_eq_some_iff.mp hstep
    exact schedInv_exec h horder hcap hexec
  · exact absurd hstep nofun

theorem newSlotMutex_frame (s : OsState b) :
    (newSlotMutex s).thread = s.thread ∧ (newSlotMutex s).slots = s.slots ∧
      (newSlotMutex s).tmodes = s.tmodes ∧
      (newSlotMutex s).defaultSoftSlotId = s.defaultSoftSlotId ∧
      (newSlotMutex s).flexpretThreadNum = s.flexpretThreadNum := by
  simp only [newSlotMutex, osMutexNew]
  split
  · next heq =>
    split at heq
    · obtain ⟨rfl, -⟩ := Prod.mk.inj heq
      simp only [osMutexSetSpin]
      split <;> exact ⟨rfl, rfl, rfl, rfl, rfl⟩
    · exact absurd (Prod.mk.inj heq).2 nofun
  · next heq =>
    split at heq
    · exact absurd (Prod.mk.inj heq).2 nofun
    · obtain ⟨rfl, -⟩ := Prod.mk.inj heq
      exact ⟨rfl, rfl, rfl, rfl, rfl⟩

/-- `osKernelInitialize` starts no thread and takes no soft slot. -/
theorem osKernelInitialize_frame (bssEnd : Ptr) (attr : Tid b → OsThreadAttr) (s : OsState b) :
    (∀ t, t ≠ 0 → (osKernelInitialize bssEnd attr s).live t = s.live t) ∧
    (osKernelInitialize bssEnd attr s).defaultSoftSlotId = s.defaultSoftSlotId := by
  simp only [osKernelInitialize]
  refine ⟨fun t ht => live_congr ?_, (newSlotMutex_frame _).2.2.2.1⟩
  simp only [Function.update_of_ne ht, (newSlotMutex_frame _).1]

theorem schedInv_initial {s : OsState b} (h : osInit s) : SchedInv s := by
  obtain ⟨s₀, bssEnd, flexpretThreadAttr, hreset, rfl⟩ := h
  obtain ⟨hlive, hdefault⟩ := osKernelInitialize_frame bssEnd flexpretThreadAttr s₀
  have hready : (osKernelInitialize bssEnd flexpretThreadAttr s₀).kernelState = .osKernelReady :=
    rfl
  refine ⟨fun _ => hdefault.trans hreset.defaultSoftSlotId, fun _ t ht hl => ?_,
    fun hrun => ?_, fun hrun => ?_⟩
  · rw [hlive t ht] at hl
    exact absurd hl (by simp [OsState.live, hreset.noThread t ht])
  · rw [hready] at hrun
    exact absurd hrun nofun
  · rw [hready] at hrun
    exact absurd hrun nofun

theorem schedInv_reachable {s : OsState b}
    (h : ((osSystem b).restrict AddsBelowCap).Reachable s) : SchedInv s :=
  h.invariant SchedInv (fun _ => schedInv_initial)
    (fun _ _ _ _ hinv hstep => schedInv_preserved hinv hstep.1 hstep.2)

/-! ## Section 8: Schedulability of every run -/

theorem osThreadNew_live {s : OsState b} {func argument : Ptr} {attr : Option OsThreadAttr}
    {t : Tid b} (h : (osThreadNew s func argument attr).2 = some t) :
    (osThreadNew s func argument attr).1.live t = true := by
  obtain hnone | ⟨hnum, hfunc, -, hnew⟩ := osThreadNew_cases s func argument attr
  · rw [hnone] at h
    exact absurd h nofun
  · rw [hnew] at h ⊢
    obtain rfl := Option.some.inj h
    have hlive := createThread_live_self (s := s) (t := ⟨s.flexpretThreadNum, hnum⟩) hfunc
      argument attr
    split
    · rwa [threadAfterCreate_live]
    · exact hlive

theorem osThreadNew_kernelState (s : OsState b) (func argument : Ptr)
    (attr : Option OsThreadAttr) :
    (osThreadNew s func argument attr).1.kernelState = s.kernelState := by
  obtain hnone | ⟨hnum, -, -, hnew⟩ := osThreadNew_cases s func argument attr
  · rw [hnone]
  · rw [hnew]
    simp only
    split
    · rw [threadAfterCreate_kernelState]
      rfl
    · rfl

theorem osThreadSetPriority_kernelState (s : OsState b) (threadId : Option (Tid b))
    (priority : OsPriority) :
    (osThreadSetPriority s threadId priority).1.kernelState = s.kernelState := by
  cases threadId with
  | none => rfl
  | some t =>
    simp only [osThreadSetPriority]
    split
    · rfl
    · split
      · rfl
      · split <;> rfl

theorem osThreadSetPriority_live (s : OsState b) (threadId : Option (Tid b))
    (priority : OsPriority) :
    (osThreadSetPriority s threadId priority).1.live = s.live := by
  cases threadId with
  | none => rfl
  | some t =>
    simp only [osThreadSetPriority]
    split
    · rfl
    · split
      · rfl
      · split <;> rfl

/-- A reset of build `b`: `main` at `0x400`, everything else zero. -/
def resetState (b : OsBuild) : OsState b where
  slots := #v[0, slotD, slotD, slotD, slotD, slotD, slotD, slotD]
  tmodes := fun t => if t = 0 then tmodeHA else tmodeHZ
  thread := fun t =>
    { func := if t = 0 then 0x400 else NULL
      state := .inactive
      arg := NULL
      stackAddress := b.flexpretThreadInitStackAddr t }
  attr := fun _ => ⟨0, NULL, 0, osPriorityNone⟩
  flexpretThreadNum := 1
  defaultSoftSlotId := -1
  kernelState := .osKernelInactive
  timer := fun _ => ⟨0, NULL, NULL⟩
  timerActive := fun _ => false
  compare := fun _ => 0
  mutex := fun _ => ⟨none, 0, 0, false, false, false, false⟩
  flexpretMutexNum := 0
  csrs := fun _ => 0

theorem resetState_atReset (b : OsBuild) : AtReset (resetState b) := by
  refine ⟨?_, ?_, rfl, rfl, rfl⟩
  · simp [resetState, NULL]
  · intro t ht
    simp [resetState, ht]

/-- The state `osKernelInitialize` makes of it. -/
def initialized (b : OsBuild) : OsState b :=
  osKernelInitialize 0x20000800 (resetState b).attr (resetState b)

theorem initialized_osInit (b : OsBuild) : osInit (initialized b) :=
  ⟨resetState b, 0x20000800, (resetState b).attr, resetState_atReset b, rfl⟩

/-- **Schedulability**: in every run whose calls never need a new slot when
    seven are in use, every live thread has a slot after every call; in
    particular one that `osThreadNew` has returned, or whose priority
    `osThreadSetPriority` has set. -/
theorem schedulable_reachable (b : OsBuild) (s : OsState b)
    (h : ((osSystem b).restrict AddsBelowCap).Reachable s)
    (hrun : s.kernelState = .osKernelRunning) :
    Schedulable s ∧
    (∀ func argument attr t, AddsBelowCap s (.threadNew func argument attr) →
      (osThreadNew s func argument attr).2 = some t →
      (osThreadNew s func argument attr).1.HasSlot t) ∧
    (∀ t priority, AddsBelowCap s (.threadSetPriority (some t) priority) → s.live t = true →
      (osThreadSetPriority s (some t) priority).2 = .osOK →
      (osThreadSetPriority s (some t) priority).1.HasSlot t) := by
  have hinv := schedInv_reachable h
  refine ⟨hinv.schedulable hrun, fun func argument attr t hcap hnew => ?_,
    fun t priority hcap hlive _ => ?_⟩
  · have hinv' := schedInv_threadNew hinv hcap
    exact (hinv'.schedulable (by rw [osThreadNew_kernelState, hrun])).hasSlot
      (osThreadNew_live hnew)
  · have hinv' := schedInv_setPriority hinv hrun hcap
    refine (hinv'.schedulable ?_).hasSlot ?_
    · rw [osThreadSetPriority_kernelState, hrun]
    · rwa [osThreadSetPriority_live]

/-- A normal thread has been created. -/
def softCreated : OsState .threads4Dspm12 :=
  (osThreadNew (initialized .threads4Dspm12) 0x800 NULL none).1

theorem softStarted_reachable :
    ((osSystem .threads4Dspm12).restrict AddsBelowCap).Reachable
      (osKernelStart softCreated).1 := by
  have hnew : osStep (initialized .threads4Dspm12) (.threadNew 0x800 NULL none) =
      some softCreated := rfl
  have hstart : osStep softCreated .kernelStart = some (osKernelStart softCreated).1 := rfl
  refine System.Reachable.step .kernelStart
    (System.Reachable.step (.threadNew 0x800 NULL none)
      (System.Reachable.init (initialized_osInit _)) ⟨fun hneed => ?_, hnew⟩)
    ⟨fun hneed => hneed.elim, hstart⟩
  exact absurd hneed.2.1 (by decide)

/-- A realtime thread has been created then. -/
def hardAdded : OsState .threads4Dspm12 :=
  (osThreadNew (osKernelStart softCreated).1 0x900 NULL
    (some ⟨osThreadJoinable, NULL, 0, osPriorityRealtime⟩)).1

/-- The call adds a slot, and six are free. -/
theorem hardAdded_reachable :
    ((osSystem .threads4Dspm12).restrict AddsBelowCap).Reachable hardAdded := by
  have hnew : osStep (osKernelStart softCreated).1 (.threadNew 0x900 NULL
      (some ⟨osThreadJoinable, NULL, 0, osPriorityRealtime⟩)) = some hardAdded := rfl
  refine System.Reachable.step (.threadNew 0x900 NULL _) softStarted_reachable ⟨fun _ => ?_, hnew⟩
  decide +kernel

/-- A soft thread and a hard one that was created after the start. -/
theorem hardAdded_schedulable :
    OsCall.NeedsSlot (osKernelStart softCreated).1 (.threadNew 0x900 NULL
      (some ⟨osThreadJoinable, NULL, 0, osPriorityRealtime⟩)) ∧
    hardAdded.live 1 = true ∧ hardAdded.live 2 = true ∧ Schedulable hardAdded := by
  refine ⟨?_, by decide +kernel, by decide +kernel, ?_⟩
  · unfold OsCall.NeedsSlot
    decide +kernel
  · exact (schedulable_reachable .threads4Dspm12 hardAdded hardAdded_reachable rfl).1

/-- Seven realtime threads, the kernel started, then thread 1 made normal. -/
def capRun : List (OsCall .threads8) :=
  List.replicate 7 (.threadNew 0x800 NULL (some ⟨0, NULL, 0, osPriorityRealtime⟩)) ++
    [.kernelStart, .threadSetPriority (some 1) osPriorityNormal]

def capEnd : OsState .threads8 :=
  (System.execute osStep (initialized .threads8) capRun).getD (initialized .threads8)

theorem capEnd_reachable : (osSystem .threads8).Reachable capEnd := by
  have hsome : (System.execute osStep (initialized .threads8) capRun).isSome = true := by
    decide
  obtain ⟨s, hs⟩ := Option.isSome_iff_exists.mp hsome
  have hend : capEnd = s := by rw [capEnd, hs, Option.getD_some]
  rw [hend]
  exact (System.Reachable.init (initialized_osInit _)).run (System.run_of_execute hs)

/-- Thread 1 is live and soft, and no slot is left in which it could run. -/
theorem capEnd_thread_one :
    capEnd.live 1 = true ∧ (capEnd.tmodes 1).soft = true ∧
      capEnd.slots = #v[0, slotD, 2, 3, 4, 5, 6, 7] := by
  decide +kernel

theorem capEnd_not_schedulable :
    (osSystem .threads8).Reachable capEnd ∧ capEnd.kernelState = .osKernelRunning ∧
      ¬ Schedulable capEnd := by
  obtain ⟨hlive, hsoft, hslots⟩ := capEnd_thread_one
  refine ⟨capEnd_reachable, by decide, fun h => ?_⟩
  have hslot := h.soft 1 hlive hsoft
  rw [hslots] at hslot
  exact absurd hslot (by decide +kernel)

end Flexpret.Os
