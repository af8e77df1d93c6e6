import Flexpret.Lib.Numerals
import Flexpret.Os.Mutex
import Mathlib.Data.Vector.Basic

/-! # OS State and the Slot and Mode CSRs

    The state the OS calls read and write, and the functions of the OS
    scheduler: `set_slot_num`, `set_thread_mode`, and the four that follow a
    thread's creation, termination or change of priority.

    The calls here run one after the other and find the slot mutex free, so
    `acquire_slot_mutex` and `release_slot_mutex` around each body leave no
    trace.
-/

namespace Flexpret.Os

/-! ## Section 1: Builds and types -/

/-- The builds `FLEXPRET_HW_THREADS_NUMS` and `FLEXPRET_DSPM_SIZE` allow. -/
inductive OsBuild where
  | threads4Dspm12
  | threads4Dspm64
  | threads8
  deriving DecidableEq

/-- `FLEXPRET_HW_THREADS_NUMS`. -/
def OsBuild.hwThreadsNums : OsBuild → Nat
  | .threads4Dspm12 => 4
  | .threads4Dspm64 => 4
  | .threads8 => 8

theorem OsBuild.hwThreadsNums_le (b : OsBuild) : b.hwThreadsNums ≤ 8 := by
  cases b <;> decide

theorem OsBuild.hwThreadsNums_pos (b : OsBuild) : 0 < b.hwThreadsNums := by
  cases b <;> decide

instance (b : OsBuild) : NeZero b.hwThreadsNums := ⟨b.hwThreadsNums_pos.ne'⟩

/-- A hardware thread of build `b`. -/
abbrev Tid (b : OsBuild) : Type := Fin b.hwThreadsNums

/-- An address; `NULL` is zero. -/
abbrev Ptr : Type := BitVec 32

def NULL : Ptr := 0

/-- `flexpret_thread_init_stack_addr`. -/
def OsBuild.flexpretThreadInitStackAddr : OsBuild → Nat → Ptr
  | .threads4Dspm12, tid =>
      [0x20001BFC, 0x200027FC, 0x200033FC, 0x20003FFC].getD tid 0
  | .threads4Dspm64, tid =>
      [0x20006FFC, 0x20009FFC, 0x2000CFFC, 0x2000FFFC].getD tid 0
  | .threads8, tid =>
      [0x20003BFC, 0x200057FC, 0x200073FC, 0x20008FFC, 0x2000ABFC, 0x2000C7FC, 0x2000E3FC,
        0x2000FFFC].getD tid 0

/-- `hwthread_state_type`. -/
inductive HwthreadStateType where
  | inactive
  | active
  | blocked
  | terminated
  deriving DecidableEq

/-- `hwthread_state`. -/
structure HwthreadState where
  func : Ptr
  state : HwthreadStateType
  arg : Ptr
  stackAddress : Ptr

/-- `osPriority_t`, an `int` with named values. -/
abbrev OsPriority : Type := Int

def osPriorityNone : OsPriority := 0
def osPriorityNormal : OsPriority := 24
def osPriorityRealtime : OsPriority := 48

def osThreadDetached : BitVec 32 := 0
def osThreadJoinable : BitVec 32 := 1

/-- `osThreadAttr_t`, less the fields the OS only stores. -/
structure OsThreadAttr where
  attrBits : BitVec 32
  stackMem : Ptr
  stackSize : BitVec 32
  priority : OsPriority

/-- `hwtimer_state`. -/
structure HwtimerState where
  ticks : BitVec 32
  func : Ptr
  arg : Ptr

/-- A 2-bit field of the mode CSR: `hbit` is set for soft threads, `lbit` for
    sleeping ones. -/
structure Tmode where
  hbit : Bool
  lbit : Bool
  deriving DecidableEq

def tmodeHA : Tmode := ⟨false, false⟩
def tmodeHZ : Tmode := ⟨false, true⟩
def tmodeSA : Tmode := ⟨true, false⟩
def tmodeSZ : Tmode := ⟨true, true⟩

/-- `tmodes[i] == TMODE_SA || tmodes[i] == TMODE_SZ`. -/
def Tmode.soft (m : Tmode) : Bool := m = tmodeSA ∨ m = tmodeSZ

theorem Tmode.soft_eq_hbit (m : Tmode) : m.soft = m.hbit := by
  obtain ⟨_ | _, _ | _⟩ := m <;> rfl

/-- The mode a call of `set_thread_mode` asks for. -/
inductive TmodeRequest where
  | hard
  | soft
  | active
  | zombie
  | sz
  | sa
  | hz
  | ha

/-- The slot CSR: eight 4-bit fields. -/
abbrev Slots : Type := Vector (BitVec 4) 8

theorem slots_pos : 0 < 8 := by decide

def slotS : BitVec 4 := 14
def slotD : BitVec 4 := 15

/-- `SLOT_Ti`. -/
def slotT {b : OsBuild} (t : Tid b) : BitVec 4 := BitVec.ofNat 4 t

@[simp] theorem slotT_ne_slotS {b : OsBuild} (t : Tid b) : slotT t ≠ slotS := by
  have ht := t.isLt.trans_le b.hwThreadsNums_le
  intro h
  have h' : t.val % 2 ^ 4 = 14 := congrArg BitVec.toNat h
  omega

@[simp] theorem slotT_ne_slotD {b : OsBuild} (t : Tid b) : slotT t ≠ slotD := by
  have ht := t.isLt.trans_le b.hwThreadsNums_le
  intro h
  have h' : t.val % 2 ^ 4 = 15 := congrArg BitVec.toNat h
  omega

theorem slotT_injective {b : OsBuild} {t u : Tid b} (h : slotT t = slotT u) : t = u := by
  have ht := t.isLt.trans_le b.hwThreadsNums_le
  have hu := u.isLt.trans_le b.hwThreadsNums_le
  have h' : t.val % 2 ^ 4 = u.val % 2 ^ 4 := congrArg BitVec.toNat h
  exact Fin.ext (by omega)

@[simp] theorem slotS_ne_slotD : slotS ≠ slotD := by decide

/-- `osKernelState_t`, as far as the OS sets it. -/
inductive OsKernelState where
  | osKernelInactive
  | osKernelReady
  | osKernelRunning
  deriving DecidableEq

/-- The OS variables and the CSRs they go with. -/
structure OsState (b : OsBuild) where
  slots : Slots
  tmodes : Tid b → Tmode
  /-- `startup_state`. -/
  thread : Tid b → HwthreadState
  /-- What `flexpret_thread_attr_entry[tid]` points to; every thread has an
      object of its own. -/
  attr : Tid b → OsThreadAttr
  flexpretThreadNum : Nat
  defaultSoftSlotId : Int
  kernelState : OsKernelState
  /-- `startup_timer_state`. -/
  timer : Tid b → HwtimerState
  /-- `flexpret_timer_attr_entry[tid] != NULL`. -/
  timerActive : Tid b → Bool
  /-- The compare CSR of each hardware thread. -/
  compare : Tid b → BitVec 32
  /-- `startup_mutex_state`. -/
  mutex : Fin flexpretMutexMaxNum → MutexState (Tid b)
  flexpretMutexNum : Nat
  csrs : MutexCsrs

/-! ## Section 2: set_slot_num -/

/-- The loops of `set_slot_num`: the first `n` fields that hold `old` get
    `new`. -/
def replaceFirst (old new : BitVec 4) : Nat → List (BitVec 4) → List (BitVec 4)
  | 0, slots => slots
  | _ + 1, [] => []
  | n + 1, s :: slots =>
      if s = old then new :: replaceFirst old new n slots
      else s :: replaceFirst old new (n + 1) slots

@[simp] theorem length_replaceFirst (old new : BitVec 4) (n : Nat) (slots : List (BitVec 4)) :
    (replaceFirst old new n slots).length = slots.length := by
  fun_induction replaceFirst old new n slots with
  | case1 => rfl
  | case2 => rfl
  | case3 n slots ih => simp [ih]
  | case4 n s slots _ ih => simp [ih]

theorem mem_replaceFirst_of_ne {old new x : BitVec 4} (hold : x ≠ old) (hnew : x ≠ new)
    (n : Nat) (slots : List (BitVec 4)) :
    x ∈ replaceFirst old new n slots ↔ x ∈ slots := by
  fun_induction replaceFirst old new n slots with
  | case1 => rfl
  | case2 => rfl
  | case3 n slots ih => simp [ih, hold, hnew]
  | case4 n s slots _ ih => simp [ih]

theorem new_mem_replaceFirst {old new : BitVec 4} {n : Nat} {slots : List (BitVec 4)}
    (hn : 0 < n) (h : old ∈ slots) : new ∈ replaceFirst old new n slots := by
  fun_induction replaceFirst old new n slots with
  | case1 => exact absurd hn (Nat.lt_irrefl 0)
  | case2 => exact absurd h List.not_mem_nil
  | case3 n slots ih => exact List.mem_cons_self
  | case4 n s slots hs ih =>
    obtain heq | hmem := List.mem_cons.mp h
    · exact absurd heq.symm hs
    · exact List.mem_cons_of_mem _ (ih (Nat.succ_pos n) hmem)

/-- Replacing fewer fields than there are leaves one. -/
theorem old_mem_replaceFirst {old new : BitVec 4} {n : Nat} {slots : List (BitVec 4)}
    (hn : n < slots.count old) : old ∈ replaceFirst old new n slots := by
  fun_induction replaceFirst old new n slots with
  | case1 slots => exact List.count_pos_iff.mp hn
  | case2 => exact absurd hn (Nat.not_lt_zero _)
  | case3 n slots ih =>
    rw [List.count_cons_self] at hn
    exact List.mem_cons_of_mem _ (ih (Nat.lt_of_succ_lt_succ hn))
  | case4 n s slots hs ih =>
    rw [List.count_cons_of_ne hs] at hn
    exact List.mem_cons_of_mem _ (ih hn)

/-- Replacing as many fields as there are leaves none. -/
theorem old_not_mem_replaceFirst {old new : BitVec 4} (hne : old ≠ new) {n : Nat}
    {slots : List (BitVec 4)} (hn : slots.count old ≤ n) :
    old ∉ replaceFirst old new n slots := by
  fun_induction replaceFirst old new n slots with
  | case1 slots => exact List.count_eq_zero.mp (Nat.le_zero.mp hn)
  | case2 => exact List.not_mem_nil
  | case3 n slots ih =>
    rw [List.count_cons_self] at hn
    simp [hne, ih (Nat.le_of_succ_le_succ hn)]
  | case4 n s slots hs ih =>
    rw [List.count_cons_of_ne hs] at hn
    simp [ih hn, Ne.symm hs]

/-- `replaceFirst` on the eight fields. -/
def Slots.replace (slots : Slots) (old new : BitVec 4) (n : Nat) : Slots :=
  ⟨(replaceFirst old new n slots.toList).toArray, by simp⟩

theorem Slots.mem_replace {slots : Slots} {old new x : BitVec 4} {n : Nat} :
    x ∈ slots.replace old new n ↔ x ∈ replaceFirst old new n slots.toList := by
  simp [Slots.replace]

/-- `FLEXPRET_MAX_HW_THREADS_NUMS`. -/
def flexpretMaxHwThreadsNums : Nat := 8

/-- The slots that are not `SLOT_D`: `active_count` of `set_slot_num`. -/
def Slots.activeCount (slots : Slots) : Nat := slots.countP (· ≠ slotD)

/-- `set_slot_num`, for an id other than `SLOT_D`. -/
def setSlotNum (slots : Slots) (tid : BitVec 4) (count : Nat) : Slots × OsStatus :=
  let threadCount := slots.count tid
  if count = threadCount then (slots, .osOK)
  else if count > threadCount then
    let slotToBeAdded := count - threadCount
    if slots.activeCount + slotToBeAdded > flexpretMaxHwThreadsNums - 1 then (slots, .osError)
    else (slots.replace slotD tid slotToBeAdded, .osOK)
  else (slots.replace tid slotD (threadCount - count), .osOK)

/-! ### What set_slot_num does to the fields -/

/-- A call for one id leaves every other id where it was. -/
theorem mem_setSlotNum_of_ne {slots : Slots} {tid x : BitVec 4} (hx : x ≠ tid)
    (hd : x ≠ slotD) (count : Nat) : x ∈ (setSlotNum slots tid count).1 ↔ x ∈ slots := by
  simp only [setSlotNum]
  split
  · rfl
  · split
    · split
      · rfl
      · rw [Slots.mem_replace, mem_replaceFirst_of_ne hd hx, Vector.mem_toList_iff]
    · rw [Slots.mem_replace, mem_replaceFirst_of_ne hx hd, Vector.mem_toList_iff]

/-- Asking for no slot always succeeds. -/
theorem not_mem_setSlotNum_zero {slots : Slots} {tid : BitVec 4} (hd : tid ≠ slotD) :
    tid ∉ (setSlotNum slots tid 0).1 := by
  simp only [setSlotNum]
  split
  · next h => exact Vector.count_eq_zero.mp h.symm
  · rw [if_neg (Nat.not_lt_zero _), Slots.mem_replace]
    exact old_not_mem_replaceFirst hd (by simp)

theorem slotD_mem_of_activeCount_lt {slots : Slots} (h : slots.activeCount < 8) :
    slotD ∈ slots := by
  by_contra hmem
  have hall : slots.activeCount = 8 := by
    rw [Slots.activeCount, Vector.countP_eq_size]
    intro x hx
    simp only [decide_eq_true_eq]
    rintro rfl
    exact hmem hx
  omega

/-- Asking for one slot succeeds when there is one already, or one can still
    be added below the cap. -/
theorem mem_setSlotNum_one {slots : Slots} {tid : BitVec 4}
    (h : tid ∈ slots ∨ slots.activeCount < flexpretMaxHwThreadsNums - 1) :
    tid ∈ (setSlotNum slots tid 1).1 := by
  simp only [setSlotNum]
  split
  · next heq => exact Vector.count_pos_iff.mp (Nat.lt_of_lt_of_eq Nat.one_pos heq)
  · split
    · next hgt =>
      have hzero : slots.count tid = 0 := by omega
      have hlt := h.resolve_left (Vector.count_eq_zero.mp hzero)
      simp only [hzero, flexpretMaxHwThreadsNums] at hlt ⊢
      rw [if_neg (by omega), Slots.mem_replace]
      exact new_mem_replaceFirst Nat.one_pos
        (Vector.mem_toList_iff.mpr (slotD_mem_of_activeCount_lt (by omega)))
    · rw [Slots.mem_replace]
      exact old_mem_replaceFirst (by rw [Vector.count_toList]; omega)

/-! ## Section 3: Modes -/

/-- `set_thread_mode` on the two bits of one thread. -/
def Tmode.request (m : Tmode) : TmodeRequest → Tmode
  | .hard => { m with hbit := false }
  | .soft => { m with hbit := true }
  | .active => { m with lbit := false }
  | .zombie => { m with lbit := true }
  | .sz => ⟨true, true⟩
  | .sa => ⟨true, false⟩
  | .hz => ⟨false, true⟩
  | .ha => ⟨false, false⟩

section scheduler

variable {b : OsBuild}

/-- `set_thread_mode`, as `osSchedulerSetTmodes` calls it. -/
def setThreadMode (s : OsState b) (tid : Tid b) (tmode : TmodeRequest) : OsState b :=
  { s with tmodes := Function.update s.tmodes tid ((s.tmodes tid).request tmode) }

/-- Thread `t` has been created and has not ended. -/
def OsState.live (s : OsState b) (t : Tid b) : Bool := (s.thread t).func ≠ NULL

/-- The live soft threads other than `tid`: the loop over `tmodes` that
    `srtt_terminate` and the two priority changes share. -/
def otherSrttNum (s : OsState b) (tid : Tid b) : Nat :=
  (List.finRange b.hwThreadsNums).countP fun i => i ≠ tid ∧ (s.tmodes i).soft ∧ s.live i

theorem otherSrttNum_eq_zero_iff {s : OsState b} {tid : Tid b} :
    otherSrttNum s tid = 0 ↔ ∀ i, i ≠ tid → s.live i = true → (s.tmodes i).soft = false := by
  simp only [otherSrttNum, List.countP_eq_zero, List.mem_finRange, true_imp_iff,
    decide_eq_true_eq, not_and, Bool.not_eq_true]
  constructor
  · intro h i hi hlive
    by_contra hsoft
    exact absurd hlive (by simp [h i hi (Bool.eq_true_of_not_eq_false hsoft)])
  · intro h i hi hsoft
    by_contra hlive
    exact absurd hsoft (by simp [h i hi (Bool.eq_true_of_not_eq_false hlive)])

/-! ## Section 4: What follows a change of threads -/

/-- `osSchedulerSetSlotNum`. -/
def osSchedulerSetSlotNum (s : OsState b) (tid : Tid b) (count : Int) : OsState b × OsStatus :=
  if count < 0 ∨ count ≥ flexpretMaxHwThreadsNums - 1 then (s, .osErrorParameter)
  else
    let r := setSlotNum s.slots (slotT tid) count.toNat
    ({ s with slots := r.1 }, r.2)

/-- `osSchedulerSetSoftSlotNum`. -/
def osSchedulerSetSoftSlotNum (s : OsState b) (count : Int) : OsState b × OsStatus :=
  if count < 0 ∨ count ≥ flexpretMaxHwThreadsNums - 1 then (s, .osErrorParameter)
  else
    let r := setSlotNum s.slots slotS count.toNat
    ({ s with slots := r.1 }, r.2)

/-- `srtt_terminate`. -/
def srttTerminate (s : OsState b) (tid : Tid b) : OsState b :=
  let res := otherSrttNum s tid
  let slots := (setSlotNum s.slots (slotT tid) 0).1
  { s with slots := if res = 0 then (setSlotNum slots slotS 0).1 else slots }

/-- `change_srtt_to_hrtt`. -/
def changeSrttToHrtt (s : OsState b) (tid : Tid b) : OsState b :=
  let softCount := s.slots.count slotS
  let threadCount := s.slots.count (slotT tid)
  let srttNum := otherSrttNum s tid
  let slots := if threadCount = 0 then (setSlotNum s.slots (slotT tid) 1).1 else s.slots
  let s' := setThreadMode { s with slots := slots } tid .hard
  { s' with slots :=
      if srttNum = 0 ∧ softCount ≠ 0 then (setSlotNum slots slotS 0).1 else slots }

/-- `change_hrtt_to_srtt`. -/
def changeHrttToSrtt (s : OsState b) (tid : Tid b) : OsState b :=
  let softCount := s.slots.count slotS
  let threadCount := s.slots.count (slotT tid)
  let srttNum := otherSrttNum s tid
  let slots :=
    if srttNum = 0 ∧ softCount = 0 then (setSlotNum s.slots slotS 1).1 else s.slots
  let s' := setThreadMode { s with slots := slots } tid .soft
  { s' with slots :=
      if threadCount ≠ 0 then (setSlotNum slots (slotT tid) 0).1 else slots }

/-- `thread_after_create`. -/
def threadAfterCreate (s : OsState b) (tid : Tid b) : OsState b :=
  if (s.attr tid).priority = osPriorityRealtime then
    let s' := setThreadMode s tid .ha
    { s' with slots := (setSlotNum s'.slots (slotT tid) 1).1 }
  else if (s.attr tid).priority = osPriorityNormal then
    let s' := setThreadMode s tid .sa
    let softCount := if s.live tid then s'.slots.count slotS else 0
    { s' with slots :=
        if softCount = 0 then (setSlotNum s'.slots slotS 1).1 else s'.slots }
  else s

end scheduler

end Flexpret.Os
