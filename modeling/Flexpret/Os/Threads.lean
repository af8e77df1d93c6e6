import Flexpret.Os.Scheduler

/-! # Thread Management of the FlexPRET OS

    `thread_clean`, `thread_terminate` and the thread calls of the API.  A
    thread id an API call takes is `none` where the caller passes `NULL`; `me`
    is the hardware thread that makes the call.
-/

namespace Flexpret.Os

variable {b : OsBuild}

/-! ## Section 1: Ending a thread -/

/-- `osTimerDelete` on the timer of thread `tid`.  `set_compare` writes the
    compare CSR of the thread that runs it. -/
def osTimerDelete (s : OsState b) (me tid : Tid b) : OsState b :=
  { s with
    compare :=
      if (s.timer tid).ticks ≠ 0 then Function.update s.compare me 0 else s.compare
    timer := Function.update s.timer tid { ticks := 0, func := NULL, arg := NULL }
    timerActive := Function.update s.timerActive tid false }

/-- The first half of `thread_clean`: the thread's entry and its timer. -/
def resetThread (me tid : Tid b) (s : OsState b) : OsState b :=
  let ended : HwthreadState :=
    { s.thread tid with
      arg := NULL
      state := .terminated
      stackAddress := b.flexpretThreadInitStackAddr tid }
  let s := { s with thread := Function.update s.thread tid ended }
  if s.timerActive tid then osTimerDelete s me tid else s

/-- One turn of the "Release Robust Mutex" loop of `thread_clean`. -/
def releaseRobust (tid : Tid b) (s : OsState b) (i : Fin flexpretMutexMaxNum) : OsState b :=
  -- A copy of the entry: what is assigned to it never reaches the table.
  let mu := s.mutex i
  if mu.ifRobust ∧ mu.active ∧ mu.owner = some tid then
    let mu : MutexState (Tid b) := { mu with owner := none, count := 0 }
    { s with csrs := writeMutexCsr s.csrs mu.csrAddr flexpretMutexActive }
  else s

/-- `thread_clean`. -/
def threadClean (me tid : Tid b) (s : OsState b) : OsState b :=
  let s := resetThread me tid s
  let s := (List.finRange flexpretMutexMaxNum).foldl (releaseRobust tid) s
  let free : HwthreadState := { s.thread tid with func := NULL }
  { s with thread := Function.update s.thread tid free }

/-- `thread_terminate`.  A priority other than the two supported ones sends
    its loop round once more, with the priority the mode stands for. -/
def threadTerminate (me tid : Tid b) (clean : Bool) (s : OsState b) : OsState b :=
  let s := if clean then threadClean me tid s else s
  let prior := (s.attr tid).priority
  let tmode := s.tmodes tid
  let s :=
    if prior = osPriorityNormal then srttTerminate s tid
    else if prior = osPriorityRealtime then (osSchedulerSetSlotNum s tid 0).1
    else if tmode = tmodeHA ∨ tmode = tmodeHZ then (osSchedulerSetSlotNum s tid 0).1
    else srttTerminate s tid
  setThreadMode s tid .zombie

/-! ## Section 2: The API calls -/

/-- `flexpret_thread_init_attr`. -/
def flexpretThreadInitAttr : OsThreadAttr where
  attrBits := osThreadDetached
  stackMem := NULL
  stackSize := 0
  priority := osPriorityNormal

/-- `flexpret_thread_init_stack_addr[tid] - flexpret_thread_init_stack_addr[tid-1]`. -/
def initStackSize (tid : Tid b) : BitVec 32 :=
  b.flexpretThreadInitStackAddr tid - b.flexpretThreadInitStackAddr (tid - 1)

/-- The attribute object `osThreadNew` leaves in entry `tid`. -/
def osThreadNewAttr (tid : Tid b) : Option OsThreadAttr → OsThreadAttr
  | none =>
      { flexpretThreadInitAttr with
        stackMem := b.flexpretThreadInitStackAddr tid
        stackSize := initStackSize tid }
  | some attr =>
      { attr with
        stackMem :=
          if attr.stackMem = NULL then b.flexpretThreadInitStackAddr tid else attr.stackMem
        stackSize := if attr.stackSize = 0 then initStackSize tid else attr.stackSize }

/-- The stack address `osThreadNew` leaves in `startup_state[tid]`. -/
def osThreadNewStackAddress (tid : Tid b) (old : Ptr) : Option OsThreadAttr → Ptr
  | none => old
  | some attr =>
      if attr.stackMem = NULL then b.flexpretThreadInitStackAddr tid else attr.stackMem

/-- `osThreadNew` up to the check whether the kernel runs. -/
def createThread (s : OsState b) (tid : Tid b) (func argument : Ptr)
    (attr : Option OsThreadAttr) : OsState b :=
  { s with
    flexpretThreadNum := s.flexpretThreadNum + 1
    attr := Function.update s.attr tid (osThreadNewAttr tid attr)
    thread := Function.update s.thread tid
      { func := func
        state := .active
        arg := argument
        stackAddress := osThreadNewStackAddress tid (s.thread tid).stackAddress attr } }

/-- `osThreadNew`. -/
def osThreadNew (s : OsState b) (func argument : Ptr) (attr : Option OsThreadAttr) :
    OsState b × Option (Tid b) :=
  if func = NULL then (s, none)
  -- `flexpret_thread_num` never exceeds the number of hardware threads.
  else if h : s.flexpretThreadNum < b.hwThreadsNums then
    if ∃ a ∈ attr, a.priority ≠ osPriorityRealtime ∧ a.priority ≠ osPriorityNormal then
      (s, none)
    else
      let tid : Tid b := ⟨s.flexpretThreadNum, h⟩
      let s := createThread s tid func argument attr
      let s := if s.kernelState = .osKernelRunning then threadAfterCreate s tid else s
      (s, some tid)
  else (s, none)

/-- `flexpret_thread_attr_entry[tid]->priority = priority`. -/
def setPriority (s : OsState b) (tid : Tid b) (priority : OsPriority) : OsState b :=
  let attr : OsThreadAttr := { s.attr tid with priority := priority }
  { s with attr := Function.update s.attr tid attr }

/-- `startup_state[tid].state = state`. -/
def setState (s : OsState b) (tid : Tid b) (state : HwthreadStateType) : OsState b :=
  let thread : HwthreadState := { s.thread tid with state := state }
  { s with thread := Function.update s.thread tid thread }

/-- `osThreadSetPriority`. -/
def osThreadSetPriority (s : OsState b) (threadId : Option (Tid b)) (priority : OsPriority) :
    OsState b × OsStatus :=
  match threadId with
  | none => (s, .osErrorParameter)
  | some tid =>
      if (s.attr tid).priority = priority then (s, .osOK)
      else if priority = osPriorityRealtime then
        (setPriority (changeSrttToHrtt s tid) tid osPriorityRealtime, .osOK)
      else if priority = osPriorityNormal then
        (setPriority (changeHrttToSrtt s tid) tid osPriorityNormal, .osOK)
      else (s, .osError)

/-- `osThreadSuspend`. -/
def osThreadSuspend (s : OsState b) (tid : Tid b) : OsState b × OsStatus :=
  (setThreadMode (setState s tid .blocked) tid .zombie, .osOK)

/-- `osThreadResume`. -/
def osThreadResume (s : OsState b) (tid : Tid b) : OsState b × OsStatus :=
  (setState (setThreadMode s tid .active) tid .active, .osOK)

/-- `osThreadJoin`; `none` while it waits for the thread to end. -/
def osThreadJoin (s : OsState b) (me : Tid b) (threadId : Option (Tid b)) :
    Option (OsState b × OsStatus) :=
  match threadId with
  | none => some (s, .osError)
  | some tid =>
      if (s.attr tid).attrBits ≠ osThreadJoinable then some (s, .osError)
      else if tid = me then some (s, .osError)
      else if (s.thread tid).func ≠ NULL then none
      else some (threadTerminate me tid false s, .osOK)

/-- `osThreadTerminate`.  On itself a thread runs `osThreadExit`, which cleans
    up and does not return. -/
def osThreadTerminate (s : OsState b) (me : Tid b) (threadId : Option (Tid b)) :
    OsState b × OsStatus :=
  match threadId with
  | none => (s, .osErrorParameter)
  | some tid =>
      if tid = me then (threadClean me tid s, .osOK) else (threadTerminate me tid true s, .osOK)

/-- `osThreadExit`, and `thread_after_return_handler` where a thread function
    returns. -/
def osThreadExit (s : OsState b) (me : Tid b) : OsState b := threadClean me me s

end Flexpret.Os
