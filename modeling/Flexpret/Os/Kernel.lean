import Flexpret.Lib.Transition
import Flexpret.Os.Threads

/-! # Kernel Calls and Runs of the FlexPRET OS

    `osKernelInitialize`, `osKernelStart`, and the system whose steps are the
    API calls, taken one after the other.
-/

open Transition

namespace Flexpret.Os

variable {b : OsBuild}

/-! ## Section 1: osKernelInitialize -/

/-- `osMutexNew`, for an attribute object that is there. -/
def osMutexNew (s : OsState b) (attr : OsMutexAttr) :
    OsState b × Option (Fin flexpretMutexMaxNum) :=
  if h : s.flexpretMutexNum < flexpretMutexMaxNum then
    let mid : Fin flexpretMutexMaxNum := ⟨s.flexpretMutexNum, h⟩
    ({ s with
      flexpretMutexNum := s.flexpretMutexNum + 1
      mutex := Function.update s.mutex mid (osMutexNewEntry attr mid)
      csrs := writeMutexCsr s.csrs mid.val flexpretMutexActive }, some mid)
  else (s, none)

/-- `osMutexSetSpin`. -/
def osMutexSetSpin (s : OsState b) (mid : Fin flexpretMutexMaxNum) (ifSpin : Bool) :
    OsState b × OsStatus :=
  if (s.mutex mid).active then
    let mutex : MutexState (Tid b) := { s.mutex mid with ifSpin := ifSpin }
    ({ s with mutex := Function.update s.mutex mid mutex }, .osOK)
  else (s, .osErrorParameter)

/-- `slotMutexAttr`. -/
def slotMutexAttr : OsMutexAttr := ⟨true, true⟩

/-- `slot_mutex = osMutexNew(&slotMutexAttr)`, a spinning mutex. -/
def newSlotMutex (s : OsState b) : OsState b :=
  match osMutexNew s slotMutexAttr with
  | (s, some mid) => (osMutexSetSpin s mid true).1
  | (s, none) => s

/-- The attribute object of thread 0. -/
def mainThreadAttr (b : OsBuild) (bssEnd : Ptr) : OsThreadAttr where
  attrBits := osThreadDetached
  stackMem := b.flexpretThreadInitStackAddr 0
  stackSize := b.flexpretThreadInitStackAddr 0 - bssEnd
  priority := osPriorityRealtime

/-- `osKernelInitialize`; `flexpretThreadAttr` are the objects the attribute
    entries are pointed to. -/
def osKernelInitialize (bssEnd : Ptr) (flexpretThreadAttr : Tid b → OsThreadAttr)
    (s : OsState b) : OsState b :=
  let s :=
    { s with
      attr := flexpretThreadAttr
      timerActive := fun _ => false
      mutex := fun i =>
        { s.mutex i with
          owner := none
          ifRobust := false
          ifRecursive := false
          count := 0
          active := false }
      csrs := fun _ => BitVec.ofInt 4 flexpretMutexInactive }
  let s := newSlotMutex s
  let main : HwthreadState := { s.thread 0 with state := .active }
  { s with
    attr := Function.update s.attr 0 (mainThreadAttr b bssEnd)
    kernelState := .osKernelReady
    thread := Function.update s.thread 0 main }

/-! ## Section 2: osKernelStart -/

/-- The locals of the loop of `osKernelStart`, and the variables it writes. -/
structure KernelStart (b : OsBuild) where
  slots : Slots
  modes : Tid b → Tmode
  thread : Tid b → HwthreadState
  defaultSoftSlotId : Int

/-- `slots[i] = slot; modes[i] = mode`. -/
def KernelStart.assign (k : KernelStart b) (i : Tid b) (slot : BitVec 4) (mode : Tmode) :
    KernelStart b :=
  { k with
    slots := k.slots.set i slot (i.isLt.trans_le b.hwThreadsNums_le)
    modes := Function.update k.modes i mode }

/-- One turn of the loop. -/
def kernelStartTurn (attr : Tid b → OsThreadAttr) (k : KernelStart b) (i : Tid b) :
    KernelStart b :=
  if (k.thread i).func ≠ NULL then
    let started : HwthreadState := { k.thread i with state := .active }
    let k := { k with thread := Function.update k.thread i started }
    if (attr i).priority = osPriorityRealtime then k.assign i (slotT i) tmodeHA
    else if (attr i).priority = osPriorityNormal then
      if k.defaultSoftSlotId = -1 then
        { k.assign i slotS tmodeSA with defaultSoftSlotId := i.val }
      else k.assign i slotD tmodeSA
    else k.assign i slotD tmodeSZ
  else k.assign i slotD tmodeSZ

/-- `osKernelStart`.  The fields past the last hardware thread are `SLOT_D`. -/
def osKernelStart (s : OsState b) : OsState b × OsStatus :=
  let start : KernelStart b :=
    { slots := (Vector.replicate 8 slotD).set 0 (slotT (0 : Tid b)) slots_pos
      modes := fun _ => tmodeHA
      thread := s.thread
      defaultSoftSlotId := s.defaultSoftSlotId }
  let k := ((List.finRange b.hwThreadsNums).filter (· ≠ 0)).foldl (kernelStartTurn s.attr) start
  ({ s with
    slots := k.slots
    tmodes := k.modes
    thread := k.thread
    defaultSoftSlotId := k.defaultSoftSlotId
    kernelState := .osKernelRunning }, .osOK)

/-! ## Section 3: Runs of API calls -/

/-- The calls of a run.  `me` makes the call; `threadExit` is a thread function
    that returns or calls `osThreadExit`. -/
inductive OsCall (b : OsBuild) where
  | threadNew (func argument : Ptr) (attr : Option OsThreadAttr)
  | kernelStart
  | threadSetPriority (threadId : Option (Tid b)) (priority : OsPriority)
  | threadSuspend (tid : Tid b)
  | threadResume (tid : Tid b)
  | threadTerminate (me : Tid b) (threadId : Option (Tid b))
  | threadJoin (me : Tid b) (threadId : Option (Tid b))
  | threadExit (me : Tid b)

/-- What a call returns. -/
inductive OsResult (b : OsBuild) where
  | status (status : OsStatus)
  | threadId (threadId : Option (Tid b))
  deriving DecidableEq

/-- The call itself; `none` while it waits. -/
def OsCall.exec (s : OsState b) : OsCall b → Option (OsState b × OsResult b)
  | .threadNew func argument attr =>
      let r := osThreadNew s func argument attr
      some (r.1, .threadId r.2)
  | .kernelStart =>
      let r := osKernelStart s
      some (r.1, .status r.2)
  | .threadSetPriority threadId priority =>
      let r := osThreadSetPriority s threadId priority
      some (r.1, .status r.2)
  | .threadSuspend tid =>
      let r := osThreadSuspend s tid
      some (r.1, .status r.2)
  | .threadResume tid =>
      let r := osThreadResume s tid
      some (r.1, .status r.2)
  | .threadTerminate me threadId =>
      let r := osThreadTerminate s me threadId
      some (r.1, .status r.2)
  | .threadJoin me threadId =>
      (osThreadJoin s me threadId).map fun r => (r.1, .status r.2)
  | .threadExit me => some (osThreadExit s me, .status .osOK)

/-- The order of a run: threads are created before or after `osKernelStart`,
    which is called once; every other call comes after it. -/
def OsCall.inOrder (s : OsState b) : OsCall b → Bool
  | .threadNew _ _ _ => true
  | .kernelStart => s.kernelState ≠ .osKernelRunning
  | _ => s.kernelState = .osKernelRunning

/-- One step of a run. -/
def osStep (s : OsState b) (call : OsCall b) : Option (OsState b) :=
  if call.inOrder s then (call.exec s).map Prod.fst else none

/-- The memory when `main` enters: thread 0 runs it, and the OS variables are
    as the startup code and the initialisers leave them. -/
structure AtReset (s : OsState b) : Prop where
  main : (s.thread 0).func ≠ NULL
  noThread : ∀ t, t ≠ 0 → (s.thread t).func = NULL
  threadNum : s.flexpretThreadNum = 1
  defaultSoftSlotId : s.defaultSoftSlotId = -1
  mutexNum : s.flexpretMutexNum = 0

/-- Runs start with `osKernelInitialize`. -/
def osInit (s : OsState b) : Prop :=
  ∃ s₀ bssEnd flexpretThreadAttr, AtReset s₀ ∧
    s = osKernelInitialize bssEnd flexpretThreadAttr s₀

/-- The runs of API calls. -/
def osSystem (b : OsBuild) : System (OsState b) (OsCall b) :=
  System.ofStep osInit osStep

end Flexpret.Os
