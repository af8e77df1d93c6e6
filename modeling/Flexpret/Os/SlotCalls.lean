import Flexpret.Lib.CriticalSection
import Flexpret.Os.Scheduler

/-! # Slot and Mode Calls, Access by Access

    The functions of the OS scheduler as the accesses they make to the slot
    CSR, the mode CSR and the thread and attribute tables.  Made without
    anybody in between, they are the functions of the model of the OS.
-/

open CriticalSection

namespace Flexpret.Os

variable {b : OsBuild}

/-! ## Section 1: Accesses -/

/-- `get_slots`: one read of the slot CSR. -/
def getSlots : Prog (OsState b) Slots := .read fun s => s.slots

/-- `set_slots`: one write. -/
def setSlots (slots : Slots) : Prog (OsState b) Unit :=
  .modify fun s => { s with slots := slots }

/-- `get_tmodes`: one read of the mode CSR. -/
def getTmodes : Prog (OsState b) (Tid b → Tmode) := .read fun s => s.tmodes

/-- `startup_state[tid].func != NULL`. -/
def readLive (tid : Tid b) : Prog (OsState b) Bool := .read fun s => s.live tid

/-- `flexpret_thread_attr_entry[tid]->priority`. -/
def readPriority (tid : Tid b) : Prog (OsState b) OsPriority :=
  .read fun s => (s.attr tid).priority

/-- `set_csr(ptbr, bit)` or `clear_csr(ptbr, bit)` of a bit of thread `tid`. -/
def changeTmode (tid : Tid b) (change : Tmode → Tmode) : Prog (OsState b) Unit :=
  .modify fun s => { s with tmodes := Function.update s.tmodes tid (change (s.tmodes tid)) }

def writeHbit (tid : Tid b) (value : Bool) : Prog (OsState b) Unit :=
  changeTmode tid fun m => { m with hbit := value }

def writeLbit (tid : Tid b) (value : Bool) : Prog (OsState b) Unit :=
  changeTmode tid fun m => { m with lbit := value }

/-! ## Section 2: The functions -/

/-- `set_slot_num`. -/
def setSlotNumSteps (tid : BitVec 4) (count : Nat) : Prog (OsState b) OsStatus := do
  let slots ← getSlots
  let threadCount := slots.count tid
  if count = threadCount then return .osOK
  else if count > threadCount then
    let slotToBeAdded := count - threadCount
    if slots.activeCount + slotToBeAdded > flexpretMaxHwThreadsNums - 1 then return .osError
    else
      setSlots (slots.replace slotD tid slotToBeAdded)
      return .osOK
  else
    setSlots (slots.replace tid slotD (threadCount - count))
    return .osOK

/-- `set_thread_mode`. -/
def setThreadModeSteps (tid : Tid b) : TmodeRequest → Prog (OsState b) Unit
  | .hard => writeHbit tid false
  | .soft => writeHbit tid true
  | .active => writeLbit tid false
  | .zombie => writeLbit tid true
  | .sz => do writeHbit tid true; writeLbit tid true
  | .sa => do writeHbit tid true; writeLbit tid false
  | .hz => do writeHbit tid false; writeLbit tid true
  | .ha => do writeHbit tid false; writeLbit tid false

/-- The loop over `tmodes` from thread `i` on, that counts the live soft
    threads other than `tid`. -/
def countSrtt (tid : Tid b) (tmodes : Tid b → Tmode) : List (Tid b) → Nat →
    Prog (OsState b) Nat
  | [], res => return res
  | i :: rest, res =>
      if i = tid then countSrtt tid tmodes rest res
      else if (tmodes i).soft then do
        let live ← readLive i
        countSrtt tid tmodes rest (if live then res + 1 else res)
      else countSrtt tid tmodes rest res

/-- `srtt_terminate`, between the mutex calls; so are the next three. -/
def srttTerminateSteps (tid : Tid b) : Prog (OsState b) Unit := do
  let tmodes ← getTmodes
  let res ← countSrtt tid tmodes (List.finRange b.hwThreadsNums) 0
  let _ ← setSlotNumSteps (slotT tid) 0
  if res = 0 then
    let _ ← setSlotNumSteps slotS 0
    return ()
  else return ()

/-- `change_srtt_to_hrtt`. -/
def changeSrttToHrttSteps (tid : Tid b) : Prog (OsState b) Unit := do
  let slots ← getSlots
  let tmodes ← getTmodes
  let softCount := slots.count slotS
  let threadCount := slots.count (slotT tid)
  let srttNum ← countSrtt tid tmodes (List.finRange b.hwThreadsNums) 0
  if threadCount = 0 then
    let _ ← setSlotNumSteps (slotT tid) 1
  setThreadModeSteps tid .hard
  if srttNum = 0 ∧ softCount ≠ 0 then
    let _ ← setSlotNumSteps slotS 0
  return ()

/-- `change_hrtt_to_srtt`. -/
def changeHrttToSrttSteps (tid : Tid b) : Prog (OsState b) Unit := do
  let slots ← getSlots
  let tmodes ← getTmodes
  let softCount := slots.count slotS
  let threadCount := slots.count (slotT tid)
  let srttNum ← countSrtt tid tmodes (List.finRange b.hwThreadsNums) 0
  if srttNum = 0 ∧ softCount = 0 then
    let _ ← setSlotNumSteps slotS 1
  setThreadModeSteps tid .soft
  if threadCount ≠ 0 then
    let _ ← setSlotNumSteps (slotT tid) 0
  return ()

/-- `thread_after_create`, which compares the priority twice. -/
def threadAfterCreateSteps (tid : Tid b) : Prog (OsState b) Unit := do
  let priority ← readPriority tid
  if priority = osPriorityRealtime then
    setThreadModeSteps tid .ha
    let _ ← setSlotNumSteps (slotT tid) 1
    return ()
  else
    let priority ← readPriority tid
    if priority = osPriorityNormal then
      setThreadModeSteps tid .sa
      let slots ← getSlots
      let live ← readLive tid
      let softCount := if live then slots.count slotS else 0
      if softCount = 0 then
        let _ ← setSlotNumSteps slotS 1
        return ()
      else return ()
    else return ()

/-! ## Section 3: Nobody in between -/

@[simp] theorem run_getSlots (s : OsState b) : getSlots.run s = (s, s.slots) := rfl

@[simp] theorem run_setSlots (slots : Slots) (s : OsState b) :
    (setSlots slots).run s = ({ s with slots := slots }, ()) := rfl

@[simp] theorem run_getTmodes (s : OsState b) : getTmodes.run s = (s, s.tmodes) := rfl

@[simp] theorem run_readLive (tid : Tid b) (s : OsState b) :
    (readLive tid).run s = (s, s.live tid) := rfl

@[simp] theorem run_readPriority (tid : Tid b) (s : OsState b) :
    (readPriority tid).run s = (s, (s.attr tid).priority) := rfl

/-- `set_slot_num` reads the slots once and writes them at most once. -/
@[simp] theorem run_setSlotNumSteps (tid : BitVec 4) (count : Nat) (s : OsState b) :
    (setSlotNumSteps tid count).run s =
      ({ s with slots := (setSlotNum s.slots tid count).1 }, (setSlotNum s.slots tid count).2) := by
  by_cases hsame : count = s.slots.count tid
  · simp [setSlotNumSteps, setSlotNum, hsame]
  · by_cases hmore : s.slots.count tid < count
    · -- a refused addition writes nothing
      by_cases hcap : s.slots.activeCount + (count - s.slots.count tid) >
          flexpretMaxHwThreadsNums - 1
      · simp [setSlotNumSteps, setSlotNum, hsame, hmore, hcap]
      · simp [setSlotNumSteps, setSlotNum, hsame, hmore, hcap]
    · simp [setSlotNumSteps, setSlotNum, hsame, hmore]

@[simp] theorem run_setThreadModeSteps (tid : Tid b) (request : TmodeRequest) (s : OsState b) :
    (setThreadModeSteps tid request).run s = (setThreadMode s tid request, ()) := by
  cases request <;>
    simp [setThreadModeSteps, setThreadMode, writeHbit, writeLbit, changeTmode, Tmode.request]

theorem run_countSrtt (tid : Tid b) (tmodes : Tid b → Tmode) (l : List (Tid b)) (res : Nat)
    (s : OsState b) :
    (countSrtt tid tmodes l res).run s =
      (s, res + l.countP fun i => i ≠ tid ∧ (tmodes i).soft ∧ s.live i) := by
  induction l generalizing res with
  | nil => rfl
  | cons i l ih =>
    rw [List.countP_cons, countSrtt]
    split
    · next htid => simp [ih, htid]
    · next htid =>
      split
      · next hsoft =>
        rw [Prog.run_bind, run_readLive, ih]
        cases hlive : s.live i with
        | true => simp [htid, hsoft]; omega
        | false => simp
      · next hsoft => simp [ih, hsoft]

/-- The loop counts what the model of the OS counts. -/
@[simp] theorem run_countSrtt_all (tid : Tid b) (s : OsState b) :
    (countSrtt tid s.tmodes (List.finRange b.hwThreadsNums) 0).run s = (s, otherSrttNum s tid) := by
  rw [run_countSrtt, Nat.zero_add]
  rfl

theorem run_srttTerminateSteps (tid : Tid b) (s : OsState b) :
    (srttTerminateSteps tid).run s = (srttTerminate s tid, ()) := by
  by_cases hres : otherSrttNum s tid = 0
  · simp [srttTerminateSteps, srttTerminate, hres]
  · simp [srttTerminateSteps, srttTerminate, hres]

theorem run_changeSrttToHrttSteps (tid : Tid b) (s : OsState b) :
    (changeSrttToHrttSteps tid).run s = (changeSrttToHrtt s tid, ()) := by
  by_cases hthread : s.slots.count (slotT tid) = 0
  · by_cases hsoft : otherSrttNum s tid = 0 ∧ s.slots.count slotS ≠ 0
    · simp [changeSrttToHrttSteps, changeSrttToHrtt, setThreadMode, hthread, hsoft]
    · simp [changeSrttToHrttSteps, changeSrttToHrtt, setThreadMode, hthread, hsoft]
  · by_cases hsoft : otherSrttNum s tid = 0 ∧ s.slots.count slotS ≠ 0
    · simp [changeSrttToHrttSteps, changeSrttToHrtt, setThreadMode, hthread, hsoft]
    · simp [changeSrttToHrttSteps, changeSrttToHrtt, setThreadMode, hthread, hsoft]

theorem run_changeHrttToSrttSteps (tid : Tid b) (s : OsState b) :
    (changeHrttToSrttSteps tid).run s = (changeHrttToSrtt s tid, ()) := by
  by_cases hsoft : otherSrttNum s tid = 0 ∧ s.slots.count slotS = 0
  · by_cases hthread : s.slots.count (slotT tid) = 0
    · simp [changeHrttToSrttSteps, changeHrttToSrtt, setThreadMode, hthread, hsoft]
    · simp [changeHrttToSrttSteps, changeHrttToSrtt, setThreadMode, hthread, hsoft]
  · by_cases hthread : s.slots.count (slotT tid) = 0
    · simp [changeHrttToSrttSteps, changeHrttToSrtt, setThreadMode, hthread, hsoft]
    · simp [changeHrttToSrttSteps, changeHrttToSrtt, setThreadMode, hthread, hsoft]

theorem run_threadAfterCreateSteps (tid : Tid b) (s : OsState b) :
    (threadAfterCreateSteps tid).run s = (threadAfterCreate s tid, ()) := by
  by_cases hreal : (s.attr tid).priority = osPriorityRealtime
  · simp [threadAfterCreateSteps, threadAfterCreate, hreal]
  · by_cases hnormal : (s.attr tid).priority = osPriorityNormal
    · have hne : osPriorityNormal ≠ osPriorityRealtime := by decide
      have hsame : (setThreadMode s tid .sa).live tid = s.live tid := rfl
      cases hlive : s.live tid with
      | false => simp [threadAfterCreateSteps, threadAfterCreate, hne, hnormal, hsame, hlive]
      | true =>
        by_cases hsoft : (setThreadMode s tid .sa).slots.count slotS = 0
        · simp [threadAfterCreateSteps, threadAfterCreate, hne, hnormal, hsame, hlive, hsoft]
        · simp [threadAfterCreateSteps, threadAfterCreate, hne, hnormal, hsame, hlive, hsoft]
    · simp [threadAfterCreateSteps, threadAfterCreate, hreal, hnormal]

end Flexpret.Os
