import Flexpret.Core.Csr
import Flexpret.Os.Schedulability

/-! # Timers of the FlexPRET OS

    Each hardware thread has one timer: an entry of `startup_timer_state`, an
    attribute pointer, a compare register, a hardware timer and a handler for
    the interrupt of that timer.  A timer id names the entry.  The registers
    and the handler that a call touches are those of the calling thread.
-/

namespace Flexpret.Os

variable {b : OsBuild}

/-! ## Section 1: State -/

/-- `osTimerType_t`; `bad` stands for any other value of the `int`. -/
inductive OsTimerType where
  | osTimerOnce
  | osTimerPeriodic
  | bad
  deriving DecidableEq

/-- What `trap_handler_vector[tid].handler[InterruptOnExpire]` points to. -/
inductive IeHandler where
  | defaultIeHandler
  | timerHandler
  | timerPeriodicHandler
  | user (handler : Ptr)
  deriving DecidableEq

/-- Everything a thread has for its timer. -/
structure TimerCell where
  /-- The entry of `startup_timer_state`, less its type. -/
  entry : HwtimerState
  type : OsTimerType
  /-- `flexpret_timer_attr_entry[tid] != NULL`. -/
  active : Bool
  ieHandler : IeHandler
  /-- The compare CSR. -/
  compare : BitVec 32
  /-- `reg_timer`. -/
  hwTimer : Core.TimerMode

abbrev TimerState (b : OsBuild) : Type := Tid b → TimerCell

/-- The handler that `osTimerStart` installs. -/
def OsTimerType.handler : OsTimerType → Option IeHandler
  | .osTimerOnce => some .timerHandler
  | .osTimerPeriodic => some .timerPeriodicHandler
  | .bad => none

namespace TimerCell

/-- `timer->ticks = ticks`. -/
def setTicks (c : TimerCell) (ticks : BitVec 32) : TimerCell :=
  let entry : HwtimerState := { c.entry with ticks := ticks }
  { c with entry := entry }

/-- `set_compare`: a write to the compare CSR also turns the timer off. -/
def setCompare (c : TimerCell) (val : BitVec 32) : TimerCell :=
  { c with compare := val, hwTimer := .off }

/-- `interrupt_expire`. -/
def interruptExpire (c : TimerCell) : TimerCell := { c with hwTimer := .ie }

/-- `osThreadSetTrapHandler(.., handler, InterruptOnExpire)`. -/
def setHandler (c : TimerCell) (handler : IeHandler) : TimerCell := { c with ieHandler := handler }

end TimerCell

/-- Thread `t` does `f` to its own cell. -/
def TimerState.on (s : TimerState b) (t : Tid b) (f : TimerCell → TimerCell) : TimerState b :=
  Function.update s t (f (s t))

theorem TimerState.on_apply (s : TimerState b) (t : Tid b) (f : TimerCell → TimerCell)
    (u : Tid b) : s.on t f u = if u = t then f (s u) else s u := by
  by_cases h : u = t
  · rw [if_pos h, h]
    exact Function.update_self ..
  · rw [if_neg h]
    exact Function.update_of_ne h ..

/-! ## Section 2: The API calls

    `me` calls with the id of the timer of `tid`.  `time` is what `get_time`
    returns. -/

/-- `osTimerNew`, which names no timer: it is that of the caller. -/
def osTimerNew (s : TimerState b) (me : Tid b) (func : Ptr) (type : OsTimerType)
    (argument : Ptr) : TimerState b × Option (Tid b) :=
  if (s me).active then (s, none)
  else if func = NULL then (s, none)
  else
    let entry : HwtimerState := { ticks := 0, func := func, arg := argument }
    (s.on me fun c => { c with entry := entry, type := type, active := true }, some me)

/-- `osTimerStart`. -/
def osTimerStart (s : TimerState b) (me tid : Tid b) (ticks time : BitVec 32) :
    TimerState b × OsStatus :=
  if (s tid).active = false then (s, .osError)
  else if ticks = 0 then (s, .osError)
  else
    match (s tid).type.handler with
    | none => (s, .osError)
    | some handler =>
        let s := s.on me (·.setHandler handler)
        let s := s.on tid (·.setTicks ticks)
        let s := s.on me (·.setCompare (ticks + time))
        (s.on me TimerCell.interruptExpire, .osOK)

/-- `osTimerStop`. -/
def osTimerStop (s : TimerState b) (me tid : Tid b) : TimerState b × OsStatus :=
  if (s tid).active = false then (s, .osError)
  else if (s tid).entry.ticks = 0 then (s, .osErrorResource)
  else
    let s := s.on tid (·.setTicks 0)
    let s := s.on me (·.setCompare 0)
    (s.on me (·.setHandler .defaultIeHandler), .osOK)

/-- `osTimerIsRunning`. -/
def TimerCell.running (c : TimerCell) : Bool := c.active && c.entry.ticks ≠ 0

/-- `flexpret_timer_attr_entry[tid] = NULL` and the entry cleared. -/
def TimerCell.cleared (c : TimerCell) : TimerCell :=
  let entry : HwtimerState := { ticks := 0, func := NULL, arg := NULL }
  { c with entry := entry, active := false }

/-- `osTimerDelete`. -/
def TimerState.osTimerDelete (s : TimerState b) (me tid : Tid b) : TimerState b × OsStatus :=
  let s := if (s tid).entry.ticks ≠ 0 then
      (s.on tid (·.setTicks 0)).on me (·.setCompare 0)
    else s
  (s.on tid TimerCell.cleared, .osOK)

/-- `osTimerSetFunc`. -/
def osTimerSetFunc (s : TimerState b) (me tid : Tid b) (timerFunc argument : Ptr) :
    TimerState b × OsStatus :=
  if (s tid).active = false then (s, .osError)
  else if tid ≠ me then (s, .osError)
  else
    let entry : HwtimerState := { ticks := 0, func := timerFunc, arg := argument }
    let s := s.on me (·.setCompare 0)
    (s.on tid fun c => { c with entry := entry }, .osOK)

/-- What `thread_clean` does to the timer: `osThreadGetTimer` finds it when it
    is active. -/
def threadCleanTimer (s : TimerState b) (me tid : Tid b) : TimerState b :=
  if (s tid).active then (s.osTimerDelete me tid).1 else s

/-! ### What the calls do to each cell -/

/-- `osTimerStart` is let through. -/
def TimerCell.Startable (c : TimerCell) (ticks : BitVec 32) : Prop :=
  c.active = true ∧ ticks ≠ 0 ∧ c.type.handler ≠ none

theorem osTimerStart_refused {s : TimerState b} {tid : Tid b} {ticks : BitVec 32}
    (h : ¬ (s tid).Startable ticks) (me : Tid b) (time : BitVec 32) :
    osTimerStart s me tid ticks time = (s, .osError) := by
  unfold osTimerStart
  split
  · rfl
  · next hactive =>
    split
    · rfl
    · next hticks =>
      cases htype : (s tid).type.handler with
      | none => rfl
      | some handler =>
        exact absurd ⟨Bool.eq_true_of_not_eq_false hactive, hticks, by simp [htype]⟩ h

theorem osTimerStart_accepted {s : TimerState b} {tid : Tid b} {ticks : BitVec 32}
    {handler : IeHandler} (h : (s tid).Startable ticks)
    (hhandler : (s tid).type.handler = some handler) (me : Tid b) (time : BitVec 32) :
    (osTimerStart s me tid ticks time).2 = .osOK ∧
    ∀ t, (osTimerStart s me tid ticks time).1 t =
      { s t with
        entry := if t = tid then { (s t).entry with ticks := ticks } else (s t).entry
        ieHandler := if t = me then handler else (s t).ieHandler
        compare := if t = me then ticks + time else (s t).compare
        hwTimer := if t = me then .ie else (s t).hwTimer } := by
  have hactive : ¬ (s tid).active = false := by simp [h.1]
  rw [osTimerStart, if_neg hactive, if_neg h.2.1, hhandler]
  refine ⟨rfl, fun t => ?_⟩
  simp only [TimerState.on_apply]
  by_cases hme : t = me
  · subst hme
    by_cases htid : t = tid
    · subst htid
      simp only [if_true, TimerCell.setHandler, TimerCell.setTicks, TimerCell.setCompare,
        TimerCell.interruptExpire]
    · simp only [if_true, if_neg htid, TimerCell.setHandler, TimerCell.setCompare,
        TimerCell.interruptExpire]
  · by_cases htid : t = tid
    · subst htid
      simp only [if_true, if_neg hme, TimerCell.setTicks]
    · simp only [if_neg hme, if_neg htid]

/-- `osTimerStop` is let through. -/
def TimerCell.Stoppable (c : TimerCell) : Prop := c.active = true ∧ c.entry.ticks ≠ 0

theorem osTimerStop_refused {s : TimerState b} {tid : Tid b} (h : ¬ (s tid).Stoppable)
    (me : Tid b) :
    (osTimerStop s me tid).1 = s ∧ (osTimerStop s me tid).2 ≠ .osOK := by
  unfold osTimerStop
  split
  · exact ⟨rfl, nofun⟩
  · next hactive =>
    split
    · exact ⟨rfl, nofun⟩
    · next hticks => exact absurd ⟨Bool.eq_true_of_not_eq_false hactive, hticks⟩ h

theorem osTimerStop_accepted {s : TimerState b} {tid : Tid b} (h : (s tid).Stoppable)
    (me : Tid b) :
    (osTimerStop s me tid).2 = .osOK ∧
    ∀ t, (osTimerStop s me tid).1 t =
      { s t with
        entry := if t = tid then { (s t).entry with ticks := 0 } else (s t).entry
        ieHandler := if t = me then .defaultIeHandler else (s t).ieHandler
        compare := if t = me then 0 else (s t).compare
        hwTimer := if t = me then .off else (s t).hwTimer } := by
  have hactive : ¬ (s tid).active = false := by simp [h.1]
  rw [osTimerStop, if_neg hactive, if_neg h.2]
  refine ⟨rfl, fun t => ?_⟩
  simp only [TimerState.on_apply]
  by_cases hme : t = me
  · subst hme
    by_cases htid : t = tid
    · subst htid
      simp only [if_true, TimerCell.setHandler, TimerCell.setTicks, TimerCell.setCompare]
    · simp only [if_true, if_neg htid, TimerCell.setHandler, TimerCell.setCompare]
  · by_cases htid : t = tid
    · subst htid
      simp only [if_true, if_neg hme, TimerCell.setTicks]
    · simp only [if_neg hme, if_neg htid]

theorem osTimerDelete_apply (s : TimerState b) (me tid t : Tid b) :
    (s.osTimerDelete me tid).1 t =
      { s t with
        entry := if t = tid then { ticks := 0, func := NULL, arg := NULL } else (s t).entry
        active := if t = tid then false else (s t).active
        compare := if (s tid).entry.ticks ≠ 0 ∧ t = me then 0 else (s t).compare
        hwTimer := if (s tid).entry.ticks ≠ 0 ∧ t = me then .off else (s t).hwTimer } := by
  unfold TimerState.osTimerDelete
  by_cases hticks : (s tid).entry.ticks ≠ 0
  · have hboth : ((s tid).entry.ticks ≠ 0 ∧ t = me) = (t = me) :=
      propext (and_iff_right hticks)
    simp only [if_pos hticks, hboth, TimerState.on_apply]
    by_cases hme : t = me
    · subst hme
      by_cases htid : t = tid
      · subst htid
        simp only [if_true, TimerCell.cleared, TimerCell.setTicks, TimerCell.setCompare]
      · simp only [if_true, if_neg htid, TimerCell.setCompare]
    · by_cases htid : t = tid
      · subst htid
        simp only [if_true, if_neg hme, TimerCell.cleared, TimerCell.setTicks]
      · simp only [if_neg hme, if_neg htid]
  · have hboth : ¬ ((s tid).entry.ticks ≠ 0 ∧ t = me) := fun h => hticks h.1
    simp only [if_neg hticks, if_neg hboth, TimerState.on_apply]
    by_cases htid : t = tid
    · subst htid
      simp only [if_true, TimerCell.cleared]
    · simp only [if_neg htid]

/-! ### The timers within the state of the OS calls -/

/-- `timers` has what the OS state says of each timer. -/
structure OsState.Timers (s : OsState b) (timers : TimerState b) : Prop where
  entry : ∀ t, (timers t).entry = s.timer t
  active : ∀ t, (timers t).active = s.timerActive t
  compare : ∀ t, (timers t).compare = s.compare t

theorem OsState.Timers.delete {s : OsState b} {timers : TimerState b} (h : s.Timers timers)
    (me tid : Tid b) :
    (Flexpret.Os.osTimerDelete s me tid).Timers (timers.osTimerDelete me tid).1 := by
  constructor
  case entry =>
    intro t
    rw [osTimerDelete_apply, h.entry]
    exact (Function.update_apply ..).symm
  case active =>
    intro t
    rw [osTimerDelete_apply, h.active]
    exact (Function.update_apply ..).symm
  case compare =>
    intro t
    rw [osTimerDelete_apply, h.compare, h.entry tid]
    simp only [Flexpret.Os.osTimerDelete]
    by_cases hticks : (s.timer tid).ticks ≠ 0
    · have hboth : ((s.timer tid).ticks ≠ 0 ∧ t = me) = (t = me) :=
        propext (and_iff_right hticks)
      simp only [if_pos hticks, hboth, Function.update_apply]
    · have hboth : ¬ ((s.timer tid).ticks ≠ 0 ∧ t = me) := fun h => hticks h.1
      simp only [if_neg hticks, if_neg hboth]

/-- **thread_terminate** does to the timers what `threadCleanTimer` does. -/
theorem OsState.Timers.terminate {s : OsState b} {timers : TimerState b} (h : s.Timers timers)
    (me tid : Tid b) : (threadTerminate me tid true s).Timers (threadCleanTimer timers me tid) := by
  have hreset : (resetThread me tid s).Timers (threadCleanTimer timers me tid) := by
    simp only [threadCleanTimer, resetThread, h.active]
    split
    · refine OsState.Timers.delete ?_ me tid
      exact ⟨h.entry, h.active, h.compare⟩
    · exact ⟨h.entry, h.active, h.compare⟩
  have hclean : (threadClean me tid s).Timers (threadCleanTimer timers me tid) := by
    obtain ⟨csrs, hcsrs⟩ :=
      foldl_releaseRobust_eq tid (List.finRange flexpretMutexMaxNum) (resetThread me tid s)
    simp only [threadClean, hcsrs]
    exact ⟨hreset.entry, hreset.active, hreset.compare⟩
  obtain ⟨hentry, hactive, hcompare⟩ := hclean
  simp only [threadTerminate, if_true, osSchedulerSetSlotNum_zero]
  split
  · exact ⟨hentry, hactive, hcompare⟩
  · split
    · exact ⟨hentry, hactive, hcompare⟩
    · split <;> exact ⟨hentry, hactive, hcompare⟩

/-! ## Section 3: Calls on the timer of another thread -/

/-- The calls a thread makes on a timer that is not its own. -/
inductive TimerOp where
  | start (ticks : BitVec 32)
  | stop
  | delete
  | setFunc (timerFunc argument : Ptr)
  | threadTerminate

/-- Thread `c` makes the call on thread `t`, or its timer. -/
def TimerOp.exec (s : TimerState b) (c t : Tid b) (time : BitVec 32) :
    TimerOp → TimerState b × OsStatus
  | .start ticks => osTimerStart s c t ticks time
  | .stop => osTimerStop s c t
  | .delete => s.osTimerDelete c t
  | .setFunc timerFunc argument => osTimerSetFunc s c t timerFunc argument
  | .threadTerminate => (threadCleanTimer s c t, .osOK)

/-- What a successful call asks of the hardware timer of its target. -/
def TimerOp.Effect (before after : TimerCell) (time : BitVec 32) : TimerOp → Prop
  | .start ticks => after.hwTimer = .ie ∧ after.compare = ticks + time
  | .stop => after.hwTimer ≠ .ie
  | .delete => after.hwTimer ≠ .ie
  | .setFunc timerFunc _ => after.entry.func = timerFunc
  | .threadTerminate => before.active = true → after.hwTimer ≠ .ie

/-- The call writes to the registers and the handler of its caller what they
    hold, and finds those of the target as it wants them. -/
def TimerOp.AlreadySo (caller target : TimerCell) (time : BitVec 32) : TimerOp → Prop
  | .start ticks =>
      (caller.hwTimer = .ie ∧ caller.compare = ticks + time ∧
        target.type.handler = some caller.ieHandler) ∧
      target.hwTimer = .ie ∧ target.compare = ticks + time
  | .stop =>
      (caller.hwTimer = .off ∧ caller.compare = 0 ∧ caller.ieHandler = .defaultIeHandler) ∧
      target.hwTimer ≠ .ie
  | .delete | .threadTerminate =>
      (target.entry.ticks ≠ 0 → caller.hwTimer = .off ∧ caller.compare = 0) ∧
      target.hwTimer ≠ .ie
  | .setFunc _ _ => True

/-- The call is turned down, or there is no timer to delete. -/
def TimerOp.Refused (target : TimerCell) : TimerOp → Prop
  | .start ticks => ¬ target.Startable ticks
  | .stop => ¬ target.Stoppable
  | .delete => False
  | .setFunc _ _ => True
  | .threadTerminate => target.active = false

/-- A cell whose registers and handler are set stays the same when they had
    these values. -/
theorem TimerCell.set_eq_iff (c : TimerCell) (handler : IeHandler) (compare : BitVec 32)
    (hwTimer : Core.TimerMode) :
    { c with ieHandler := handler, compare := compare, hwTimer := hwTimer } = c ↔
      c.hwTimer = hwTimer ∧ c.compare = compare ∧ c.ieHandler = handler := by
  cases c
  simp only [TimerCell.mk.injEq, true_and]
  constructor
  · intro ⟨hh, hc, hw⟩
    exact ⟨hw.symm, hc.symm, hh.symm⟩
  · intro ⟨hw, hc, hh⟩
    exact ⟨hh.symm, hc.symm, hw.symm⟩

/-- **Deleting** the timer of another thread. -/
theorem osTimerDelete_other {s : TimerState b} {c t : Tid b} (hne : t ≠ c) :
    ((s.osTimerDelete c t).1 c = s c ↔
      ((s t).entry.ticks ≠ 0 → (s c).hwTimer = .off ∧ (s c).compare = 0)) ∧
    ((s.osTimerDelete c t).1 t).hwTimer = (s t).hwTimer := by
  refine ⟨?_, ?_⟩
  · rw [osTimerDelete_apply]
    simp only [if_neg hne.symm, and_true]
    by_cases hticks : (s t).entry.ticks ≠ 0
    · have hset := (s c).set_eq_iff (s c).ieHandler 0 .off
      simp only [and_true] at hset
      simp only [if_pos hticks]
      rw [hset]
      exact ⟨fun h _ => h, fun h => h hticks⟩
    · simp only [if_neg hticks]
      exact ⟨fun _ h => absurd h hticks, fun _ => trivial⟩
  · rw [osTimerDelete_apply]
    simp only [hne, and_false, if_false]

/-- **Another thread's timer**: a call of `c` on the timer of `t` leaves the
    cell of `c` alone, and when it returns `osOK` has its effect on that of
    `t`, if and only if it is refused or finds everything so already. -/
theorem timerOp_otherThread_iff (op : TimerOp) {s : TimerState b} {c t : Tid b} (hne : t ≠ c)
    (time : BitVec 32) :
    ((op.exec s c t time).1 c = s c ∧
      ((op.exec s c t time).2 = .osOK → op.Effect (s t) ((op.exec s c t time).1 t) time)) ↔
    op.Refused (s t) ∨ op.AlreadySo (s c) (s t) time := by
  cases op with
  | start ticks =>
    simp only [TimerOp.exec, TimerOp.Effect, TimerOp.Refused, TimerOp.AlreadySo]
    by_cases hstart : (s t).Startable ticks
    · obtain ⟨handler, hhandler⟩ := Option.ne_none_iff_exists'.mp hstart.2.2
      obtain ⟨hok, hcell⟩ := osTimerStart_accepted hstart hhandler c time
      rw [hcell c, hcell t, hok]
      simp only [if_true, if_neg hne, if_neg hne.symm, true_imp_iff, hstart, not_true,
        false_or, hhandler, Option.some.injEq]
      rw [TimerCell.set_eq_iff, @eq_comm _ handler]
    · rw [osTimerStart_refused hstart]
      simp [hstart]
  | stop =>
    simp only [TimerOp.exec, TimerOp.Effect, TimerOp.Refused, TimerOp.AlreadySo]
    by_cases hstop : (s t).Stoppable
    · obtain ⟨hok, hcell⟩ := osTimerStop_accepted hstop c
      rw [hcell c, hcell t, hok]
      simp only [if_true, if_neg hne, if_neg hne.symm, true_imp_iff, hstop, not_true, false_or]
      rw [TimerCell.set_eq_iff]
    · obtain ⟨hsame, hstatus⟩ := osTimerStop_refused hstop c
      simp [hsame, hstatus, hstop]
  | delete =>
    obtain ⟨hcaller, htarget⟩ := osTimerDelete_other (s := s) hne
    have hok : (s.osTimerDelete c t).2 = .osOK := rfl
    simp only [TimerOp.exec, TimerOp.Effect, TimerOp.Refused, TimerOp.AlreadySo, hcaller, htarget,
      hok, true_imp_iff, false_or]
  | setFunc timerFunc argument =>
    have hrefused : osTimerSetFunc s c t timerFunc argument = (s, .osError) := by
      rw [osTimerSetFunc, if_pos hne]
      split <;> rfl
    simp [TimerOp.exec, TimerOp.Refused, hrefused]
  | threadTerminate =>
    obtain ⟨hcaller, htarget⟩ := osTimerDelete_other (s := s) hne
    simp only [TimerOp.exec, TimerOp.Effect, TimerOp.Refused, TimerOp.AlreadySo]
    by_cases hactive : (s t).active = true
    · have hclean : threadCleanTimer s c t = (s.osTimerDelete c t).1 := if_pos hactive
      simp only [hclean, hactive, hcaller, htarget, true_imp_iff, reduceCtorEq, false_or]
    · have hclean : threadCleanTimer s c t = s := if_neg hactive
      simp [hclean, hactive]

/-- A one-shot timer that has not been started, on a thread at rest. -/
def idleCell : TimerCell where
  entry := { ticks := 0, func := 0x900, arg := NULL }
  type := .osTimerOnce
  active := true
  ieHandler := .defaultIeHandler
  compare := 0
  hwTimer := .off

/-- Such a timer started in time 5000 for 1000 nanoseconds. -/
def expiringCell : TimerCell where
  entry := { ticks := 1000, func := 0x900, arg := NULL }
  type := .osTimerOnce
  active := true
  ieHandler := .timerHandler
  compare := 6000
  hwTimer := .ie

/-- A call on an idle timer that is refused, and one on a timer that has been started for
    the time at which that of the caller expires. -/
theorem otherCalls_harmless :
    ((TimerOp.stop.exec (b := .threads4Dspm12) (fun _ => idleCell) 1 2 5000).1 1 = idleCell ∧
      ((TimerOp.stop.exec (b := .threads4Dspm12) (fun _ => idleCell) 1 2 5000).2 = .osOK →
        TimerOp.stop.Effect idleCell
          ((TimerOp.stop.exec (b := .threads4Dspm12) (fun _ => idleCell) 1 2 5000).1 2) 5000)) ∧
    ((TimerOp.start 1000).exec (b := .threads4Dspm12) (fun _ => expiringCell) 1 2 5000).2 = .osOK ∧
    (((TimerOp.start 1000).exec (b := .threads4Dspm12) (fun _ => expiringCell) 1 2 5000).1 1 =
        expiringCell ∧
      (((TimerOp.start 1000).exec (b := .threads4Dspm12) (fun _ => expiringCell) 1 2 5000).2 =
          .osOK →
        (TimerOp.start 1000).Effect expiringCell
          (((TimerOp.start 1000).exec (b := .threads4Dspm12) (fun _ => expiringCell) 1 2 5000).1 2)
            5000)) := by
  refine ⟨?refused, by decide, ?sameTime⟩
  case refused =>
    exact (timerOp_otherThread_iff .stop (s := fun _ => idleCell) (c := 1) (t := 2) (by decide)
      5000).mpr (.inl fun h => h.2 rfl)
  case sameTime =>
    exact (timerOp_otherThread_iff (.start 1000) (s := fun _ => expiringCell) (c := 1) (t := 2)
      (by decide) 5000).mpr (.inr ⟨⟨rfl, rfl, rfl⟩, rfl, rfl⟩)

/-- Thread 1 starts the timer of thread 2, and the hardware timer that runs is
    that of thread 1. -/
theorem start_other_disturbs :
    let r := (TimerOp.start 1000).exec (b := .threads4Dspm12) (fun _ => idleCell) 1 2 5000
    r.2 = .osOK ∧ (r.1 1).compare = 6000 ∧ (r.1 1).hwTimer = .ie ∧ (r.1 2).hwTimer = .off ∧
      ¬ (r.1 1 = idleCell ∧
        (r.2 = .osOK → (TimerOp.start 1000).Effect idleCell (r.1 2) 5000)) := by
  refine ⟨by decide, by decide, by decide, by decide, fun h => ?_⟩
  have hoff := congrArg TimerCell.hwTimer h.1
  exact absurd hoff (by decide)

end Flexpret.Os
