import Flexpret.Os.Timer

/-! # Timer Calls and the Timer Interrupt

    A thread makes calls on its own timer, and the interrupt of that timer can
    be taken between any two of their steps.  A step is one access to the
    timer's entry, its attribute pointer, a register or the handler.  The
    handler runs with interrupts disabled; the callback it runs makes calls as
    the thread does.
-/

open Transition

namespace Flexpret.Os

/-! ## Section 1: The calls, step by step -/

/-- Where a thread stands inside a call.  The arguments are the registers that
    are live there. -/
inductive TimerPc where
  | startCheck (ticks : BitVec 32)
  | startHandler (ticks : BitVec 32) (handler : IeHandler)
  | startTicks (ticks : BitVec 32)
  | startTime (ticks : BitVec 32)
  | startCompare (ticks time : BitVec 32)
  | startExpire
  | stopCheck
  | stopTicks
  | stopCompare
  | stopHandler
  | deleteCheck
  | deleteTicks
  | deleteCompare
  | deleteActive
  | deleteFunc
  | deleteArg
  | deleteEnd
  | newCheck (func : Ptr) (type : OsTimerType) (argument : Ptr)
  | newActive (func : Ptr) (type : OsTimerType) (argument : Ptr)
  | newFunc (func : Ptr) (type : OsTimerType) (argument : Ptr)
  | newArg (type : OsTimerType) (argument : Ptr)
  | newType (type : OsTimerType)
  | newTicks
  | setFuncCheck (timerFunc argument : Ptr)
  | setFuncCompare (timerFunc argument : Ptr)
  | setFuncFunc (timerFunc argument : Ptr)
  | setFuncArg (argument : Ptr)
  | setFuncTicks
  /-- `osTimerIsRunning` in `osDelayUntil`. -/
  | untilCheck (ticks : BitVec 32)
  | untilCompare (ticks : BitVec 32)
  /-- `get_time` before a delay of `period`, with `turns` delays to go. -/
  | sleepTime (period : BitVec 32) (turns : Nat)
  | sleepCompare (period time : BitVec 32) (turns : Nat)
  | sleepDu (period : BitVec 32) (turns : Nat)
  | asleep (period : BitVec 32) (turns : Nat)
  deriving DecidableEq

/-- After a step the call goes on or returns.  `osTimerNew` returns `osOK`
    here for an id and `osError` for `NULL`. -/
inductive TimerOutcome where
  | next (pc : TimerPc)
  | ret (status : OsStatus)
  deriving DecidableEq

namespace TimerCell

def setFunc (c : TimerCell) (func : Ptr) : TimerCell :=
  let entry : HwtimerState := { c.entry with func := func }
  { c with entry := entry }

def setArg (c : TimerCell) (arg : Ptr) : TimerCell :=
  let entry : HwtimerState := { c.entry with arg := arg }
  { c with entry := entry }

end TimerCell

/-- The step at a program point, at time `now`. -/
def timerStep (now : BitVec 32) (c : TimerCell) : TimerPc → TimerCell × TimerOutcome
  | .startCheck ticks =>
      (c, if c.active = false then .ret .osError
          else if ticks = 0 then .ret .osError
          else match c.type.handler with
            | none => .ret .osError
            | some handler => .next (.startHandler ticks handler))
  | .startHandler ticks handler => (c.setHandler handler, .next (.startTicks ticks))
  | .startTicks ticks => (c.setTicks ticks, .next (.startTime ticks))
  | .startTime ticks => (c, .next (.startCompare ticks now))
  | .startCompare ticks time => (c.setCompare (ticks + time), .next .startExpire)
  | .startExpire => (c.interruptExpire, .ret .osOK)
  | .stopCheck =>
      (c, if c.active = false then .ret .osError
          else if c.entry.ticks = 0 then .ret .osErrorResource
          else .next .stopTicks)
  | .stopTicks => (c.setTicks 0, .next .stopCompare)
  | .stopCompare => (c.setCompare 0, .next .stopHandler)
  | .stopHandler => (c.setHandler .defaultIeHandler, .ret .osOK)
  | .deleteCheck => (c, .next (if c.entry.ticks ≠ 0 then .deleteTicks else .deleteActive))
  | .deleteTicks => (c.setTicks 0, .next .deleteCompare)
  | .deleteCompare => (c.setCompare 0, .next .deleteActive)
  | .deleteActive => ({ c with active := false }, .next .deleteFunc)
  | .deleteFunc => (c.setFunc NULL, .next .deleteArg)
  | .deleteArg => (c.setArg NULL, .next .deleteEnd)
  | .deleteEnd => (c.setTicks 0, .ret .osOK)
  | .newCheck func type argument =>
      (c, if c.active then .ret .osError
          else if func = NULL then .ret .osError
          else .next (.newActive func type argument))
  | .newActive func type argument =>
      ({ c with active := true }, .next (.newFunc func type argument))
  | .newFunc func type argument => (c.setFunc func, .next (.newArg type argument))
  | .newArg type argument => (c.setArg argument, .next (.newType type))
  | .newType type => ({ c with type := type }, .next .newTicks)
  | .newTicks => (c.setTicks 0, .ret .osOK)
  | .setFuncCheck timerFunc argument =>
      (c, if c.active = false then .ret .osError
          else .next (.setFuncCompare timerFunc argument))
  | .setFuncCompare timerFunc argument =>
      (c.setCompare 0, .next (.setFuncFunc timerFunc argument))
  | .setFuncFunc timerFunc argument => (c.setFunc timerFunc, .next (.setFuncArg argument))
  | .setFuncArg argument => (c.setArg argument, .next .setFuncTicks)
  | .setFuncTicks => (c.setTicks 0, .ret .osOK)
  | .untilCheck ticks => (c, if c.running then .ret .osError else .next (.untilCompare ticks))
  | .untilCompare ticks => (c.setCompare ticks, .next (.sleepDu 0 1))
  | .sleepTime period turns =>
      (c, if turns = 0 then .ret .osOK else .next (.sleepCompare period now turns))
  | .sleepCompare period time turns =>
      (c.setCompare (time + period), .next (.sleepDu period turns))
  | .sleepDu period turns => ({ c with hwTimer := .duWu }, .next (.asleep period turns))
  -- The thread wakes when its time has come.
  | .asleep period turns =>
      if Core.reached now c.compare then
        ({ c with hwTimer := .off }, .next (.sleepTime period (turns - 1)))
      else (c, .next (.asleep period turns))

/-- The calls.  `wait` stands for an `osMutexAcquire` or `osThreadJoin` that
    waits: it delays once, and `turns` times more. -/
inductive TimerCall where
  | timerNew (func : Ptr) (type : OsTimerType) (argument : Ptr)
  | timerStart (ticks : BitVec 32)
  | timerStop
  | timerDelete
  | timerSetFunc (timerFunc argument : Ptr)
  | delay (ticks : BitVec 32)
  | delayUntil (ticks : BitVec 32)
  | wait (period : BitVec 32) (turns : Nat)

/-- Where the call begins. -/
def TimerCall.pc : TimerCall → TimerPc
  | .timerNew func type argument => .newCheck func type argument
  | .timerStart ticks => .startCheck ticks
  | .timerStop => .stopCheck
  | .timerDelete => .deleteCheck
  | .timerSetFunc timerFunc argument => .setFuncCheck timerFunc argument
  | .delay ticks => .sleepTime ticks 1
  | .delayUntil ticks => .untilCheck ticks
  | .wait period turns => .sleepTime period (turns + 1)

/-! ### A call that is not interrupted -/

/-- Take the steps of a call until it returns, at most `n`. -/
def runTimerCall (now : BitVec 32) : Nat → TimerCell → TimerPc → Option (TimerCell × OsStatus)
  | 0, _, _ => none
  | n + 1, c, pc =>
      match timerStep now c pc with
      | (c, .ret status) => some (c, status)
      | (c, .next pc) => runTimerCall now n c pc

section uninterrupted

variable {b : OsBuild} (s : TimerState b) (t : Tid b) (now : BitVec 32)

theorem osTimerStart_steps (ticks : BitVec 32) :
    runTimerCall now 6 (s t) (.startCheck ticks) =
      some ((osTimerStart s t t ticks now).1 t, (osTimerStart s t t ticks now).2) := by
  by_cases hstart : (s t).Startable ticks
  · obtain ⟨handler, hhandler⟩ := Option.ne_none_iff_exists'.mp hstart.2.2
    obtain ⟨hok, hcell⟩ := osTimerStart_accepted hstart hhandler t now
    rw [hok, hcell t]
    have hcheck : timerStep now (s t) (.startCheck ticks) =
        (s t, .next (.startHandler ticks handler)) := by
      simp only [timerStep, hstart.1, if_neg hstart.2.1, hhandler, Bool.true_eq_false, if_false]
    simp only [runTimerCall, hcheck]
    simp [timerStep, TimerCell.setHandler, TimerCell.setTicks, TimerCell.setCompare,
      TimerCell.interruptExpire]
  · rw [osTimerStart_refused hstart]
    have hcheck : timerStep now (s t) (.startCheck ticks) = (s t, .ret .osError) := by
      simp only [timerStep]
      split
      · rfl
      · next hactive =>
        split
        · rfl
        · next hticks =>
          cases htype : (s t).type.handler with
          | none => rfl
          | some handler =>
            exact absurd ⟨Bool.eq_true_of_not_eq_false hactive, hticks, by simp [htype]⟩ hstart
    simp only [runTimerCall, hcheck]

theorem osTimerStop_steps :
    runTimerCall now 4 (s t) .stopCheck =
      some ((osTimerStop s t t).1 t, (osTimerStop s t t).2) := by
  unfold osTimerStop
  by_cases hactive : (s t).active = false
  · simp [runTimerCall, timerStep, hactive]
  · by_cases hticks : (s t).entry.ticks = 0
    · simp only [runTimerCall, timerStep, if_neg hactive, if_pos hticks]
    · simp only [runTimerCall, timerStep, if_neg hactive, if_neg hticks, TimerState.on_apply,
        if_true]

theorem osTimerDelete_steps :
    runTimerCall now 7 (s t) .deleteCheck =
      some ((s.osTimerDelete t t).1 t, (s.osTimerDelete t t).2) := by
  rw [osTimerDelete_apply]
  by_cases hticks : (s t).entry.ticks ≠ 0
  · have hne : ¬ (s t).entry.ticks = 0#32 := hticks
    simp only [runTimerCall, timerStep, if_pos hticks]
    simp [TimerState.osTimerDelete, TimerCell.setTicks, TimerCell.setCompare, TimerCell.setFunc,
      TimerCell.setArg, hne]
  · simp only [runTimerCall, timerStep, if_neg hticks]
    simp [TimerState.osTimerDelete, TimerCell.setTicks, TimerCell.setFunc,
      TimerCell.setArg, not_not.mp hticks]

theorem osTimerSetFunc_steps (timerFunc argument : Ptr) :
    runTimerCall now 5 (s t) (.setFuncCheck timerFunc argument) =
      some ((osTimerSetFunc s t t timerFunc argument).1 t,
        (osTimerSetFunc s t t timerFunc argument).2) := by
  unfold osTimerSetFunc
  by_cases hactive : (s t).active = false
  · simp [runTimerCall, timerStep, hactive]
  · simp [runTimerCall, timerStep, hactive, TimerState.on_apply, TimerCell.setFunc,
      TimerCell.setArg, TimerCell.setTicks]

theorem osTimerNew_steps (func : Ptr) (type : OsTimerType) (argument : Ptr) :
    runTimerCall now 6 (s t) (.newCheck func type argument) =
      some ((osTimerNew s t func type argument).1 t,
        if (osTimerNew s t func type argument).2 = some t then .osOK else .osError) := by
  unfold osTimerNew
  by_cases hactive : (s t).active = true
  · simp [runTimerCall, timerStep, hactive]
  · by_cases hfunc : func = NULL
    · simp [runTimerCall, timerStep, hactive, hfunc]
    · simp [runTimerCall, timerStep, hactive, hfunc, TimerState.on_apply, TimerCell.setFunc,
        TimerCell.setArg, TimerCell.setTicks]

end uninterrupted

/-! ## Section 2: The thread, its handler and the callback -/

/-- The thread's own code, or that of the callback, between two calls or
    inside one. -/
inductive Point where
  | user
  | api (pc : TimerPc)
  deriving DecidableEq

/-- Where the trap handler stands: `timer_handler` or `timer_periodic_handler`,
    then `trap_ret`. -/
inductive HandlerPc where
  /-- `tmp->func(tmp->arg)`. -/
  | call
  | callback (p : Point)
  | onceTicks
  | periodicTime
  | periodicCompare (time : BitVec 32)
  | periodicExpire
  | trapRet
  deriving DecidableEq

/-- A thread executes its own code, or the handler of an interrupt taken at
    the point `back`. -/
inductive Context where
  | thread (p : Point)
  | trap (handler : IeHandler) (pc : HandlerPc) (back : Point)
  deriving DecidableEq

/-- A thread with its timer.  `start` is the time from which the current
    compare value was computed; the code does not keep it. -/
structure TimerThread where
  cell : TimerCell
  start : BitVec 32
  /-- The interrupt enable bit. -/
  ie : Bool
  /-- The timer interrupt is pending. -/
  mtie : Bool
  context : Context

/-- What the thread does next: begin a call, take the next step, or return
    from the callback. -/
inductive TimerEvent where
  | call (c : TimerCall)
  | insn
  | callbackReturns

namespace TimerThread

variable (s : TimerThread) (now : BitVec 32)

/-- The armed timer has expired at time `now`. -/
def fires : Bool := s.cell.hwTimer = .ie && Core.reached now s.cell.compare

/-- The registers once the hardware has looked at the timer. -/
def checked : TimerThread :=
  if s.fires now then { s with cell := { s.cell with hwTimer := .off }, mtie := true } else s

end TimerThread

/-- Where the trap routine starts: a handler that is not a timer's leaves the
    timer alone. -/
def IeHandler.entry : IeHandler → HandlerPc
  | .timerHandler => .call
  | .timerPeriodicHandler => .call
  | .defaultIeHandler => .trapRet
  | .user _ => .trapRet

/-- What the handler does after the callback. -/
def IeHandler.afterCallback : IeHandler → HandlerPc
  | .timerHandler => .onceTicks
  | .timerPeriodicHandler => .periodicTime
  | .defaultIeHandler => .trapRet
  | .user _ => .trapRet

/-- The point after an outcome. -/
def TimerOutcome.point : TimerOutcome → Point
  | .next pc => .api pc
  | .ret _ => .user

/-- The start time that the step at `pc` fixes. -/
def TimerPc.programs (old : BitVec 32) : TimerPc → BitVec 32
  | .startCompare _ time => time
  | _ => old

/-- One step of the thread's own code, or of the callback: `none` where it
    cannot do that. -/
def Point.step (s : TimerThread) (now : BitVec 32) (context : Point → Context) :
    Point → TimerEvent → Option TimerThread
  | .user, .call c => some { s with context := context (.api c.pc) }
  | .user, .insn => some s
  | .api pc, .insn =>
      let r := timerStep now s.cell pc
      some { s with cell := r.1, start := pc.programs s.start, context := context r.2.point }
  | _, _ => none

namespace TimerThread

/-- One step where no trap is taken.  `fired` tells whether the timer expires
    in this very step; `csrrsi status` clears `mtie` unless it does. -/
def exec (s : TimerThread) (now : BitVec 32) (fired : Bool) (ev : TimerEvent) :
    Option TimerThread :=
  match s.context with
  | .thread p => p.step s now .thread ev
  | .trap handler pc back =>
      match pc, ev with
      -- A `NULL` function sends the thread to address zero.
      | .call, .insn =>
          if s.cell.entry.func = NULL then none
          else some { s with context := .trap handler (.callback .user) back }
      | .callback .user, .callbackReturns =>
          some { s with context := .trap handler handler.afterCallback back }
      | .callback p, ev => p.step s now (fun p => .trap handler (.callback p) back) ev
      | .onceTicks, .insn =>
          some { s with cell := s.cell.setTicks 0, context := .trap handler .trapRet back }
      | .periodicTime, .insn =>
          some { s with context := .trap handler (.periodicCompare now) back }
      | .periodicCompare time, .insn =>
          some { s with
            cell := s.cell.setCompare (s.cell.entry.ticks + time)
            start := time
            context := .trap handler .periodicExpire back }
      | .periodicExpire, .insn =>
          some { s with
            cell := s.cell.interruptExpire
            context := .trap handler .trapRet back }
      | .trapRet, .insn => some { s with ie := true, mtie := fired, context := .thread back }
      | _, _ => none

/-- The interrupt is taken in place of the step. -/
def takeTrap (s : TimerThread) : Option TimerThread :=
  match s.context with
  | .thread p =>
      some { s with ie := false, context := .trap s.cell.ieHandler s.cell.ieHandler.entry p }
  | .trap _ _ _ => none

/-- One step at time `now`. -/
def step (s : TimerThread) (l : BitVec 32 × TimerEvent) : Option TimerThread :=
  let s' := s.checked l.1
  if s'.ie && s'.mtie then s'.takeTrap else s'.exec l.1 (s.fires l.1) l.2

/-- A thread whose timer was never created, running with interrupts enabled as
    the startup code leaves it. -/
structure AtStart (s : TimerThread) : Prop where
  context : s.context = .thread .user
  ie : s.ie = true
  mtie : s.mtie = false
  active : s.cell.active = false
  ticks : s.cell.entry.ticks = 0
  hwTimer : s.cell.hwTimer = .off
  ieHandler : s.cell.ieHandler = .defaultIeHandler

end TimerThread

/-- The runs of a thread with its timer. -/
def timerSystem : System TimerThread (BitVec 32 × TimerEvent) :=
  System.ofStep TimerThread.AtStart TimerThread.step

/-! ## Section 3: What a step can be -/

/-- A step of the thread's own code, or of the callback. -/
inductive PointCase (s : TimerThread) (now : BitVec 32) (context : Point → Context) :
    Point → TimerEvent → TimerThread → Prop where
  | call (c : TimerCall) :
      PointCase s now context .user (.call c) { s with context := context (.api c.pc) }
  | user : PointCase s now context .user .insn s
  | api (pc : TimerPc) :
      PointCase s now context (.api pc) .insn
        { s with
          cell := (timerStep now s.cell pc).1
          start := pc.programs s.start
          context := context (timerStep now s.cell pc).2.point }

theorem pointCase_of_step {s s' : TimerThread} {now : BitVec 32} {context : Point → Context}
    {p : Point} {ev : TimerEvent} (h : p.step s now context ev = some s') :
    PointCase s now context p ev s' := by
  cases p with
  | user =>
    cases ev with
    | call c =>
      obtain rfl := Option.some.inj h
      exact .call c
    | insn =>
      obtain rfl := Option.some.inj h
      exact .user
    | callbackReturns => exact absurd h nofun
  | api pc =>
    cases ev with
    | call c => exact absurd h nofun
    | insn =>
      obtain rfl := Option.some.inj h
      exact .api pc
    | callbackReturns => exact absurd h nofun

/-- A step where no trap is taken. -/
inductive ExecCase (s : TimerThread) (now : BitVec 32) (fired : Bool) :
    Context → TimerEvent → TimerThread → Prop where
  | thread {p ev s'} : PointCase s now .thread p ev s' → ExecCase s now fired (.thread p) ev s'
  | call {handler back} : s.cell.entry.func ≠ NULL →
      ExecCase s now fired (.trap handler .call back) .insn
        { s with context := .trap handler (.callback .user) back }
  | callbackReturns {handler back} :
      ExecCase s now fired (.trap handler (.callback .user) back) .callbackReturns
        { s with context := .trap handler handler.afterCallback back }
  | callback {handler p back ev s'} :
      PointCase s now (fun p => .trap handler (.callback p) back) p ev s' →
      ExecCase s now fired (.trap handler (.callback p) back) ev s'
  | onceTicks {handler back} :
      ExecCase s now fired (.trap handler .onceTicks back) .insn
        { s with cell := s.cell.setTicks 0, context := .trap handler .trapRet back }
  | periodicTime {handler back} :
      ExecCase s now fired (.trap handler .periodicTime back) .insn
        { s with context := .trap handler (.periodicCompare now) back }
  | periodicCompare {handler time back} :
      ExecCase s now fired (.trap handler (.periodicCompare time) back) .insn
        { s with
          cell := s.cell.setCompare (s.cell.entry.ticks + time)
          start := time
          context := .trap handler .periodicExpire back }
  | periodicExpire {handler back} :
      ExecCase s now fired (.trap handler .periodicExpire back) .insn
        { s with cell := s.cell.interruptExpire, context := .trap handler .trapRet back }
  | trapRet {handler back} :
      ExecCase s now fired (.trap handler .trapRet back) .insn
        { s with ie := true, mtie := fired, context := .thread back }

theorem execCase_of_exec {s s' : TimerThread} {now : BitVec 32} {fired : Bool}
    {ev : TimerEvent} (h : s.exec now fired ev = some s') :
    ExecCase s now fired s.context ev s' := by
  unfold TimerThread.exec at h
  cases hctx : s.context with
  | thread p =>
    rw [hctx] at h
    exact .thread (pointCase_of_step h)
  | trap handler pc back =>
    rw [hctx] at h
    simp only at h
    split at h
    · split at h
      · exact absurd h nofun
      · next hfunc =>
        obtain rfl := Option.some.inj h
        exact .call hfunc
    · obtain rfl := Option.some.inj h
      exact .callbackReturns
    · exact .callback (pointCase_of_step h)
    · obtain rfl := Option.some.inj h
      exact .onceTicks
    · obtain rfl := Option.some.inj h
      exact .periodicTime
    · obtain rfl := Option.some.inj h
      exact .periodicCompare
    · obtain rfl := Option.some.inj h
      exact .periodicExpire
    · obtain rfl := Option.some.inj h
      exact .trapRet
    · exact absurd h nofun

/-- **What a step can be**: the interrupt is taken at a point of the thread's
    code, or the step is executed. -/
theorem step_cases {s s' : TimerThread} {now : BitVec 32} {ev : TimerEvent}
    (h : s.step (now, ev) = some s') :
    ((s.checked now).ie = true ∧ (s.checked now).mtie = true ∧ ∃ p, s.context = .thread p ∧
      s' = { s.checked now with
        ie := false
        context := .trap s.cell.ieHandler s.cell.ieHandler.entry p }) ∨
    (((s.checked now).ie && (s.checked now).mtie) = false ∧
      ExecCase (s.checked now) now (s.fires now) s.context ev s') := by
  have hctx : (s.checked now).context = s.context := by
    unfold TimerThread.checked
    split <;> rfl
  have hhandler : (s.checked now).cell.ieHandler = s.cell.ieHandler := by
    unfold TimerThread.checked
    split <;> rfl
  simp only [TimerThread.step] at h
  split at h
  · next htrap =>
    obtain ⟨hie, hmtie⟩ := Bool.and_eq_true_iff.mp htrap
    refine .inl ⟨hie, hmtie, ?_⟩
    simp only [TimerThread.takeTrap, hctx, hhandler] at h
    cases hc : s.context with
    | thread p =>
      rw [hc] at h
      exact ⟨p, rfl, (Option.some.inj h).symm⟩
    | trap handler pc back =>
      rw [hc] at h
      exact absurd h nofun
  · next htrap =>
    refine .inr ⟨Bool.eq_false_of_not_eq_true htrap, ?_⟩
    rw [← hctx]
    exact execCase_of_exec h

/-- What the hardware's look at the timer leaves. -/
theorem checked_fired {s : TimerThread} {now : BitVec 32} (h : s.fires now = true) :
    s.checked now = { s with cell := { s.cell with hwTimer := .off }, mtie := true } := if_pos h

theorem checked_same {s : TimerThread} {now : BitVec 32} (h : s.fires now = false) :
    s.checked now = s := if_neg (by simp [h])

end Flexpret.Os
