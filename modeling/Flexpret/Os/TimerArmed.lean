import Flexpret.Os.TimerStop

/-! # A Running Timer Is Armed

    `osTimerIsRunning` looks at the `ticks` field.  The hardware timer agrees
    with it in runs where no delay overwrites the compare register of a running
    timer, where a callback leaves the timer as its handler expects, and where
    a periodic timer does not expire again before its handler has returned.
-/

open Transition

namespace Flexpret.Os

/-! ## Section 1: The property and its condition -/

/-- The timer is running if and only if its interrupt is to come when the
    programmed time is over, and then its handler is installed. -/
structure RunningFires (s : TimerThread) : Prop where
  armed : s.cell.running = true ↔
    (s.cell.hwTimer = .ie ∨ s.mtie = true) ∧ s.cell.compare = s.start + s.cell.entry.ticks
  handler : s.cell.running = true → s.cell.type.handler = some s.cell.ieHandler

/-- The call delays the thread without a look at the timer. -/
def TimerCall.sleeps : TimerCall → Bool
  | .delay _ => true
  | .wait _ _ => true
  | _ => false

/-- The calls a callback makes: it may restart or stop the timer, give it
    another function, and delay. -/
def TimerCall.inCallback : TimerCall → Bool
  | .timerNew _ _ _ => false
  | .timerDelete => false
  | _ => true

/-- The callback leaves the timer as the handler and the interrupted code
    expect: a one-shot timer not started again, a periodic one not stopped.
    A call it has interrupted finds what it has stored already. -/
def CallbackLeaves (handler : IeHandler) (c : TimerCell) : Point → Prop
  | .api .stopCompare => handler = .timerPeriodicHandler → c.entry.ticks = 0
  | .api .deleteCompare => True
  | .api (.startTime ticks) | .api (.startCompare ticks _) =>
      handler = .timerPeriodicHandler ∧ c.entry.ticks = ticks
  | .api (.startTicks _) =>
      (handler = .timerHandler → c.hwTimer ≠ .ie ∧ c.ieHandler = .timerHandler) ∧
      (handler = .timerPeriodicHandler → c.entry.ticks ≠ 0)
  | _ =>
      (handler = .timerHandler → c.hwTimer ≠ .ie) ∧
      (handler = .timerPeriodicHandler → c.entry.ticks ≠ 0)

/-- The condition on a step. -/
structure FiresOk (s : TimerThread) (l : BitVec 32 × TimerEvent) : Prop where
  sleeps : ∀ c, s.context = .thread .user → l.2 = .call c → c.sleeps = true →
    s.cell.running = false
  calls : ∀ c handler back, s.context = .trap handler (.callback .user) back →
    l.2 = .call c → c.inCallback = true
  leaves : ∀ handler back, s.context = .trap handler (.callback .user) back →
    l.2 = .callbackReturns → CallbackLeaves handler s.cell back
  /-- The next deadline has not come yet when the handler is about to enable
      interrupts. -/
  exits : ∀ handler back, s.context = .trap handler .trapRet back →
    back ≠ .api .deleteCompare → s.cell.entry.ticks ≠ 0 → s.cell.hwTimer = .ie

/-! ## Section 2: The invariant in the thread's code -/

/-- The installed handler is that of the timer's type. -/
def TimerCell.HandlerOk (c : TimerCell) : Prop := c.type.handler = some c.ieHandler

/-- Or the default one is installed. -/
def TimerCell.HandlerKnown (c : TimerCell) : Prop :=
  c.ieHandler = .defaultIeHandler ∨ c.HandlerOk

/-- Registers and entry agree; `coming` tells that the interrupt is armed or
    pending. -/
structure InStep (c : TimerCell) (coming : Bool) (start : BitVec 32) : Prop where
  ticks : c.entry.ticks ≠ 0 ↔ coming = true
  compare : c.entry.ticks ≠ 0 → c.compare = start + c.entry.ticks
  handler : c.entry.ticks ≠ 0 → c.HandlerOk
  active : c.entry.ticks ≠ 0 → c.active = true

/-- Neither runs. -/
structure AtRest (c : TimerCell) (coming : Bool) : Prop where
  ticks : c.entry.ticks = 0
  coming : coming = false

/-- **The invariant** at a point of the thread's code. -/
def ThreadAt (c : TimerCell) (coming : Bool) (start : BitVec 32) : Point → Prop
  | .api (.startHandler ticks handler) =>
      InStep c coming start ∧ ticks ≠ 0 ∧ c.active = true ∧ c.type.handler = some handler
  | .api (.startTicks ticks) =>
      InStep c coming start ∧ ticks ≠ 0 ∧ c.active = true ∧ c.HandlerOk
  | .api (.startTime ticks) | .api (.startCompare ticks _) =>
      c.entry.ticks = ticks ∧ ticks ≠ 0 ∧ c.active = true ∧ c.HandlerOk
  | .api .startExpire =>
      c.entry.ticks ≠ 0 ∧ c.active = true ∧ c.HandlerOk ∧ c.compare = start + c.entry.ticks ∧
        coming = false
  | .api .stopTicks | .api .deleteTicks => InStep c coming start ∧ c.active = true
  | .api .stopCompare =>
      c.entry.ticks = 0 ∧ c.active = true ∧ (coming = true → c.HandlerKnown)
  | .api .deleteCompare => c.active = true ∧ (coming = true → c.HandlerKnown)
  | .api .stopHandler | .api (.newActive _ _ _) | .api (.newFunc _ _ _) | .api (.newArg _ _)
  | .api (.newType _) | .api (.untilCompare _) | .api (.sleepTime _ _)
  | .api (.sleepCompare _ _ _) | .api (.sleepDu _ _) | .api (.asleep _ _) => AtRest c coming
  | .api .deleteActive | .api .deleteFunc | .api .deleteArg | .api .deleteEnd | .api .newTicks
  | .api (.setFuncFunc _ _) | .api (.setFuncArg _) | .api .setFuncTicks => coming = false
  | .user | .api (.startCheck _) | .api .stopCheck | .api .deleteCheck
  | .api (.newCheck _ _ _) | .api (.setFuncCheck _ _) | .api (.setFuncCompare _ _)
  | .api (.untilCheck _) => InStep c coming start

theorem AtRest.inStep {c : TimerCell} {coming : Bool} (h : AtRest c coming)
    (start : BitVec 32) : InStep c coming start := by
  have hno : ¬ c.entry.ticks ≠ 0 := not_not.mpr h.ticks
  refine ⟨⟨fun ht => absurd ht hno, fun hc => ?_⟩, fun ht => absurd ht hno,
    fun ht => absurd ht hno, fun ht => absurd ht hno⟩
  rw [h.coming] at hc
  exact absurd hc Bool.false_ne_true

theorem InStep.atRest {c : TimerCell} {coming : Bool} {start : BitVec 32}
    (h : InStep c coming start) (ht : c.entry.ticks = 0) : AtRest c coming :=
  ⟨ht, Bool.eq_false_of_not_eq_true fun hc => h.ticks.mpr hc ht⟩

theorem InStep.not_running {c : TimerCell} {coming : Bool} {start : BitVec 32}
    (h : InStep c coming start) (hr : c.running = false) : AtRest c coming := by
  refine h.atRest ?_
  by_contra ht
  have hrun : c.running = true := by
    rw [TimerCell.running, h.active ht, decide_eq_true ht]
    rfl
  rw [hr] at hrun
  exact absurd hrun Bool.false_ne_true

/-- The interrupt is armed. -/
def TimerCell.armed (c : TimerCell) : Bool := c.hwTimer = .ie

/-- **A step of the thread's code** with no interrupt pending keeps the
    invariant. -/
theorem threadAt_step {c : TimerCell} {start : BitVec 32} {pc : TimerPc}
    (h : ThreadAt c c.armed start (.api pc)) (now : BitVec 32) :
    ThreadAt (timerStep now c pc).1 (timerStep now c pc).1.armed (pc.programs start)
      (timerStep now c pc).2.point := by
  cases pc with
  | startCheck ticks =>
    simp only [timerStep]
    split
    · exact h
    · next hactive =>
      split
      · exact h
      · next hticks =>
        split
        · exact h
        · next handler hhandler =>
          exact ⟨h, hticks, Bool.eq_true_of_not_eq_false hactive, hhandler⟩
  | startHandler ticks handler =>
    obtain ⟨hsync, hticks, hactive, hhandler⟩ := h
    exact ⟨⟨hsync.ticks, hsync.compare, fun _ => hhandler, hsync.active⟩, hticks, hactive, hhandler⟩
  | startTicks ticks => exact ⟨rfl, h.2⟩
  | startTime ticks => exact h
  | startCompare ticks time =>
    obtain ⟨hticks, hne, hactive, hhandler⟩ := h
    refine ⟨fun h0 => hne (hticks.symm.trans h0), hactive, hhandler, ?_, rfl⟩
    show ticks + time = time + c.entry.ticks
    rw [hticks, BitVec.add_comm]
  | startExpire =>
    obtain ⟨hticks, hactive, hhandler, hcompare, _⟩ := h
    exact ⟨⟨fun _ => rfl, fun _ => hticks⟩, fun _ => hcompare, fun _ => hhandler, fun _ => hactive⟩
  | stopCheck =>
    simp only [timerStep]
    split
    · exact h
    · next hactive =>
      split
      · exact h
      · exact ⟨h, Bool.eq_true_of_not_eq_false hactive⟩
  | stopTicks =>
    obtain ⟨hsync, hactive⟩ := h
    exact ⟨rfl, hactive, fun hc => .inr (hsync.handler (hsync.ticks.mpr hc))⟩
  | stopCompare => exact ⟨h.1, rfl⟩
  | stopHandler =>
    have hrest : AtRest (c.setHandler .defaultIeHandler) c.armed := ⟨h.ticks, h.coming⟩
    exact hrest.inStep start
  | deleteCheck =>
    simp only [timerStep]
    split
    · next hticks => exact ⟨h, h.active hticks⟩
    · next hticks => exact (h.atRest (not_not.mp hticks)).coming
  | deleteTicks =>
    obtain ⟨hsync, hactive⟩ := h
    exact ⟨hactive, fun hc => .inr (hsync.handler (hsync.ticks.mpr hc))⟩
  | deleteCompare => exact rfl
  | deleteActive => exact h
  | deleteFunc => exact h
  | deleteArg => exact h
  | deleteEnd => exact AtRest.inStep ⟨rfl, h⟩ start
  | newCheck func type argument =>
    simp only [timerStep]
    split
    · exact h
    · next hactive =>
      split
      · exact h
      · refine h.atRest ?_
        by_contra ht
        exact hactive (h.active ht)
  | newActive func type argument => exact ⟨h.ticks, h.coming⟩
  | newFunc func type argument => exact ⟨h.ticks, h.coming⟩
  | newArg type argument => exact ⟨h.ticks, h.coming⟩
  | newType type => exact h.coming
  | newTicks => exact AtRest.inStep ⟨rfl, h⟩ start
  | setFuncCheck timerFunc argument =>
    simp only [timerStep]
    split <;> exact h
  | setFuncCompare timerFunc argument => exact rfl
  | setFuncFunc timerFunc argument => exact h
  | setFuncArg argument => exact h
  | setFuncTicks => exact AtRest.inStep ⟨rfl, h⟩ start
  | untilCheck ticks =>
    simp only [timerStep]
    split
    · exact h
    · next hr => exact h.not_running (Bool.eq_false_of_not_eq_true hr)
  | untilCompare ticks => exact ⟨h.ticks, rfl⟩
  | sleepTime period turns =>
    simp only [timerStep]
    split
    · exact h.inStep start
    · exact h
  | sleepCompare period time turns => exact ⟨h.ticks, rfl⟩
  | sleepDu period turns => exact ⟨h.ticks, rfl⟩
  | asleep period turns =>
    simp only [timerStep]
    split
    · exact ⟨h.ticks, rfl⟩
    · exact h

/-! ## Section 3: The invariant in the handler -/

/-- A point at which the interrupt of `handler` can have been taken, and what
    its code relies on besides the timer. -/
def Resumable (handler : IeHandler) (c : TimerCell) : Point → Prop
  | .api .stopCompare | .api .deleteCompare =>
      handler = .defaultIeHandler ∨ c.type.handler = some handler
  | .api (.startHandler ticks chosen) =>
      c.type.handler = some handler ∧ ticks ≠ 0 ∧ c.type.handler = some chosen
  | .api (.startTicks ticks) | .api (.startTime ticks) | .api (.startCompare ticks _) =>
      c.type.handler = some handler ∧ ticks ≠ 0
  | .user | .api (.startCheck _) | .api .stopCheck | .api .stopTicks | .api .deleteCheck
  | .api .deleteTicks | .api (.newCheck _ _ _) | .api (.setFuncCheck _ _)
  | .api (.setFuncCompare _ _) | .api (.untilCheck _) => c.type.handler = some handler
  | _ => False

/-- Only the timer's type matters. -/
theorem Resumable.of_type {handler : IeHandler} {c c' : TimerCell} {back : Point}
    (h : Resumable handler c back) (hsame : c'.type = c.type) : Resumable handler c' back := by
  unfold Resumable at h ⊢
  rw [hsame]
  exact h

/-- **The invariant** at a point of the callback. -/
def CallbackAt (c : TimerCell) : Point → Prop
  | .api (.startHandler ticks handler) =>
      (c.entry.ticks ≠ 0 → c.HandlerOk) ∧ ticks ≠ 0 ∧ c.type.handler = some handler
  | .api (.startTicks _) | .api (.startTime _) | .api (.startCompare _ _) | .api .startExpire =>
      c.HandlerOk
  | .api .stopCompare | .api .stopHandler => c.entry.ticks = 0
  | .api .deleteCheck | .api .deleteTicks | .api .deleteCompare | .api .deleteActive
  | .api .deleteFunc | .api .deleteArg | .api .deleteEnd | .api (.newCheck _ _ _)
  | .api (.newActive _ _ _) | .api (.newFunc _ _ _) | .api (.newArg _ _) | .api (.newType _)
  | .api .newTicks => False
  | _ => c.entry.ticks ≠ 0 → c.HandlerOk

/-- What `timer_handler` leaves for the interrupted code. -/
def OnceLeaves (c : TimerCell) : Point → Prop
  | .api .stopCompare | .api .deleteCompare => True
  | .api (.startTime _) | .api (.startCompare _ _) => False
  | .api (.startTicks _) => c.hwTimer ≠ .ie ∧ c.HandlerOk
  | _ => c.hwTimer ≠ .ie

/-- What `timer_periodic_handler` leaves for the interrupted code. -/
def PeriodicLeaves (c : TimerCell) : Point → Prop
  | .api .stopCompare => c.entry.ticks = 0
  | .api .deleteCompare => True
  | .api (.startTime ticks) | .api (.startCompare ticks _) =>
      c.entry.ticks = ticks ∧ c.HandlerOk
  | _ => c.entry.ticks ≠ 0 ∧ c.HandlerOk

/-- **The invariant** at a point of the handler. -/
def HandlerAt (handler : IeHandler) (c : TimerCell) (start : BitVec 32) (back : Point) :
    HandlerPc → Prop
  | .call => c.type.handler = some handler ∧ c.HandlerOk
  | .callback p => c.type.handler = some handler ∧ CallbackAt c p
  | .onceTicks => handler = .timerHandler ∧ OnceLeaves c back
  | .periodicTime => handler = .timerPeriodicHandler ∧ PeriodicLeaves c back
  | .periodicCompare _ => handler = .timerPeriodicHandler ∧ PeriodicLeaves c back
  | .periodicExpire =>
      handler = .timerPeriodicHandler ∧ PeriodicLeaves c back ∧
        c.compare = start + c.entry.ticks
  | .trapRet =>
      (handler = .timerHandler ∧ c.entry.ticks = 0 ∧ OnceLeaves c back) ∨
      (handler = .timerPeriodicHandler ∧ PeriodicLeaves c back ∧
        c.compare = start + c.entry.ticks) ∨
      (handler = .defaultIeHandler ∧
        (back = .api .stopCompare ∧ c.entry.ticks = 0 ∨ back = .api .deleteCompare))

/-- In the handler. -/
structure InHandler (handler : IeHandler) (c : TimerCell) (start : BitVec 32) (back : Point)
    (pc : HandlerPc) : Prop where
  active : c.active = true
  known : c.HandlerKnown
  resumes : Resumable handler c back
  point : HandlerAt handler c start back pc

/-- **A step of the callback** keeps the invariant. -/
theorem callbackAt_step {c : TimerCell} {pc : TimerPc} (h : CallbackAt c (.api pc))
    (hactive : c.active = true) (hknown : c.HandlerKnown) (now : BitVec 32) :
    CallbackAt (timerStep now c pc).1 (timerStep now c pc).2.point ∧
      (timerStep now c pc).1.active = true ∧ (timerStep now c pc).1.HandlerKnown ∧
      (timerStep now c pc).1.type = c.type := by
  cases pc with
  | startCheck ticks =>
    refine ⟨?_, hactive, hknown, rfl⟩
    simp only [timerStep]
    split
    · exact h
    · split
      · exact h
      · next hticks =>
        split
        · exact h
        · next handler hhandler => exact ⟨h, hticks, hhandler⟩
  | startHandler ticks handler => exact ⟨h.2.2, hactive, .inr h.2.2, rfl⟩
  | startTicks ticks => exact ⟨h, hactive, .inr h, rfl⟩
  | startTime ticks => exact ⟨h, hactive, .inr h, rfl⟩
  | startCompare ticks time => exact ⟨h, hactive, .inr h, rfl⟩
  | startExpire => exact ⟨fun _ => h, hactive, .inr h, rfl⟩
  | stopCheck =>
    refine ⟨?_, hactive, hknown, rfl⟩
    simp only [timerStep]
    split
    · exact h
    · split
      · exact h
      · exact h
  | stopTicks => exact ⟨rfl, hactive, hknown, rfl⟩
  | stopCompare => exact ⟨h, hactive, hknown, rfl⟩
  | stopHandler => exact ⟨fun hticks => absurd h hticks, hactive, .inl rfl, rfl⟩
  | setFuncCheck timerFunc argument =>
    refine ⟨?_, hactive, hknown, rfl⟩
    simp only [timerStep]
    split <;> exact h
  | setFuncCompare timerFunc argument => exact ⟨h, hactive, hknown, rfl⟩
  | setFuncFunc timerFunc argument => exact ⟨h, hactive, hknown, rfl⟩
  | setFuncArg argument => exact ⟨h, hactive, hknown, rfl⟩
  | setFuncTicks => exact ⟨fun hticks => absurd rfl hticks, hactive, hknown, rfl⟩
  | untilCheck ticks =>
    refine ⟨?_, hactive, hknown, rfl⟩
    simp only [timerStep]
    split <;> exact h
  | untilCompare ticks => exact ⟨h, hactive, hknown, rfl⟩
  | sleepTime period turns =>
    refine ⟨?_, hactive, hknown, rfl⟩
    simp only [timerStep]
    split <;> exact h
  | sleepCompare period time turns => exact ⟨h, hactive, hknown, rfl⟩
  | sleepDu period turns => exact ⟨h, hactive, hknown, rfl⟩
  | asleep period turns =>
    simp only [timerStep]
    split <;> exact ⟨h, hactive, hknown, rfl⟩
  | _ => exact h.elim

/-! ## Section 4: From the thread to the handler and back -/

/-- The interrupt is to come. -/
def TimerThread.coming (s : TimerThread) : Bool := s.cell.armed || s.mtie

/-- The invariant does not look at the hardware timer. -/
theorem ThreadAt.hwTimer {c : TimerCell} {coming : Bool} {start : BitVec 32} {p : Point}
    (h : ThreadAt c coming start p) (hw : Core.TimerMode) :
    ThreadAt { c with hwTimer := hw } coming start p := by
  have hsync : InStep c coming start → InStep { c with hwTimer := hw } coming start :=
    fun h => ⟨h.ticks, h.compare, h.handler, h.active⟩
  have hrest : AtRest c coming → AtRest { c with hwTimer := hw } coming :=
    fun h => ⟨h.ticks, h.coming⟩
  cases p with
  | user => exact hsync h
  | api pc =>
    cases pc <;> first | exact hsync h | exact ⟨hsync h.1, h.2⟩ | exact hrest h | exact h

/-- Turning the hardware timer off keeps the invariant in the handler. -/
theorem InHandler.off {handler : IeHandler} {c : TimerCell} {start : BitVec 32} {back : Point}
    {pc : HandlerPc} (h : InHandler handler c start back pc) :
    InHandler handler { c with hwTimer := .off } start back pc := by
  have honce : OnceLeaves c back → OnceLeaves { c with hwTimer := .off } back := by
    intro hleaves
    cases back with
    | user => exact nofun
    | api pc => cases pc <;> first | exact ⟨nofun, hleaves.2⟩ | exact hleaves | exact nofun
  have hpoint := h.point
  refine ⟨h.active, h.known, h.resumes, ?_⟩
  cases pc with
  | onceTicks => exact ⟨hpoint.1, honce hpoint.2⟩
  | trapRet =>
    rcases hpoint with ⟨hkind, hticks, hleaves⟩ | hperiodic | hdefault
    · exact .inl ⟨hkind, hticks, honce hleaves⟩
    · exact .inr (.inl hperiodic)
    · exact .inr (.inr hdefault)
  | _ => exact hpoint

theorem entry_of_type {type : OsTimerType} {handler : IeHandler}
    (h : type.handler = some handler) : handler.entry = .call := by
  cases type with
  | osTimerOnce =>
    obtain rfl := Option.some.inj h
    rfl
  | osTimerPeriodic =>
    obtain rfl := Option.some.inj h
    rfl
  | bad => exact absurd h nofun

/-- Where the interrupt is to come, the timer's handler is installed, or the
    thread is about to switch the timer off. -/
theorem trapped_of_threadAt {c : TimerCell} {start : BitVec 32} {p : Point}
    (h : ThreadAt c true start p) : InHandler c.ieHandler c start p c.ieHandler.entry := by
  have hok : c.active = true → c.HandlerOk → Resumable c.ieHandler c p →
      InHandler c.ieHandler c start p c.ieHandler.entry := by
    intro hactive hhandler hresume
    refine ⟨hactive, .inr hhandler, hresume, ?_⟩
    rw [entry_of_type hhandler]
    exact ⟨hhandler, hhandler⟩
  have hsync : InStep c true start → c.active = true ∧ c.HandlerOk := by
    intro hs
    have hticks := hs.ticks.mpr rfl
    exact ⟨hs.active hticks, hs.handler hticks⟩
  have hwindow : c.active = true → c.HandlerKnown →
      (p = .api .stopCompare ∧ c.entry.ticks = 0 ∨ p = .api .deleteCompare) →
      InHandler c.ieHandler c start p c.ieHandler.entry := by
    intro hactive hknown hp
    rcases hknown with hdefault | hhandler
    · have hresume : Resumable c.ieHandler c p := by
        rcases hp with ⟨rfl, _⟩ | rfl <;> exact .inl hdefault
      refine ⟨hactive, .inl hdefault, hresume, ?_⟩
      rw [hdefault]
      exact .inr (.inr ⟨rfl, hp⟩)
    · refine hok hactive hhandler ?_
      rcases hp with ⟨rfl, _⟩ | rfl <;> exact .inr hhandler
  cases p with
  | user => exact hok (hsync h).1 (hsync h).2 (hsync h).2
  | api pc =>
    cases pc with
    | startCheck => exact hok (hsync h).1 (hsync h).2 (hsync h).2
    | startHandler ticks handler =>
      exact hok (hsync h.1).1 (hsync h.1).2 ⟨(hsync h.1).2, h.2.1, h.2.2.2⟩
    | startTicks ticks => exact hok (hsync h.1).1 (hsync h.1).2 ⟨(hsync h.1).2, h.2.1⟩
    | startTime ticks => exact hok h.2.2.1 h.2.2.2 ⟨h.2.2.2, h.2.1⟩
    | startCompare ticks time => exact hok h.2.2.1 h.2.2.2 ⟨h.2.2.2, h.2.1⟩
    | startExpire => exact absurd h.2.2.2.2 nofun
    | stopCheck => exact hok (hsync h).1 (hsync h).2 (hsync h).2
    | stopTicks => exact hok (hsync h.1).1 (hsync h.1).2 (hsync h.1).2
    | stopCompare => exact hwindow h.2.1 (h.2.2 rfl) (.inl ⟨rfl, h.1⟩)
    | stopHandler => exact absurd h.coming nofun
    | deleteCheck => exact hok (hsync h).1 (hsync h).2 (hsync h).2
    | deleteTicks => exact hok (hsync h.1).1 (hsync h.1).2 (hsync h.1).2
    | deleteCompare => exact hwindow h.1 (h.2 rfl) (.inr rfl)
    | newCheck => exact hok (hsync h).1 (hsync h).2 (hsync h).2
    | setFuncCheck => exact hok (hsync h).1 (hsync h).2 (hsync h).2
    | setFuncCompare => exact hok (hsync h).1 (hsync h).2 (hsync h).2
    | untilCheck => exact hok (hsync h).1 (hsync h).2 (hsync h).2
    | deleteActive => exact absurd h nofun
    | deleteFunc => exact absurd h nofun
    | deleteArg => exact absurd h nofun
    | deleteEnd => exact absurd h nofun
    | newTicks => exact absurd h nofun
    | setFuncFunc => exact absurd h nofun
    | setFuncArg => exact absurd h nofun
    | setFuncTicks => exact absurd h nofun
    | _ => exact absurd h.coming nofun

/-- A point between the windows of `osTimerStart`, `osTimerStop` and
    `osTimerDelete` goes on when registers and entry agree. -/
theorem threadAt_of_inStep {handler : IeHandler} {c : TimerCell} {start : BitVec 32}
    {back : Point} (hactive : c.active = true) (hresume : Resumable handler c back)
    (hsync : InStep c c.armed start) (hhandler : ∀ ticks, back = .api (.startTicks ticks) →
      c.HandlerOk)
    (hwindow : back ≠ .api .stopCompare ∧ back ≠ .api .deleteCompare ∧
      (∀ ticks, back ≠ .api (.startTime ticks)) ∧
      ∀ ticks time, back ≠ .api (.startCompare ticks time)) :
    ThreadAt c c.armed start back := by
  cases back with
  | user => exact hsync
  | api pc =>
    cases pc with
    | startHandler ticks chosen => exact ⟨hsync, hresume.2.1, hactive, hresume.2.2⟩
    | startTicks ticks => exact ⟨hsync, hresume.2, hactive, hhandler ticks rfl⟩
    | startTime ticks => exact absurd rfl (hwindow.2.2.1 ticks)
    | startCompare ticks time => exact absurd rfl (hwindow.2.2.2 ticks time)
    | stopTicks => exact ⟨hsync, hactive⟩
    | deleteTicks => exact ⟨hsync, hactive⟩
    | stopCompare => exact absurd rfl hwindow.1
    | deleteCompare => exact absurd rfl hwindow.2.1
    | startCheck => exact hsync
    | stopCheck => exact hsync
    | deleteCheck => exact hsync
    | newCheck => exact hsync
    | setFuncCheck => exact hsync
    | setFuncCompare => exact hsync
    | untilCheck => exact hsync
    | _ => exact hresume.elim

/-- The interrupted code goes on where the handler returns. -/
theorem threadAt_of_trapRet {handler : IeHandler} {c : TimerCell} {start : BitVec 32}
    {back : Point} (h : InHandler handler c start back .trapRet)
    (hexits : back ≠ .api .deleteCompare → c.entry.ticks ≠ 0 → c.hwTimer = .ie) :
    ThreadAt c c.armed start back := by
  have hdelete : back = .api .deleteCompare → ThreadAt c c.armed start back := by
    rintro rfl
    exact ⟨h.active, fun _ => h.known⟩
  have hstop : back = .api .stopCompare → c.entry.ticks = 0 → ThreadAt c c.armed start back := by
    rintro rfl hticks
    exact ⟨hticks, h.active, fun _ => h.known⟩
  by_cases hd : back = .api .deleteCompare
  · exact hdelete hd
  rcases h.point with ⟨_, hticks, hleaves⟩ | ⟨_, hleaves, hcompare⟩ | ⟨_, hdefault⟩
  · by_cases hs : back = .api .stopCompare
    · exact hstop hs hticks
    -- After a one-shot timer nothing is armed.
    have hoff : c.hwTimer ≠ .ie := by
      have hres := h.resumes
      cases back with
      | user => exact hleaves
      | api pc =>
        cases pc <;> first | exact hleaves | exact hleaves.1 | exact hleaves.elim |
          exact absurd rfl hs | exact absurd rfl hd
    have hrest : AtRest c c.armed := ⟨hticks, decide_eq_false hoff⟩
    refine threadAt_of_inStep h.active h.resumes (hrest.inStep start) ?_ ⟨hs, hd, ?_, ?_⟩
    · rintro ticks rfl
      exact hleaves.2
    · rintro ticks rfl
      exact hleaves
    · rintro ticks time rfl
      exact hleaves
  · by_cases hs : back = .api .stopCompare
    · subst hs
      exact hstop rfl hleaves
    -- After a periodic one the next interrupt is to come.
    have hsync : c.entry.ticks ≠ 0 → c.HandlerOk → InStep c c.armed start := by
      intro hticks hhandler
      have harmed : c.armed = true := decide_eq_true (hexits hd hticks)
      exact ⟨⟨fun _ => harmed, fun _ => hticks⟩, fun _ => hcompare, fun _ => hhandler,
        fun _ => h.active⟩
    by_cases ht : ∃ ticks, back = .api (.startTime ticks)
    · obtain ⟨ticks, rfl⟩ := ht
      exact ⟨hleaves.1, h.resumes.2, h.active, hleaves.2⟩
    by_cases hc : ∃ ticks time, back = .api (.startCompare ticks time)
    · obtain ⟨ticks, time, rfl⟩ := hc
      exact ⟨hleaves.1, h.resumes.2, h.active, hleaves.2⟩
    have hboth : c.entry.ticks ≠ 0 ∧ c.HandlerOk := by
      cases back with
      | user => exact hleaves
      | api pc =>
        cases pc <;> first | exact hleaves | exact absurd rfl hs | exact absurd rfl hd |
          exact absurd ⟨_, rfl⟩ ht | exact absurd ⟨_, _, rfl⟩ hc
    exact threadAt_of_inStep h.active h.resumes (hsync hboth.1 hboth.2) (fun _ _ => hboth.2)
      ⟨hs, hd, fun ticks he => ht ⟨ticks, he⟩, fun ticks time he => hc ⟨ticks, time, he⟩⟩
  · rcases hdefault with ⟨hs, hticks⟩ | hd'
    · exact hstop hs hticks
    · exact hdelete hd'

/-- What the callback leaves is what its handler expects. -/
theorem leaves_of_callback {handler : IeHandler} {c : TimerCell} {start : BitVec 32}
    {back : Point} (h : InHandler handler c start back (.callback .user))
    (hleaves : CallbackLeaves handler c back) :
    InHandler handler c start back handler.afterCallback := by
  obtain ⟨htype, hcallback⟩ := h.point
  refine ⟨h.active, h.known, h.resumes, ?_⟩
  cases handler with
  | timerHandler =>
    refine ⟨rfl, ?_⟩
    cases back with
    | user => exact hleaves.1 rfl
    | api pc =>
      cases pc with
      | stopCompare => trivial
      | deleteCompare => trivial
      | startTime => exact absurd hleaves.1 nofun
      | startCompare => exact absurd hleaves.1 nofun
      | startTicks =>
        obtain ⟨hoff, hhandler⟩ := hleaves.1 rfl
        refine ⟨hoff, ?_⟩
        rw [TimerCell.HandlerOk, htype, hhandler]
      | _ => exact hleaves.1 rfl
  | timerPeriodicHandler =>
    refine ⟨rfl, ?_⟩
    cases back with
    | user => exact ⟨hleaves.2 rfl, hcallback (hleaves.2 rfl)⟩
    | api pc =>
      cases pc with
      | stopCompare => exact hleaves rfl
      | deleteCompare => trivial
      | startTime ticks =>
        exact ⟨hleaves.2, hcallback fun h0 => h.resumes.2 (hleaves.2.symm.trans h0)⟩
      | startCompare ticks time =>
        exact ⟨hleaves.2, hcallback fun h0 => h.resumes.2 (hleaves.2.symm.trans h0)⟩
      | _ => exact ⟨hleaves.2 rfl, hcallback (hleaves.2 rfl)⟩
  | defaultIeHandler => exact absurd (entry_of_type htype) nofun
  | user handler => exact absurd (entry_of_type htype) nofun

/-! ## Section 5: Runs -/

/-- **The invariant** of a run whose steps meet the condition. -/
def FiresInv (s : TimerThread) : Prop :=
  match s.context with
  | .thread p => ThreadAt s.cell s.coming s.start p
  | .trap handler pc back => InHandler handler s.cell s.start back pc

theorem FiresInv.thread {s : TimerThread} (h : FiresInv s) {p : Point}
    (hctx : s.context = .thread p) : ThreadAt s.cell s.coming s.start p := by
  rwa [FiresInv, hctx] at h

theorem FiresInv.trap {s : TimerThread} (h : FiresInv s) {handler : IeHandler}
    {pc : HandlerPc} {back : Point} (hctx : s.context = .trap handler pc back) :
    InHandler handler s.cell s.start back pc := by
  rwa [FiresInv, hctx] at h

theorem armed_of_fires {s : TimerThread} {now : BitVec 32} (h : s.fires now = true) :
    s.cell.armed = true := by
  rw [TimerThread.fires, Bool.and_eq_true] at h
  exact h.1

theorem FiresInv.checked {s : TimerThread} (h : FiresInv s) (now : BitVec 32) :
    FiresInv (s.checked now) := by
  cases hf : s.fires now with
  | false => rwa [checked_same hf]
  | true =>
    rw [checked_fired hf]
    unfold FiresInv at h ⊢
    simp only
    split at h
    · have hcoming : s.coming = true := by rw [TimerThread.coming, armed_of_fires hf, Bool.true_or]
      rw [hcoming] at h
      exact h.hwTimer .off
    · exact h.off

theorem CallbackLeaves.checked {s : TimerThread} {handler : IeHandler} {back : Point}
    (h : CallbackLeaves handler s.cell back) (now : BitVec 32) :
    CallbackLeaves handler (s.checked now).cell back := by
  cases hf : s.fires now with
  | false => rwa [checked_same hf]
  | true =>
    rw [checked_fired hf]
    cases back with
    | user => exact ⟨fun _ => nofun, h.2⟩
    | api pc =>
      cases pc with
      | startTicks ticks => exact ⟨fun hk => ⟨nofun, (h.1 hk).2⟩, h.2⟩
      | startTime ticks => exact h
      | startCompare ticks time => exact h
      | stopCompare => exact h
      | deleteCompare => exact h
      | _ => exact ⟨fun _ => nofun, h.2⟩

/-- **A step of the thread's code**. -/
theorem firesInv_thread {s s' : TimerThread} {now : BitVec 32} {p : Point} {ev : TimerEvent}
    (h : ThreadAt s.cell s.coming s.start p) (hctx : s.context = .thread p)
    (hmtie : s.mtie = false)
    (hsleeps : ∀ c, p = .user → ev = .call c → c.sleeps = true → s.cell.running = false)
    (hcase : PointCase s now .thread p ev s') : FiresInv s' := by
  have hcoming : s.coming = s.cell.armed := by rw [TimerThread.coming, hmtie, Bool.or_false]
  cases hcase with
  | call c =>
    show ThreadAt s.cell s.coming s.start (.api c.pc)
    cases c with
    | delay ticks => exact InStep.not_running h (hsleeps _ rfl rfl rfl)
    | wait period turns => exact InStep.not_running h (hsleeps _ rfl rfl rfl)
    | _ => exact h
  | user =>
    rw [FiresInv, hctx]
    exact h
  | api pc =>
    show ThreadAt _ ((timerStep now s.cell pc).1.armed || s.mtie) _ _
    rw [hmtie, Bool.or_false]
    rw [hcoming] at h
    exact threadAt_step h now

/-- **A step of the callback**. -/
theorem firesInv_callback {s s' : TimerThread} {now : BitVec 32} {handler : IeHandler}
    {p back : Point} {ev : TimerEvent}
    (h : InHandler handler s.cell s.start back (.callback p))
    (hctx : s.context = .trap handler (.callback p) back)
    (hcalls : ∀ c, p = .user → ev = .call c → c.inCallback = true)
    (hcase : PointCase s now (fun p => .trap handler (.callback p) back) p ev s') :
    FiresInv s' := by
  cases hcase with
  | call c =>
    obtain ⟨htype, hcallback⟩ := h.point
    refine ⟨h.active, h.known, h.resumes, htype, ?_⟩
    have hc := hcalls c rfl rfl
    cases c with
    | timerNew => exact absurd hc nofun
    | timerDelete => exact absurd hc nofun
    | _ => exact hcallback
  | user =>
    rw [FiresInv, hctx]
    exact h
  | api pc =>
    obtain ⟨htype, hcallback⟩ := h.point
    obtain ⟨hnext, hactive, hknown, hsame⟩ := callbackAt_step hcallback h.active h.known now
    refine ⟨hactive, hknown, h.resumes.of_type hsame, ?_, hnext⟩
    rw [hsame]
    exact htype

/-- **A step of the handler**, but for its last one. -/
theorem firesInv_handler {s s' : TimerThread} {now : BitVec 32} {fired : Bool}
    {handler : IeHandler} {pc : HandlerPc} {back : Point} {ev : TimerEvent}
    (h : InHandler handler s.cell s.start back pc)
    (hctx : s.context = .trap handler pc back) (hret : pc ≠ .trapRet)
    (hcalls : ∀ c, pc = .callback .user → ev = .call c → c.inCallback = true)
    (hleaves : pc = .callback .user → ev = .callbackReturns → CallbackLeaves handler s.cell back)
    (hcase : ExecCase s now fired (.trap handler pc back) ev s') : FiresInv s' := by
  have hpoint := h.point
  cases hcase with
  | call => exact ⟨h.active, h.known, h.resumes, hpoint.1, fun _ => hpoint.2⟩
  | callbackReturns => exact leaves_of_callback h (hleaves rfl rfl)
  | @callback _ p _ ev s' hp =>
    exact firesInv_callback h hctx (fun c hpu => hcalls c (congrArg HandlerPc.callback hpu)) hp
  | onceTicks =>
    have hleft : OnceLeaves (s.cell.setTicks 0) back := by
      have hl := hpoint.2
      cases back with
      | user => exact hl
      | api pc' => cases pc' <;> exact hl
    exact ⟨h.active, h.known, h.resumes.of_type rfl, .inl ⟨hpoint.1, rfl, hleft⟩⟩
  | periodicTime => exact ⟨h.active, h.known, h.resumes, hpoint⟩
  | @periodicCompare _ time _ =>
    have hleft : PeriodicLeaves (s.cell.setCompare (s.cell.entry.ticks + time)) back := by
      have hl := hpoint.2
      cases back with
      | user => exact hl
      | api pc' => cases pc' <;> exact hl
    exact ⟨h.active, h.known, h.resumes.of_type rfl, hpoint.1, hleft, BitVec.add_comm ..⟩
  | periodicExpire =>
    have hleft : PeriodicLeaves s.cell.interruptExpire back := by
      have hl := hpoint.2.1
      cases back with
      | user => exact hl
      | api pc' => cases pc' <;> exact hl
    exact ⟨h.active, h.known, h.resumes.of_type rfl, .inr (.inl ⟨hpoint.1, hleft, hpoint.2.2⟩)⟩
  | trapRet => exact absurd rfl hret

/-- **A step** that meets the condition keeps the invariant. -/
theorem firesInv_step {s s' : TimerThread} {l : BitVec 32 × TimerEvent} (h : FiresInv s)
    (hwf : s.WellFormed) (hok : FiresOk s l) (hstep : s.step l = some s') : FiresInv s' := by
  obtain ⟨now, ev⟩ := l
  have hchecked := h.checked now
  have hctx' := checked_context s now
  rcases step_cases hstep with ⟨_, hmtie, p, hctx, rfl⟩ | ⟨hno, hcase⟩
  · have hthread := hchecked.thread (hctx'.trans hctx)
    have hcoming : (s.checked now).coming = true := by
      rw [TimerThread.coming, hmtie, Bool.or_true]
    rw [hcoming] at hthread
    rw [← checked_ieHandler s now]
    exact trapped_of_threadAt hthread
  · cases hctx : s.context with
    | thread p =>
      rw [hctx] at hcase
      obtain ⟨hp⟩ := hcase
      refine firesInv_thread (hchecked.thread (hctx'.trans hctx)) (hctx'.trans hctx)
        ((hwf.checked now).not_pending (hctx'.trans hctx) hno) ?_ hp
      intro c hpu hev hsleeps
      have hrun := hok.sleeps c (by rw [hctx, hpu]) hev hsleeps
      rw [← hrun]
      unfold TimerThread.checked
      split <;> rfl
    | trap handler pc back =>
      rw [hctx] at hcase
      by_cases hret : pc = .trapRet
      · subst hret
        have hexits := hok.exits handler back hctx
        have hthread := threadAt_of_trapRet (h.trap hctx) hexits
        cases hcase with
        | trapRet =>
          show ThreadAt (s.checked now).cell ((s.checked now).cell.armed || s.fires now)
            (s.checked now).start back
          cases hf : s.fires now with
          | false => rwa [checked_same hf, Bool.or_false]
          | true =>
            rw [checked_fired hf, Bool.or_true]
            rw [armed_of_fires hf] at hthread
            exact hthread.hwTimer .off
      · refine firesInv_handler (hchecked.trap (hctx'.trans hctx)) (hctx'.trans hctx) hret
          ?_ ?_ hcase
        · exact fun c hpc hev => hok.calls c handler back (by rw [hctx, hpc]) hev
        · exact fun hpc hev => (hok.leaves handler back (by rw [hctx, hpc]) hev).checked now

theorem firesInv_atStart {s : TimerThread} (h : s.AtStart) : FiresInv s := by
  rw [FiresInv, h.context]
  refine AtRest.inStep ⟨h.ticks, ?_⟩ s.start
  rw [TimerThread.coming, h.mtie, TimerCell.armed, h.hwTimer]
  rfl

/-- **A running timer is armed**: in every run whose steps meet the condition,
    whenever the thread is in its own code between two calls. -/
theorem timerRunning_armed {s : TimerThread} (h : (timerSystem.restrict FiresOk).Reachable s)
    (hctx : s.context = .thread .user) : RunningFires s := by
  have hinv : FiresInv s ∧ s.WellFormed :=
    h.invariant (fun s => FiresInv s ∧ s.WellFormed)
      (fun s h₀ => ⟨firesInv_atStart h₀, wellFormed_atStart h₀⟩)
      (fun s l s' _ hinv hstep =>
        ⟨firesInv_step hinv.1 hinv.2 hstep.1 hstep.2, wellFormed_step hinv.2 hstep.2⟩)
  have hsync : InStep s.cell s.coming s.start := hinv.1.thread hctx
  have hrunning : s.cell.running = true ↔ s.cell.entry.ticks ≠ 0 := by
    rw [TimerCell.running, Bool.and_eq_true, decide_eq_true_eq]
    exact ⟨fun hr => hr.2, fun ht => ⟨hsync.active ht, ht⟩⟩
  have hcoming : s.coming = true ↔ s.cell.hwTimer = .ie ∨ s.mtie = true := by
    rw [TimerThread.coming, Bool.or_eq_true, TimerCell.armed, decide_eq_true_eq]
  constructor
  case armed =>
    rw [hrunning, ← hcoming, ← hsync.ticks]
    exact ⟨fun ht => ⟨ht, hsync.compare ht⟩, fun hr => hr.1⟩
  case handler => exact fun hr => hsync.handler (hrunning.mp hr)

/-- A test that is enough for the condition on a step. -/
def inThreadAwake (s : TimerThread) (l : BitVec 32 × TimerEvent) : Bool :=
  s.context.inThread && match l.2 with
    | .call c => !c.sleeps
    | _ => true

theorem firesOk_of_inThreadAwake (s : TimerThread) (l : BitVec 32 × TimerEvent)
    (h : inThreadAwake s l = true) : FiresOk s l := by
  obtain ⟨hin, hawake⟩ := Bool.and_eq_true_iff.mp h
  have hno : ∀ handler pc back, s.context ≠ .trap handler pc back := by
    intro handler pc back hctx
    rw [hctx] at hin
    exact absurd hin Bool.false_ne_true
  constructor
  case sleeps =>
    intro c _ hl hsleeps
    rw [hl] at hawake
    simp [hsleeps] at hawake
  case calls => exact fun _ _ _ hctx => absurd hctx (hno _ _ _)
  case leaves => exact fun _ _ hctx => absurd hctx (hno _ _ _)
  case exits => exact fun _ _ hctx => absurd hctx (hno _ _ _)

/-- A started timer is armed. -/
theorem startedTimer_armed :
    RunningFires (TimerThread.after (startedLabels .osTimerPeriodic)) := by
  have hrun : (timerSystem.restrict FiresOk).Run freshThread (startedLabels .osTimerPeriodic)
      (TimerThread.after (startedLabels .osTimerPeriodic)) :=
    System.run_restrict_of_execute firesOk_of_inThreadAwake rfl
  exact timerRunning_armed ((System.Reachable.init freshThread_atStart).run hrun) rfl

/-- A started timer, and `osDelay` of 100 by the same thread. -/
def delayLabels : List (BitVec 32 × TimerEvent) :=
  startedLabels .osTimerOnce ++ callSteps 0 (.delay 100) 3 ++ [(100, .insn), (100, .insn)]

/-- The delay has taken the compare register from the running timer. -/
theorem delayed_not_armed :
    timerSystem.Reachable (TimerThread.after delayLabels) ∧
      (TimerThread.after delayLabels).context = .thread .user ∧
      ¬ RunningFires (TimerThread.after delayLabels) := by
  have hreach : timerSystem.Reachable (TimerThread.after delayLabels) :=
    reachable_after (by decide)
  refine ⟨hreach, by decide, ?_⟩
  intro h
  have hrunning : (TimerThread.after delayLabels).cell.running = true := by decide
  have hcoming := (h.armed.mp hrunning).1
  revert hcoming
  decide

end Flexpret.Os
